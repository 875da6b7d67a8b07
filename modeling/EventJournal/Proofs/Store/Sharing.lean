import EventJournal.Proofs.Store.Merging

/-!
# Sharing

Any number of transactions share a journal. Each of them is begun, gathers records and is committed,
rolled back or given up, while the others do the same; in between anybody asks for records.

* `Transaction.Request`, `Transaction.Standing`: what is asked in the name of a transaction, and
  where it stands, and `Transaction.respond?`;
* `Sharing`, a journal with its transactions, and `Sharing.respond?`;
* `Minutes`, the same with the exchanges so far, and `Minutes.after?`;
* `Sharing.Exchange.staged`, `Sharing.Exchange.committed`: what the exchanges tell;
* `Minutes.Kept`, what every exchange preserves;
* `Minutes.Hides`, that some transactions are left out of the minutes;
* `Minutes.Orderly`, what is guaranteed.

The main statement is `Minutes.orderly_of_after`: streams are merged by commits that succeed and by
nothing else, and other transactions leave no trace.
-/

namespace EventJournal

open Record (place)

/-- What is asked in the name of a transaction. -/
inductive Transaction.Request
  | begin
  | lastSequence (aggregateId : String)
  | insert (records : List Record)
  | commit
  | rollback
  /-- It is given up. -/
  | drop

/-- Where a transaction stands. -/
inductive Transaction.Standing
  | fresh
  | going (tx : Transaction)
  | ended

namespace Sharing

/-- What is asked of a journal that is shared. -/
inductive Request
  | of (tx : Nat) (request : Transaction.Request)
  | query (aggregateId : String) (fromSequence : Int)
  | count

/-- What is answered. -/
inductive Answer
  | done (result : Except BackendError Unit)
  | last (result : Except BackendError (Option Int))
  | found (result : Except BackendError (List Record))
  | counted (count : Nat)
  | nothing

/-- A request with its answer. -/
structure Exchange where
  request : Request
  answer : Answer

end Sharing

/-- The answer to a request in the name of a transaction, and the journal and the standing after it;
none if it cannot be made. -/
def Transaction.respond? (j : Journal) :
    Standing → Request → Option (Sharing.Answer × Journal × Standing)
  | .fresh, .begin =>
    match Journal.backend.begin j with
    | (.ok tx, j) => some (.done (.ok ()), j, .going tx)
    | (.error e, j) => some (.done (.error e), j, .ended)
  | .going tx, .lastSequence aggregateId =>
    let (result, j) := Journal.backend.lastSequence j tx aggregateId
    some (.last result, j, .going tx)
  | .going tx, .insert records =>
    match Journal.backend.insert j tx records with
    | (.ok tx, j) => some (.done (.ok ()), j, .going tx)
    | (.error e, j) => some (.done (.error e), j, .going tx)
  | .going tx, .commit =>
    let (result, j) := Journal.backend.commit j tx
    some (.done result, j, .ended)
  | .going tx, .rollback =>
    let (result, j) := Journal.backend.rollback j tx
    some (.done result, j, .ended)
  | .going _, .drop => some (.nothing, j, .ended)
  | _, _ => none

/-- A journal and where its transactions stand. -/
structure Sharing where
  journal : Journal := {}
  standing : Nat → Transaction.Standing := fun _ => .fresh

/-- The answer to a request, and what is shared after it; none if it cannot be made. -/
def Sharing.respond? (s : Sharing) : Sharing.Request → Option (Answer × Sharing)
  | .of tx request =>
    match Transaction.respond? s.journal (s.standing tx) request with
    | none => none
    | some (answer, journal, standing) =>
      some (answer, ⟨journal, Function.update s.standing tx standing⟩)
  | .query aggregateId fromSequence =>
    let (result, journal) := Journal.backend.query s.journal aggregateId fromSequence
    some (.found result, { s with journal })
  | .count => some (.counted s.journal.count, s)

open Sharing (Answer Exchange)

/-- A journal that is shared, with the exchanges so far, the latest in front. -/
structure Minutes where
  sharing : Sharing := {}
  past : List Exchange := []

namespace Minutes

/-- One more request is answered; none if it cannot be made now. -/
def ask? (c : Minutes) (request : Sharing.Request) : Option Minutes :=
  match c.sharing.respond? request with
  | none => none
  | some (answer, sharing) => some ⟨sharing, ⟨request, answer⟩ :: c.past⟩

/-- Some requests are answered one after another; none if one of them cannot be made. -/
def after? (c : Minutes) : List Sharing.Request → Option Minutes
  | [] => some c
  | request :: rest =>
    match c.ask? request with
    | none => none
    | some c => c.after? rest

end Minutes

namespace Sharing.Exchange

/-- The records that have been inserted in a transaction. -/
def staged (tx : Nat) : List Exchange → List Record
  | [] => []
  | ⟨.of other (.insert records), .done (.ok ())⟩ :: past =>
    staged tx past ++ if other = tx then records else []
  | _ :: past => staged tx past

/-- The records that have been committed. -/
def committed : List Exchange → List Record
  | [] => []
  | ⟨.of tx .commit, .done (.ok ())⟩ :: past => committed past ++ staged tx past
  | _ :: past => committed past

end Sharing.Exchange

open Sharing.Exchange (staged committed)

/-! ### What requests do -/

/-- What a request in the name of a transaction does. -/
inductive Transaction.Response (j : Journal) :
    Standing → Request → Answer → Journal → Standing → Prop
  | begins : Response j .fresh .begin (.done (.ok ())) j (.going {})
  | tells (tx : Transaction) (aggregateId : String) :
    Response j (.going tx) (.lastSequence aggregateId)
      (.last (.ok (tx.lastSequence? j aggregateId))) j (.going tx)
  | stages (tx : Transaction) (records : List Record) :
    Response j (.going tx) (.insert records) (.done (.ok ())) j (.going (tx.stage records))
  | commits {tx : Transaction} {result : Except BackendError Unit} {j' : Journal}
      (answer : Journal.backend.commit j tx = (result, j')) :
    Response j (.going tx) .commit (.done result) j' .ended
  | rollsBack (tx : Transaction) : Response j (.going tx) .rollback (.done (.ok ())) j .ended
  | drops (tx : Transaction) : Response j (.going tx) .drop .nothing j .ended

theorem Transaction.response_of_respond {j j' : Journal} {standing standing' : Standing}
    {request : Transaction.Request} {answer : Answer}
    (h : respond? j standing request = some (answer, j', standing')) :
    Response j standing request answer j' standing' := by
  cases standing with
  | ended => cases request <;> simp [respond?] at h
  | fresh =>
    cases request with
    | begin =>
      obtain ⟨rfl, rfl, rfl⟩ := by simpa [respond?, Journal.backend] using h
      exact .begins
    | _ => simp [respond?] at h
  | going tx =>
    cases request with
    | begin => simp [respond?] at h
    | lastSequence aggregateId =>
      obtain ⟨rfl, rfl, rfl⟩ := by simpa [respond?, Journal.backend] using h
      exact .tells tx aggregateId
    | insert records =>
      obtain ⟨rfl, rfl, rfl⟩ := by simpa [respond?, Journal.backend] using h
      exact .stages tx records
    | commit =>
      obtain ⟨rfl, rfl, rfl⟩ := by simpa [respond?] using h
      exact .commits rfl
    | rollback =>
      obtain ⟨rfl, rfl, rfl⟩ := by simpa [respond?, Journal.backend] using h
      exact .rollsBack tx
    | drop =>
      obtain ⟨rfl, rfl, rfl⟩ := by simpa [respond?] using h
      exact .drops tx

/-- Only a commit that succeeds changes the journal. -/
theorem Transaction.Response.journal_eq {j j' : Journal} {standing standing' : Standing}
    {request : Transaction.Request} {answer : Answer}
    (h : Response j standing request answer j' standing')
    (uncommitted : request = .commit → answer ≠ .done (.ok ())) : j' = j := by
  cases h with
  | begins | tells | stages | rollsBack | drops => rfl
  | commits answer =>
    obtain ⟨rfl, -⟩ | ⟨e, -, rfl⟩ := Journal.backend_commit_cases answer
    · exact (uncommitted rfl rfl).elim
    · rfl

namespace Minutes

variable {c c' d : Minutes} {request : Sharing.Request}
  {requests : List Sharing.Request}

/-- What holds at first and is kept by every answer holds after some requests. -/
theorem induction_of_after {P : Minutes → Prop} (first : P c)
    (keep : ∀ {c request c'}, P c → ask? c request = some c' → P c')
    (h : c.after? requests = some c') : P c' := by
  induction requests generalizing c with
  | nil => exact Option.some.inj h ▸ first
  | cons request rest ih =>
    rw [after?] at h
    split at h
    · simp at h
    · next c₁ hask => exact ih (keep first hask) h

/-- A request in the name of a transaction is answered from the journal and the standing of this
transaction, and changes no other standing. -/
theorem ask?_of (c : Minutes) (tx : Nat) (request : Transaction.Request) :
    c.ask? (.of tx request) =
      (Transaction.respond? c.sharing.journal (c.sharing.standing tx) request).map
        fun response => ⟨⟨response.2.1, Function.update c.sharing.standing tx response.2.2⟩,
          ⟨.of tx request, response.1⟩ :: c.past⟩ := by
  rw [ask?, Sharing.respond?]
  cases Transaction.respond? c.sharing.journal (c.sharing.standing tx) request <;> rfl

theorem ask_of {tx : Nat} {request : Transaction.Request} (h : c.ask? (.of tx request) = some c') :
    ∃ answer journal standing,
      Transaction.Response c.sharing.journal (c.sharing.standing tx) request answer journal
        standing ∧
      c' = ⟨⟨journal, Function.update c.sharing.standing tx standing⟩,
        ⟨.of tx request, answer⟩ :: c.past⟩ := by
  rw [ask?_of, Option.map_eq_some_iff] at h
  obtain ⟨⟨answer, journal, standing⟩, hrespond, rfl⟩ := h
  exact ⟨answer, journal, standing, Transaction.response_of_respond hrespond, rfl⟩

/-! ### What every exchange preserves -/

/-- The exchanges tell what is in the journal and what its transactions have gathered, and all
places in the journal are different. -/
structure Kept (c : Minutes) : Prop where
  records : c.sharing.journal.records = committed c.past
  distinct : (c.sharing.journal.records.map place).Nodup
  fresh : ∀ tx, c.sharing.standing tx = .fresh → staged tx c.past = []
  going : ∀ tx t, c.sharing.standing tx = .going t → t.staged = staged tx c.past

theorem kept_new : Kept {} where
  records := rfl
  distinct := .nil
  fresh _ _ := rfl
  going _ _ h := nomatch h

/-- An exchange in the name of a transaction leaves those of the others as they are. -/
theorem Kept.put (h : c.Kept) {tx : Nat} {request : Transaction.Request} {answer : Answer}
    {j : Journal} {standing : Transaction.Standing}
    (records : j.records = committed (⟨.of tx request, answer⟩ :: c.past))
    (distinct : (j.records.map place).Nodup) (begun : standing ≠ .fresh)
    (own : ∀ t, standing = .going t → t.staged = staged tx (⟨.of tx request, answer⟩ :: c.past))
    (others : ∀ other, other ≠ tx →
      staged other (⟨.of tx request, answer⟩ :: c.past) = staged other c.past) :
    Kept ⟨⟨j, Function.update c.sharing.standing tx standing⟩,
      ⟨.of tx request, answer⟩ :: c.past⟩ where
  records := records
  distinct := distinct
  fresh other hfresh := by
    by_cases heq : other = tx
    · subst heq
      exact (begun (by simpa using hfresh)).elim
    · rw [others other heq]
      exact h.fresh other (by simpa [Function.update_of_ne heq] using hfresh)
  going other t hgoing := by
    by_cases heq : other = tx
    · subst heq
      exact own t (by simpa using hgoing)
    · rw [others other heq]
      exact h.going other t (by simpa [Function.update_of_ne heq] using hgoing)

theorem Kept.ask (h : c.Kept) (hask : c.ask? request = some c') : c'.Kept := by
  cases request with
  | query aggregateId fromSequence =>
    obtain rfl := Option.some.inj hask
    exact ⟨h.records, h.distinct, h.fresh, h.going⟩
  | count =>
    obtain rfl := Option.some.inj hask
    exact ⟨h.records, h.distinct, h.fresh, h.going⟩
  | of tx request =>
    obtain ⟨answer, journal, standing, response, rfl⟩ := ask_of hask
    generalize hstanding : c.sharing.standing tx = before at response
    cases response with
    | begins =>
      refine h.put h.records h.distinct nofun ?_ fun _ _ => rfl
      rintro t ⟨⟩
      exact (h.fresh tx hstanding).symm
    | tells t aggregateId =>
      refine h.put h.records h.distinct nofun ?_ fun _ _ => rfl
      rintro t ⟨⟩
      exact h.going tx t hstanding
    | stages t records =>
      refine h.put h.records h.distinct nofun ?_ fun other hne => ?_
      · rintro t' ⟨⟩
        rw [Transaction.staged_stage, h.going tx t hstanding, staged, if_pos rfl]
      · rw [staged, if_neg (Ne.symm hne), List.append_nil]
    | @commits t result journal answer =>
      obtain ⟨rfl, grows⟩ | ⟨e, rfl, rfl⟩ := Journal.backend_commit_cases answer
      · refine h.put ?_ (grows.nodup h.distinct) nofun nofun fun _ _ => rfl
        rw [grows.records, h.records, h.going tx t hstanding, committed]
      · exact h.put h.records h.distinct nofun nofun fun _ _ => rfl
    | rollsBack t => exact h.put h.records h.distinct nofun nofun fun _ _ => rfl
    | drops t => exact h.put h.records h.distinct nofun nofun fun _ _ => rfl

theorem Kept.after (h : c.Kept) (hafter : c.after? requests = some c') : c'.Kept :=
  induction_of_after h Kept.ask hafter

/-! ### Transactions that leave no trace -/

/-- A request is made in the name of one of some transactions. -/
def isHidden (hidden : Nat → Bool) : Sharing.Request → Bool
  | .of tx _ => hidden tx
  | _ => false

/-- None of some transactions has been committed. -/
def Uncommitted (hidden : Nat → Bool) (past : List Exchange) : Prop :=
  ∀ tx, hidden tx = true → ⟨.of tx .commit, .done (.ok ())⟩ ∉ past

/-- The minutes `c'` leave some transactions out, and are otherwise the same. -/
structure Hides (hidden : Nat → Bool) (c c' : Minutes) : Prop where
  journal : c'.sharing.journal = c.sharing.journal
  standing : ∀ tx, hidden tx = false → c'.sharing.standing tx = c.sharing.standing tx
  past : c'.past = c.past.filter fun x => !isHidden hidden x.request

variable {hidden : Nat → Bool}

/-- What is asked in the name of a hidden transaction changes nothing for the others. -/
theorem Hides.of_hidden (h : Hides hidden c c') (hrequest : isHidden hidden request = true)
    (hask : c.ask? request = some d) (uncommitted : Uncommitted hidden d.past) :
    Hides hidden d c' := by
  cases request with
  | query | count => simp [isHidden] at hrequest
  | of tx request =>
    obtain ⟨answer, journal, standing, response, rfl⟩ := ask_of hask
    have hjournal : journal = c.sharing.journal := by
      refine response.journal_eq ?_
      rintro rfl rfl
      exact uncommitted tx hrequest (List.mem_cons_self ..)
    exact {
      journal := h.journal.trans hjournal.symm
      standing := by
        intro other hother
        have hne : other ≠ tx := by
          rintro rfl
          simp [isHidden, hother] at hrequest
        simp [Function.update_of_ne hne, h.standing other hother]
      past := by simp [h.past, hrequest] }

/-- Whatever else is asked is answered as if the hidden transactions were not there. -/
theorem Hides.of_shown (h : Hides hidden c c') (hrequest : isHidden hidden request = false)
    (hask : c.ask? request = some d) : ∃ d', c'.ask? request = some d' ∧ Hides hidden d d' := by
  cases request with
  | query | count =>
    obtain rfl := Option.some.inj hask
    refine ⟨_, rfl, h.journal, h.standing, ?_⟩
    simp [h.past, h.journal, isHidden]
  | of tx request =>
    rw [ask?_of, Option.map_eq_some_iff] at hask
    obtain ⟨⟨answer, journal, standing⟩, hrespond, rfl⟩ := hask
    rw [ask?_of, h.journal, h.standing tx hrequest, hrespond]
    refine ⟨_, rfl, rfl, fun other hother => ?_, by simp [h.past, hrequest]⟩
    by_cases heq : other = tx
    · simp [heq]
    · simp [Function.update_of_ne heq, h.standing other hother]

theorem past_ask (h : c.ask? request = some d) :
    ∃ answer, d.past = ⟨request, answer⟩ :: c.past := by
  unfold ask? at h
  cases hrespond : c.sharing.respond? request with
  | none => simp [hrespond] at h
  | some response =>
    obtain rfl := by simpa [hrespond] using h
    exact ⟨response.1, rfl⟩

theorem past_isSuffix (h : c.after? requests = some d) : c.past <:+ d.past := by
  refine induction_of_after (P := fun d => c.past <:+ d.past) (List.suffix_refl _) ?_ h
  intro c₁ request c₂ hsuffix hask
  obtain ⟨answer, hpast⟩ := past_ask hask
  exact hpast ▸ hsuffix.trans (List.suffix_cons ..)

/-- Transactions that are never committed can be left out from the start. -/
theorem Hides.after (h : Hides hidden c c') (hafter : c.after? requests = some d)
    (uncommitted : Uncommitted hidden d.past) :
    ∃ d', c'.after? (requests.filter fun request => !isHidden hidden request) = some d' ∧
      Hides hidden d d' := by
  induction requests generalizing c c' with
  | nil =>
    obtain rfl := Option.some.inj hafter
    exact ⟨c', rfl, h⟩
  | cons request rest ih =>
    rw [after?] at hafter
    split at hafter
    · simp at hafter
    · next c₁ hask =>
      cases hrequest : isHidden hidden request with
      | true =>
        have huncommitted : Uncommitted hidden c₁.past := fun tx htx hmem =>
          uncommitted tx htx ((past_isSuffix hafter).subset hmem)
        rw [List.filter_cons_of_neg (by simp [hrequest])]
        exact ih (h.of_hidden hrequest hask huncommitted) hafter
      | false =>
        obtain ⟨c₁', hask', h₁⟩ := h.of_shown hrequest hask
        obtain ⟨d', hafter', hd⟩ := ih h₁ hafter
        refine ⟨d', ?_, hd⟩
        rw [List.filter_cons_of_pos (by simp [hrequest]), after?, hask']
        exact hafter'

/-! ### Order -/

/-- What is guaranteed of a journal that is shared. -/
structure Orderly (requests : List Sharing.Request) (c : Minutes) : Prop where
  ascending : ∀ aggregateId,
    (c.sharing.journal.stream aggregateId).Pairwise (·.sequenceNo < ·.sequenceNo)
  /-- A stream holds what has been committed to its aggregate, and nothing else. -/
  mem_stream : ∀ aggregateId r, r ∈ c.sharing.journal.stream aggregateId ↔
    r ∈ committed c.past ∧ r.aggregateId = aggregateId
  count : c.sharing.respond? .count = some (.counted (committed c.past).length, c.sharing)
  sum : ∀ aggregates : Finset String, (∀ r ∈ committed c.past, r.aggregateId ∈ aggregates) →
    (committed c.past).length =
      ∑ aggregateId ∈ aggregates, (c.sharing.journal.stream aggregateId).length
  /-- To commit a transaction merges what has been inserted in it, or changes nothing. -/
  commit : ∀ tx t, c.sharing.standing tx = .going t → ∃ result s',
    c.sharing.respond? (.of tx .commit) = some (.done result, s') ∧
    c.sharing.journal.Merges (staged tx c.past) result s'.journal
  /-- Only commits that succeed change the journal. -/
  unchanged : ∀ request answer s', c.sharing.respond? request = some (answer, s') →
    (∀ tx, request = .of tx .commit → answer ≠ .done (.ok ())) → s'.journal = c.sharing.journal
  query : ∀ aggregateId fromSequence, ∃ records,
    c.sharing.respond? (.query aggregateId fromSequence) =
      some (.found (.ok records), c.sharing) ∧
    records.Pairwise (·.sequenceNo < ·.sequenceNo) ∧
    ∀ r, r ∈ records ↔
      r ∈ committed c.past ∧ r.aggregateId = aggregateId ∧ fromSequence ≤ r.sequenceNo
  /-- A transaction sees what has been committed and its own records. -/
  last : ∀ tx t, c.sharing.standing tx = .going t → ∀ aggregateId,
    c.sharing.respond? (.of tx (.lastSequence aggregateId)) =
      some (.last (.ok (greatest? (Record.numbersOf aggregateId
        (committed c.past ++ staged tx c.past)))), c.sharing)
  /-- Everybody is answered as if the transactions that are never committed were not there. -/
  hides : ∀ hidden, Uncommitted hidden c.past → ∃ c',
    Minutes.after? {} (requests.filter fun request => !isHidden hidden request) = some c' ∧
    Hides hidden c c'

theorem Kept.commit (h : c.Kept) {tx : Nat} {t : Transaction}
    (hstanding : c.sharing.standing tx = .going t) : ∃ result s',
      c.sharing.respond? (.of tx .commit) = some (.done result, s') ∧
      c.sharing.journal.Merges (staged tx c.past) result s'.journal := by
  cases hcommit : Journal.backend.commit c.sharing.journal t with
  | mk result journal =>
    refine ⟨result, ⟨journal, Function.update c.sharing.standing tx .ended⟩, ?_, ?_⟩
    · simp [Sharing.respond?, Transaction.respond?, hstanding, hcommit]
    · rw [← h.going tx t hstanding]
      exact Journal.merges_of_commit h.distinct hcommit

theorem journal_of_respond {answer : Answer} {s' : Sharing}
    (hrespond : c.sharing.respond? request = some (answer, s'))
    (uncommitted : ∀ tx, request = .of tx .commit → answer ≠ .done (.ok ())) :
    s'.journal = c.sharing.journal := by
  cases request with
  | query | count =>
    obtain ⟨rfl, rfl⟩ := Prod.mk.inj (Option.some.inj hrespond)
    rfl
  | of tx request =>
    have hask : c.ask? (.of tx request) = some ⟨s', ⟨.of tx request, answer⟩ :: c.past⟩ := by
      rw [ask?, hrespond]
    obtain ⟨answer', journal, standing, response, heq⟩ := ask_of hask
    obtain ⟨rfl, hpast⟩ := Minutes.mk.inj heq
    obtain rfl := (Sharing.Exchange.mk.inj (List.cons.inj hpast).1).2
    exact response.journal_eq fun hcommit => uncommitted tx (hcommit ▸ rfl)

/-- A query finds the records of a stream from a number on, in ascending order. -/
theorem Kept.query (h : c.Kept) (aggregateId : String) (fromSequence : Int) : ∃ records,
      c.sharing.respond? (.query aggregateId fromSequence) =
        some (.found (.ok records), c.sharing) ∧
      records.Pairwise (·.sequenceNo < ·.sequenceNo) ∧
      ∀ r, r ∈ records ↔
        r ∈ committed c.past ∧ r.aggregateId = aggregateId ∧ fromSequence ≤ r.sequenceNo := by
  refine ⟨c.sharing.journal.query aggregateId fromSequence, rfl,
    (Journal.pairwise_stream h.distinct aggregateId).filter _, fun r => ?_⟩
  rw [Journal.query, List.mem_filter, Journal.mem_stream, h.records, decide_eq_true_iff, and_assoc]

theorem Kept.last (h : c.Kept) {tx : Nat} {t : Transaction}
    (hstanding : c.sharing.standing tx = .going t) (aggregateId : String) :
    c.sharing.respond? (.of tx (.lastSequence aggregateId)) =
      some (.last (.ok (greatest? (Record.numbersOf aggregateId
        (committed c.past ++ staged tx c.past)))), c.sharing) := by
  have hsame : Function.update c.sharing.standing tx (.going t) = c.sharing.standing := by
    rw [← hstanding, Function.update_eq_self]
  simp only [Sharing.respond?, hstanding, Transaction.respond?, Journal.backend,
    Transaction.lastSequence?, hsame, ← h.records, h.going tx t hstanding]

/-- Transactions that share a journal merge it by their commits, and do nothing else to it. -/
theorem orderly_of_after (h : Minutes.after? {} requests = some c) : c.Orderly requests := by
  have kept : c.Kept := kept_new.after h
  exact {
    ascending := Journal.pairwise_stream kept.distinct
    mem_stream := fun aggregateId r => by rw [Journal.mem_stream, kept.records]
    count := by rw [Sharing.respond?, Journal.count, kept.records]
    sum := by
      intro aggregates all
      rw [← kept.records] at all ⊢
      exact Journal.count_eq_sum _ all
    commit := fun _ _ => kept.commit
    unchanged := fun _ _ _ => journal_of_respond
    query := kept.query
    last := fun _ _ => kept.last
    hides := fun _ => Hides.after ⟨rfl, fun _ _ => rfl, rfl⟩ h }

/-- Two transactions meet in a stream; a third is given up, and a fourth wants one place twice. -/
def meeting : List Sharing.Request :=
  [.of 1 .begin, .of 2 .begin, .of 1 (.insert [.noted "a" 5, .noted "b" (-2)]),
    .of 2 (.insert [.noted "a" 9, .noted "a" (-3)]), .of 3 .begin,
    .of 3 (.insert [.noted "a" 7]), .of 2 .commit, .of 1 (.lastSequence "a"), .of 1 .commit,
    .of 3 .drop, .query "a" 0, .of 4 .begin, .of 4 (.insert [.noted "b" 1, .noted "b" 1]),
    .of 4 .commit, .count]

/-- The streams hold what the first two have inserted. -/
theorem orderly_of_meeting :
    ∃ c, Minutes.after? {} meeting = some c ∧ c.Orderly meeting ∧
      (c.sharing.journal.stream "a").map Record.sequenceNo = [-3, 5, 9] ∧
      (c.sharing.journal.stream "b").map Record.sequenceNo = [-2] := by
  have hrun : (Minutes.after? {} meeting).map (fun c =>
      ((c.sharing.journal.stream "a").map Record.sequenceNo,
        (c.sharing.journal.stream "b").map Record.sequenceNo)) = some ([-3, 5, 9], [-2]) := by
    decide +kernel
  obtain ⟨c, hc, hstreams⟩ := Option.map_eq_some_iff.1 hrun
  obtain ⟨ha, hb⟩ := Prod.mk.inj hstreams
  exact ⟨c, hc, orderly_of_after hc, ha, hb⟩

end Minutes

end EventJournal
