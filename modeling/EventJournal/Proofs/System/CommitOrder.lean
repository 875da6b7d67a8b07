import EventJournal.Proofs.Dispatch.Assignments
import EventJournal.Proofs.Store.Strict
import EventJournal.Proofs.System.HandOver

/-!
# Detached dispatch and the order of commits

The queue dispatches batches in the order in which commits have handed them over. This need not be
the order of the saves. For the commits of one aggregate that hand over in turn it is the same, and
then the aggregate is heard of in the order of its numbers.

* `Account.Within.exists_sublist`, `place_of_deliveries`: what gets to a subscription;
* `History.heardBy`, what a subscription has heard;
* `DetachedOrder`, what is guaranteed.

The main statement is `detachedOrder_of_run`.
-/

namespace EventJournal

/-! ### Places in the streams -/

/-- What commits have saved stands in the journal in the same order. -/
theorem Run.place_committed {s₀ s : System} {h : History} (run : Run s₀ h s) (fresh : s₀.Fresh)
    (undisturbed : h.Undisturbed) :
    ((h.committed.flatMap Prod.snd).map (·.event.place)).Sublist
      (s.storage.journal.records.map Record.place) := by
  rw [(run.growth fresh undisturbed).records, History.committed, List.filterMap_eq_flatMap_toList,
    List.flatMap_assoc, List.map_flatMap, List.map_flatMap]
  refine List.Sublist.flatMap_right h fun m hm => ?_
  cases hcommitted : m.committed? with
  | none => exact List.nil_sublist _
  | some pair =>
    rw [Option.toList_some, List.flatMap_singleton,
      map_place_of_isOf (run.isOf_of_committed fresh hm hcommitted)]

/-! ### What subscriptions hear -/

/-- What the handler of a subscription has heard, in this order. -/
def History.heardBy (h : History) (id : Nat) : List Envelope :=
  (tookBy id h.worked).filterMap fun heard => heard

theorem exists_sublist_of_forall₂ {α β : Type} {R : α → β → Prop} {l l₁ : List α} {l₂ : List β}
    (sub : l.Sublist l₁) (h : List.Forall₂ R l₁ l₂) :
    ∃ l', l'.Sublist l₂ ∧ List.Forall₂ R l l' := by
  induction h generalizing l with
  | nil =>
    obtain rfl := List.sublist_nil.1 sub
    exact ⟨[], List.Sublist.refl _, .nil⟩
  | @cons a b l₁ l₂ hab _ ih =>
    cases sub with
    | cons _ sub =>
      obtain ⟨l', hsub, hforall⟩ := ih sub
      exact ⟨l', hsub.cons b, hforall⟩
    | cons_cons _ sub =>
      obtain ⟨l', hsub, hforall⟩ := ih sub
      exact ⟨b :: l', hsub.cons_cons b, .cons hab hforall⟩

/-- A dispatch has sent a registration some of its envelopes, in their order and each once. -/
theorem Account.Within.exists_sublist {account : Account} {d : Dispatcher}
    (within : account.Within d) {id : Nat} {topic : String}
    (same : ∀ x ∈ account.own, x.registration.id = id → x.registration.topic = topic) :
    ∃ es, es.Sublist account.envelopes ∧ List.Forall₂ (fun (x : Errand) e => x.posting.IsOf e)
      (account.own.filter (·.registration.id = id)) es := by
  rcases within with hnone | ⟨published, rest, posted, covers⟩
  · exact ⟨[], List.nil_sublist _, by simp [hnone]⟩
  · have htopic : ((account.own.filter (·.registration.id = id)).map Errand.posting).filter
        (·.topic = topic) = (account.own.filter (·.registration.id = id)).map Errand.posting := by
      refine List.filter_eq_self.2 fun p hp => ?_
      obtain ⟨x, hx, rfl⟩ := List.mem_map.1 hp
      obtain ⟨hmem, hid⟩ := List.mem_filter.1 hx
      rw [decide_eq_true_eq, (covers.only x hmem).2, same x hmem (by simpa using hid)]
    have hsome : ((account.own.filter (·.registration.id = id)).map Errand.posting).Sublist
        ((published ++ rest).filter (·.topic = topic)) := by
      rw [← htopic]
      exact ((covers.some id).trans (List.sublist_append_left ..)).filter _
    obtain ⟨es, hsub, hforall⟩ := exists_sublist_of_forall₂ hsome
      (Dispatching.filter_topic_of_post posted topic)
    exact ⟨es, hsub.trans List.filter_sublist, List.forall₂_map_left_iff.1 hforall⟩

/-- Dispatches one after another have sent a registration some of their envelopes, in the order of
the dispatches. -/
theorem exists_sublist_of_accounts {accounts : List Account} {d : Dispatcher} {id : Nat}
    {topic : String} (within : ∀ account ∈ accounts, account.Within d)
    (same : ∀ x ∈ accounts.flatMap Account.own,
      x.registration.id = id → x.registration.topic = topic) :
    ∃ es, es.Sublist (accounts.flatMap Account.envelopes) ∧
      List.Forall₂ (fun (x : Errand) e => x.posting.IsOf e)
        ((accounts.flatMap Account.own).filter (·.registration.id = id)) es := by
  induction accounts with
  | nil => exact ⟨[], List.Sublist.refl _, .nil⟩
  | cons account rest ih =>
    rw [List.flatMap_cons] at same
    obtain ⟨hfirst, hrest⟩ := List.forall_mem_append.1 same
    obtain ⟨es, hsub, hforall⟩ := (within account (List.mem_cons_self ..)).exists_sublist hfirst
    obtain ⟨es', hsub', hforall'⟩ :=
      ih (fun a ha => within a (List.mem_cons_of_mem _ ha)) hrest
    rw [List.flatMap_cons, List.flatMap_cons, List.filter_append]
    exact ⟨es ++ es', hsub.append hsub', List.rel_append hforall hforall'⟩

/-- What is read of an event that has been saved stands in the same place of its stream. -/
theorem place_of_relayed {registry : Registry} (regular : registry.Regular) {e heard : Envelope}
    {r : Record} (isOf : e.IsOf r) (h : e.relayed registry = .ok heard) :
    heard.event.place = e.event.place := by
  have tells := isOf.tells_of_relayed regular h
  rw [← isOf.place, Event.place, Record.place, tells.aggregateId, tells.sequenceNo]

/-- What is read of deliveries stands in the places of their events. -/
theorem place_of_deliveries {d : Dispatcher} (regular : d.registry.Regular) {xs : List Errand}
    {es : List Envelope} (h : List.Forall₂ (fun (x : Errand) e => x.posting.IsOf e) xs es)
    (kept : ∀ e ∈ es, ∃ r, e.IsOf r) :
    ((xs.filterMap fun x => (d.envelope? x.delivery).toOption).map (·.event.place)).Sublist
      (es.map (·.event.place)) := by
  induction h with
  | nil => exact List.Sublist.refl _
  | @cons x e xs es isOf _ ih =>
    obtain ⟨⟨r, hr⟩, hkept⟩ := List.forall_mem_cons.1 kept
    cases henvelope : d.envelope? x.delivery with
    | error cause =>
      rw [List.filterMap_cons_none (by simp [henvelope, Except.toOption])]
      exact (ih hkept).cons _
    | ok heard =>
      have hsome : (d.envelope? x.delivery).toOption = some heard := by
        simp [henvelope, Except.toOption]
      rw [List.filterMap_cons_some (f := fun x : Errand => (d.envelope? x.delivery).toOption) hsome,
        List.map_cons, List.map_cons,
        place_of_relayed regular hr (relayed_of_envelope? isOf henvelope)]
      exact (ih hkept).cons_cons _

/-- The numbers of an aggregate ascend wherever its places are among those of a journal. -/
theorem pairwise_of_places {es : List Envelope} {records : List Record} {aggregateId : String}
    (sub : ((es.map (·.event.place)).filter (·.1 = aggregateId)).Sublist
      (records.map Record.place))
    (numbered : Record.Numbered aggregateId records) :
    ((es.filter (·.event.aggregateId = aggregateId)).map (·.event.sequenceNo)).Pairwise
      (· < ·) := by
  have hascending : (Record.numbersOf aggregateId records).Pairwise (· < ·) := by
    rw [numbered]
    exact pairwise_numbersFrom _ _
  have hnumbers : (es.filter (·.event.aggregateId = aggregateId)).map (·.event.sequenceNo) =
      ((es.map (·.event.place)).filter (·.1 = aggregateId)).map Prod.snd := by
    rw [List.filter_map, List.map_map]
    rfl
  have hrecords : Record.numbersOf aggregateId records =
      ((records.map Record.place).filter (·.1 = aggregateId)).map Prod.snd := by
    rw [List.filter_map, List.map_map]
    rfl
  have hfilter := sub.filter (fun place => decide (place.1 = aggregateId))
  rw [List.filter_filter] at hfilter
  simp only [Bool.and_self] at hfilter
  rw [hnumbers]
  rw [hrecords] at hascending
  exact hascending.sublist (hfilter.map _)

/-- Whether an aggregate is among those of some envelopes. -/
def concerns (aggregateId : String) (envelopes : List Envelope) : Bool :=
  envelopes.any (·.event.aggregateId = aggregateId)

/-- The places of an aggregate are in the batches that concern it. -/
theorem places_of_concerns (aggregateId : String) (batches : List (List Envelope)) :
    (batches.flatten.map (·.event.place)).filter (·.1 = aggregateId) =
      ((batches.filter (concerns aggregateId)).flatten.map (·.event.place)).filter
        (·.1 = aggregateId) := by
  induction batches with
  | nil => rfl
  | cons batch rest ih =>
    rw [List.flatten_cons, List.map_append, List.filter_append, ih]
    cases hconcerns : concerns aggregateId batch with
    | true =>
      rw [List.filter_cons_of_pos hconcerns, List.flatten_cons, List.map_append,
        List.filter_append]
    | false =>
      have hnone : (batch.map (·.event.place)).filter (·.1 = aggregateId) = [] := by
        refine List.filter_eq_nil_iff.2 fun place hplace => ?_
        obtain ⟨e, he, rfl⟩ := List.mem_map.1 hplace
        exact List.any_eq_false.1 hconcerns e he
      rw [hnone, List.nil_append, List.filter_cons_of_neg (by simp [hconcerns])]

namespace Run

variable {s₀ s : System} {h : History}

/-- A subscription hears events in the order in which their batches are dispatched. -/
theorem heard_sublist (run : Run s₀ h s) (fresh : s₀.Fresh) (unused : s₀.Unused)
    (queue : s₀.queue.isSome = true) (regular : s₀.dispatcher.registry.Regular)
    (own : h.OnlyCommits) (detached : h.Detached) (id : Nat) :
    ((h.heardBy id).map (·.event.place)).Sublist
      ((h.dispatched.flatMap Batch.envelopes).map (·.event.place)) := by
  obtain ⟨made, busy⟩ := run.busy unused own
  by_cases hmade : ∃ r ∈ made, r.id = id
  · obtain ⟨r, hr, rfl⟩ := hmade
    obtain ⟨past, current, lines⟩ := run.lines fresh unused queue own detached
    have hsame : ∀ x ∈ (past ++ current).flatMap Account.own, x.registration.id = r.id →
        x.registration.topic = r.topic := by
      rw [← lines.sent]
      intro x hx hid
      rw [busy.flows.eq_of_id (busy.flows.addressees x hx) hr hid]
    obtain ⟨es, hsub, hforall⟩ :=
      exists_sublist_of_accounts lines.within hsame
    have hbatches : (past ++ current).flatMap Account.envelopes =
        h.dispatched.flatMap Batch.envelopes := by
      rw [List.flatMap_def, List.flatMap_def, lines.batches]
    rw [hbatches] at hsub
    rw [← lines.sent] at hforall
    have hkept : ∀ e ∈ es, ∃ r, e.IsOf r := by
      intro e he
      obtain ⟨batch, hbatch, he⟩ := List.mem_flatMap.1 (hsub.subset he)
      have henqueued : batch ∈ h.enqueued := by
        rw [run.enqueued_eq unused own]
        exact List.mem_append_left _ hbatch
      obtain ⟨unit, hunit⟩ := run.mem_committed_of_enqueued fresh own henqueued
      obtain ⟨m, hm, committed⟩ := List.mem_filterMap.1 hunit
      obtain ⟨r, -, isOf⟩ := exists_right_of_forall₂ (run.isOf_of_committed fresh hm committed) he
      exact ⟨r, isOf⟩
    have hheard : h.heardBy r.id <+: (h.sent.filter (·.registration.id = r.id)).filterMap
        fun x => (s₀.dispatcher.envelope? x.delivery).toOption := by
      have hprefix := (busy.flows.tookBy_isPrefix hr).filterMap fun heard => heard
      rwa [Errand.towards, List.map_map, List.filterMap_map] at hprefix
    exact ((hheard.sublist.map _).trans (place_of_deliveries regular hforall hkept)).trans
      (hsub.map _)
  · have hnone : tookBy id h.worked = [] :=
      (busy.flows.strangers id fun r hr hid => hmade ⟨r, hr, hid⟩).1
    rw [History.heardBy, hnone]
    exact List.nil_sublist _

/-- If the commits of an aggregate hand over in turn, a subscription hears of it in the order of
its places in the journal. -/
theorem places_of_heardBy (run : Run s₀ h s) (fresh : s₀.Fresh) (unused : s₀.Unused)
    (queue : s₀.queue.isSome = true) (regular : s₀.dispatcher.registry.Regular)
    (undisturbed : h.Undisturbed) (own : h.OnlyCommits) (detached : h.Detached) (id : Nat)
    {aggregateId : String} (inTurn : h.InTurn (concerns aggregateId)) :
    (((h.heardBy id).map (·.event.place)).filter (·.1 = aggregateId)).Sublist
      (s.storage.journal.records.map Record.place) := by
  have hheard := (run.heard_sublist fresh unused queue regular own detached id).filter
    (fun place => decide (place.1 = aggregateId))
  rw [List.flatMap_def, places_of_concerns] at hheard
  have hsaved : ((h.dispatched.map Batch.envelopes).filter (concerns aggregateId)).Sublist
      (h.savedOf (concerns aggregateId)) := by
    refine List.Sublist.trans ?_ (run.lined fresh own inTurn).sublist
    rw [History.enqueuedOf, run.enqueued_eq unused own, List.map_append, List.filter_append]
    exact List.sublist_append_left ..
  have hcommitted := run.place_committed fresh undisturbed
  rw [List.flatMap_def] at hcommitted
  exact ((hheard.trans ((hsaved.flatten.map _).filter _)).trans List.filter_sublist).trans
    ((List.filter_sublist.flatten.map _).trans hcommitted)

end Run

/-- What is guaranteed of detached dispatch at every point of a run. -/
structure DetachedOrder (h : History) (s : System) : Prop where
  /-- Every batch in the queue is one that a commit has saved. -/
  saved : ∀ batch ∈ h.enqueued, ∃ unit, (unit, batch.envelopes) ∈ h.committed
  /-- What a commit has saved is in the queue, or is still to be handed over, or the queue has been
  shut down. -/
  queued : ∀ unit envelopes, (unit, envelopes) ∈ h.committed →
    (∃ batch ∈ h.enqueued, batch.envelopes = envelopes) ∨
      (∃ call, s.calls.get? call = some (.saved unit envelopes)) ∨ s.QueueClosed
  /-- The worker takes batches in the order in which they were handed over. -/
  order : h.enqueued = h.dispatched ++ s.waiting
  /-- It dispatches them one after another, each with its own envelopes and each but the one at work
  to its end, and nobody else dispatches anything. -/
  sent : ∃ past current : List Account,
    (past ++ current).map Account.envelopes = h.dispatched.map Batch.envelopes ∧
      h.sent = (past ++ current).flatMap Account.own ∧
      (∀ account ∈ past, ∃ result, account.Reaches s.dispatcher (.done result)) ∧
      List.Forall₂ (fun account x => account.Reaches s.dispatcher x) current s.working.toList
  /-- Among commits of any kind that hand over in turn, this is the order of the saves. -/
  inTurn : ∀ p, h.InTurn p → ((h.enqueued.map Batch.envelopes).filter p).Sublist
    ((h.committed.map Prod.snd).filter p)
  /-- If the commits of an aggregate hand over in turn and the store checks numbers, which are of 64
  bits, every subscription hears its events in strictly ascending order. -/
  ascending : s.options.sequenceCheck = .strict → ∀ aggregateId,
    ((s.storage.journal.stream aggregateId).length : Int) ≤ Numeral.maxInt64 →
      h.InTurn (concerns aggregateId) → ∀ id,
        (((h.heardBy id).filter (·.event.aggregateId = aggregateId)).map
          (·.event.sequenceNo)).Pairwise (· < ·)

/-- Detached dispatch follows the order of handing over, in every run in which all commits are
detached. -/
theorem detachedOrder_of_run {s₀ s : System} {h : History} (fresh : s₀.Fresh)
    (unused : s₀.Unused) (queue : s₀.queue.isSome = true)
    (regular : s₀.dispatcher.registry.Regular) (run : Run s₀ h s) (undisturbed : h.Undisturbed)
    (own : h.OnlyCommits) (detached : h.Detached) : DetachedOrder h s := by
  constructor
  case saved => exact fun batch => run.mem_committed_of_enqueued fresh own
  case queued => exact fun unit envelopes => run.queued_of_committed fresh queue own detached
  case order => exact run.enqueued_eq unused own
  case sent =>
    obtain ⟨past, current, lines⟩ := run.lines fresh unused queue own detached
    exact ⟨past, current, lines.batches, lines.sent, lines.ended, lines.working⟩
  case inTurn => exact fun p inTurn => (run.lined fresh own inTurn).sublist
  case ascending =>
    intro strict aggregateId room inTurn id
    rw [(run.growth fresh undisturbed).options] at strict
    exact pairwise_of_places
      (run.places_of_heardBy fresh unused queue regular undisturbed own detached id inTurn)
      (run.numbered fresh strict undisturbed room)

/-- Two detached units of work commit a note each on one aggregate, with the given numbers, for a
handler of everything. The calls of the commits take steps in the given order; then the queue and
the handler do. -/
def twoNotes (first second : Int) (steps : List Nat) : List Action :=
  let note (n : Int) : Event := .raw ⟨"Noted", "a", n, System.blank.clock⟩ ByteArray.empty
  [.subscribe (.scripted "a" "audit" [] { behaviour := .accept }) ["*.*"], .newUnit .detached,
    .newUnit .detached, .register 1 [note first], .register 2 [note second], .commit 1,
    .commit 2] ++
  steps.map (fun call => .step (.call call)) ++
  List.replicate 5 (.step .queue) ++ List.replicate 2 (.step (.worker 1)) ++
  List.replicate 7 (.step .queue) ++ List.replicate 2 (.step (.worker 1))

/-- Both commits are detached, and nothing else is done. -/
theorem course_of_twoNotes {s₀ : System} {first second : Int} {steps : List Nat}
    (performs : s₀.performs [] (twoNotes first second steps) = true) :
    Run s₀ (s₀.course (twoNotes first second steps)) (s₀.after (twoNotes first second steps)) ∧
      (s₀.course (twoNotes first second steps)).Undisturbed ∧
      (s₀.course (twoNotes first second steps)).OnlyCommits ∧
      (s₀.course (twoNotes first second steps)).Detached := by
  have hforms : ∀ a ∈ twoNotes first second steps, a.disturbsStorage = false ∧
      a.bypassesCommits = false ∧ a ≠ .newUnit .synchronous := by
    intro a ha
    simp only [twoNotes, List.mem_append, List.mem_cons, List.mem_map, List.mem_replicate,
      List.not_mem_nil, or_false] at ha
    rcases ha with (((((rfl | rfl | rfl | rfl | rfl | rfl | rfl) | ⟨call, -, rfl⟩) | ⟨-, rfl⟩) |
      ⟨-, rfl⟩) | ⟨-, rfl⟩) | ⟨-, rfl⟩ <;> exact ⟨rfl, rfl, by simp⟩
  exact ⟨Run.nil.follow (by simp) performs,
    History.undisturbed_course fun a ha => (hforms a ha).1,
    History.onlyCommits_course fun a ha => (hforms a ha).2.1,
    History.detached_course fun a ha => (hforms a ha).2.2⟩

/-- Two commits one after another are heard of in their order. -/
theorem detachedOrder_of_commitsInTurn :
    let steps := List.replicate 9 1 ++ List.replicate 9 2
    let h := System.queued.course (twoNotes 1 2 steps)
    DetachedOrder h (System.queued.after (twoNotes 1 2 steps)) ∧ h.InTurn (concerns "a") ∧
      h.committed.map Prod.fst = [1, 2] ∧ h.dispatched.map Batch.unit = [.random 1, .random 2] ∧
      (h.heardBy 1).map (·.event.place) = [("a", 1), ("a", 2)] := by
  intro steps h
  have facts : System.queued.performs [] (twoNotes 1 2 steps) = true ∧
      (∀ m ∈ h, ∀ entry ∈ m.after.calls.entries, ∀ entry' ∈ m.after.calls.entries,
        entry.2.isHanding = true → entry'.2.isHanding = true → entry.1 = entry'.1) ∧
      h.committed.map Prod.fst = [1, 2] ∧ h.dispatched.map Batch.unit = [.random 1, .random 2] ∧
      (h.heardBy 1).map (·.event.place) = [("a", 1), ("a", 2)] := by
    decide +kernel
  obtain ⟨performs, alone, shown⟩ := facts
  obtain ⟨run, undisturbed, own, detached⟩ := course_of_twoNotes performs
  exact ⟨detachedOrder_of_run System.fresh_queued System.unused_queued rfl Registry.regular_empty
    run undisturbed own detached, History.inTurn_of_entries _ alone, shown⟩

/-- A commit that has saved later may hand over earlier, and is heard of earlier then. A store that
does not check numbers saves them in any order, in which they are heard of. -/
theorem heard_out_of_order :
    (∃ h s, Run .queued h s ∧ h.Undisturbed ∧ h.OnlyCommits ∧ h.Detached ∧
      s.options.sequenceCheck = .strict ∧ h.committed.map Prod.fst = [1, 2] ∧
      h.dispatched.map Batch.unit = [.random 2, .random 1] ∧
      (h.heardBy 1).map (·.event.place) = [("a", 2), ("a", 1)]) ∧
    ∃ h s, Run { System.queued with options := { sequenceCheck := .unchecked } } h s ∧
      h.Undisturbed ∧ h.OnlyCommits ∧ h.Detached ∧ h.committed.map Prod.fst = [1, 2] ∧
      h.dispatched.map Batch.unit = [.random 1, .random 2] ∧
      (h.heardBy 1).map (·.event.place) = [("a", 2), ("a", 1)] := by
  constructor
  · let actions := twoNotes 1 2 (List.replicate 8 1 ++ List.replicate 9 2 ++ [1])
    have facts : System.queued.performs [] actions = true ∧
        (System.queued.after actions).options.sequenceCheck = .strict ∧
        (System.queued.course actions).committed.map Prod.fst = [1, 2] ∧
        (System.queued.course actions).dispatched.map Batch.unit = [.random 2, .random 1] ∧
        ((System.queued.course actions).heardBy 1).map (·.event.place) = [("a", 2), ("a", 1)] := by
      decide +kernel
    obtain ⟨performs, shown⟩ := facts
    obtain ⟨run, undisturbed, own, detached⟩ := course_of_twoNotes performs
    exact ⟨System.queued.course actions, System.queued.after actions, run, undisturbed, own,
      detached, shown⟩
  · let s₀ : System := { System.queued with options := { sequenceCheck := .unchecked } }
    let actions := twoNotes 2 1 (List.replicate 7 1 ++ List.replicate 7 2)
    have facts : s₀.performs [] actions = true ∧
        (s₀.course actions).committed.map Prod.fst = [1, 2] ∧
        (s₀.course actions).dispatched.map Batch.unit = [.random 1, .random 2] ∧
        ((s₀.course actions).heardBy 1).map (·.event.place) = [("a", 2), ("a", 1)] := by
      decide +kernel
    obtain ⟨performs, shown⟩ := facts
    obtain ⟨run, undisturbed, own, detached⟩ := course_of_twoNotes performs
    exact ⟨s₀.course actions, s₀.after actions, run, undisturbed, own, detached, shown⟩

end EventJournal
