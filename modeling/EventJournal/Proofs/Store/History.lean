import EventJournal.Proofs.Order.Replayed
import EventJournal.Proofs.Store.Atomic
import EventJournal.Proofs.Store.Numbered
import EventJournal.Proofs.Store.ReadBack
import Mathlib.Data.List.Perm.Basic

/-!
# Histories read back

What a load finds after any number of saves, each of which has succeeded or failed: the envelopes
that those which succeeded have returned for the aggregate, by sequence number.

* `Event.Storable`, the events that a registry gives back as they were saved;
* `SaveRequest`, `Journal.saveAll`: saves one after another into a journal;
* `Journal.Holds`, that a journal holds the records of some envelopes, each in a place of its own;
* `Journal.Holds.loadFrom`, what is read from such a journal.

The main statement is `Journal.recalls_of_saveAll`.
-/

namespace EventJournal

open Record (place)

/-- An event that a registry gives back: its type has no decoder, or the one of its payload. -/
inductive Event.Storable (registry : Registry) : Event → Prop
  | raw {header : EventHeader} {payload : ByteArray}
      (unregistered : registry.decoder? header.eventType = none) :
      Storable registry (.raw header payload)
  | typed {P : Type} [Payload P] [LawfulPayload P] {e : DomainEvent P}
      (suits : registry.Suits P (Payload.eventType e.data)) : Storable registry e.toEvent

theorem Event.Storable.decodes {registry : Registry} {e : Event} (h : e.Storable registry) :
    registry.Decodes e := by
  cases h with
  | @raw header payload unregistered =>
    intro data hdata
    obtain rfl := Except.ok.inj hdata
    have hheader : (Event.raw header payload).toEventHeader = header := rfl
    rw [hheader, Registry.decode, unregistered]
  | typed suits => exact DomainEvent.decodes_toEvent _ suits

namespace Journal

theorem perm_stream (j : Journal) (aggregateId : String) :
    (j.stream aggregateId).Perm (j.records.filter (·.aggregateId == aggregateId)) :=
  perm_orderedBy ..

theorem nodup_numbersOf {records : List Record} (distinct : (records.map place).Nodup)
    (aggregateId : String) : (Record.numbersOf aggregateId records).Nodup := by
  have hplaces : ((records.filter (·.aggregateId == aggregateId)).map place).Nodup :=
    distinct.sublist (List.filter_sublist.map place)
  have heq : (records.filter (·.aggregateId == aggregateId)).map place =
      (Record.numbersOf aggregateId records).map (aggregateId, ·) := by
    rw [Record.numbersOf, List.map_map]
    refine List.map_congr_left fun r hr => ?_
    have hr : r.aggregateId = aggregateId := by simpa using (List.mem_filter.1 hr).2
    exact congrArg (·, r.sequenceNo) hr
  rw [heq] at hplaces
  exact hplaces.of_map _

/-- Records that have places of their own are strictly ordered by number in a stream. -/
theorem pairwise_stream {j : Journal} (distinct : (j.records.map place).Nodup)
    (aggregateId : String) :
    (j.stream aggregateId).Pairwise (·.sequenceNo < ·.sequenceNo) :=
  pairwise_lt_orderedBy (nodup_numbersOf distinct aggregateId)

/-- A journal holds the records of some envelopes and no others, each in a place of its own. -/
structure Holds (j : Journal) (envelopes : List Envelope) : Prop where
  distinct : (j.records.map place).Nodup
  isOf : ∃ records, List.Forall₂ Envelope.IsOf envelopes records ∧ j.records.Perm records

variable {j j' : Journal} {envelopes : List Envelope}

theorem holds_empty : empty.Holds [] := ⟨.nil, [], .nil, .nil⟩

end Journal

/-! ### Loads -/

/-- A store that keeps its records in a journal. -/
def Journal.store (options : StoreOptions) (registry : Registry) : Store Journal Transaction :=
  { backend := Journal.backend, options, registry }

/-- Whether an envelope is of an aggregate, from a sequence number on. -/
def Envelope.isIn (aggregateId : String) (fromSequence : Int) (envelope : Envelope) : Bool :=
  envelope.event.aggregateId == aggregateId && fromSequence ≤ envelope.event.sequenceNo

theorem decodeAll_of_isOf {registry : Registry} {envelopes : List Envelope} {records : List Record}
    (isOf : List.Forall₂ Envelope.IsOf envelopes records)
    (int64 : ∀ envelope ∈ envelopes, Numeral.IsInt64 envelope.event.sequenceNo)
    (decodes : ∀ envelope ∈ envelopes, registry.Decodes envelope.event) :
    Store.decodeAll registry records = .ok envelopes := by
  induction isOf with
  | nil => rfl
  | @cons envelope r envelopes records hr hrest ih =>
    have hread := hr.toEnvelope (hr.sequenceNo ▸ int64 envelope (List.mem_cons_self ..))
      (decodes envelope (List.mem_cons_self ..))
    rw [Store.decodeAll, hread, ih (fun e he => int64 e (List.mem_cons_of_mem _ he))
      (fun e he => decodes e (List.mem_cons_of_mem _ he))]

theorem map_sequenceNo_of_isOf {envelopes : List Envelope} {records : List Record}
    (isOf : List.Forall₂ Envelope.IsOf envelopes records) :
    envelopes.map (·.event.sequenceNo) = records.map Record.sequenceNo :=
  map_eq_map_of_forall₂ (isOf.imp fun _ _ hr => hr.sequenceNo.symm)

/-- The records of the envelopes of an aggregate, from a sequence number on. -/
theorem forall₂_filter_isIn {envelopes : List Envelope} {records : List Record}
    (isOf : List.Forall₂ Envelope.IsOf envelopes records) (aggregateId : String)
    (fromSequence : Int) :
    List.Forall₂ Envelope.IsOf (envelopes.filter (·.isIn aggregateId fromSequence))
      ((records.filter (·.aggregateId == aggregateId)).filter (fromSequence ≤ ·.sequenceNo)) := by
  rw [List.filter_filter]
  refine List.rel_filter (fun envelope r hr => ?_) isOf
  show envelope.isIn aggregateId fromSequence = true ↔
    (decide (fromSequence ≤ r.sequenceNo) && r.aggregateId == aggregateId) = true
  rw [Envelope.isIn, hr.aggregateId, hr.sequenceNo, Bool.and_comm]

/-- What a load finds in a journal that holds envelopes which its registry gives back. -/
theorem Journal.Holds.loadFrom {j : Journal} {returned : List Envelope} (h : j.Holds returned)
    {registry : Registry}
    (int64 : ∀ envelope ∈ returned, Numeral.IsInt64 envelope.event.sequenceNo)
    (decodes : ∀ envelope ∈ returned, registry.Decodes envelope.event) (options : StoreOptions)
    (aggregateId : String) (fromSequence : Int) :
    ∃ envelopes,
      (Journal.store options registry).loadFrom aggregateId fromSequence j = (.ok envelopes, j) ∧
        envelopes.Perm (returned.filter (·.isIn aggregateId fromSequence)) ∧
        envelopes.Pairwise (·.event.sequenceNo < ·.event.sequenceNo) := by
  obtain ⟨records, isOf, hrecords⟩ := h.isOf
  have hquery : (j.query aggregateId fromSequence).Perm
      ((records.filter (·.aggregateId == aggregateId)).filter (fromSequence ≤ ·.sequenceNo)) :=
    ((j.perm_stream aggregateId).trans (hrecords.filter _)).filter _
  -- the envelopes of the records that are found, in their order
  obtain ⟨envelopes, hflip, hperm⟩ :=
    List.perm_comp_forall₂ hquery (forall₂_filter_isIn isOf aggregateId fromSequence).flip
  have hisOf : List.Forall₂ Envelope.IsOf envelopes (j.query aggregateId fromSequence) := hflip.flip
  have hmem : ∀ envelope ∈ envelopes, envelope ∈ returned := fun envelope henvelope =>
    List.mem_of_mem_filter (hperm.mem_iff.1 henvelope)
  have hdecode : Store.decodeAll registry (j.query aggregateId fromSequence) = .ok envelopes :=
    decodeAll_of_isOf hisOf (fun e he => int64 e (hmem e he)) fun e he => decodes e (hmem e he)
  refine ⟨envelopes, ?_, hperm, ?_⟩
  · simp [Store.loadFrom, Journal.store, Journal.backend, hdecode]
  · have hnumbers : ((j.query aggregateId fromSequence).map Record.sequenceNo).Pairwise (· < ·) :=
      List.pairwise_map.2 ((pairwise_stream h.distinct aggregateId).filter _)
    rw [← map_sequenceNo_of_isOf hisOf] at hnumbers
    exact List.pairwise_map.1 hnumbers

/-! ### Saves -/

namespace Journal

variable {j j' : Journal} {tx : Transaction}

/-- A commit adds the staged records, whose places are free, or it leaves the journal as it was. -/
theorem backend_commit_cases {answer : Except BackendError Unit}
    (h : Journal.backend.commit j tx = (answer, j')) :
    (answer = .ok () ∧ j.Grows tx.staged j') ∨ ∃ e, answer = .error e ∧ j' = j := by
  cases hcommit : j.commit tx with
  | ok grown =>
    simp only [backend, hcommit] at h
    obtain ⟨rfl, rfl⟩ := Prod.mk.inj h
    obtain ⟨free, rfl⟩ := Journal.commit_eq_ok_iff.1 hcommit
    exact .inl ⟨rfl, rfl, free⟩
  | error e =>
    simp only [backend, hcommit] at h
    obtain ⟨rfl, rfl⟩ := Prod.mk.inj h
    exact .inr ⟨e, rfl, rfl⟩

/-- A journal keeps to the contract of backends. -/
theorem honours : Journal.backend.Honours Journal.records fun _ tx => tx.staged := by
  constructor
  case begin =>
    rintro j j' answer ⟨⟩
    exact ⟨rfl, by rintro tx ⟨⟩; rfl⟩
  case lastSequence =>
    rintro j j' tx aggregateId answer ⟨⟩
    exact ⟨rfl, fun _ _ => rfl⟩
  case insert =>
    rintro j j' tx records answer ⟨⟩
    exact ⟨rfl, by rintro tx' ⟨⟩; rfl⟩
  case commit =>
    intro j j' tx answer h
    rcases backend_commit_cases h with ⟨rfl, grows⟩ | ⟨e, rfl, rfl⟩
    · exact .inl ⟨rfl, .of_eq grows.records⟩
    · exact .inr ⟨e, rfl, rfl⟩
  case rollback =>
    rintro j j' tx answer ⟨⟩
    rfl

/-- A step of a save keeps all places different. -/
theorem nodup_of_proceeds {o : StoreOptions} {save save' : Saving Transaction} {new : List Note}
    (distinct : (j.records.map place).Nodup)
    (proceeds : Saving.Proceeds Journal.backend o j save new save' j') :
    (j'.records.map place).Nodup := by
  cases proceeds with
  | committed answer | uncommitted answer =>
    rcases backend_commit_cases answer with ⟨-, grows⟩ | ⟨e, -, rfl⟩
    · exact grows.nodup distinct
    · exact distinct
  | checked | met lookup => exact distinct
  | unopened answer | opened answer strict | openedUnchecked answer unchecked
  | unanswered lookup answer | asked lookup answer | uninserted answer | inserted answer
  | undone answer =>
    obtain ⟨-, rfl⟩ := Prod.mk.inj answer
    exact distinct

end Journal

/-- What is asked of a store by a save. -/
structure SaveRequest where
  options : StoreOptions
  newId : Nat → Uuid
  now : Time
  first : Nat
  events : List Event

/-- A request whose events the registry gives back, with numbers of 64 bits. -/
def SaveRequest.Storable (registry : Registry) (request : SaveRequest) : Prop :=
  ∀ e ∈ request.events, e.Storable registry ∧ Numeral.IsInt64 e.sequenceNo

namespace Journal

/-- Saves what is asked for. -/
def save (registry : Registry) (request : SaveRequest) (j : Journal) :
    Except StoreError (List Envelope) × Journal :=
  (Journal.store request.options registry).save request.newId request.now request.first
    request.events j

/-- Saves what is asked for by one request after another, whether those before have succeeded or
not. -/
def saveAll (registry : Registry) :
    List SaveRequest → Journal → List (Except StoreError (List Envelope)) × Journal
  | [], j => ([], j)
  | request :: rest, j =>
    let (answer, j) := j.save registry request
    let (answers, j) := saveAll registry rest j
    (answer :: answers, j)

/-- The envelopes in the answers of saves that have succeeded. -/
def returned : List (Except StoreError (List Envelope)) → List Envelope
  | [] => []
  | .ok envelopes :: rest => envelopes ++ returned rest
  | .error _ :: rest => returned rest

theorem returned_cons (answer : Except StoreError (List Envelope))
    (answers : List (Except StoreError (List Envelope))) :
    returned (answer :: answers) = returned [answer] ++ returned answers := by
  cases answer <;> simp [returned]

variable {registry : Registry} {request : SaveRequest} {requests : List SaveRequest}
  {j j' : Journal} {answer : Except StoreError (List Envelope)}
  {answers : List (Except StoreError (List Envelope))} {envelopes : List Envelope}

/-- A journal that holds some envelopes holds those of a further save as well, if it succeeds. -/
theorem Holds.save (h : j.Holds envelopes) (hsave : j.save registry request = (answer, j')) :
    j'.Holds (envelopes ++ returned [answer]) ∧
      ∀ envelope ∈ returned [answer], envelope.event ∈ request.events := by
  obtain ⟨_, _, notes, -, atomic⟩ := (Journal.store request.options registry).exists_atomicSave
    Journal.honours request.newId request.now request.first request.events j
  obtain ⟨rfl, rfl⟩ := Prod.mk.inj (hsave.symm.trans atomic.unnoted)
  -- the contract does not speak of places: that they differ is kept step by step
  have distinct := Store.save_induction (P := fun j => (j.records.map place).Nodup)
    nodup_of_proceeds h.distinct hsave
  obtain ⟨records, isOf, hrecords⟩ := h.isOf
  cases answer with
  | error e =>
    have hsame := atomic.nothing e rfl
    rw [returned, returned, List.append_nil]
    exact ⟨⟨distinct, records, isOf, hsame ▸ hrecords⟩, by simp⟩
  | ok saved =>
    obtain ⟨hevents, new, hnew, hadded⟩ := atomic.all saved rfl
    rw [returned, returned, List.append_nil]
    refine ⟨⟨distinct, records ++ new, List.rel_append isOf hnew,
      hadded.trans (hrecords.append_right new)⟩, fun envelope henvelope => ?_⟩
    exact hevents ▸ List.mem_map_of_mem henvelope

/-- A journal holds what the saves that have succeeded have returned. -/
theorem holds_of_saveAll (h : j.Holds envelopes)
    (hsaves : saveAll registry requests j = (answers, j')) :
    j'.Holds (envelopes ++ returned answers) ∧
      ∀ envelope ∈ returned answers, ∃ request ∈ requests, envelope.event ∈ request.events := by
  induction requests generalizing j envelopes answers with
  | nil =>
    obtain ⟨rfl, rfl⟩ := Prod.mk.inj hsaves
    exact ⟨by simpa [returned] using h, by simp [returned]⟩
  | cons request rest ih =>
    rcases hfirst : j.save registry request with ⟨answer, j₁⟩
    rcases hrest : saveAll registry rest j₁ with ⟨others, j₂⟩
    simp only [saveAll, hfirst, hrest] at hsaves
    obtain ⟨rfl, rfl⟩ := Prod.mk.inj hsaves
    obtain ⟨holds, hfrom⟩ := h.save hfirst
    obtain ⟨holdsAll, hfromRest⟩ := ih holds hrest
    rw [returned_cons]
    refine ⟨by rwa [List.append_assoc] at holdsAll, fun envelope henvelope => ?_⟩
    rcases List.mem_append.1 henvelope with hmem | hmem
    · exact ⟨request, List.mem_cons_self .., hfrom envelope hmem⟩
    · obtain ⟨other, hother, hevent⟩ := hfromRest envelope hmem
      exact ⟨other, List.mem_cons_of_mem _ hother, hevent⟩

end Journal

/-- A journal recalls what saves have returned, whatever the options of the store that loads it. -/
structure Journal.Recalls (registry : Registry) (returned : List Envelope) (j : Journal) :
    Prop where
  /-- From a sequence number on, the envelopes of an aggregate are loaded in their order. -/
  part : ∀ options aggregateId fromSequence, ∃ envelopes,
    (Journal.store options registry).loadFrom aggregateId fromSequence j = (.ok envelopes, j) ∧
      envelopes.Perm (returned.filter fun envelope =>
        envelope.event.aggregateId == aggregateId && fromSequence ≤ envelope.event.sequenceNo) ∧
      envelopes.Pairwise (·.event.sequenceNo < ·.event.sequenceNo)
  /-- All envelopes of an aggregate are loaded in their order. -/
  whole : ∀ options aggregateId, ∃ envelopes,
    (Journal.store options registry).load aggregateId j = (.ok envelopes, j) ∧
      envelopes.Perm (returned.filter (·.event.aggregateId == aggregateId)) ∧
      envelopes.Pairwise (·.event.sequenceNo < ·.event.sequenceNo)
  /-- A load of everything starts from the least number. -/
  least : ∀ options aggregateId, (Journal.store options registry).load aggregateId j =
    (Journal.store options registry).loadFrom aggregateId Numeral.minInt64 j
  /-- An aggregate that was never saved has no envelopes. -/
  none : ∀ options aggregateId, (∀ envelope ∈ returned, envelope.event.aggregateId ≠ aggregateId) →
    (Journal.store options registry).load aggregateId j = (.ok [], j)

/-- After any number of saves, the journal recalls what those that have succeeded have returned. -/
theorem Journal.recalls_of_saveAll {registry : Registry} {requests : List SaveRequest}
    {answers : List (Except StoreError (List Envelope))} {j : Journal}
    (storable : ∀ request ∈ requests, request.Storable registry)
    (h : saveAll registry requests .empty = (answers, j)) :
    j.Recalls registry (returned answers) := by
  obtain ⟨holds, hfrom⟩ := holds_of_saveAll holds_empty h
  rw [List.nil_append] at holds
  have hgiven : ∀ envelope ∈ returned answers,
      envelope.event.Storable registry ∧ Numeral.IsInt64 envelope.event.sequenceNo := by
    intro envelope henvelope
    obtain ⟨request, hrequest, hevent⟩ := hfrom envelope henvelope
    exact storable request hrequest envelope.event hevent
  have hpart := holds.loadFrom (fun e he => (hgiven e he).2) fun e he => (hgiven e he).1.decodes
  have hwhole : ∀ options aggregateId, ∃ envelopes,
      (Journal.store options registry).load aggregateId j = (.ok envelopes, j) ∧
        envelopes.Perm ((returned answers).filter (·.event.aggregateId == aggregateId)) ∧
        envelopes.Pairwise (·.event.sequenceNo < ·.event.sequenceNo) := by
    intro options aggregateId
    obtain ⟨envelopes, hload, hperm, hsorted⟩ := hpart options aggregateId Numeral.minInt64
    refine ⟨envelopes, hload, ?_, hsorted⟩
    have hall : (returned answers).filter (·.isIn aggregateId Numeral.minInt64) =
        (returned answers).filter (·.event.aggregateId == aggregateId) := by
      refine List.filter_congr fun envelope henvelope => ?_
      simp [Envelope.isIn, (hgiven envelope henvelope).2.1]
    rwa [hall] at hperm
  constructor
  case part => exact hpart
  case whole => exact hwhole
  case least => exact fun _ _ => rfl
  case none =>
    intro options aggregateId hnever
    obtain ⟨envelopes, hload, hperm, -⟩ := hwhole options aggregateId
    have hnone : (returned answers).filter (·.event.aggregateId == aggregateId) = [] := by
      simpa using hnever
    rw [hnone] at hperm
    rw [hload, hperm.eq_nil]

/-- An event without a payload. -/
def Event.noted (aggregateId : String) (sequenceNo : Int) : Event :=
  .raw ⟨"Noted", aggregateId, sequenceNo, System.blank.clock⟩ ByteArray.empty

/-- A record without a payload. -/
def Record.noted (aggregateId : String) (sequenceNo : Int) : Record where
  id := .timed 0 0
  aggregateId
  eventType := "Noted"
  sequenceNo
  data := .empty
  metadata := .empty
  timestamp := System.blank.clock

/-- An order that is confirmed. -/
def Order.confirmation : DomainEvent Order.Event where
  aggregateId := "o"
  sequenceNo := 1
  createdAt := System.blank.clock
  data := .confirmed System.blank.clock

/-- Three saves, of which the second wants a place that is taken. -/
def SaveRequest.three : List SaveRequest :=
  let request sequenceCheck events : SaveRequest :=
    { options := { System.blank.options with sequenceCheck }
      newId := System.blank.newId
      now := System.blank.clock
      first := 0
      events }
  [request .strict [.note "a", Order.confirmation.toEvent],
    request .strict [.note "b", .note "a"],
    request .unchecked [.raw ⟨"Noted", "a", 7, System.blank.clock⟩ ByteArray.empty]]

/-- The journal recalls the first and the last of three saves. -/
theorem Journal.recalls_of_three :
    (∀ request ∈ SaveRequest.three, request.Storable (Order.register .empty)) ∧
      ∃ answers j, saveAll (Order.register .empty) SaveRequest.three .empty = (answers, j) ∧
        j.Recalls (Order.register .empty) (returned answers) ∧
        answers.map Except.isOk = [true, false, true] ∧
        (returned answers).map (fun envelope =>
          (envelope.event.aggregateId, envelope.event.sequenceNo)) =
            [("a", 1), ("o", 1), ("a", 7)] := by
  have storable : ∀ request ∈ SaveRequest.three, request.Storable (Order.register .empty) := by
    have hnoted : ∀ {aggregateId n payload}, (Event.raw
        ⟨"Noted", aggregateId, n, System.blank.clock⟩ payload).Storable (Order.register .empty) :=
      .raw rfl
    have hconfirmed : Order.confirmation.toEvent.Storable (Order.register .empty) :=
      .typed (Registry.suits_register _ _ (.inl (by decide)))
    have hone : Numeral.IsInt64 1 := by decide
    have hseven : Numeral.IsInt64 7 := by decide
    simp only [SaveRequest.three, SaveRequest.Storable, List.forall_mem_cons]
    exact ⟨⟨⟨hnoted, hone⟩, ⟨hconfirmed, hone⟩, by simp⟩,
      ⟨⟨hnoted, hone⟩, ⟨hnoted, hone⟩, by simp⟩, ⟨⟨hnoted, hseven⟩, by simp⟩, by simp⟩
  exact ⟨storable, _, _, rfl, recalls_of_saveAll storable rfl, by decide +kernel, by decide +kernel⟩

end EventJournal
