import EventJournal.Saving

/-!
# The store

Saves events and loads them again.

* `Store`, a backend with the options and the registry of a store;
* `Store.withConfig`, a store that saves as it is asked to;
* `prepare`, the records and envelopes of events, all of them or the first failure;
* `Store.save`, `Store.loadFrom`, `Store.load`.
-/

namespace EventJournal

/-- What a store is made of. -/
structure Store (σ τ : Type) where
  backend : Backend σ τ
  options : StoreOptions := {}
  registry : Registry := {}

/-- The records and envelopes of events that are saved together: one time for all of them, and the
ids that follow `first`. -/
def prepare (newId : Nat → Uuid) (now : Time) (first : Nat) :
    List Event → Except EventError (List (Record × Envelope))
  | [] => .ok []
  | e :: rest =>
    match Record.ofEvent e (newId first) now with
    | .error err => .error err
    | .ok entry =>
      match prepare newId now (first + 1) rest with
      | .error err => .error err
      | .ok entries => .ok (entry :: entries)

namespace Store

variable {σ τ : Type}

/-- The same store, saving as it is asked to. -/
def withConfig (store : Store σ τ) (config : StoreConfig) : Store σ τ :=
  { store with options := config.options }

/-- Saves events together: the envelopes of all of them, or nothing is saved. No events need no
transaction, and an event that cannot be written is reported before there is one. -/
def save (store : Store σ τ) (newId : Nat → Uuid) (now : Time) (first : Nat) (events : List Event)
    (s : σ) : Except StoreError (List Envelope) × σ :=
  match events with
  | [] => (.ok [], s)
  | events =>
    match prepare newId now first events with
    | .error e => (.error (.event e), s)
    | .ok entries =>
      match Saving.run store.backend store.options s (.opening (entries.map Prod.fst)) with
      | (.ok (), s) => (.ok (entries.map Prod.snd), s)
      | (.error e, s) => (.error e, s)

/-- The envelopes of records, or the first failure to read one. -/
def decodeAll (registry : Registry) (records : List Record) : Except EventError (List Envelope) :=
  match records with
  | [] => .ok []
  | r :: rest =>
    match r.toEnvelope registry with
    | .error e => .error e
    | .ok envelope =>
      match decodeAll registry rest with
      | .error e => .error e
      | .ok envelopes => .ok (envelope :: envelopes)

/-- The events of an aggregate from a sequence number on. -/
def loadFrom (store : Store σ τ) (aggregateId : String) (fromSequence : Int) (s : σ) :
    Except StoreError (List Envelope) × σ :=
  match store.backend.query s aggregateId fromSequence with
  | (.error e, s) => (.error (.ofBackend .query e), s)
  | (.ok records, s) =>
    match decodeAll store.registry records with
    | .error e => (.error (.event e), s)
    | .ok envelopes => (.ok envelopes, s)

/-- All events of an aggregate. -/
def load (store : Store σ τ) (aggregateId : String) (s : σ) :
    Except StoreError (List Envelope) × σ :=
  store.loadFrom aggregateId Numeral.minInt64 s

end Store

end EventJournal
