import EventJournal.Proofs.Json.Fields
import EventJournal.Proofs.Order.Spellings

/-!
# Order events read back

Every order event is read back from its bytes, whatever its strings, times and quantities are: what
is written tells of the event.

* `Item.told_toForm`, the items of an order;
* `Event.plain_toJson`, that order events are written as plain values;
* `Event.told_toForm`, `Event.ofForm?_toForm`: the codec on forms;
* `Event.RoundTrips`, what the codec on bytes keeps;
* `Event.ReadsSpellings`, what is read however it is spelled.

The main statements are `Event.ofBytes?_toBytes`, `Event.roundTrips` and `Event.readsSpellings`.
-/

namespace EventJournal.Order

open Json (FitsWord Form Plain PlainElements members?_memberForms once_of_written perhaps_ofString?
  perhaps_ofUuid? plain_tagged plain_ofString? plain_ofUuid? toForm written)

namespace Item

theorem fitsWord_quantity (quantity : Int32) : FitsWord quantity.toInt := by
  have hleast := quantity.le_toInt
  have hgreatest := quantity.toInt_lt
  constructor <;> omega

theorem plain_toJson (item : Item) : item.toJson.Plain :=
  ⟨⟨trivial, fitsWord_quantity item.quantity, trivial⟩, by simp⟩

theorem plain_map_toJson (items : List Item) : PlainElements (items.map toJson) := by
  induction items with
  | nil => trivial
  | cons item rest ih => exact ⟨item.plain_toJson, ih⟩

theorem quantity?_ofInt (quantity : Int32) :
    quantity? (toForm (.ofInt quantity.toInt)) = some quantity := by
  have hleast := quantity.le_toInt
  have hgreatest := quantity.toInt_lt
  rw [quantity?, Json.integer?_ofInt (fitsWord_quantity quantity) (by omega) (by omega),
    Option.map_some, Int32.ofInt_toInt]

/-- An item is written as a form that tells of it. -/
theorem told_toForm (allowed : Form → Prop) (item : Item) :
    item.Told allowed item.toJson.toForm := by
  refine .object (members?_memberForms _) (once_of_written rfl (Json.uuid?_ofUuid _))
    (once_of_written rfl (quantity?_ofInt _)) ?_
  simp [written]

theorem allTold_itemsJson (allowed : Form → Prop) (items : List Item) :
    AllTold allowed items (toForm (Event.itemsJson items)) := by
  refine ⟨_, rfl, ?_⟩
  induction items with
  | nil => exact .nil
  | cons item rest ih => exact .cons (item.told_toForm allowed) ih

end Item

namespace Event

/-- Order events are written as plain values. -/
theorem plain_toJson (e : Event) : e.toJson.Plain := by
  cases e with
  | created customerId items =>
    exact plain_tagged ⟨trivial, Item.plain_map_toJson items, trivial⟩ (by simp)
  | itemsUpdated items reason =>
    exact plain_tagged ⟨Item.plain_map_toJson items, plain_ofString? reason, trivial⟩ (by simp)
  | confirmed confirmedAt => exact plain_tagged ⟨trivial, trivial⟩ (by simp)
  | shipped trackingNumber carrier shippedAt =>
    exact plain_tagged ⟨trivial, trivial, trivial, trivial⟩ (by simp)
  | delivered deliveredAt signature =>
    exact plain_tagged ⟨trivial, plain_ofString? signature, trivial⟩ (by simp)
  | cancelled reason cancelledBy =>
    exact plain_tagged ⟨plain_ofString? reason, plain_ofUuid? cancelledBy, trivial⟩ (by simp)

/-- Content of its variant with the fields of an event tells of the event, as it is written. -/
theorem told_of_content {e : Event} {members : Json.Members}
    (fields : ∀ allowed, Content allowed (written members) e)
    (names : ∀ member ∈ members, member.1 ∈ fieldNames e.variant) :
    e.Told (toForm (.tagged e.variant members)) := by
  refine .object (members?_memberForms _) (once_of_written rfl (Json.string?_toForm _))
    (once_of_written rfl rfl) (members?_memberForms members) (fields _) ?_
  intro member hmember unknown
  obtain ⟨field, hfield, rfl⟩ := List.mem_map.1 hmember
  exact (unknown (names field hfield)).elim

/-- An event is written as a form that tells of it. -/
theorem told_toForm (e : Event) : e.Told e.toJson.toForm := by
  cases e with
  | created customerId items =>
    refine told_of_content (fun allowed => ?_) (by simp [variant, fieldNames])
    exact ⟨once_of_written rfl (Json.uuid?_ofUuid _),
      once_of_written rfl (Item.allTold_itemsJson allowed items)⟩
  | itemsUpdated items reason =>
    refine told_of_content (fun allowed => ?_) (by simp [variant, fieldNames])
    exact ⟨once_of_written rfl (Item.allTold_itemsJson allowed items), perhaps_ofString? rfl⟩
  | confirmed confirmedAt =>
    refine told_of_content (fun _ => ?_) (by simp [variant, fieldNames])
    exact once_of_written rfl (Json.time?_ofTime _)
  | shipped trackingNumber carrier shippedAt =>
    refine told_of_content (fun _ => ?_) (by simp [variant, fieldNames])
    exact ⟨once_of_written rfl (Json.string?_toForm _), once_of_written rfl (Json.string?_toForm _),
      once_of_written rfl (Json.time?_ofTime _)⟩
  | delivered deliveredAt signature =>
    refine told_of_content (fun _ => ?_) (by simp [variant, fieldNames])
    exact ⟨once_of_written rfl (Json.time?_ofTime _), perhaps_ofString? rfl⟩
  | cancelled reason cancelledBy =>
    refine told_of_content (fun _ => ?_) (by simp [variant, fieldNames])
    exact ⟨perhaps_ofString? rfl, perhaps_ofUuid? rfl⟩

/-- An event is read back from its form. -/
theorem ofForm?_toForm (e : Event) : ofForm? e.toJson.toForm = some e :=
  ofForm?_of_told e.told_toForm

/-- An event is read back from its bytes. -/
theorem ofBytes?_toBytes (e : Event) :
    (Json.Form.ofBytes? e.toJson.toBytes).bind ofForm? = some e := by
  rw [Json.Form.ofBytes?_toBytes e.plain_toJson, Option.bind_some, ofForm?_toForm]

theorem encodeAs_eq (type : String) (e : Event) :
    encodeAs type (Payload.encode e) = .ok e.toJson.toBytes :=
  rfl

theorem decodeAs_toBytes (type : String) (e : Event) :
    decodeAs Event type e.toJson.toBytes = .ok e := by
  have hdecode : Payload.decode e.toJson.toBytes = some e := e.ofBytes?_toBytes
  rw [decodeAs, hdecode]

/-- What the codec of order events keeps, under any type that its errors would name. -/
structure RoundTrips (type : String) : Prop where
  /-- Every event can be written, and is read back with the type that it states. -/
  kept : ∀ e : Event, ∃ bytes, encodeAs type (Payload.encode e) = .ok bytes ∧
    ∃ e', decodeAs Event type bytes = .ok e' ∧ e' = e ∧ Payload.eventType e' = Payload.eventType e
  /-- However the bytes of an event are spelled, writing it settles the spelling: the bytes written
  hold the same event, and are written for it again. -/
  settled : ∀ (bytes : ByteArray) (e : Event), decodeAs Event type bytes = .ok e →
    ∃ canonical, encodeAs type (Payload.encode e) = .ok canonical ∧
      ∃ e', decodeAs Event type canonical = .ok e' ∧ e' = e ∧
        encodeAs type (Payload.encode e') = .ok canonical

/-- Order events go through their codec unharmed. -/
theorem roundTrips (type : String) : RoundTrips type where
  kept e := ⟨_, encodeAs_eq type e, e, decodeAs_toBytes type e, rfl, rfl⟩
  settled _ e _ := ⟨_, encodeAs_eq type e, e, decodeAs_toBytes type e, rfl, encodeAs_eq type e⟩

/-- What is guaranteed of the texts that tell of an event, under any type that errors would name. -/
structure ReadsSpellings (type : String) : Prop where
  /-- A text that tells of an event is decoded to it. -/
  told : ∀ (text : String) (form : Form) (e : Event), form.Laid text.toList → e.Told form →
    decodeAs Event type text.toUTF8 = .ok e
  /-- A text in which a known name stands twice is refused, and the error names the type. -/
  repeated : ∀ (text : String) (form : Form), form.Laid text.toList → Repeated form →
    decodeAs Event type text.toUTF8 = .error (.deserialization type)
  /-- The text that is written for an event tells of it. -/
  written : ∀ e : Event, e.toJson.toForm.Laid e.toJson.toString.toList ∧ e.Told e.toJson.toForm

/-- The order of the members, unknown members, blanks and escapes make no difference to what is
read, and nothing that is told twice is read. -/
theorem readsSpellings (type : String) : ReadsSpellings type := by
  have hdecode : ∀ {text : String} {form : Form}, form.Laid text.toList →
      Payload.decode text.toUTF8 = ofForm? form := by
    intro text form laid
    show (Form.ofBytes? text.toUTF8).bind ofForm? = _
    rw [Form.ofBytes?_toUTF8 laid, Option.bind_some]
  constructor
  case told =>
    intro text form e laid told
    rw [decodeAs, hdecode laid, ofForm?_of_told told]
  case repeated =>
    intro text form laid repeated
    rw [decodeAs, hdecode laid, ofForm?_of_repeated repeated]
  case written => exact fun e => ⟨Json.laid_toString e.plain_toJson, e.told_toForm⟩

end Event

/-- A cancellation, spelled otherwise than it is written. -/
def cancellation : ByteArray := "[\"Cancelled\", \x7b\"by\": 1, \"reason\": null\x7d]".toUTF8

theorem decode_cancellation :
    Payload.decode cancellation = some (Event.cancelled none none) := by
  decide +kernel

/-- Its bytes are not kept, but the event on them is. -/
theorem settled_cancellation :
    ∃ canonical, encodeAs "order.cancelled" (Payload.encode (Event.cancelled none none)) =
        .ok canonical ∧ canonical ≠ cancellation ∧
      decodeAs Event "order.cancelled" canonical = .ok (.cancelled none none) := by
  have hread : decodeAs Event "order.cancelled" cancellation = .ok (.cancelled none none) := by
    rw [decodeAs, decode_cancellation]
  obtain ⟨canonical, hwritten, e', hagain, rfl, -⟩ :=
    (Event.roundTrips "order.cancelled").settled cancellation _ hread
  refine ⟨canonical, hwritten, ?_, hagain⟩
  rw [← Except.ok.inj hwritten]
  decide +kernel

/-- A cancellation whose fields stand before its name, with members that nobody knows. -/
def lateCancellation : String :=
  "\x7b \"data\": \x7b\"note\": [\x7b\"page\": 12\x7d], \"cancelled_by\": null\x7d,\n \"v\": [2],
    \"type\": \"Cancell\\u0065d\"\x7d"

/-- Its form. -/
def lateForm : Form :=
  .object [
    ("data".toList.map .char, .object [
      ("note".toList.map .char, .array [.object [
        ("page".toList.map .char, .number ⟨false, ['1', '2'], [], none⟩)]]),
      ("cancelled_by".toList.map .char, .null)]),
    ("v".toList.map .char, .array [.number ⟨false, ['2'], [], none⟩]),
    ("type".toList.map .char,
      .string ("Cancell".toList.map .char ++ [.unit 0x65, .char 'd']))]

/-- It is read all the same. -/
theorem decode_lateCancellation :
    lateForm.Laid lateCancellation.toList ∧ (Event.cancelled none none).Told lateForm ∧
      decodeAs Event "order.cancelled" lateCancellation.toUTF8 = .ok (.cancelled none none) := by
  have laid : lateForm.Laid lateCancellation.toList := Form.laid_of_same (by decide +kernel)
  have told : (Event.cancelled none none).Told lateForm := by
    refine .object rfl ⟨_, rfl, rfl⟩ ⟨_, rfl, rfl⟩ rfl ⟨.inl rfl, .inr ⟨_, rfl, rfl⟩⟩ ?_
    intro member hmember unknown _
    rcases List.mem_pair.1 hmember with rfl | rfl
    · exact ⟨by decide, rfl⟩
    · exact (unknown (by decide)).elim
  exact ⟨laid, told, (Event.readsSpellings "order.cancelled").told _ _ _ laid told⟩

end EventJournal.Order
