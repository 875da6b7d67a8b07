import EventJournal.Order.Event
import EventJournal.Proofs.Json.Members
import Mathlib.Data.List.Forall2

/-!
# Spellings of order events

The texts that tell an order event: an object that names the variant and holds the fields of the
event, with other members anywhere and all members in any order. Where the content stands before
the name of the variant, it is kept until the variant is known, and what is unknown in it has to be
something that can be kept.

* `Event.variant`, `Event.fieldNames`: the variants and the fields that each knows;
* `Item.Told`, `Event.Content`, `Event.Told`: what a form tells;
* `Event.Repeated`, a form in which a known name stands twice.

The main statements are `Event.ofForm?_of_told` and `Event.ofForm?_of_repeated`.
-/

namespace EventJournal.Order

open Json (Form Piece Once Perhaps under)

/-! ### What is told -/

/-- A form that tells of an item: an object in which both fields stand once, with any other members
that are allowed, or an array of both. -/
inductive Item.Told (allowed : Form → Prop) (item : Item) : Form → Prop
  | pair {productId quantity : Form} (product : productId.uuid? = some item.productId)
      (count : quantity? quantity = some item.quantity) :
      Told allowed item (.array [productId, quantity])
  | object {parts : List (List Piece × Form)} {members : List (String × Form)}
      (named : (Form.object parts).members? = some members)
      (product : Once members "product_id" (·.uuid? = some item.productId))
      (count : Once members "quantity" (quantity? · = some item.quantity))
      (others : ∀ member ∈ members, member.1 ∉ ["product_id", "quantity"] → allowed member.2) :
      Told allowed item (.object parts)

/-- A form that tells of items: an array of forms that tell of one each. -/
def Item.AllTold (allowed : Form → Prop) (items : List Item) (form : Form) : Prop :=
  ∃ elements, form = .array elements ∧ List.Forall₂ (Item.Told allowed) items elements

namespace Event

/-- The name of the variant of an event. -/
def variant : Event → String
  | .created .. => "Created"
  | .itemsUpdated .. => "ItemsUpdated"
  | .confirmed .. => "Confirmed"
  | .shipped .. => "Shipped"
  | .delivered .. => "Delivered"
  | .cancelled .. => "Cancelled"

/-- The names of the fields of a variant. -/
def fieldNames (variant : String) : List String :=
  match variant with
  | "Created" => ["customer_id", "items"]
  | "ItemsUpdated" => ["items", "reason"]
  | "Confirmed" => ["confirmed_at"]
  | "Shipped" => ["tracking_number", "carrier", "shipped_at"]
  | "Delivered" => ["delivered_at", "signature"]
  | "Cancelled" => ["reason", "cancelled_by"]
  | _ => []

/-- The members of the content tell of the fields of an event. -/
def Content (allowed : Form → Prop) (members : List (String × Form)) : Event → Prop
  | .created customerId items =>
    Once members "customer_id" (·.uuid? = some customerId) ∧
      Once members "items" (Item.AllTold allowed items)
  | .itemsUpdated items reason =>
    Once members "items" (Item.AllTold allowed items) ∧
      Perhaps members "reason" Form.string? reason
  | .confirmed confirmedAt => Once members "confirmed_at" (·.time? = some confirmedAt)
  | .shipped trackingNumber carrier shippedAt =>
    Once members "tracking_number" (·.string? = some trackingNumber) ∧
      Once members "carrier" (·.string? = some carrier) ∧
      Once members "shipped_at" (·.time? = some shippedAt)
  | .delivered deliveredAt signature =>
    Once members "delivered_at" (·.time? = some deliveredAt) ∧
      Perhaps members "signature" Form.string? signature
  | .cancelled reason cancelledBy =>
    Perhaps members "reason" Form.string? reason ∧
      Perhaps members "cancelled_by" Form.uuid? cancelledBy

/-- What may stand under an unknown name inside the content: anything, unless the content stands
before the name of the variant and so has to be kept. -/
def Allowed (members : List (String × Form)) (limit : Nat) (form : Form) : Prop :=
  Form.contentFirst members = true → form.Kept limit

/-- A form that tells of an event: an object in which the variant is named once and the fields of the
event are given once, next to any other members. -/
inductive Told (e : Event) : Form → Prop
  | object {parts contentParts : List (List Piece × Form)} {members content : List (String × Form)}
      (named : (Form.object parts).members? = some members)
      (type : Once members "type" (·.variantName? = some e.variant))
      (data : Once members "data" (· = .object contentParts))
      (content_named : (Form.object contentParts).members? = some content)
      (fields : Content (Allowed members 123) content e)
      (others : ∀ member ∈ content, member.1 ∉ fieldNames e.variant →
        Allowed members 125 member.2) : Told e (.object parts)

/-- A form in which a known name stands twice: in the object itself, or among the fields of the
variant that it names. -/
inductive Repeated : Form → Prop
  | tag {parts : List (List Piece × Form)} {members : List (String × Form)} {name : String}
      (named : (Form.object parts).members? = some members) (known : name ∈ ["type", "data"])
      (twice : 2 ≤ (under members name).length) : Repeated (.object parts)
  | field {parts contentParts : List (List Piece × Form)} {members content : List (String × Form)}
      {variant name : String} (named : (Form.object parts).members? = some members)
      (type : Once members "type" (·.variantName? = some variant))
      (data : Once members "data" (· = .object contentParts))
      (content_named : (Form.object contentParts).members? = some content)
      (known : name ∈ fieldNames variant) (twice : 2 ≤ (under content name).length) :
      Repeated (.object parts)

end Event

/-! ### How it is read -/

namespace Item

variable {allowed : Form → Prop} {item : Item} {items : List Item} {form : Form}

theorem ofForm?_of_told (h : item.Told allowed form) : ofForm? form = some item := by
  cases h with
  | pair product count => simp only [ofForm?, product, count, bind, Option.bind]
  | object named product count _ =>
    have hfields := Form.fields?_of_once ["product_id", "quantity"] named <| by
      simpa using ⟨product.length_le, count.length_le⟩
    simp only [ofForm?, hfields, Json.required_of_once product, Json.required_of_once count, bind,
      Option.bind]

theorem list?_of_allTold (h : AllTold allowed items form) :
    form.list? ofForm? = some items := by
  obtain ⟨elements, rfl, htold⟩ := h
  show elements.mapM ofForm? = _
  induction htold with
  | nil => rfl
  | cons hitem _ ih => simp [List.mapM_cons, ofForm?_of_told hitem, ih]

/-- A field that tells of items is read. -/
theorem required_of_allTold {members : List (String × Form)} {name : String}
    (h : Once members name (AllTold allowed items)) :
    Json.required (Form.list? ofForm?) members name = some items :=
  Json.required_of_once (h.imp fun _ => list?_of_allTold)

theorem kept_of_told {limit : Nat} (hallowed : ∀ form, allowed form → form.Kept limit)
    (h : item.Told allowed form) : form.Kept (limit + 1) := by
  cases h with
  | pair product count =>
    obtain ⟨n, hn, -⟩ := Option.map_eq_some_iff.1 count
    refine Form.kept_array ?_
    simpa using ⟨Form.kept_of_uuid? product, Form.kept_of_integer? hn⟩
  | object named product count others =>
    refine Form.kept_object named ?_
    rintro ⟨name, form⟩ hmem
    by_cases hknown : name ∈ ["product_id", "quantity"]
    · simp only [List.mem_cons, List.not_mem_nil, or_false] at hknown
      rcases hknown with rfl | rfl
      · exact product.kept (fun _ => Form.kept_of_uuid?) hmem
      · refine count.kept (fun form hcount => ?_) hmem
        obtain ⟨n, hn, -⟩ := Option.map_eq_some_iff.1 hcount
        exact Form.kept_of_integer? hn
    · exact hallowed form (others _ hmem hknown)

theorem kept_of_allTold {limit : Nat} (hallowed : ∀ form, allowed form → form.Kept limit)
    (h : AllTold allowed items form) : form.Kept (limit + 2) := by
  obtain ⟨elements, rfl, htold⟩ := h
  refine Form.kept_array fun element helement => ?_
  obtain ⟨i, hi, rfl⟩ := List.getElem_of_mem helement
  exact kept_of_told hallowed (htold.get (htold.length_eq ▸ hi) hi)

end Item

namespace Event

variable {allowed : Form → Prop} {e : Event} {form : Form}
  {parts contentParts : List (List Piece × Form)} {members content : List (String × Form)}

/-- No field of an event is told of twice. -/
theorem Content.length_le (h : Content allowed content e) :
    ∀ name ∈ fieldNames e.variant, (under content name).length ≤ 1 := by
  cases e with
  | created customerId items => simpa [fieldNames, variant] using ⟨h.1.length_le, h.2.length_le⟩
  | itemsUpdated items reason => simpa [fieldNames, variant] using ⟨h.1.length_le, h.2.length_le⟩
  | confirmed confirmedAt => simpa [fieldNames, variant] using Once.length_le h
  | shipped trackingNumber carrier shippedAt =>
    simpa [fieldNames, variant] using ⟨h.1.length_le, h.2.1.length_le, h.2.2.length_le⟩
  | delivered deliveredAt signature =>
    simpa [fieldNames, variant] using ⟨h.1.length_le, h.2.length_le⟩
  | cancelled reason cancelledBy =>
    simpa [fieldNames, variant] using ⟨h.1.length_le, h.2.length_le⟩

/-- The content that tells of the fields of an event is read as this event. -/
theorem ofContent?_of_content (named : (Form.object contentParts).members? = some content)
    (h : Content allowed content e) : ofContent? e.variant (.object contentParts) = some e := by
  have hfields := Form.fields?_of_once _ named h.length_le
  cases e with
  | created customerId items =>
    simp only [variant, fieldNames] at hfields
    simp only [variant, ofContent?, hfields, Json.required_of_once h.1,
      Item.required_of_allTold h.2, bind, Option.bind]
  | itemsUpdated items reason =>
    simp only [variant, fieldNames] at hfields
    simp only [variant, ofContent?, hfields, Item.required_of_allTold h.1,
      Json.optional_of_perhaps rfl h.2, bind, Option.bind]
  | confirmed confirmedAt =>
    simp only [variant, fieldNames] at hfields
    simp only [variant, ofContent?, hfields, Json.required_of_once h, bind, Option.bind]
  | shipped trackingNumber carrier shippedAt =>
    simp only [variant, fieldNames] at hfields
    simp only [variant, ofContent?, hfields, Json.required_of_once h.1,
      Json.required_of_once h.2.1, Json.required_of_once h.2.2, bind, Option.bind]
  | delivered deliveredAt signature =>
    simp only [variant, fieldNames] at hfields
    simp only [variant, ofContent?, hfields, Json.required_of_once h.1,
      Json.optional_of_perhaps rfl h.2, bind, Option.bind]
  | cancelled reason cancelledBy =>
    simp only [variant, fieldNames] at hfields
    simp only [variant, ofContent?, hfields, Json.optional_of_perhaps rfl h.1,
      Json.optional_of_perhaps rfl h.2, bind, Option.bind]

/-- The content of a variant is refused with one of its fields twice. -/
theorem ofContent?_of_fields? {variant : String} {content : Form}
    (h : content.fields? (fieldNames variant) = none) : ofContent? variant content = none := by
  unfold ofContent?
  split
  all_goals first | rfl | (simp only [fieldNames] at h; simp only [h, bind, Option.bind])

/-- The fields of an event can be kept where the unknown members in its items can. -/
theorem Content.kept {limit : Nat} (hallowed : ∀ form, allowed form → form.Kept limit)
    (h : Content allowed content e) {name : String} (known : name ∈ fieldNames e.variant)
    (hmem : (name, form) ∈ content) : form.Kept (limit + 2) := by
  have hitems : ∀ items form, Item.AllTold allowed items form → form.Kept (limit + 2) :=
    fun _ _ => Item.kept_of_allTold hallowed
  have hstring : ∀ (form : Form) (s : String), form.string? = some s → form.Kept (limit + 2) :=
    fun _ _ => Form.kept_of_string?
  have htime : ∀ (t : Time) (form : Form), form.time? = some t → form.Kept (limit + 2) :=
    fun _ _ => Form.kept_of_time?
  have huuid : ∀ (form : Form) (u : Uuid), form.uuid? = some u → form.Kept (limit + 2) :=
    fun _ _ => Form.kept_of_uuid?
  cases e with
  | created customerId items =>
    rcases List.mem_pair.1 known with rfl | rfl
    · exact h.1.kept (fun form => huuid form _) hmem
    · exact h.2.kept (hitems _) hmem
  | itemsUpdated items reason =>
    rcases List.mem_pair.1 known with rfl | rfl
    · exact h.1.kept (hitems _) hmem
    · exact h.2.kept hstring hmem
  | confirmed confirmedAt =>
    obtain rfl := List.mem_singleton.1 known
    exact Once.kept h (htime _) hmem
  | shipped trackingNumber carrier shippedAt =>
    simp only [variant, fieldNames, List.mem_cons, List.not_mem_nil, or_false] at known
    rcases known with rfl | rfl | rfl
    · exact h.1.kept (fun form => hstring form _) hmem
    · exact h.2.1.kept (fun form => hstring form _) hmem
    · exact h.2.2.kept (htime _) hmem
  | delivered deliveredAt signature =>
    rcases List.mem_pair.1 known with rfl | rfl
    · exact h.1.kept (htime _) hmem
    · exact h.2.kept hstring hmem
  | cancelled reason cancelledBy =>
    rcases List.mem_pair.1 known with rfl | rfl
    · exact h.1.kept hstring hmem
    · exact h.2.kept huuid hmem

/-- The variant and the content are taken from the two members that stand once, unless the content
stands first and cannot be kept. -/
theorem tagged?_of_once {variant : String} {content : Form}
    (named : (Form.object parts).members? = some members)
    (type : Once members "type" (·.variantName? = some variant))
    (data : Once members "data" (· = content)) :
    (Form.object parts).tagged? =
      if Form.contentFirst members && (content.value? (Json.maxDepth - 1)).isNone then none
      else some (variant, some content) := by
  have hfields := Form.fields?_of_once ["type", "data"] named <| by
    simpa using ⟨type.length_le, data.length_le⟩
  obtain ⟨name, htype, hname⟩ := Json.lookup_of_once type
  obtain ⟨value, hdata, rfl⟩ := Json.lookup_of_once data
  simp only [Form.tagged?, hfields, htype, hname, hdata, bind, Option.bind]

/-- A form that tells of an event is read as this event. -/
theorem ofForm?_of_told (h : e.Told form) : ofForm? form = some e := by
  obtain ⟨named, type, data, content_named, fields, others⟩ := h
  rename_i parts contentParts members content
  have hguard : (Form.contentFirst members &&
      ((Form.object contentParts).value? (Json.maxDepth - 1)).isNone) = false := by
    cases hfirst : Form.contentFirst members with
    | false => rfl
    | true =>
      have hkept : (Form.object contentParts).Kept (Json.maxDepth - 1) := by
        refine Form.kept_object content_named ?_
        rintro ⟨name, form⟩ hmem
        by_cases known : name ∈ fieldNames e.variant
        · exact fields.kept (fun form hallowed => hallowed hfirst) known hmem
        · exact others _ hmem known hfirst
      rw [Bool.true_and, ← Option.not_isSome, Form.kept_iff.1 hkept]
      rfl
  rw [ofForm?, tagged?_of_once named type data, hguard]
  exact ofContent?_of_content content_named fields

/-- A form in which a known name stands twice is not read. -/
theorem ofForm?_of_repeated (h : Repeated form) : ofForm? form = none := by
  cases h with
  | tag named known twice =>
    have hfields := Form.fields?_of_twice named known twice
    simp only [ofForm?, Form.tagged?, hfields, bind, Option.bind]
  | field named type data content_named known twice =>
    have hcontent := ofContent?_of_fields? (Form.fields?_of_twice content_named known twice)
    rw [ofForm?, tagged?_of_once named type data]
    -- the content may have been refused already, as nothing to keep
    split
    · rfl
    · exact hcontent

end Event

end EventJournal.Order
