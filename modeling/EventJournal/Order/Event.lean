import EventJournal.Event
import EventJournal.Json.Fields
import EventJournal.Registry

/-!
# Order events

What can happen to an order, and how it is written.

* `Order.Item`, `Order.Event`;
* `Order.Event.toJson`, `Order.Event.ofForm?`: the two directions of the codec;
* the instance of `Payload`, and `Order.register` for its six event types.
-/

namespace EventJournal.Order

/-- A number of pieces of one product. -/
structure Item where
  productId : Uuid
  quantity : Int32
  deriving DecidableEq

/-- What can happen to an order. -/
inductive Event
  | created (customerId : Uuid) (items : List Item)
  | itemsUpdated (items : List Item) (reason : Option String)
  | confirmed (confirmedAt : Time)
  | shipped (trackingNumber carrier : String) (shippedAt : Time)
  | delivered (deliveredAt : Time) (signature : Option String)
  | cancelled (reason : Option String) (cancelledBy : Option Uuid)
  deriving DecidableEq

/-- The event types of orders. -/
def eventTypes : List String :=
  ["order.created", "order.items_updated", "order.confirmed", "order.shipped", "order.delivered",
   "order.cancelled"]

namespace Item

/-- An item as a JSON value. -/
def toJson (item : Item) : Json :=
  .object [("product_id", .ofUuid item.productId), ("quantity", .ofInt item.quantity.toInt)]

/-- A quantity: an integer of 32 bits. -/
def quantity? (form : Json.Form) : Option Int32 :=
  (form.integer? (-2147483648) 2147483647).map Int32.ofInt

/-- Reads an item from an object, or from an array of its two fields. -/
def ofForm? : Json.Form → Option Item
  | .array [productId, quantity] => do
    let productId ← productId.uuid?
    let quantity ← quantity? quantity
    some { productId, quantity }
  | .array _ => none
  | form => do
    let fields ← form.fields? ["product_id", "quantity"]
    let productId ← Json.required Json.Form.uuid? fields "product_id"
    let quantity ← Json.required quantity? fields "quantity"
    some { productId, quantity }

end Item

namespace Event

/-- The event type that an event states. -/
def eventType : Event → String
  | .created .. => "order.created"
  | .itemsUpdated .. => "order.items_updated"
  | .confirmed .. => "order.confirmed"
  | .shipped .. => "order.shipped"
  | .delivered .. => "order.delivered"
  | .cancelled .. => "order.cancelled"

/-- Items as a JSON value. -/
def itemsJson (items : List Item) : Json := .array (items.map Item.toJson)

/-- An event as a JSON value. -/
def toJson : Event → Json
  | .created customerId items =>
    .tagged "Created" [("customer_id", .ofUuid customerId), ("items", itemsJson items)]
  | .itemsUpdated items reason =>
    .tagged "ItemsUpdated" [("items", itemsJson items), ("reason", .ofString? reason)]
  | .confirmed confirmedAt => .tagged "Confirmed" [("confirmed_at", .ofTime confirmedAt)]
  | .shipped trackingNumber carrier shippedAt =>
    .tagged "Shipped" [("tracking_number", .string trackingNumber), ("carrier", .string carrier),
      ("shipped_at", .ofTime shippedAt)]
  | .delivered deliveredAt signature =>
    .tagged "Delivered" [("delivered_at", .ofTime deliveredAt), ("signature", .ofString? signature)]
  | .cancelled reason cancelledBy =>
    .tagged "Cancelled" [("reason", .ofString? reason), ("cancelled_by", .ofUuid? cancelledBy)]

/-- Reads the content of a variant. -/
def ofContent? (variant : String) (content : Json.Form) : Option Event :=
  match variant with
  | "Created" => do
    let fields ← content.fields? ["customer_id", "items"]
    let customerId ← Json.required Json.Form.uuid? fields "customer_id"
    let items ← Json.required (Json.Form.list? Item.ofForm?) fields "items"
    some (.created customerId items)
  | "ItemsUpdated" => do
    let fields ← content.fields? ["items", "reason"]
    let items ← Json.required (Json.Form.list? Item.ofForm?) fields "items"
    let reason ← Json.optional Json.Form.string? fields "reason"
    some (.itemsUpdated items reason)
  | "Confirmed" => do
    let fields ← content.fields? ["confirmed_at"]
    let confirmedAt ← Json.required Json.Form.time? fields "confirmed_at"
    some (.confirmed confirmedAt)
  | "Shipped" => do
    let fields ← content.fields? ["tracking_number", "carrier", "shipped_at"]
    let trackingNumber ← Json.required Json.Form.string? fields "tracking_number"
    let carrier ← Json.required Json.Form.string? fields "carrier"
    let shippedAt ← Json.required Json.Form.time? fields "shipped_at"
    some (.shipped trackingNumber carrier shippedAt)
  | "Delivered" => do
    let fields ← content.fields? ["delivered_at", "signature"]
    let deliveredAt ← Json.required Json.Form.time? fields "delivered_at"
    let signature ← Json.optional Json.Form.string? fields "signature"
    some (.delivered deliveredAt signature)
  | "Cancelled" => do
    let fields ← content.fields? ["reason", "cancelled_by"]
    let reason ← Json.optional Json.Form.string? fields "reason"
    let cancelledBy ← Json.optional Json.Form.uuid? fields "cancelled_by"
    some (.cancelled reason cancelledBy)
  | _ => none

/-- Reads an event. Every variant has content. -/
def ofForm? (form : Json.Form) : Option Event := do
  let (variant, content) ← form.tagged?
  ofContent? variant (← content)

end Event

instance : Payload Event where
  eventType := Event.eventType
  encode e := some e.toJson.toBytes
  decode bytes := (Json.Form.ofBytes? bytes).bind Event.ofForm?

/-- Decodes every event type of orders as order events. -/
def register (registry : Registry) : Registry := registry.register Event eventTypes

end EventJournal.Order
