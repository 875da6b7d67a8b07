import EventJournal.Order.Event

/-!
# Order commands

What can be asked of an order, and why it is refused.

* `Order.Status`, `Order.Command`, `Order.Error` with its wording;
* `Order.Command.describe`, a command as logs show it.
-/

namespace EventJournal.Order

/-- The stages of an order. -/
inductive Status
  | created
  | confirmed
  | shipped
  | delivered
  | cancelled
  deriving DecidableEq, Repr

/-- The name of a stage. -/
def Status.name : Status → String
  | .created => "Created"
  | .confirmed => "Confirmed"
  | .shipped => "Shipped"
  | .delivered => "Delivered"
  | .cancelled => "Cancelled"

/-- The stages that an order never leaves. -/
def Status.isTerminal : Status → Bool
  | .delivered | .cancelled => true
  | _ => false

/-- What can be asked of an order. -/
inductive Command
  | create (customerId : Uuid) (items : List Item)
  | updateItems (items : List Item) (reason : Option String)
  | confirm
  | ship (trackingNumber carrier : String)
  | deliver (signature : Option String)
  | cancel (reason : Option String) (cancelledBy : Option Uuid)
  deriving DecidableEq

/-- Why a command is refused or an event does not fit. -/
inductive Error
  | alreadyExists
  | notFound
  | alreadyCancelled
  | alreadyConfirmed
  | notConfirmed
  | notShipped
  | invalidStatusTransition (status : Status)
  | emptyItems
  | invalidQuantity (quantity : Int32)
  | notInitialized (eventType : String)
  deriving DecidableEq

/-- The wording of each error. -/
def Error.message : Error → String
  | .alreadyExists => "Order already exists"
  | .notFound => "Order does not exist"
  | .alreadyCancelled => "Order is already cancelled"
  | .alreadyConfirmed => "Order is already confirmed"
  | .notConfirmed => "Order must be confirmed before shipping"
  | .notShipped => "Order must be shipped before delivery"
  | .invalidStatusTransition status => "Cannot modify order in status: " ++ status.name
  | .emptyItems => "Order items cannot be empty"
  | .invalidQuantity quantity =>
    "Invalid item quantity: " ++ String.ofList (Numeral.integer quantity.toInt)
  | .notInitialized type => "Order history must start with order.created, found " ++ type

/-- The name of each kind of error. -/
def Error.code : Error → String
  | .alreadyExists => "Order.AlreadyExists"
  | .notFound => "Order.NotFound"
  | .alreadyCancelled => "Order.AlreadyCancelled"
  | .alreadyConfirmed => "Order.AlreadyConfirmed"
  | .notConfirmed => "Order.NotConfirmed"
  | .notShipped => "Order.NotShipped"
  | .invalidStatusTransition _ => "Order.InvalidStatusTransition"
  | .emptyItems => "Order.EmptyItems"
  | .invalidQuantity _ => "Order.InvalidQuantity"
  | .notInitialized _ => "Order.NotInitialized"

/-- An item as logs show it. -/
def Item.describe (item : Item) : String :=
  "OrderItem \x7b product_id: " ++ item.productId.toString ++ ", quantity: " ++
    String.ofList (Numeral.integer item.quantity.toInt) ++ " \x7d"

/-- Items as logs show them. -/
def Item.describeAll (items : List Item) : String :=
  "[" ++ String.intercalate ", " (items.map Item.describe) ++ "]"

/-- An optional value as logs show it. -/
def describeOption : Option String → String
  | some s => "Some(" ++ s ++ ")"
  | none => "None"

/-- A command as logs show it. -/
def Command.describe : Command → String
  | .create customerId items =>
    "CreateOrder \x7b customer_id: " ++ customerId.toString ++ ", items: " ++
      Item.describeAll items ++ " \x7d"
  | .updateItems items reason =>
    "UpdateItems \x7b items: " ++ Item.describeAll items ++ ", reason: " ++
      describeOption (reason.map Text.debugQuote) ++ " \x7d"
  | .confirm => "ConfirmOrder"
  | .ship trackingNumber carrier =>
    "ShipOrder \x7b tracking_number: " ++ Text.debugQuote trackingNumber ++ ", carrier: " ++
      Text.debugQuote carrier ++ " \x7d"
  | .deliver signature =>
    "DeliverOrder \x7b signature: " ++ describeOption (signature.map Text.debugQuote) ++ " \x7d"
  | .cancel reason cancelledBy =>
    "CancelOrder \x7b reason: " ++ describeOption (reason.map Text.debugQuote) ++
      ", cancelled_by: " ++ describeOption (cancelledBy.map Uuid.toString) ++ " \x7d"

end EventJournal.Order
