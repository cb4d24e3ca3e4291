/-!
# Fields of a context

What a rule can look at. A field is written as a path: the name of a part of the context, a dot, and
the place in that part. Metadata is reached under any key that is not empty. Every path is a field,
but a path that names nothing in a context is an unknown one.

`render` gives the path of a field. A customer's identifier has two paths, of which the shorter one
is given; every other field has one path.
-/

namespace Screening

inductive CustomerPlace where
  | id
  | email
  | metadata (key : String)
deriving DecidableEq

inductive OrderPlace where
  | amount
  | currency
  | itemsCount
  | metadata (key : String)
deriving DecidableEq

inductive ItemPlace where
  | sku
  | product
  | quantity
  | price
deriving DecidableEq

/-- A place in the parts `voucher` and `campaign`: what identifies them, or metadata. -/
inductive EntityPlace where
  | key
  | metadata (key : String)
deriving DecidableEq

inductive RedemptionPlace where
  | total
  | perCustomer
  | metadata (key : String)
deriving DecidableEq

inductive Field where
  | customer (place : CustomerPlace)
  | order (place : OrderPlace)
  | orderItems (place : ItemPlace)
  | voucher (place : EntityPlace)
  | campaign (place : EntityPlace)
  | redemptions (place : RedemptionPlace)
  | unknown (path : String)
deriving DecidableEq

namespace Field

/-! ## Reading paths -/

/-- The text before the first dot and, if there is a dot, the text after it. -/
def splitAtDot (path : String) : String × Option String :=
  match path.toList.span (· != '.') with
  | (_, []) => (path, none)
  | (head, _ :: rest) => (String.ofList head, some (String.ofList rest))

def metadataKey? (place : String) : Option String :=
  match place.toList with
  | 'm' :: 'e' :: 't' :: 'a' :: 'd' :: 'a' :: 't' :: 'a' :: '.' :: c :: key =>
    some (String.ofList (c :: key))
  | _ => none

def customerPlace? : String → Option Field
  | "id" => some (.customer .id)
  | "source_id" => some (.customer .id)
  | "email" => some (.customer .email)
  | place => (metadataKey? place).map fun key => .customer (.metadata key)

def orderPlace? : String → Option Field
  | "amount" => some (.order .amount)
  | "currency" => some (.order .currency)
  | "items.count" => some (.order .itemsCount)
  | "items.sku" => some (.orderItems .sku)
  | "items.product" => some (.orderItems .product)
  | "items.quantity" => some (.orderItems .quantity)
  | "items.price" => some (.orderItems .price)
  | place => (metadataKey? place).map fun key => .order (.metadata key)

def voucherPlace? : String → Option Field
  | "code" => some (.voucher .key)
  | place => (metadataKey? place).map fun key => .voucher (.metadata key)

def campaignPlace? : String → Option Field
  | "id" => some (.campaign .key)
  | place => (metadataKey? place).map fun key => .campaign (.metadata key)

def redemptionsPlace? : String → Option Field
  | "count.total" => some (.redemptions .total)
  | "count.per_customer" => some (.redemptions .perCustomer)
  | place => (metadataKey? place).map fun key => .redemptions (.metadata key)

def place? (part place : String) : Option Field :=
  match part with
  | "customer" => customerPlace? place
  | "order" => orderPlace? place
  | "voucher" => voucherPlace? place
  | "campaign" => campaignPlace? place
  | "redemptions" => redemptionsPlace? place
  | _ => none

def ofPath (path : String) : Field :=
  let (part, rest) := splitAtDot path
  (rest.bind (place? part)).getD (.unknown path)

/-! ## Writing paths -/

def render : Field → String
  | .customer .id => "customer.id"
  | .customer .email => "customer.email"
  | .customer (.metadata key) => "customer.metadata." ++ key
  | .order .amount => "order.amount"
  | .order .currency => "order.currency"
  | .order .itemsCount => "order.items.count"
  | .order (.metadata key) => "order.metadata." ++ key
  | .orderItems .sku => "order.items.sku"
  | .orderItems .product => "order.items.product"
  | .orderItems .quantity => "order.items.quantity"
  | .orderItems .price => "order.items.price"
  | .voucher .key => "voucher.code"
  | .voucher (.metadata key) => "voucher.metadata." ++ key
  | .campaign .key => "campaign.id"
  | .campaign (.metadata key) => "campaign.metadata." ++ key
  | .redemptions .total => "redemptions.count.total"
  | .redemptions .perCustomer => "redemptions.count.per_customer"
  | .redemptions (.metadata key) => "redemptions.metadata." ++ key
  | .unknown path => path

instance : ToString Field := ⟨render⟩

/-- The part of the context that a field names. -/
def namespaceName : Field → String
  | .customer _ => "customer"
  | .order _ | .orderItems _ => "order"
  | .voucher _ => "voucher"
  | .campaign _ => "campaign"
  | .redemptions _ => "redemptions"
  | .unknown path => (splitAtDot path).1

end Field

end Screening
