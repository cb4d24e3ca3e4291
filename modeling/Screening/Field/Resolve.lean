import Screening.Context.Basic
import Screening.Field.Basic

/-!
# What a field holds

In a context a field holds nothing, one value, or candidates of which one suffices. Codes and
products of the order's lines are one list; quantities and prices are candidates, so that a
condition on them is met when some line meets it. Null in metadata counts as nothing.
-/

namespace Screening

/-- What a field holds in a context. -/
inductive FieldValue where
  | absent
  | value (v : Value)
  | anyOf (candidates : List Value)

namespace FieldValue

def ofOption : Option Value → FieldValue
  | some v => .value v
  | none => .absent

def ofMetadata (metadata : Metadata) (path : String) : FieldValue :=
  ofOption ((Value.lookup metadata path).filter (!·.isNull))

end FieldValue

namespace ItemPlace

/-- The places whose entries make up a list. -/
def listed : List ItemPlace := [.sku, .product]

def entry? (place : ItemPlace) (item : OrderLine) : Option Value :=
  match place with
  | .sku => item.sku.map .string
  | .product => item.product.map .string
  | .quantity => some (.number (.ofInt64 item.quantity))
  | .price => item.price.map .number

end ItemPlace

namespace Field

def resolveCustomer (customer : Customer) : CustomerPlace → FieldValue
  | .id => .ofOption (customer.sourceId.map .string)
  | .email => .ofOption (customer.email.map .string)
  | .metadata key => .ofMetadata customer.metadata key

def resolveOrder (order : Order) : OrderPlace → FieldValue
  | .amount => .value (.number order.amount)
  | .currency => .ofOption (order.currency.map .string)
  | .itemsCount => .value (.number (.ofUInt64 (.ofNat order.items.length)))
  | .metadata key => .ofMetadata order.metadata key

/-- What a place holds in the lines of an order. Lines without an entry there are left out. -/
def resolveItems (items : List OrderLine) : ItemPlace → FieldValue
  | .sku => .value (.list (items.filterMap fun item => item.sku.map .string))
  | .product => .value (.list (items.filterMap fun item => item.product.map .string))
  | .quantity => .anyOf (items.map fun item => .number (.ofInt64 item.quantity))
  | .price => .anyOf (items.filterMap fun item => item.price.map .number)

def resolveEntity (key : String) (metadata : Metadata) : EntityPlace → FieldValue
  | .key => .value (.string key)
  | .metadata path => .ofMetadata metadata path

def resolveRedemptions (context : Context) : RedemptionPlace → FieldValue
  | .total => .value (.number (.ofUInt64 context.counters.total))
  | .perCustomer => .value (.number (.ofUInt64 context.counters.perCustomer))
  | .metadata key => .ofMetadata context.requestMetadata key

/-- A place in the lines holds their entries there: as one list, or as candidates. -/
theorem resolveItems_eq (items : List OrderLine) (place : ItemPlace) :
    resolveItems items place =
      if place ∈ ItemPlace.listed then .value (.list (items.filterMap place.entry?))
      else .anyOf (items.filterMap place.entry?) := by
  cases place with
  | sku | product | price => rfl
  | quantity => exact congrArg (FieldValue.anyOf <| · items) List.filterMap_eq_map.symm

def resolve (field : Field) (context : Context) : FieldValue :=
  match field with
  | .customer place => context.customer.elim .absent (resolveCustomer · place)
  | .order place => context.order.elim .absent (resolveOrder · place)
  | .orderItems place => context.order.elim .absent (resolveItems ·.items place)
  | .voucher place => resolveEntity context.voucher.code context.voucher.metadata place
  | .campaign place =>
    context.voucher.campaign.elim .absent fun campaign =>
      resolveEntity campaign.id campaign.metadata place
  | .redemptions place => resolveRedemptions context place
  | .unknown _ => .absent

def resolvePath (path : String) (context : Context) : FieldValue := (ofPath path).resolve context

end Field

end Screening
