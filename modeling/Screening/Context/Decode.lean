import Screening.Context.Basic
import Screening.Decimal.Reader
import Screening.Json.Reader
import Screening.Json.Record

/-!
# Contexts from JSON

Every part of a context is a record (`Json.Draft.record`), with its fields in the order given here.
Amounts of money are numbers, or strings that hold a decimal. A context can be decoded straight from
a text, where the first problem of the text is reported, or from a value that was read before.
-/

namespace Screening

open Json (Draft Fault Slot)
open Json.Draft (required text nullable listOf)

/-- Decodes data under names; of a name that comes twice the last value counts. -/
def Metadata.decode (room : Nat) (draft : Draft) : Except Fault Metadata :=
  match draft, room with
  | .object .., 0 => .error .malformed
  | .object members stop, room + 1 => do
    let entries ← Draft.toJsonMembers room members
    Draft.closed stop
    return Keyed.ofList (Value.ofJsonMembers entries)
  | draft, _ => .error draft.mistyped

def Decimal.decode : Draft → Except Fault Decimal
  | .number (some n) => required n.amount?
  | .string (some s) => required (Decimal.ofString? s)
  | draft => .error draft.mistyped

namespace Campaign

/-- The fields that have come so far. -/
structure Parts where
  id : Option String := none
  metadata : Option Metadata := none

/-- The fields of a campaign. -/
def slots (room : Nat) : List (Slot Parts) :=
  [⟨"id", (·.id.isSome), fun d p => return { p with id := ← text d }⟩,
   ⟨"metadata", (·.metadata.isSome),
    fun d p => return { p with metadata := ← Metadata.decode room d }⟩]

def decode : Nat → Draft → Except Fault Campaign :=
  Draft.record slots {} fun p => return { id := ← required p.id, metadata := p.metadata.getD [] }

end Campaign

namespace Voucher

structure Parts where
  code : Option String := none
  metadata : Option Metadata := none
  campaign : Option (Option Campaign) := none

def slots (room : Nat) : List (Slot Parts) :=
  [⟨"code", (·.code.isSome), fun d p => return { p with code := ← text d }⟩,
   ⟨"metadata", (·.metadata.isSome),
    fun d p => return { p with metadata := ← Metadata.decode room d }⟩,
   ⟨"campaign", (·.campaign.isSome),
    fun d p => return { p with campaign := some (← nullable (Campaign.decode room) d) }⟩]

def decode : Nat → Draft → Except Fault Voucher :=
  Draft.record slots {} fun p => return {
    code := ← required p.code
    metadata := p.metadata.getD []
    campaign := p.campaign.getD none }

end Voucher

namespace Customer

structure Parts where
  sourceId : Option (Option String) := none
  email : Option (Option String) := none
  metadata : Option Metadata := none

def slots (room : Nat) : List (Slot Parts) :=
  [⟨"source_id", (·.sourceId.isSome),
    fun d p => return { p with sourceId := some (← nullable text d) }⟩,
   ⟨"email", (·.email.isSome), fun d p => return { p with email := some (← nullable text d) }⟩,
   ⟨"metadata", (·.metadata.isSome),
    fun d p => return { p with metadata := ← Metadata.decode room d }⟩]

def decode : Nat → Draft → Except Fault Customer :=
  Draft.record slots {} fun p => return {
    sourceId := p.sourceId.getD none
    email := p.email.getD none
    metadata := p.metadata.getD [] }

end Customer

namespace OrderLine

structure Parts where
  sku : Option (Option String) := none
  product : Option (Option String) := none
  quantity : Option Int64 := none
  price : Option (Option Decimal) := none

def slots (_room : Nat) : List (Slot Parts) :=
  [⟨"sku", (·.sku.isSome), fun d p => return { p with sku := some (← nullable text d) }⟩,
   ⟨"product", (·.product.isSome),
    fun d p => return { p with product := some (← nullable text d) }⟩,
   ⟨"quantity", (·.quantity.isSome), fun d p => return { p with quantity := ← Draft.int64 d }⟩,
   ⟨"price", (·.price.isSome),
    fun d p => return { p with price := some (← nullable Decimal.decode d) }⟩]

def decode : Nat → Draft → Except Fault OrderLine :=
  Draft.record slots {} fun p => return {
    sku := p.sku.getD none
    product := p.product.getD none
    quantity := p.quantity.getD 0
    price := p.price.getD none }

end OrderLine

namespace Order

structure Parts where
  amount : Option Decimal := none
  currency : Option (Option String) := none
  items : Option (List OrderLine) := none
  metadata : Option Metadata := none

def slots (room : Nat) : List (Slot Parts) :=
  [⟨"amount", (·.amount.isSome), fun d p => return { p with amount := ← Decimal.decode d }⟩,
   ⟨"currency", (·.currency.isSome),
    fun d p => return { p with currency := some (← nullable text d) }⟩,
   ⟨"items", (·.items.isSome),
    fun d p => return { p with items := ← listOf OrderLine.decode room d }⟩,
   ⟨"metadata", (·.metadata.isSome),
    fun d p => return { p with metadata := ← Metadata.decode room d }⟩]

def decode : Nat → Draft → Except Fault Order :=
  Draft.record slots {} fun p => return {
    amount := ← required p.amount
    currency := p.currency.getD none
    items := p.items.getD []
    metadata := p.metadata.getD [] }

end Order

namespace Counters

structure Parts where
  total : Option UInt64 := none
  perCustomer : Option UInt64 := none

def slots (_room : Nat) : List (Slot Parts) :=
  [⟨"total", (·.total.isSome), fun d p => return { p with total := ← Draft.uint64 d }⟩,
   ⟨"per_customer", (·.perCustomer.isSome),
    fun d p => return { p with perCustomer := ← Draft.uint64 d }⟩]

def decode : Nat → Draft → Except Fault Counters :=
  Draft.record slots {} fun p => return {
    total := p.total.getD 0
    perCustomer := p.perCustomer.getD 0 }

end Counters

namespace Context

structure Parts where
  voucher : Option Voucher := none
  customer : Option (Option Customer) := none
  order : Option (Option Order) := none
  counters : Option Counters := none
  requestMetadata : Option Metadata := none

def slots (room : Nat) : List (Slot Parts) :=
  [⟨"voucher", (·.voucher.isSome),
    fun d p => return { p with voucher := ← Voucher.decode room d }⟩,
   ⟨"customer", (·.customer.isSome),
    fun d p => return { p with customer := some (← nullable (Customer.decode room) d) }⟩,
   ⟨"order", (·.order.isSome),
    fun d p => return { p with order := some (← nullable (Order.decode room) d) }⟩,
   ⟨"redemption_counters", (·.counters.isSome),
    fun d p => return { p with counters := ← Counters.decode room d }⟩,
   ⟨"request_metadata", (·.requestMetadata.isSome),
    fun d p => return { p with requestMetadata := ← Metadata.decode room d }⟩]

def decode : Nat → Draft → Except Fault Context :=
  Draft.record slots {} fun p => return {
    voucher := ← required p.voucher
    customer := p.customer.getD none
    order := p.order.getD none
    counters := p.counters.getD {}
    requestMetadata := p.requestMetadata.getD [] }

def read (input : String) : Except Fault Context :=
  (Json.Document.read input).decode (decode Json.maxDepth)

/-- The context of a value, if it has the form of one. Any depth will do. -/
def ofJson? (json : Json) : Option Context := (decode json.depth (Draft.ofJson json)).toOption

end Context

end Screening
