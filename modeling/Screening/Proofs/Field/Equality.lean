import Screening.Proofs.Condition.Equality

/-!
# Fields of equal contexts

Contexts are the same but for the spelling of numbers (`Context.Equal`) if they have the same parts,
with equal metadata and equal amounts of money. Every field holds the same in them, up to the
spelling of numbers (`Field.resolve_equal`).
-/

namespace Screening

/-! ## Contexts -/

structure Campaign.Equal (campaign other : Campaign) : Prop where
  id : campaign.id = other.id
  metadata : Value.EqualEntries campaign.metadata other.metadata

structure Voucher.Equal (voucher other : Voucher) : Prop where
  code : voucher.code = other.code
  metadata : Value.EqualEntries voucher.metadata other.metadata
  campaign : Option.Rel Campaign.Equal voucher.campaign other.campaign

structure Customer.Equal (customer other : Customer) : Prop where
  sourceId : customer.sourceId = other.sourceId
  email : customer.email = other.email
  metadata : Value.EqualEntries customer.metadata other.metadata

structure OrderLine.Equal (line other : OrderLine) : Prop where
  sku : line.sku = other.sku
  product : line.product = other.product
  quantity : line.quantity = other.quantity
  price : EqualDecimals line.price other.price

structure Order.Equal (order other : Order) : Prop where
  amount : (order.amount == other.amount) = true
  currency : order.currency = other.currency
  items : List.Forall₂ OrderLine.Equal order.items other.items
  metadata : Value.EqualEntries order.metadata other.metadata

/-- Contexts that are the same but for the spelling of numbers. -/
structure Context.Equal (context other : Context) : Prop where
  voucher : context.voucher.Equal other.voucher
  customer : Option.Rel Customer.Equal context.customer other.customer
  order : Option.Rel Order.Equal context.order other.order
  counters : context.counters = other.counters
  requestMetadata : Value.EqualEntries context.requestMetadata other.requestMetadata

/-! ## What fields hold -/

namespace FieldValue

theorem Equal.refl (held : FieldValue) : Equal held held := by
  cases held with
  | absent => exact .absent
  | value v => exact .value (.refl v)
  | anyOf candidates => exact .anyOf (.refl candidates)

theorem Equal.ofOption {v v' : Option Value} (h : Option.Rel Value.Equal v v') :
    Equal (.ofOption v) (.ofOption v') := by
  cases h with
  | none => exact .absent
  | some h => exact .value h

/-- Metadata hold the same under a path, whatever the spelling of their numbers. -/
theorem Equal.ofMetadata {metadata other : Metadata} (h : Value.EqualEntries metadata other)
    (path : String) : Equal (.ofMetadata metadata path) (.ofMetadata other path) :=
  .ofOption ((h.lookup_path path).filter fun _ _ hv ↦ congrArg not hv.isNull_eq)

end FieldValue

namespace Field

theorem resolveEntity_equal (key : String) {metadata other : Metadata}
    (h : Value.EqualEntries metadata other) (place : EntityPlace) :
    (resolveEntity key metadata place).Equal (resolveEntity key other place) := by
  cases place with
  | key => exact .refl _
  | metadata path => exact .ofMetadata h path

theorem resolveCustomer_equal {customer other : Customer} (h : customer.Equal other)
    (place : CustomerPlace) :
    (resolveCustomer customer place).Equal (resolveCustomer other place) := by
  cases place with
  | id =>
    rw [resolveCustomer, resolveCustomer, h.sourceId]
    exact .refl _
  | email =>
    rw [resolveCustomer, resolveCustomer, h.email]
    exact .refl _
  | metadata key => exact .ofMetadata h.metadata key

theorem resolveOrder_equal {order other : Order} (h : order.Equal other) (place : OrderPlace) :
    (resolveOrder order place).Equal (resolveOrder other place) := by
  cases place with
  | amount => exact .value (.number h.amount)
  | currency =>
    rw [resolveOrder, resolveOrder, h.currency]
    exact .refl _
  | itemsCount =>
    rw [resolveOrder, resolveOrder, h.items.length_eq]
    exact .refl _
  | metadata key => exact .ofMetadata h.metadata key

/-- A line has an entry at a place in both spellings, or in neither. -/
theorem entry?_equal {line other : OrderLine} (h : line.Equal other) (place : ItemPlace) :
    Option.Rel Value.Equal (place.entry? line) (place.entry? other) := by
  cases place with
  | sku =>
    rw [ItemPlace.entry?, ItemPlace.entry?, h.sku]
    exact .refl .refl _
  | product =>
    rw [ItemPlace.entry?, ItemPlace.entry?, h.product]
    exact .refl .refl _
  | quantity =>
    rw [ItemPlace.entry?, ItemPlace.entry?, h.quantity]
    exact .refl .refl _
  | price => exact h.price.map .number

/-- Equal lines have equal entries at a place. -/
theorem filterMap_entry?_equal {items others : List OrderLine}
    (h : List.Forall₂ OrderLine.Equal items others) (place : ItemPlace) :
    Value.EqualItems (items.filterMap place.entry?) (others.filterMap place.entry?) := by
  induction h with
  | nil => exact .nil
  | @cons line other rest rest' hline hrest ih =>
    have hfirst := entry?_equal hline place
    rw [List.filterMap_cons, List.filterMap_cons]
    generalize place.entry? line = first at hfirst ⊢
    generalize place.entry? other = first' at hfirst ⊢
    cases hfirst with
    | none => exact ih
    | some hv => exact .cons hv ih

/-- What is gathered from the lines is the same, item for item. -/
theorem resolveItems_equal {items others : List OrderLine}
    (h : List.Forall₂ OrderLine.Equal items others) (place : ItemPlace) :
    (resolveItems items place).Equal (resolveItems others place) := by
  have hentries := filterMap_entry?_equal h place
  rw [resolveItems_eq, resolveItems_eq]
  split
  case isTrue => exact .value (.list hentries)
  case isFalse => exact .anyOf hentries

theorem resolveRedemptions_equal {context other : Context} (h : context.Equal other)
    (place : RedemptionPlace) :
    (resolveRedemptions context place).Equal (resolveRedemptions other place) := by
  cases place with
  | total | perCustomer =>
    rw [resolveRedemptions, resolveRedemptions, h.counters]
    exact .refl _
  | metadata key => exact .ofMetadata h.requestMetadata key

/-- A part that may be missing, and then holds nothing. -/
theorem elim_equal {α : Type} {r : α → α → Prop} {resolve : α → FieldValue} {part other : Option α}
    (h : Option.Rel r part other)
    (hresolve : ∀ {part other}, r part other → (resolve part).Equal (resolve other)) :
    (part.elim .absent resolve).Equal (other.elim .absent resolve) := by
  cases h with
  | none => exact .absent
  | some h => exact hresolve h

/-- A field holds the same in equal contexts, up to the spelling of numbers. -/
theorem resolve_equal (field : Field) {context other : Context} (h : context.Equal other) :
    (field.resolve context).Equal (field.resolve other) := by
  cases field with
  | customer place => exact elim_equal h.customer fun h ↦ resolveCustomer_equal h place
  | order place => exact elim_equal h.order fun h ↦ resolveOrder_equal h place
  | orderItems place => exact elim_equal h.order fun h ↦ resolveItems_equal h.items place
  | voucher place =>
    rw [resolve, resolve, h.voucher.code]
    exact resolveEntity_equal _ h.voucher.metadata place
  | campaign place =>
    refine elim_equal h.voucher.campaign fun {campaign other} h ↦ ?_
    rw [h.id]
    exact resolveEntity_equal _ h.metadata place
  | redemptions place => exact resolveRedemptions_equal h place
  | unknown => exact .absent

end Field

end Screening
