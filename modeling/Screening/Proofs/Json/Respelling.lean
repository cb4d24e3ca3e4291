import Screening.Proofs.Value.Equivalence

/-!
# Numbers spelled differently

JSON in which numbers are written in another way, such as `10` as `10.0`, and nothing else is
changed (`Json.Respelled`). It has the same members under the same keys, in the same order, up to the
spelling of numbers in them, and as data it is equal (`Value.Equal.ofJson`).
-/

namespace Screening

namespace Json

mutual

/-- Two pieces of JSON are the same but for the spelling of numbers. -/
inductive Respelled : Json → Json → Prop
  | null : Respelled .null .null
  | bool (b : Bool) : Respelled (.bool b) (.bool b)
  /-- The numbers mean equal decimals, or are both out of the range of decimals. -/
  | number {n n' : Number} : EqualDecimals n.decimal? n'.decimal? →
    Respelled (.number n) (.number n')
  | string (s : String) : Respelled (.string s) (.string s)
  | array {items items' : List Json} : RespelledItems items items' →
    Respelled (.array items) (.array items')
  | object {written written' : List (String × Json)} : RespelledMembers written written' →
    Respelled (.object written) (.object written')

inductive RespelledItems : List Json → List Json → Prop
  | nil : RespelledItems [] []
  | cons {json json' : Json} {rest rest' : List Json} : Respelled json json' →
    RespelledItems rest rest' → RespelledItems (json :: rest) (json' :: rest')

inductive RespelledMembers : List (String × Json) → List (String × Json) → Prop
  | nil : RespelledMembers [] []
  | cons (key : String) {json json' : Json} {rest rest' : List (String × Json)} :
    Respelled json json' → RespelledMembers rest rest' →
    RespelledMembers ((key, json) :: rest) ((key, json') :: rest')

end

theorem RespelledMembers.related : ∀ {written written' : List (String × Json)},
    RespelledMembers written written' → Keyed.Related Respelled written written'
  | _, _, .nil => .nil
  | _, _, .cons key h hrest => .cons key h hrest.related

namespace Respelled

variable {json other : Json}

/-! ## Parts -/

/-- Respelled objects have the same keys, with respelled values. -/
theorem members? (h : Respelled json other) :
    Option.Rel (Keyed.Related Respelled) json.members? other.members? := by
  cases h with
  | object h => exact .some h.related.merge
  | null | bool | number | string | array => exact .none

theorem field? (h : Respelled json other) (key : String) :
    Option.Rel Respelled (json.field? key) (other.field? key) :=
  h.members?.bind fun h ↦ h.lookup key

/-- Strings have no second spelling. -/
theorem text?_eq (h : Respelled json other) : json.text? = other.text? := by
  cases h <;> rfl

end Respelled

end Json

/-! ## Data -/

namespace Value

theorem Equal.ofDecimal {d d' : Option Decimal} (h : EqualDecimals d d') :
    Equal (d.elim .null .number) (d'.elim .null .number) := by
  cases h with
  | none => exact .null
  | some h => exact .number h

mutual

/-- JSON in which numbers are spelled differently is equal as data. -/
theorem Equal.ofJson : ∀ {json json' : Json}, Json.Respelled json json' →
    Equal (Value.ofJson json) (Value.ofJson json')
  | _, _, .null => .null
  | _, _, .bool b => .bool b
  | _, _, .number h => Equal.ofDecimal h
  | _, _, .string s => .string s
  | _, _, .array h => .list (EqualItems.ofJsonItems h)
  | _, _, .object h => .map (.of_related (EqualEntries.ofJsonMembers h).related.ofList)

theorem EqualItems.ofJsonItems : ∀ {items items' : List Json}, Json.RespelledItems items items' →
    EqualItems (Value.ofJsonItems items) (Value.ofJsonItems items')
  | _, _, .nil => .nil
  | _, _, .cons h hrest => .cons (Equal.ofJson h) (EqualItems.ofJsonItems hrest)

theorem EqualEntries.ofJsonMembers : ∀ {members members' : List (String × Json)},
    Json.RespelledMembers members members' →
      EqualEntries (Value.ofJsonMembers members) (Value.ofJsonMembers members')
  | _, _, .nil => .nil
  | _, _, .cons key h hrest => .cons key (Equal.ofJson h) (EqualEntries.ofJsonMembers hrest)

end

end Value

end Screening
