import Screening.Proofs.Rules.Verdict
import Screening.Rules.Payload

/-!
# Lines of an order

The lines of an order are a bag. A place in the lines holds what the lines have there, of which
either one is enough or all make up a list (`Field.resolveItems_eq`). In both cases the order of the
lines matters to no condition but one that compares the list as a whole. What is looked for among
the lines is still found when there are more of them, wherever they were put in.

These are facts about conditions and the entries of the lines
(`Condition.holdsIn_resolveItems_perm`, `Condition.holdsIn_resolveItems_mono`). Rules, and payloads
with them, inherit them (`RuleSet.evaluateDetailed_withLines`), as no other field looks at more than
the number of lines.
-/

namespace Screening

namespace Context

/-- The lines of the order. Without an order there are none. -/
def lines (context : Context) : List OrderLine := context.order.elim [] (·.items)

def withLines (context : Context) (lines : List OrderLine) : Context :=
  { context with order := context.order.map fun order ↦ { order with items := lines } }

theorem withLines_of_order_eq_none {context : Context} (h : context.order = none)
    (lines : List OrderLine) : context.withLines lines = context := by
  obtain ⟨voucher, customer, order, counters, metadata⟩ := context
  obtain rfl : order = none := h
  rfl

end Context

/-! ## Conditions on lines -/

namespace Condition

variable {condition : Condition} {vs vs' : List Value} {lines lines' : List OrderLine}
  {place : ItemPlace}

/-- The operators that compare a list as a whole. -/
def wholeSymbols : List String := ["$eq", "$ne", "$is", "$is_not"]

/-- The operators that look for something in a list. -/
def searchSymbols : List String := ["$contains", "$contains_any", "$contains_all"]

/-- Only comparing a list as a whole sees the order of its items. -/
theorem holdsOf_list_perm (h : vs.Perm vs') (hsymbol : condition.symbol ∉ wholeSymbols) :
    condition.holdsOf (.list vs) = condition.holdsOf (.list vs') := by
  cases condition with
  | eq | ne | isOneOf | isNoneOf => exact absurd (by simp [symbol, wholeSymbols]) hsymbol
  -- nothing of these holds of a list
  | gt | gte | lt | lte | isTrue | isFalse => rfl
  | contains operand => exact h.contains_eq
  | containsAny wanted => exact h.any_eq
  | containsAll wanted => simp only [holdsOf, Value.items?, Option.any_some, h.contains_eq]

theorem contains_mono (h : vs ⊆ vs') {v : Value} (hv : vs.contains v = true) :
    vs'.contains v = true := by
  rw [List.contains_iff_exists_mem_beq] at hv ⊢
  obtain ⟨item, hitem, hbeq⟩ := hv
  exact ⟨item, h hitem, hbeq⟩

theorem any_mono (h : vs ⊆ vs') {p : Value → Bool} (hp : vs.any p = true) : vs'.any p = true := by
  rw [List.any_eq_true] at hp ⊢
  obtain ⟨item, hitem, hholds⟩ := hp
  exact ⟨item, h hitem, hholds⟩

/-- What is found in a list is still found when items are added. -/
theorem holdsOf_list_mono (h : vs ⊆ vs') (hsymbol : condition.symbol ∈ searchSymbols)
    (hholds : condition.holdsOf (.list vs) = true) : condition.holdsOf (.list vs') = true := by
  cases condition with
  | contains operand => exact contains_mono h hholds
  | containsAny wanted => exact any_mono h hholds
  | containsAll wanted =>
    simp only [holdsOf, Value.items?, Option.any_some, List.all_eq_true] at hholds ⊢
    exact fun v hv ↦ contains_mono h (hholds v hv)
  | _ => exact absurd hsymbol (by simp [symbol, searchSymbols])

/-- The order of the lines matters only where a list is compared as a whole. -/
theorem holdsIn_resolveItems_perm (h : lines.Perm lines')
    (hsymbol : place ∈ ItemPlace.listed → condition.symbol ∉ wholeSymbols) :
    condition.holdsIn (Field.resolveItems lines place)
      = condition.holdsIn (Field.resolveItems lines' place) := by
  have hentries := h.filterMap place.entry?
  rw [Field.resolveItems_eq, Field.resolveItems_eq]
  split
  case isTrue hlisted => exact holdsOf_list_perm hentries (hsymbol hlisted)
  case isFalse => exact hentries.any_eq

/-- What is found among some lines is found among more. -/
theorem holdsIn_resolveItems_mono (h : lines ⊆ lines')
    (hsymbol : place ∈ ItemPlace.listed → condition.symbol ∈ searchSymbols)
    (hholds : condition.holdsIn (Field.resolveItems lines place) = true) :
    condition.holdsIn (Field.resolveItems lines' place) = true := by
  have hentries := List.filterMap_subset place.entry? h
  rw [Field.resolveItems_eq] at hholds ⊢
  split at hholds
  case isTrue hlisted =>
    rw [if_pos hlisted]
    exact holdsOf_list_mono hentries (hsymbol hlisted) hholds
  case isFalse hlisted =>
    rw [if_neg hlisted]
    exact any_mono hentries hholds

end Condition

/-! ## Contexts -/

section Contexts

variable {context : Context} {order : Order} {lines : List OrderLine} {field : Field}
  {place : ItemPlace} {condition : Condition}

theorem Field.resolve_orderItems (horder : context.order = some order) (place : ItemPlace) :
    (orderItems place).resolve context = resolveItems context.lines place := by
  rw [resolve, Context.lines, horder]
  rfl

theorem Field.resolve_orderItems_withLines (horder : context.order = some order)
    (lines : List OrderLine) (place : ItemPlace) :
    (orderItems place).resolve (context.withLines lines) = resolveItems lines place := by
  rw [resolve, Context.withLines, horder]
  rfl

/-- Every other field sees at most how many lines there are. -/
theorem Field.resolve_withLines (hfield : ∀ place, field ≠ .orderItems place)
    (hlength : lines.length = context.lines.length) :
    field.resolve (context.withLines lines) = field.resolve context := by
  cases horder : context.order with
  | none => rw [Context.withLines_of_order_eq_none horder]
  | some order =>
    rw [Context.lines, horder] at hlength
    cases field with
    | orderItems place => exact absurd rfl (hfield place)
    | order place =>
      rw [resolve, resolve, Context.withLines, horder]
      cases place with
      | itemsCount =>
        exact congrArg (fun n ↦ FieldValue.value (.number (.ofUInt64 (.ofNat n)))) hlength
      | amount | currency | metadata => rfl
    | customer | voucher | campaign | redemptions | unknown => rfl

namespace Condition

/-- A condition that does not compare whole lists holds before and after lines change places. -/
theorem holdsIn_withLines (h : context.lines.Perm lines)
    (hsymbol : ∀ place ∈ ItemPlace.listed, field = .orderItems place →
      condition.symbol ∉ wholeSymbols) :
    condition.holdsIn (field.resolve (context.withLines lines))
      = condition.holdsIn (field.resolve context) := by
  by_cases hfield : ∃ place, field = .orderItems place
  case neg => rw [Field.resolve_withLines (not_exists.1 hfield) h.length_eq.symm]
  case pos =>
    obtain ⟨place, rfl⟩ := hfield
    cases horder : context.order with
    | none => rw [Context.withLines_of_order_eq_none horder]
    | some order =>
      rw [Field.resolve_orderItems_withLines horder, Field.resolve_orderItems horder]
      exact (holdsIn_resolveItems_perm h fun hlisted ↦ hsymbol place hlisted rfl).symm

/-- A condition that looks for something among the lines still holds when lines are added. -/
theorem holdsIn_withLines_mono (h : context.lines ⊆ lines)
    (hsymbol : place ∈ ItemPlace.listed → condition.symbol ∈ searchSymbols)
    (hholds : condition.holdsIn (Field.resolve (.orderItems place) context) = true) :
    condition.holdsIn (Field.resolve (.orderItems place) (context.withLines lines)) = true := by
  cases horder : context.order with
  | none => rwa [Context.withLines_of_order_eq_none horder]
  | some order =>
    rw [Field.resolve_orderItems horder] at hholds
    rw [Field.resolve_orderItems_withLines horder]
    exact holdsIn_resolveItems_mono h hsymbol hholds

end Condition

end Contexts

/-! ## Rules -/

namespace Rule

variable {rule : Rule} {context : Context} {lines : List OrderLine} {allowed : AllowList}

/-- Whether the rule compares the codes or the products of the lines as a whole list. -/
def comparesList (rule : Rule) : Bool :=
  match rule.check with
  | .condition (.orderItems place) condition =>
    decide (place ∈ ItemPlace.listed ∧ condition.symbol ∈ Condition.wholeSymbols)
  | _ => false

/-- Whether the rule looks for something among the lines: any quantity or price, or something in the
list of codes or products. -/
def seeks (rule : Rule) : Bool :=
  match rule.check with
  | .condition (.orderItems place) condition =>
    decide (place ∈ ItemPlace.listed → condition.symbol ∈ Condition.searchSymbols)
  | _ => false

/-- A rule passes if it is let into the evaluation and the context meets it. -/
theorem outcome_eq_passed_iff :
    rule.outcome context allowed = .passed ↔
      rule.isSkipped allowed = false ∧ rule.isMet context = true := by
  obtain ⟨id, path, check⟩ := rule
  rw [outcome, isSkipped, isMet]
  cases path.any (!allowed.admits ·) with
  | true => simp
  | false =>
    cases check with
    | malformed problem => simp
    | condition field condition =>
      cases condition.holdsIn (field.resolve context) <;> simp

theorem outcome_withLines (h : context.lines.Perm lines) (hrule : rule.comparesList = false)
    (allowed : AllowList) :
    rule.outcome (context.withLines lines) allowed = rule.outcome context allowed := by
  obtain ⟨id, path, check⟩ := rule
  cases check with
  | malformed problem => rfl
  | condition field condition =>
    have hsymbol (place : ItemPlace) (hlisted : place ∈ ItemPlace.listed)
        (hfield : field = .orderItems place) : condition.symbol ∉ Condition.wholeSymbols := by
      subst hfield
      exact fun hsymbol ↦ of_decide_eq_false hrule ⟨hlisted, hsymbol⟩
    simp only [outcome, Condition.holdsIn_withLines h hsymbol]

theorem passed_withLines (h : context.lines ⊆ lines) (hrule : rule.seeks = true)
    (hpassed : rule.outcome context allowed = .passed) :
    rule.outcome (context.withLines lines) allowed = .passed := by
  rw [outcome_eq_passed_iff] at hpassed ⊢
  obtain ⟨hskipped, hmet⟩ := hpassed
  obtain ⟨id, path, check⟩ := rule
  refine ⟨hskipped, ?_⟩
  cases check with
  | malformed problem => cases hrule
  | condition field condition =>
    cases field with
    | orderItems place => exact Condition.holdsIn_withLines_mono h (of_decide_eq_true hrule) hmet
    | _ => cases hrule

end Rule

namespace RuleSet

/-- Shuffling the lines of an order changes no rule but those that compare the codes or products as
a whole list, and hence no report on rules without these. More lines fail no rule that looks for
something among them. -/
theorem evaluateDetailed_withLines (context : Context) (lines : List OrderLine) :
    (context.lines.Perm lines →
      (∀ rule : Rule, rule.comparesList = false → ∀ allowed,
        rule.outcome (context.withLines lines) allowed = rule.outcome context allowed) ∧
      ∀ payload : Json, (∀ rule ∈ (compile payload).rules, rule.comparesList = false) →
        ∀ allowed, (compile payload).evaluateDetailed (context.withLines lines) allowed
          = (compile payload).evaluateDetailed context allowed) ∧
    (context.lines.Sublist lines → ∀ rule : Rule, rule.seeks = true → ∀ allowed,
      rule.outcome context allowed = .passed →
        rule.outcome (context.withLines lines) allowed = .passed) := by
  refine ⟨fun hperm ↦ ⟨?_, ?_⟩, ?_⟩
  · exact fun rule hrule allowed ↦ Rule.outcome_withLines hperm hrule allowed
  · intro payload hrules allowed
    exact evaluateDetailed_congr fun rule hrule ↦
      Rule.outcome_withLines hperm (hrules rule hrule) allowed
  · exact fun hsub rule hrule allowed ↦ Rule.passed_withLines hsub.subset hrule

def pen : OrderLine := { sku := some "PEN", quantity := 1, price := some (.ofInt64 25) }

def ink : OrderLine := { sku := some "INK", quantity := 3 }

def penAndInk : Context where
  order := some { items := [pen, ink] }

def bothCodes : Rule :=
  .asking "codes" "order.items.sku" (.containsAll [.string "INK", .string "PEN"])

def writingRules : Json := .object [
  ("rules", .object [
    ("codes", .object [
      ("name", .string "order.items.sku"),
      ("conditions", .object [("$contains_all", .array [.string "INK", .string "PEN"])])]),
    ("cheap", .object [
      ("name", .string "order.items.price"),
      ("conditions", .object [("$lt", .number (.ofUInt64 20))])]),
    ("two", .object [
      ("name", .string "order.items.count"),
      ("conditions", .object [("$eq", .number (.ofUInt64 2))])])]),
  ("logic", .string "(codes or cheap) and two")]

/-- Ink may come before the pen, and there may be a line between them. -/
theorem outcomes_penAndInk :
    (compile writingRules).evaluateDetailed (penAndInk.withLines [ink, pen]) .everything
      = (compile writingRules).evaluateDetailed penAndInk .everything ∧
    bothCodes.outcome (penAndInk.withLines [pen, {}, ink]) .everything = .passed := by
  obtain ⟨hshuffled, -⟩ := evaluateDetailed_withLines penAndInk [ink, pen]
  obtain ⟨-, hmore⟩ := evaluateDetailed_withLines penAndInk [pen, {}, ink]
  constructor
  · exact (hshuffled (.swap ink pen [])).2 writingRules (by decide +kernel) .everything
  · exact hmore (.cons_cons pen (.cons {} (.refl [ink]))) bothCodes (by decide +kernel) .everything
      (by decide +kernel)

/-- A rule that compares the list as a whole tells the two orders apart. -/
example :
    (Rule.asking "codes" "order.items.sku" (.eq (.list [.string "PEN", .string "INK"]))).outcome
      penAndInk .everything = .passed ∧
    (Rule.asking "codes" "order.items.sku" (.eq (.list [.string "PEN", .string "INK"]))).outcome
      (penAndInk.withLines [ink, pen]) .everything = .failed := by decide +kernel

end RuleSet

end Screening
