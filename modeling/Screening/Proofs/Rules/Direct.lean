import Screening.Proofs.Rules.Entries

/-!
# Answering a payload without compiling it

The direct answer to a payload works on its JSON. For every entry it looks its path up in the
context, takes the operator by its symbol for each value that it finds, and combines the Booleans by
the logic, if that can be read. There are no conditions, fields, malformed rules or outcomes here.

Compilation and evaluation give the direct answer: what is decided once when a payload is compiled
is what would be decided on every evaluation.
-/

namespace Screening

/-! ## The direct answer -/

namespace Direct

def meets (context : Context) (path symbol : String) (operand : Json) : Bool :=
  match Field.resolvePath path context with
  | .absent => false
  | .value v => Condition.applyOperator (some v) symbol (.ofJson operand)
  | .anyOf candidates =>
    candidates.any fun v ↦ Condition.applyOperator (some v) symbol (.ofJson operand)

/-- Whether an entry holds. An entry with a name that is not admitted does, whatever else is wrong
with it; an entry without a name, or without exactly one operator, does not. -/
def holds (context : Context) (allowed : AllowList) (entry : Json) : Bool :=
  match Entry.name? entry with
  | none => false
  | some path =>
    if allowed.admits path then
      match Entry.operators? entry with
      | some [(symbol, operand)] => meets context path symbol operand
      | _ => false
    else true

/-- The answer to a payload with the given entries under `rules` and the given value under `logic`.
-/
def answer (entries : List (String × Json)) (logic : Option Json) (context : Context)
    (allowed : AllowList) : Bool :=
  match logic with
  | some (.string text) =>
    if Text.blank text then entries.all fun entry ↦ holds context allowed entry.2
    else match Logic.parse text with
      | .ok e => e.evaluate fun id ↦ (entries.lookup id).any (holds context allowed)
      | .error _ => entries.all fun entry ↦ holds context allowed entry.2
  | _ => entries.all fun entry ↦ holds context allowed entry.2

end Direct

/-! ## Entries -/

/-- Taking the operator anew for every value is taking its condition once. -/
theorem Direct.meets_eq (context : Context) (path symbol : String) (operand : Json) :
    Direct.meets context path symbol operand =
      match Condition.parse symbol (.ofJson operand) with
      | .ok condition => condition.holdsIn ((Field.ofPath path).resolve context)
      | .error _ => false := by
  rw [Direct.meets, Field.resolvePath]
  cases hparse : Condition.parse symbol (.ofJson operand) <;>
    cases (Field.ofPath path).resolve context <;>
    simp [Condition.applyOperator, Condition.holdsIn, hparse]

namespace RuleSet

variable {payload : Json} {entries : List (String × Json)} {context : Context}
  {allowed : AllowList} {id : String} {entry : Json}

/-- The rule of an entry with a name is met when its only operator holds of the path. -/
theorem isMet_ruleOf {path : String} (hname : Entry.name? entry = some path) :
    (ruleOf id entry).isMet context =
      match Entry.operators? entry with
      | some [(symbol, operand)] => Direct.meets context path symbol operand
      | _ => false := by
  rw [ruleOf_of_name?_eq_some hname, conditionOf_eq]
  rcases Entry.operators? entry with _ | _ | ⟨⟨symbol, operand⟩, _ | ⟨next, rest⟩⟩
  · rfl
  · rfl
  · dsimp only
    rw [Direct.meets_eq]
    cases Condition.parse symbol (.ofJson operand) <;> rfl
  · rfl

/-- An entry holds directly when its rule holds. -/
theorem holds_outcome_ruleOf :
    ((ruleOf id entry).outcome context allowed).holds = Direct.holds context allowed entry := by
  rw [Rule.holds_outcome, Rule.isSkipped, path_ruleOf, Direct.holds]
  cases hname : Entry.name? entry with
  | none =>
    obtain ⟨problem, h⟩ := ruleOf_of_name?_eq_none id hname
    rw [h]
    rfl
  | some path =>
    rw [isMet_ruleOf hname]
    cases hadmits : allowed.admits path <;> simp [hadmits]

/-! ## Payloads -/

/-- What an identifier finds among the outcomes is what it finds among the entries. -/
theorem lookup_outcomes_compile
    (h : (payload.field? "rules").bind Json.members? = some entries) (id : String) :
    (((compile payload).outcomes context allowed).lookup id).any (·.holds)
      = (entries.lookup id).any (Direct.holds context allowed) := by
  rw [outcomes_compile h, Keyed.lookup_map, Keyed.lookup_eq_find?]
  cases entries.find? (id == ·.1) with
  | none => rfl
  | some entry => exact holds_outcome_ruleOf

theorem all_outcomes_compile
    (h : (payload.field? "rules").bind Json.members? = some entries) (context : Context)
    (allowed : AllowList) :
    ((compile payload).outcomes context allowed).all (·.2.holds)
      = entries.all fun entry ↦ Direct.holds context allowed entry.2 := by
  simp [outcomes_compile h, holds_outcome_ruleOf, Function.comp_def]

/-- Compiling a payload in the general form and evaluating it gives the direct answer. -/
theorem evaluateWith_eq_answer (payload : Json) (entries : List (String × Json))
    (h : (payload.field? "rules").bind Json.members? = some entries) (context : Context)
    (allowed : AllowList) :
    (compile payload).evaluateWith context allowed
      = Direct.answer entries (payload.field? "logic") context allowed := by
  have hall := all_outcomes_compile h context allowed
  have hcombination : (compile payload).combination
      = (combinationOf (entries.map (·.1)) (payload.field? "logic")).1 := by
    rw [compile_of_rules h]
  rw [evaluateWith, hcombination]
  rcases payload.field? "logic" with _ | _ | b | n | text | items | members
  case some.string =>
    cases hblank : Text.blank text with
    | true =>
      rw [combinationOf_blank hblank, Direct.answer, if_pos hblank]
      exact hall
    | false =>
      rw [Direct.answer, if_neg (by simp [hblank])]
      cases hparse : Logic.parse text with
      | error problem =>
        rw [combinationOf_of_parse_eq_error hblank hparse]
        exact hall
      | ok e =>
        rw [combinationOf_of_parse_eq_ok hblank hparse]
        exact congrArg (Logic.evaluate · e) (funext (lookup_outcomes_compile h))
  all_goals exact hall

def mixed : List (String × Json) := [
  ("mail", .object [("name", .string "customer.email"), ("conditions", .bool true)]),
  ("lines", .object [
    ("name", .string "order.items.quantity"),
    ("conditions", .object [("$gte", .number (.integer 2 (by decide) (by decide)))])]),
  ("broken", .null)]

/-- A payload of mixed entries, of which the first and one of the others must hold. -/
def mixedPayload : Json :=
  .object [("rules", .object mixed), ("logic", .string "mail AND(broken or lines)")]

def twoLines : Context where
  order := some { items := [{ quantity := 1 }, { quantity := 2 }] }

/-- If only the order is admitted, the broken entry on the customer is skipped. -/
theorem evaluateWith_mixedPayload :
    (mixedPayload.field? "rules").bind Json.members? = some mixed ∧
      (compile mixedPayload).evaluateWith twoLines (.ofList ["order."]) = true := by
  refine ⟨rfl, ?_⟩
  rw [evaluateWith_eq_answer mixedPayload mixed rfl]
  decide +kernel

end RuleSet

end Screening
