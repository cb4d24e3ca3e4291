import Screening.Json.Printer
import Screening.Json.Reader
import Screening.Rules.Basic

/-!
# Compiling rule payloads

The general form of a payload is an object with `rules`: an object with an entry for each rule, by
its identifier. An entry has a `name`, the path of a field, and `conditions`, an object with exactly
one operator and its operand. A text under `logic` combines the rules; without one, all must hold.

The older form has `redemptions` in place of `rules`, with thresholds for the redemptions in all
(`quantity`) and by the customer (`per_customer`), which the counters must stay below.

Compilation never fails. Every problem is kept, rule by rule in the order of the payload and then
those of the logic; strict compilation gives back the first of them.
-/

namespace Screening.RuleSet

/-! ## Rules -/

def conditionOf (id : String) (entry : Json) : Except Diagnostic Condition :=
  match (entry.field? "conditions").bind Json.members? with
  | none => .error (.missingConditions id)
  | some [] => .error (.noOperator id)
  | some [(symbol, operand)] =>
    (Condition.parse symbol (.ofJson operand)).mapError (.condition id)
  | some operators => .error (.multipleOperators id (operators.map (·.1)))

def ruleOf (id : String) (entry : Json) : Rule :=
  match entry.members? with
  | none => .malformed id none (.ruleNotAnObject id)
  | some _ =>
    match (entry.field? "name").bind Json.text? with
    | none => .malformed id none (.missingName id)
    | some path =>
      match conditionOf id entry with
      | .ok condition => .asking id path condition
      | .error problem => .malformed id (some path) problem

/-! ## Logic -/

/-- The rules that an expression names but that do not exist, each once. -/
def undefinedIn (ids : List String) (e : Logic) : List String :=
  (e.ruleIds.filter fun id => !ids.contains id).eraseDups

def combinationOf (ids : List String) (logic : Option Json) : Combination × List Diagnostic :=
  match logic with
  | none | some .null => (.allOf, [])
  | some (.string text) =>
    if Text.blank text then (.allOf, [])
    else match Logic.parse text with
      | .ok e => (.expression e, (undefinedIn ids e).map .undefinedRule)
      | .error problem => (.fallback, [.invalidLogic text problem])
  | some other => (.fallback, [.invalidLogic other.render .notText])

/-! ## Payloads -/

def unusable (problem : Diagnostic) : RuleSet := ⟨[], .unsatisfiable, [problem]⟩

/-- Compiles the general form, given what it has under `rules` and `logic`. -/
def compileGeneral (entries : Json) (logic : Option Json) : RuleSet :=
  match entries.members? with
  | none => unusable .rulesNotAnObject
  | some entries =>
    let rules := entries.map fun entry => ruleOf entry.1 entry.2
    let (combination, problems) := combinationOf (rules.map (·.id)) logic
    ⟨rules, combination, rules.filterMap (·.problem?) ++ problems⟩

/-- A threshold is a whole number that is not negative, with or without zeros after a point. -/
def threshold? (json : Json) : Option Decimal :=
  (Value.ofJson json).decimal?.filter fun d => !d.negative && d.isWhole

def thresholdRule? (thresholds : List (String × Json)) (key path : String) : Option Rule :=
  match thresholds.lookup key with
  | none | some .null => none
  | some json =>
    match threshold? json with
    | some limit => some (.asking key path (.lt limit))
    | none => some (.malformed key (some path) (.invalidThreshold key))

/-- Compiles the older form, given what it has under `redemptions`. -/
def compileThresholds (thresholds : Json) : RuleSet :=
  match thresholds.members? with
  | none => unusable .notAnObject
  | some thresholds =>
    let rules :=
      (thresholdRule? thresholds "quantity" "redemptions.count.total").toList
        ++ (thresholdRule? thresholds "per_customer" "redemptions.count.per_customer").toList
    ⟨rules, .allOf, rules.filterMap (·.problem?)⟩

/-- Compiles a payload, whatever is wrong with it. -/
def compile (payload : Json) : RuleSet :=
  match payload.members? with
  | none => unusable .notAnObject
  | some members =>
    match members.lookup "rules" with
    | some entries => compileGeneral entries (members.lookup "logic")
    | none =>
      match members.lookup "redemptions" with
      | some thresholds => compileThresholds thresholds
      | none => ⟨[], .allOf, []⟩

/-- Compiles a payload that has no problem. -/
def compileStrict (payload : Json) : Except Diagnostic RuleSet :=
  let set := compile payload
  match set.diagnostics with
  | [] => .ok set
  | problem :: _ => .error problem

inductive ReadError where
  | json (fault : Json.Fault)
  | payload (problem : Diagnostic)

/-- Compiles the payload that a text holds, if neither has a problem. -/
def read (text : String) : Except ReadError RuleSet := do
  let payload ← (Json.read text).mapError .json
  (compileStrict payload).mapError .payload

end Screening.RuleSet
