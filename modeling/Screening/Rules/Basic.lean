import Screening.Rules.Diagnostic

/-!
# Rule sets

A rule set is what a payload compiles to: its rules in the order of the payload, how their verdicts
are combined, and the problems that were found. A rule that could not be compiled stays in the set
as malformed, with its path if that was readable.
-/

namespace Screening

inductive Check where
  | condition (field : Field) (condition : Condition)
  /-- The rule could not be compiled; it never holds. -/
  | malformed (problem : Diagnostic)

structure Rule where
  id : String
  /-- The path as the payload has it, if it has one. -/
  path : Option String
  check : Check

/-- How the verdicts of the rules are combined. -/
inductive Combination where
  /-- All rules must hold, because there is no logic. -/
  | allOf
  /-- All rules must hold, because the logic could not be used. -/
  | fallback
  | expression (e : Logic)
  /-- Nothing can hold, because the payload could not be used. -/
  | unsatisfiable

structure RuleSet where
  rules : List Rule
  combination : Combination
  diagnostics : List Diagnostic

namespace Rule

def asking (id path : String) (condition : Condition) : Rule :=
  ⟨id, some path, .condition (.ofPath path) condition⟩

def malformed (id : String) (path : Option String) (problem : Diagnostic) : Rule :=
  ⟨id, path, .malformed problem⟩

def problem? (rule : Rule) : Option Diagnostic :=
  match rule.check with
  | .condition .. => none
  | .malformed problem => some problem

def isMalformed (rule : Rule) : Bool := rule.problem?.isSome

def field? (rule : Rule) : Option Field :=
  match rule.check with
  | .condition field _ => some field
  | .malformed _ => none

def condition? (rule : Rule) : Option Condition :=
  match rule.check with
  | .condition _ condition => some condition
  | .malformed _ => none

@[simp] theorem problem?_malformed (id : String) (path : Option String) (problem : Diagnostic) :
    (malformed id path problem).problem? = some problem := rfl

end Rule

namespace RuleSet

/-- The logic of the set, if the payload had a usable one. -/
def logic? (set : RuleSet) : Option Logic :=
  match set.combination with
  | .expression e => some e
  | _ => none

def render (set : RuleSet) : String :=
  let malformed := set.rules.countP (·.isMalformed)
  "ValidationRules(" ++ toString set.rules.length ++ " rules"
    ++ (if malformed = 0 then "" else ", " ++ toString malformed ++ " malformed")
    ++ (match set.combination with
      | .expression e => ", logic " ++ e.render
      | .allOf | .fallback => ", all of"
      | .unsatisfiable => ", unsatisfiable")
    ++ ")"

instance : ToString RuleSet := ⟨render⟩

end RuleSet

end Screening
