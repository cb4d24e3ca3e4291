import Screening.Rules.AllowList
import Screening.Rules.Payload

/-!
# Evaluating rule sets

In a context every rule has an outcome. A rule whose path is not admitted by the allow-list is
skipped, which counts as holding; that goes for malformed rules, too. The outcomes are then combined
as the rule set says, where a rule that the logic names but that does not exist does not hold.

The report on an evaluation lists the outcomes in the order of the rules.
-/

namespace Screening

inductive Outcome where
  | passed
  | failed
  | skipped
  | malformed
deriving DecidableEq, Repr

namespace Outcome

/-- Whether the rule counts as holding. -/
def holds : Outcome → Bool
  | .passed | .skipped => true
  | .failed | .malformed => false

def render : Outcome → String
  | .passed => "passed"
  | .failed => "failed"
  | .skipped => "skipped"
  | .malformed => "malformed"

end Outcome

def Rule.outcome (rule : Rule) (context : Context) (allowed : AllowList) : Outcome :=
  if rule.path.any (!allowed.admits ·) then .skipped
  else match rule.check with
    | .malformed _ => .malformed
    | .condition field condition =>
      if condition.holdsIn (field.resolve context) then .passed else .failed

def Combination.verdict (combination : Combination) (outcomes : List (String × Outcome)) : Bool :=
  match combination with
  | .unsatisfiable => false
  | .allOf | .fallback => outcomes.all (·.2.holds)
  | .expression e => e.evaluate fun id => (outcomes.lookup id).any (·.holds)

structure Report where
  result : Bool
  outcomes : List (String × Outcome)
  /-- Whether the logic could not be used. -/
  logicFallback : Bool

namespace Report

def outcome? (report : Report) (id : String) : Option Outcome :=
  report.outcomes.lookup id

def render (report : Report) : String :=
  "result: " ++ (if report.result then "true" else "false") ++ ", rules: ["
    ++ String.intercalate ", " (report.outcomes.map fun entry => entry.1 ++ "=" ++ entry.2.render)
    ++ "]" ++ (if report.logicFallback then ", logic: fallback" else "")

end Report

namespace RuleSet

/-- The outcomes of all rules, with their identifiers. -/
def outcomes (set : RuleSet) (context : Context) (allowed : AllowList) : List (String × Outcome) :=
  set.rules.map fun rule => (rule.id, rule.outcome context allowed)

/-- Whether the context meets the rule set, as far as the allow-list goes. -/
def evaluateWith (set : RuleSet) (context : Context) (allowed : AllowList) : Bool :=
  set.combination.verdict (set.outcomes context allowed)

def evaluate (set : RuleSet) (context : Context) : Bool := set.evaluateWith context .everything

def evaluateDetailed (set : RuleSet) (context : Context) (allowed : AllowList) :
    Report where
  result := set.evaluateWith context allowed
  outcomes := set.outcomes context allowed
  logicFallback := match set.combination with
    | .fallback => true
    | _ => false

end RuleSet

end Screening
