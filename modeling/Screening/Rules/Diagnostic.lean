import Screening.Condition.Basic
import Screening.Logic.ErrorText

/-!
# Problems of a rule payload

What can be wrong with a payload, and how it is told. A strict compilation fails with the first
problem; a lenient one keeps them all.
-/

namespace Screening

/-- A problem of a rule payload. -/
inductive Diagnostic where
  | notAnObject
  | rulesNotAnObject
  | ruleNotAnObject (rule : String)
  | missingName (rule : String)
  | missingConditions (rule : String)
  | noOperator (rule : String)
  | multipleOperators (rule : String) (operators : List String)
  | condition (rule : String) (source : ConditionError)
  | invalidThreshold (key : String)
  | invalidLogic (logic : String) (source : LogicError)
  | undefinedRule (reference : String)
deriving DecidableEq, Repr

namespace Diagnostic

/-- The rule that the problem concerns, if it concerns a single one. -/
def rule? : Diagnostic → Option String
  | .ruleNotAnObject rule | .missingName rule | .missingConditions rule | .noOperator rule
  | .multipleOperators rule _ | .condition rule _ => some rule
  | .notAnObject | .rulesNotAnObject | .invalidThreshold _ | .invalidLogic _ _ | .undefinedRule _ =>
    none

def named (rule : String) : String := "rule '" ++ rule ++ "'"

def message : Diagnostic → String
  | .notAnObject => "rule payload must be a JSON object"
  | .rulesNotAnObject => "'rules' must be an object keyed by rule id"
  | .ruleNotAnObject rule => named rule ++ " must be an object"
  | .missingName rule => named rule ++ " has no string 'name'"
  | .missingConditions rule => named rule ++ " has no 'conditions' object"
  | .noOperator rule => named rule ++ " has no operator in its conditions"
  | .multipleOperators rule operators =>
    named rule ++ " has more than one operator: " ++ String.intercalate ", " operators
  | .condition rule source => named rule ++ ": " ++ source.message
  | .invalidThreshold key =>
    "redemption threshold '" ++ key ++ "' must be a non-negative integer"
  | .invalidLogic logic source => "invalid logic '" ++ logic ++ "': " ++ source.message
  | .undefinedRule reference => "logic references undefined " ++ named reference

end Diagnostic

end Screening
