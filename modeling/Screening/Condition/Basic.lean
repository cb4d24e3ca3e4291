import Screening.Field.Resolve
import Screening.Text.Search

/-!
# Conditions

A condition is an operator with its operand, such as "at least 1000". It is made of a symbol and a
raw value (`Condition.parse`), which fails for unknown symbols and for operands of the wrong shape,
and then holds of a value or not. Nothing holds of null or of what is missing, and a comparison with
a value of another kind just does not hold.
-/

namespace Screening

/-- What a rule asks of a value. -/
inductive Condition where
  | eq (operand : Value)
  | ne (operand : Value)
  | gt (bound : Decimal)
  | gte (bound : Decimal)
  | lt (bound : Decimal)
  | lte (bound : Decimal)
  | isOneOf (options : List Value)
  | isNoneOf (options : List Value)
  | contains (operand : Value)
  | containsAny (wanted : List Value)
  | containsAll (wanted : List Value)
  | isTrue
  | isFalse

inductive OperandShape where
  | numeric
  | list
  | nonNull
deriving DecidableEq, Repr

/-- Why a symbol and an operand make no condition. -/
inductive ConditionError where
  | unknownOperator (symbol : String)
  | invalidOperand (symbol : String) (expected : OperandShape)
deriving DecidableEq, Repr

namespace OperandShape

def describe : OperandShape → String
  | .numeric => "a numeric"
  | .list => "a list"
  | .nonNull => "a non-null"

end OperandShape

namespace ConditionError

def message : ConditionError → String
  | .unknownOperator symbol => "unknown operator '" ++ symbol ++ "'"
  | .invalidOperand symbol expected =>
    "operator '" ++ symbol ++ "' expects " ++ expected.describe ++ " operand"

end ConditionError

namespace Condition

/-! ## Making conditions -/

/-- An operand that must be a number. -/
def numeric (symbol : String) (make : Decimal → Condition) (operand : Value) :
    Except ConditionError Condition :=
  match operand.decimal? with
  | some d => .ok (make d)
  | none => .error (.invalidOperand symbol .numeric)

def listing (symbol : String) (make : List Value → Condition) (operand : Value) :
    Except ConditionError Condition :=
  match operand.items? with
  | some items => .ok (make items)
  | none => .error (.invalidOperand symbol .list)

def parse (symbol : String) (operand : Value) : Except ConditionError Condition :=
  match symbol with
  | "$eq" => .ok (.eq operand)
  | "$ne" => .ok (.ne operand)
  | "$gt" => numeric "$gt" .gt operand
  | "$gte" => numeric "$gte" .gte operand
  | "$lt" => numeric "$lt" .lt operand
  | "$lte" => numeric "$lte" .lte operand
  | "$is" => listing "$is" .isOneOf operand
  | "$is_not" => listing "$is_not" .isNoneOf operand
  | "$contains" =>
    if operand.isNull then .error (.invalidOperand "$contains" .nonNull)
    else .ok (.contains operand)
  | "$contains_any" => listing "$contains_any" .containsAny operand
  | "$contains_all" => listing "$contains_all" .containsAll operand
  | "$true" => .ok .isTrue
  | "$false" => .ok .isFalse
  | other => .error (.unknownOperator other)

/-! ## Holding -/

/-- How a value compares with a number, if it is one. -/
def compared (v : Value) (bound : Decimal) : Option Ordering :=
  v.decimal?.map fun d => compare d bound

/-- Whether a value has the operand in it: a string as a part, a list as an item. -/
def within (operand : Value) : Value → Bool
  | .list items => items.contains operand
  | .string whole =>
    match operand with
    | .string part => Text.contains whole part
    | _ => false
  | _ => false

/-- Whether the condition holds of a value that is not null. -/
def holdsOf (condition : Condition) (v : Value) : Bool :=
  match condition with
  | .eq operand => v == operand
  | .ne operand => v != operand
  | .gt bound => compared v bound == some .gt
  | .gte bound => (compared v bound).any (·.isGE)
  | .lt bound => compared v bound == some .lt
  | .lte bound => (compared v bound).any (·.isLE)
  | .isOneOf options => options.contains v
  | .isNoneOf options => !options.contains v
  | .contains operand => within operand v
  | .containsAny wanted => v.items?.any fun items => items.any (wanted.contains ·)
  | .containsAll wanted => v.items?.any fun items => wanted.all (items.contains ·)
  | .isTrue => v == .bool true
  | .isFalse => v == .bool false

def apply (condition : Condition) (v : Option Value) : Bool :=
  (v.filter (!·.isNull)).any condition.holdsOf

/-- Whether the condition holds of what a field holds; of candidates one is enough. -/
def holdsIn (condition : Condition) : FieldValue → Bool
  | .absent => false
  | .value v => condition.apply (some v)
  | .anyOf candidates => candidates.any fun v => condition.apply (some v)

/-- Whether an operator, given by its symbol, holds of a value and an operand. What makes no
condition does not hold. -/
def applyOperator (v : Option Value) (symbol : String) (operand : Value) : Bool :=
  match parse symbol operand with
  | .ok condition => condition.apply v
  | .error _ => false

/-! ## Text -/

def symbol : Condition → String
  | .eq _ => "$eq"
  | .ne _ => "$ne"
  | .gt _ => "$gt"
  | .gte _ => "$gte"
  | .lt _ => "$lt"
  | .lte _ => "$lte"
  | .isOneOf _ => "$is"
  | .isNoneOf _ => "$is_not"
  | .contains _ => "$contains"
  | .containsAny _ => "$contains_any"
  | .containsAll _ => "$contains_all"
  | .isTrue => "$true"
  | .isFalse => "$false"

def operand? : Condition → Option Value
  | .eq v | .ne v | .contains v => some v
  | .gt d | .gte d | .lt d | .lte d => some (.number d)
  | .isOneOf items | .isNoneOf items | .containsAny items | .containsAll items => some (.list items)
  | .isTrue | .isFalse => none

def render (condition : Condition) : String :=
  match condition.operand? with
  | some operand => condition.symbol ++ " " ++ operand.render
  | none => condition.symbol

instance : ToString Condition := ⟨render⟩

end Condition

end Screening
