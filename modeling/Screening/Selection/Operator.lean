/-!
# Operators

The conditions that a query can put on a field, each known by a symbol. The two presence flags take
no value.
-/

namespace Screening

inductive QueryError where
  | malformedKey (key : String)
  | unknownOperator (symbol : String)
  | invalidJunction (text : String)
deriving DecidableEq, Repr

namespace QueryError

def message : QueryError → String
  | .malformedKey key => "malformed filter key `" ++ key ++ "`"
  | .unknownOperator symbol => "unknown filter operator `" ++ symbol ++ "`"
  | .invalidJunction text => "invalid junction `" ++ text ++ "`, expected `and` or `or`"

end QueryError

inductive Operator where
  | is
  | isIn
  | isNot
  | notIn
  | contains
  | startsWith
  | endsWith
  | moreThan
  | lessThan
  | moreThanEqual
  | lessThanEqual
  | hasValue
  | isUnknown
deriving DecidableEq, Repr

namespace Operator

def symbol : Operator → String
  | .is => "$is"
  | .isIn => "$in"
  | .isNot => "$is_not"
  | .notIn => "$not_in"
  | .contains => "$contains"
  | .startsWith => "$starts_with"
  | .endsWith => "$ends_with"
  | .moreThan => "$more_than"
  | .lessThan => "$less_than"
  | .moreThanEqual => "$more_than_equal"
  | .lessThanEqual => "$less_than_equal"
  | .hasValue => "$has_value"
  | .isUnknown => "$is_unknown"

instance : ToString Operator := ⟨symbol⟩

def all : List Operator :=
  [.is, .isIn, .isNot, .notIn, .contains, .startsWith, .endsWith, .moreThan, .lessThan,
   .moreThanEqual, .lessThanEqual, .hasValue, .isUnknown]

def ofSymbol (symbol : String) : Except QueryError Operator :=
  match all.find? (·.symbol == symbol) with
  | some operator => .ok operator
  | none => .error (.unknownOperator symbol)

/-- Whether the operator takes no value. -/
def isFlag : Operator → Bool
  | .hasValue | .isUnknown => true
  | _ => false

/-- Every operator can be named by its symbol. -/
theorem ofSymbol_symbol (operator : Operator) : ofSymbol operator.symbol = .ok operator := by
  cases operator <;> rfl

end Operator

end Screening
