import Screening.Selection.Operator
import Screening.Text.Blank
import Screening.Text.Lowercase

/-!
# Junctions

How the verdicts on several fields are combined. Without any field everything passes.
-/

namespace Screening

/-- Whether all fields must pass or one of them is enough. -/
inductive Junction where
  | and
  | or
deriving DecidableEq, Repr, Inhabited

namespace Junction

def combine (junction : Junction) (verdicts : List Bool) : Bool :=
  verdicts.isEmpty || match junction with
    | .and => verdicts.all id
    | .or => verdicts.any id

/-- Reads a junction, in whatever case and with white space around it. -/
def parse (text : String) : Except QueryError Junction :=
  if Text.eqIgnoringCase (Text.trim text) "and" then .ok .and
  else if Text.eqIgnoringCase (Text.trim text) "or" then .ok .or
  else .error (.invalidJunction text)

@[simp] theorem combine_nil (junction : Junction) : junction.combine [] = true := rfl

end Junction

end Screening
