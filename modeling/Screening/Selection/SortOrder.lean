import Screening.Text.Blank

/-!
# Orders

A requested order: a field and a direction. In text a minus in front stands for the descending
direction, and a plus may stand for the ascending one.
-/

namespace Screening

/-- Smallest first or largest first. -/
inductive Direction where
  | ascending
  | descending
deriving DecidableEq, Repr, Inhabited

structure SortOrder where
  field : String
  direction : Direction
deriving DecidableEq, Repr

namespace Direction

/-- An ordering as seen in this direction. -/
def orient : Direction → Ordering → Ordering
  | .ascending, o => o
  | .descending, o => o.swap

end Direction

namespace SortOrder

/-- Splits off the sign, of which there is at most one. -/
def unsign : List Char → Direction × List Char
  | '-' :: rest => (.descending, rest)
  | '+' :: rest => (.ascending, rest)
  | cs => (.ascending, cs)

/-- Reads an order. Without a field there is none. -/
def parse? (text : String) : Option SortOrder :=
  let (direction, rest) := unsign (Text.trimChars text.toList)
  let field := Text.trimChars rest
  if field.isEmpty then none else some ⟨String.ofList field, direction⟩

def render (order : SortOrder) : String :=
  match order.direction with
  | .ascending => order.field
  | .descending => "-" ++ order.field

instance : ToString SortOrder := ⟨render⟩

end SortOrder

end Screening
