import Screening.Selection.Operator
import Screening.Selection.Subject
import Screening.Keyed
import Screening.Text.Lowercase
import Screening.Text.Search

/-!
# Criteria of one field

Criteria gather the conditions on one field. Exact values are two sets, one to include and one to
exclude; patterns and bounds are kept in the order in which they came. The conditions that include,
exact or not, are alternatives: a text passes if it meets one of them, or if there are none.
Patterns and bounds look at the lowercase forms of both sides.

Criteria with nothing in them leave the field unfiltered.
-/

namespace Screening

structure Criteria where
  included : List String := []
  excluded : List String := []
  contains : List String := []
  startsWith : List String := []
  endsWith : List String := []
  moreThan : List String := []
  lessThan : List String := []
  moreThanEqual : List String := []
  lessThanEqual : List String := []
  hasValue : Bool := false
  isUnknown : Bool := false
deriving DecidableEq, Inhabited

namespace Criteria

/-- Adds a condition. Flags take no notice of the value. -/
def add (criteria : Criteria) (operator : Operator) (value : String) : Criteria :=
  match operator with
  | .is | .isIn => { criteria with included := Keyed.insertKey value criteria.included }
  | .isNot | .notIn => { criteria with excluded := Keyed.insertKey value criteria.excluded }
  | .contains => { criteria with contains := criteria.contains ++ [value] }
  | .startsWith => { criteria with startsWith := criteria.startsWith ++ [value] }
  | .endsWith => { criteria with endsWith := criteria.endsWith ++ [value] }
  | .moreThan => { criteria with moreThan := criteria.moreThan ++ [value] }
  | .lessThan => { criteria with lessThan := criteria.lessThan ++ [value] }
  | .moreThanEqual => { criteria with moreThanEqual := criteria.moreThanEqual ++ [value] }
  | .lessThanEqual => { criteria with lessThanEqual := criteria.lessThanEqual ++ [value] }
  | .hasValue => { criteria with hasValue := true }
  | .isUnknown => { criteria with isUnknown := true }

def hasInclude (criteria : Criteria) : Bool :=
  !(criteria.included.isEmpty && criteria.contains.isEmpty && criteria.startsWith.isEmpty
    && criteria.endsWith.isEmpty && criteria.moreThan.isEmpty && criteria.lessThan.isEmpty
    && criteria.moreThanEqual.isEmpty && criteria.lessThanEqual.isEmpty)

def isEmpty (criteria : Criteria) : Bool :=
  !criteria.hasValue && !criteria.isUnknown && criteria.excluded.isEmpty && !criteria.hasInclude

/-- Whether a text meets a condition that includes. -/
def includes (criteria : Criteria) (text : String) : Bool :=
  criteria.included.contains text ||
    let text := Text.lowercase text
    criteria.contains.any (fun p => Text.contains text (Text.lowercase p))
      || criteria.startsWith.any (fun p => Text.startsWith text (Text.lowercase p))
      || criteria.endsWith.any (fun p => Text.endsWith text (Text.lowercase p))
      || criteria.moreThan.any (fun p => decide (Text.lowercase p < text))
      || criteria.lessThan.any (fun p => decide (text < Text.lowercase p))
      || criteria.moreThanEqual.any (fun p => !decide (text < Text.lowercase p))
      || criteria.lessThanEqual.any (fun p => !decide (Text.lowercase p < text))

def accepts (criteria : Criteria) (text : String) : Bool :=
  !criteria.isUnknown && !(criteria.hasValue && Text.blank text) && !criteria.excluded.contains text
    && (!criteria.hasInclude || criteria.includes text)

/-- Whether a subject passes. Where there is nothing to look at only the flags count, and whether
something had to be included. -/
def passes (criteria : Criteria) (subject : Subject) : Bool :=
  if subject.isBlank then criteria.isUnknown || !(criteria.hasValue || criteria.hasInclude)
  else match subject with
    | .absent => false
    | .one text => criteria.accepts text
    | .many texts => texts.any criteria.accepts

end Criteria

end Screening
