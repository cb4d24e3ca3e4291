import Screening.Selection.Junction
import Screening.Selection.Sorting
import Screening.Selection.Criteria

/-!
# Selections

A selection holds the criteria of several fields, how their verdicts are combined, and perhaps an
order. Criteria with nothing in them are as good as none.
-/

namespace Screening

variable {α : Type} [Selectable α]

def passesAll (junction : Junction) (criteria : List (String × Criteria)) (entity : α) : Bool :=
  junction.combine <| (criteria.filter fun entry => !entry.2.isEmpty).map fun entry =>
    entry.2.passes (Selectable.subject entity entry.1)

/-- Criteria of several fields, in the order of the fields, with a junction and an order. -/
structure Selection where
  junction : Junction := .and
  criteria : List (String × Criteria) := []
  order : Option SortOrder := none
deriving DecidableEq, Inhabited

namespace Selection

def withJunction (selection : Selection) (junction : Junction) : Selection :=
  { selection with junction := junction }

def withCriteria (selection : Selection) (field : String) (criteria : Criteria) : Selection :=
  { selection with criteria := Keyed.insert field criteria selection.criteria }

def withOrder (selection : Selection) (order : SortOrder) : Selection :=
  { selection with order := some order }

def criteria? (selection : Selection) (field : String) : Option Criteria :=
  selection.criteria.lookup field

def addTo (selection : Selection) (field : String) (operator : Operator) (value : String) :
    Selection :=
  selection.withCriteria field (((selection.criteria? field).getD {}).add operator value)

def passes (selection : Selection) (entity : α) : Bool :=
  passesAll selection.junction selection.criteria entity

/-- The items that pass, in the order of the selection. -/
def apply (selection : Selection) (sorting : Sorting α) (items : List α) : List α :=
  sorting.sort selection.order (items.filter selection.passes)

end Selection

end Screening
