import Screening.Selection.SortOrder
import Screening.Keyed

/-!
# Sortings

A sorting knows how to compare items by certain fields. One of these is the fallback: an order that
is missing or names a field that is not known is replaced by the fallback, descending. Sorting is
stable in both directions.
-/

namespace Screening

variable {α : Type}

/-- Comparisons of items by fields. The fallback field always has one; what is registered later
counts, also for the fallback field. -/
structure Sorting (α : Type) where
  fallback : String
  initial : α → α → Ordering
  /-- What was registered, the latest first. -/
  registered : List (String × (α → α → Ordering)) := []

namespace Sorting

def register (sorting : Sorting α) (field : String) (compare : α → α → Ordering) :
    Sorting α :=
  { sorting with registered := (field, compare) :: sorting.registered }

/-- All entries, the latest first. -/
def entries (sorting : Sorting α) : List (String × (α → α → Ordering)) :=
  sorting.registered ++ [(sorting.fallback, sorting.initial)]

def comparison? (sorting : Sorting α) (field : String) : Option (α → α → Ordering) :=
  sorting.entries.lookup field

def fields (sorting : Sorting α) : List String :=
  sorting.entries.foldr (fun entry fields => Keyed.insertKey entry.1 fields) []

/-- The order that takes the place of one that is not known. -/
def fallbackOrder (sorting : Sorting α) : SortOrder := ⟨sorting.fallback, .descending⟩

def resolve (sorting : Sorting α) (requested : Option SortOrder) : SortOrder :=
  (requested.filter fun order => (sorting.comparison? order.field).isSome).getD
    sorting.fallbackOrder

def sort (sorting : Sorting α) (requested : Option SortOrder) (items : List α) : List α :=
  let order := sorting.resolve requested
  match sorting.comparison? order.field with
  | none => items
  | some compare => items.mergeSort fun a b => (order.direction.orient (compare a b)).isLE

def render (sorting : Sorting α) : String :=
  let quoted (s : String) : String := "\"" ++ s ++ "\""
  "Sorter \x7b keys: [" ++ String.intercalate ", " (sorting.fields.map quoted)
    ++ "], fallback: " ++ quoted sorting.fallback ++ " \x7d"

end Sorting

end Screening
