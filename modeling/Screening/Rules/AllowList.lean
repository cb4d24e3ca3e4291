import Screening.Text.Search

/-!
# Allow-lists

An evaluation may be confined to rules whose paths begin in certain ways. Without a list every path
is admitted; an empty list admits none.
-/

namespace Screening

/-- The beginnings of paths that are admitted, if there is a limit. -/
structure AllowList where
  starts : Option (List String) := none
deriving DecidableEq, Inhabited

namespace AllowList

def everything : AllowList := {}

def ofList (starts : List String) : AllowList := ⟨some starts⟩

/-- Admits the paths with one more beginning; with the first one the limit comes into being. -/
def allow (list : AllowList) (start : String) : AllowList := ⟨some (list.starts.getD [] ++ [start])⟩

def admits (list : AllowList) (path : String) : Bool :=
  match list.starts with
  | none => true
  | some starts => starts.any fun start => Text.startsWith path start

@[simp] theorem admits_everything (path : String) : everything.admits path = true := rfl

/-- A path is admitted if it begins with one of the given texts. -/
theorem admits_ofList_iff {starts : List String} {path : String} :
    (ofList starts).admits path = true ↔ ∃ start ∈ starts, start.toList <+: path.toList := by
  simp [admits, ofList, Text.startsWith_iff]

end AllowList

end Screening
