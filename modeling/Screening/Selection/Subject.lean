import Screening.Text.Blank
import Screening.Value.Basic

/-!
# Subjects of filters

What a filter sees of a field of an entity: nothing, one text, or several texts of which one is
enough. Data is shown as text; null and nulls in lists are nothing.
-/

namespace Screening

/-- What a filter sees of a field. -/
inductive Subject where
  | absent
  | one (text : String)
  | many (texts : List String)
deriving DecidableEq, Repr

namespace Subject

/-- The text of a value, unless it is null. A string stands without quotes. -/
def textOf? : Value → Option String
  | .null => none
  | .string s => some s
  | value => some value.render

def ofValue : Value → Subject
  | .null => .absent
  | .list items => .many (items.filterMap textOf?)
  | .string s => .one s
  | value => .one value.render

/-- Whether there is nothing to look at: a blank text counts as nothing, and so does a list without
items, but not a list of blank texts. -/
def isBlank : Subject → Bool
  | .absent => true
  | .one text => Text.blank text
  | .many texts => texts.isEmpty

end Subject

/-- Entities whose fields a filter can see. -/
class Selectable (α : Type) where
  subject : α → String → Subject

/-- The fields of metadata are the paths in it. -/
instance : Selectable Metadata where
  subject metadata path := (Value.lookup metadata path).elim .absent .ofValue

end Screening
