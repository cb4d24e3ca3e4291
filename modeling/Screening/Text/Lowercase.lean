import Screening.Text.CaseTable

/-!
# Lowercase

Full Unicode lowercasing of a text. Each character has an image of its own, with two exceptions:
a capital I with a dot above becomes two characters, and a capital sigma at the end of a word
becomes the final small sigma. A sigma ends a word when the nearest character before it that is not
case-ignorable is a cased letter, and the nearest such character after it is none.

Keywords are compared with their ASCII letters folded only.
-/

namespace Screening.Text

/-- The lowercase image of a character on its own. -/
def lowercaseChar (c : Char) : List Char :=
  if c = 'İ' then ['i', '\u0307']
  else match lowercaseRuns.findSome? (·.image? c.toNat) with
    | some n => [Char.ofNat n]
    | none => [c]

/-- Whether the first character that is not case-ignorable is a cased letter. -/
def meetsCased (cs : List Char) : Bool :=
  match cs.dropWhile isCaseIgnorable with
  | [] => false
  | c :: _ => isCased c

/-- Lowercases a text of which the characters in `before`, nearest first, came earlier. -/
def lowercaseAfter (before : List Char) : List Char → List Char
  | [] => []
  | c :: cs =>
    (if c = 'Σ' then [if meetsCased before && !meetsCased cs then 'ς' else 'σ']
      else lowercaseChar c) ++ lowercaseAfter (c :: before) cs

def lowercase (s : String) : String := String.ofList (lowercaseAfter [] s.toList)

/-- Whether two texts agree when the letters A to Z are read as a to z. -/
def eqIgnoringCase (s t : String) : Bool :=
  s.toList.map Char.toLower == t.toList.map Char.toLower

/-- Letters from A to Z are compared in lower case, and all others as they are. -/
theorem eqIgnoringCase_iff (s t : String) :
    eqIgnoringCase s t = true ↔ s.toList.map Char.toLower = t.toList.map Char.toLower := by
  simp [eqIgnoringCase]

example : lowercase "ΟΔΟΣ ΑΣ.Α Σ İ" = "οδος ασ.α σ i\u0307" := by decide +kernel

end Screening.Text
