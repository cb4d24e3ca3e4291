import Screening.Text.Ranges

/-!
# White space

A character is blank when it has the Unicode property White_Space. A text is blank when all its
characters are, and trimming removes the blank characters at both of its ends.
-/

namespace Screening.Text

/-- The characters with the property White_Space. -/
def blankRanges : List (Nat × Nat) :=
  [(0x09, 0x0D), (0x20, 0x20), (0x85, 0x85), (0xA0, 0xA0), (0x1680, 0x1680), (0x2000, 0x200A),
   (0x2028, 0x2029), (0x202F, 0x202F), (0x205F, 0x205F), (0x3000, 0x3000)]

def isBlank (c : Char) : Bool := inRanges blankRanges c

def blank (s : String) : Bool := s.toList.all isBlank

/-- The characters from the first that is not blank to the last that is not blank. -/
def trimChars (cs : List Char) : List Char :=
  ((cs.dropWhile isBlank).reverse.dropWhile isBlank).reverse

def trim (s : String) : String := String.ofList (trimChars s.toList)

end Screening.Text
