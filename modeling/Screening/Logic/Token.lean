import Screening.Logic.Basic
import Screening.Text.Blank
import Screening.Text.Lowercase

/-!
# The tokens of a logic text

A text is made of parentheses and of words, which are the longest runs of characters that are
neither white space nor parentheses. The words `and` and `or`, in whatever case, are connectives;
any other word names a rule. Each token knows how many characters stand before it.
-/

namespace Screening.Logic

inductive Token where
  | opening
  | closing
  | connective (c : Connective)
  | word (id : String)
deriving DecidableEq, Repr

structure Lexeme where
  token : Token
  /-- The number of characters before the token. -/
  start : Nat
deriving DecidableEq, Repr

def isWordChar (c : Char) : Bool := !Text.isBlank c && c != '(' && c != ')'

def connective? (word : String) : Option Connective :=
  if Text.eqIgnoringCase word "and" then some .and
  else if Text.eqIgnoringCase word "or" then some .or
  else none

def Token.ofWord (word : String) : Token :=
  match connective? word with
  | some c => .connective c
  | none => .word word

/-- The word that ends before position `stop`, if it is not empty, given its characters with the
last one first. -/
def endWord (word : List Char) (stop : Nat) (more : List Lexeme) : List Lexeme :=
  if word.isEmpty then more
  else ⟨.ofWord (String.ofList word.reverse), stop - word.length⟩ :: more

/-- The tokens from position `start` on, after the characters of a word that goes on there. -/
def lexFrom (word : List Char) (start : Nat) : List Char → List Lexeme
  | [] => endWord word start []
  | c :: cs =>
    -- The place of a word is that of its first character, which is found when the word ends.
    if isWordChar c then lexFrom (c :: word) (start + 1) cs
    else endWord word start <|
      if c = '(' then ⟨.opening, start⟩ :: lexFrom [] (start + 1) cs
      else if c = ')' then ⟨.closing, start⟩ :: lexFrom [] (start + 1) cs
      else lexFrom [] (start + 1) cs

def lex (text : String) : List Lexeme := lexFrom [] 0 text.toList

end Screening.Logic
