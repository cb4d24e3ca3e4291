import Screening.Logic.Parser
import Screening.Text.Size

/-!
# Messages of logic errors

The report on a text shows the line with the wrong place, marks the place by a caret below it and
tells what was expected. A text of one line is shown as it is, and the caret is indented by the
length of what stands before it in UTF-8. For a text of several lines the report has a heading, and
a margin with the number of the line.

The column is the number of characters before the place in its line, plus one; but where the
character at the place is not ASCII, what stands before it is counted in UTF-8. At the very end of a
text that ends with a line feed, the place still counts as one on the last line that has one.
-/

namespace Screening

namespace Logic.ErrorText

def spaces (n : Nat) : List Char := List.replicate n ' '

def lastLine (cs : List Char) : List Char := (cs.reverse.takeWhile (· != '\n')).reverse

def lines : List Char → List (List Char)
  | [] => [[]]
  | c :: cs =>
    match lines cs with
    | [] => [[c]]
    | line :: rest => if c = '\n' then [] :: line :: rest else (c :: line) :: rest

/-- A line and a column, both counted from one. -/
structure Position where
  line : Nat
  column : Nat

def position (before after : List Char) : Position :=
  match after with
  | c :: _ =>
    let here := lastLine before
    ⟨before.count '\n' + 1, (if c.utf8Size = 1 then here.length else Text.utf8Size here) + 1⟩
  | [] =>
    let before := before.dropLast
    ⟨before.count '\n' + 1, (lastLine before).length + 2⟩

/-- What was expected: a rule for every term that had been begun. -/
def expectation (expected : Nat) : List Char :=
  if expected = 0 then []
  else ("expected " ++ String.intercalate ", " (List.replicate expected "rule id")).toList

def render (text : String) (place : Nat) (expected : Nat) : String :=
  let cs := text.toList
  let before := cs.take place
  if cs.contains '\n' then
    let p := position before (cs.drop place)
    let number := (Nat.toDigits 10 p.line)
    let margin := spaces number.length
    let content := (lines cs).getD (p.line - 1) []
    "parse error at line " ++ toString p.line ++ ", column " ++ toString p.column ++ "\n"
      ++ String.ofList (margin ++ [' ', '|', '\n']
        ++ number ++ [' ', '|', ' '] ++ content ++ ['\n']
        ++ margin ++ [' ', '|', ' '] ++ spaces (p.column - 1) ++ ['^', '\n']
        ++ expectation expected)
  else
    String.ofList
      (cs ++ ['\n'] ++ spaces (Text.utf8Size before) ++ ['^', '\n'] ++ expectation expected)

end Logic.ErrorText

namespace LogicError

def message : LogicError → String
  | .misplaced text place expected =>
    "logic parse error: " ++ Logic.ErrorText.render text place expected
  | .tooDeep depth limit =>
    "logic nests parentheses " ++ toString depth ++ " deep, at most " ++ toString limit
      ++ " allowed"
  | .notText => "logic must be a string"

end LogicError

end Screening
