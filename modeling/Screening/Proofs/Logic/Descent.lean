import Screening.Proofs.Logic.Splitting

/-!
# Reading logic texts by recursive descent

    expression := term (connective term)*
    term       := '(' expression ')' | rule

The reader of `Screening.Logic.Parser` goes through the tokens of a text once and keeps a stack.
Here a text is read from its characters, by readers that call one another as the lines of the
grammar do. There are no tokens: white space is skipped where a term, a connective or a closing
parenthesis may come, and a word is taken as far as it goes before it is known whether it is a
connective.

A reader that cannot go on stops. If it has not committed itself, it is as if it had not been tried:
another alternative is tried from the same place, or a repetition ends there. An opening parenthesis
commits to a group, and a connective to a term. Wherever it stops, `descend` gives the answer of
`parse` (see `Screening.Proofs.Logic.Agreement`).
-/

namespace Screening.Logic

/-! ## Readers -/

inductive Reply (α : Type) where
  /-- It has read a value and leaves the rest. -/
  | read (value : α) (rest : List Char)
  /-- It stops before the rest, while it reads as many terms inside one another. -/
  | stop (committed : Bool) (rest : List Char) (terms : Nat)

abbrev Reader (α : Type) : Type := List Char → Reply α

namespace Reader

variable {α β : Type}

instance : Monad Reader where
  pure value cs := .read value cs
  bind r f cs :=
    match r cs with
    | .read value rest => f value rest
    | .stop committed rest terms => .stop committed rest terms

def char (c : Char) : Reader Unit
  | [] => .stop false [] 0
  | d :: cs => if d = c then .read () cs else .stop false (d :: cs) 0

def blanks : Reader Unit := fun cs ↦ .read () (cs.dropWhile Text.isBlank)

/-- Reads the longest word that begins here. -/
def word : Reader String := fun cs ↦
  match cs.takeWhile isWordChar with
  | [] => .stop false cs 0
  | c :: run => .read (String.ofList (c :: run)) (cs.dropWhile isWordChar)

/-- Reads a value and changes it. If that is not possible, nothing is read. -/
def choose (r : Reader α) (f : α → Option β) : Reader β := fun cs ↦
  match r cs with
  | .stop committed rest terms => .stop committed rest terms
  | .read value rest =>
    match f value with
    | some value => .read value rest
    | none => .stop false cs 0

/-- There is no way back from where the reader stops. -/
def commit (r : Reader α) : Reader α := fun cs ↦
  match r cs with
  | .read value rest => .read value rest
  | .stop _ rest terms => .stop true rest terms

/-- Tries the one reader and then the other, unless the first one commits itself. -/
def either (r s : Reader α) : Reader α := fun cs ↦
  match r cs with
  | .stop false _ _ => s cs
  | .stop true rest terms => .stop true rest terms
  | .read value rest => .read value rest

/-- Reads as often as possible. A reader that reads nothing must not be repeated. -/
def many (r : Reader α) (cs : List Char) : Reply (List α) :=
  match r cs with
  | .stop false _ _ => .read [] cs
  | .stop true rest terms => .stop true rest terms
  | .read value rest =>
    if rest.length < cs.length then
      match many r rest with
      | .read values rest => .read (value :: values) rest
      | .stop committed rest terms => .stop committed rest terms
    else .stop true cs 0
termination_by cs.length

def inTerm (r : Reader α) : Reader α := fun cs ↦
  match r cs with
  | .read value rest => .read value rest
  | .stop committed rest terms => .stop committed rest (terms + 1)

theorem bind_of_read {r : Reader α} {f : α → Reader β} {cs rest : List Char} {value : α}
    (h : r cs = .read value rest) : (r >>= f) cs = f value rest := by
  change (match r cs with
    | .read value rest => f value rest
    | .stop committed rest terms => .stop committed rest terms) = _
  rw [h]

theorem bind_of_stop {r : Reader α} {f : α → Reader β} {cs rest : List Char} {committed : Bool}
    {terms : Nat} (h : r cs = .stop committed rest terms) :
    (r >>= f) cs = .stop committed rest terms := by
  change (match r cs with
    | .read value rest => f value rest
    | .stop committed rest terms => .stop committed rest terms) = _
  rw [h]

theorem commit_of_read {r : Reader α} {cs rest : List Char} {value : α}
    (h : r cs = .read value rest) : r.commit cs = .read value rest := by
  rw [commit, h]

/-- Where a committed reader stops, there is no way back. -/
theorem commit_of_stop {r : Reader α} {cs rest : List Char} {committed : Bool} {terms : Nat}
    (h : r cs = .stop committed rest terms) : r.commit cs = .stop true rest terms := by
  rw [commit, h]

theorem committed_of_commit_eq_stop {r : Reader α} {cs rest : List Char} {committed : Bool}
    {terms : Nat} (h : r.commit cs = .stop committed rest terms) : committed = true := by
  cases hr : r cs with
  | read value behind =>
    rw [commit_of_read hr] at h
    cases h
  | stop _ stopped _ =>
    rw [commit_of_stop hr] at h
    cases h
    rfl

/-! ## The lines of the grammar -/

def connective : Reader Connective := do
  blanks
  word.choose connective?

/-- Reads a word that is no connective. -/
def rule : Reader Logic :=
  word.choose fun id ↦ if (connective? id).isNone then some (.rule id) else none

def group (expression : Reader Logic) : Reader Logic := do
  char '('
  let e ← expression.commit
  blanks
  (char ')').commit
  return e

def term (expression : Reader Logic) : Reader Logic := do
  blanks
  inTerm ((group expression).either rule)

def next (term : Reader Logic) : Reader (Connective × Logic) := do
  let c ← connective
  let e ← term.commit
  return (c, e)

/-- Reads an expression with parentheses on fewer levels than there are given. -/
def expression : Nat → Reader Logic
  | 0 => fun cs ↦ .stop true cs 0
  | levels + 1 => do
    let first ← term (expression levels)
    let rest ← many (next (term (expression levels)))
    return rest.foldl (fun e next ↦ e.link next.1 next.2) first

def whole : Reader Logic := do
  let e ← expression (nestingLimit + 1)
  blanks
  return e

end Reader

/-- The expression that a text holds, read by descent. -/
def descend (text : String) : Except LogicError Logic :=
  if nestingLimit < nesting text then .error (.tooDeep (nesting text) nestingLimit)
  else
    match Reader.whole text.toList with
    | .read e [] => .ok e
    | .read _ rest => .error (.misplaced text (text.toList.length - rest.length) 0)
    | .stop _ rest terms => .error (.misplaced text (text.toList.length - rest.length) terms)

end Screening.Logic
