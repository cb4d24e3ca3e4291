import Screening.Logic.Token

/-!
# Reading logic texts

The grammar has two lines:

    expression := term ((and | or) term)*
    term       := '(' expression ')' | word

An expression is the chain of its terms, appended from left to right; a term in parentheses is the
expression inside them. So a group that comes first is appended to like any chain, and parentheses
around a single term change nothing.

The reader goes through the tokens once. It either expects a term or stands behind one, and keeps
for every open parenthesis what stood before it. Where it cannot go on, it tells the place and how
many terms were being read there. Texts with more than 64 parentheses inside one another are refused
before that.
-/

namespace Screening

inductive LogicError where
  /-- The text cannot be read on from a place, given by the number of characters before it. There,
  `expected` terms had been begun, one inside the other; none, if a whole expression lies before the
  place. -/
  | misplaced (text : String) (place : Nat) (expected : Nat)
  | tooDeep (depth limit : Nat)
  | notText
deriving DecidableEq, Repr

namespace Logic

/-- The terms of a chain that is being read: a single rule, or a first term and the further ones, of
which the latest comes first. -/
inductive Terms where
  | single (id : String)
  | several (first : Logic) (later : List (Connective × Logic))

namespace Terms

def toLogic : Terms → Logic
  | .single id => .rule id
  | .several first later => .chain first later.reverse

/-- The terms of an expression that comes first in a chain. -/
def ofLogic : Logic → Terms
  | .rule id => .single id
  | .chain first rest => .several first rest.reverse

def push (terms : Terms) (c : Connective) (next : Logic) : Terms :=
  match terms with
  | .single id => .several (.rule id) [(c, next)]
  | .several first later => .several first ((c, next) :: later)

@[simp] theorem toLogic_ofLogic (e : Logic) : (ofLogic e).toLogic = e := by
  cases e <;> simp [ofLogic, toLogic]

@[simp] theorem toLogic_push (terms : Terms) (c : Connective) (next : Logic) :
    (terms.push c next).toLogic = terms.toLogic.link c next := by
  cases terms <;> simp [push, toLogic, link]

theorem ofLogic_link (e : Logic) (c : Connective) (next : Logic) :
    ofLogic (e.link c next) = (ofLogic e).push c next := by
  cases e <;> simp [ofLogic, push, link]

end Terms

/-- What stands before a term in its chain: nothing, or terms and a connective. -/
abbrev Before := Option (Terms × Connective)

def Before.add (before : Before) (next : Logic) : Terms :=
  match before with
  | none => .ofLogic next
  | some (terms, c) => terms.push c next

/-- A place at which the tokens cannot be read on. There is no token if it is the end. -/
structure Misplaced where
  place : Option Nat
  expected : Nat

mutual

/-- Reads on where a term must come. `outer` is what stands before the open parentheses, the
innermost first. -/
def expectTerm (outer : List Before) (before : Before) : List Lexeme → Except Misplaced Logic
  | [] => .error ⟨none, outer.length + 1⟩
  | ⟨.opening, _⟩ :: rest => expectTerm (before :: outer) none rest
  | ⟨.word id, _⟩ :: rest => afterTerm outer (before.add (.rule id)) rest
  | ⟨.closing, place⟩ :: _ => .error ⟨some place, outer.length + 1⟩
  | ⟨.connective _, place⟩ :: _ => .error ⟨some place, outer.length + 1⟩

def afterTerm (outer : List Before) (terms : Terms) : List Lexeme → Except Misplaced Logic
  | [] =>
    match outer with
    | [] => .ok terms.toLogic
    | _ :: _ => .error ⟨none, outer.length⟩
  | ⟨.connective c, _⟩ :: rest => expectTerm outer (some (terms, c)) rest
  | ⟨.closing, place⟩ :: rest =>
    match outer with
    | [] => .error ⟨some place, 0⟩
    | before :: outer => afterTerm outer (before.add terms.toLogic) rest
  | ⟨.opening, place⟩ :: _ => .error ⟨some place, outer.length⟩
  | ⟨.word _, place⟩ :: _ => .error ⟨some place, outer.length⟩

end

/-- The greatest number of parentheses that may stand inside one another. -/
def nestingLimit : Nat := 64

/-- The greatest number of open parentheses, after `deepest` and with `opened` of them open. A
closing parenthesis too many counts for nothing. -/
def nestingFrom (opened deepest : Nat) : List Char → Nat
  | [] => deepest
  | c :: cs =>
    if c = '(' then nestingFrom (opened + 1) (max deepest (opened + 1)) cs
    else if c = ')' then nestingFrom (opened - 1) deepest cs
    else nestingFrom opened deepest cs

def nesting (text : String) : Nat := nestingFrom 0 0 text.toList

def parse (text : String) : Except LogicError Logic :=
  let depth := nesting text
  -- The parentheses are counted first, so a text can be too deep without being an expression.
  if nestingLimit < depth then .error (.tooDeep depth nestingLimit)
  else (expectTerm [] none (lex text)).mapError fun e =>
    .misplaced text (e.place.getD text.toList.length) e.expected

end Logic

end Screening
