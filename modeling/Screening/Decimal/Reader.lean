import Screening.Decimal.Basic

/-!
# Reading decimals

A decimal is written as an optional sign and digits, with at most one point among them and
underscores anywhere after the first digit. Digits after the point that do not fit, because 28 stand
there already or the coefficient would pass 96 bits, are dropped, and the first of them rounds the
number, five and more away from zero. Where that carries the coefficient past 96 bits one more digit
is given up. A zero has no sign.

A text that is not of that form is read as such a number times a power of ten, in the form `1.5e-7`.
There the sign stays, even if the power leaves nothing of the number.
-/

namespace Screening.Decimal

def digit? (c : Char) : Option Nat :=
  if c.isDigit then some (c.toNat - '0'.toNat) else none

/-- A digit, or an underscore between digits. -/
def isFiller (c : Char) : Bool := c.isDigit || c == '_'

structure Magnitude where
  coefficient : Nat
  scale : Nat

/-- Rounds by the first digit that is dropped. -/
def roundUp? (coefficient scale dropped : Nat) : Option Magnitude :=
  if dropped < 5 then some ⟨coefficient, scale⟩
  else if coefficient + 1 ≤ maxCoefficient then some ⟨coefficient + 1, scale⟩
  else if scale = 0 then none
  else some ⟨(coefficient + 5) / 10, scale - 1⟩

/-- The least coefficient that is too long for a word of 64 bits to take another digit safely:
`2 ^ 64 / 10`, less 255 for what the digit may add. -/
def longCoefficient : Nat := 1844674407370954906

/-- Ends a number at the digits that do not fit, which are dropped. The first of them rounds it. An
underscore before that digit is passed over, but while the coefficient is short, that is, if its
last digit joined one below `longCoefficient`, the underscore takes the place of a zero. -/
def cutOff? (coefficient scale : Nat) (dropped : List Char) : Option Magnitude :=
  if dropped.all isFiller then
    let first? :=
      if coefficient / 10 < longCoefficient then dropped.head? else dropped.find? (· != '_')
    roundUp? coefficient scale ((first?.bind digit?).getD 0)
  else none

/-- Reads the digits after the point, of which `scale` have been taken. -/
def fraction? (coefficient scale : Nat) : List Char → Option Magnitude
  | [] => some ⟨coefficient, scale⟩
  | c :: cs =>
    if maxScale ≤ scale then cutOff? coefficient scale (c :: cs)
    else if c = '_' then fraction? coefficient scale cs
    else match digit? c with
      | none => none
      | some d =>
        if coefficient * 10 + d ≤ maxCoefficient then
          fraction? (coefficient * 10 + d) (scale + 1) cs
        else cutOff? coefficient scale (c :: cs)

/-- Reads the digits before the point, after at least one of them. -/
def whole? (coefficient : Nat) : List Char → Option Magnitude
  | [] => some ⟨coefficient, 0⟩
  | c :: cs =>
    if c = '_' then whole? coefficient cs
    else if c = '.' then fraction? coefficient 0 cs
    else match digit? c with
      | none => none
      | some d =>
        if coefficient * 10 + d ≤ maxCoefficient then whole? (coefficient * 10 + d) cs else none

/-- Reads an unsigned number, which has a digit before its first underscore. -/
def magnitude? : List Char → Option Magnitude
  | [] => none
  | c :: cs =>
    if c = '.' then
      match cs with
      | [] => none
      | d :: _ => if d.isDigit then fraction? 0 0 cs else none
    else match digit? c with
      | none => none
      | some d => whole? d cs

def plain? : List Char → Option Decimal
  | '-' :: cs => (magnitude? cs).bind fun m => ofScaled? (-m.coefficient) m.scale
  | '+' :: cs => (magnitude? cs).bind fun m => ofScaled? m.coefficient m.scale
  | cs => (magnitude? cs).bind fun m => ofScaled? m.coefficient m.scale

def digits? (cs : List Char) : Option Nat :=
  if cs.isEmpty || !cs.all Char.isDigit then none
  else some (cs.foldl (fun n c => n * 10 + (c.toNat - '0'.toNat)) 0)

/-- Reads a row of digits, before which a plus sign may stand. -/
def unsigned? : List Char → Option Nat
  | '+' :: cs => digits? cs
  | cs => digits? cs

/-- Reads the exponent of a power of ten. A minus sign stands before the plus sign, if both are
written. -/
def exponent? : List Char → Option Int
  | '-' :: cs => (unsigned? cs).map fun n => -(n : Int)
  | cs => (unsigned? cs).map Int.ofNat

def marksExponent (c : Char) : Bool := c == 'e' || c == 'E'

def scientific? (cs : List Char) : Option Decimal :=
  match cs.span (!marksExponent ·) with
  | (_, []) => none
  | (base, _ :: power) => do (← plain? base).shift? (← exponent? power)

def ofString? (s : String) : Option Decimal :=
  plain? s.toList <|> scientific? s.toList

end Screening.Decimal
