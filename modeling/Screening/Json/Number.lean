import Screening.Decimal.Basic
import Screening.Double.Scientific
import Screening.Double.Shortest

/-!
# Numbers of JSON

A number is a whole number of 64 bits, signed or unsigned, or else a double. It is written in its
shortest form: a whole number as it is, a double with the fewest digits that read back. A double
from 0.00001 up to below 10 ^ 16 has its digits in place and always a point; any other has one digit
before the point, if there are more, and a power of ten with its sign.

As an operand or in metadata a number is the decimal of its written form, and is none where that
form is out of range. As an amount of money it is the decimal of its digits written out in full.
-/

namespace Screening.Json

/-- The least signed whole number of 64 bits. -/
def minInteger : Int := -9223372036854775808

/-- The greatest unsigned whole number of 64 bits. -/
def maxInteger : Int := 18446744073709551615

inductive Number where
  | integer (n : Int) (lower : minInteger ≤ n) (upper : n ≤ maxInteger)
  | double (d : Double)
deriving DecidableEq

def Number.ofUInt64 (n : UInt64) : Number :=
  .integer n.toNat (by simp only [minInteger]; omega)
    (by have := n.toNat_lt; simp only [maxInteger]; omega)

/-- A number in writing: digits, of which the last `places` stand after the point, and perhaps a
power of ten. -/
structure Written where
  negative : Bool
  digits : Nat
  places : Nat
  power : Option Int

namespace Written

def coefficient (w : Written) : Int := if w.negative then -w.digits else w.digits

def render (w : Written) : String :=
  String.ofList ((if w.negative then ['-'] else []) ++ Decimal.placePoint w.digits w.places)
    ++ match w.power with
      | none => ""
      | some power => (if power < 0 then "e" else "e+") ++ toString power

def decimal? (w : Written) : Option Decimal :=
  (Decimal.ofScaled? w.coefficient w.places).bind (·.shift? (w.power.getD 0))

end Written

def writeDouble (d : Double) : Written :=
  let s := d.shortest
  if s.digits = 0 then ⟨d.negative, 0, 1, none⟩
  else if -5 ≤ s.leading ∧ s.leading ≤ 15 then
    if s.power < 0 then ⟨d.negative, s.digits, (-s.power).toNat, none⟩
    else ⟨d.negative, s.digits * tenTo (s.power.toNat + 1), 1, none⟩
  else ⟨d.negative, s.digits, Double.decimalLength s.digits - 1, some s.leading⟩

namespace Number

def write : Number → Written
  | .integer n _ _ => ⟨n < 0, n.natAbs, 0, none⟩
  | .double d => writeDouble d

def render (n : Number) : String := n.write.render

/-- The decimal that a number means as an operand or in metadata. -/
def decimal? (n : Number) : Option Decimal := n.write.decimal?

/-- The decimal that a number means as an amount of money. -/
def amount? : Number → Option Decimal
  | .integer n _ _ => Decimal.ofScaled? n 0
  | .double d =>
    let s := d.shortest
    Decimal.ofPower? (if d.negative then -s.digits else s.digits) s.power

def ofScientific? (negative : Bool) (digits : Nat) (power : Int) : Option Number :=
  (Double.ofScientific? negative digits power).map .double

/-- The number that a sign and a row of digits stand for, of which the last `dropped` have no room in
64 bits. Minus zero, and a whole number of more than 64 bits, is a double. -/
def ofWhole? (negative : Bool) (digits dropped : Nat) : Option Number :=
  let n : Int := if negative then -digits else digits
  if h : dropped = 0 ∧ minInteger ≤ n ∧ n ≤ maxInteger then
    if negative ∧ digits = 0 then some (.double (.zero true)) else some (.integer n h.2.1 h.2.2)
  else ofScientific? negative digits dropped

end Number

end Screening.Json
