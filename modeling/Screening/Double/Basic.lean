import Screening.Power

/-!
# Double-precision numbers

A finite binary number of double precision, as its exact value: a sign, a significand below 2 ^ 53
and a number of places by which it is shifted, in units of 2 ^ -1074. Every value has one such form,
because the significand has its full 53 bits unless the shift is zero. The two zeros differ.

Whatever has no double of its own is rounded to the nearest one, an exact tie going to the even
significand.
-/

namespace Screening

namespace Double

/-- The bound of significands, 2 ^ 53. -/
def bound : Nat := 9007199254740992

/-- The least significand with all its bits, 2 ^ 52. -/
def full : Nat := 4503599627370496

def maxShift : Nat := 2045

end Double

/-- The number `significand * 2 ^ shift / 2 ^ 1074`, with a sign. -/
structure Double where
  negative : Bool
  significand : Nat
  shift : Nat
  significand_lt : significand < Double.bound
  shift_le : shift ≤ Double.maxShift
  canonical : shift = 0 ∨ Double.full ≤ significand
deriving DecidableEq

namespace Double

def zero (negative : Bool) : Double := ⟨negative, 0, 0, by decide, by decide, .inl rfl⟩

/-- The quotient rounded to the nearest whole number, an exact tie going to the even one. -/
def roundToEven (n d : Nat) : Nat :=
  let q := n / d
  match compare (2 * (n % d)) d with
  | .lt => q
  | .gt => q + 1
  | .eq => q + q % 2

/-- The double with a significand of at most 2 ^ 53, unless it is out of range. -/
def ofParts? (negative : Bool) (significand shift : Nat) : Option Double :=
  let parts := if significand = bound then (full, shift + 1) else (significand, shift)
  if h : parts.1 < bound ∧ parts.2 ≤ maxShift ∧ (parts.2 = 0 ∨ full ≤ parts.1) then
    some ⟨negative, parts.1, parts.2, h.1, h.2.1, h.2.2⟩
  else none

/-- The double nearest to a quotient of natural numbers, unless it is out of range. -/
def ofRatio? (negative : Bool) (n d : Nat) : Option Double :=
  let units := n * twoTo 1074
  let shift := if units / d < bound then 0 else (units / d).log2 - 52
  ofParts? negative (roundToEven units (d * twoTo shift)) shift

/-- The number of decimal digits of a natural number; zero has one. -/
def decimalLength (n : Nat) : Nat := (Nat.toDigits 10 n).length

/-- The magnitude, in units of 2 ^ -1074. -/
def units (d : Double) : Nat := d.significand * twoTo d.shift

/-- The product, rounded to the nearest double, unless it is out of range. -/
protected def mul? (a b : Double) : Option Double :=
  ofRatio? (a.negative != b.negative) (a.units * b.units) (twoTo 2148)

/-- The quotient, rounded to the nearest double, unless it is out of range. -/
protected def div? (a b : Double) : Option Double :=
  ofRatio? (a.negative != b.negative) a.units b.units

end Double

end Screening
