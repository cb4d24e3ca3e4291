import Screening.Power

/-!
# Decimal numbers

A decimal number is a sign, a coefficient of at most 96 bits and a scale: the number of digits that
stand after the point. The scale is kept, so 10 and 10.0 are two decimals, but they are equal as
numbers: `==` and `compare` look at the value `coefficient / 10 ^ scale`, with its sign, alone.

A zero has no sign of its own, except that a negative number of which a power of ten leaves nothing
within 28 places stays negative. Such a zero shows its sign and equals every other zero.
-/

namespace Screening

namespace Decimal

/-- The largest coefficient, 2 ^ 96 - 1. -/
def maxCoefficient : Nat := 79228162514264337593543950335

/-- The largest number of digits after the point. -/
def maxScale : Nat := 28

end Decimal

/-- The number `coefficient / 10 ^ scale`, or its negation. -/
structure Decimal where
  negative : Bool
  coefficient : Nat
  scale : Nat
  coefficient_le : coefficient ≤ Decimal.maxCoefficient
  scale_le : scale ≤ Decimal.maxScale
deriving DecidableEq

namespace Decimal

/-- The decimal with the given sign, coefficient and scale, if the last two are in range. -/
def ofParts? (negative : Bool) (coefficient scale : Nat) : Option Decimal :=
  if h : coefficient ≤ maxCoefficient ∧ scale ≤ maxScale then
    some ⟨negative, coefficient, scale, h.1, h.2⟩
  else none

/-- The number `n / 10 ^ scale`, if it is in range. A zero has no sign. -/
def ofScaled? (n : Int) (scale : Nat) : Option Decimal := ofParts? (n < 0) n.natAbs scale

def ofUInt64 (n : UInt64) : Decimal :=
  ⟨false, n.toNat, 0, by have := n.toNat_lt; simp only [maxCoefficient]; omega, Nat.zero_le _⟩

def ofInt64 (n : Int64) : Decimal :=
  ⟨n.toInt < 0, n.toInt.natAbs, 0,
    by have := n.toInt_lt; have := n.le_toInt; simp only [maxCoefficient]; omega, Nat.zero_le _⟩

def zero : Decimal := ofUInt64 0

instance : Inhabited Decimal := ⟨zero⟩

/-! ## Order and equality of values -/

/-- The numerator of the number over the denominator `10 ^ (scale + more)`. -/
def numerator (d : Decimal) (more : Nat) : Int :=
  (if d.negative then -(d.coefficient : Int) else d.coefficient) * tenTo more

/-- The order of the values, which are brought to the denominator `10 ^ (a.scale + b.scale)`. -/
protected def compare (a b : Decimal) : Ordering :=
  Ord.compare (a.numerator b.scale) (b.numerator a.scale)

instance : Ord Decimal := ⟨Decimal.compare⟩

/-- Equality of the values. -/
instance : BEq Decimal := ⟨fun a b => a.numerator b.scale == b.numerator a.scale⟩

/-- Zeros at the end make no difference to equality: both numbers are brought to one denominator. -/
theorem beq_iff (a b : Decimal) : (a == b) = true ↔ a.numerator b.scale = b.numerator a.scale := by
  simp [BEq.beq]

/-- Equality is what the order takes for equal. -/
theorem compare_eq_iff (a b : Decimal) : compare a b = .eq ↔ (a == b) = true := by
  rw [beq_iff]
  exact Int.compare_eq_eq

/-- Whether the number is whole, however many zeros it shows after the point. -/
def isWhole (d : Decimal) : Bool := d.coefficient % tenTo d.scale == 0

/-! ## Rounding and moving the point -/

/-- The quotient by `10 ^ places`, rounded to the nearest whole number, a half upwards. -/
def roundOff (n places : Nat) : Nat := (2 * n + tenTo places) / (2 * tenTo places)

/-- The number times ten to a power, with the same sign. A negative power rounds, a half away from
zero, where more than 28 digits would stand after the point; the power itself lies between -28 and
28, except that a larger one is harmless as long as it only takes digits from the scale. -/
def shift? (d : Decimal) : Int → Option Decimal
  | .ofNat n =>
    if n ≤ d.scale then ofParts? d.negative d.coefficient (d.scale - n)
    else if maxScale < n then none
    else ofParts? d.negative (d.coefficient * tenTo (n - d.scale)) 0
  | .negSucc m =>
    let n := m + 1
    if maxScale < n then none
    else if d.scale + n ≤ maxScale then ofParts? d.negative d.coefficient (d.scale + n)
    else ofParts? d.negative (roundOff d.coefficient (d.scale + n - maxScale)) maxScale

/-- The number `n * 10 ^ power`, written out with all its places and rounded to 28 of them after the
point, a half away from zero. A zero has no sign. -/
def ofPower? (n : Int) : Int → Option Decimal
  | .ofNat m => ofScaled? (n * tenTo m) 0
  | .negSucc m =>
    if m + 1 ≤ maxScale then ofScaled? n (m + 1)
    else ofScaled? (n.sign * roundOff n.natAbs (m + 1 - maxScale)) maxScale

/-! ## Text -/

/-- A number of digits with a point before the last `places` of them, and at least one digit before
the point. Without places there is no point. -/
def placePoint (digits places : Nat) : List Char :=
  let shown := Nat.toDigits 10 digits
  let padded := List.replicate (places + 1 - shown.length) '0' ++ shown
  let whole := padded.take (padded.length - places)
  if places = 0 then whole else whole ++ '.' :: padded.drop (padded.length - places)

/-- The text of a decimal, with exactly `scale` digits after the point. -/
def render (d : Decimal) : String :=
  String.ofList ((if d.negative then ['-'] else []) ++ placePoint d.coefficient d.scale)

instance : ToString Decimal := ⟨render⟩

end Decimal

end Screening
