import Screening.Double.Basic

/-!
# The shortest decimal that reads back

Among the decimals that lie nearer to a double than to any other double, the fewest digits are
chosen, and of those with that many digits the nearest. For 1, 2, … 17 digits the two neighbours of
the double on that decimal grid are tested, in exact arithmetic: the first grid with a hit wins, of
two hits the nearer, and of two equally near ones the even one. On the grid of 17 digits the nearer
neighbour always reads back.
-/

namespace Screening

/-- The number `digits * 10 ^ power`, in which the last digit is not zero unless all are. -/
structure Digits where
  digits : Nat
  power : Int
deriving DecidableEq, Repr

namespace Digits

/-- Moves the zeros at the end of the digits into the power. -/
def normalize (digits : Nat) (power : Int) : Digits :=
  if _h : digits ≠ 0 ∧ digits % 10 = 0 then normalize (digits / 10) (power + 1)
  else ⟨digits, power⟩
termination_by digits
decreasing_by omega

def leading (d : Digits) : Int := Double.decimalLength d.digits - 1 + d.power

end Digits

namespace Double

/-- The power of ten of the first digit of a positive quotient. -/
def decade (n d : Nat) : Int :=
  if d ≤ n then decimalLength (n / d) - 1 else -(decimalLength ((d - 1) / n) : Int)

/-- The numbers that round to a double, as numerators over 2 ^ 1076: the number itself and the
midpoints to its neighbours. Just above a power of two the lower neighbour is half as far away. -/
structure Interval where
  value : Nat
  low : Nat
  high : Nat
  /-- Whether the midpoints themselves round to the double. -/
  closed : Bool

def Interval.unit : Nat := twoTo 1076

def interval (d : Double) : Interval where
  value := 4 * d.significand * twoTo d.shift
  low := (4 * d.significand - if d.significand = full ∧ d.shift ≠ 0 then 1 else 2) * twoTo d.shift
  high := (4 * d.significand + 2) * twoTo d.shift
  closed := d.significand % 2 = 0

namespace Interval

/-- Ten to the positive part of a power. -/
def up (power : Int) : Nat := tenTo power.toNat

/-- The largest multiple of `10 ^ power` that is not above the value, in that unit. -/
def below (i : Interval) (power : Int) : Nat := i.value * up (-power) / (unit * up power)

/-- Whether `digits * 10 ^ power` rounds to the double. -/
def holds (i : Interval) (power : Int) (digits : Nat) : Bool :=
  let point := digits * up power * unit
  let low := i.low * up (-power)
  let high := i.high * up (-power)
  if i.closed then low ≤ point && point ≤ high else low < point && point < high

/-- The multiple of `10 ^ power` nearest to the value, in that unit; of two the even one. -/
def nearest (i : Interval) (power : Int) : Nat :=
  roundToEven (i.value * up (-power)) (unit * up power)

/-- The multiple of `10 ^ power` that rounds to the double, the nearer of two. -/
def pick? (i : Interval) (power : Int) : Option Nat :=
  let below := i.below power
  match i.holds power below, i.holds power (below + 1) with
  | true, true => some (i.nearest power)
  | true, false => some below
  | false, true => some (below + 1)
  | false, false => none

def shortest (i : Interval) : Digits :=
  let first := decade i.value unit
  let found := (List.range 17).findSome? fun (more : Nat) =>
    (i.pick? (first - more)).map fun digits => Digits.normalize digits (first - more)
  found.getD (Digits.normalize (i.nearest (first - 16)) (first - 16))

end Interval

/-- The shortest decimal that reads back as the magnitude of the double. -/
def shortest (d : Double) : Digits :=
  if d.significand = 0 then ⟨0, 0⟩ else d.interval.shortest

end Double

end Screening
