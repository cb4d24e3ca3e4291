import Screening.Double.Basic

/-!
# Reading decimals as doubles

A decimal `digits * 10 ^ power` is read quickly rather than exactly: the digits are taken as a
double, the power of ten is, and the two are multiplied or divided. Each of the three steps
rounds. So what is read need not be the double nearest to the decimal: `3e23` is read as the one
below that.

No power of ten above 308 is a double. Where more than that is divided off, it goes in several
steps, of which a few leave nothing.
-/

namespace Screening.Double

/-- The greatest power of ten that is in range. -/
def maxPower : Nat := 308

/-- The double nearest to a power of ten, if that is in range. -/
def powerOfTen? (n : Nat) : Option Double :=
  if n ≤ maxPower then ofRatio? false (tenTo n) 1 else none

def timesTenTo? (d : Double) (n : Nat) : Option Double :=
  if d.significand = 0 then some d else do d.mul? (← powerOfTen? n)

def overTenTo? (d : Double) (n : Nat) : Option Double :=
  if d.significand = 0 then some d
  else if n ≤ maxPower then do d.div? (← powerOfTen? n)
  else do overTenTo? (← d.div? (← powerOfTen? maxPower)) (n - maxPower)
termination_by n
decreasing_by
  rw [maxPower] at *
  omega

/-- The double that `digits * 10 ^ power` is read as, unless it is out of range. -/
def ofScientific? (negative : Bool) (digits : Nat) (power : Int) : Option Double := do
  -- The digits have 64 bits at most, a double only 53, so this rounds already.
  let d ← ofRatio? negative digits 1
  match power with
  | .ofNat n => d.timesTenTo? n
  | .negSucc m => d.overTenTo? (m + 1)

end Screening.Double
