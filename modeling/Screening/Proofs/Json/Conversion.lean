import Screening.Json.Number
import Screening.Proofs.Double.Length

/-!
# Numbers of JSON as decimals

The decimal of a number of JSON comes from its written form. That has no sign before a zero, and a
number with a power of ten starts with a digit that is not zero, of which rounding leaves something.
So a number that converts to zero converts to the zero without a sign.
-/

namespace Screening

/-! ## Moving the point -/

namespace Decimal

variable {d d' : Decimal} {power : Int}

theorem ofParts?_eq_some_iff {negative : Bool} {coefficient scale : Nat} :
    ofParts? negative coefficient scale = some d ↔
      d.negative = negative ∧ d.coefficient = coefficient ∧ d.scale = scale := by
  rw [ofParts?]
  split
  case isTrue h =>
    rw [Option.some_inj]
    constructor
    · rintro rfl
      exact ⟨rfl, rfl, rfl⟩
    · rintro ⟨rfl, rfl, rfl⟩
      rfl
  case isFalse h =>
    refine ⟨nofun, ?_⟩
    rintro ⟨rfl, rfl, rfl⟩
    exact absurd ⟨d.coefficient_le, d.scale_le⟩ h

@[simp] theorem shift?_zero (d : Decimal) : d.shift? 0 = some d := by
  change d.shift? (.ofNat 0) = some d
  rw [shift?, if_pos (Nat.zero_le _), ofParts?_eq_some_iff]
  exact ⟨rfl, rfl, rfl⟩

/-- A number of enough digits does not become zero when some of them are taken off. -/
theorem roundOff_ne_zero {n places : Nat} (h : tenTo places ≤ n) : roundOff n places ≠ 0 := by
  have hpos := tenTo_pos places
  have hone : 1 ≤ roundOff n places := by
    rw [roundOff, Nat.le_div_iff_mul_le (by omega)]
    omega
  omega

/-- Moving the point of a number of at least one leaves a number that is not zero. -/
theorem coefficient_ne_zero_of_shift? (hd : tenTo d.scale ≤ d.coefficient)
    (h : d.shift? power = some d') : d'.coefficient ≠ 0 := by
  have hcoefficient : 0 < d.coefficient := Nat.lt_of_lt_of_le (tenTo_pos _) hd
  revert h
  fun_cases shift? d power
  case case1 | case5 =>
    intro h
    rw [(ofParts?_eq_some_iff.1 h).2.1]
    exact Nat.ne_of_gt hcoefficient
  case case3 =>
    intro h
    rw [(ofParts?_eq_some_iff.1 h).2.1]
    exact Nat.ne_of_gt (Nat.mul_pos hcoefficient (tenTo_pos _))
  case case6 =>
    -- The power is at least -28, so only places after the point are rounded off.
    intro h
    rw [(ofParts?_eq_some_iff.1 h).2.1]
    apply roundOff_ne_zero
    exact Nat.le_trans (tenTo_le_tenTo (by omega)) hd
  all_goals exact nofun

end Decimal

/-! ## Written numbers -/

namespace Json.Number

/-- A number that is written with a power of ten is at least one before the power. -/
theorem power_write_eq_none_or (n : Number) :
    n.write.power = none ∨ tenTo n.write.places ≤ n.write.digits := by
  cases n with
  | integer n lower upper => exact .inl rfl
  | double d =>
    change (writeDouble d).power = none ∨ tenTo (writeDouble d).places ≤ (writeDouble d).digits
    fun_cases writeDouble d
    case case4 hdigits _ => exact .inr (Double.tenTo_le_of_ne_zero hdigits)
    all_goals exact .inl rfl

/-- The decimal of a number has no sign if it is zero. -/
theorem negative_eq_false_of_decimal? {n : Number} {d : Decimal} (h : n.decimal? = some d)
    (hzero : d.coefficient = 0) : d.negative = false := by
  obtain ⟨base, hbase, hshift⟩ := Option.bind_eq_some_iff.1 h
  obtain ⟨hnegative, hcoefficient, hscale⟩ := Decimal.ofParts?_eq_some_iff.1 hbase
  rcases power_write_eq_none_or n with hpower | hone
  · rw [hpower, Option.getD_none, Decimal.shift?_zero] at hshift
    obtain rfl := Option.some.inj hshift
    have hnone : n.write.coefficient = 0 := Int.natAbs_eq_zero.1 (hcoefficient.symm.trans hzero)
    rw [hnegative, hnone]
    rfl
  · refine absurd hzero (Decimal.coefficient_ne_zero_of_shift? ?_ hshift)
    have hdigits : n.write.coefficient.natAbs = n.write.digits := by
      rw [Written.coefficient]
      split
      · exact (Int.natAbs_neg _).trans (Int.natAbs_natCast _)
      · exact Int.natAbs_natCast _
    rwa [hscale, hcoefficient, hdigits]

end Json.Number

end Screening
