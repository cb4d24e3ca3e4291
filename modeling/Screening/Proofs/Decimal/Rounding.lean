import Mathlib.Data.Rat.Floor
import Screening.Proofs.Json.Amounts

/-!
# Rounding to 28 places

Where a decimal has no room for all the places of a number, it has the nearest number with 28 places,
and of two that are equally near the one away from zero (`Decimal.rounded`). A number that needs no
more than 28 places stays as it is, and rounding keeps the order of numbers. Moving the point of a
decimal is to multiply by a power of ten and to round (`toRat_of_shift?`).
-/

namespace Screening.Decimal

variable {q r : ℚ} {d d' : Decimal} {power : Int}

/-! ## Whole numbers -/

/-- The nearest whole number; of two the one away from zero. -/
def roundAway (q : ℚ) : ℤ := if q < 0 then -⌊-q + 1 / 2⌋ else ⌊q + 1 / 2⌋

theorem roundAway_of_nonneg (h : 0 ≤ q) : roundAway q = ⌊q + 1 / 2⌋ := if_neg h.not_gt

/-- Rounding away from zero is the same on both sides of zero. -/
theorem roundAway_neg (q : ℚ) : roundAway (-q) = -roundAway q := by
  rcases lt_trichotomy q 0 with h | rfl | h
  · have hpos : 0 ≤ -q := by linarith
    rw [roundAway_of_nonneg hpos, roundAway, if_pos h, neg_neg]
  · decide +kernel
  · have hneg : -q < 0 := by linarith
    rw [roundAway_of_nonneg h.le, roundAway, if_pos hneg, neg_neg]

theorem roundAway_intCast (n : ℤ) : roundAway n = n := by
  have hfloor (m : ℤ) : ⌊(m : ℚ) + 1 / 2⌋ = m := by
    rw [Int.floor_intCast_add]
    norm_num
  rw [roundAway]
  split
  · rw [← Int.cast_neg, hfloor, neg_neg]
  · exact hfloor n

theorem roundAway_nonneg (h : 0 ≤ q) : 0 ≤ roundAway q := by
  rw [roundAway_of_nonneg h]
  exact Int.floor_nonneg.2 (by linarith)

theorem roundAway_mono (h : q ≤ r) : roundAway q ≤ roundAway r := by
  rcases lt_or_ge q 0 with hq | hq
  · rcases lt_or_ge r 0 with hr | hr
    · rw [roundAway, roundAway, if_pos hq, if_pos hr]
      exact neg_le_neg (Int.floor_le_floor (by linarith))
    · have hneg : 0 ≤ roundAway (-q) := roundAway_nonneg (by linarith)
      rw [roundAway_neg] at hneg
      have hpos : 0 ≤ roundAway r := roundAway_nonneg hr
      omega
  · rw [roundAway_of_nonneg hq, roundAway_of_nonneg (hq.trans h)]
    exact Int.floor_le_floor (by linarith)

/-- Dropping digits rounds the quotient. -/
theorem roundAway_div_tenTo (n places : ℕ) : roundAway (n / tenTo places) = roundOff n places := by
  have htenTo := tenTo_rat_pos places
  have hquotient : (n : ℚ) / tenTo places + 1 / 2
      = ((2 * n + tenTo places : ℕ) : ℚ) / ((2 * tenTo places : ℕ) : ℚ) := by
    push_cast
    field_simp
  rw [roundAway_of_nonneg (by positivity), hquotient, Rat.floor_natCast_div_natCast, roundOff]
  exact_mod_cast rfl

theorem roundOff_le (n places : ℕ) : roundOff n places ≤ n := by
  have htenTo := tenTo_pos places
  have hn : n ≤ n * tenTo places := Nat.le_mul_of_pos_right n htenTo
  rw [roundOff, ← Nat.lt_succ_iff, Nat.div_lt_iff_lt_mul (by omega)]
  calc 2 * n + tenTo places
      < 2 * (n * tenTo places) + 2 * tenTo places := by omega
    _ = (n + 1) * (2 * tenTo places) := by ring

/-- With the sign put back, taking digits off rounds away from zero on both sides. -/
theorem roundAway_signed (negative : Bool) (n places : ℕ) :
    roundAway ((if negative then -(n : ℚ) else n) / tenTo places)
      = if negative then -(roundOff n places : ℤ) else roundOff n places := by
  cases negative with
  | false => exact roundAway_div_tenTo n places
  | true =>
    rw [if_pos rfl, if_pos rfl, neg_div, roundAway_neg, roundAway_div_tenTo]

/-! ## Numbers with 28 places -/

/-- The nearest number with at most 28 digits after the point; of two the one away from zero. -/
def rounded (q : ℚ) : ℚ := roundAway (q * 10 ^ 28) / 10 ^ 28

/-- A number with no more than 28 places stays as it is. -/
theorem rounded_eq_self {n : ℤ} (h : q * 10 ^ 28 = n) : rounded q = q := by
  rw [rounded, h, roundAway_intCast, ← h, mul_div_cancel_right₀ _ (by norm_num)]

theorem rounded_neg (q : ℚ) : rounded (-q) = -rounded q := by
  rw [rounded, neg_mul, roundAway_neg, Int.cast_neg, neg_div, rounded]

theorem rounded_mono (h : q ≤ r) : rounded q ≤ rounded r := by
  have hscaled : q * 10 ^ 28 ≤ r * 10 ^ 28 := by linarith
  have hround : (roundAway (q * 10 ^ 28) : ℚ) ≤ roundAway (r * 10 ^ 28) := by
    exact_mod_cast roundAway_mono hscaled
  exact div_le_div_of_nonneg_right hround (by norm_num)

theorem tenTo_maxScale_cast : (tenTo maxScale : ℚ) = 10 ^ 28 := by
  norm_num [tenTo, maxScale]

theorem toRat_eq (d : Decimal) :
    d.toRat = (if d.negative then -(d.coefficient : ℚ) else d.coefficient) / tenTo d.scale :=
  toRat_of_ofParts? (ofParts?_eq_some_iff.2 ⟨rfl, rfl, rfl⟩)

/-- No decimal is larger than the greatest coefficient. -/
theorem abs_toRat_le (d : Decimal) : |d.toRat| ≤ maxCoefficient := by
  have htenTo : (1 : ℚ) ≤ tenTo d.scale := by exact_mod_cast tenTo_pos d.scale
  have hsign : |if d.negative then -(d.coefficient : ℚ) else d.coefficient| = d.coefficient := by
    split
    · rw [abs_neg, Nat.abs_cast]
    · exact Nat.abs_cast _
  rw [toRat_eq, abs_div, hsign, Nat.abs_cast]
  calc (d.coefficient : ℚ) / tenTo d.scale
      ≤ d.coefficient := div_le_self (Nat.cast_nonneg _) htenTo
    _ ≤ maxCoefficient := by exact_mod_cast d.coefficient_le

/-- A decimal has no more than 28 places anyway. -/
theorem rounded_toRat (d : Decimal) : rounded d.toRat = d.toRat := by
  have hscale : (10 : ℚ) ^ 28 = tenTo d.scale * tenTo (maxScale - d.scale) := by
    rw [← tenTo_maxScale_cast, ← Nat.cast_mul, ← tenTo_add, Nat.add_sub_cancel' d.scale_le]
  apply rounded_eq_self (n := d.numerator 0 * tenTo (maxScale - d.scale))
  rw [hscale, toRat, ← mul_assoc, div_mul_cancel₀ _ (tenTo_rat_pos _).ne']
  push_cast
  rfl

/-! ## Moving the point -/

/-- A number that is in range stays there when a negative power of ten makes it smaller. -/
theorem exists_ofPower?_neg {n : ℤ} (hn : n.natAbs ≤ maxCoefficient) (places : ℕ) :
    ∃ d, ofPower? n (-(places : ℤ)) = some d := by
  rcases le_or_gt places maxScale with hfits | hlong
  · rw [ofPower?_neg n hfits]
    exact exists_ofParts? _ hn hfits
  · rw [ofPower?_neg_of_lt n hlong]
    refine exists_ofParts? _ ?_ (Nat.le_refl maxScale)
    have hsign : n.sign.natAbs ≤ 1 := by
      rw [Int.natAbs_sign]
      split <;> decide
    calc (n.sign * roundOff n.natAbs (places - maxScale)).natAbs
        = n.sign.natAbs * roundOff n.natAbs (places - maxScale) := by
          rw [Int.natAbs_mul, Int.natAbs_natCast]
      _ ≤ 1 * n.natAbs := Nat.mul_le_mul hsign (roundOff_le _ _)
      _ = n.natAbs := Nat.one_mul _
      _ ≤ maxCoefficient := hn

theorem ten_zpow_of_nonneg (h : 0 ≤ power) : (10 : ℚ) ^ power = tenTo power.toNat := by
  rw [Double.tenTo_cast, Int.toNat_of_nonneg h]

theorem ten_zpow_of_nonpos (h : power ≤ 0) : (10 : ℚ) ^ power = (tenTo (-power).toNat : ℚ)⁻¹ := by
  rw [Double.tenTo_cast, ← zpow_neg, Int.toNat_of_nonneg (by omega), neg_neg]

theorem ten_zpow_negSucc (m : ℕ) : (10 : ℚ) ^ Int.negSucc m = (tenTo (m + 1) : ℚ)⁻¹ := by
  rw [ten_zpow_of_nonpos (Int.negSucc_lt_zero m).le, Int.neg_negSucc, Int.toNat_natCast]

/-- What a power of ten leaves has all the places there are, and the rest is rounded. -/
theorem rounded_div_tenTo (negative : Bool) (n : ℕ) {places : ℕ} (h : maxScale ≤ places) :
    rounded ((if negative then -(n : ℚ) else n) / tenTo places)
      = (if negative then -(roundOff n (places - maxScale) : ℚ) else roundOff n (places - maxScale))
          / tenTo maxScale := by
  have hsplit : (tenTo places : ℚ) = tenTo (places - maxScale) * tenTo maxScale := by
    rw [← Nat.cast_mul, ← tenTo_add, Nat.sub_add_cancel h]
  rw [rounded, ← tenTo_maxScale_cast, hsplit, ← div_div, div_mul_cancel₀ _ (tenTo_rat_pos _).ne',
    roundAway_signed]
  cases negative with
  | false => exact_mod_cast rfl
  | true => exact_mod_cast rfl

/-- Moving the point is to multiply by a power of ten and to round. -/
theorem toRat_of_shift? (h : d.shift? power = some d') :
    d'.toRat = rounded (d.toRat * 10 ^ power) := by
  -- Only where places are dropped there is something to round.
  have hexact (h : d'.toRat = d.toRat * 10 ^ power) :
      d'.toRat = rounded (d.toRat * 10 ^ power) := by
    rw [← h, rounded_toRat]
  revert h
  fun_cases shift? d power
  case case1 n hn =>
    intro h
    apply hexact
    have hscale : (tenTo d.scale : ℚ) = tenTo (d.scale - n) * tenTo n := by
      rw [← Nat.cast_mul, ← tenTo_add, Nat.sub_add_cancel hn]
    rw [toRat_of_ofParts? h, toRat_eq d, Int.ofNat_eq_natCast, ← Double.tenTo_cast, hscale,
      ← div_div, div_mul_cancel₀ _ (tenTo_rat_pos n).ne']
  case case2 =>
    rintro ⟨⟩
  case case3 n hn hsmall =>
    intro h
    apply hexact
    have hpower : (tenTo n : ℚ) = tenTo d.scale * tenTo (n - d.scale) := by
      rw [← Nat.cast_mul, ← tenTo_add, Nat.add_sub_cancel' (Nat.le_of_not_le hn)]
    rw [toRat_of_ofParts? h, toRat_eq d, Int.ofNat_eq_natCast, ← Double.tenTo_cast, hpower,
      ← mul_assoc, div_mul_cancel₀ _ (tenTo_rat_pos _).ne', tenTo_zero, Nat.cast_one, div_one,
      Nat.cast_mul]
    cases d.negative with
    | false => rfl
    | true => exact (neg_mul _ _).symm
  case case4 =>
    rintro ⟨⟩
  case case5 m n hsmall hfits =>
    intro h
    apply hexact
    rw [toRat_of_ofParts? h, toRat_eq d, ten_zpow_negSucc, tenTo_add, Nat.cast_mul, ← div_div,
      div_eq_mul_inv _ (tenTo n : ℚ)]
  case case6 m n hsmall hlong =>
    intro h
    have hplaces : (tenTo d.scale : ℚ) * tenTo (m + 1) = tenTo (d.scale + n) := by
      rw [← Nat.cast_mul, ← tenTo_add]
    rw [toRat_of_ofParts? h, toRat_eq d, ten_zpow_negSucc, ← div_eq_mul_inv, div_div, hplaces,
      rounded_div_tenTo _ _ (Nat.le_of_not_le hlong)]

end Screening.Decimal
