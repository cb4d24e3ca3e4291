import Mathlib.Data.Rat.Cast.Order
import Screening.Decimal.Basic

/-!
# The number that a decimal stands for

A decimal stands for a rational number (`Decimal.toRat`), whatever its scale. The order of decimals
is that of these numbers, and a decimal is whole and without a sign exactly if it stands for a
natural number, unless it is a zero that kept its sign.
-/

namespace Screening.Decimal

def toRat (d : Decimal) : ℚ := d.numerator 0 / tenTo d.scale

theorem tenTo_rat_pos (n : Nat) : (0 : ℚ) < tenTo n := by
  exact_mod_cast tenTo_pos n

theorem numerator_eq (d : Decimal) (more : Nat) :
    d.numerator more = d.numerator 0 * tenTo more := by
  rw [numerator, numerator, tenTo_zero, Nat.cast_one, mul_one]

/-- With more places than its scale, the numerator is the number itself, moved by all of them. -/
theorem numerator_eq_toRat (d : Decimal) (more : Nat) :
    (d.numerator more : ℚ) = d.toRat * tenTo d.scale * tenTo more := by
  rw [numerator_eq, toRat, div_mul_cancel₀ _ (tenTo_rat_pos d.scale).ne']
  push_cast
  rfl

/-- The order of decimals is the order of the numbers that they stand for. -/
theorem compare_eq_lt_iff (a b : Decimal) : compare a b = .lt ↔ a.toRat < b.toRat := by
  have hscale : (0 : ℚ) < tenTo a.scale * tenTo b.scale :=
    mul_pos (tenTo_rat_pos _) (tenTo_rat_pos _)
  have hb : (b.numerator a.scale : ℚ) = b.toRat * (tenTo a.scale * tenTo b.scale) := by
    rw [numerator_eq_toRat, mul_assoc, mul_comm (tenTo b.scale : ℚ)]
  have ha : (a.numerator b.scale : ℚ) = a.toRat * (tenTo a.scale * tenTo b.scale) := by
    rw [numerator_eq_toRat, mul_assoc]
  calc compare a b = .lt
      ↔ a.numerator b.scale < b.numerator a.scale := Int.compare_eq_lt
    _ ↔ (a.numerator b.scale : ℚ) < b.numerator a.scale := Int.cast_lt.symm
    _ ↔ a.toRat < b.toRat := by rw [ha, hb, mul_lt_mul_iff_left₀ hscale]

/-- Decimals are equal if they stand for the same number. -/
theorem beq_iff_toRat_eq (a b : Decimal) : (a == b) = true ↔ a.toRat = b.toRat := by
  have ha := (tenTo_rat_pos a.scale).ne'
  have hb := (tenTo_rat_pos b.scale).ne'
  rw [beq_iff, ← Int.cast_inj (α := ℚ), numerator_eq_toRat, numerator_eq_toRat, mul_right_comm,
    mul_left_inj' ha, mul_left_inj' hb]

theorem isLE_compare_iff (a b : Decimal) : (compare a b).isLE = true ↔ a.toRat ≤ b.toRat := by
  rw [Ordering.isLE_iff_eq_lt_or_eq_eq, compare_eq_lt_iff, compare_eq_iff, beq_iff_toRat_eq,
    le_iff_lt_or_eq]

@[simp] theorem toRat_ofUInt64 (n : UInt64) : (ofUInt64 n).toRat = n.toNat := by
  simp [toRat, numerator, ofUInt64]

/-! ## Whole numbers -/

theorem toRat_eq_natCast_iff {d : Decimal} {n : ℕ} :
    d.toRat = n ↔ d.numerator 0 = n * tenTo d.scale := by
  rw [toRat, div_eq_iff (tenTo_rat_pos d.scale).ne']
  exact_mod_cast Iff.rfl

/-- A number is whole if its digits behind the point are zeros. -/
theorem isWhole_iff {d : Decimal} : d.isWhole = true ↔ ∃ n, d.coefficient = n * tenTo d.scale := by
  rw [isWhole, beq_iff_eq, ← Nat.dvd_iff_mod_eq_zero, dvd_iff_exists_eq_mul_left]

/-- A decimal stands for a natural number if it is whole and has no sign, unless it is a zero that
kept its sign. -/
theorem exists_toRat_eq_natCast_iff {d : Decimal} (hzero : d.coefficient = 0 → d.negative = false) :
    (∃ n : ℕ, d.toRat = n) ↔ d.negative = false ∧ d.isWhole = true := by
  have hnumerator : d.numerator 0 = if d.negative then -(d.coefficient : ℤ) else d.coefficient := by
    rw [numerator, tenTo_zero, Nat.cast_one, mul_one]
  simp only [toRat_eq_natCast_iff, isWhole_iff, hnumerator]
  cases hnegative : d.negative with
  | false =>
    rw [if_neg Bool.false_ne_true]
    constructor
    · rintro ⟨n, hn⟩
      exact ⟨rfl, n, by exact_mod_cast hn⟩
    · rintro ⟨-, n, hn⟩
      exact ⟨n, by exact_mod_cast hn⟩
  | true =>
    rw [if_pos rfl]
    refine ⟨fun ⟨n, hn⟩ ↦ ?_, nofun⟩
    have hnonneg : (0 : ℤ) ≤ n * tenTo d.scale := by exact_mod_cast Nat.zero_le _
    have hcoefficient : d.coefficient = 0 := by omega
    cases hnegative.symm.trans (hzero hcoefficient)

end Screening.Decimal
