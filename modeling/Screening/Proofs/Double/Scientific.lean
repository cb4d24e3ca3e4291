import Screening.Double.Scientific

/-!
# Where reading decimals is exact

Reading a decimal rounds in up to three steps. Digits below 2 ^ 53 are a double as they are, and so
is a power of ten up to 22, of which the odd part has room in a significand. The only step that is
left to round is then the last one, and the decimal is read as the double nearest to it
(`ofScientific?_eq_nearest`). The next power of ten is no double any more, and with it the reading
can miss the nearest one.
-/

namespace Screening.Double

/-! ## Nearest doubles -/

theorem roundToEven_mul_right (n d : Nat) {k : Nat} (hk : 0 < k) :
    roundToEven (n * k) (d * k) = roundToEven n d := by
  have hcompare : compare (2 * (n * k % (d * k))) (d * k) = compare (2 * (n % d)) d := by
    rw [Nat.mul_mod_mul_right, ← Nat.mul_assoc]
    simp only [Nat.compare_eq_ite_lt, Nat.mul_lt_mul_right hk]
  rw [roundToEven, roundToEven, Nat.mul_div_mul_right n d hk, hcompare]

theorem roundToEven_mul_self (n : Nat) {d : Nat} (hd : 0 < d) : roundToEven (n * d) d = n := by
  have hcompare : compare (2 * (n * d % d)) d = .lt := by
    rw [Nat.mul_mod_left, Nat.mul_zero]
    exact Nat.compare_eq_lt.2 hd
  rw [roundToEven, hcompare]
  exact Nat.mul_div_cancel n hd

/-- The nearest double depends on the quotient alone. -/
theorem ofRatio?_mul_right (negative : Bool) (n d : Nat) {k : Nat} (hk : 0 < k) :
    ofRatio? negative (n * k) (d * k) = ofRatio? negative n d := by
  have hunits : n * k * twoTo 1074 / (d * k) = n * twoTo 1074 / d := by
    rw [Nat.mul_right_comm, Nat.mul_div_mul_right _ d hk]
  rw [ofRatio?, ofRatio?, hunits, Nat.mul_right_comm n, Nat.mul_right_comm d,
    roundToEven_mul_right _ _ hk]

theorem units_ne_zero {d : Double} (hfull : full ≤ d.significand) : d.units ≠ 0 :=
  Nat.ne_of_gt <|
    Nat.mul_pos (Nat.lt_of_lt_of_le (by decide) hfull) (twoTo_pos d.shift)

/-- A double with all bits of its significand tells by its size how far it is shifted. -/
theorem log2_units {d : Double} (hfull : full ≤ d.significand) :
    d.units.log2 = 52 + d.shift := by
  have hne := units_ne_zero hfull
  have hlow : 2 ^ (52 + d.shift) ≤ d.units := by
    rw [Nat.pow_add]
    exact Nat.mul_le_mul_right _ hfull
  have hhigh : d.units < 2 ^ (52 + d.shift + 1) := by
    rw [Nat.add_right_comm, Nat.pow_add]
    exact Nat.mul_lt_mul_of_pos_right d.significand_lt (twoTo_pos d.shift)
  exact Nat.le_antisymm (Nat.le_of_lt_succ ((Nat.log2_lt hne).2 hhigh)) ((Nat.le_log2 hne).2 hlow)

/-- The double nearest to a double is the double itself. -/
theorem ofRatio?_units (d : Double) : ofRatio? d.negative d.units (twoTo 1074) = some d := by
  have hunits : d.units * twoTo 1074 / twoTo 1074 = d.units :=
    Nat.mul_div_cancel _ (twoTo_pos 1074)
  have hshift : (if d.units < bound then 0 else d.units.log2 - 52) = d.shift := by
    rcases d.canonical with hzero | hfull
    · have hlt : d.units < bound := by
        rw [units, hzero]
        exact (Nat.mul_one d.significand).symm ▸ d.significand_lt
      rw [if_pos hlt, hzero]
    · rw [log2_units hfull, Nat.add_sub_cancel_left]
      split
      case isTrue hlt =>
        have hlog : d.units.log2 < 53 := (Nat.log2_lt (units_ne_zero hfull)).2 hlt
        rw [log2_units hfull] at hlog
        omega
      case isFalse => rfl
  have hround : roundToEven (d.units * twoTo 1074) (twoTo 1074 * twoTo d.shift)
      = d.significand := by
    rw [units, Nat.mul_assoc, Nat.mul_comm (twoTo d.shift)]
    exact roundToEven_mul_self _ (Nat.mul_pos (twoTo_pos 1074) (twoTo_pos d.shift))
  have hparts : ofParts? d.negative d.significand d.shift = some d := by
    simp only [ofParts?, if_neg (Nat.ne_of_lt d.significand_lt)]
    exact dif_pos ⟨d.significand_lt, d.shift_le, d.canonical⟩
  rw [ofRatio?, hunits, hshift, hround, hparts]

/-! ## Whole numbers that are doubles -/

/-- A whole number is a double if its digits, but for zeros at the end in binary, have room in a
significand. -/
theorem exists_units_eq (negative : Bool) {n more : Nat} (hn : n < bound)
    (hmore : 1074 + more ≤ maxShift) :
    ∃ d : Double, d.negative = negative ∧ d.units = n * twoTo more * twoTo 1074 := by
  rcases Nat.eq_zero_or_pos n with rfl | hpos
  · exact ⟨.zero negative, rfl, by simp [units, zero]⟩
  · have hne := Nat.ne_of_gt hpos
    have hlog : n.log2 < 53 := (Nat.log2_lt hne).2 hn
    -- As many zeros are put at the end as fill the significand.
    have hlow : full ≤ n * twoTo (52 - n.log2) := by
      have hpow : full = twoTo n.log2 * twoTo (52 - n.log2) := by
        rw [← twoTo_add, Nat.add_sub_cancel' (Nat.le_of_lt_succ hlog)]
        rfl
      rw [hpow]
      exact Nat.mul_le_mul_right _ (Nat.log2_self_le hne)
    have hhigh : n * twoTo (52 - n.log2) < bound := by
      have hpow : bound = twoTo (n.log2 + 1) * twoTo (52 - n.log2) := by
        rw [← twoTo_add, Nat.add_right_comm, Nat.add_sub_cancel' (Nat.le_of_lt_succ hlog)]
        rfl
      rw [hpow]
      exact Nat.mul_lt_mul_of_pos_right Nat.lt_log2_self (twoTo_pos _)
    refine ⟨⟨negative, n * twoTo (52 - n.log2), 1074 + more - (52 - n.log2), hhigh,
      Nat.le_trans (Nat.sub_le _ _) hmore, .inr hlow⟩, rfl, ?_⟩
    have hshift : 52 - n.log2 + (1074 + more - (52 - n.log2)) = more + 1074 := by omega
    rw [units, Nat.mul_assoc, Nat.mul_assoc, ← twoTo_add, ← twoTo_add, hshift]

/-- Digits that have room in a significand are read as they are. -/
theorem exists_ofRatio?_eq (negative : Bool) {n more : Nat} (hn : n < bound)
    (hmore : 1074 + more ≤ maxShift) :
    ∃ d, ofRatio? negative (n * twoTo more) 1 = some d ∧ d.negative = negative ∧
      d.units = n * twoTo more * twoTo 1074 := by
  obtain ⟨d, rfl, hunits⟩ := exists_units_eq negative hn hmore
  refine ⟨d, ?_, rfl, hunits⟩
  rw [← ofRatio?_mul_right d.negative _ 1 (twoTo_pos 1074), ← hunits, Nat.one_mul]
  exact ofRatio?_units d

/-- Powers of ten up to 22 are doubles. -/
theorem exists_powerOfTen? {n : Nat} (hn : n ≤ 22) :
    ∃ p, powerOfTen? n = some p ∧ p.negative = false ∧ p.units = tenTo n * twoTo 1074 := by
  have hodd : 5 ^ n < bound :=
    Nat.lt_of_le_of_lt (Nat.pow_le_pow_right (by decide) hn) (by decide)
  have hten : tenTo n = 5 ^ n * twoTo n := Nat.mul_pow 5 2 n
  obtain ⟨p, hp, hnegative, hunits⟩ := exists_ofRatio?_eq false hodd
    (Nat.le_trans (Nat.add_le_add_left hn 1074) (by decide))
  rw [← hten] at hp hunits
  refine ⟨p, ?_, hnegative, hunits⟩
  rw [powerOfTen?, if_pos (Nat.le_trans hn (by decide)), hp]

/-! ## Reading -/

variable {d : Double} {digits n : Nat}

theorem eq_zero_of_units (hunits : d.units = digits * twoTo 1074) (hzero : d.significand = 0) :
    digits = 0 := by
  rw [units, hzero, Nat.zero_mul] at hunits
  exact (Nat.mul_eq_zero.1 hunits.symm).resolve_right (Nat.ne_of_gt (twoTo_pos 1074))

/-- Where both factors are doubles, multiplying rounds once. -/
theorem timesTenTo?_eq_nearest (hd : ofRatio? d.negative digits 1 = some d)
    (hunits : d.units = digits * twoTo 1074) (hn : n ≤ 22) :
    d.timesTenTo? n = ofRatio? d.negative (digits * tenTo n) 1 := by
  obtain ⟨p, hp, hpositive, hpower⟩ := exists_powerOfTen? hn
  rw [timesTenTo?]
  split
  case isTrue hzero =>
    obtain rfl := eq_zero_of_units hunits hzero
    rw [Nat.zero_mul, hd]
  case isFalse =>
    have hsquare : twoTo 1074 * twoTo 1074 = twoTo 2148 := (twoTo_add 1074 1074).symm
    have hquotient := ofRatio?_mul_right d.negative (digits * tenTo n) 1 (twoTo_pos 2148)
    rw [Nat.one_mul] at hquotient
    rw [hp, Option.bind_eq_bind, Option.bind_some, Double.mul?, hpositive, Bool.bne_false, hunits,
      hpower, Nat.mul_mul_mul_comm, hsquare, hquotient]

/-- Where both are doubles, dividing rounds once. -/
theorem overTenTo?_eq_nearest (hd : ofRatio? d.negative digits 1 = some d)
    (hunits : d.units = digits * twoTo 1074) (hn : n ≤ 22) :
    d.overTenTo? n = ofRatio? d.negative digits (tenTo n) := by
  obtain ⟨p, hp, hpositive, hpower⟩ := exists_powerOfTen? hn
  rw [overTenTo?]
  split
  case isTrue hzero =>
    obtain rfl := eq_zero_of_units hunits hzero
    rw [← hd, ← ofRatio?_mul_right d.negative 0 1 (tenTo_pos n), Nat.zero_mul, Nat.one_mul]
  case isFalse =>
    rw [if_pos (Nat.le_trans hn (by decide)), hp, Option.bind_eq_bind, Option.bind_some,
      Double.div?, hpositive, Bool.bne_false, hunits, hpower,
      ofRatio?_mul_right _ _ _ (twoTo_pos 1074)]

/-- Digits below 2 ^ 53, times or over a power of ten up to 22, are read as the nearest double. -/
theorem ofScientific?_eq_nearest (negative : Bool) (hdigits : digits < bound) (hn : n ≤ 22) :
    ofScientific? negative digits n = ofRatio? negative (digits * tenTo n) 1 ∧
    ofScientific? negative digits (-n) = ofRatio? negative digits (tenTo n) := by
  obtain ⟨d, hd, rfl, hunits⟩ :=
    exists_ofRatio?_eq negative hdigits (show 1074 + 0 ≤ maxShift by decide)
  rw [twoTo_zero, Nat.mul_one] at hd hunits
  have hmul : ofScientific? d.negative digits n = ofRatio? d.negative (digits * tenTo n) 1 := by
    rw [ofScientific?, hd]
    exact timesTenTo?_eq_nearest hd hunits hn
  refine ⟨hmul, ?_⟩
  cases n with
  | zero => rwa [tenTo_zero, Nat.mul_one] at hmul
  | succ n =>
    rw [ofScientific?, hd]
    exact overTenTo?_eq_nearest hd hunits hn

example : ofScientific? false 3 23 ≠ ofRatio? false (3 * tenTo 23) 1 := by decide +kernel

end Screening.Double
