import Mathlib.Algebra.Order.Field.Rat
import Mathlib.Algebra.Order.Field.Power
import Mathlib.Algebra.Order.Ring.Abs
import Mathlib.Tactic.NormNum
import Screening.Proofs.Decimal.Value
import Screening.Proofs.Json.Conversion

/-!
# Numbers as amounts and as operands

A number of JSON is made a decimal in two ways: an amount writes its digits out in full, and an
operand reads the number as it is written, perhaps with a power of ten. Both are rounded to 28
places and stand for the same number, but a power of ten below -28 is not read at all. So the
numbers that are amounts are operands, too, except for those other than zero that 28 places cannot
show (`exists_decimal?_of_amount?`, `exists_decimal?_iff`).
-/

namespace Screening

/-! ## Decimals of scaled numbers -/

namespace Decimal

variable {d a : Decimal} {n : Int} {scale : Nat} {power : Int}

theorem toRat_of_ofParts? {negative : Bool} {coefficient : Nat}
    (h : ofParts? negative coefficient scale = some d) :
    d.toRat = (if negative then -(coefficient : ℚ) else coefficient) / tenTo scale := by
  obtain ⟨rfl, rfl, rfl⟩ := ofParts?_eq_some_iff.1 h
  rw [toRat, numerator, tenTo_zero, Nat.cast_one, mul_one]
  cases d.negative <;> simp

theorem toRat_of_ofScaled? (h : ofScaled? n scale = some d) : d.toRat = n / tenTo scale := by
  rw [toRat_of_ofParts? h]
  congr 1
  rcases lt_or_ge n 0 with hn | hn
  · rw [if_pos (decide_eq_true hn), Nat.cast_natAbs, abs_of_neg hn, Int.cast_neg, neg_neg]
  · rw [if_neg (by simpa using hn), Nat.cast_natAbs, abs_of_nonneg hn]

theorem exists_ofParts? (negative : Bool) {coefficient : Nat}
    (hcoefficient : coefficient ≤ maxCoefficient) (hscale : scale ≤ maxScale) :
    ∃ d, ofParts? negative coefficient scale = some d :=
  ⟨_, dif_pos ⟨hcoefficient, hscale⟩⟩

theorem le_of_ofParts? {negative : Bool} {coefficient : Nat}
    (h : ofParts? negative coefficient scale = some d) : coefficient ≤ maxCoefficient := by
  obtain ⟨-, rfl, -⟩ := ofParts?_eq_some_iff.1 h
  exact d.coefficient_le

theorem ofPower?_natCast (n : Int) (more : Nat) :
    ofPower? n (more : Int) = ofScaled? (n * tenTo more) 0 := rfl

/-- A negative power of at most 28 places moves the point and rounds nothing. -/
theorem ofPower?_neg (n : Int) {places : Nat} (h : places ≤ maxScale) :
    ofPower? n (-(places : Int)) = ofScaled? n places := by
  cases places with
  | zero =>
    change ofScaled? (n * 1) 0 = _
    rw [Int.mul_one]
  | succ m => exact if_pos h

/-- A larger number of places is rounded off until 28 are left. -/
theorem ofPower?_neg_of_lt (n : Int) {places : Nat} (h : maxScale < places) :
    ofPower? n (-(places : Int))
      = ofScaled? (n.sign * roundOff n.natAbs (places - maxScale)) maxScale := by
  cases places with
  | zero => cases h
  | succ m => exact if_neg (Nat.not_le_of_lt h)

theorem ofScaled?_mul (n : Int) {factor : Nat} (hfactor : 0 < factor) (scale : Nat) :
    ofScaled? (n * factor) scale = ofParts? (n < 0) (n.natAbs * factor) scale := by
  have hpos : (0 : ℤ) < factor := by exact_mod_cast hfactor
  have hsign : n * factor < 0 ↔ n < 0 :=
    calc n * factor < 0
        ↔ n * factor < 0 * factor := by rw [zero_mul]
      _ ↔ n < 0 := mul_lt_mul_iff_left₀ hpos
  rw [ofScaled?, Int.natAbs_mul, Int.natAbs_natCast, decide_eq_decide.2 hsign]

/-- What is left of a number keeps its sign, which does not matter if nothing is left. -/
theorem exists_ofParts?_of_sign {rest : Nat} (hn : n ≠ 0) (hscale : scale ≤ maxScale)
    (h : ofScaled? (n.sign * rest) scale = some a) :
    ∃ d, ofParts? (n < 0) rest scale = some d ∧ d.toRat = a.toRat := by
  have hrest : (n.sign * (rest : Int)).natAbs = rest := by
    rw [Int.natAbs_mul, Int.natAbs_sign_of_ne_zero hn, Int.natAbs_natCast, Nat.one_mul]
  have hle := le_of_ofParts? h
  rw [hrest] at hle
  obtain ⟨d, hd⟩ := exists_ofParts? (n < 0) hle hscale
  refine ⟨d, hd, ?_⟩
  rw [toRat_of_ofParts? hd, toRat_of_ofScaled? h]
  congr 1
  rcases lt_or_gt_of_ne hn with hneg | hpos
  · simp [hneg, Int.sign_eq_neg_one_of_neg hneg]
  · simp [hpos.le, Int.sign_eq_one_of_pos hpos]

/-- A power of ten below -28 is too small. -/
theorem shift?_eq_none (d : Decimal) (h : power < -28) : d.shift? power = none := by
  cases power with
  | ofNat k =>
    rw [Int.ofNat_eq_natCast] at h
    omega
  | negSucc m =>
    have hlarge : maxScale < m + 1 := by
      rw [maxScale]
      omega
    exact if_pos hlarge

/-- Moving the point of a number other than zero leads to the same number as writing all of its
places out. -/
theorem exists_shift?_of_ofPower? (hn : n ≠ 0) (hd : ofScaled? n scale = some d)
    (hlow : -28 ≤ power) (hhigh : power ≤ scale ∨ power ≤ 28)
    (h : ofPower? n (power - scale) = some a) :
    ∃ d', d.shift? power = some d' ∧ d'.toRat = a.toRat := by
  obtain ⟨hnegative, hcoefficient, hscale⟩ := ofParts?_eq_some_iff.1 hd
  revert hlow hhigh h
  fun_cases shift? d power
  case case1 k hk =>
    intro _ _ h
    have hpower : (Int.ofNat k - scale : Int) = -((d.scale - k : Nat) : Int) := by
      rw [Int.ofNat_eq_natCast]
      omega
    -- The power takes places away, and what is left of them is in range.
    rw [hpower, ofPower?_neg n (Nat.le_trans (Nat.sub_le _ _) d.scale_le), ofScaled?,
      ← hnegative, ← hcoefficient] at h
    exact ⟨a, h, rfl⟩
  case case2 k hk hlarge =>
    intro _ hhigh _
    rw [Int.ofNat_eq_natCast] at hhigh
    rw [maxScale] at hlarge
    omega
  case case3 k hk hlarge =>
    intro _ _ h
    have hpower : (Int.ofNat k - scale : Int) = ((k - d.scale : Nat) : Int) := by
      rw [Int.ofNat_eq_natCast]
      omega
    -- The power goes beyond the places: zeros are put at the end.
    rw [hpower, ofPower?_natCast, ofScaled?_mul n (tenTo_pos _), ← hnegative,
      ← hcoefficient] at h
    exact ⟨a, h, rfl⟩
  case case4 m places hlarge =>
    intro hlow _ _
    rw [maxScale] at hlarge
    omega
  case case5 m places hsmall hfits =>
    intro _ _ h
    have hpower : (Int.negSucc m - scale : Int) = -((d.scale + places : Nat) : Int) := by omega
    rw [hpower, ofPower?_neg n hfits, ofScaled?, ← hnegative, ← hcoefficient] at h
    exact ⟨a, h, rfl⟩
  case case6 m places hsmall hlong =>
    intro _ _ h
    have hpower : (Int.negSucc m - scale : Int) = -((d.scale + places : Nat) : Int) := by omega
    -- Places beyond the 28th are rounded off, by the same number of places on both sides.
    rw [hpower, ofPower?_neg_of_lt n (Nat.lt_of_not_le hlong), ← hcoefficient] at h
    rw [hnegative]
    exact exists_ofParts?_of_sign hn (Nat.le_refl maxScale) h

end Decimal

/-! ## Doubles in decimal -/

namespace Double

theorem ten_zpow_pos (power : Int) : (0 : ℚ) < 10 ^ power := zpow_pos (by norm_num) power

theorem tenTo_cast (n : Nat) : (tenTo n : ℚ) = 10 ^ (n : ℤ) := by
  rw [zpow_natCast, tenTo]
  exact_mod_cast rfl

/-- The shortest decimal of a double has at most 18 digits. -/
theorem length_digits_le (d : Double) : decimalLength d.shortest.digits ≤ 18 :=
  length_le_of_lt (Nat.lt_of_le_of_lt d.digits_shortest_le (by decide)) (by decide)

theorem leading_sub_length (d : Double) :
    d.shortest.leading - (decimalLength d.shortest.digits - 1 : Nat) = d.shortest.power := by
  have := length_pos d.shortest.digits
  rw [Digits.leading]
  omega

/-- The digits of the shortest decimal, with the sign of the double. -/
def signedDigits (d : Double) : Int := if d.negative then -d.shortest.digits else d.shortest.digits

theorem natAbs_signedDigits (d : Double) : d.signedDigits.natAbs = d.shortest.digits := by
  rw [signedDigits]
  split <;> simp

theorem signedDigits_eq_zero_iff (d : Double) : d.signedDigits = 0 ↔ d.shortest.digits = 0 := by
  rw [← Int.natAbs_eq_zero, natAbs_signedDigits]

def toRat (d : Double) : ℚ := d.signedDigits * 10 ^ d.shortest.power

theorem abs_toRat (d : Double) : |d.toRat| = d.shortest.digits * 10 ^ d.shortest.power := by
  rw [toRat, abs_mul, abs_of_pos (ten_zpow_pos _), ← Int.cast_abs, Int.abs_eq_natAbs,
    natAbs_signedDigits, Int.cast_natCast]

/-- The power of ten of the first digit tells the size of a double. -/
theorem leading_bounds (d : Double) (hdigits : d.shortest.digits ≠ 0) :
    (10 : ℚ) ^ d.shortest.leading ≤ |d.toRat| ∧ |d.toRat| < 10 ^ (d.shortest.leading + 1) := by
  have hpower := ten_zpow_pos d.shortest.power
  have hlength := length_pos d.shortest.digits
  have hleading : d.shortest.leading
      = ((decimalLength d.shortest.digits - 1 : Nat) : ℤ) + d.shortest.power := by
    rw [Digits.leading]
    omega
  have hnext : d.shortest.leading + 1
      = (decimalLength d.shortest.digits : ℤ) + d.shortest.power := by
    rw [Digits.leading]
    omega
  rw [abs_toRat, hnext, hleading, zpow_add₀ (by norm_num), zpow_add₀ (by norm_num), ← tenTo_cast,
    ← tenTo_cast]
  constructor
  · exact mul_le_mul_of_nonneg_right (by exact_mod_cast tenTo_le_of_ne_zero hdigits) hpower.le
  · exact mul_lt_mul_of_pos_right (by exact_mod_cast lt_tenTo_decimalLength _) hpower

end Double

/-! ## Numbers of JSON -/

namespace Json

/-- Without a power of ten the decimal of a number in writing is that of its digits. -/
theorem Written.decimal?_of_power_eq_none {w : Written} (h : w.power = none) :
    w.decimal? = Decimal.ofScaled? w.coefficient w.places := by
  rw [decimal?, h]
  cases hbase : Decimal.ofScaled? w.coefficient w.places with
  | none => rfl
  | some base => exact Decimal.shift?_zero base

namespace Number

variable {n : Number} {d : Double} {a : Decimal}

def toRat : Number → ℚ
  | .integer n _ _ => n
  | .double d => d.toRat

/-- The least number above zero that 28 places can show. -/
def leastShown : ℚ := 10 ^ (-28 : ℤ)

/-- Whether 28 places can show a double is told by its shortest decimal. -/
theorem leastShown_le_of_shortest {digits : ℕ} {power : ℤ}
    (hshortest : d.shortest = ⟨digits, power⟩) (h : leastShown ≤ digits * 10 ^ power) :
    leastShown ≤ |(Number.double d).toRat| := by
  change leastShown ≤ |d.toRat|
  rwa [Double.abs_toRat, hshortest]

/-- A double that 28 places can show has its first digit at one of them, or before the point. -/
theorem neg28_le_leading (hdigits : d.shortest.digits ≠ 0) (h : leastShown ≤ |d.toRat|) :
    -28 ≤ d.shortest.leading := by
  have hlt : (10 : ℚ) ^ (-28 : ℤ) < 10 ^ (d.shortest.leading + 1) :=
    h.trans_lt (d.leading_bounds hdigits).2
  rw [zpow_lt_zpow_iff_right₀ (by norm_num)] at hlt
  omega

/-- The whole number that an amount writes out in full is in range. -/
theorem leading_le_of_ofPower? (hdigits : d.shortest.digits ≠ 0)
    (h : Decimal.ofPower? d.signedDigits d.shortest.power = some a)
    (hpower : 0 ≤ d.shortest.power) : d.shortest.leading ≤ 28 := by
  obtain ⟨more, hmore⟩ := Int.eq_ofNat_of_zero_le hpower
  rw [hmore, Decimal.ofPower?_natCast, Decimal.ofScaled?_mul _ (tenTo_pos _),
    Double.natAbs_signedDigits] at h
  have hle :
      tenTo (Double.decimalLength d.shortest.digits - 1 + more) ≤ Decimal.maxCoefficient := by
    rw [tenTo_add]
    exact (Nat.mul_le_mul_right _ (Double.tenTo_le_of_ne_zero hdigits)).trans
      (Decimal.le_of_ofParts? h)
  have hlt : Double.decimalLength d.shortest.digits - 1 + more < 29 := by
    by_contra hge
    exact absurd ((tenTo_le_tenTo (Nat.le_of_not_lt hge)).trans hle) (by decide)
  rw [Digits.leading]
  omega

/-- A whole number is written with its own sign. -/
theorem coefficient_integer (n : Int) : Written.coefficient ⟨n < 0, n.natAbs, 0, none⟩ = n := by
  simp only [Written.coefficient, decide_eq_true_eq]
  split <;> omega

theorem coefficient_zero (negative : Bool) (places : Nat) :
    Written.coefficient ⟨negative, 0, places, none⟩ = 0 := by
  cases negative <;> rfl

/-- The sign belongs to the whole coefficient, zeros at its end included. -/
theorem coefficient_signed (negative : Bool) (digits factor places : Nat) (power : Option Int) :
    Written.coefficient ⟨negative, digits * factor, places, power⟩
      = (if negative then -(digits : Int) else digits) * factor := by
  rw [Written.coefficient]
  cases negative <;> simp

/-- The digits of the shortest decimal are always in range of a coefficient. -/
theorem digits_le (d : Double) : d.shortest.digits ≤ Decimal.maxCoefficient :=
  d.digits_shortest_le.trans (by decide)

/-- A number without a power of ten has few places. -/
theorem places_le (hleading : -5 ≤ d.shortest.leading) :
    (-d.shortest.power).toNat ≤ Decimal.maxScale := by
  have hlength := d.length_digits_le
  rw [Digits.leading] at hleading
  rw [Decimal.maxScale]
  omega

/-- The digits after the first one have few places. -/
theorem length_sub_one_le (d : Double) :
    Double.decimalLength d.shortest.digits - 1 ≤ Decimal.maxScale := by
  have hlength := d.length_digits_le
  rw [Decimal.maxScale]
  omega

/-- The digits of a whole number without a power of ten are few, with its zeros, too. -/
theorem digits_mul_tenTo_le (hleading : d.shortest.leading ≤ 15) (hpower : 0 ≤ d.shortest.power) :
    d.shortest.digits * tenTo (d.shortest.power.toNat + 1) ≤ Decimal.maxCoefficient := by
  have hlength : Double.decimalLength d.shortest.digits + (d.shortest.power.toNat + 1) ≤ 17 := by
    rw [Digits.leading] at hleading
    omega
  calc d.shortest.digits * tenTo (d.shortest.power.toNat + 1)
      ≤ tenTo (Double.decimalLength d.shortest.digits) * tenTo (d.shortest.power.toNat + 1) :=
        Nat.mul_le_mul_right _ (Double.lt_tenTo_decimalLength _).le
    _ = tenTo (Double.decimalLength d.shortest.digits + (d.shortest.power.toNat + 1)) :=
        (tenTo_add _ _).symm
    _ ≤ tenTo 17 := tenTo_le_tenTo hlength
    _ ≤ Decimal.maxCoefficient := by decide

/-- A number without a power of ten is small enough to be written out. -/
theorem exists_decimal?_whole (hleading : d.shortest.leading ≤ 15) (hpower : 0 ≤ d.shortest.power)
    (h : Decimal.ofPower? d.signedDigits d.shortest.power = some a) :
    ∃ d', Decimal.ofScaled? (d.signedDigits * tenTo (d.shortest.power.toNat + 1)) 1 = some d' ∧
      d'.toRat = a.toRat := by
  have hle := digits_mul_tenTo_le hleading hpower
  obtain ⟨more, hmore⟩ := Int.eq_ofNat_of_zero_le hpower
  rw [hmore] at h hle ⊢
  rw [Int.toNat_natCast] at hle ⊢
  obtain ⟨d', hd'⟩ := Decimal.exists_ofParts? (d.signedDigits < 0) hle
    (by decide : 1 ≤ Decimal.maxScale)
  rw [← Double.natAbs_signedDigits, ← Decimal.ofScaled?_mul _ (tenTo_pos _)] at hd'
  refine ⟨d', hd', ?_⟩
  have hten : ((tenTo 1 : ℕ) : ℚ) = 10 := rfl
  rw [Decimal.toRat_of_ofScaled? hd', Decimal.toRat_of_ofScaled? h, tenTo_succ, tenTo_zero, hten]
  push_cast
  rw [div_one, ← mul_assoc, mul_div_cancel_right₀ _ (by norm_num)]

/-- What is zero can be both. -/
theorem toRat_eq_zero_of_ofPower? {power : Int} (h : Decimal.ofPower? 0 power = some a) :
    a.toRat = 0 := by
  revert h
  fun_cases Decimal.ofPower? 0 power <;>
    · intro h
      simp [Decimal.toRat_of_ofScaled? h]

def scientific (d : Double) : Written :=
  ⟨d.negative, d.shortest.digits, Double.decimalLength d.shortest.digits - 1,
    some d.shortest.leading⟩

/-- The digits of a number with a power of ten are in range before the power moves their point. -/
theorem exists_decimal?_scientific_eq (d : Double) :
    ∃ base, Decimal.ofScaled? d.signedDigits (Double.decimalLength d.shortest.digits - 1)
        = some base ∧
      (scientific d).decimal? = base.shift? d.shortest.leading := by
  obtain ⟨base, hbase⟩ : ∃ base, Decimal.ofScaled? d.signedDigits
      (Double.decimalLength d.shortest.digits - 1) = some base := by
    rw [Decimal.ofScaled?, Double.natAbs_signedDigits]
    exact Decimal.exists_ofParts? _ (digits_le d) (length_sub_one_le d)
  refine ⟨base, hbase, ?_⟩
  change (Decimal.ofScaled? d.signedDigits (Double.decimalLength d.shortest.digits - 1)).bind
    (·.shift? d.shortest.leading) = _
  rw [hbase]
  rfl

/-- A number with a power of ten can be an operand unless 28 places cannot show it. -/
theorem exists_decimal?_scientific (hdigits : d.shortest.digits ≠ 0) (hn : leastShown ≤ |d.toRat|)
    (h : Decimal.ofPower? d.signedDigits d.shortest.power = some a) :
    ∃ d', (scientific d).decimal? = some d' ∧ d'.toRat = a.toRat := by
  have hsigned : d.signedDigits ≠ 0 := mt d.signedDigits_eq_zero_iff.1 hdigits
  have hhigh : d.shortest.leading ≤ (Double.decimalLength d.shortest.digits - 1 : Nat) ∨
      d.shortest.leading ≤ 28 := by
    rcases lt_or_ge d.shortest.power 0 with hneg | hnonneg
    · have := d.leading_sub_length
      left
      omega
    · exact .inr (leading_le_of_ofPower? hdigits h hnonneg)
  obtain ⟨base, hbase, hdecimal⟩ := exists_decimal?_scientific_eq d
  rw [← d.leading_sub_length] at h
  rw [hdecimal]
  exact Decimal.exists_shift?_of_ofPower? hsigned hbase (neg28_le_leading hdigits hn) hhigh h

/-- What a double is written as is read back as the value of its shortest decimal. -/
theorem exists_decimal?_double (hn : d.shortest.digits = 0 ∨ leastShown ≤ |d.toRat|)
    (h : Decimal.ofPower? d.signedDigits d.shortest.power = some a) :
    ∃ d', (writeDouble d).decimal? = some d' ∧ d'.toRat = a.toRat := by
  fun_cases writeDouble d
  case case1 s hdigits =>
    have hsigned : d.signedDigits = 0 := d.signedDigits_eq_zero_iff.2 hdigits
    rw [hsigned] at h
    obtain ⟨d', hd'⟩ : ∃ d', Decimal.ofScaled? 0 1 = some d' := ⟨_, rfl⟩
    rw [Written.decimal?_of_power_eq_none rfl, coefficient_zero, toRat_eq_zero_of_ofPower? h]
    exact ⟨d', hd', by simp [Decimal.toRat_of_ofScaled? hd']⟩
  case case2 s hdigits hplain hpower =>
    subst s
    have hplaces : d.shortest.power = -((-d.shortest.power).toNat : Int) := by omega
    rw [hplaces, Decimal.ofPower?_neg _ (places_le hplain.1)] at h
    rw [Written.decimal?_of_power_eq_none rfl]
    exact ⟨a, h, rfl⟩
  case case3 s hdigits hplain hpower =>
    rw [Written.decimal?_of_power_eq_none rfl, coefficient_signed]
    exact exists_decimal?_whole hplain.2 (not_lt.1 hpower) h
  case case4 s hdigits hplain =>
    exact exists_decimal?_scientific hdigits (hn.resolve_left hdigits) h

/-- A number that can be an amount can be an operand, unless 28 places cannot show it, and stands
for the same number. -/
theorem exists_decimal?_of_amount? (hn : n.toRat = 0 ∨ leastShown ≤ |n.toRat|)
    (h : n.amount? = some a) : ∃ d, n.decimal? = some d ∧ d.toRat = a.toRat := by
  cases n with
  | integer n lower upper =>
    refine ⟨a, ?_, rfl⟩
    rw [decimal?, write, Written.decimal?_of_power_eq_none rfl, coefficient_integer]
    exact h
  | double d =>
    refine exists_decimal?_double (hn.imp_left fun hzero ↦ ?_) h
    have hsigned := (mul_eq_zero.1 hzero).resolve_right (Double.ten_zpow_pos _).ne'
    exact d.signedDigits_eq_zero_iff.1 (by exact_mod_cast hsigned)

/-- A number other than zero that 28 places cannot show is no operand. -/
theorem decimal?_eq_none (hzero : n.toRat ≠ 0) (hsmall : |n.toRat| < leastShown) :
    n.decimal? = none := by
  cases n with
  | integer n lower upper =>
    have hone : (1 : ℚ) ≤ |(n : ℚ)| := by
      have hn : n ≠ 0 := by
        rintro rfl
        exact hzero rfl
      exact_mod_cast Int.one_le_abs hn
    have hleast : leastShown < 1 := zpow_lt_one_of_neg₀ (by norm_num) (by norm_num)
    exact absurd (hone.trans_lt hsmall) hleast.le.not_gt
  | double d =>
    have hdigits : d.shortest.digits ≠ 0 := by
      intro hdigits
      refine hzero ?_
      change d.toRat = 0
      rw [← abs_eq_zero, Double.abs_toRat, hdigits, Nat.cast_zero, zero_mul]
    have hleading : d.shortest.leading < -28 := by
      have hlt := (d.leading_bounds hdigits).1.trans_lt hsmall
      rwa [leastShown, zpow_lt_zpow_iff_right₀ (by norm_num)] at hlt
    have hscientific : ¬ (-5 ≤ d.shortest.leading ∧ d.shortest.leading ≤ 15) := by omega
    obtain ⟨base, -, hdecimal⟩ := exists_decimal?_scientific_eq d
    change (writeDouble d).decimal? = none
    rw [writeDouble, if_neg hdigits, if_neg hscientific]
    exact hdecimal.trans (Decimal.shift?_eq_none base hleading)

/-- Of the numbers that can be amounts, those can be operands that are zero or that 28 places can
show. -/
theorem exists_decimal?_iff (h : n.amount? = some a) :
    (∃ d, n.decimal? = some d) ↔ n.toRat = 0 ∨ leastShown ≤ |n.toRat| := by
  constructor
  · rintro ⟨d, hd⟩
    by_contra hnot
    obtain ⟨hzero, hsmall⟩ := not_or.1 hnot
    cases hd.symm.trans (decimal?_eq_none hzero (not_le.1 hsmall))
  · intro hn
    obtain ⟨d, hd, -⟩ := exists_decimal?_of_amount? hn h
    exact ⟨d, hd⟩

end Number

end Json

end Screening
