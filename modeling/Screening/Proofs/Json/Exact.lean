import Mathlib.Data.List.TakeDrop
import Screening.Proofs.Decimal.Rounding
import Screening.Proofs.Decimal.Text
import Screening.Value.Basic

/-!
# Numbers convert exactly

The decimal of a number of JSON is the one that is read from its text (`ofString?_render`), and
stands for the number that the text shows, rounded to 28 places. There is no decimal exactly if the
number is too large for 96 bits, or is not zero but too small for 28 places to show
(`Number.exists_decimal?_iff_inRange`). What needs no more than 28 places is not rounded, what is not
zero does not become zero, and no two numbers change places.
-/

namespace Screening

namespace Json

namespace Written

variable {w : Written}

/-! ## Reading what is written -/

/-- The digits of a number with their point and their sign. -/
def baseText (w : Written) : List Char :=
  Decimal.signText w.negative ++ Decimal.placePoint w.digits w.places

theorem toList_render (w : Written) :
    w.render.toList
      = match w.power with
        | none => w.baseText
        | some power => w.baseText ++ 'e' :: Decimal.powerText power := by
  rw [render, String.toList_append, String.toList_ofList]
  cases w.power with
  | none => exact List.append_nil _
  | some power =>
    dsimp only
    rw [String.toList_append, Decimal.powerText, baseText, Decimal.signText]
    rcases lt_or_ge power 0 with hneg | hnonneg
    · rw [if_pos hneg, if_pos hneg]
      rfl
    · rw [if_neg hnonneg.not_gt, if_neg hnonneg.not_gt]
      rfl

theorem plain?_baseText_append (w : Written) (more : List Char) :
    Decimal.plain? (w.baseText ++ more)
      = (Decimal.magnitude? (Decimal.placePoint w.digits w.places ++ more)).bind fun m ↦
          Decimal.ofScaled? (if w.negative then -m.coefficient else m.coefficient) m.scale := by
  obtain ⟨c, cs, htext, hdigit⟩ := (Decimal.Shown.ofParts w.digits w.places).exists_digit_cons
  rw [Decimal.Shown.text_ofParts] at htext
  rw [baseText, htext, List.append_assoc, List.cons_append]
  exact Decimal.plain?_signText w.negative hdigit

theorem plain?_baseText (hdigits : w.digits ≤ Decimal.maxCoefficient)
    (hplaces : w.places ≤ Decimal.maxScale) :
    Decimal.plain? w.baseText = Decimal.ofScaled? w.coefficient w.places := by
  have hread := w.plain?_baseText_append []
  rw [List.append_nil, List.append_nil, ← Decimal.Shown.text_ofParts,
    Decimal.Shown.magnitude?_text _ hdigits hplaces] at hread
  exact hread

/-- A number with a power is no plain number, so it is read as a scientific one. -/
theorem plain?_power (hdigits : w.digits ≤ Decimal.maxCoefficient)
    (hplaces : w.places ≤ Decimal.maxScale) (power : List Char) :
    Decimal.plain? (w.baseText ++ 'e' :: power) = none := by
  rw [plain?_baseText_append, ← Decimal.Shown.text_ofParts,
    Decimal.Shown.magnitude?_power _ hdigits hplaces]
  rfl

/-- The first mark of an exponent is the one that was written. -/
theorem span_baseText (w : Written) (power : List Char) :
    (w.baseText ++ 'e' :: power).span (!Decimal.marksExponent ·) = (w.baseText, 'e' :: power) := by
  have hbase : ∀ c ∈ w.baseText, (!Decimal.marksExponent c) = true := by
    intro c hc
    rw [Bool.not_eq_true']
    rcases List.mem_append.1 hc with hsign | hdigits
    · rw [Decimal.signText] at hsign
      split at hsign
      · rw [List.mem_singleton.1 hsign]
        rfl
      · cases hsign
    · exact (Decimal.Shown.ofParts w.digits w.places).marksExponent_eq_false hdigits
  rw [List.span_eq_takeWhile_dropWhile, List.takeWhile_append_of_pos hbase,
    List.dropWhile_append_of_pos hbase]
  simp [Decimal.marksExponent]

/-- A number in writing is read as the decimal that it stands for. -/
theorem ofString?_render (hdigits : w.digits ≤ Decimal.maxCoefficient)
    (hplaces : w.places ≤ Decimal.maxScale) : Decimal.ofString? w.render = w.decimal? := by
  obtain ⟨base, hbase⟩ : ∃ base, Decimal.ofScaled? w.coefficient w.places = some base := by
    refine Decimal.exists_ofParts? _ ?_ hplaces
    rw [coefficient]
    split <;> omega
  have hread := plain?_baseText hdigits hplaces
  rw [hbase] at hread
  rw [Decimal.ofString?, toList_render, decimal?, hbase, Option.bind_some]
  cases w.power with
  | none =>
    dsimp only
    rw [hread, Option.getD_none, Decimal.shift?_zero]
    rfl
  | some power =>
    dsimp only
    rw [plain?_power hdigits hplaces, Decimal.scientific?, span_baseText]
    dsimp only
    rw [hread, Decimal.exponent?_powerText]
    rfl

/-! ## The number in writing -/

def toRat (w : Written) : ℚ := w.coefficient / tenTo w.places * 10 ^ w.power.getD 0

/-- The decimal stands for the number that the text shows, rounded to 28 places. -/
theorem toRat_of_decimal? {d : Decimal} (h : w.decimal? = some d) :
    d.toRat = Decimal.rounded w.toRat := by
  obtain ⟨base, hbase, hshift⟩ := Option.bind_eq_some_iff.1 h
  rw [Decimal.toRat_of_shift? hshift, Decimal.toRat_of_ofScaled? hbase, toRat]

end Written

namespace Number

variable {n : Number} {d : Double} {a : Decimal}

/-- A double is written as its own value. -/
theorem toRat_writeDouble (d : Double) : (writeDouble d).toRat = d.toRat := by
  fun_cases writeDouble d
  case case1 s hdigits =>
    have hsigned : d.signedDigits = 0 := d.signedDigits_eq_zero_iff.2 hdigits
    rw [Written.toRat, coefficient_zero, Double.toRat, hsigned]
    simp
  case case2 s hdigits hplain hpower =>
    subst s
    rw [Written.toRat, Double.toRat, Option.getD_none, zpow_zero, mul_one,
      Decimal.ten_zpow_of_nonpos hpower.le, ← div_eq_mul_inv]
    rfl
  case case3 s hdigits hplain hpower =>
    subst s
    have hten : ((tenTo 1 : ℕ) : ℚ) = 10 := rfl
    rw [Written.toRat, Double.toRat, coefficient_signed, ← Double.signedDigits, Option.getD_none,
      zpow_zero, mul_one, tenTo_succ, hten, Decimal.ten_zpow_of_nonneg (not_lt.1 hpower)]
    push_cast
    rw [← mul_assoc, mul_div_cancel_right₀ _ (by norm_num)]
  case case4 s hdigits hplain =>
    subst s
    rw [Written.toRat, Double.toRat, ← d.leading_sub_length, zpow_sub₀ (by norm_num),
      ← Double.tenTo_cast, Option.getD_some, div_mul_eq_mul_div, mul_div_assoc]
    rfl

/-- The text of a number shows the number. -/
theorem toRat_write (n : Number) : n.write.toRat = n.toRat := by
  cases n with
  | integer n lower upper =>
    rw [write, Written.toRat, coefficient_integer, tenTo_zero, Nat.cast_one, div_one,
      Option.getD_none, zpow_zero, mul_one]
    rfl
  | double d => exact toRat_writeDouble d

/-- What is written has few enough digits and places for a decimal. -/
theorem write_in_range (n : Number) :
    n.write.digits ≤ Decimal.maxCoefficient ∧ n.write.places ≤ Decimal.maxScale := by
  cases n with
  | integer n lower upper =>
    refine ⟨?_, Nat.zero_le _⟩
    change n.natAbs ≤ Decimal.maxCoefficient
    simp only [minInteger, maxInteger, Decimal.maxCoefficient] at *
    omega
  | double d =>
    have hplace : 1 ≤ Decimal.maxScale := by decide
    change (writeDouble d).digits ≤ _ ∧ (writeDouble d).places ≤ _
    fun_cases writeDouble d
    case case1 => exact ⟨Nat.zero_le _, hplace⟩
    case case2 s _ hplain _ => exact ⟨digits_le d, places_le hplain.1⟩
    case case3 s _ hplain hpower =>
      exact ⟨digits_mul_tenTo_le hplain.2 (not_lt.1 hpower), hplace⟩
    case case4 s _ _ => exact ⟨digits_le d, length_sub_one_le d⟩

/-- A number is the decimal that is read from its text. -/
theorem ofString?_render (n : Number) : Decimal.ofString? n.render = n.decimal? :=
  Written.ofString?_render n.write_in_range.1 n.write_in_range.2

/-- A number means its value, rounded to 28 places. -/
theorem toRat_of_decimal? (h : n.decimal? = some a) : a.toRat = Decimal.rounded n.toRat := by
  rw [← n.toRat_write]
  exact Written.toRat_of_decimal? h

/-! ## The range of decimals -/

/-- A number that is not whole has few digits before the point. -/
theorem exists_toRat_eq_or_le (n : Number) :
    (∃ k : ℤ, n.toRat = k) ∨ |n.toRat| ≤ Decimal.maxCoefficient := by
  cases n with
  | integer n lower upper => exact .inl ⟨n, rfl⟩
  | double d =>
    change (∃ k : ℤ, d.toRat = k) ∨ |d.toRat| ≤ Decimal.maxCoefficient
    rcases le_or_gt 0 d.shortest.power with hnonneg | hneg
    · left
      refine ⟨d.signedDigits * tenTo d.shortest.power.toNat, ?_⟩
      rw [Double.toRat, Decimal.ten_zpow_of_nonneg hnonneg]
      push_cast
      rfl
    · right
      have hsmall : (10 : ℚ) ^ d.shortest.power ≤ 1 := zpow_le_one_of_nonpos₀ (by norm_num) hneg.le
      rw [Double.abs_toRat]
      calc (d.shortest.digits : ℚ) * 10 ^ d.shortest.power
          ≤ d.shortest.digits := mul_le_of_le_one_right (Nat.cast_nonneg _) hsmall
        _ ≤ Decimal.maxCoefficient := by exact_mod_cast digits_le d

/-- A number that has a decimal is not too large for 96 bits. -/
theorem abs_toRat_le_of_decimal? (h : n.decimal? = some a) :
    |n.toRat| ≤ Decimal.maxCoefficient := by
  rcases n.exists_toRat_eq_or_le with ⟨k, hk⟩ | hle
  · -- A whole number is not rounded.
    have hexact : a.toRat = n.toRat := by
      rw [toRat_of_decimal? h]
      apply Decimal.rounded_eq_self (n := k * 10 ^ 28)
      rw [hk]
      push_cast
      rfl
    rw [← hexact]
    exact a.abs_toRat_le
  · exact hle

/-- The digits of a double written out in full are in range if the number is. -/
theorem exists_ofPower?_of_le (h : |d.toRat| ≤ Decimal.maxCoefficient) :
    ∃ a, Decimal.ofPower? d.signedDigits d.shortest.power = some a := by
  rcases le_or_gt 0 d.shortest.power with hnonneg | hneg
  · rw [Double.abs_toRat, Decimal.ten_zpow_of_nonneg hnonneg, ← Double.natAbs_signedDigits] at h
    rw [← Int.toNat_of_nonneg hnonneg, Decimal.ofPower?_natCast,
      Decimal.ofScaled?_mul _ (tenTo_pos _)]
    exact Decimal.exists_ofParts? _ (by exact_mod_cast h) (Nat.zero_le _)
  · have hdigits : d.signedDigits.natAbs ≤ Decimal.maxCoefficient := by
      rw [Double.natAbs_signedDigits]
      exact digits_le d
    have hpower : d.shortest.power = -((-d.shortest.power).toNat : ℤ) := by omega
    rw [hpower]
    exact Decimal.exists_ofPower?_neg hdigits _

/-- A number whose size is at most the greatest coefficient means an amount of money. -/
theorem exists_amount?_of_le (h : |n.toRat| ≤ Decimal.maxCoefficient) :
    ∃ a, n.amount? = some a := by
  cases n with
  | integer n lower upper =>
    refine Decimal.exists_ofParts? _ ?_ (Nat.zero_le _)
    change |(n : ℚ)| ≤ _ at h
    rw [← Int.cast_abs, Int.abs_eq_natAbs] at h
    exact_mod_cast h
  | double d => exact exists_ofPower?_of_le h

/-- A number has a decimal exactly if it is not too large for 96 bits and 28 places can show it. -/
theorem exists_decimal?_iff_inRange :
    (∃ a, n.decimal? = some a) ↔
      |n.toRat| ≤ Decimal.maxCoefficient ∧ (n.toRat = 0 ∨ leastShown ≤ |n.toRat|) := by
  constructor
  · rintro ⟨a, ha⟩
    have hle := abs_toRat_le_of_decimal? ha
    obtain ⟨amount, hamount⟩ := exists_amount?_of_le hle
    exact ⟨hle, (exists_decimal?_iff hamount).1 ⟨a, ha⟩⟩
  · rintro ⟨hle, hshown⟩
    obtain ⟨amount, hamount⟩ := exists_amount?_of_le hle
    exact (exists_decimal?_iff hamount).2 hshown

/-- Rounding leaves something of a number that 28 places can show. -/
theorem rounded_ne_zero {q : ℚ} (h : leastShown ≤ |q|) : Decimal.rounded q ≠ 0 := by
  have hleast : Decimal.rounded leastShown = leastShown := by
    apply Decimal.rounded_eq_self (n := 1)
    rw [leastShown]
    norm_num
  have hpos : 0 < leastShown := Double.ten_zpow_pos (-28)
  rcases abs_choice q with habs | habs
  · rw [habs] at h
    have hle := Decimal.rounded_mono h
    rw [hleast] at hle
    exact (hpos.trans_le hle).ne'
  · rw [habs] at h
    have hle := Decimal.rounded_mono h
    rw [hleast, Decimal.rounded_neg] at hle
    linarith

end Number

end Json

/-! ## Numbers as values -/

namespace Value

variable {n : Json.Number} {d : Decimal}

/-- Null stands for the numbers that no decimal can show. -/
theorem ofJson_number_eq_null_iff : ofJson (.number n) = .null ↔ n.decimal? = none := by
  rw [ofJson]
  cases n.decimal? <;> simp

/-- Every other number becomes the decimal that it means. -/
theorem ofJson_number_eq_number_iff : ofJson (.number n) = .number d ↔ n.decimal? = some d := by
  rw [ofJson]
  cases n.decimal? <;> simp

/-- A number is no data exactly if it is out of the range of decimals. -/
theorem ofJson_number_eq_null_iff_outOfRange :
    ofJson (.number n) = .null ↔
      2 ^ 96 - 1 < |n.toRat| ∨ 0 < |n.toRat| ∧ |n.toRat| < 10 ^ (-28 : ℤ) := by
  have hmax : (Decimal.maxCoefficient : ℚ) = 2 ^ 96 - 1 := by
    norm_num [Decimal.maxCoefficient]
  rw [ofJson_number_eq_null_iff, Option.eq_none_iff_forall_ne_some, ← not_exists,
    Json.Number.exists_decimal?_iff_inRange, hmax, not_and_or, not_le, not_or, abs_pos, not_le]
  rfl

/-- Every number of JSON is made the decimal of its text, read in the one form or the other. It is no
data exactly if it is too large or too small for that; otherwise it stays the same if 28 places are
enough for it, and is rounded to 28 places, a half away from zero, if not. What is not zero does not
become zero. And whatever is rounded, numbers keep their order. -/
theorem ofJson_number_exact :
    (∀ n : Json.Number,
      n.write.toRat = n.toRat ∧ Decimal.ofString? n.render = n.decimal? ∧
      (ofJson (.number n) = .null ↔
        2 ^ 96 - 1 < |n.toRat| ∨ 0 < |n.toRat| ∧ |n.toRat| < 10 ^ (-28 : ℤ)) ∧
      (ofJson (.number n) = .null ∨ ∃ d, ofJson (.number n) = .number d ∧
        ((∃ k : ℤ, n.toRat * 10 ^ 28 = k) → d.toRat = n.toRat) ∧
        d.toRat = Decimal.rounded n.toRat ∧ (n.toRat ≠ 0 → d.toRat ≠ 0))) ∧
    ∀ (n m : Json.Number) (d e : Decimal),
      ofJson (.number n) = .number d → ofJson (.number m) = .number e → n.toRat ≤ m.toRat →
        d.toRat ≤ e.toRat ∧ (compare d e).isLE = true := by
  refine ⟨fun n ↦ ⟨n.toRat_write, n.ofString?_render, ofJson_number_eq_null_iff_outOfRange, ?_⟩, ?_⟩
  · rcases hdecimal : n.decimal? with _ | d
    · exact .inl (ofJson_number_eq_null_iff.2 hdecimal)
    · have hrounded := Json.Number.toRat_of_decimal? hdecimal
      refine .inr ⟨d, ofJson_number_eq_number_iff.2 hdecimal, ?_, hrounded, ?_⟩
      · rintro ⟨k, hk⟩
        rw [hrounded, Decimal.rounded_eq_self hk]
      · intro hzero
        have hrange := Json.Number.exists_decimal?_iff_inRange.1 ⟨d, hdecimal⟩
        rw [hrounded]
        exact Json.Number.rounded_ne_zero (hrange.2.resolve_left hzero)
  · intro n m d e hd he hle
    have hrounded : d.toRat ≤ e.toRat := by
      rw [Json.Number.toRat_of_decimal? (ofJson_number_eq_number_iff.1 hd),
        Json.Number.toRat_of_decimal? (ofJson_number_eq_number_iff.1 he)]
      exact Decimal.rounded_mono hle
    exact ⟨hrounded, (Decimal.isLE_compare_iff d e).2 hrounded⟩

def halfAway : Double :=
  ⟨false, 6690223559559187, 929, by decide, by decide, .inr (by decide)⟩

/-- The number 7.922816251426433e28, the last one that is not too large. -/
def lastInRange : Double :=
  ⟨false, 9007199254740991, 1117, by decide, by decide, .inr (by decide)⟩

/-- The number 7.922816251426434e28. -/
def firstTooLarge : Double :=
  ⟨false, 4503599627370496, 1118, by decide, by decide, .inr (by decide)⟩

theorem toRat_of_shortest {d : Double} {digits : ℕ} {power : ℤ} (hnegative : d.negative = false)
    (h : d.shortest = ⟨digits, power⟩) : (Json.Number.double d).toRat = digits * 10 ^ power := by
  change d.toRat = _
  rw [Double.toRat, Double.signedDigits, hnegative, h]
  rfl

/-- A number that is rounded, a large one that is not, and the next one, which is out of range. -/
theorem ofJson_number_exact_halfAway :
    (∃ d e, ofJson (.number (.double halfAway)) = .number d ∧
      ofJson (.number (.double lastInRange)) = .number e ∧
      d.toRat = 2 / 10 ^ 28 ∧ e.toRat = 79228162514264330000000000000 ∧
      (compare d e).isLE = true) ∧
    ofJson (.number (.double firstTooLarge)) = .null := by
  have hhalf : (Json.Number.double halfAway).toRat = 15 * 10 ^ (-29 : ℤ) :=
    toRat_of_shortest rfl (by decide +kernel)
  have hlast : (Json.Number.double lastInRange).toRat = 7922816251426433 * 10 ^ (13 : ℤ) :=
    toRat_of_shortest rfl (by decide +kernel)
  have hlarge : (Json.Number.double firstTooLarge).toRat = 7922816251426434 * 10 ^ (13 : ℤ) :=
    toRat_of_shortest rfl (by decide +kernel)
  obtain ⟨hnull, hsmall⟩ := (ofJson_number_exact.1 (.double halfAway)).2.2
  obtain ⟨d, hd, -, hrounded, -⟩ := hsmall.resolve_left (by rw [hnull, hhalf]; norm_num)
  obtain ⟨hnull', hwhole⟩ := (ofJson_number_exact.1 (.double lastInRange)).2.2
  obtain ⟨e, he, hexact, -, -⟩ := hwhole.resolve_left (by rw [hnull', hlast]; norm_num)
  have hvalue : d.toRat = 2 / 10 ^ 28 := by
    rw [hrounded, hhalf, Decimal.rounded, Decimal.roundAway_of_nonneg (by norm_num)]
    norm_num
  have hplaces : ∃ k : ℤ, (Json.Number.double lastInRange).toRat * 10 ^ 28 = k :=
    ⟨7922816251426433 * 10 ^ 41, by rw [hlast]; norm_num⟩
  refine ⟨⟨d, e, hd, he, hvalue, ?_, ?_⟩, ?_⟩
  · rw [hexact hplaces, hlast]
    norm_num
  · exact (ofJson_number_exact.2 _ _ d e hd he (by rw [hhalf, hlast]; norm_num)).2
  · rw [(ofJson_number_exact.1 _).2.2.1, hlarge]
    norm_num

end Value

end Screening
