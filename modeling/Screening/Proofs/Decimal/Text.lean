import Screening.Decimal.Reader

/-!
# Reading what is written

The reader of decimals takes a number in writing for the number that it stands for: a row of digits
with a point among them, perhaps with a sign before it and a power of ten after it
(`ofString?_render`). The digits are read one after another, so what is read of a row leaves the
reader with the number that the row stands for; a power of ten ends a number without an exponent,
which is how it comes to be read.
-/

namespace Screening.Decimal

variable {c : Char} {row rest : List Char} {coefficient scale : Nat}

/-! ## Rows of digits -/

def AllDigits (row : List Char) : Prop := ∀ c ∈ row, c.isDigit = true

theorem allDigits_toDigits (n : Nat) : AllDigits (Nat.toDigits 10 n) :=
  fun _ hc ↦ Nat.isDigit_of_mem_toDigits (by decide) (by decide) hc

theorem allDigits_zeros (n : Nat) : AllDigits (List.replicate n '0') := by
  intro c hc
  rw [List.eq_of_mem_replicate hc]
  rfl

theorem AllDigits.append {other : List Char} (hrow : AllDigits row) (hother : AllDigits other) :
    AllDigits (row ++ other) := by
  intro c hc
  rcases List.mem_append.1 hc with hc | hc
  · exact hrow c hc
  · exact hother c hc

theorem AllDigits.tail (h : AllDigits (c :: row)) : AllDigits row :=
  fun d hd ↦ h d (List.mem_cons_of_mem c hd)

theorem AllDigits.head (h : AllDigits (c :: row)) : c.isDigit = true := h c List.mem_cons_self

/-- The digits before the point and those after it are digits of the whole row. -/
theorem AllDigits.of_append {other : List Char} (h : AllDigits (row ++ other)) :
    AllDigits row ∧ AllDigits other :=
  ⟨fun c hc ↦ h c (List.mem_append_left _ hc), fun c hc ↦ h c (List.mem_append_right _ hc)⟩

theorem ne_of_isDigit {d : Char} (hc : c.isDigit = true) (hd : d.isDigit = false) : c ≠ d := by
  rintro rfl
  cases hc.symm.trans hd

theorem digit?_of_isDigit (h : c.isDigit = true) : digit? c = some (c.toNat - '0'.toNat) := if_pos h

/-- The number that a row of digits makes after a number that has been read. -/
def continued (coefficient : Nat) (row : List Char) : Nat := Nat.ofDigitChars 10 row coefficient

theorem continued_cons (coefficient : Nat) (c : Char) (row : List Char) :
    continued coefficient (c :: row)
      = continued (coefficient * 10 + (c.toNat - '0'.toNat)) row := by
  rw [continued, Nat.ofDigitChars_cons, Nat.mul_comm 10]
  rfl

theorem le_continued (coefficient : Nat) (row : List Char) :
    coefficient ≤ continued coefficient row := by
  rw [continued, Nat.ofDigitChars_eq_ofDigitChars_zero]
  have := Nat.le_mul_of_pos_left coefficient (Nat.pow_pos (n := row.length) (show 0 < 10 by decide))
  omega

/-- Digits before the point are all taken, as long as their number is in range. -/
theorem whole?_append (hrow : AllDigits row) (h : continued coefficient row ≤ maxCoefficient) :
    whole? coefficient (row ++ rest) = whole? (continued coefficient row) rest := by
  induction row generalizing coefficient with
  | nil => rfl
  | cons c row ih =>
    rw [continued_cons] at h ⊢
    have hnext := Nat.le_trans (le_continued _ row) h
    rw [List.cons_append, whole?, if_neg (ne_of_isDigit hrow.head rfl),
      if_neg (ne_of_isDigit hrow.head rfl), digit?_of_isDigit hrow.head]
    dsimp only
    rw [if_pos hnext, ih hrow.tail h]

/-- Digits behind the point are all taken and counted, as long as there are at most 28 of them. -/
theorem fraction?_append (hrow : AllDigits row) (h : continued coefficient row ≤ maxCoefficient)
    (hplaces : scale + row.length ≤ maxScale) :
    fraction? coefficient scale (row ++ rest)
      = fraction? (continued coefficient row) (scale + row.length) rest := by
  induction row generalizing coefficient scale with
  | nil => rfl
  | cons c row ih =>
    rw [continued_cons] at h ⊢
    rw [List.length_cons] at hplaces ⊢
    have hnext := Nat.le_trans (le_continued _ row) h
    have hroom : ¬ maxScale ≤ scale := by omega
    rw [List.cons_append, fraction?, if_neg hroom, if_neg (ne_of_isDigit hrow.head rfl),
      digit?_of_isDigit hrow.head]
    dsimp only
    rw [if_pos hnext, ih hrow.tail h (by omega), Nat.add_assoc, Nat.add_comm 1]

/-- A row that is not empty begins a number. -/
theorem magnitude?_append (hrow : AllDigits row) (hne : row ≠ [])
    (h : continued 0 row ≤ maxCoefficient) :
    magnitude? (row ++ rest) = whole? (continued 0 row) rest := by
  obtain ⟨c, cs, rfl⟩ := List.exists_cons_of_ne_nil hne
  rw [continued_cons, Nat.zero_mul, Nat.zero_add] at h ⊢
  rw [List.cons_append, magnitude?.eq_def]
  dsimp only
  rw [if_neg (ne_of_isDigit hrow.head rfl), digit?_of_isDigit hrow.head]
  exact whole?_append hrow.tail h

/-! ## Digits with a point among them -/

/-- A number of digits that is shown with a point before the last `places` of them. -/
structure Shown (digits places : Nat) where
  whole : List Char
  fraction : List Char
  whole_ne_nil : whole ≠ []
  fraction_length : fraction.length = places
  allDigits : AllDigits (whole ++ fraction)
  continued_eq : continued 0 (whole ++ fraction) = digits

namespace Shown

variable {digits places : Nat}

/-- Zeros before the digits do not count, and there are enough of them for the places. -/
def ofParts (digits places : Nat) : Shown digits places :=
  let shown := Nat.toDigits 10 digits
  let padded := List.replicate (places + 1 - shown.length) '0' ++ shown
  have hlength : places + 1 ≤ padded.length := by
    rw [List.length_append, List.length_replicate]
    omega
  have hsplit : padded.take (padded.length - places) ++ padded.drop (padded.length - places)
      = padded :=
    List.take_append_drop _ _
  { whole := padded.take (padded.length - places)
    fraction := padded.drop (padded.length - places)
    whole_ne_nil := by
      rw [← List.length_pos_iff, List.length_take]
      omega
    fraction_length := by
      rw [List.length_drop]
      omega
    allDigits := by
      rw [hsplit]
      exact (allDigits_zeros _).append (allDigits_toDigits digits)
    continued_eq := by
      rw [hsplit, continued, Nat.ofDigitChars_append, Nat.ofDigitChars_replicate_zero, Nat.mul_zero]
      exact Nat.ofDigitChars_toDigits (by decide) (by decide) }

/-- The digits with the point, which is there if digits come after it. -/
def text (s : Shown digits places) : List Char :=
  if places = 0 then s.whole else s.whole ++ '.' :: s.fraction

theorem text_ofParts (digits places : Nat) :
    (ofParts digits places).text = placePoint digits places := rfl

/-- A number that is shown begins with a digit, never with the point. -/
theorem exists_digit_cons (s : Shown digits places) :
    ∃ c cs, s.text = c :: cs ∧ c.isDigit = true := by
  obtain ⟨c, cs, hwhole⟩ := List.exists_cons_of_ne_nil s.whole_ne_nil
  have hdigit : c.isDigit = true := by
    apply s.allDigits
    rw [hwhole]
    exact List.mem_cons_self
  rw [text]
  split
  · exact ⟨c, cs, hwhole, hdigit⟩
  · exact ⟨c, cs ++ '.' :: s.fraction, by rw [hwhole, List.cons_append], hdigit⟩

/-- No character of the text introduces an exponent. -/
theorem marksExponent_eq_false (s : Shown digits places) (hc : c ∈ s.text) :
    marksExponent c = false := by
  have hdigit (h : c.isDigit = true) : marksExponent c = false := by
    simp [marksExponent, ne_of_isDigit h]
  have hrows := s.allDigits.of_append
  rw [text] at hc
  split at hc
  · exact hdigit (hrows.1 c hc)
  · rcases List.mem_append.1 hc with hc | hc
    · exact hdigit (hrows.1 c hc)
    · rcases List.mem_cons.1 hc with rfl | hc
      · rfl
      · exact hdigit (hrows.2 c hc)

/-- The digits on both sides of the point make the number that is shown. -/
theorem continued_whole (s : Shown digits places) :
    continued (continued 0 s.whole) s.fraction = digits := by
  have hvalue := s.continued_eq
  rwa [continued, Nat.ofDigitChars_append] at hvalue

/-- The reader of unsigned numbers takes the whole text and is left after its last digit. -/
theorem magnitude?_text_append (s : Shown digits places) (hdigits : digits ≤ maxCoefficient)
    (hplaces : places ≤ maxScale) :
    magnitude? (s.text ++ rest)
      = if places = 0 then whole? digits rest else fraction? digits places rest := by
  obtain ⟨hwholeDigits, hfractionDigits⟩ := s.allDigits.of_append
  have hfraction : continued (continued 0 s.whole) s.fraction ≤ maxCoefficient := by
    rw [s.continued_whole]
    exact hdigits
  have hwhole : continued 0 s.whole ≤ maxCoefficient := Nat.le_trans (le_continued _ _) hfraction
  have hfirst (more : List Char) :
      magnitude? (s.whole ++ more) = whole? (continued 0 s.whole) more :=
    magnitude?_append hwholeDigits s.whole_ne_nil hwhole
  rw [text]
  split
  · next hzero =>
    -- Without places there is no point either, and more digits would still belong to the number.
    have hnil : s.fraction = [] := List.eq_nil_of_length_eq_zero (s.fraction_length.trans hzero)
    have hvalue := s.continued_whole
    rw [hnil] at hvalue
    rw [hfirst]
    exact congrArg (whole? · rest) hvalue
  · have hroom : 0 + s.fraction.length ≤ maxScale := by
      rw [s.fraction_length, Nat.zero_add]
      exact hplaces
    rw [List.append_assoc, hfirst, List.cons_append, whole?, if_neg (by decide), if_pos rfl,
      fraction?_append hfractionDigits hfraction hroom, s.continued_whole, s.fraction_length,
      Nat.zero_add]

/-- A number that is shown within range is read back with all its places. -/
theorem magnitude?_text (s : Shown digits places) (hdigits : digits ≤ maxCoefficient)
    (hplaces : places ≤ maxScale) : magnitude? s.text = some ⟨digits, places⟩ := by
  have hread : magnitude? (s.text ++ []) = _ := s.magnitude?_text_append hdigits hplaces
  rw [List.append_nil] at hread
  rw [hread]
  split
  · next hzero => rw [hzero, whole?]
  · rw [fraction?]

/-- A power of ten cannot be read as more of the number. -/
theorem magnitude?_power (s : Shown digits places) (hdigits : digits ≤ maxCoefficient)
    (hplaces : places ≤ maxScale) : magnitude? (s.text ++ 'e' :: rest) = none := by
  rw [s.magnitude?_text_append hdigits hplaces]
  split
  · rfl
  · rw [fraction?]
    split <;> rfl

end Shown

/-! ## Signs -/

/-- A sign, which only negative numbers show. -/
def signText (negative : Bool) : List Char := if negative then ['-'] else []

/-- A sign before the first digit is taken off and put on the number. -/
theorem plain?_signText (negative : Bool) (hc : c.isDigit = true) :
    plain? (signText negative ++ c :: rest)
      = (magnitude? (c :: rest)).bind fun m ↦
          ofScaled? (if negative then -m.coefficient else m.coefficient) m.scale := by
  cases negative with
  | true => rfl
  | false =>
    have hminus : c ≠ '-' := ne_of_isDigit hc rfl
    have hplus : c ≠ '+' := ne_of_isDigit hc rfl
    rw [signText, if_neg Bool.false_ne_true, List.nil_append, plain?]
    · rfl
    · rintro cs ⟨⟩
      exact hminus rfl
    · rintro cs ⟨⟩
      exact hplus rfl

/-! ## Powers of ten -/

theorem digits?_toDigits (n : Nat) : digits? (Nat.toDigits 10 n) = some n := by
  have hempty : (Nat.toDigits 10 n).isEmpty = false := by
    rw [List.isEmpty_eq_false_iff]
    exact Nat.toDigits_ne_nil
  have hall : (Nat.toDigits 10 n).all Char.isDigit = true :=
    List.all_eq_true.2 (allDigits_toDigits n)
  rw [digits?, hempty, hall, Bool.not_true, Bool.or_false, if_neg Bool.false_ne_true]
  congr 1
  have hvalue := Nat.ofDigitChars_toDigits (n := n) (show 1 < 10 by decide) (Nat.le_refl 10)
  rw [Nat.ofDigitChars] at hvalue
  simpa only [Nat.mul_comm 10] using hvalue

theorem unsigned?_toDigits (n : Nat) : unsigned? (Nat.toDigits 10 n) = some n := by
  rw [unsigned?]
  · exact digits?_toDigits n
  · intro cs hcs
    have hdigit := (hcs ▸ allDigits_toDigits n).head
    cases hdigit

def powerText (power : Int) : List Char :=
  (if power < 0 then [] else ['+']) ++ (toString power).toList

/-- An exponent is read back from its text, whichever sign it shows. -/
theorem exponent?_powerText (power : Int) : exponent? (powerText power) = some power := by
  cases power with
  | ofNat n =>
    have hsign : ¬ Int.ofNat n < 0 := Int.not_lt.2 (Int.natCast_nonneg n)
    have htext : powerText (Int.ofNat n) = '+' :: Nat.toDigits 10 n := by
      rw [powerText, if_neg hsign, ← Nat.toList_repr]
      rfl
    rw [htext]
    change (digits? (Nat.toDigits 10 n)).map Int.ofNat = _
    rw [digits?_toDigits, Option.map_some]
  | negSucc m =>
    have htext : powerText (Int.negSucc m) = '-' :: Nat.toDigits 10 (m + 1) := by
      rw [powerText, if_pos (Int.negSucc_lt_zero m), ← Nat.toList_repr]
      change ("-" ++ (m + 1).repr).toList = _
      rw [String.toList_append]
      rfl
    rw [htext]
    change (unsigned? (Nat.toDigits 10 (m + 1))).map (fun n ↦ -(n : Int)) = _
    rw [unsigned?_toDigits]
    rfl

end Screening.Decimal
