import Mathlib.Data.List.Forall2
import Screening.Proofs.Value.Equality
import Screening.Selection.Basic

/-!
# Selections and the spelling of numbers

A selection looks at data as text. Two numbers may be equal and have different texts, such as 10 and
10.0, and conditions that include or exclude texts tell them apart. The presence flags do not: no
number is blank, however it is spelled. So equal data passes alike if the numbers that such
conditions look at are spelled alike.
-/

namespace Screening

open Value (numerals Equal EqualItems EqualEntries)

/-! ## Texts that are not blank -/

namespace Text

theorem blank_eq_false {s : String} {c : Char} (hc : isBlank c = false) (hmem : c ∈ s.toList) :
    blank s = false := by
  rw [blank, List.all_eq_false]
  exact ⟨c, hmem, by simp [hc]⟩

theorem isBlank_eq_false_of_isDigit {c : Char} (h : c.isDigit = true) : isBlank c = false := by
  have hrange : 48 ≤ c.toNat ∧ c.toNat ≤ 57 := by
    simp only [Char.isDigit, Bool.and_eq_true, decide_eq_true_eq, UInt32.le_iff_toNat_le] at h
    exact h
  rw [Bool.eq_false_iff, isBlank, ne_eq, inRanges_iff]
  rintro ⟨range, hmem, hlow, hhigh⟩
  simp only [blankRanges, List.mem_cons, List.not_mem_nil, or_false] at hmem
  rcases hmem with rfl | rfl | rfl | rfl | rfl | rfl | rfl | rfl | rfl | rfl <;>
    · dsimp only at hlow hhigh
      omega

end Text

/-- A number shows at least one digit. -/
theorem Decimal.exists_digit_placePoint (digits places : Nat) :
    ∃ c ∈ placePoint digits places, c.isDigit = true := by
  let padded := List.replicate (places + 1 - (Nat.toDigits 10 digits).length) '0'
    ++ Nat.toDigits 10 digits
  let whole := padded.take (padded.length - places)
  have hdigits : ∀ c ∈ padded, c.isDigit = true := by
    intro c hc
    rcases List.mem_append.1 hc with hzero | hshown
    · rw [List.eq_of_mem_replicate hzero]
      decide
    · exact Nat.isDigit_of_mem_toDigits (by decide) (by decide) hshown
  have hlength : 0 < whole.length := by
    rw [List.length_take, List.length_append, List.length_replicate]
    omega
  obtain ⟨c, hc⟩ := List.exists_mem_of_length_pos hlength
  refine ⟨c, ?_, hdigits c (List.mem_of_mem_take hc)⟩
  change c ∈ if places = 0 then whole else whole ++ '.' :: padded.drop (padded.length - places)
  split
  · exact hc
  · exact List.mem_append_left _ hc

/-- Nothing but a string is rendered as a blank text. -/
theorem Value.blank_render_eq_false {v : Value} (h : ∀ s, v ≠ .string s) :
    Text.blank v.render = false := by
  cases v with
  | null => decide
  | bool b => cases b <;> decide
  | number d =>
    obtain ⟨c, hmem, hc⟩ := Decimal.exists_digit_placePoint d.coefficient d.scale
    refine Text.blank_eq_false (Text.isBlank_eq_false_of_isDigit hc) ?_
    rw [render, Decimal.render, String.toList_ofList]
    exact List.mem_append_right _ hmem
  | string s => exact absurd rfl (h s)
  | list items => exact Text.blank_eq_false (c := '[') (by decide) (by simp [render])
  | map entries => exact Text.blank_eq_false (c := '\x7b') (by decide) (by simp [render])

/-! ## Subjects of equal values -/

def SameBlank (text text' : String) : Prop := Text.blank text = Text.blank text'

/-- Subjects that are blank in the same places. -/
inductive Subject.SameBlanks : Subject → Subject → Prop
  | absent : SameBlanks .absent .absent
  | one {text text' : String} : SameBlank text text' → SameBlanks (.one text) (.one text')
  | many {texts texts' : List String} : List.Forall₂ SameBlank texts texts' →
    SameBlanks (.many texts) (.many texts')

theorem Subject.SameBlanks.isBlank_eq {subject subject' : Subject}
    (h : subject.SameBlanks subject') : subject.isBlank = subject'.isBlank := by
  cases h with
  | absent => rfl
  | one hblank => exact hblank
  | many hblanks => cases hblanks <;> rfl

namespace Value

variable {v v' : Value}

theorem sameBlank_render (hv : ∀ s, v ≠ .string s) (hv' : ∀ s, v' ≠ .string s) :
    SameBlank v.render v'.render :=
  (blank_render_eq_false hv).trans (blank_render_eq_false hv').symm

/-- The texts of values that are the same are both blank or both not. -/
theorem Equal.textOf? (h : Equal v v') :
    Option.Rel SameBlank (Subject.textOf? v) (Subject.textOf? v') := by
  cases h with
  | null => exact .none
  | string s => exact .some rfl
  | bool | number | list | map => exact .some (sameBlank_render nofun nofun)

/-- Where the numbers are spelled alike, so are the texts. -/
theorem Equal.textOf?_eq (h : Equal v v') (hnumerals : numerals v = numerals v') :
    Subject.textOf? v = Subject.textOf? v' := by
  have hrender := h.render_eq hnumerals
  cases h with
  | null | string => rfl
  | bool | number | list | map => exact congrArg some hrender

theorem filterMap_textOf? {items items' : List Value} (h : List.Forall₂ Equal items items') :
    List.Forall₂ SameBlank (items.filterMap Subject.textOf?)
      (items'.filterMap Subject.textOf?) := by
  induction h with
  | nil => exact .nil
  | @cons v v' rest rest' hv _ ih =>
    have hfirst := hv.textOf?
    rw [List.filterMap_cons, List.filterMap_cons]
    generalize Subject.textOf? v = text at hfirst ⊢
    generalize Subject.textOf? v' = text' at hfirst ⊢
    cases hfirst with
    | none => exact ih
    | some hblank => exact .cons hblank ih

theorem filterMap_textOf?_eq {items items' : List Value} (h : List.Forall₂ Equal items items')
    (hnumerals : numeralsItems items = numeralsItems items') :
    items.filterMap Subject.textOf? = items'.filterMap Subject.textOf? := by
  induction h with
  | nil => rfl
  | cons hv _ ih =>
    obtain ⟨hfirst, hothers⟩ := List.append_inj hnumerals hv.length_numerals
    rw [List.filterMap_cons, List.filterMap_cons, hv.textOf?_eq hfirst, ih hothers]

/-- Equal values are seen as subjects that are blank in the same places. -/
theorem Equal.sameBlanks (h : Equal v v') :
    Subject.SameBlanks (Subject.ofValue v) (Subject.ofValue v') := by
  cases h with
  | null => exact .absent
  | string s => exact .one rfl
  | list hitems => exact .many (filterMap_textOf? hitems.forall₂)
  | bool | number | map => exact .one (sameBlank_render nofun nofun)

/-- Equal values with the same numerals are seen as the same subject. -/
theorem Equal.ofValue_eq (h : Equal v v') (hnumerals : numerals v = numerals v') :
    Subject.ofValue v = Subject.ofValue v' := by
  have hrender := h.render_eq hnumerals
  cases h with
  | null | string => rfl
  | list hitems => exact congrArg Subject.many (filterMap_textOf?_eq hitems.forall₂ hnumerals)
  | bool | number | map => exact congrArg Subject.one hrender

end Value

/-! ## Criteria -/

namespace Criteria

variable {criteria : Criteria} {subject subject' : Subject}

/-- Whether there is a condition that looks at the text of a value. -/
def looksAtText (criteria : Criteria) : Bool :=
  criteria.hasInclude || !criteria.excluded.isEmpty

/-- Without conditions on its text, a text is accepted by whether it is blank. -/
theorem accepts_eq {text text' : String} (hflags : criteria.looksAtText = false)
    (h : SameBlank text text') : criteria.accepts text = criteria.accepts text' := by
  simp only [looksAtText, Bool.or_eq_false_iff, Bool.not_eq_false', List.isEmpty_iff] at hflags
  rw [accepts, accepts, hflags.1, hflags.2, h]
  rfl

/-- Conditions that look at no text only tell blank texts from others. -/
theorem any_accepts_eq {texts texts' : List String} (hflags : criteria.looksAtText = false)
    (h : List.Forall₂ SameBlank texts texts') :
    texts.any criteria.accepts = texts'.any criteria.accepts := by
  induction h with
  | nil => rfl
  | cons hblank _ ih => rw [List.any_cons, List.any_cons, accepts_eq hflags hblank, ih]

/-- Criteria without conditions on texts see only where a subject is blank. -/
theorem passes_eq_of_sameBlanks (hflags : criteria.looksAtText = false)
    (h : subject.SameBlanks subject') : criteria.passes subject = criteria.passes subject' := by
  have hblank := h.isBlank_eq
  cases h with
  | absent => rfl
  | one hsame => simp only [passes, hblank, accepts_eq hflags hsame]
  | many hsame => simp only [passes, hblank, any_accepts_eq hflags hsame]

end Criteria

/-! ## Selections -/

namespace Selection

def numeralsAt (metadata : Metadata) (path : String) : List String :=
  (Value.lookup metadata path).elim [] numerals

/-- Equal data passes a selection alike, if for every field with a condition on its text the numbers
there are spelled alike. -/
theorem passes_eq_of_beq (selection : Selection) {metadata metadata' : Metadata}
    (h : (Value.map metadata == Value.map metadata') = true)
    (hnumerals : ∀ entry ∈ selection.criteria, entry.2.looksAtText = true →
      numeralsAt metadata entry.1 = numeralsAt metadata' entry.1) :
    selection.passes metadata = selection.passes metadata' := by
  have hequal : EqualEntries metadata metadata' := EqualEntries.of_beqEntries _ _ h
  have hfield (entry : String × Criteria) (hentry : entry ∈ selection.criteria) :
      entry.2.passes (Selectable.subject metadata entry.1)
        = entry.2.passes (Selectable.subject metadata' entry.1) := by
    have hvalue := hequal.lookup_path entry.1
    have hsame := hnumerals entry hentry
    change entry.2.passes ((Value.lookup metadata entry.1).elim .absent .ofValue)
      = entry.2.passes ((Value.lookup metadata' entry.1).elim .absent .ofValue)
    rw [numeralsAt, numeralsAt] at hsame
    generalize Value.lookup metadata entry.1 = value at hvalue hsame ⊢
    generalize Value.lookup metadata' entry.1 = value' at hvalue hsame ⊢
    cases hvalue with
    | none => rfl
    | some hv =>
      cases htext : entry.2.looksAtText with
      | false => exact Criteria.passes_eq_of_sameBlanks htext hv.sameBlanks
      | true => exact congrArg _ (hv.ofValue_eq (hsame htext))
  rw [passes, passes, passesAll, passesAll]
  refine congrArg _ (List.map_congr_left fun entry hentry ↦ hfield entry ?_)
  exact (List.mem_filter.1 hentry).1

def tenWithPlace : Decimal := ⟨false, 100, 1, by decide, by decide⟩

def customerData (points : Decimal) : Metadata := [
  ("points", .number points),
  ("visits", .list [.number (.ofUInt64 3), .map [("shop", .string "north")]])]

def loyalCustomers : Selection where
  criteria := [("points", { hasValue := true }), ("visits", { included := ["3"] })]

/-- That there are points is seen in both spellings. -/
theorem passes_customerData :
    numeralsAt (customerData (.ofUInt64 10)) "points"
      ≠ numeralsAt (customerData tenWithPlace) "points" ∧
    loyalCustomers.passes (customerData (.ofUInt64 10)) = true ∧
    loyalCustomers.passes (customerData tenWithPlace) = true := by
  have hspelled : loyalCustomers.passes (customerData (.ofUInt64 10))
      = loyalCustomers.passes (customerData tenWithPlace) := by
    refine passes_eq_of_beq loyalCustomers (by decide +kernel) ?_
    decide +kernel
  have hpasses : loyalCustomers.passes (customerData (.ofUInt64 10)) = true := by decide +kernel
  exact ⟨by decide +kernel, hpasses, hspelled ▸ hpasses⟩

def tenPoints : Selection where
  criteria := [("points", { included := ["10"] })]

/-- A condition on the text 10 tells equal data apart. -/
theorem passes_tenPoints :
    (Value.map (customerData (.ofUInt64 10)) == Value.map (customerData tenWithPlace)) = true ∧
    tenPoints.passes (customerData (.ofUInt64 10)) = true ∧
    tenPoints.passes (customerData tenWithPlace) = false := by
  decide +kernel

end Selection

end Screening
