/-!
# Occurrences of one text in another

Comparisons are by character; texts are ordered by scalar values, which is the order of strings.
-/

namespace Screening.Text

/-- Whether `part` occurs in a list of characters, possibly at its very end. -/
def occursIn (part : List Char) : List Char → Bool
  | [] => part.isEmpty
  | c :: cs => part.isPrefixOf (c :: cs) || occursIn part cs

def contains (whole part : String) : Bool := occursIn part.toList whole.toList

def startsWith (whole part : String) : Bool := part.toList.isPrefixOf whole.toList

def endsWith (whole part : String) : Bool := part.toList.isSuffixOf whole.toList

/-- A part occurs exactly when the whole splits around it. -/
theorem occursIn_iff (part whole : List Char) :
    occursIn part whole = true ↔ ∃ before after, whole = before ++ part ++ after := by
  induction whole with
  | nil =>
    constructor
    · intro h
      exact ⟨[], [], by simpa [occursIn] using h⟩
    · rintro ⟨before, after, h⟩
      simp only [List.nil_eq, List.append_eq_nil_iff] at h
      simp [occursIn, h.1.2]
  | cons c cs ih =>
    simp only [occursIn, Bool.or_eq_true, List.isPrefixOf_iff_prefix, ih]
    constructor
    · rintro (⟨after, h⟩ | ⟨before, after, h⟩)
      · exact ⟨[], after, by simpa using h.symm⟩
      · exact ⟨c :: before, after, by simp [h]⟩
    · rintro ⟨before, after, h⟩
      cases before with
      | nil => exact Or.inl ⟨after, by simpa using h.symm⟩
      | cons b before =>
        simp only [List.cons_append, List.cons.injEq] at h
        exact Or.inr ⟨before, after, h.2⟩

/-- Beginning with a text means having it as a prefix, character by character. -/
theorem startsWith_iff (whole part : String) :
    startsWith whole part = true ↔ part.toList <+: whole.toList := by
  simp [startsWith]

theorem endsWith_iff (whole part : String) :
    endsWith whole part = true ↔ part.toList <:+ whole.toList := by
  simp [endsWith]

end Screening.Text
