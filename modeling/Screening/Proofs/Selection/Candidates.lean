import Screening.Proofs.Selection.Conditions

/-!
# Candidates of a subject

Criteria look at the candidates of a subject: the texts of which one is enough. A blank text on its
own is no candidate, but a blank text in a list is one. What passes is told by these alone
(`Criteria.passes_eq`): without candidates by the flags and by whether something had to be included,
and otherwise by whether some candidate is accepted. Criteria are compared accordingly: those that
accept fewer candidates, and not more where there are none, let fewer subjects pass.
-/

namespace Screening

/-- The texts of a subject of which one is enough. -/
def Subject.candidates : Subject → List String
  | .absent => []
  | .one text => if Text.blank text then [] else [text]
  | .many texts => texts

namespace Criteria

variable {criteria criteria' : Criteria} {subject : Subject} {text : String}

def passesNothing (criteria : Criteria) : Bool :=
  criteria.isUnknown || !(criteria.hasValue || criteria.hasInclude)

/-- What passes is told by the candidates of a subject. -/
theorem passes_eq (criteria : Criteria) (subject : Subject) :
    criteria.passes subject =
      if subject.candidates.isEmpty then criteria.passesNothing
      else subject.candidates.any criteria.accepts := by
  cases subject with
  | absent | many => rfl
  | one text =>
    rw [Subject.candidates]
    cases h : Text.blank text <;> simp [passes, Subject.isBlank, passesNothing, h]

/-- A subject passes by one of its candidates or, if it has none, as one without data. -/
theorem passes_eq_true_iff : criteria.passes subject = true ↔
    (subject.candidates = [] ∧ criteria.passesNothing = true) ∨
      ∃ text ∈ subject.candidates, criteria.accepts text = true := by
  rw [passes_eq]
  cases subject.candidates with
  | nil => simp
  | cons text texts => simp

/-- There is a condition that includes: an alternative. -/
def HasAlternative (criteria : Criteria) : Prop :=
  ∃ operator ∈ Operator.includers, ∃ v, v ∈ criteria.values operator

/-- Something has to be included as soon as there is an alternative. -/
theorem hasInclude_iff : criteria.hasInclude = true ↔ criteria.HasAlternative := by
  simp only [hasInclude_eq_any, HasAlternative, List.any_eq_true, Bool.not_eq_true',
    List.isEmpty_eq_false_iff_exists_mem]

theorem includes_iff : criteria.includes text = true ↔
    ∃ operator ∈ Operator.includers, ∃ v ∈ criteria.values operator,
      operator.meets text v = true := by
  simp only [includes_eq_any, List.any_eq_true]

/-- A text is accepted if the flags and the exclusions let it be, and if it is included where
something has to be. -/
theorem accepts_iff : criteria.accepts text = true ↔
    criteria.isUnknown = false ∧ ¬ (criteria.hasValue = true ∧ Text.blank text = true) ∧
      text ∉ criteria.excluded ∧ (criteria.hasInclude = true → criteria.includes text = true) := by
  simp only [accepts, Bool.and_eq_true, Bool.not_eq_true', Bool.or_eq_true, ← Bool.not_eq_true,
    List.contains_iff_mem, and_assoc, Decidable.imp_iff_not_or]

/-- Where criteria pass nothing but what others pass, they let no more subjects pass. -/
theorem passes_mono (hnothing : criteria.passesNothing = true → criteria'.passesNothing = true)
    (haccepts : ∀ text, criteria.accepts text = true → criteria'.accepts text = true)
    (h : criteria.passes subject = true) : criteria'.passes subject = true := by
  rw [passes_eq_true_iff] at h ⊢
  rcases h with ⟨hempty, hpasses⟩ | ⟨text, hmem, htext⟩
  · exact .inl ⟨hempty, hnothing hpasses⟩
  · exact .inr ⟨text, hmem, haccepts text htext⟩

end Criteria

end Screening
