import Screening.Proofs.Selection.Candidates
import Screening.Proofs.Text.Contexts

/-!
# Patterns and what stands in a text

A pattern is looked for in lowercase, and both the text and the pattern are put into lowercase as
wholes. A pattern that stands in the text as it is should be found there, whatever the case of its
letters. It is, if it has no capital sigma, or if each of its sigmas ends a word in the text
exactly if it does in the pattern (`Text.Steady`). At the beginning and at the end of a text it is
not found otherwise.
-/

namespace Screening.Criteria

def only (operator : Operator) (value : String) : Criteria := ({} : Criteria).add operator value

/-- Of a text that is not blank a condition that includes is the whole verdict. -/
theorem passes_only_iff {operator : Operator} (hoperator : operator ∈ Operator.includers)
    {text : String} (htext : Text.blank text = false) (value : String) :
    (only operator value).passes (.one text) = true ↔ operator.meets text value = true := by
  simp only [Operator.includers, List.mem_cons, List.not_mem_nil, or_false] at hoperator
  rcases hoperator with rfl | rfl | rfl | rfl | rfl | rfl | rfl | rfl <;>
    simp [passes, Subject.isBlank, htext, accepts, only, add, hasInclude, includes, Operator.meets,
      Keyed.insertKey]

/-- A pattern that stands in a text is found by criteria with this pattern only, if it is steady
where it stands. At the beginning and at the end of the text it is found only if it is. A pattern
without capital sigmas always is. -/
theorem passes_occurrence {whole : String} (hwhole : Text.blank whole = false) (part : String) :
    (∀ before after, whole.toList = before ++ part.toList ++ after →
      Text.Steady before after part.toList →
        (only .contains part).passes (.one whole) = true) ∧
    (∀ after, whole.toList = part.toList ++ after →
      ((only .startsWith part).passes (.one whole) = true ↔
        Text.Steady [] after part.toList)) ∧
    (∀ before, whole.toList = before ++ part.toList →
      ((only .endsWith part).passes (.one whole) = true ↔
        Text.Steady before [] part.toList)) ∧
    ('Σ' ∉ part.toList → ∀ before after, Text.Steady before after part.toList) := by
  refine ⟨?inside, ?front, ?back, fun hsigma before after ↦ Text.steady_of_notMem hsigma _ _⟩
  case inside =>
    intro before after h hsteady
    exact (passes_only_iff (by decide) hwhole part).2 (Text.contains_lowercase h hsteady)
  case front =>
    intro after h
    rw [passes_only_iff (by decide) hwhole part]
    exact Text.startsWith_lowercase_iff h
  case back =>
    intro before h
    rw [passes_only_iff (by decide) hwhole part]
    exact Text.endsWith_lowercase_iff h

/-- A street is found in capitals where its name is a word of its own, and its ending at the end. -/
theorem passes_street :
    (only .contains "ΟΔΟΣ").passes (.one "Η ΟΔΟΣ Α") = true ∧
    (only .startsWith "ΟΔΟΣ").passes (.one "ΟΔΟΣ Α") = true ∧
    (only .endsWith "ΔΟΣ").passes (.one "Η ΟΔΟΣ") = true := by
  have hblank : Text.blank "Η ΟΔΟΣ Α" = false := by decide +kernel
  have hblank' : Text.blank "ΟΔΟΣ Α" = false := by decide +kernel
  have hblank'' : Text.blank "Η ΟΔΟΣ" = false := by decide +kernel
  obtain ⟨hinside, -⟩ := passes_occurrence hblank "ΟΔΟΣ"
  obtain ⟨-, hfront, -⟩ := passes_occurrence hblank' "ΟΔΟΣ"
  obtain ⟨-, -, hback, -⟩ := passes_occurrence hblank'' "ΔΟΣ"
  refine ⟨hinside "Η ".toList " Α".toList ?_ ?_, (hfront " Α".toList ?_).2 ?_,
    (hback "Η Ο".toList ?_).2 ?_⟩ <;> decide +kernel

/-- A name that goes on in the text is not found there, though it stands at its beginning. Nor is a
sigma on its own at the end of a word. -/
theorem passes_unsteady_ne :
    Text.blank "ΟΔΟΣΑ" = false ∧ Text.contains "ΟΔΟΣΑ" "ΟΔΟΣ" = true ∧
      (only .contains "ΟΔΟΣ").passes (.one "ΟΔΟΣΑ") = false ∧
    Text.startsWith "ΟΔΟΣΑ" "ΟΔΟΣ" = true ∧
      (only .startsWith "ΟΔΟΣ").passes (.one "ΟΔΟΣΑ") = false ∧
    Text.blank "ΑΣ" = false ∧ Text.endsWith "ΑΣ" "Σ" = true ∧
      (only .endsWith "Σ").passes (.one "ΑΣ") = false := by
  decide +kernel

end Screening.Criteria
