import Mathlib.Logic.ExistsUnique
import Screening.Proofs.Selection.Candidates

/-!
# Criteria that let everything pass

Empty criteria let every subject pass, and no others do (`Criteria.isEmpty_iff_forall_passes`): what
is not empty keeps out a subject without candidates, a text that is not blank, or a list of nothing
but a text that it excludes. So a selection can pass over its empty criteria, and what it lets pass
is told by the others, its filters. Under "and" all filters must let an entity pass, under "or" one
of them, if there are any.
-/

namespace Screening

namespace Criteria

variable {criteria : Criteria}

theorem isEmpty_iff : criteria.isEmpty = true ↔ criteria.hasValue = false ∧
    criteria.isUnknown = false ∧ criteria.excluded = [] ∧ criteria.hasInclude = false := by
  simp only [isEmpty, Bool.and_eq_true, Bool.not_eq_true', List.isEmpty_iff, and_assoc]

/-- Empty criteria let every subject pass. -/
theorem passes_of_isEmpty (h : criteria.isEmpty = true) (subject : Subject) :
    criteria.passes subject = true := by
  obtain ⟨hvalue, hunknown, hexcluded, hinclude⟩ := isEmpty_iff.1 h
  rw [passes_eq_true_iff]
  cases hcandidates : subject.candidates with
  | nil =>
    refine .inl ⟨rfl, ?_⟩
    rw [passesNothing, hvalue, hinclude]
    exact Bool.or_true _
  | cons text texts =>
    refine .inr ⟨text, List.mem_cons_self, accepts_iff.2 ⟨hunknown, ?_, ?_, ?_⟩⟩
    · rintro ⟨hvalue', -⟩
      exact absurd (hvalue.symm.trans hvalue') Bool.false_ne_true
    · rw [hexcluded]
      exact List.not_mem_nil
    · intro hinclude'
      exact absurd (hinclude.symm.trans hinclude') Bool.false_ne_true

/-- Criteria that let a missing subject and every list of one text pass are empty. -/
theorem isEmpty_of_passes (habsent : criteria.passes .absent = true)
    (hmany : ∀ text, criteria.passes (.many [text]) = true) : criteria.isEmpty = true := by
  have haccepts (text : String) : criteria.accepts text = true := by
    simpa [passes_eq, Subject.candidates] using hmany text
  have hnothing : criteria.passesNothing = true := habsent
  obtain ⟨hunknown, -, -, -⟩ := accepts_iff.1 (haccepts "")
  simp only [passesNothing, hunknown, Bool.false_or, Bool.not_eq_true', Bool.or_eq_false_iff]
    at hnothing
  refine isEmpty_iff.2 ⟨hnothing.1, hunknown, ?_, hnothing.2⟩
  apply List.eq_nil_iff_forall_not_mem.2
  intro text
  obtain ⟨-, -, hexcluded, -⟩ := accepts_iff.1 (haccepts text)
  exact hexcluded

theorem isEmpty_iff_forall_passes (criteria : Criteria) :
    criteria.isEmpty = true ↔ ∀ subject, criteria.passes subject = true := by
  constructor
  · exact passes_of_isEmpty
  · intro h
    exact isEmpty_of_passes (h .absent) fun text ↦ h (.many [text])

end Criteria

/-! ## Junctions -/

namespace Junction

/-- All must pass, which is so if there are none. -/
theorem combine_and_iff {verdicts : List Bool} :
    Junction.and.combine verdicts = true ↔ ∀ verdict ∈ verdicts, verdict = true := by
  cases verdicts with
  | nil => simp
  | cons verdict verdicts => simp [combine]

/-- One must pass, unless there are none. -/
theorem combine_or_iff {verdicts : List Bool} :
    Junction.or.combine verdicts = true ↔ verdicts = [] ∨ true ∈ verdicts := by
  cases verdicts with
  | nil => simp
  | cons verdict verdicts =>
    change (verdict :: verdicts).any id = true ↔ _
    rw [List.any_eq_true, or_iff_right (List.cons_ne_nil _ _)]
    exact exists_eq_right

end Junction

namespace Selection

variable {α : Type} [Selectable α] {selection selection' : Selection}
  {entry : String × Criteria} {entity : α}

/-- The entry of a selection is a filter: it has a condition. -/
def HasFilter (selection : Selection) (entry : String × Criteria) : Prop :=
  entry ∈ selection.criteria ∧ entry.2.isEmpty = false

/-- The verdicts that the junction combines are those of the filters. -/
theorem mem_filter_iff :
    entry ∈ selection.criteria.filter (fun entry ↦ !entry.2.isEmpty) ↔
      selection.HasFilter entry := by
  rw [List.mem_filter, HasFilter, Bool.not_eq_true']

/-- With `and`, an entity passes if it passes every filter. -/
theorem passes_and_iff (hjunction : selection.junction = .and) :
    selection.passes entity = true ↔ ∀ entry, selection.HasFilter entry →
      entry.2.passes (Selectable.subject entity entry.1) = true := by
  rw [passes, passesAll, hjunction, Junction.combine_and_iff]
  simp only [List.forall_mem_map, mem_filter_iff]

/-- With `or`, an entity passes if it passes some filter, or there is none. -/
theorem passes_or_iff (hjunction : selection.junction = .or) :
    selection.passes entity = true ↔ (∀ entry, ¬ selection.HasFilter entry) ∨
      ∃ entry, selection.HasFilter entry ∧
        entry.2.passes (Selectable.subject entity entry.1) = true := by
  rw [passes, passesAll, hjunction, Junction.combine_or_iff, List.map_eq_nil_iff,
    List.eq_nil_iff_forall_not_mem]
  simp only [List.mem_map, mem_filter_iff]

/-! ## Selections with the same filters -/

/-- The selections differ in empty criteria only. -/
structure SameFilters (selection selection' : Selection) : Prop where
  junction : selection.junction = selection'.junction
  order : selection.order = selection'.order
  hasFilter_iff (entry : String × Criteria) :
    selection.HasFilter entry ↔ selection'.HasFilter entry

/-- Empty criteria make no difference to what passes. -/
theorem SameFilters.passes_eq (h : selection.SameFilters selection') (entity : α) :
    selection.passes entity = selection'.passes entity := by
  rw [Bool.eq_iff_iff]
  cases hjunction : selection.junction with
  | and =>
    rw [passes_and_iff hjunction, passes_and_iff (h.junction ▸ hjunction)]
    simp only [h.hasFilter_iff]
  | or =>
    rw [passes_or_iff hjunction, passes_or_iff (h.junction ▸ hjunction)]
    simp only [h.hasFilter_iff]

theorem SameFilters.apply_eq (h : selection.SameFilters selection') (sorting : Sorting α)
    (items : List α) : selection.apply sorting items = selection'.apply sorting items := by
  have hpasses : selection.passes (α := α) = selection'.passes := by
    funext entity
    exact h.passes_eq entity
  rw [apply, apply, hpasses, h.order]

/-- Criteria for a field without a filter become a filter, unless they are empty, and the filters of
other fields stay. -/
theorem hasFilter_withCriteria_iff {field : String} {criteria : Criteria}
    (hfield : ∀ other, ¬ selection.HasFilter (field, other)) :
    (selection.withCriteria field criteria).HasFilter entry ↔
      (entry = (field, criteria) ∧ criteria.isEmpty = false) ∨ selection.HasFilter entry := by
  constructor
  · rintro ⟨hmem, hempty⟩
    rcases Keyed.mem_insert hmem with rfl | hmem
    · exact .inl ⟨rfl, hempty⟩
    · exact .inr ⟨hmem, hempty⟩
  · rintro (⟨rfl, hempty⟩ | ⟨hmem, hempty⟩)
    · exact ⟨Keyed.mem_insert_self field criteria selection.criteria, hempty⟩
    · refine ⟨Keyed.mem_insert_of_ne hmem ?_, hempty⟩
      rintro rfl
      exact hfield entry.2 ⟨hmem, hempty⟩

/-- Empty criteria on a field without a filter change no filter. -/
theorem sameFilters_withCriteria {field : String} {criteria : Criteria}
    (hempty : criteria.isEmpty = true) (hfield : ∀ other, ¬ selection.HasFilter (field, other)) :
    (selection.withCriteria field criteria).SameFilters selection := by
  refine ⟨rfl, rfl, fun entry ↦ ?_⟩
  rw [hasFilter_withCriteria_iff hfield, hempty]
  simp

/-! ## The number of filters -/

/-- Without filters everything passes. -/
theorem passes_of_forall_not_hasFilter (h : ∀ entry, ¬ selection.HasFilter entry) (entity : α) :
    selection.passes entity = true := by
  cases hjunction : selection.junction with
  | and => exact (passes_and_iff hjunction).2 fun entry hentry ↦ absurd hentry (h entry)
  | or => exact (passes_or_iff hjunction).2 (.inl h)

/-- A single filter decides alone, whatever the junction. -/
theorem passes_eq_of_hasFilter_iff (h : ∀ other, selection.HasFilter other ↔ other = entry)
    (entity : α) :
    selection.passes entity = entry.2.passes (Selectable.subject entity entry.1) := by
  rw [Bool.eq_iff_iff]
  cases hjunction : selection.junction with
  | and =>
    rw [passes_and_iff hjunction]
    simp only [h, forall_eq]
  | or =>
    rw [passes_or_iff hjunction, or_iff_right fun hnone ↦ hnone entry ((h entry).2 rfl)]
    simp only [h, exists_eq_left]

/-- With a single filter the junction makes no difference. -/
theorem passes_withJunction_eq (h : ∃! entry, selection.HasFilter entry)
    (junction junction' : Junction) (entity : α) :
    (selection.withJunction junction).passes entity
      = (selection.withJunction junction').passes entity := by
  obtain ⟨entry, hentry, hunique⟩ := h
  have honly (junction : Junction) (other : String × Criteria) :
      (selection.withJunction junction).HasFilter other ↔ other = entry := by
    constructor
    · exact hunique other
    · rintro rfl
      exact hentry
  rw [passes_eq_of_hasFilter_iff (honly junction), passes_eq_of_hasFilter_iff (honly junction')]

/-- What all filters let pass, one of them does, if there is one. -/
theorem passes_or_of_passes_and (h : (selection.withJunction .and).passes entity = true) :
    (selection.withJunction .or).passes entity = true := by
  rw [passes_and_iff rfl] at h
  rw [passes_or_iff rfl]
  by_cases hsome : ∃ entry, selection.HasFilter entry
  · obtain ⟨entry, hentry⟩ := hsome
    exact .inr ⟨entry, hentry, h entry hentry⟩
  · exact .inl (not_exists.1 hsome)

/-! ## One more filter -/

section Added

variable {field : String} {criteria : Criteria}

/-- With `and`, one more filter lets no more entities pass. -/
theorem passes_of_withCriteria_and (hjunction : selection.junction = .and)
    (hfield : ∀ other, ¬ selection.HasFilter (field, other))
    (h : (selection.withCriteria field criteria).passes entity = true) :
    selection.passes entity = true := by
  have hadded : (selection.withCriteria field criteria).junction = .and := hjunction
  rw [passes_and_iff hadded] at h
  rw [passes_and_iff hjunction]
  intro entry hentry
  apply h
  exact (hasFilter_withCriteria_iff hfield).2 (.inr hentry)

/-- With `or`, one more filter beside others lets no fewer entities pass. -/
theorem passes_withCriteria_or (hjunction : selection.junction = .or)
    (hfield : ∀ other, ¬ selection.HasFilter (field, other))
    (hsome : ∃ entry, selection.HasFilter entry) (h : selection.passes entity = true) :
    (selection.withCriteria field criteria).passes entity = true := by
  have hadded : (selection.withCriteria field criteria).junction = .or := hjunction
  rw [passes_or_iff hadded]
  rcases (passes_or_iff hjunction).1 h with hnone | ⟨entry, hentry, hpasses⟩
  · obtain ⟨entry, hentry⟩ := hsome
    exact absurd hentry (hnone entry)
  · exact .inr ⟨entry, (hasFilter_withCriteria_iff hfield).2 (.inr hentry), hpasses⟩

end Added

/-! ## What filters do -/

/-- Criteria are empty exactly if they let every subject pass, so empty criteria of a field without
a filter make no difference to a selection: what it lets pass, and how it arranges that, is told by
its filters. Without a filter everything passes, with a single one the junction does not matter, and
what passes under "and" passes under "or". A filter for another field never lets more pass under
"and", and under "or", where there is a filter already, never less. -/
theorem passes_by_filters (α : Type) [Selectable α] :
    (∀ criteria : Criteria,
      criteria.isEmpty = true ↔ ∀ subject, criteria.passes subject = true) ∧
    (∀ (selection : Selection) (field : String) (criteria : Criteria), criteria.isEmpty = true →
      (∀ other, ¬ selection.HasFilter (field, other)) →
        (selection.withCriteria field criteria).SameFilters selection) ∧
    (∀ selection selection' : Selection, selection.SameFilters selection' →
      (∀ entity : α, selection.passes entity = selection'.passes entity) ∧
      ∀ (sorting : Sorting α) (items : List α),
        selection.apply sorting items = selection'.apply sorting items) ∧
    (∀ selection : Selection, (∀ entry, ¬ selection.HasFilter entry) →
      ∀ entity : α, selection.passes entity = true) ∧
    (∀ selection : Selection, (∃! entry, selection.HasFilter entry) →
      ∀ (junction junction' : Junction) (entity : α),
        (selection.withJunction junction).passes entity
          = (selection.withJunction junction').passes entity) ∧
    (∀ (selection : Selection) (entity : α), (selection.withJunction .and).passes entity = true →
      (selection.withJunction .or).passes entity = true) ∧
    ∀ (selection : Selection) (field : String) (criteria : Criteria) (entity : α),
      (∀ other, ¬ selection.HasFilter (field, other)) →
        (selection.junction = .and →
          (selection.withCriteria field criteria).passes entity = true →
            selection.passes entity = true) ∧
        (selection.junction = .or → (∃ entry, selection.HasFilter entry) →
          selection.passes entity = true →
            (selection.withCriteria field criteria).passes entity = true) := by
  refine ⟨Criteria.isEmpty_iff_forall_passes, ?padded, ?same, ?none, ?single, ?junctions, ?added⟩
  case padded => exact fun _ _ _ ↦ sameFilters_withCriteria
  case same =>
    intro selection selection' h
    exact ⟨h.passes_eq, h.apply_eq⟩
  case none => exact fun _ ↦ passes_of_forall_not_hasFilter
  case single => exact fun _ ↦ passes_withJunction_eq
  case junctions => exact fun _ _ ↦ passes_or_of_passes_and
  case added =>
    intro selection field criteria entity hfield
    exact ⟨fun hjunction ↦ passes_of_withCriteria_and hjunction hfield,
      fun hjunction ↦ passes_withCriteria_or hjunction hfield⟩

/-- Redemptions that succeeded. For their codes there is no condition. -/
def succeeded (junction : Junction) : Selection where
  junction := junction
  criteria := [("code", {}), ("result", { included := ["SUCCESS"] })]

def redemption (result : String) : Metadata := [
  ("code", .string "SUMMER"), ("result", .string result)]

theorem hasFilter_succeeded (junction : Junction) (entry : String × Criteria) :
    (succeeded junction).HasFilter entry ↔ entry = ("result", { included := ["SUCCESS"] }) := by
  rw [HasFilter, succeeded]
  simp only [List.mem_cons, List.not_mem_nil, or_false]
  constructor
  · rintro ⟨rfl | rfl, hempty⟩
    · exact absurd hempty (by decide)
    · rfl
  · rintro rfl
    exact ⟨.inr rfl, by decide⟩

/-- The result decides alone, under either junction and with empty criteria for the code in the way.
A success goes on to pass under "or" with a condition on the code that it does not meet. -/
theorem passes_succeeded :
    (succeeded .and).passes (redemption "FAILURE")
      = ((succeeded .and).withJunction .or).passes (redemption "FAILURE") ∧
    ((succeeded .and).withCriteria "code" {}).apply
        ⟨"code", fun _ _ ↦ .eq, []⟩ [redemption "FAILURE", redemption "SUCCESS"]
      = (succeeded .and).apply ⟨"code", fun _ _ ↦ .eq, []⟩
          [redemption "FAILURE", redemption "SUCCESS"] ∧
    ({} : Selection).passes (redemption "FAILURE") = true ∧
    (succeeded .and).passes (redemption "SUCCESS") = true ∧
    (succeeded .or).passes (redemption "SUCCESS") = true ∧
    ((succeeded .or).withCriteria "code" { contains := ["win"] }).passes
      (redemption "SUCCESS") = true := by
  obtain ⟨-, hpadded, hsame, hnone, hsingle, hjunctions, hadded⟩ := passes_by_filters Metadata
  have hfield (junction : Junction) (other : Criteria) :
      ¬ (succeeded junction).HasFilter ("code", other) := by
    rw [hasFilter_succeeded]
    simp
  have hfilter (junction : Junction) :
      (succeeded junction).HasFilter ("result", { included := ["SUCCESS"] }) :=
    (hasFilter_succeeded junction _).2 rfl
  have hand : (succeeded .and).passes (redemption "SUCCESS") = true :=
    (hadded _ "code" { contains := ["summer"] } _ (hfield .and)).1 rfl (by decide +kernel)
  have hor : (succeeded .or).passes (redemption "SUCCESS") = true :=
    hjunctions (succeeded .and) _ hand
  refine ⟨?_, ?_, hnone {} nofun _, hand, hor, ?_⟩
  · exact hsingle _ ⟨_, hfilter .and, fun other ↦ (hasFilter_succeeded .and other).1⟩ .and .or _
  · exact (hsame _ _ (hpadded _ "code" {} rfl (hfield .and))).2 _ _
  · exact (hadded _ "code" _ _ (hfield .or)).2 rfl ⟨_, hfilter .or⟩ hor

end Selection

end Screening
