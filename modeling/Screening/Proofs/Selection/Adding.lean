import Screening.Proofs.Selection.Candidates

/-!
# Adding conditions

The conditions of criteria pull in two directions. Exclusions and the flag for a value are limits:
each lets fewer subjects pass. Conditions that include are alternatives: each lets more subjects
pass, once there is one at all. So criteria with the alternatives of two, and the limits that both
have, let pass what one of the two lets pass.

The first condition that includes is different. Without it everything within the limits passes, and
so does a subject without candidates.
-/

namespace Screening

namespace Operator

/-- The operators that add a limit. -/
def limiters : List Operator := [.isNot, .notIn, .hasValue]

end Operator

namespace Criteria

variable {criteria criteria' a b joined : Criteria} {subject : Subject} {text : String}

/-- Criteria exclude the same texts and have the same flags. -/
structure SameLimits (criteria criteria' : Criteria) : Prop where
  excluded (v : String) : v ∈ criteria.excluded ↔ v ∈ criteria'.excluded
  hasValue : criteria.hasValue = criteria'.hasValue
  isUnknown : criteria.isUnknown = criteria'.isUnknown

/-- The criteria include by the conditions of two others, and have the limits of the first. -/
structure Joins (joined a b : Criteria) : Prop where
  values : ∀ operator ∈ Operator.includers, ∀ v,
    v ∈ joined.values operator ↔ v ∈ a.values operator ∨ v ∈ b.values operator
  limits : joined.SameLimits a

/-! ## Limits -/

/-- With one more limit no more subjects pass. -/
theorem passes_of_passes_add_limiter {operator : Operator} {value : String}
    (hoperator : operator ∈ Operator.limiters)
    (h : (criteria.add operator value).passes subject = true) : criteria.passes subject = true := by
  simp only [Operator.limiters, List.mem_cons, List.not_mem_nil, or_false] at hoperator
  rcases hoperator with rfl | rfl | rfl
  case inr.inr =>
    refine passes_mono (fun hnothing ↦ ?_) (fun text htext ↦ ?_) h
    · simp only [passesNothing, add, Bool.true_or, Bool.not_true, Bool.or_false] at hnothing
      rw [passesNothing, hnothing, Bool.true_or]
    · obtain ⟨hunknown, hblank, hexcluded, hincluded⟩ := accepts_iff.1 htext
      exact accepts_iff.2 ⟨hunknown, fun hboth ↦ hblank ⟨rfl, hboth.2⟩, hexcluded, hincluded⟩
  all_goals
    refine passes_mono ?_ (fun text htext ↦ ?_) h
    · exact id
    obtain ⟨hunknown, hblank, hexcluded, hincluded⟩ := accepts_iff.1 htext
    refine accepts_iff.2 ⟨hunknown, hblank, fun hmem ↦ ?_, hincluded⟩
    exact hexcluded ((Keyed.mem_insertKey _ _ _).2 (.inr hmem))

/-! ## Alternatives -/

namespace SameLimits

theorem symm (h : criteria.SameLimits criteria') : criteria'.SameLimits criteria :=
  ⟨fun v ↦ (h.excluded v).symm, h.hasValue.symm, h.isUnknown.symm⟩

theorem trans (h : a.SameLimits b) (h' : b.SameLimits criteria) : a.SameLimits criteria :=
  ⟨fun v ↦ (h.excluded v).trans (h'.excluded v), h.hasValue.trans h'.hasValue,
    h.isUnknown.trans h'.isUnknown⟩

/-- A condition that includes leaves the limits alone. -/
theorem add (criteria : Criteria) {operator : Operator} (value : String)
    (h : operator.plain ∈ Operator.includers) :
    criteria.SameLimits (criteria.add operator value) := by
  cases operator with
  | isNot | notIn | hasValue | isUnknown => exact absurd h (by decide)
  | _ => exact ⟨fun _ ↦ Iff.rfl, rfl, rfl⟩

/-- Within the same limits one alternative that a text meets is enough. -/
theorem accepts_of_meets (h : criteria.SameLimits criteria') {operator : Operator} {v : String}
    (haccepts : criteria.accepts text = true) (hoperator : operator ∈ Operator.includers)
    (hv : v ∈ criteria'.values operator) (hmeets : operator.meets text v = true) :
    criteria'.accepts text = true := by
  obtain ⟨hunknown, hblank, hexcluded, -⟩ := accepts_iff.1 haccepts
  exact accepts_iff.2 ⟨h.isUnknown ▸ hunknown, h.hasValue ▸ hblank,
    fun hmem ↦ hexcluded ((h.excluded text).2 hmem),
    fun _ ↦ includes_iff.2 ⟨operator, hoperator, v, hv, hmeets⟩⟩

end SameLimits

/-- An alternative stays one when conditions are added. -/
theorem HasAlternative.mono (h : criteria.HasAlternative)
    (hvalues : ∀ operator ∈ Operator.includers, ∀ v ∈ criteria.values operator,
      v ∈ criteria'.values operator) : criteria'.HasAlternative := by
  obtain ⟨operator, hoperator, v, hv⟩ := h
  exact ⟨operator, hoperator, v, hvalues operator hoperator v hv⟩

/-- Where something has to be included, a subject without candidates passes as unknown only. -/
theorem HasAlternative.passesNothing_eq (h : criteria.HasAlternative) :
    criteria.passesNothing = criteria.isUnknown := by
  rw [passesNothing, hasInclude_iff.2 h, Bool.or_true, Bool.not_true, Bool.or_false]

/-- An accepted text meets some alternative, if there are any. -/
theorem HasAlternative.exists_meets (h : criteria.HasAlternative)
    (haccepts : criteria.accepts text = true) :
    ∃ operator ∈ Operator.includers, ∃ v ∈ criteria.values operator,
      operator.meets text v = true := by
  obtain ⟨-, -, -, hincluded⟩ := accepts_iff.1 haccepts
  exact includes_iff.1 (hincluded (hasInclude_iff.2 h))

/-- With the same limits and more alternatives more subjects pass, if there was an alternative. -/
theorem passes_of_values_subset (hlimits : criteria.SameLimits criteria')
    (halternative : criteria.HasAlternative)
    (hvalues : ∀ operator ∈ Operator.includers, ∀ v ∈ criteria.values operator,
      v ∈ criteria'.values operator)
    (h : criteria.passes subject = true) : criteria'.passes subject = true := by
  refine passes_mono (fun hnothing ↦ ?_) (fun text htext ↦ ?_) h
  · rwa [(halternative.mono hvalues).passesNothing_eq, ← hlimits.isUnknown,
      ← halternative.passesNothing_eq]
  · obtain ⟨operator, hoperator, v, hv, hmeets⟩ := halternative.exists_meets htext
    exact hlimits.accepts_of_meets htext hoperator (hvalues operator hoperator v hv) hmeets

/-- Criteria with the alternatives of two let pass what one of the two lets pass. -/
theorem passes_of_joins (ha : a.HasAlternative) (hb : b.HasAlternative)
    (hlimits : a.SameLimits b) (hjoins : joined.Joins a b) :
    joined.passes subject = (a.passes subject || b.passes subject) := by
  have hleft : ∀ operator ∈ Operator.includers, ∀ v ∈ a.values operator,
      v ∈ joined.values operator :=
    fun operator hoperator v hv ↦ (hjoins.values operator hoperator v).2 (.inl hv)
  have hright : ∀ operator ∈ Operator.includers, ∀ v ∈ b.values operator,
      v ∈ joined.values operator :=
    fun operator hoperator v hv ↦ (hjoins.values operator hoperator v).2 (.inr hv)
  have hjoined : joined.HasAlternative := ha.mono hleft
  have hlimits' : joined.SameLimits b := hjoins.limits.trans hlimits
  rw [Bool.eq_iff_iff, Bool.or_eq_true]
  constructor
  · intro h
    rcases passes_eq_true_iff.1 h with ⟨hempty, hnothing⟩ | ⟨text, hmem, htext⟩
    · rw [hjoined.passesNothing_eq, hjoins.limits.isUnknown, ← ha.passesNothing_eq] at hnothing
      exact .inl (passes_eq_true_iff.2 (.inl ⟨hempty, hnothing⟩))
    · obtain ⟨operator, hoperator, v, hv, hmeets⟩ := hjoined.exists_meets htext
      rcases (hjoins.values operator hoperator v).1 hv with hva | hvb
      · have haccepts := hjoins.limits.accepts_of_meets htext hoperator hva hmeets
        exact .inl (passes_eq_true_iff.2 (.inr ⟨text, hmem, haccepts⟩))
      · have haccepts := hlimits'.accepts_of_meets htext hoperator hvb hmeets
        exact .inr (passes_eq_true_iff.2 (.inr ⟨text, hmem, haccepts⟩))
  · rintro (h | h)
    · exact passes_of_values_subset hjoins.limits.symm ha hleft h
    · exact passes_of_values_subset hlimits'.symm hb hright h

/-- What conditions added to criteria do, for every subject. A limit never lets more subjects pass;
another condition that includes never lets fewer pass, where there was one already; and the
conditions that include of two criteria, within limits that both have, let pass together what either
lets pass. -/
theorem passes_add_conditions :
    (∀ (criteria : Criteria) (operator : Operator) (value : String) (subject : Subject),
      operator ∈ Operator.limiters → (criteria.add operator value).passes subject = true →
        criteria.passes subject = true) ∧
    (∀ (criteria : Criteria) (operator : Operator) (value : String) (subject : Subject),
      criteria.HasAlternative → operator.plain ∈ Operator.includers →
        criteria.passes subject = true → (criteria.add operator value).passes subject = true) ∧
    ∀ (a b joined : Criteria) (subject : Subject),
      a.HasAlternative → b.HasAlternative → a.SameLimits b → joined.Joins a b →
        joined.passes subject = (a.passes subject || b.passes subject) := by
  refine ⟨?limit, ?alternative, ?join⟩
  case limit => exact fun _ _ _ _ ↦ passes_of_passes_add_limiter
  case alternative =>
    intro criteria operator value subject halternative hoperator h
    refine passes_of_values_subset (.add criteria value hoperator) halternative ?_ h
    exact fun _ _ _ hv ↦ mem_values_add.2 (.inl hv)
  case join => exact fun _ _ _ _ ↦ passes_of_joins

def summerCodes : Criteria := { excluded := ["SUMMER-1"], contains := ["summer"] }

def winterCodes : Criteria := { excluded := ["SUMMER-1"], startsWith := ["win"] }

/-- Codes of the summer or the winter, but for one. -/
def seasonCodes : Criteria :=
  { excluded := ["SUMMER-1"], contains := ["summer"], startsWith := ["win"] }

/-- A code of the summer passes because it does with one more exclusion, and still does with one
more alternative. Of two codes the one that is not excluded passes, as one of the winter. -/
theorem passes_seasonCodes :
    summerCodes.passes (.one "SUMMER-3") = true ∧
    (summerCodes.add .endsWith "-9").passes (.one "SUMMER-3") = true ∧
    summerCodes.passes (.many ["SUMMER-1", "Winter"]) = false ∧
    seasonCodes.passes (.many ["SUMMER-1", "Winter"]) = true := by
  obtain ⟨hlimit, halternative, hjoin⟩ := passes_add_conditions
  have hsummer : summerCodes.HasAlternative := ⟨.contains, by decide, "summer", .head _⟩
  have hwinter : winterCodes.HasAlternative := ⟨.startsWith, by decide, "win", .head _⟩
  have hlimits : summerCodes.SameLimits winterCodes := ⟨fun _ ↦ Iff.rfl, rfl, rfl⟩
  have hjoins : seasonCodes.Joins summerCodes winterCodes := by
    refine ⟨?_, fun _ ↦ Iff.rfl, rfl, rfl⟩
    simp [Operator.includers, values, seasonCodes, summerCodes, winterCodes]
  have hpasses : summerCodes.passes (.one "SUMMER-3") = true :=
    hlimit summerCodes .notIn "SUMMER-2" _ (by decide) (by decide +kernel)
  refine ⟨hpasses, ?_, by decide +kernel, ?_⟩
  · exact halternative summerCodes .endsWith "-9" _ hsummer (by decide) hpasses
  · rw [hjoin summerCodes winterCodes seasonCodes _ hsummer hwinter hlimits hjoins]
    decide +kernel

end Criteria

end Screening
