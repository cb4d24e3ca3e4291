import Screening.Selection.Basic

/-!
# Criteria and their conditions

Criteria are seen here as the values that stand in them with each operator (`Criteria.values`). Two
criteria in which the same values stand with the same operators are alike, in whatever order and
however often these stand there: they let the same subjects pass (`Criteria.Alike.passes_eq`).
-/

namespace Screening

/-! ## Values of operators -/

namespace Operator

/-- The operator that stands for the same conditions: the one for single values has a twin for
several. -/
def plain : Operator → Operator
  | .isIn => .is
  | .notIn => .isNot
  | operator => operator

/-- What is kept of a value. Flags keep nothing. -/
def kept (operator : Operator) (value : String) : String := if operator.isFlag then "" else value

/-- The operators with which a value includes texts. -/
def includers : List Operator :=
  [.is, .contains, .startsWith, .endsWith, .moreThan, .lessThan, .moreThanEqual, .lessThanEqual]

def meets (operator : Operator) (text value : String) : Bool :=
  match operator with
  | .is | .isIn => text == value
  | .contains => Text.contains (Text.lowercase text) (Text.lowercase value)
  | .startsWith => Text.startsWith (Text.lowercase text) (Text.lowercase value)
  | .endsWith => Text.endsWith (Text.lowercase text) (Text.lowercase value)
  | .moreThan => decide (Text.lowercase value < Text.lowercase text)
  | .lessThan => decide (Text.lowercase text < Text.lowercase value)
  | .moreThanEqual => !decide (Text.lowercase text < Text.lowercase value)
  | .lessThanEqual => !decide (Text.lowercase value < Text.lowercase text)
  | .isNot | .notIn | .hasValue | .isUnknown => false

end Operator

namespace Criteria

variable {criteria criteria' : Criteria}

/-- The value of a flag, which is empty and there if the flag is set. -/
def valueOf (flag : Bool) : List String := if flag then [""] else []

@[simp] theorem mem_valueOf {flag : Bool} {v : String} :
    v ∈ valueOf flag ↔ flag = true ∧ v = "" := by
  cases flag <;> simp [valueOf]

/-- The values that stand in criteria with an operator. -/
def values (criteria : Criteria) : Operator → List String
  | .is | .isIn => criteria.included
  | .isNot | .notIn => criteria.excluded
  | .contains => criteria.contains
  | .startsWith => criteria.startsWith
  | .endsWith => criteria.endsWith
  | .moreThan => criteria.moreThan
  | .lessThan => criteria.lessThan
  | .moreThanEqual => criteria.moreThanEqual
  | .lessThanEqual => criteria.lessThanEqual
  | .hasValue => valueOf criteria.hasValue
  | .isUnknown => valueOf criteria.isUnknown

/-- Adding a condition puts its value where it belongs and leaves all others where they are. -/
theorem mem_values_add {operator operator' : Operator} {value v : String} :
    v ∈ (criteria.add operator value).values operator' ↔
      v ∈ criteria.values operator' ∨
        operator.plain = operator'.plain ∧ v = operator.kept value := by
  cases operator <;> cases operator' <;>
    simp [add, values, Operator.plain, Operator.kept, Operator.isFlag, Keyed.mem_insertKey, or_comm]

theorem hasInclude_eq_any (criteria : Criteria) :
    criteria.hasInclude = Operator.includers.any fun operator ↦
      !(criteria.values operator).isEmpty := by
  simp [hasInclude, Operator.includers, values, Bool.or_assoc]

theorem includes_eq_any (criteria : Criteria) (text : String) :
    criteria.includes text = Operator.includers.any fun operator ↦
      (criteria.values operator).any (operator.meets text) := by
  simp only [includes, Operator.includers, List.any_cons, List.any_nil, Bool.or_false, values,
    Bool.or_assoc, List.contains_eq_any_beq]
  rfl

/-! ## Criteria that are alike -/

def Alike (criteria criteria' : Criteria) : Prop :=
  ∀ operator v, v ∈ criteria.values operator ↔ v ∈ criteria'.values operator

theorem any_congr_of_mem_iff {s t : List String} (h : ∀ v, v ∈ s ↔ v ∈ t) (p : String → Bool) :
    s.any p = t.any p := by
  rw [Bool.eq_iff_iff, List.any_eq_true, List.any_eq_true]
  exact exists_congr fun v ↦ and_congr_left fun _ ↦ h v

theorem isEmpty_congr_of_mem_iff {s t : List String} (h : ∀ v, v ∈ s ↔ v ∈ t) :
    s.isEmpty = t.isEmpty := by
  rw [Bool.eq_iff_iff, List.isEmpty_iff, List.isEmpty_iff, List.eq_nil_iff_forall_not_mem,
    List.eq_nil_iff_forall_not_mem]
  exact forall_congr' fun v ↦ not_congr (h v)

namespace Alike

theorem hasValue_eq (h : criteria.Alike criteria') : criteria.hasValue = criteria'.hasValue := by
  rw [Bool.eq_iff_iff]
  simpa [values] using h .hasValue ""

theorem isUnknown_eq (h : criteria.Alike criteria') : criteria.isUnknown = criteria'.isUnknown := by
  rw [Bool.eq_iff_iff]
  simpa [values] using h .isUnknown ""

theorem excluded_contains_eq (h : criteria.Alike criteria') (text : String) :
    criteria.excluded.contains text = criteria'.excluded.contains text := by
  rw [Bool.eq_iff_iff, List.contains_iff_mem, List.contains_iff_mem]
  exact h .isNot text

/-- The conditions that include do not depend on how often a value is given. -/
theorem hasInclude_eq (h : criteria.Alike criteria') :
    criteria.hasInclude = criteria'.hasInclude := by
  rw [hasInclude_eq_any, hasInclude_eq_any]
  congr
  funext operator
  rw [isEmpty_congr_of_mem_iff (h operator)]

theorem includes_eq (h : criteria.Alike criteria') (text : String) :
    criteria.includes text = criteria'.includes text := by
  rw [includes_eq_any, includes_eq_any]
  congr
  funext operator
  exact any_congr_of_mem_iff (h operator) _

/-- Hence criteria with the same values accept the same texts. -/
theorem accepts_eq (h : criteria.Alike criteria') : criteria.accepts = criteria'.accepts := by
  funext text
  rw [accepts, accepts, h.isUnknown_eq, h.hasValue_eq, h.excluded_contains_eq, h.hasInclude_eq,
    h.includes_eq]

/-- Criteria that are alike let the same subjects pass. -/
theorem passes_eq (h : criteria.Alike criteria') (subject : Subject) :
    criteria.passes subject = criteria'.passes subject := by
  cases subject <;>
    simp only [passes, h.isUnknown_eq, h.hasValue_eq, h.hasInclude_eq, h.accepts_eq]

end Alike

end Criteria

end Screening
