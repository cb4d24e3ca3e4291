import Screening.Condition.Basic
import Screening.Proofs.Value.Equivalence

/-!
# The algebra of conditions

Many conditions can be put in terms of others: "not equal" is the denial of "equal", "one of" asks
for an equal option, "at least" is "more" or "equal", and what a list has of several operands is
told by what it has of each. A rule may be rewritten along these laws (`Condition.Lawful`), except
where there is no value: neither a condition nor its denial holds of null or of what is missing
(`Condition.holds_lawfully`).
-/

namespace Screening.Condition

variable {condition : Condition} {v : Value}

/-- The condition holds of a value, which may be null. -/
def Holds (condition : Condition) (v : Value) : Prop := condition.apply (some v) = true

instance (condition : Condition) (v : Value) : Decidable (condition.Holds v) :=
  inferInstanceAs (Decidable (_ = true))

/-- Null meets no condition, not even a negative one. -/
theorem not_holds_null (condition : Condition) : ¬ condition.Holds .null := Bool.false_ne_true

theorem Holds.isNull_eq_false (h : condition.Holds v) : v.isNull = false := by
  cases v with
  | null => exact absurd h (not_holds_null condition)
  | bool | number | string | list | map => rfl

/-- Of a value that is not null a condition holds by its operator. -/
theorem holds_iff (hv : v.isNull = false) : condition.Holds v ↔ condition.holdsOf v = true := by
  simp [Holds, apply, hv]

/-! ## Equality and options -/

/-- Where there is data, inequality is the negation of equality. -/
theorem holds_ne_iff (hv : v.isNull = false) (o : Value) : (ne o).Holds v ↔ ¬ (eq o).Holds v := by
  rw [holds_iff hv, holds_iff hv, holdsOf, holdsOf, bne, Bool.not_eq_true', Bool.not_eq_true]

/-- To be one of some options is to equal one of them. -/
theorem holds_isOneOf_iff (hv : v.isNull = false) (options : List Value) :
    (isOneOf options).Holds v ↔ ∃ x ∈ options, (eq x).Holds v := by
  simp only [holds_iff hv, holdsOf, List.contains_iff_exists_mem_beq]

theorem holds_isNoneOf_iff (hv : v.isNull = false) (options : List Value) :
    (isNoneOf options).Holds v ↔ ¬ (isOneOf options).Holds v := by
  rw [holds_iff hv, holds_iff hv, holdsOf, holdsOf, Bool.not_eq_true', Bool.not_eq_true]

/-! ## Comparisons -/

theorem compared_eq_none (hv : ∀ a, v ≠ .number a) (d : Decimal) : compared v d = none := by
  cases v with
  | number a => exact absurd rfl (hv a)
  | null | bool | string | list | map => rfl

def comparisons (d : Decimal) : List Condition := [lt d, lte d, gt d, gte d]

/-- A comparison holds of nothing but numbers. -/
theorem not_holds_of_mem_comparisons (hv : ∀ a, v ≠ .number a) {d : Decimal}
    (h : condition ∈ comparisons d) : ¬ condition.Holds v := by
  intro hholds
  rw [holds_iff hholds.isNull_eq_false] at hholds
  simp only [comparisons, List.mem_cons, List.not_mem_nil, or_false] at h
  rcases h with rfl | rfl | rfl | rfl <;> simp [holdsOf, compared_eq_none hv d] at hholds

/-- What a comparison says of a number is told by how the number compares. -/
theorem holds_number_iff (a d : Decimal) :
    ((lt d).Holds (.number a) ↔ compare a d = .lt) ∧
    ((eq (.number d)).Holds (.number a) ↔ compare a d = .eq) ∧
    ((gt d).Holds (.number a) ↔ compare a d = .gt) ∧
    ((lte d).Holds (.number a) ↔ compare a d ≠ .gt) ∧
    ((gte d).Holds (.number a) ↔ compare a d ≠ .lt) := by
  have heq : (Value.number a == Value.number d) = (a == d) := rfl
  have hcompared : compared (.number a) d = some (compare a d) := rfl
  simp only [holds_iff (v := .number a) rfl, holdsOf, hcompared, heq, ← Decimal.compare_eq_iff]
  cases compare a d <;> simp

/-- Nothing but a number equals a number. -/
theorem not_holds_eq_number (hv : ∀ a, v ≠ .number a) (d : Decimal) :
    ¬ (eq (.number d)).Holds v := by
  cases v with
  | number a => exact absurd rfl (hv a)
  | null | bool | string | list | map => exact Bool.false_ne_true

/-- A comparison that admits equality is the strict one or equality for every value, if it is for
numbers. -/
theorem holds_iff_or_eq {weak strict : Condition} {d : Decimal} (hweak : weak ∈ comparisons d)
    (hstrict : strict ∈ comparisons d)
    (h : ∀ a, weak.Holds (.number a) ↔
      strict.Holds (.number a) ∨ (eq (.number d)).Holds (.number a)) (v : Value) :
    weak.Holds v ↔ strict.Holds v ∨ (eq (.number d)).Holds v := by
  by_cases hv : ∃ a, v = .number a
  · obtain ⟨a, rfl⟩ := hv
    exact h a
  · have hnot := not_exists.1 hv
    exact iff_of_false (not_holds_of_mem_comparisons hnot hweak)
      (not_or_intro (not_holds_of_mem_comparisons hnot hstrict) (not_holds_eq_number hnot d))

/-- At least a number means larger or equal, also for values that are no numbers. -/
theorem holds_gte_iff (v : Value) (d : Decimal) :
    (gte d).Holds v ↔ (gt d).Holds v ∨ (eq (.number d)).Holds v := by
  refine holds_iff_or_eq (d := d) (by simp [comparisons]) (by simp [comparisons]) (fun a ↦ ?_) v
  obtain ⟨-, heq, hgt, -, hgte⟩ := holds_number_iff a d
  rw [heq, hgt, hgte]
  cases compare a d <;> simp

theorem holds_lte_iff (v : Value) (d : Decimal) :
    (lte d).Holds v ↔ (lt d).Holds v ∨ (eq (.number d)).Holds v := by
  refine holds_iff_or_eq (d := d) (by simp [comparisons]) (by simp [comparisons]) (fun a ↦ ?_) v
  obtain ⟨hlt, heq, -, hlte, -⟩ := holds_number_iff a d
  rw [heq, hlt, hlte]
  cases compare a d <;> simp

/-- A number is smaller, equal or larger, and only one of these. -/
theorem existsUnique_holds_number (a d : Decimal) :
    ∃! condition ∈ [lt d, eq (.number d), gt d], condition.Holds (.number a) := by
  obtain ⟨hlt, heq, hgt, -, -⟩ := holds_number_iff a d
  cases hcompare : compare a d with
  | lt => exact ⟨lt d, by simp [hlt, hcompare], by simp [heq, hgt, hcompare]⟩
  | eq => exact ⟨eq (.number d), by simp [heq, hcompare], by simp [hlt, hgt, hcompare]⟩
  | gt => exact ⟨gt d, by simp [hgt, hcompare], by simp [hlt, heq, hcompare]⟩

/-! ## Items of lists -/

theorem holds_containsAny_list_iff (items wanted : List Value) :
    (containsAny wanted).Holds (.list items) ↔ ∃ x ∈ wanted, (contains x).Holds (.list items) := by
  simp only [holds_iff (v := .list items) rfl, holdsOf, Value.items?, Option.any_some, within,
    List.any_eq_true, List.contains_iff_exists_mem_beq]
  -- The list is searched for the operands in one case, and the operands for its items in the other.
  constructor
  · rintro ⟨item, hitem, x, hx, hbeq⟩
    exact ⟨x, hx, item, hitem, BEq.symm hbeq⟩
  · rintro ⟨x, hx, item, hitem, hbeq⟩
    exact ⟨item, hitem, x, hx, BEq.symm hbeq⟩

/-- A list with all of the wanted items has each of them in it. -/
theorem holds_containsAll_list_iff (items wanted : List Value) :
    (containsAll wanted).Holds (.list items) ↔ ∀ x ∈ wanted, (contains x).Holds (.list items) := by
  simp only [holds_iff (v := .list items) rfl, holdsOf, Value.items?, Option.any_some, within,
    List.all_eq_true]

/-- What is no list has no items to find, even if none are wanted. -/
theorem not_holds_contains_of_not_list (hv : ∀ items, v ≠ .list items) (wanted : List Value) :
    ¬ (containsAny wanted).Holds v ∧ ¬ (containsAll wanted).Holds v := by
  cases v with
  | list items => exact absurd rfl (hv items)
  | null | bool | number | string | map => exact ⟨Bool.false_ne_true, Bool.false_ne_true⟩

/-! ## Booleans -/

/-- Truth and falsehood are asked of booleans only; no other value counts as one of them. -/
theorem holds_flag_iff (v : Value) :
    (isTrue.Holds v ↔ v = .bool true) ∧ (isFalse.Holds v ↔ v = .bool false) := by
  cases v with
  | bool b =>
    cases b with
    | true => exact ⟨iff_of_true rfl rfl, iff_of_false Bool.false_ne_true nofun⟩
    | false => exact ⟨iff_of_false Bool.false_ne_true nofun, iff_of_true rfl rfl⟩
  | null | number | string | list | map =>
    exact ⟨iff_of_false Bool.false_ne_true nofun, iff_of_false Bool.false_ne_true nofun⟩

/-! ## The laws -/

/-- How the conditions on a value hang together. -/
structure Lawful (v : Value) : Prop where
  ne_iff (o : Value) : (ne o).Holds v ↔ ¬ (eq o).Holds v
  isOneOf_iff (options : List Value) : (isOneOf options).Holds v ↔ ∃ x ∈ options, (eq x).Holds v
  isNoneOf_iff (options : List Value) : (isNoneOf options).Holds v ↔ ¬ (isOneOf options).Holds v
  gte_iff (d : Decimal) : (gte d).Holds v ↔ (gt d).Holds v ∨ (eq (.number d)).Holds v
  lte_iff (d : Decimal) : (lte d).Holds v ↔ (lt d).Holds v ∨ (eq (.number d)).Holds v
  /-- Of a number exactly one comparison holds. -/
  of_number (a : Decimal) : v = .number a → ∀ d,
    ∃! condition ∈ [lt d, eq (.number d), gt d], condition.Holds v
  /-- Of anything else none does. -/
  of_not_number : (∀ a, v ≠ .number a) → ∀ d,
    ∀ condition ∈ comparisons d, ¬ condition.Holds v
  containsAny_iff (items : List Value) : v = .list items → ∀ wanted,
    ((containsAny wanted).Holds v ↔ ∃ x ∈ wanted, (contains x).Holds v)
  containsAll_iff (items : List Value) : v = .list items → ∀ wanted,
    ((containsAll wanted).Holds v ↔ ∀ x ∈ wanted, (contains x).Holds v)
  /-- What is no list has nothing in it, not even all of nothing. -/
  of_not_list : (∀ items, v ≠ .list items) → ∀ wanted,
    ¬ (containsAny wanted).Holds v ∧ ¬ (containsAll wanted).Holds v
  isTrue_iff : isTrue.Holds v ↔ v = .bool true
  isFalse_iff : isFalse.Holds v ↔ v = .bool false

/-- The conditions on every value that is not null obey the laws. Nothing at all holds of null or of
what is missing, and of candidates a condition holds if it does of one that is not null. -/
theorem holds_lawfully :
    (∀ v : Value, v.isNull = false → Lawful v) ∧
    (∀ condition : Condition, condition.apply none = false ∧ ¬ condition.Holds .null ∧
      condition.holdsIn .absent = false ∧ condition.holdsIn (.value .null) = false) ∧
    ∀ (condition : Condition) (candidates : List Value),
      condition.holdsIn (.anyOf candidates) = true ↔
        ∃ v ∈ candidates, v.isNull = false ∧ condition.Holds v := by
  refine ⟨fun v hv ↦ ?laws, fun condition ↦ ?nothing, fun condition candidates ↦ ?candidates⟩
  case laws =>
    exact {
      ne_iff := holds_ne_iff hv
      isOneOf_iff := holds_isOneOf_iff hv
      isNoneOf_iff := holds_isNoneOf_iff hv
      gte_iff := holds_gte_iff v
      lte_iff := holds_lte_iff v
      of_number := by
        rintro a rfl
        exact existsUnique_holds_number a
      of_not_number := fun hnumber d condition ↦ not_holds_of_mem_comparisons hnumber
      containsAny_iff := by
        rintro items rfl
        exact holds_containsAny_list_iff items
      containsAll_iff := by
        rintro items rfl
        exact holds_containsAll_list_iff items
      of_not_list := not_holds_contains_of_not_list
      isTrue_iff := (holds_flag_iff v).1
      isFalse_iff := (holds_flag_iff v).2 }
  case nothing => exact ⟨rfl, not_holds_null condition, rfl, rfl⟩
  case candidates =>
    rw [holdsIn, List.any_eq_true]
    refine exists_congr fun v ↦ and_congr_right fun _ ↦ ?_
    exact ⟨fun hholds ↦ ⟨Holds.isNull_eq_false hholds, hholds⟩, And.right⟩

def twenty : Decimal := .ofUInt64 20

/-- The number 20 with three zeros after the point. -/
def twentyWithPlaces : Decimal := ⟨false, 20000, 3, by decide, by decide⟩

/-- A list with a number, a list and null in it. -/
def shelf : Value := .list [.number twentyWithPlaces, .list [.string "A"], .null]

/-- The list has the number 20 in it, though in another spelling, but not the string "A". -/
theorem holds_shelf :
    shelf.isNull = false ∧ (containsAny [.string "A", .number twenty]).Holds shelf ∧
    ¬ (containsAll [.null, .string "A", .number twenty]).Holds shelf ∧
    ¬ (gte twenty).Holds shelf ∧ (isNoneOf [.number twenty, .null]).Holds shelf := by
  have hlaws : Lawful shelf := holds_lawfully.1 shelf rfl
  refine ⟨rfl, ?_, ?_, hlaws.of_not_number nofun twenty _ (by simp [comparisons]), ?_⟩
  · exact (hlaws.containsAny_iff _ rfl _).2 ⟨.number twenty, by simp, by decide +kernel⟩
  · intro hall
    have hstring := (hlaws.containsAll_iff _ rfl _).1 hall (.string "A") (by simp)
    exact absurd hstring (by decide +kernel)
  · rw [hlaws.isNoneOf_iff, hlaws.isOneOf_iff]
    decide +kernel

end Screening.Condition
