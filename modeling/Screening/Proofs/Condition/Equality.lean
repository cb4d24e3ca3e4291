import Screening.Condition.Basic
import Screening.Proofs.Value.Equivalence

/-!
# Conditions on equal values

Conditions are the same but for the spelling of numbers (`Condition.Equal`) if they have the same
operator and equal operands. They are made of equal operands (`Condition.parse_equal`), and they hold
of the same values, and of equal ones (`Condition.Equal.holdsOf_eq`).
-/

namespace Screening

inductive FieldValue.Equal : FieldValue → FieldValue → Prop
  | absent : Equal .absent .absent
  | value {v v' : Value} : Value.Equal v v' → Equal (.value v) (.value v')
  | anyOf {candidates candidates' : List Value} : Value.EqualItems candidates candidates' →
    Equal (.anyOf candidates) (.anyOf candidates')

namespace Condition

inductive Equal : Condition → Condition → Prop
  | eq {o o' : Value} : Value.Equal o o' → Equal (.eq o) (.eq o')
  | ne {o o' : Value} : Value.Equal o o' → Equal (.ne o) (.ne o')
  | gt {d d' : Decimal} : (d == d') = true → Equal (.gt d) (.gt d')
  | gte {d d' : Decimal} : (d == d') = true → Equal (.gte d) (.gte d')
  | lt {d d' : Decimal} : (d == d') = true → Equal (.lt d) (.lt d')
  | lte {d d' : Decimal} : (d == d') = true → Equal (.lte d) (.lte d')
  | isOneOf {os os' : List Value} : Value.EqualItems os os' → Equal (.isOneOf os) (.isOneOf os')
  | isNoneOf {os os' : List Value} : Value.EqualItems os os' → Equal (.isNoneOf os) (.isNoneOf os')
  | contains {o o' : Value} : Value.Equal o o' → Equal (.contains o) (.contains o')
  | containsAny {os os' : List Value} : Value.EqualItems os os' →
    Equal (.containsAny os) (.containsAny os')
  | containsAll {os os' : List Value} : Value.EqualItems os os' →
    Equal (.containsAll os) (.containsAll os')
  | isTrue : Equal .isTrue .isTrue
  | isFalse : Equal .isFalse .isFalse

variable {v v' o o' : Value} {d d' : Decimal} {c c' : Condition}

/-! ## Holding -/

theorem compared_eq (hv : Value.Equal v v') (hd : (d == d') = true) :
    compared v d = compared v' d' :=
  hv.decimal?.map_eq fun h ↦ Decimal.compare_eq_of_beq h hd

theorem within_eq (ho : Value.Equal o o') (hv : Value.Equal v v') : within o v = within o' v' := by
  cases hv with
  | list hitems => exact hitems.contains_eq ho
  | string s =>
    cases ho with
    | string part => rfl
    | null | bool | number | list | map => rfl
  | null | bool | number | map => rfl

theorem Equal.holdsOf_eq (hc : Equal c c') (hv : Value.Equal v v') :
    c.holdsOf v = c'.holdsOf v' := by
  cases hc with
  | eq ho => exact hv.beq_eq ho
  | ne ho => exact congrArg not (hv.beq_eq ho)
  | gt hd | gte hd | lt hd | lte hd => rw [holdsOf, holdsOf, compared_eq hv hd]
  | isOneOf hos => exact hos.contains_eq hv
  | isNoneOf hos => exact congrArg not (hos.contains_eq hv)
  | contains ho => exact within_eq ho hv
  | containsAny hos => exact hv.items?.any_eq fun hitems ↦ hitems.any_eq hos.contains_eq
  | containsAll hos => exact hv.items?.any_eq fun hitems ↦ hos.all_eq hitems.contains_eq
  | isTrue | isFalse => exact hv.beq_eq (.bool _)

theorem Equal.apply_eq (hc : Equal c c') {v v' : Option Value} (hv : Option.Rel Value.Equal v v') :
    c.apply v = c'.apply v' :=
  (hv.filter fun _ _ h ↦ congrArg not h.isNull_eq).any_eq hc.holdsOf_eq

/-- A condition looks at what a field holds, and not at how its numbers are spelled. -/
theorem Equal.holdsIn_eq (hc : Equal c c') {held held' : FieldValue}
    (h : FieldValue.Equal held held') : c.holdsIn held = c'.holdsIn held' := by
  cases h with
  | absent => rfl
  | value hv => exact hc.apply_eq (.some hv)
  | anyOf hcandidates => exact hcandidates.any_eq fun hv ↦ hc.apply_eq (.some hv)

/-! ## Making conditions -/

/-- Two attempts to make a condition that fail for the same reason, or make conditions that are the
same but for the spelling of numbers. -/
inductive MadeEqual {ε : Type} : Except ε Condition → Except ε Condition → Prop
  | error (e : ε) : MadeEqual (.error e) (.error e)
  | ok {c c' : Condition} : Equal c c' → MadeEqual (.ok c) (.ok c')

theorem MadeEqual.mapError {ε ε' : Type} (f : ε → ε') {made made' : Except ε Condition}
    (h : MadeEqual made made') : MadeEqual (made.mapError f) (made'.mapError f) := by
  cases h with
  | error e => exact .error (f e)
  | ok h => exact .ok h

theorem numeric_equal (symbol : String) {make : Decimal → Condition}
    (hmake : ∀ {d d' : Decimal}, (d == d') = true → Equal (make d) (make d'))
    (ho : Value.Equal o o') : MadeEqual (numeric symbol make o) (numeric symbol make o') := by
  cases ho with
  | number h => exact .ok (hmake h)
  | null | bool | string | list | map => exact .error _

theorem listing_equal (symbol : String) {make : List Value → Condition}
    (hmake : ∀ {items items'}, Value.EqualItems items items' → Equal (make items) (make items'))
    (ho : Value.Equal o o') : MadeEqual (listing symbol make o) (listing symbol make o') := by
  cases ho with
  | list h => exact .ok (hmake h)
  | null | bool | number | string | map => exact .error _

/-- The spelling of an operand decides neither whether it makes a condition nor which one. -/
theorem parse_equal (symbol : String) (ho : Value.Equal o o') :
    MadeEqual (parse symbol o) (parse symbol o') := by
  unfold parse
  split
  · exact .ok (.eq ho)
  · exact .ok (.ne ho)
  · exact numeric_equal _ .gt ho
  · exact numeric_equal _ .gte ho
  · exact numeric_equal _ .lt ho
  · exact numeric_equal _ .lte ho
  · exact listing_equal _ .isOneOf ho
  · exact listing_equal _ .isNoneOf ho
  · rw [ho.isNull_eq]
    split
    · exact .error _
    · exact .ok (.contains ho)
  · exact listing_equal _ .containsAny ho
  · exact listing_equal _ .containsAll ho
  · exact .ok .isTrue
  · exact .ok .isFalse
  · exact .error _

/-- Operators do not tell equal operands, or equal values, apart. -/
theorem applyOperator_eq (symbol : String) {v v' : Option Value} (hv : Option.Rel Value.Equal v v')
    (ho : Value.Equal o o') : applyOperator v symbol o = applyOperator v' symbol o' := by
  have hmade := parse_equal symbol ho
  rw [applyOperator, applyOperator]
  generalize parse symbol o = made at hmade ⊢
  generalize parse symbol o' = made' at hmade ⊢
  cases hmade with
  | error => rfl
  | ok hc => exact hc.apply_eq hv

end Condition

end Screening
