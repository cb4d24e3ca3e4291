import Screening.Proofs.Decimal.Value
import Screening.Proofs.Related
import Screening.Proofs.Value.Equality

/-!
# Equality of values is an equivalence

Values are equal for `==` if they differ in nothing but the spelling of numbers (`beq_iff_equal`).
Numbers are compared as numbers, so this is an equivalence, and a list has the same items up to
equality as every list that equals it.
-/

namespace Screening

/-! ## Decimals -/

namespace Decimal

instance : EquivBEq Decimal where
  rfl := by
    intro a
    exact (beq_iff_toRat_eq a a).2 rfl
  symm := by
    intro a b h
    exact (beq_iff_toRat_eq b a).2 ((beq_iff_toRat_eq a b).1 h).symm
  trans := by
    intro a b c h h'
    exact (beq_iff_toRat_eq a c).2 (((beq_iff_toRat_eq a b).1 h).trans ((beq_iff_toRat_eq b c).1 h'))

/-- How two decimals compare does not depend on their spelling. -/
theorem compare_eq_of_beq {a a' b b' : Decimal} (ha : (a == a') = true) (hb : (b == b') = true) :
    compare a b = compare a' b' := by
  have hlt : compare a b = .lt ↔ compare a' b' = .lt := by
    rw [compare_eq_lt_iff, compare_eq_lt_iff, (beq_iff_toRat_eq a a').1 ha,
      (beq_iff_toRat_eq b b').1 hb]
  have heq : compare a b = .eq ↔ compare a' b' = .eq := by
    rw [compare_eq_iff, compare_eq_iff, BEq.congr_left ha, BEq.congr_right hb]
  -- of three outcomes the third is settled by the other two
  revert hlt heq
  cases compare a b <;> cases compare a' b' <;> simp

end Decimal

abbrev EqualDecimals : Option Decimal → Option Decimal → Prop :=
  Option.Rel fun d d' : Decimal ↦ (d == d') = true

/-! ## Values -/

namespace Value

mutual

theorem Equal.refl : ∀ v : Value, Equal v v
  | .null => .null
  | .bool b => .bool b
  | .number _ => .number BEq.rfl
  | .string s => .string s
  | .list items => .list (EqualItems.refl items)
  | .map entries => .map (EqualEntries.refl entries)

theorem EqualItems.refl : ∀ items : List Value, EqualItems items items
  | [] => .nil
  | v :: rest => .cons (Equal.refl v) (EqualItems.refl rest)

theorem EqualEntries.refl : ∀ entries : Metadata, EqualEntries entries entries
  | [] => .nil
  | (key, v) :: rest => .cons key (Equal.refl v) (EqualEntries.refl rest)

end

mutual

theorem Equal.symm : ∀ {v v' : Value}, Equal v v' → Equal v' v
  | _, _, .null => .null
  | _, _, .bool b => .bool b
  | _, _, .number h => .number (BEq.symm h)
  | _, _, .string s => .string s
  | _, _, .list h => .list h.symm
  | _, _, .map h => .map h.symm

theorem EqualItems.symm : ∀ {items items' : List Value}, EqualItems items items' →
    EqualItems items' items
  | _, _, .nil => .nil
  | _, _, .cons hv hrest => .cons hv.symm hrest.symm

theorem EqualEntries.symm : ∀ {entries entries' : Metadata}, EqualEntries entries entries' →
    EqualEntries entries' entries
  | _, _, .nil => .nil
  | _, _, .cons key hv hrest => .cons key hv.symm hrest.symm

end

mutual

theorem Equal.trans : ∀ {u v w : Value}, Equal u v → Equal v w → Equal u w
  | _, _, _, .null, .null => .null
  | _, _, _, .bool b, .bool _ => .bool b
  | _, _, _, .number h, .number h' => .number (BEq.trans h h')
  | _, _, _, .string s, .string _ => .string s
  | _, _, _, .list h, .list h' => .list (h.trans h')
  | _, _, _, .map h, .map h' => .map (h.trans h')

theorem EqualItems.trans : ∀ {us vs ws : List Value}, EqualItems us vs → EqualItems vs ws →
    EqualItems us ws
  | _, _, _, .nil, .nil => .nil
  | _, _, _, .cons hv hrest, .cons hv' hrest' => .cons (hv.trans hv') (hrest.trans hrest')

theorem EqualEntries.trans : ∀ {us vs ws : Metadata}, EqualEntries us vs → EqualEntries vs ws →
    EqualEntries us ws
  | _, _, _, .nil, .nil => .nil
  | _, _, _, .cons key hv hrest, .cons _ hv' hrest' =>
    .cons key (hv.trans hv') (hrest.trans hrest')

end

mutual

theorem Equal.beq : ∀ {v v' : Value}, Equal v v' → Value.beq v v' = true
  | _, _, .null => rfl
  | _, _, .bool _ => BEq.rfl
  | _, _, .number h => h
  | _, _, .string _ => BEq.rfl
  | _, _, .list h => h.beqItems
  | _, _, .map h => h.beqEntries

theorem EqualItems.beqItems : ∀ {items items' : List Value}, EqualItems items items' →
    Value.beqItems items items' = true
  | _, _, .nil => rfl
  | _, _, .cons hv hrest => Bool.and_eq_true_iff.2 ⟨hv.beq, hrest.beqItems⟩

theorem EqualEntries.beqEntries : ∀ {entries entries' : Metadata}, EqualEntries entries entries' →
    Value.beqEntries entries entries' = true
  | _, _, .nil => rfl
  | _, _, .cons _ hv hrest =>
    Bool.and_eq_true_iff.2 ⟨Bool.and_eq_true_iff.2 ⟨BEq.rfl, hv.beq⟩, hrest.beqEntries⟩

end

/-- The equality that is computed is just this one. -/
theorem beq_iff_equal {v v' : Value} : (v == v') = true ↔ Equal v v' :=
  ⟨Equal.of_beq v v', Equal.beq⟩

instance : EquivBEq Value where
  rfl := beq_iff_equal.2 (Equal.refl _)
  symm := fun h ↦ beq_iff_equal.2 (beq_iff_equal.1 h).symm
  trans := fun h h' ↦ beq_iff_equal.2 ((beq_iff_equal.1 h).trans (beq_iff_equal.1 h'))

/-! ## Constructor by constructor -/

theorem EqualItems.of_forall₂ {items items' : List Value} (h : List.Forall₂ Equal items items') :
    EqualItems items items' := by
  induction h with
  | nil => exact .nil
  | cons hv hrest ih => exact .cons hv ih

theorem EqualEntries.related : ∀ {entries entries' : Metadata}, EqualEntries entries entries' →
    Keyed.Related Equal entries entries'
  | _, _, .nil => .nil
  | _, _, .cons key hv hrest => .cons key hv hrest.related

theorem EqualEntries.of_related {entries entries' : Metadata}
    (h : Keyed.Related Equal entries entries') : EqualEntries entries entries' := by
  induction h with
  | nil => exact .nil
  | cons key hv hrest ih => exact .cons key hv ih

/-- Numbers are equal as numbers. -/
theorem number_beq_iff {d d' : Decimal} :
    (number d == number d') = true ↔ d.toRat = d'.toRat :=
  Decimal.beq_iff_toRat_eq d d'

/-- Lists are equal item by item. -/
theorem list_beq_iff {items items' : List Value} :
    (list items == list items') = true ↔
      List.Forall₂ (fun v v' : Value ↦ (v == v') = true) items items' := by
  simp only [beq_iff_equal]
  constructor
  · intro h
    cases h with
    | list h => exact h.forall₂
  · exact fun h ↦ .list (.of_forall₂ h)

/-- Maps are equal key by key. -/
theorem map_beq_iff {entries entries' : Metadata} :
    (map entries == map entries') = true ↔
      Keyed.Related (fun v v' : Value ↦ (v == v') = true) entries entries' := by
  simp only [beq_iff_equal]
  constructor
  · intro h
    cases h with
    | map h => exact h.related
  · exact fun h ↦ .map (.of_related h)

/-! ## What equality does not tell apart -/

theorem Equal.isNull_eq {v v' : Value} (h : Equal v v') : v.isNull = v'.isNull := by
  cases h <;> rfl

theorem Equal.decimal? {v v' : Value} (h : Equal v v') :
    EqualDecimals v.decimal? v'.decimal? := by
  cases h with
  | number h => exact .some h
  | null | bool | string | list | map => exact .none

theorem Equal.items? {v v' : Value} (h : Equal v v') : Option.Rel EqualItems v.items? v'.items? := by
  cases h with
  | list h => exact .some h
  | null | bool | number | string | map => exact .none

theorem Equal.beq_eq {v v' w w' : Value} (hv : Equal v v') (hw : Equal w w') :
    (v == w) = (v' == w') := by
  rw [BEq.congr_left (beq_iff_equal.2 hv), BEq.congr_right (beq_iff_equal.2 hw)]

theorem EqualItems.any_eq {p q : Value → Bool} (hpq : ∀ {v v'}, Equal v v' → p v = q v') :
    ∀ {items items' : List Value}, EqualItems items items' → items.any p = items'.any q
  | _, _, .nil => rfl
  | _, _, .cons hv hrest => by rw [List.any_cons, List.any_cons, hpq hv, hrest.any_eq hpq]

theorem EqualItems.all_eq {p q : Value → Bool} (hpq : ∀ {v v'}, Equal v v' → p v = q v') :
    ∀ {items items' : List Value}, EqualItems items items' → items.all p = items'.all q
  | _, _, .nil => rfl
  | _, _, .cons hv hrest => by rw [List.all_cons, List.all_cons, hpq hv, hrest.all_eq hpq]

theorem EqualItems.contains_eq {items items' : List Value} {v v' : Value}
    (h : EqualItems items items') (hv : Equal v v') : items.contains v = items'.contains v' := by
  rw [List.contains_eq_any_beq, List.contains_eq_any_beq]
  exact h.any_eq fun hitem ↦ hv.beq_eq hitem

end Value

end Screening
