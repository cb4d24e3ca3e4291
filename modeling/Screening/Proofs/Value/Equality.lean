import Mathlib.Data.List.Forall2
import Mathlib.Data.Option.Defs
import Screening.Selection.Subject

/-!
# Equal values

Values are equal (`Value.Equal`) if they differ in nothing but the spelling of numbers. Equal maps
have equal values at every path, and the text of a value is told by the value up to equality and by
the texts of the numbers in it, its numerals.
-/

namespace Screening.Value

/-! ## Equality, constructor by constructor -/

mutual

/-- Values are the same but for the spelling of numbers. -/
inductive Equal : Value → Value → Prop
  | null : Equal .null .null
  | bool (b : Bool) : Equal (.bool b) (.bool b)
  | number {d d' : Decimal} : (d == d') = true → Equal (.number d) (.number d')
  | string (s : String) : Equal (.string s) (.string s)
  | list {items items' : List Value} : EqualItems items items' → Equal (.list items) (.list items')
  | map {entries entries' : Metadata} : EqualEntries entries entries' →
    Equal (.map entries) (.map entries')

inductive EqualItems : List Value → List Value → Prop
  | nil : EqualItems [] []
  | cons {v v' : Value} {rest rest' : List Value} : Equal v v' → EqualItems rest rest' →
    EqualItems (v :: rest) (v' :: rest')

inductive EqualEntries : Metadata → Metadata → Prop
  | nil : EqualEntries [] []
  | cons (key : String) {v v' : Value} {rest rest' : Metadata} : Equal v v' →
    EqualEntries rest rest' → EqualEntries ((key, v) :: rest) ((key, v') :: rest')

end

mutual

/-- Values that are found equal differ in the spelling of numbers only. -/
theorem Equal.of_beq : ∀ (v v' : Value), Value.beq v v' = true → Equal v v'
  | .null, v', h => by
    cases v' with
    | null => exact .null
    | _ => cases h
  | .bool b, v', h => by
    cases v' with
    | bool b' =>
      obtain rfl := beq_iff_eq.1 h
      exact .bool b
    | _ => cases h
  | .number d, v', h => by
    cases v' with
    | number d' => exact .number h
    | _ => cases h
  | .string s, v', h => by
    cases v' with
    | string s' =>
      obtain rfl := beq_iff_eq.1 h
      exact .string s
    | _ => cases h
  | .list items, v', h => by
    cases v' with
    | list items' => exact .list (EqualItems.of_beqItems items items' h)
    | _ => cases h
  | .map entries, v', h => by
    cases v' with
    | map entries' => exact .map (EqualEntries.of_beqEntries entries entries' h)
    | _ => cases h

theorem EqualItems.of_beqItems : ∀ items items' : List Value, beqItems items items' = true →
    EqualItems items items'
  | [], [], _ => .nil
  | [], _ :: _, h => nomatch h
  | _ :: _, [], h => nomatch h
  | v :: rest, v' :: rest', h => by
    obtain ⟨hv, hrest⟩ := Bool.and_eq_true_iff.1 h
    exact .cons (Equal.of_beq v v' hv) (EqualItems.of_beqItems rest rest' hrest)

theorem EqualEntries.of_beqEntries : ∀ entries entries' : Metadata,
    beqEntries entries entries' = true → EqualEntries entries entries'
  | [], [], _ => .nil
  | [], _ :: _, h => nomatch h
  | _ :: _, [], h => nomatch h
  | (key, v) :: rest, (key', v') :: rest', h => by
    obtain ⟨hentry, hrest⟩ := Bool.and_eq_true_iff.1 h
    obtain ⟨hkey, hv⟩ := Bool.and_eq_true_iff.1 hentry
    obtain rfl := beq_iff_eq.1 hkey
    exact .cons key (Equal.of_beq v v' hv) (EqualEntries.of_beqEntries rest rest' hrest)

end

theorem EqualItems.forall₂ : ∀ {items items' : List Value}, EqualItems items items' →
    List.Forall₂ Equal items items'
  | _, _, .nil => .nil
  | _, _, .cons hv hrest => .cons hv hrest.forall₂

/-! ## Numerals -/

mutual

/-- The texts of the numbers in a value, from the first to the last. -/
def numerals : Value → List String
  | .number d => [d.render]
  | .list items => numeralsItems items
  | .map entries => numeralsEntries entries
  | .null | .bool _ | .string _ => []

def numeralsItems : List Value → List String
  | [] => []
  | v :: rest => numerals v ++ numeralsItems rest

def numeralsEntries : List (String × Value) → List String
  | [] => []
  | (_, v) :: rest => numerals v ++ numeralsEntries rest

end

mutual

theorem Equal.length_numerals : ∀ {v v' : Value}, Equal v v' →
    (numerals v).length = (numerals v').length
  | _, _, .null => rfl
  | _, _, .bool _ => rfl
  | _, _, .number _ => rfl
  | _, _, .string _ => rfl
  | _, _, .list h => h.length_numerals
  | _, _, .map h => h.length_numerals

theorem EqualItems.length_numerals : ∀ {items items' : List Value}, EqualItems items items' →
    (numeralsItems items).length = (numeralsItems items').length
  | _, _, .nil => rfl
  | _, _, .cons hv hrest => by
    rw [numeralsItems, numeralsItems, List.length_append, List.length_append, hv.length_numerals,
      hrest.length_numerals]

theorem EqualEntries.length_numerals : ∀ {entries entries' : Metadata},
    EqualEntries entries entries' →
      (numeralsEntries entries).length = (numeralsEntries entries').length
  | _, _, .nil => rfl
  | _, _, .cons _ hv hrest => by
    rw [numeralsEntries, numeralsEntries, List.length_append, List.length_append,
      hv.length_numerals, hrest.length_numerals]

end

/-! ## Texts -/

mutual

/-- Equal values with the same numerals have the same text. -/
theorem Equal.render_eq : ∀ {v v' : Value}, Equal v v' → numerals v = numerals v' →
    render v = render v'
  | _, _, .null, _ => rfl
  | _, _, .bool _, _ => rfl
  | _, _, .number _, h => List.singleton_inj.1 h
  | _, _, .string _, _ => rfl
  | _, _, .list hitems, h => by rw [render, render, hitems.renderItems_eq h]
  | _, _, .map hentries, h => by rw [render, render, hentries.renderEntries_eq h]

theorem EqualItems.renderItems_eq : ∀ {items items' : List Value}, EqualItems items items' →
    numeralsItems items = numeralsItems items' → renderItems items = renderItems items'
  | _, _, .nil, _ => rfl
  | _, _, .cons hv hrest, h => by
    obtain ⟨hfirst, hothers⟩ := List.append_inj h hv.length_numerals
    rw [renderItems, renderItems, hv.render_eq hfirst, hrest.renderItems_eq hothers]

theorem EqualEntries.renderEntries_eq : ∀ {entries entries' : Metadata},
    EqualEntries entries entries' → numeralsEntries entries = numeralsEntries entries' →
      renderEntries entries = renderEntries entries'
  | _, _, .nil, _ => rfl
  | _, _, .cons _ hv hrest, h => by
    obtain ⟨hfirst, hothers⟩ := List.append_inj h hv.length_numerals
    rw [renderEntries, renderEntries, hv.render_eq hfirst, hrest.renderEntries_eq hothers]

end

/-! ## Paths -/

theorem EqualEntries.lookup (key : String) : ∀ {entries entries' : Metadata},
    EqualEntries entries entries' → Option.Rel Equal (entries.lookup key) (entries'.lookup key)
  | _, _, .nil => .none
  | _, _, .cons key' hv hrest => by
    rw [List.lookup_cons, List.lookup_cons]
    cases key == key' with
    | true => exact .some hv
    | false => exact hrest.lookup key

/-- A path leads to the same, or to nothing in both maps. -/
theorem EqualEntries.follow : ∀ (path : List (List Char)) {entries entries' : Metadata},
    EqualEntries entries entries' →
      Option.Rel Equal (Value.follow entries path) (Value.follow entries' path)
  | [], _, _, _ => .none
  | segment :: rest, entries, entries', h => by
    have hwhole := h.lookup (joinSegments (segment :: rest))
    have hfirst := h.lookup (String.ofList segment)
    rw [Value.follow, Value.follow]
    generalize entries.lookup (joinSegments (segment :: rest)) = whole at hwhole ⊢
    generalize entries'.lookup (joinSegments (segment :: rest)) = whole' at hwhole ⊢
    generalize entries.lookup (String.ofList segment) = first at hfirst ⊢
    generalize entries'.lookup (String.ofList segment) = first' at hfirst ⊢
    cases hwhole with
    | some hv => exact .some hv
    | none =>
      cases hfirst with
      | none => exact .none
      | some hv =>
        cases hv with
        | map hnested => exact hnested.follow rest
        | null | bool | number | string | list => exact .none

/-- Equal data has equal values at every path, or none at both. -/
theorem EqualEntries.lookup_path {entries entries' : Metadata} (h : EqualEntries entries entries')
    (path : String) :
    Option.Rel Equal (Value.lookup entries path) (Value.lookup entries' path) :=
  h.follow (segments path.toList)

end Screening.Value
