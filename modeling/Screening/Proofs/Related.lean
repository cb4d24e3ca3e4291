import Mathlib.Data.List.Forall2
import Screening.Keyed

/-!
# Related options and maps

A relation of values extends to what may be missing (`Option.Rel`) and to maps with the same keys in
the same order (`Keyed.Related`). Maps stay related through looking up and through storing, whatever
the place that a new key gets.
-/

/-! ## Options -/

section Options

variable {α β γ δ : Type} {r : α → β → Prop} {s : γ → δ → Prop} {x : Option α} {y : Option β}

theorem Option.Rel.refl {r : α → α → Prop} (hr : ∀ a, r a a) : ∀ x : Option α, Option.Rel r x x
  | Option.none => .none
  | Option.some a => .some (hr a)

theorem Option.Rel.symm {r : α → α → Prop} {x y : Option α} (hr : ∀ {a b}, r a b → r b a)
    (h : Option.Rel r x y) : Option.Rel r y x := by
  cases h with
  | none => exact .none
  | some h => exact .some (hr h)

theorem Option.Rel.map_eq {f : α → γ} {g : β → γ} (hfg : ∀ {a b}, r a b → f a = g b)
    (h : Option.Rel r x y) : x.map f = y.map g := by
  cases h with
  | none => rfl
  | some h => exact congrArg Option.some (hfg h)

theorem Option.Rel.map {f : α → γ} {g : β → δ} (hfg : ∀ {a b}, r a b → s (f a) (g b))
    (h : Option.Rel r x y) : Option.Rel s (x.map f) (y.map g) := by
  cases h with
  | none => exact .none
  | some h => exact .some (hfg h)

theorem Option.Rel.bind_eq {f : α → Option γ} {g : β → Option γ} (hfg : ∀ {a b}, r a b → f a = g b)
    (h : Option.Rel r x y) : x.bind f = y.bind g := by
  cases h with
  | none => rfl
  | some h => exact hfg h

theorem Option.Rel.bind {f : α → Option γ} {g : β → Option δ}
    (hfg : ∀ {a b}, r a b → Option.Rel s (f a) (g b)) (h : Option.Rel r x y) :
    Option.Rel s (x.bind f) (y.bind g) := by
  cases h with
  | none => exact .none
  | some h => exact hfg h

theorem Option.Rel.any_eq {p : α → Bool} {q : β → Bool} (hpq : ∀ {a b}, r a b → p a = q b)
    (h : Option.Rel r x y) : x.any p = y.any q := by
  cases h with
  | none => rfl
  | some h => exact hpq h

theorem Option.Rel.filter {p : α → Bool} {q : β → Bool}
    (hpq : ∀ {a b}, a ∈ x → b ∈ y → r a b → p a = q b) (h : Option.Rel r x y) :
    Option.Rel r (x.filter p) (y.filter q) := by
  cases h with
  | none => exact .none
  | @some a b h =>
    have heq : p a = q b := hpq rfl rfl h
    rw [Option.filter_some, Option.filter_some, heq]
    split
    · exact .some h
    · exact .none

theorem Option.Rel.forall₂_toList (h : Option.Rel r x y) : List.Forall₂ r x.toList y.toList := by
  cases h with
  | none => exact .nil
  | some h => exact .cons h .nil

theorem Option.Rel.exists_left {b : β} (h : Option.Rel r x (Option.some b)) :
    ∃ a, x = Option.some a ∧ r a b := by
  cases h with
  | some h => exact ⟨_, rfl, h⟩

end Options

/-! ## Maps -/

namespace Screening.Keyed

variable {α : Type}

/-- Maps with the same keys in the same order, under which they have related values. -/
inductive Related (r : α → α → Prop) : List (String × α) → List (String × α) → Prop
  | nil : Related r [] []
  | cons (key : String) {value value' : α} {rest rest' : List (String × α)} : r value value' →
    Related r rest rest' → Related r ((key, value) :: rest) ((key, value') :: rest')

namespace Related

variable {r : α → α → Prop} {map other : List (String × α)} {value value' : α}

/-- Related maps have the same keys, in the same order. -/
theorem map_fst_eq (h : Related r map other) : map.map (·.1) = other.map (·.1) := by
  induction h with
  | nil => rfl
  | cons key hvalue hrest ih => rw [List.map_cons, List.map_cons, ih]

/-- Under each key related maps have related values, or none. -/
theorem lookup (h : Related r map other) (k : String) :
    Option.Rel r (map.lookup k) (other.lookup k) := by
  induction h with
  | nil => exact .none
  | cons key hvalue hrest ih =>
    rw [lookup_entry, lookup_entry]
    by_cases hkey : k = key
    · rw [if_pos hkey, if_pos hkey]
      exact .some hvalue
    · rwa [if_neg hkey, if_neg hkey]

/-- Storing related values under a key keeps maps related. -/
theorem insert (key : String) (hvalue : r value value') (h : Related r map other) :
    Related r (insert key value map) (insert key value' other) := by
  induction h with
  | nil => exact .cons key hvalue .nil
  | cons k hentry hrest ih =>
    rw [Keyed.insert, Keyed.insert]
    split
    · exact .cons key hvalue hrest
    · split
      · exact .cons key hvalue (.cons k hentry hrest)
      · exact .cons k hentry ih

theorem put (key : String) (hvalue : r value value') (h : Related r map other) :
    Related r (put key value map) (put key value' other) := by
  induction h with
  | nil => exact .cons key hvalue .nil
  | cons k hentry hrest ih =>
    rw [Keyed.put, Keyed.put]
    split
    · exact .cons key hvalue hrest
    · exact .cons k hentry ih

/-- Storing entries one after the other keeps maps related if each step does. -/
theorem foldl {store : String → α → List (String × α) → List (String × α)}
    (hstore : ∀ key {value value' map other}, r value value' → Related r map other →
      Related r (store key value map) (store key value' other))
    {entries others : List (String × α)} (hentries : Related r entries others)
    (h : Related r map other) :
    Related r (entries.foldl (fun map entry ↦ store entry.1 entry.2 map) map)
      (others.foldl (fun map entry ↦ store entry.1 entry.2 map) other) := by
  induction hentries generalizing map other with
  | nil => exact h
  | cons key hvalue hrest ih => exact ih (hstore key hvalue h)

theorem ofList (h : Related r map other) : Related r (ofList map) (ofList other) :=
  foldl (fun key _ _ _ _ hvalue h ↦ insert key hvalue h) h .nil

theorem merge (h : Related r map other) : Related r (merge map) (merge other) :=
  foldl (fun key _ _ _ _ hvalue h ↦ put key hvalue h) h .nil

end Related

end Screening.Keyed
