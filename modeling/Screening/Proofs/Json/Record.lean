import Screening.Json.Record

/-!
# What a record keeps of its members

A record is decoded member by member. Where a slot looks after a part of its own
(`Slot.LooksAfter`), no other member touches that part, and a second member for the slot is a fault.
So the part of a decoded record is what the one member for it was decoded to
(`Draft.exists_fill_of_record`).
-/

namespace Screening.Json

variable {α β σ : Type}

theorem bind_eq_ok_iff {e : Except Fault α} {f : α → Except Fault β} {b : β} :
    (e >>= f) = .ok b ↔ ∃ a, e = .ok a ∧ f a = .ok b := by
  cases e with
  | error fault => exact ⟨nofun, fun ⟨a, ha, _⟩ ↦ nomatch ha⟩
  | ok a =>
    constructor
    · exact fun h ↦ ⟨a, rfl, h⟩
    · rintro ⟨a', ha', h⟩
      cases ha'
      exact h

/-- An object has a value under a key. -/
def Draft.Has (draft : Draft) (key : String) (value : Draft) : Prop :=
  ∃ members stop, draft = .object members stop ∧ (some key, value) ∈ members

/-- The value that an object has first under a key. -/
def Draft.member? (draft : Draft) (key : String) : Option Draft :=
  match draft with
  | .object members _ => members.lookup (some key)
  | _ => none

theorem Draft.has_of_member? {draft value : Draft} {key : String}
    (h : draft.member? key = some value) : draft.Has key value := by
  cases draft with
  | object members stop =>
    obtain ⟨before, after, rfl, -⟩ := List.lookup_eq_some_iff.1 h
    exact ⟨_, stop, rfl, List.mem_append_right before List.mem_cons_self⟩
  | null | bool | number | string | array | broken => cases h

/-- The number, if it is one and is in range. -/
def Draft.number? : Draft → Option Number
  | .number n => n
  | _ => none

theorem Draft.eq_number_of_number? {draft : Draft} {n : Number} (h : draft.number? = some n) :
    draft = .number (some n) := by
  cases draft with
  | number found => exact congrArg Draft.number h
  | null | bool | string | array | object | broken => cases h

theorem Draft.required_eq_ok_iff {part : Option α} {a : α} :
    required part = .ok a ↔ part = some a := by
  cases part <;> simp [required]

theorem Draft.nullable_of_has {decode : Draft → Except Fault α} {draft value : Draft} {key : String}
    (h : draft.Has key value) : nullable decode draft = some <$> decode draft := by
  obtain ⟨members, stop, rfl, -⟩ := h
  rfl

namespace Slot

variable {slots : List (Slot σ)} {key : String} {slot : Slot σ} {part : σ → Option β}
  {parts parts' : σ} {members : List (Option String × Draft)} {value : Draft}

/-- Of all slots, the one under a key looks after a part: it is filled exactly if the part is there,
and no other slot touches the part. -/
structure LooksAfter (slots : List (Slot σ)) (key : String) (slot : Slot σ) (part : σ → Option β) :
    Prop where
  found : slots.find? (·.name == key) = some slot
  filled : ∀ parts, slot.filled parts = (part parts).isSome
  fills : ∀ {value parts parts'}, slot.fill value parts = .ok parts' → (part parts').isSome = true
  others : ∀ other ∈ slots, other.name ≠ key → ∀ {value parts parts'},
    other.fill value parts = .ok parts' → part parts' = part parts

/-- A part that is there stays as it is. -/
theorem LooksAfter.part_fillNamed (h : LooksAfter slots key slot part)
    {member : Option String × Draft} (hthere : (part parts).isSome = true)
    (hfill : fillNamed slots parts member = .ok parts') : part parts' = part parts := by
  obtain ⟨name, -, hfill⟩ := bind_eq_ok_iff.1 hfill
  cases hfound : slots.find? (·.name == name) with
  | none =>
    simp only [hfound] at hfill
    obtain ⟨-, -, hparts⟩ := bind_eq_ok_iff.1 hfill
    cases hparts
    rfl
  | some other =>
    simp only [hfound] at hfill
    have hname := List.find?_some hfound
    rw [beq_iff_eq] at hname
    by_cases hkey : name = key
    · subst hkey
      obtain rfl := Option.some.inj (hfound.symm.trans h.found)
      rw [h.filled, hthere] at hfill
      cases hfill
    · split at hfill
      · cases hfill
      · exact h.others other (List.mem_of_find?_eq_some hfound) (hname ▸ hkey) hfill

/-- Once a part is there, the members that follow leave it alone. -/
theorem LooksAfter.part_foldlM (h : LooksAfter slots key slot part)
    (hthere : (part parts).isSome = true)
    (hfold : members.foldlM (fillNamed slots) parts = .ok parts') : part parts' = part parts := by
  induction members generalizing parts with
  | nil =>
    cases hfold
    rfl
  | cons member members ih =>
    rw [List.foldlM_cons] at hfold
    obtain ⟨next, hnext, hfold⟩ := bind_eq_ok_iff.1 hfold
    have hsame := h.part_fillNamed hthere hnext
    rw [ih (hsame ▸ hthere) hfold, hsame]

/-- The part is what the one member for it fills in. -/
theorem LooksAfter.exists_fill (h : LooksAfter slots key slot part)
    (hmem : (some key, value) ∈ members)
    (hfold : members.foldlM (fillNamed slots) parts = .ok parts') :
    ∃ before after, slot.fill value before = .ok after ∧ part parts' = part after := by
  induction members generalizing parts with
  | nil => cases hmem
  | cons member members ih =>
    rw [List.foldlM_cons] at hfold
    obtain ⟨next, hnext, hrest⟩ := bind_eq_ok_iff.1 hfold
    rcases List.mem_cons.1 hmem with rfl | hmem
    · obtain ⟨name, hname, hfill⟩ := bind_eq_ok_iff.1 hnext
      obtain rfl : key = name := Except.ok.inj hname
      simp only [h.found] at hfill
      split at hfill
      · cases hfill
      · exact ⟨parts, next, hfill, h.part_foldlM (h.fills hfill) hrest⟩
    · exact ih hmem hrest

end Slot

/-- A record that is decoded from an object has, in each part, what the member for it was decoded
to. -/
theorem Draft.exists_fill_of_record {slots : Nat → List (Slot σ)} {slot : Nat → Slot σ}
    {key : String} {part : σ → Option β} {parts : σ} {finish : σ → Except Fault α} {room : Nat}
    {draft value : Draft} {a : α}
    (hslots : ∀ room, Slot.LooksAfter (slots room) key (slot room) part)
    (hhas : draft.Has key value) (h : record slots parts finish room draft = .ok a) :
    ∃ inner before after last, (slot inner).fill value before = .ok after ∧
      part last = part after ∧ finish last = .ok a := by
  obtain ⟨members, stop, rfl, hmem⟩ := hhas
  cases room with
  | zero => cases h
  | succ inner =>
    obtain ⟨last, hfold, h⟩ := bind_eq_ok_iff.1 h
    obtain ⟨-, -, hfinish⟩ := bind_eq_ok_iff.1 h
    obtain ⟨before, after, hfill, hpart⟩ := (hslots inner).exists_fill hmem hfold
    exact ⟨inner, before, after, last, hfill, hpart, hfinish⟩

end Screening.Json
