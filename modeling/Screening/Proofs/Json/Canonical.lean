import Screening.Value.Basic

/-!
# The same value in JSON

An object is a map, so two objects are the same value if they have the same values under the same
keys, whatever the order of their members and however often a key was repeated before its last
value. The two zeros are the same value, too. A canonical form settles all of this at once: the
members are put in key order, each key once, and no zero has a sign. Values are the same
(`Json.Same`) if they have the same canonical form.

Whatever is read as data is read by its value (`Value.ofJson_eq_of_same`), and the same objects have
the same members but for their order (`Json.Same.members?`).
-/

namespace Screening

/-- A double without a significand is one of the two zeros. -/
theorem Double.eq_zero {d : Double} (h : d.significand = 0) : d = .zero d.negative := by
  obtain ⟨negative, significand, shift, hlt, hle, hcanonical⟩ := d
  obtain rfl : significand = 0 := h
  obtain rfl : shift = 0 := hcanonical.resolve_right (by decide)
  rfl

namespace Json

/-! ## Canonical forms -/

/-- The number, a zero without its sign. -/
def Number.canonical : Number → Number
  | .integer n lower upper => .integer n lower upper
  | .double d => .double (if d.significand = 0 then .zero false else d)

mutual

/-- The value with the members of its objects in key order, each once, and zeros without a sign. -/
def canonical : Json → Json
  | .null => .null
  | .bool b => .bool b
  | .number n => .number n.canonical
  | .string s => .string s
  | .array items => .array (canonicalItems items)
  | .object written => .object (Keyed.ofList (canonicalMembers written))

def canonicalItems : List Json → List Json
  | [] => []
  | item :: rest => canonical item :: canonicalItems rest

def canonicalMembers : List (String × Json) → List (String × Json)
  | [] => []
  | (key, value) :: rest => (key, canonical value) :: canonicalMembers rest

end

/-- Two pieces of JSON are the same value. -/
def Same (json other : Json) : Prop := json.canonical = other.canonical

theorem Same.symm {json other : Json} (h : json.Same other) : other.Same json := Eq.symm h

theorem canonicalMembers_eq_map (members : List (String × Json)) :
    canonicalMembers members = members.map fun member ↦ (member.1, member.2.canonical) := by
  induction members with
  | nil => rfl
  | cons member rest ih => rw [canonicalMembers, ih, List.map_cons]

@[simp] theorem text?_canonical (json : Json) : json.canonical.text? = json.text? := by
  cases json <;> rfl

theorem Same.text?_eq {json other : Json} (h : json.Same other) : json.text? = other.text? := by
  rw [← text?_canonical json, h, text?_canonical]

/-! ## Numbers -/

/-- A zero means the same amount with and without its sign. -/
theorem Number.decimal?_canonical (n : Number) : n.canonical.decimal? = n.decimal? := by
  cases n with
  | integer n lower upper => rfl
  | double d =>
    rw [canonical]
    by_cases h : d.significand = 0
    · rw [if_pos h, Double.eq_zero h]
      cases d.negative <;> rfl
    · rw [if_neg h]

/-! ## Members -/

/-- The members of an object are those of its canonical form, but for their order and with their
values in canonical form. -/
theorem canonicalMembers_merge_perm (written : List (String × Json)) :
    (canonicalMembers (Keyed.merge written)).Perm (Keyed.ofList (canonicalMembers written)) := by
  rw [canonicalMembers_eq_map, canonicalMembers_eq_map, ← Keyed.merge_map]
  exact Keyed.merge_perm_ofList _

/-- The same values have the same members but for their order, if they are objects. -/
theorem Same.members? {json other : Json} (h : json.Same other) :
    Option.Rel (fun members others ↦ (canonicalMembers members).Perm (canonicalMembers others))
      json.members? other.members? := by
  rw [Same] at h
  cases json with
  | object written =>
    cases other with
    | object written' =>
      have hcanonical : Keyed.ofList (canonicalMembers written)
          = Keyed.ofList (canonicalMembers written') := Json.object.inj h
      refine .some ((canonicalMembers_merge_perm written).trans ?_)
      rw [hcanonical]
      exact (canonicalMembers_merge_perm written').symm
    | _ => cases h
  | _ =>
    cases other with
    | object written' => cases h
    | _ => exact .none

end Json

namespace Value

theorem ofJsonMembers_eq_map (members : List (String × Json)) :
    ofJsonMembers members = members.map fun member ↦ (member.1, ofJson member.2) := by
  induction members with
  | nil => rfl
  | cons member rest ih => rw [ofJsonMembers, ih, List.map_cons]

mutual

/-- Values of metadata do not depend on the order of members, nor on the sign of a zero. -/
theorem ofJson_canonical : ∀ json : Json, ofJson json.canonical = ofJson json
  | .null | .bool _ | .string _ => rfl
  | .number n => by rw [Json.canonical, ofJson, n.decimal?_canonical, ofJson]
  | .array items => by rw [Json.canonical, ofJson, ofJsonItems_canonicalItems items, ofJson]
  | .object written => by
    -- putting the members in order once more, with their values as data, changes nothing
    rw [Json.canonical, ofJson, ofJsonMembers_eq_map, Keyed.ofList_map, Keyed.ofList_ofList,
      ← Keyed.ofList_map, ← ofJsonMembers_eq_map, ofJsonMembers_canonicalMembers written, ofJson]

theorem ofJsonItems_canonicalItems : ∀ items : List Json,
    ofJsonItems (Json.canonicalItems items) = ofJsonItems items
  | [] => rfl
  | item :: rest => by
    rw [Json.canonicalItems, ofJsonItems, ofJson_canonical item, ofJsonItems_canonicalItems rest,
      ofJsonItems]

theorem ofJsonMembers_canonicalMembers : ∀ members : List (String × Json),
    ofJsonMembers (Json.canonicalMembers members) = ofJsonMembers members
  | [] => rfl
  | (key, value) :: rest => by
    rw [Json.canonicalMembers, ofJsonMembers, ofJson_canonical value,
      ofJsonMembers_canonicalMembers rest, ofJsonMembers]

end

/-- The same JSON is the same data. -/
theorem ofJson_eq_of_same {json other : Json} (h : json.Same other) :
    ofJson json = ofJson other := by
  rw [← ofJson_canonical json, h, ofJson_canonical other]

end Value

end Screening
