import Mathlib.Logic.ExistsUnique
import Mathlib.Tactic.ByContra
import Screening.Value.Basic

/-!
# What is found at a path

The segments of a path are the texts between its dots (`Value.HasSegments`). Taken as keys, the
first of them lead from map to map, as deep as there are maps (`Value.mapAt?`). At every depth the
map that is reached may have the rest of the path, dots and all, as one key (`Value.literalAt?`).
What is found at the path is what stands under such a key at the least depth
(`Value.follow_eq_findSome?`).

So a path is looked up under two keys of the outermost map only: as a whole, and by its first
segment (`Value.lookup_congr`).
-/

namespace Screening.Value

/-! ## Segments -/

/-- The segments of a path: the texts between its dots, any of which may be empty. -/
structure HasSegments (path : String) (parts : List String) : Prop where
  ne_nil : parts ≠ []
  dot_notMem : ∀ part ∈ parts, '.' ∉ part.toList
  joined : ".".intercalate parts = path

/-- The segments of a path are what stands between its dots. -/
theorem segments_eq_splitOn (cs : List Char) : segments cs = cs.splitOn '.' := by
  induction cs with
  | nil => rfl
  | cons c cs ih =>
    obtain ⟨s, rest, hsplit⟩ := List.exists_cons_of_ne_nil (List.splitOn_ne_nil '.' cs)
    rw [segments, ih, List.splitOn_cons_eq_if_modifyHead, hsplit]
    by_cases hc : c = '.' <;> simp [hc]

theorem dot_notMem_of_mem_segments {cs segment : List Char} (h : segment ∈ segments cs) :
    '.' ∉ segment := by
  induction cs generalizing segment with
  | nil =>
    rw [List.mem_singleton.1 h]
    exact List.not_mem_nil
  | cons c cs ih =>
    rw [segments] at h
    split at h
    · next hsplit => exact absurd (segments_eq_splitOn cs ▸ hsplit) (List.splitOn_ne_nil '.' cs)
    · next first rest hsplit =>
      rw [hsplit] at ih
      split at h
      · rcases List.mem_cons.1 h with rfl | hmem
        · exact List.not_mem_nil
        · exact ih hmem
      · next hc =>
        rcases List.mem_cons.1 h with rfl | hmem
        · rw [List.mem_cons, not_or]
          exact ⟨Ne.symm hc, ih List.mem_cons_self⟩
        · exact ih (List.mem_cons_of_mem first hmem)

/-- A key that segments make together has dots between them. -/
theorem joinSegments_eq (path : List (List Char)) :
    joinSegments path = ".".intercalate (path.map String.ofList) := by
  rw [← String.toList_inj, joinSegments, String.toList_ofList, String.toList_intercalate,
    List.map_map]
  simp [Function.comp_def]

/-- Every path has segments, and no others. -/
theorem hasSegments_iff {path : String} {parts : List String} :
    HasSegments path parts ↔ parts = (segments path.toList).map String.ofList := by
  constructor
  · rintro ⟨hne, hdot, rfl⟩
    have hsplit : segments (".".intercalate parts).toList = parts.map String.toList := by
      rw [segments_eq_splitOn, String.toList_intercalate]
      exact List.splitOn_intercalate '.' (by simpa using hdot) (by simpa using hne)
    rw [hsplit, List.map_map]
    simp [Function.comp_def]
  · rintro rfl
    refine ⟨?_, ?_, ?_⟩
    · simp [segments_eq_splitOn, List.splitOn_ne_nil]
    · intro part hpart
      obtain ⟨segment, hsegment, rfl⟩ := List.mem_map.1 hpart
      rw [String.toList_ofList]
      exact dot_notMem_of_mem_segments hsegment
    · rw [← joinSegments_eq, joinSegments, segments_eq_splitOn, List.intercalate_splitOn,
        String.ofList_toList]

/-! ## Depths -/

def entries? : Value → Option Metadata
  | .map entries => some entries
  | _ => none

/-- The map that the first segments of a path lead to, each of them a key of the map before. -/
def mapAt? (map : Metadata) (parts : List String) : Nat → Option Metadata
  | 0 => some map
  | depth + 1 =>
    (mapAt? map parts depth).bind fun outer ↦
      parts[depth]?.bind fun part ↦ (outer.lookup part).bind entries?

/-- What the map at a depth has under the rest of the path, taken as one key. -/
def literalAt? (map : Metadata) (parts : List String) (depth : Nat) : Option Value :=
  (mapAt? map parts depth).bind (·.lookup (".".intercalate (parts.drop depth)))

variable {map map' : Metadata} {v : Value}

theorem mapAt?_cons_succ (map : Metadata) (part : String) (parts : List String) (depth : Nat) :
    mapAt? map (part :: parts) (depth + 1)
      = ((map.lookup part).bind entries?).bind (mapAt? · parts depth) := by
  induction depth with
  | zero => simp [mapAt?]
  | succ depth ih =>
    rw [mapAt?, ih, List.getElem?_cons_succ, Option.bind_assoc]
    rfl

theorem literalAt?_zero (map : Metadata) (parts : List String) :
    literalAt? map parts 0 = map.lookup (".".intercalate parts) := rfl

theorem literalAt?_cons_succ (map : Metadata) (part : String) (parts : List String) (depth : Nat) :
    literalAt? map (part :: parts) (depth + 1)
      = ((map.lookup part).bind entries?).bind (literalAt? · parts depth) := by
  rw [literalAt?, mapAt?_cons_succ, Option.bind_assoc, List.drop_succ_cons]
  rfl

/-- A path is looked up as a whole first, and then its rest in the map under its first segment. -/
theorem follow_cons (map : Metadata) (segment : List Char) (rest : List (List Char)) :
    follow map (segment :: rest)
      = (map.lookup (joinSegments (segment :: rest))).or
          (((map.lookup (String.ofList segment)).bind entries?).bind (follow · rest)) := by
  rw [follow]
  cases map.lookup (joinSegments (segment :: rest)) with
  | some value => rfl
  | none =>
    rw [Option.none_or]
    cases map.lookup (String.ofList segment) with
    | none => rfl
    | some value => cases value <;> rfl

/-- Following a path finds the first literal key on the way down. -/
theorem follow_eq_findSome? (map : Metadata) (path : List (List Char)) :
    follow map path
      = (List.range path.length).findSome? (literalAt? map (path.map String.ofList)) := by
  induction path generalizing map with
  | nil => rfl
  | cons segment rest ih =>
    -- The hypothesis is about a map, but the first segment may lead to none.
    have hdeeper (outer : Option Metadata) :
        outer.bind (follow · rest) = (List.range rest.length).findSome? fun depth ↦
          outer.bind (literalAt? · (rest.map String.ofList) depth) := by
      cases outer with
      | none => exact (List.findSome?_eq_none_iff.2 fun _ _ ↦ rfl).symm
      | some nested => exact ih nested
    rw [follow_cons, hdeeper, joinSegments_eq, List.length_cons, List.range_succ_eq_map,
      List.findSome?_cons, List.findSome?_map]
    simp only [List.map_cons, Function.comp_def, Nat.succ_eq_add_one, literalAt?_cons_succ]
    rw [literalAt?_zero]
    cases map.lookup (".".intercalate (String.ofList segment :: rest.map String.ofList)) with
    | none => rfl
    | some value => rfl

theorem findSome?_range_eq_some_iff {α : Type} {f : Nat → Option α} {n : Nat} {a : α} :
    (List.range n).findSome? f = some a ↔ ∃ i < n, f i = some a ∧ ∀ j < i, f j = none := by
  induction n with
  | zero => simp
  | succ n ih =>
    simp only [List.range_succ, List.findSome?_append, Option.or_eq_some_iff, ih,
      List.findSome?_eq_none_iff, List.mem_range, List.findSome?_singleton,
      Nat.lt_succ_iff_lt_or_eq, or_and_right, exists_or, exists_eq_left, and_comm]

/-- What is found at a path stands at the least depth at which there is a literal key. -/
theorem lookup_eq_some_iff {path : String} {parts : List String} (hparts : HasSegments path parts) :
    lookup map path = some v ↔
      ∃ depth < parts.length, literalAt? map parts depth = some v ∧
        ∀ lower < depth, literalAt? map parts lower = none := by
  rw [lookup, follow_eq_findSome?, findSome?_range_eq_some_iff, ← hasSegments_iff.1 hparts,
    hasSegments_iff.1 hparts, List.length_map]

/-! ## What a path depends on -/

theorem exists_hasSegments (path : String) :
    ∃ segment rest, segments path.toList = segment :: rest ∧
      HasSegments path (String.ofList segment :: rest.map String.ofList) := by
  obtain ⟨segment, rest, hsplit⟩ : ∃ segment rest, segments path.toList = segment :: rest :=
    List.exists_cons_of_ne_nil (segments_eq_splitOn _ ▸ List.splitOn_ne_nil '.' _)
  exact ⟨segment, rest, hsplit, hasSegments_iff.2 (by rw [hsplit, List.map_cons])⟩

/-- Of the outermost map a path sees what is under the whole path and under its first segment. -/
theorem lookup_congr {path : String} (hwhole : map.lookup path = map'.lookup path)
    (hfirst : ∀ first rest, HasSegments path (first :: rest) →
      map.lookup first = map'.lookup first) :
    lookup map path = lookup map' path := by
  obtain ⟨segment, rest, hsplit, hparts⟩ := exists_hasSegments path
  have hjoined : joinSegments (segment :: rest) = path := (joinSegments_eq _).trans hparts.joined
  rw [lookup, lookup, hsplit, follow_cons, follow_cons, hjoined, hwhole, hfirst _ _ hparts]

/-- A key is seen by no paths but itself and, if it has no dot, those that it is the first segment
of. -/
theorem lookup_insert_of_ne {key path : String} (hwhole : path ≠ key)
    (hfirst : '.' ∉ key.toList → ∀ rest, path ≠ key ++ "." ++ rest) (value : Value)
    (map : Metadata) : lookup (Keyed.insert key value map) path = lookup map path := by
  apply lookup_congr
  · rw [Keyed.lookup_insert, if_neg hwhole]
  · intro first rest hparts
    rw [Keyed.lookup_insert, if_neg]
    rintro rfl
    have hjoined := hparts.joined
    cases rest with
    | nil =>
      rw [String.intercalate_singleton] at hjoined
      exact hwhole hjoined.symm
    | cons next rest =>
      rw [String.intercalate_cons_cons] at hjoined
      exact hfirst (hparts.dot_notMem _ List.mem_cons_self) _ hjoined.symm

/-- What is found at a path is the value of the shallowest literal key. The whole path as a key
hides all else; beside it only the first segment is ever a key of the outermost map. So a new value
under a key is seen by this very key and, if it has no dot, by paths that it is the first segment
of. -/
theorem lookup_finds_shallowest (map : Metadata) (path : String) :
    (∃! parts, HasSegments path parts) ∧
    (∀ parts, HasSegments path parts → ∀ v, lookup map path = some v ↔
      ∃ depth < parts.length, literalAt? map parts depth = some v ∧
        ∀ lower < depth, literalAt? map parts lower = none) ∧
    (∀ v, map.lookup path = some v → lookup map path = some v) ∧
    (∀ map' : Metadata, map.lookup path = map'.lookup path →
      (∀ first rest, HasSegments path (first :: rest) → map.lookup first = map'.lookup first) →
        lookup map path = lookup map' path) ∧
    ∀ key value, lookup (Keyed.insert key value map) path ≠ lookup map path →
      path = key ∨ ('.' ∉ key.toList ∧ ∃ rest, path = key ++ "." ++ rest) := by
  refine ⟨?segments, ?shallowest, ?whole, ?first, ?insertion⟩
  case segments => exact ⟨_, hasSegments_iff.2 rfl, fun _ ↦ hasSegments_iff.1⟩
  case shallowest => exact fun parts hparts v ↦ lookup_eq_some_iff hparts
  case whole =>
    intro v hv
    have hparts : HasSegments path _ := hasSegments_iff.2 rfl
    refine (lookup_eq_some_iff hparts).2 ⟨0, List.length_pos_iff.2 hparts.ne_nil, ?_, nofun⟩
    rwa [literalAt?_zero, hparts.joined]
  case first => exact fun map' ↦ lookup_congr
  case insertion =>
    intro key value hseen
    by_contra hunseen
    rw [not_or, not_and, not_exists] at hunseen
    exact hseen (lookup_insert_of_ne hunseen.1 hunseen.2 value map)

/-- A map of tiers of loyalty, with a key that has a dot and holds null. -/
def loyaltyData : Metadata := [
  ("loyalty", .map [("tier", .map [("name", .string "gold")]), ("tier.name", .null)])]

/-- The key with a dot hides the name that stands deeper, and a key in front of it is not seen. -/
theorem lookup_loyaltyData :
    HasSegments "loyalty.tier.name" ["loyalty", "tier", "name"] ∧
    lookup loyaltyData "loyalty.tier.name" = some .null ∧
    lookup (Keyed.insert "loyalty.tier" (.string "silver") loyaltyData) "loyalty.tier.name"
      = some .null := by
  have hparts : HasSegments "loyalty.tier.name" ["loyalty", "tier", "name"] :=
    ⟨List.cons_ne_nil _ _, by decide +kernel, rfl⟩
  obtain ⟨-, hshallowest, -, -, hinsert⟩ :=
    lookup_finds_shallowest loyaltyData "loyalty.tier.name"
  have hnull : lookup loyaltyData "loyalty.tier.name" = some .null := by
    refine (hshallowest _ hparts _).2 ⟨1, by decide, rfl, fun lower hlower ↦ ?_⟩
    rw [Nat.lt_one_iff.1 hlower]
    rfl
  refine ⟨hparts, hnull, ?_⟩
  by_contra hseen
  rcases hinsert "loyalty.tier" (.string "silver") (hnull ▸ hseen) with hkey | ⟨hdot, -⟩
  · exact absurd hkey (by decide)
  · exact absurd hdot (by decide)

end Screening.Value
