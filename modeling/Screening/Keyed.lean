/-!
# Maps and sets kept in key order

A map is a list of keys with their values, a set a list of keys, both in increasing order of the
keys. Looking up takes the first entry for a key (`List.lookup`), so the laws below hold of every
list, ordered or not.

`put` serves the other kind of map, which keeps its keys in the order in which they first came.
-/

namespace Screening.Keyed

variable {α : Type}

/-- Stores a value under a key, at the key's place in the order. -/
def insert (key : String) (value : α) : List (String × α) → List (String × α)
  | [] => [(key, value)]
  | (k, v) :: rest =>
    if key = k then (key, value) :: rest
    else if key < k then (key, value) :: (k, v) :: rest
    else (k, v) :: insert key value rest

/-- The map of a list of entries, in which the last value of a repeated key counts. -/
def ofList (entries : List (String × α)) : List (String × α) :=
  entries.foldl (fun map entry => insert entry.1 entry.2 map) []

def insertKey (key : String) : List String → List String
  | [] => [key]
  | k :: rest =>
    if key = k then key :: rest
    else if key < k then key :: k :: rest
    else k :: insertKey key rest

/-- Stores a value under a key: in place of the old value, or else at the end. -/
def put (key : String) (value : α) : List (String × α) → List (String × α)
  | [] => [(key, value)]
  | (k, v) :: rest => if key = k then (key, value) :: rest else (k, v) :: put key value rest

/-- The entries with each key once, at its first place and with its last value. -/
def merge (entries : List (String × α)) : List (String × α) :=
  entries.foldl (fun map entry => put entry.1 entry.2 map) []

/-! ## What a later look-up finds -/

theorem lookup_entry (k key : String) (value : α) (rest : List (String × α)) :
    List.lookup k ((key, value) :: rest) = if k = key then some value else rest.lookup k := by
  by_cases h : k = key
  · simp [h]
  · simp [List.lookup_cons, h, beq_false_of_ne h]

/-- Looking up in a list of entries that belong to items finds the first item with the key. -/
theorem lookup_map {ι : Type} (items : List ι) (key : ι → String) (value : ι → α) (k : String) :
    (items.map fun item => (key item, value item)).lookup k
      = (items.find? (k == key ·)).map value := by
  induction items with
  | nil => rfl
  | cons item items ih =>
    rw [List.map_cons, List.lookup_cons, List.find?_cons, ih]
    cases k == key item <;> rfl

theorem lookup_eq_find? (map : List (String × α)) (k : String) :
    map.lookup k = (map.find? (k == ·.1)).map (·.2) := by
  simpa using lookup_map map (·.1) (·.2) k

theorem lookup_map_snd {β : Type} (f : α → β) (map : List (String × α)) (k : String) :
    (map.map fun entry => (entry.1, f entry.2)).lookup k = (map.lookup k).map f := by
  rw [lookup_map, lookup_eq_find?, Option.map_map]
  rfl

/-- What is found under a key is an entry. -/
theorem mem_of_lookup_eq_some {map : List (String × α)} {k : String} {value : α}
    (h : map.lookup k = some value) : (k, value) ∈ map := by
  obtain ⟨before, after, rfl, -⟩ := List.lookup_eq_some_iff.1 h
  exact List.mem_append_right before List.mem_cons_self

/-- Something is found under every key of a map. -/
theorem exists_lookup_eq_some {map : List (String × α)} {k : String}
    (h : k ∈ map.map (·.1)) : ∃ value, map.lookup k = some value := by
  obtain ⟨entry, hmem, rfl⟩ := List.mem_map.1 h
  exact Option.isSome_iff_exists.1 (List.lookup_isSome_iff.2 ⟨entry, hmem, beq_self_eq_true _⟩)

/-- Storing a value changes what is found under its own key only. -/
theorem lookup_insert (key k : String) (value : α) (map : List (String × α)) :
    (insert key value map).lookup k = if k = key then some value else map.lookup k := by
  induction map with
  | nil => exact lookup_entry k key value []
  | cons entry rest ih =>
    by_cases h : key = entry.1 <;> by_cases hlt : key < entry.1 <;>
      grind [insert, lookup_entry]

/-- What is in a map after storing was stored or had been there. -/
theorem mem_insert {key : String} {value : α} {map : List (String × α)} {entry : String × α}
    (h : entry ∈ insert key value map) : entry = (key, value) ∨ entry ∈ map := by
  induction map with
  | nil => exact .inl (List.mem_singleton.1 h)
  | cons first rest ih =>
    by_cases hkey : key = first.1 <;> by_cases hlt : key < first.1 <;> grind [insert]

theorem mem_insert_self (key : String) (value : α) (map : List (String × α)) :
    (key, value) ∈ insert key value map := by
  have hlookup := lookup_insert key key value map
  rw [if_pos rfl] at hlookup
  exact mem_of_lookup_eq_some hlookup

/-- Storing leaves the entries under other keys in the map. -/
theorem mem_insert_of_ne {key : String} {value : α} {map : List (String × α)} {entry : String × α}
    (hentry : entry ∈ map) (hne : entry.1 ≠ key) : entry ∈ insert key value map := by
  induction map with
  | nil => cases hentry
  | cons first rest ih =>
    by_cases hkey : key = first.1 <;> by_cases hlt : key < first.1 <;> grind [insert]

/-- Where entries are stored one after the other, whatever the place that a new key gets, the last
value under a key is found, and then what had been there. -/
theorem lookup_foldl {store : String → α → List (String × α) → List (String × α)}
    (hstore : ∀ key k value map,
      (store key value map).lookup k = if k = key then some value else map.lookup k)
    (entries map : List (String × α)) (k : String) :
    (entries.foldl (fun map entry => store entry.1 entry.2 map) map).lookup k
      = (entries.reverse.lookup k).or (map.lookup k) := by
  induction entries generalizing map with
  | nil => rfl
  | cons entry entries ih =>
    rw [List.foldl_cons, ih, hstore, List.reverse_cons, List.lookup_append, Option.or_assoc,
      lookup_entry]
    by_cases h : k = entry.1 <;> simp [h]

/-- In the map of a list of entries the last value under a key is found. -/
theorem lookup_ofList (entries : List (String × α)) (k : String) :
    (ofList entries).lookup k = entries.reverse.lookup k := by
  rw [ofList, lookup_foldl lookup_insert, List.lookup_nil, Option.or_none]

theorem lookup_put (key k : String) (value : α) (map : List (String × α)) :
    (put key value map).lookup k = if k = key then some value else map.lookup k := by
  induction map with
  | nil => exact lookup_entry k key value []
  | cons entry rest ih => by_cases h : key = entry.1 <;> grind [put, lookup_entry]

/-- Merging keeps the last value of each key. -/
theorem lookup_merge (entries : List (String × α)) (k : String) :
    (merge entries).lookup k = entries.reverse.lookup k := by
  rw [merge, lookup_foldl lookup_put, List.lookup_nil, Option.or_none]

/-! ## Keys come once -/

/-- A key that is there keeps its place, and a new one comes at the end. -/
theorem map_fst_put (key : String) (value : α) (map : List (String × α)) :
    (put key value map).map (·.1)
      = if key ∈ map.map (·.1) then map.map (·.1) else map.map (·.1) ++ [key] := by
  induction map with
  | nil => rfl
  | cons entry rest ih => by_cases h : key = entry.1 <;> grind [put]

theorem nodup_put {key : String} {value : α} {map : List (String × α)}
    (h : (map.map (·.1)).Nodup) : ((put key value map).map (·.1)).Nodup := by
  rw [map_fst_put]
  split
  · exact h
  · next hkey =>
    refine List.nodup_append.2 ⟨h, by simp, fun k hk k' hk' => ?_⟩
    rintro rfl
    exact hkey (List.mem_singleton.1 hk' ▸ hk)

/-- Merged entries have each key once, even if the given ones do not. -/
theorem nodup_merge (entries : List (String × α)) : ((merge entries).map (·.1)).Nodup := by
  suffices h : ∀ map : List (String × α), (map.map (·.1)).Nodup →
      ((entries.foldl (fun map entry => put entry.1 entry.2 map) map).map (·.1)).Nodup from
    h [] List.nodup_nil
  induction entries with
  | nil => exact fun map h => h
  | cons entry entries ih => exact fun map h => ih _ (nodup_put h)

/-- Where every key comes once, each entry is found under its key. -/
theorem lookup_eq_some_of_mem {key : String} {value : α} {map : List (String × α)}
    (hnodup : (map.map (·.1)).Nodup) (hmem : (key, value) ∈ map) : map.lookup key = some value := by
  obtain ⟨before, after, rfl⟩ := List.append_of_mem hmem
  refine List.lookup_eq_some_iff.2 ⟨before, after, rfl, ?_⟩
  intro entry hentry
  rw [List.map_append, List.nodup_append] at hnodup
  have hne : entry.1 ≠ key :=
    hnodup.2.2 entry.1 (List.mem_map_of_mem hentry) key (by simp)
  exact bne_iff_ne.2 (Ne.symm hne)

/-- Where every key comes once, the first value under a key is the last one. -/
theorem lookup_reverse {map : List (String × α)} (hnodup : (map.map (·.1)).Nodup) (k : String) :
    map.reverse.lookup k = map.lookup k := by
  have hreverse : (map.reverse.map (·.1)).Nodup := by
    rw [List.map_reverse]
    exact (List.reverse_perm _).nodup_iff.2 hnodup
  cases h : map.lookup k with
  | some value =>
    exact lookup_eq_some_of_mem hreverse (List.mem_reverse.2 (mem_of_lookup_eq_some h))
  | none =>
    rw [List.lookup_eq_none_iff] at h ⊢
    exact fun entry hentry => h entry (List.mem_reverse.1 hentry)

theorem put_map {β : Type} (f : α → β) (key : String) (value : α) (map : List (String × α)) :
    put key (f value) (map.map fun entry => (entry.1, f entry.2))
      = (put key value map).map fun entry => (entry.1, f entry.2) := by
  induction map with
  | nil => rfl
  | cons entry rest ih =>
    by_cases h : key = entry.1
    · simp [put, h]
    · simp [put, h, ih]

/-- Changing the values and keeping each key once can be done in either order. -/
theorem merge_map {β : Type} (f : α → β) (entries : List (String × α)) :
    merge (entries.map fun entry => (entry.1, f entry.2))
      = (merge entries).map fun entry => (entry.1, f entry.2) := by
  suffices h : ∀ map : List (String × α),
      entries.foldl (fun map entry => put entry.1 (f entry.2) map)
          (map.map fun entry => (entry.1, f entry.2))
        = (entries.foldl (fun map entry => put entry.1 entry.2 map) map).map fun entry =>
            (entry.1, f entry.2) by
    rw [merge, List.foldl_map]
    exact h []
  induction entries with
  | nil => exact fun map => rfl
  | cons entry entries ih =>
    intro map
    rw [List.foldl_cons, put_map]
    exact ih _

/-- Storing under a key that is there changes the one entry for it and leaves the others alone. -/
theorem put_eq_map {key : String} {value : α} {map : List (String × α)}
    (hmem : key ∈ map.map (·.1)) (hnodup : (map.map (·.1)).Nodup) :
    put key value map
      = map.map fun entry => (entry.1, if entry.1 = key then value else entry.2) := by
  induction map with
  | nil => cases hmem
  | cons entry rest ih =>
    obtain ⟨hnotMem, hrest⟩ := List.nodup_cons.1 hnodup
    by_cases hkey : entry.1 = key
    · subst hkey
      have hothers : ∀ other ∈ rest,
          (other.1, if other.1 = entry.1 then value else other.2) = other := by
        intro other hother
        rw [if_neg]
        intro heq
        exact hnotMem (List.mem_map.2 ⟨other, hother, heq⟩)
      rw [put, if_pos rfl, List.map_cons, if_pos rfl, List.map_congr_left hothers, List.map_id']
    · have hmemRest : key ∈ rest.map (·.1) :=
        (List.mem_cons.1 hmem).resolve_left (Ne.symm hkey)
      rw [put, if_neg (Ne.symm hkey), List.map_cons, if_neg hkey, ih hmemRest hrest]

/-! ## Sets of keys -/

theorem mem_insertKey (key k : String) (set : List String) :
    k ∈ insertKey key set ↔ k = key ∨ k ∈ set := by
  induction set with
  | nil => simp [insertKey]
  | cons k' rest ih =>
    by_cases h : key = k'
    · simp [insertKey, h]
    · by_cases hlt : key < k'
      · simp [insertKey, h, hlt]
      · simp [insertKey, h, hlt, ih, or_left_comm]

/-! ## Keys are in order -/

/-- A set stays in order, without repetitions, when a key is added. -/
theorem pairwise_insertKey (key : String) {set : List String} (h : set.Pairwise (· < ·)) :
    (insertKey key set).Pairwise (· < ·) := by
  induction set with
  | nil => exact List.pairwise_singleton _ _
  | cons k rest ih =>
    obtain ⟨hk, hrest⟩ := List.pairwise_cons.1 h
    by_cases heq : key = k
    · subst heq
      rwa [insertKey, if_pos rfl]
    rw [insertKey, if_neg heq]
    split
    · next hlt =>
      refine List.pairwise_cons.2 ⟨?_, h⟩
      intro other hother
      rcases List.mem_cons.1 hother with rfl | hmem
      · exact hlt
      · exact Std.lt_trans hlt (hk other hmem)
    · next hlt =>
      refine List.pairwise_cons.2 ⟨?_, ih hrest⟩
      intro other hother
      rcases (mem_insertKey key other rest).1 hother with rfl | hmem
      · exact Std.lt_of_le_of_ne (Std.not_lt.1 hlt) (Ne.symm heq)
      · exact hk other hmem

/-- The keys of a map after storing are those of the map, with the key added to them. -/
theorem map_fst_insert (key : String) (value : α) (map : List (String × α)) :
    (insert key value map).map (·.1) = insertKey key (map.map (·.1)) := by
  induction map with
  | nil => rfl
  | cons entry rest ih =>
    by_cases h : key = entry.1 <;> by_cases hlt : key < entry.1 <;> grind [insert, insertKey]

/-- A map has its keys in order, whatever the order of the entries that it is made of. -/
theorem pairwise_ofList (entries : List (String × α)) :
    ((ofList entries).map (·.1)).Pairwise (· < ·) := by
  suffices h : ∀ map : List (String × α), (map.map (·.1)).Pairwise (· < ·) →
      ((entries.foldl (fun map entry => insert entry.1 entry.2 map) map).map (·.1)).Pairwise
        (· < ·) from h [] .nil
  induction entries with
  | nil => exact fun map h => h
  | cons entry entries ih =>
    intro map h
    apply ih
    rw [map_fst_insert]
    exact pairwise_insertKey entry.1 h

theorem nodup_of_pairwise {keys : List String} (h : keys.Pairwise (· < ·)) : keys.Nodup := by
  refine List.Pairwise.imp (fun {k k'} hlt => ?_) h
  rintro rfl
  exact Std.lt_irrefl hlt

theorem nodup_ofList (entries : List (String × α)) : ((ofList entries).map (·.1)).Nodup :=
  nodup_of_pairwise (pairwise_ofList entries)

/-! ## Maps with the same values -/

variable {map other : List (String × α)}

/-- Where keys come once, maps with the same values under all keys differ in order only. -/
theorem perm_of_lookup_eq (hmap : (map.map (·.1)).Nodup) (hother : (other.map (·.1)).Nodup)
    (h : ∀ k, map.lookup k = other.lookup k) : map.Perm other := by
  have hentries {entries : List (String × α)} (h : (entries.map (·.1)).Nodup) : entries.Nodup :=
    (List.pairwise_map.1 h).imp fun hne heq => hne (congrArg (·.1) heq)
  refine (List.perm_ext_iff_of_nodup (hentries hmap) (hentries hother)).2 fun entry => ?_
  constructor
  · intro hentry
    exact mem_of_lookup_eq_some ((h entry.1).symm.trans (lookup_eq_some_of_mem hmap hentry))
  · intro hentry
    exact mem_of_lookup_eq_some ((h entry.1).trans (lookup_eq_some_of_mem hother hentry))

/-- Where keys come once, the order of a map does not matter to what is found in it. -/
theorem lookup_eq_of_perm (hmap : (map.map (·.1)).Nodup) (h : map.Perm other) (k : String) :
    map.lookup k = other.lookup k := by
  have hother : (other.map (·.1)).Nodup := (h.map _).nodup_iff.1 hmap
  apply Option.ext
  intro value
  constructor
  · exact fun hvalue => lookup_eq_some_of_mem hother (h.mem_iff.1 (mem_of_lookup_eq_some hvalue))
  · exact fun hvalue => lookup_eq_some_of_mem hmap (h.mem_iff.2 (mem_of_lookup_eq_some hvalue))

/-- Maps in key order with the same values under all keys are the same. -/
theorem eq_of_lookup_eq (hmap : (map.map (·.1)).Pairwise (· < ·))
    (hother : (other.map (·.1)).Pairwise (· < ·)) (h : ∀ k, map.lookup k = other.lookup k) :
    map = other := by
  have hperm : map.Perm other :=
    perm_of_lookup_eq (nodup_of_pairwise hmap) (nodup_of_pairwise hother) h
  refine List.Perm.eq_of_pairwise (fun x y _ _ hxy hyx => ?_) (List.pairwise_map.1 hmap)
    (List.pairwise_map.1 hother) hperm
  exact absurd (Std.lt_trans hxy hyx) Std.lt_irrefl

/-- A list of entries has the same map whether its keys are kept in key order or not. -/
theorem merge_perm_ofList (entries : List (String × α)) :
    (merge entries).Perm (ofList entries) :=
  perm_of_lookup_eq (nodup_merge entries) (nodup_ofList entries) fun k =>
    (lookup_merge entries k).trans (lookup_ofList entries k).symm

/-- A map that is made anew of its own entries is the same map. -/
theorem ofList_ofList (entries : List (String × α)) : ofList (ofList entries) = ofList entries :=
  eq_of_lookup_eq (pairwise_ofList _) (pairwise_ofList _) fun k =>
    (lookup_ofList _ k).trans (lookup_reverse (nodup_ofList entries) k)

/-- Changing the values and putting the keys in order can be done in either order. -/
theorem ofList_map {β : Type} (f : α → β) (entries : List (String × α)) :
    ofList (entries.map fun entry => (entry.1, f entry.2))
      = (ofList entries).map fun entry => (entry.1, f entry.2) := by
  refine eq_of_lookup_eq (pairwise_ofList _) ?_ fun k => ?_
  · rw [List.map_map]
    exact pairwise_ofList entries
  · rw [lookup_ofList, ← List.map_reverse, lookup_map_snd, lookup_map_snd, lookup_ofList]

end Screening.Keyed
