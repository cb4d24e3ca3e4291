import Screening.Selection.Basic

/-!
# Selecting and ordering

A selection applied to items picks some of their positions and puts these in order. It picks a
position exactly if the item there passes, and puts positions in the order of their items, or of
themselves where the comparison sees no difference (`Arranges`). That holds in both directions: a
descending order turns the comparison around and not the list.

Which comparison counts is a matter of the calls that made the sorting. The last one for a field
counts, and there is one for every field that an order can resolve to.
-/

namespace Screening

variable {α : Type}

/-! ## Stable sorting -/

theorem isLE_total (compare : α → α → Ordering) [Std.OrientedCmp compare] (a b : α) :
    ((compare a b).isLE || (compare b a).isLE) = true := by
  have hswap : compare b a = (compare a b).swap := Std.OrientedCmp.eq_swap
  rw [hswap]
  cases compare a b <;> rfl

/-- Seen in either direction, a total preorder is one. -/
theorem Direction.transCmp_orient (direction : Direction) (compare : α → α → Ordering)
    [Std.TransCmp compare] : Std.TransCmp fun a b ↦ direction.orient (compare a b) := by
  cases direction with
  | ascending => assumption
  | descending =>
    have hswap : (fun a b ↦ (compare a b).swap) = fun a b ↦ compare b a := by
      funext a b
      exact Std.OrientedCmp.eq_swap.symm
    change Std.TransCmp fun a b ↦ (compare a b).swap
    rw [hswap]
    infer_instance

/-- Where a stable sort sees no difference, an increasing list stays increasing. -/
theorem pairwise_le_mergeSort {n : Nat} {le : Fin n → Fin n → Bool}
    (trans : ∀ i j k, le i j = true → le j k = true → le i k = true)
    (total : ∀ i j, (le i j || le j i) = true) {s : List (Fin n)} (hs : s.Pairwise (· < ·)) :
    (s.mergeSort le).Pairwise fun i j ↦ le j i = true → i ≤ j := by
  -- The sort is that of pairs with their numbers in the list, which decide between equals.
  rw [← List.mergeSort_zipIdx, List.pairwise_map]
  have hsorted := List.pairwise_mergeSort (List.zipIdxLE_trans trans) (List.zipIdxLE_total total)
    s.zipIdx
  refine hsorted.imp_of_mem ?_
  rintro ⟨i, m⟩ ⟨j, k⟩ hi hj hle hji
  rw [List.mem_mergeSort, List.mk_mem_zipIdx_iff_getElem?, List.getElem?_eq_some_iff] at hi hj
  obtain ⟨hm, rfl⟩ := hi
  obtain ⟨hk, rfl⟩ := hj
  obtain ⟨-, hmk⟩ : le s[m] s[k] = true ∧ m ≤ k := by simpa [List.zipIdxLE, hji] using hle
  rcases Nat.eq_or_lt_of_le hmk with rfl | hlt
  · exact Nat.le_refl _
  · exact Nat.le_of_lt (List.pairwise_iff_getElem.1 hs m k hm hk hlt)

/-- The items to keep are those at the positions to keep. -/
theorem map_filter_finRange (keep : α → Bool) (items : List α) :
    ((List.finRange items.length).filter fun i ↦ keep items[i]).map (fun i ↦ items[i])
      = items.filter keep := by
  have hall : (List.finRange items.length).map (fun i ↦ items[i]) = items := by
    rw [List.finRange, List.map_ofFn]
    exact List.ofFn_getElem
  calc ((List.finRange items.length).filter fun i ↦ keep items[i]).map (fun i ↦ items[i])
      = ((List.finRange items.length).map (fun i ↦ items[i])).filter keep := List.filter_map.symm
    _ = items.filter keep := by rw [hall]

/-! ## Arrangements -/

/-- Positions of items are arranged: those of the items to keep, each once, in the order of the
items and, where the comparison sees no difference, in their own. -/
structure Arranges (compare : α → α → Ordering) (direction : Direction) (keep : α → Bool)
    (items : List α) (positions : List (Fin items.length)) : Prop where
  nodup : positions.Nodup
  mem_iff (i : Fin items.length) : i ∈ positions ↔ keep items[i] = true
  ordered : positions.Pairwise fun i j ↦
    (direction.orient (compare items[i] items[j])).isLE = true
  stable : positions.Pairwise fun i j ↦ compare items[i] items[j] = .eq → i < j

/-- A direction does not make equal items different, nor different items equal. -/
theorem Direction.orient_eq_eq_iff (direction : Direction) {o : Ordering} :
    direction.orient o = .eq ↔ o = .eq := by
  cases direction <;> cases o <;> decide

/-- Positions are arranged in one way only. -/
theorem Arranges.unique {compare : α → α → Ordering} [Std.TransCmp compare] {direction : Direction}
    {keep : α → Bool} {items : List α} {s t : List (Fin items.length)}
    (hs : Arranges compare direction keep items s) (ht : Arranges compare direction keep items t) :
    s = t := by
  have htrans := direction.transCmp_orient compare
  have hperm : s.Perm t := (List.perm_ext_iff_of_nodup hs.nodup ht.nodup).2 fun i ↦
    (hs.mem_iff i).trans (ht.mem_iff i).symm
  refine List.Perm.eq_of_pairwise ?_ (hs.ordered.and hs.stable) (ht.ordered.and ht.stable) hperm
  rintro i j - - ⟨hij, hlt⟩ ⟨hji, hgt⟩
  have heq : compare items[i] items[j] = .eq :=
    (direction.orient_eq_eq_iff).1 (htrans.isLE_antisymm hij hji)
  exact absurd (hlt heq) (Fin.not_lt.2 (Fin.le_of_lt (hgt (Std.OrientedCmp.eq_symm heq))))

/-- A stable sort of the items to keep arranges their positions. -/
theorem exists_arranges (compare : α → α → Ordering) [Std.TransCmp compare]
    (direction : Direction) (keep : α → Bool) (items : List α) :
    ∃ positions, Arranges compare direction keep items positions ∧
      (items.filter keep).mergeSort (fun a b ↦ (direction.orient (compare a b)).isLE)
        = positions.map fun i ↦ items[i] := by
  have htrans := direction.transCmp_orient compare
  let le (i j : Fin items.length) : Bool := (direction.orient (compare items[i] items[j])).isLE
  let kept : List (Fin items.length) := (List.finRange items.length).filter fun i ↦ keep items[i]
  have hle_trans : ∀ i j k, le i j = true → le j k = true → le i k = true := fun _ _ _ ↦
    htrans.isLE_trans
  have hle_total : ∀ i j, (le i j || le j i) = true := fun i j ↦
    isLE_total (fun a b ↦ direction.orient (compare a b)) items[i] items[j]
  have hkept : kept.Pairwise (· < ·) := (List.pairwise_lt_finRange _).filter _
  have hnodup : (kept.mergeSort le).Nodup :=
    (List.mergeSort_perm kept le).nodup_iff.2 (hkept.imp Fin.ne_of_lt)
  -- Positions are sorted in place of items, since no two positions are equal.
  refine ⟨kept.mergeSort le, ⟨hnodup, ?_, List.pairwise_mergeSort hle_trans hle_total kept, ?_⟩, ?_⟩
  · intro i
    rw [List.mem_mergeSort, List.mem_filter]
    exact and_iff_right (List.mem_finRange i)
  · refine ((pairwise_le_mergeSort hle_trans hle_total hkept).and hnodup).imp ?_
    rintro i j ⟨hle, hne⟩ heq
    -- Where the comparison sees no difference the order holds both ways, and the earlier one leads.
    have hsymm : compare items[j] items[i] = .eq := Std.OrientedCmp.eq_symm heq
    have htie : le j i = true := by
      change (direction.orient (compare items[j] items[i])).isLE = true
      rw [hsymm]
      cases direction <;> rfl
    exact Nat.lt_of_le_of_ne (hle htie) (Fin.val_ne_of_ne hne)
  · rw [← map_filter_finRange]
    refine (List.map_mergeSort ?_).symm
    exact fun _ _ _ _ ↦ rfl

/-! ## Comparisons -/

/-- The last entry for a field has the given comparison. -/
def CountsFor (entries : List (String × (α → α → Ordering))) (field : String)
    (compare : α → α → Ordering) : Prop :=
  ∃ before after, entries = before ++ (field, compare) :: after ∧
    ∀ entry ∈ after, entry.1 ≠ field

namespace Sorting

variable {sorting : Sorting α} {field : String} {compare : α → α → Ordering}

/-- The sorting that a first comparison and further calls make. -/
def ofCalls (fallback : String) (initial : α → α → Ordering)
    (calls : List (String × (α → α → Ordering))) : Sorting α :=
  calls.foldl (fun sorting call ↦ sorting.register call.1 call.2) ⟨fallback, initial, []⟩

theorem entries_register (sorting : Sorting α) (field : String) (compare : α → α → Ordering) :
    (sorting.register field compare).entries = (field, compare) :: sorting.entries := rfl

theorem entries_foldl_register (sorting : Sorting α)
    (calls : List (String × (α → α → Ordering))) :
    (calls.foldl (fun sorting call ↦ sorting.register call.1 call.2) sorting).entries
      = calls.reverse ++ sorting.entries := by
  induction calls generalizing sorting with
  | nil => rfl
  | cons call calls ih =>
    rw [List.foldl_cons, ih, entries_register, List.reverse_cons, List.append_assoc]
    rfl

theorem fallback_foldl_register (sorting : Sorting α)
    (calls : List (String × (α → α → Ordering))) :
    (calls.foldl (fun sorting call ↦ sorting.register call.1 call.2) sorting).fallback
      = sorting.fallback := by
  induction calls generalizing sorting with
  | nil => rfl
  | cons call calls ih => exact ih _

theorem entries_ofCalls (fallback : String) (initial : α → α → Ordering)
    (calls : List (String × (α → α → Ordering))) :
    (ofCalls fallback initial calls).entries = ((fallback, initial) :: calls).reverse := by
  rw [ofCalls, entries_foldl_register, List.reverse_cons]
  rfl

/-- The comparison by a field is the one that counts for it. -/
theorem comparison?_eq_some_iff :
    sorting.comparison? field = some compare ↔ CountsFor sorting.entries.reverse field compare := by
  rw [comparison?, List.lookup_eq_some_iff]
  constructor
  · rintro ⟨before, after, hentries, hbefore⟩
    refine ⟨after.reverse, before.reverse, ?_, ?_⟩
    · rw [hentries]
      simp
    · intro entry hentry heq
      have hne := hbefore entry (List.mem_reverse.1 hentry)
      simp [heq] at hne
  · rintro ⟨before, after, hentries, hafter⟩
    refine ⟨after.reverse, before.reverse, ?_, ?_⟩
    · rw [List.reverse_eq_iff] at hentries
      rw [hentries]
      simp
    · intro entry hentry
      rw [bne_iff_ne]
      exact (hafter entry (List.mem_reverse.1 hentry)).symm

theorem isSome_comparison?_iff :
    (sorting.comparison? field).isSome = true ↔ field ∈ sorting.entries.map (·.1) := by
  rw [comparison?, List.lookup_isSome_iff, List.mem_map]
  refine exists_congr fun entry ↦ and_congr_right fun _ ↦ ?_
  rw [beq_iff_eq, eq_comm]

/-- The fallback field always has a comparison. -/
theorem isSome_comparison?_fallback (sorting : Sorting α) :
    (sorting.comparison? sorting.fallback).isSome = true := by
  rw [isSome_comparison?_iff, entries, List.map_append]
  simp

/-! ## Resolving -/

/-- A requested order counts if its field is known. -/
theorem resolve_of_mem {requested : SortOrder}
    (h : requested.field ∈ sorting.entries.map (·.1)) :
    sorting.resolve (some requested) = requested := by
  rw [resolve, Option.filter_some, if_pos (isSome_comparison?_iff.2 h), Option.getD_some]

/-- Otherwise the fallback order takes its place. -/
theorem resolve_of_not_mem {requested : Option SortOrder}
    (h : ∀ order, requested = some order → order.field ∉ sorting.entries.map (·.1)) :
    sorting.resolve requested = sorting.fallbackOrder := by
  cases requested with
  | none => rfl
  | some order =>
    have hnone : ¬ (sorting.comparison? order.field).isSome = true := fun hsome ↦
      h order rfl (isSome_comparison?_iff.1 hsome)
    rw [resolve, Option.filter_some, if_neg hnone, Option.getD_none]

/-- An order always resolves to a field that has a comparison. -/
theorem exists_comparison?_resolve (sorting : Sorting α) (requested : Option SortOrder) :
    ∃ compare, sorting.comparison? (sorting.resolve requested).field = some compare := by
  rw [← Option.isSome_iff_exists]
  by_cases h : ∃ order, requested = some order ∧ order.field ∈ sorting.entries.map (·.1)
  case pos =>
    obtain ⟨order, rfl, hmem⟩ := h
    rw [resolve_of_mem hmem]
    exact isSome_comparison?_iff.2 hmem
  case neg =>
    rw [resolve_of_not_mem fun order horder hmem ↦ h ⟨order, horder, hmem⟩]
    exact isSome_comparison?_fallback sorting

/-- Sorting is a stable sort by the comparison that was found, seen in its direction. -/
theorem sort_of_comparison? {requested : Option SortOrder} (items : List α)
    (h : sorting.comparison? (sorting.resolve requested).field = some compare) :
    sorting.sort requested items = items.mergeSort fun a b ↦
      ((sorting.resolve requested).direction.orient (compare a b)).isLE := by
  simp only [sort, h]

end Sorting

/-! ## Applying a selection -/

namespace Selection

variable [Selectable α]

/-- A selection picks the items that pass and arranges them by the comparison that counts for the
field of its order. That is the order it asks for, if the field is known, and otherwise the
fallback, descending. -/
theorem apply_arranges (selection : Selection) (fallback : String) (initial : α → α → Ordering)
    (calls : List (String × (α → α → Ordering)))
    (hcalls : ∀ entry ∈ (fallback, initial) :: calls, Std.TransCmp entry.2) (items : List α) :
    let sorting := Sorting.ofCalls fallback initial calls
    let known := ((fallback, initial) :: calls).map (·.1)
    let order := sorting.resolve selection.order
    (∀ requested, selection.order = some requested → requested.field ∈ known →
      order = requested) ∧
    ((∀ requested, selection.order = some requested → requested.field ∉ known) →
      order = ⟨fallback, .descending⟩) ∧
    ∃ compare positions, CountsFor ((fallback, initial) :: calls) order.field compare ∧
      Arranges compare order.direction selection.passes items positions ∧
      selection.apply sorting items = positions.map fun i ↦ items[i] := by
  intro sorting known order
  have hentries : sorting.entries = ((fallback, initial) :: calls).reverse :=
    Sorting.entries_ofCalls fallback initial calls
  have hknown (field : String) : field ∈ sorting.entries.map (·.1) ↔ field ∈ known := by
    rw [hentries, List.map_reverse, List.mem_reverse]
  refine ⟨?_, ?_, ?_⟩
  · intro requested hrequested hmem
    change sorting.resolve selection.order = requested
    rw [hrequested]
    exact Sorting.resolve_of_mem ((hknown _).2 hmem)
  · intro hunknown
    have hfallback : sorting.fallback = fallback := Sorting.fallback_foldl_register _ calls
    change sorting.resolve selection.order = _
    rw [Sorting.resolve_of_not_mem fun requested hrequested hmem ↦
      hunknown requested hrequested ((hknown _).1 hmem), Sorting.fallbackOrder, hfallback]
  · obtain ⟨compare, hcompare⟩ := Sorting.exists_comparison?_resolve sorting selection.order
    have hcounts : CountsFor ((fallback, initial) :: calls) order.field compare := by
      rw [← List.reverse_reverse ((fallback, initial) :: calls), ← hentries]
      exact Sorting.comparison?_eq_some_iff.1 hcompare
    have htrans : Std.TransCmp compare := by
      obtain ⟨before, after, hsplit, -⟩ := hcounts
      refine hcalls (order.field, compare) ?_
      rw [hsplit]
      exact List.mem_append_right _ List.mem_cons_self
    obtain ⟨positions, harranges, hsort⟩ :=
      exists_arranges compare order.direction selection.passes items
    refine ⟨compare, positions, hcounts, harranges, ?_⟩
    rw [apply, Sorting.sort_of_comparison? _ hcompare]
    exact hsort

structure Attempt where
  voucher : String
  result : String
  createdAt : Nat

instance : Selectable Attempt where
  subject attempt field :=
    match field with
    | "voucher" => .one attempt.voucher
    | "result" => .one attempt.result
    | _ => .absent

/-- Three attempts succeeded, two of them at one time. -/
def attempts : List Attempt := [
  ⟨"SPRING", "SUCCESS", 5⟩, ⟨"AUTUMN", "FAILURE", 6⟩, ⟨"SUMMER", "SUCCESS", 7⟩,
  ⟨"WINTER", "SUCCESS", 5⟩]

def successes : Selection where
  criteria := [("result", { included := ["SUCCESS"] })]
  order := some ⟨"popularity", .ascending⟩

/-- The fallback field is registered anew, with the comparison that counts. -/
def comparisons : List (String × (Attempt → Attempt → Ordering)) := [
  ("voucher", compareOn (·.voucher)), ("created_at", compareOn (·.createdAt))]

/-- The latest attempt comes first, and those of one time stay as they were. -/
theorem apply_successes :
    successes.apply (.ofCalls "created_at" (compareOn (·.voucher)) comparisons) attempts
      = [⟨"SUMMER", "SUCCESS", 7⟩, ⟨"SPRING", "SUCCESS", 5⟩, ⟨"WINTER", "SUCCESS", 5⟩] := by
  have hcalls : ∀ entry ∈ ("created_at", compareOn (·.voucher)) :: comparisons,
      Std.TransCmp entry.2 := by
    intro entry hentry
    simp only [comparisons, List.mem_cons, List.not_mem_nil, or_false] at hentry
    rcases hentry with rfl | rfl | rfl
    · exact inferInstanceAs (Std.TransCmp (compareOn fun attempt : Attempt ↦ attempt.voucher))
    · exact inferInstanceAs (Std.TransCmp (compareOn fun attempt : Attempt ↦ attempt.voucher))
    · exact inferInstanceAs (Std.TransCmp (compareOn fun attempt : Attempt ↦ attempt.createdAt))
  obtain ⟨-, hfallback, compare, positions, hcounts, harranges, happly⟩ :=
    apply_arranges successes "created_at" (compareOn (·.voucher)) comparisons hcalls attempts
  have horder : (Sorting.ofCalls "created_at" (compareOn (·.voucher)) comparisons).resolve
      successes.order = ⟨"created_at", .descending⟩ := by
    refine hfallback ?_
    rintro requested ⟨⟩
    decide
  rw [horder] at hcounts harranges
  have hcomparison : (Sorting.ofCalls "created_at" (compareOn (·.voucher)) comparisons).comparison?
      "created_at" = some compare := Sorting.comparison?_eq_some_iff.2 hcounts
  obtain rfl : compareOn (·.createdAt) = compare := Option.some.inj hcomparison
  have hpositions : positions = [⟨2, by decide⟩, ⟨0, by decide⟩, ⟨3, by decide⟩] :=
    harranges.unique ⟨by decide, by decide +kernel, by decide, by decide⟩
  rw [happly, hpositions]
  rfl

end Selection

end Screening
