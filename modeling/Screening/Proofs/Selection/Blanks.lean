import Mathlib.Data.List.TakeWhile
import Screening.Proofs.Selection.Querying

/-!
# Blank values in queries

A blank value says nothing in a pair for the junction or for a condition: wherever such a pair is
put into a query, the query is read as it was, or fails as it did. Flags are no exception, as they
take no value at all.

A blank order is different. It does not mean that no order is asked for here, but that none is asked
for at all: it takes back the orders before it, and only one that comes later counts.
-/

namespace Screening

theorem SortOrder.parse?_of_blank {text : String} (h : Text.blank text = true) :
    parse? text = none := by
  have htrim : Text.trimChars text.toList = [] := by
    rw [Text.trimChars, List.dropWhile_eq_nil_iff.2 (List.all_eq_true.1 h)]
    rfl
  rw [parse?, htrim]
  rfl

/-- A pair says nothing if its value is blank and its key is that of the junction or of a condition
that takes a value. -/
inductive Blank : String × String → Prop
  | junction {value : String} : Text.blank value = true → Blank ("filters[junction]", value)
  | condition (key : ConditionKey) {operator : Operator} {value : String} :
    operator.symbol = key.symbol → operator.isFlag = false → Text.blank value = true →
      Blank (key.write, value)

theorem Blank.reads {pair : String × String} (h : Blank pair) : Reads pair .nothing := by
  cases h with
  | junction hblank => exact .noJunction hblank
  | condition key hsymbol hflag hblank =>
    exact .noCondition key hsymbol (by simp [Operator.takes, hflag, hblank])

namespace Selection

def unordered (selection : Selection) : Selection := { selection with order := none }

/-- A pair that is not about the order leaves it alone and does not look at it. -/
theorem addPair_unordered (selection : Selection) {pair : String × String}
    (h : pair.1 ≠ "order") :
    selection.unordered.addPair pair = (selection.addPair pair).map unordered := by
  rcases reads_or_offends pair with ⟨entry, hentry⟩ | ⟨error, herror⟩
  · rw [addPair_of_reads _ hentry, addPair_of_reads _ hentry]
    cases hentry with
    | order value => exact absurd rfl h
    | condition | noCondition | junction | noJunction | other => rfl
  · rw [addPair_of_offends _ herror, addPair_of_offends _ herror]
    rfl

/-- Taking back the order makes no difference where an order comes later, and can otherwise be done
at the end. -/
theorem foldlM_addPair_unordered (pairs : List (String × String)) (selection : Selection) :
    pairs.foldlM addPair selection.unordered
      = (pairs.foldlM addPair selection).map fun result ↦
          if "order" ∈ pairs.map (·.1) then result else result.unordered := by
  induction pairs generalizing selection with
  | nil => rfl
  | cons pair pairs ih =>
    rw [List.foldlM_cons, List.foldlM_cons]
    by_cases horder : pair.1 = "order"
    · have hsame : selection.unordered.addPair pair = selection.addPair pair := by
        rw [addPair, addPair, if_pos horder, if_pos horder]
        rfl
      have hmem : "order" ∈ (pair :: pairs).map (·.1) := by simp [horder]
      -- An order that comes later settles the matter: from here on both runs are one.
      rw [hsame]
      simp only [hmem, if_true]
      cases selection.addPair pair >>= fun next ↦ pairs.foldlM addPair next <;> rfl
    · have hmem : "order" ∈ (pair :: pairs).map (·.1) ↔ "order" ∈ pairs.map (·.1) := by
        simp [Ne.symm horder]
      rw [addPair_unordered selection horder]
      simp only [hmem]
      cases selection.addPair pair with
      | error error => rfl
      | ok next => exact ih next

/-- A pair that says nothing can be put anywhere into a query, and leaves the query as it was, also
where that fails. A blank order can be put anywhere as well, but leaves the query without an order,
unless one comes later. -/
theorem ofQuery_insert_blank (before after : List (String × String)) :
    (∀ pair, Blank pair → ofQuery (before ++ pair :: after) = ofQuery (before ++ after)) ∧
    ∀ value, Text.blank value = true →
      ofQuery (before ++ ("order", value) :: after)
        = (ofQuery (before ++ after)).map fun selection ↦
            if "order" ∈ after.map (·.1) then selection else selection.unordered := by
  have hsplit (pairs : List (String × String)) :
      ofQuery (before ++ pairs) = (ofQuery before).bind fun selection ↦
        pairs.foldlM addPair selection := List.foldlM_append
  rw [hsplit]
  refine ⟨fun pair hpair ↦ ?_, fun value hvalue ↦ ?_⟩
  · rw [hsplit]
    cases ofQuery before with
    | error error => rfl
    | ok selection =>
      change (pair :: after).foldlM addPair selection = _
      rw [List.foldlM_cons, addPair_of_reads selection hpair.reads]
      rfl
  · rw [hsplit]
    cases ofQuery before with
    | error error => rfl
    | ok selection =>
      change (("order", value) :: after).foldlM addPair selection = _
      rw [List.foldlM_cons, addPair_of_reads selection (.order value),
        SortOrder.parse?_of_blank hvalue]
      exact foldlM_addPair_unordered after selection

/-- Blank values in the middle of a query: that of a condition leaves the order before it, a blank
order does not. -/
theorem ofQuery_insert_blank_middle :
    ofQuery [("order", "name"), ("filters[code][conditions][$in][]", "\t "),
      ("filters[junction]", "or")] = .ok { junction := .or, order := some ⟨"name", .ascending⟩ } ∧
    ofQuery [("order", "name"), ("order", "\t "), ("filters[junction]", "or")]
      = .ok { junction := .or } := by
  let isIn : ConditionKey :=
    ⟨"code", "$in", some "", by decide, by decide, by decide, by rintro _ ⟨⟩; decide⟩
  have hquery : ofQuery [("order", "name"), ("filters[junction]", "or")]
      = .ok { junction := .or, order := some ⟨"name", .ascending⟩ } := by decide +kernel
  have hblank : Blank (isIn.write, "\t ") :=
    .condition isIn (rfl : Operator.isIn.symbol = _) rfl (by decide)
  obtain ⟨hsame, horder⟩ :=
    ofQuery_insert_blank [("order", "name")] [("filters[junction]", "or")]
  refine ⟨(hsame _ hblank).trans hquery, (horder "\t " (by decide)).trans ?_⟩
  change (ofQuery [("order", "name"), ("filters[junction]", "or")]).map _ = _
  rw [hquery]
  rfl

/-- A blank order is not ignored: it takes back the one before it. -/
theorem ofQuery_blank_order_ne :
    ofQuery [("order", "created_at"), ("order", " ")] ≠ ofQuery [("order", "created_at")] := by
  decide +kernel

end Selection

end Screening
