import Mathlib.Data.List.Sort
import Mathlib.Logic.Relation
import Screening.Proofs.Selection.Conditions
import Screening.Proofs.Selection.Querying

/-!
# Rewordings of queries

A query may be reworded (`Rewording`): its pairs may change places, as long as the orders stay in
order among themselves and so do the junctions; a condition may be repeated; and a condition may
come under another key for it. The criteria that are built then hold the same values in another
order or more than once, and that makes no difference to what passes.

What is built depends on the conditions that the pairs say only as a set, in which operators and
their twins are not told apart (`Clause.plain`). Rewordings change neither this set nor the orders
and the junctions (`Rewords`).
-/

namespace Screening

/-! ## Conditions up to the spelling of the operator -/

namespace Operator

variable {operator operator' : Operator} {value : String}

theorem symbol_injective (h : operator.symbol = operator'.symbol) : operator = operator' := by
  have hread := ofSymbol_symbol operator
  rw [h, ofSymbol_symbol] at hread
  exact (Except.ok.inj hread).symm

theorem isFlag_eq_of_plain_eq (h : operator.plain = operator'.plain) :
    operator.isFlag = operator'.isFlag := by
  cases operator <;> cases operator' <;> first | rfl | cases h

theorem takes_eq_of_plain_eq (h : operator.plain = operator'.plain) :
    operator.takes value = operator'.takes value := by
  rw [takes, takes, isFlag_eq_of_plain_eq h]

theorem kept_eq_of_plain_eq (h : operator.plain = operator'.plain) :
    operator.kept value = operator'.kept value := by
  rw [kept, kept, isFlag_eq_of_plain_eq h]

end Operator

/-- The condition with the plain operator and what is kept of the value. -/
def Clause.plain (clause : Clause) : Clause :=
  ⟨clause.field, clause.operator.plain, clause.operator.kept clause.value⟩

namespace Selection

variable {selection : Selection} {field v : String} {operator : Operator}
  {entries entries' : List QueryEntry}

/-! ## What conditions build -/

def fields (selection : Selection) : List String := selection.criteria.map (·.1)

/-- The criteria of a field, with nothing in them if there are none. -/
def criteriaAt (selection : Selection) (field : String) : Criteria :=
  (selection.criteria? field).getD {}

/-- Adding a condition touches the criteria of its own field only. -/
theorem criteriaAt_addClause (selection : Selection) (clause : Clause) (field : String) :
    (selection.addClause clause).criteriaAt field
      = if field = clause.field then (selection.criteriaAt field).add clause.operator clause.value
        else selection.criteriaAt field := by
  rw [criteriaAt, criteria?, addClause, addTo, withCriteria, Keyed.lookup_insert]
  split
  · next h =>
    subst h
    rfl
  · rfl

/-- A value stands with an operator if it stood there or the condition puts it there. -/
theorem mem_criteriaAt_addClause {clause : Clause} :
    v ∈ ((selection.addClause clause).criteriaAt field).values operator ↔
      v ∈ (selection.criteriaAt field).values operator ∨
        clause.plain = ⟨field, operator.plain, v⟩ := by
  rw [criteriaAt_addClause, Clause.plain, Clause.mk.injEq]
  split
  · next h =>
    rw [Criteria.mem_values_add, eq_comm (a := v)]
    simp only [h, true_and]
  · next h =>
    simp only [Ne.symm h, false_and, or_false]

/-- The same for several conditions: their order and number make no difference. -/
theorem mem_criteriaAt_foldl (clauses : List Clause) (selection : Selection) :
    v ∈ ((clauses.foldl addClause selection).criteriaAt field).values operator ↔
      v ∈ (selection.criteriaAt field).values operator ∨
        ⟨field, operator.plain, v⟩ ∈ clauses.map Clause.plain := by
  induction clauses generalizing selection with
  | nil => simp
  | cons clause clauses ih =>
    rw [List.foldl_cons, ih, mem_criteriaAt_addClause, List.map_cons, List.mem_cons, or_assoc,
      eq_comm (a := clause.plain)]

theorem fields_addClause (selection : Selection) (clause : Clause) :
    (selection.addClause clause).fields = Keyed.insertKey clause.field selection.fields :=
  Keyed.map_fst_insert _ _ _

theorem mem_fields_foldl (clauses : List Clause) (selection : Selection) :
    field ∈ (clauses.foldl addClause selection).fields ↔
      field ∈ selection.fields ∨ field ∈ (clauses.map Clause.plain).map Clause.field := by
  induction clauses generalizing selection with
  | nil => simp
  | cons clause clauses ih =>
    rw [List.foldl_cons, ih, fields_addClause, Keyed.mem_insertKey, List.map_cons, List.map_cons,
      List.mem_cons, or_assoc, or_left_comm]
    rfl

theorem pairwise_fields_foldl (clauses : List Clause) {selection : Selection}
    (h : selection.fields.Pairwise (· < ·)) :
    (clauses.foldl addClause selection).fields.Pairwise (· < ·) := by
  induction clauses generalizing selection with
  | nil => exact h
  | cons clause clauses ih =>
    refine ih ?_
    rw [fields_addClause]
    exact Keyed.pairwise_insertKey clause.field h

/-- The conditions that entries say, with plain operators. -/
def plainClauses (entries : List QueryEntry) : List Clause :=
  (entries.filterMap QueryEntry.clause?).map Clause.plain

theorem pairwise_fields_build (entries : List QueryEntry) :
    (build entries).fields.Pairwise (· < ·) :=
  @pairwise_fields_foldl (entries.filterMap QueryEntry.clause?) {} .nil

theorem mem_fields_build :
    field ∈ (build entries).fields ↔ field ∈ (plainClauses entries).map Clause.field :=
  (mem_fields_foldl (entries.filterMap QueryEntry.clause?) {}).trans (or_iff_right List.not_mem_nil)

/-- What stands in the criteria of a field can be told from the plain conditions. -/
theorem mem_criteriaAt_build :
    v ∈ ((build entries).criteriaAt field).values operator ↔
      ⟨field, operator.plain, v⟩ ∈ plainClauses entries := by
  refine (mem_criteriaAt_foldl (entries.filterMap QueryEntry.clause?) {}).trans (or_iff_right ?_)
  cases operator <;> exact List.not_mem_nil

/-! ## What passes -/

/-- Criteria that are built decide field by field. -/
theorem passes_build {α : Type} [Selectable α] (entries : List QueryEntry) (entity : α) :
    (build entries).passes entity = (build entries).junction.combine
      ((build entries).fields.map fun field ↦
        ((build entries).criteriaAt field).passes (Selectable.subject entity field)) := by
  have hfilter : ((build entries).criteria.filter fun entry ↦ !entry.2.isEmpty)
      = (build entries).criteria := by
    rw [List.filter_eq_self]
    intro entry hentry
    rw [isEmpty_of_mem_build hentry, Bool.not_false]
  have hnodup : (build entries).fields.Nodup := (pairwise_fields_build entries).nodup
  rw [passes, passesAll, hfilter, fields, List.map_map]
  refine congrArg _ (List.map_congr_left fun entry hentry ↦ ?_)
  have hfound : (build entries).criteria? entry.1 = some entry.2 :=
    Keyed.lookup_eq_some_of_mem hnodup hentry
  rw [Function.comp, criteriaAt, hfound, Option.getD_some]

/-- Entries that say the same junctions, and the same conditions up to plain operators, build
criteria for the same fields, and let the same entities pass. -/
theorem build_congr
    (hclauses : ∀ clause, clause ∈ plainClauses entries ↔ clause ∈ plainClauses entries')
    (hjunctions :
      entries.filterMap QueryEntry.junction? = entries'.filterMap QueryEntry.junction?) :
    (build entries).fields = (build entries').fields ∧
      ∀ {α : Type} [Selectable α] (entity : α),
        (build entries).passes entity = (build entries').passes entity := by
  have hfields : (build entries).fields = (build entries').fields := by
    refine (pairwise_fields_build entries).eq_of_mem_iff (pairwise_fields_build entries') ?_
    intro field
    rw [mem_fields_build, mem_fields_build, List.mem_map, List.mem_map]
    exact exists_congr fun clause ↦ and_congr_left fun _ ↦ hclauses clause
  have hjunction : (build entries).junction = (build entries').junction := by
    rw [build, build, hjunctions]
  refine ⟨hfields, fun entity ↦ ?_⟩
  rw [passes_build, passes_build, hjunction, hfields]
  refine congrArg _ (List.map_congr_left fun field _ ↦ Criteria.Alike.passes_eq ?_ _)
  intro operator v
  rw [mem_criteriaAt_build, mem_criteriaAt_build]
  exact hclauses _

end Selection

/-! ## What pairs say, key by key -/

section Reads

variable {pair : String × String} {value : String} {entry entry' : QueryEntry} {clause : Clause}
  {key key' : ConditionKey}

theorem ConditionKey.write_ne_junction (key : ConditionKey) : key.write ≠ "filters[junction]" := by
  intro h
  have hparse := QueryKey.parse_write key
  rw [h, QueryKey.parse_junction] at hparse
  cases hparse

/-- A key tells its field and its operator. -/
theorem ConditionKey.eq_of_write_eq (h : key.write = key'.write) :
    key.field = key'.field ∧ key.symbol = key'.symbol := by
  have hparse := QueryKey.parse_write key
  rw [h, QueryKey.parse_write] at hparse
  obtain ⟨hfield, hsymbol⟩ := QueryKey.condition.inj (Except.ok.inj hparse)
  exact ⟨hfield.symm, hsymbol.symm⟩

/-- A pair with the key of a condition says the condition if the value makes one, or nothing. -/
theorem reads_condition_iff :
    Reads (key.write, value) entry ↔ ∃ operator : Operator, operator.symbol = key.symbol ∧
      entry = if operator.takes value then .condition ⟨key.field, operator, value⟩
        else .nothing := by
  constructor
  · intro h
    generalize hpair : (key.write, value) = pair at h
    cases h with
    | @condition key' operator _ hoperator htakes =>
      obtain ⟨hwrite, rfl⟩ := Prod.mk.inj hpair
      obtain ⟨hfield, hsymbol⟩ := ConditionKey.eq_of_write_eq hwrite
      exact ⟨operator, hoperator.trans hsymbol.symm, by rw [if_pos htakes, hfield]⟩
    | @noCondition key' operator _ hoperator htakes =>
      obtain ⟨hwrite, rfl⟩ := Prod.mk.inj hpair
      obtain ⟨hfield, hsymbol⟩ := ConditionKey.eq_of_write_eq hwrite
      refine ⟨operator, hoperator.trans hsymbol.symm, ?_⟩
      rw [htakes, if_neg Bool.false_ne_true]
    | junction | noJunction => exact absurd (Prod.mk.inj hpair).1 key.write_ne_junction
    | order => exact absurd (Prod.mk.inj hpair).1 key.write_ne_order
    | other _ hstarts =>
      obtain ⟨rfl, -⟩ := Prod.mk.inj hpair
      rw [key.startsWith_write] at hstarts
      cases hstarts
  · rintro ⟨operator, hoperator, rfl⟩
    cases htakes : operator.takes value with
    | true => exact .condition key hoperator htakes
    | false => exact .noCondition key hoperator htakes

theorem reads_junction (h : Reads ("filters[junction]", value) entry) :
    (Text.blank value = true ∧ entry = .nothing) ∨
      Text.blank value = false ∧
        ∃ junction : Junction, junction.SpelledBy value ∧ entry = .junction junction := by
  generalize hpair : ("filters[junction]", value) = pair at h
  cases h with
  | condition key | noCondition key =>
    exact absurd (Prod.mk.inj hpair).1.symm key.write_ne_junction
  | junction hblank hspelled =>
    obtain ⟨-, rfl⟩ := Prod.mk.inj hpair
    exact .inr ⟨hblank, _, hspelled, rfl⟩
  | noJunction hblank =>
    obtain ⟨-, rfl⟩ := Prod.mk.inj hpair
    exact .inl ⟨hblank, rfl⟩
  | order => exact absurd (Prod.mk.inj hpair).1 (by decide)
  | other _ hstarts =>
    obtain ⟨rfl, -⟩ := Prod.mk.inj hpair
    exact absurd hstarts (by decide)

/-- The pair of an order says an order, though its text may hold none. -/
theorem reads_order (h : Reads ("order", value) entry) :
    entry = .order (SortOrder.parse? value) := by
  generalize hpair : ("order", value) = pair at h
  cases h with
  | condition key | noCondition key => exact absurd (Prod.mk.inj hpair).1.symm key.write_ne_order
  | junction | noJunction => exact absurd (Prod.mk.inj hpair).1 (by decide)
  | order =>
    obtain ⟨-, rfl⟩ := Prod.mk.inj hpair
    rfl
  | other hne =>
    obtain ⟨rfl, -⟩ := Prod.mk.inj hpair
    exact absurd rfl hne

/-- What a pair says is one thing. -/
theorem Reads.unique (h : Reads pair entry) (h' : Reads pair entry') : entry = entry' := by
  cases h with
  | condition key hoperator htakes =>
    obtain ⟨operator', hoperator', rfl⟩ := reads_condition_iff.1 h'
    obtain rfl := Operator.symbol_injective (hoperator.trans hoperator'.symm)
    exact (if_pos htakes).symm
  | noCondition key hoperator htakes =>
    obtain ⟨operator', hoperator', rfl⟩ := reads_condition_iff.1 h'
    obtain rfl := Operator.symbol_injective (hoperator.trans hoperator'.symm)
    rw [htakes, if_neg Bool.false_ne_true]
  | junction hblank hspelled =>
    rcases reads_junction h' with ⟨hblank', -⟩ | ⟨-, junction', hspelled', rfl⟩
    · exact absurd hblank' (by simp [hblank])
    · rw [hspelled.unique hspelled']
  | noJunction hblank =>
    rcases reads_junction h' with ⟨-, rfl⟩ | ⟨hblank', -⟩
    · rfl
    · exact absurd hblank (by simp [hblank'])
  | order value => exact (reads_order h').symm
  | other hne hstarts =>
    cases h' with
    | condition key | noCondition key => exact absurd key.startsWith_write (by simp [hstarts])
    | junction | noJunction => exact absurd hstarts (by decide)
    | order => exact absurd rfl hne
    | other => rfl

/-- A pair says a condition, up to the spelling of its operator. -/
def Says (pair : String × String) (clause : Clause) : Prop :=
  ∃ said : Clause, Reads pair (.condition said) ∧ said.plain = clause

/-- Keys for the same conditions: those on one field with one operator, or with twins. An index
makes no difference. -/
def ConditionKey.Restates (key key' : ConditionKey) : Prop :=
  key.field = key'.field ∧ ∃ operator operator' : Operator,
    operator.symbol = key.symbol ∧ operator'.symbol = key'.symbol ∧ operator.plain = operator'.plain

theorem ConditionKey.Restates.symm (h : key.Restates key') : key'.Restates key := by
  obtain ⟨hfield, operator, operator', hsymbol, hsymbol', hplain⟩ := h
  exact ⟨hfield.symm, operator', operator, hsymbol', hsymbol, hplain.symm⟩

theorem ConditionKey.Restates.said (h : key.Restates key')
    (hclause : Says (key.write, value) clause) : Says (key'.write, value) clause := by
  obtain ⟨hfield, operator, operator', hsymbol, hsymbol', hplain⟩ := h
  obtain ⟨said, hreads, rfl⟩ := hclause
  obtain ⟨read, hread, hsaid⟩ := reads_condition_iff.1 hreads
  obtain rfl := Operator.symbol_injective (hread.trans hsymbol.symm)
  cases htakes : read.takes value with
  | false =>
    rw [htakes] at hsaid
    cases hsaid
  | true =>
    rw [htakes] at hsaid
    cases hsaid
    have htakes' : operator'.takes value = true := Operator.takes_eq_of_plain_eq hplain ▸ htakes
    refine ⟨_, .condition key' hsymbol' htakes', ?_⟩
    rw [Clause.plain, Clause.plain, hfield, hplain, Operator.kept_eq_of_plain_eq hplain]

/-- A key that restates another one names an operator, so its pair is never wrong. -/
theorem ConditionKey.Restates.not_offends (h : key.Restates key') (error : QueryError) :
    ¬ Offends (key'.write, value) error := by
  obtain ⟨-, -, operator', -, hsymbol', -⟩ := h
  exact (reads_condition_iff.2 ⟨operator', hsymbol', rfl⟩).not_offends error

end Reads

/-! ## Rewordings -/

/-- A query is reworded: pairs change places, but not an order with an order or a junction with a
junction; or a condition is repeated; or its key is replaced by another one for it. -/
inductive Rewording : List (String × String) → List (String × String) → Prop
  | permuted {pairs pairs' : List (String × String)} : pairs.Perm pairs' →
      pairs.filter (·.1 = "order") = pairs'.filter (·.1 = "order") →
      pairs.filter (·.1 = "filters[junction]") = pairs'.filter (·.1 = "filters[junction]") →
      Rewording pairs pairs'
  | repeated (key : ConditionKey) {value : String} {before after : List (String × String)} :
      (key.write, value) ∈ before ++ after →
      Rewording (before ++ after) (before ++ (key.write, value) :: after)
  | restated {key key' : ConditionKey} {value : String} {before after : List (String × String)} :
      key.Restates key' →
      Rewording (before ++ (key.write, value) :: after) (before ++ (key'.write, value) :: after)

/-- What rewordings leave as it is. -/
structure Rewords (pairs pairs' : List (String × String)) : Prop where
  sound : (∀ pair ∈ pairs, ∀ error, ¬ Offends pair error) →
    ∀ pair ∈ pairs', ∀ error, ¬ Offends pair error
  conditions : ∀ clause, (∃ pair ∈ pairs, Says pair clause) ↔ ∃ pair ∈ pairs', Says pair clause
  orders : pairs.filter (·.1 = "order") = pairs'.filter (·.1 = "order")
  junctions :
    pairs.filter (·.1 = "filters[junction]") = pairs'.filter (·.1 = "filters[junction]")

section Rewording

variable {pairs pairs' pairs'' : List (String × String)}

theorem Rewords.refl (pairs : List (String × String)) : Rewords pairs pairs :=
  ⟨id, fun _ ↦ Iff.rfl, rfl, rfl⟩

theorem Rewords.trans (h : Rewords pairs pairs') (h' : Rewords pairs' pairs'') :
    Rewords pairs pairs'' where
  sound := h'.sound ∘ h.sound
  conditions clause := (h.conditions clause).trans (h'.conditions clause)
  orders := h.orders.trans h'.orders
  junctions := h.junctions.trans h'.junctions

theorem mem_middle {pair other : String × String} {before after : List (String × String)} :
    pair ∈ before ++ other :: after ↔ pair = other ∨ pair ∈ before ++ after :=
  List.perm_middle.mem_iff.trans List.mem_cons

theorem filter_middle {word : String} {key : ConditionKey} (hword : key.write ≠ word)
    (value : String) (before after : List (String × String)) :
    (before ++ (key.write, value) :: after).filter (·.1 = word)
      = (before ++ after).filter (·.1 = word) := by
  simp [hword]

/-- A single rewording leaves all this as it is. -/
theorem Rewording.rewords (h : Rewording pairs pairs') : Rewords pairs pairs' := by
  cases h with
  | permuted hperm horders hjunctions =>
    exact {
      sound := fun hsound pair hpair ↦ hsound pair (hperm.mem_iff.2 hpair)
      conditions := fun clause ↦ exists_congr fun pair ↦ and_congr_left fun _ ↦ hperm.mem_iff
      orders := horders
      junctions := hjunctions }
  | @repeated key value before after hmem =>
    -- The pair is there twice, so as a set the pairs stay the same.
    have hmemIff (pair : String × String) :
        pair ∈ before ++ after ↔ pair ∈ before ++ (key.write, value) :: after := by
      rw [mem_middle]
      constructor
      · exact .inr
      · rintro (rfl | hpair)
        · exact hmem
        · exact hpair
    exact {
      sound := fun hsound pair hpair ↦ hsound pair ((hmemIff pair).2 hpair)
      conditions := fun clause ↦ exists_congr fun pair ↦ and_congr_left fun _ ↦ hmemIff pair
      orders := (filter_middle key.write_ne_order value before after).symm
      junctions := (filter_middle key.write_ne_junction value before after).symm }
  | @restated key key' value before after hrestates =>
    -- Restating is symmetric, so one direction gives the other.
    have htransfer (clause : Clause) {key key' : ConditionKey} (hrestates : key.Restates key') :
        (∃ pair ∈ before ++ (key.write, value) :: after, Says pair clause) →
          ∃ pair ∈ before ++ (key'.write, value) :: after, Says pair clause := by
      rintro ⟨pair, hpair, hclause⟩
      rcases mem_middle.1 hpair with rfl | hmem
      · exact ⟨_, mem_middle.2 (.inl rfl), hrestates.said hclause⟩
      · exact ⟨pair, mem_middle.2 (.inr hmem), hclause⟩
    exact {
      sound := by
        intro hsound pair hpair
        rcases mem_middle.1 hpair with rfl | hmem
        · exact hrestates.not_offends
        · exact hsound pair (mem_middle.2 (.inr hmem))
      conditions := fun clause ↦ ⟨htransfer clause hrestates, htransfer clause hrestates.symm⟩
      orders := by rw [filter_middle key.write_ne_order, filter_middle key'.write_ne_order]
      junctions := by
        rw [filter_middle key.write_ne_junction, filter_middle key'.write_ne_junction] }

/-- However often a query is reworded, its pairs say the same. -/
theorem rewords_of_reflTransGen (h : Relation.ReflTransGen Rewording pairs pairs') :
    Rewords pairs pairs' := by
  induction h with
  | refl => exact .refl pairs
  | tail _ hstep ih => exact ih.trans hstep.rewords

end Rewording

namespace Selection

variable {pairs pairs' : List (String × String)} {entries entries' : List QueryEntry}
  {selection : Selection}

theorem not_offends_of_foldlM {result : Selection}
    (h : pairs.foldlM addPair selection = .ok result) :
    ∀ pair ∈ pairs, ∀ error, ¬ Offends pair error := by
  induction pairs generalizing selection with
  | nil => exact nofun
  | cons pair pairs ih =>
    rw [List.foldlM_cons] at h
    rcases reads_or_offends pair with ⟨entry, hentry⟩ | ⟨error, herror⟩
    · rw [addPair_of_reads selection hentry] at h
      exact List.forall_mem_cons.2 ⟨hentry.not_offends, ih h⟩
    · rw [addPair_of_offends selection herror] at h
      cases h

/-- The plain conditions are those that the pairs say. -/
theorem mem_plainClauses (h : List.Forall₂ Reads pairs entries) {clause : Clause} :
    clause ∈ plainClauses entries ↔ ∃ pair ∈ pairs, Says pair clause := by
  induction h with
  | nil => simp [plainClauses]
  | @cons pair entry pairs entries hpair _ ih =>
    rw [List.exists_mem_cons_iff, ← ih]
    have hentry : Says pair clause ↔ ∃ said ∈ entry.clause?, said.plain = clause := by
      constructor
      · rintro ⟨said, hsaid, hplain⟩
        obtain rfl := hpair.unique hsaid
        exact ⟨said, rfl, hplain⟩
      · rintro ⟨said, hsaid, hplain⟩
        cases entry with
        | condition =>
          cases hsaid
          exact ⟨_, hpair, hplain⟩
        | junction | order | nothing => cases hsaid
    rw [hentry]
    cases entry <;> simp [plainClauses, QueryEntry.clause?, eq_comm]

/-- What only pairs with a certain key say is said by the pairs with that key. -/
theorem exists_reads_filter {β : Type} {said : QueryEntry → Option β} {word : String}
    (hsaid : ∀ pair entry, Reads pair entry → pair.1 ≠ word → said entry = none)
    (h : List.Forall₂ Reads pairs entries) :
    ∃ kept, List.Forall₂ Reads (pairs.filter (·.1 = word)) kept ∧
      kept.filterMap said = entries.filterMap said := by
  induction h with
  | nil => exact ⟨[], .nil, rfl⟩
  | @cons pair entry pairs entries hpair _ ih =>
    obtain ⟨kept, hkept, hsame⟩ := ih
    by_cases hword : pair.1 = word
    · refine ⟨entry :: kept, ?_, by rw [List.filterMap_cons, List.filterMap_cons, hsame]⟩
      rw [List.filter_cons_of_pos (by simpa using hword)]
      exact .cons hpair hkept
    · refine ⟨kept, ?_, ?_⟩
      · rwa [List.filter_cons_of_neg (by simpa using hword)]
      · rw [List.filterMap_cons_none (hsaid pair entry hpair hword), hsame]

/-- What only the pairs under a word say does not depend on the other pairs. -/
theorem filterMap_congr_of_filter {β : Type} {said : QueryEntry → Option β} {word : String}
    (hsaid : ∀ pair entry, Reads pair entry → pair.1 ≠ word → said entry = none)
    (h : List.Forall₂ Reads pairs entries) (h' : List.Forall₂ Reads pairs' entries')
    (hfilter : pairs.filter (·.1 = word) = pairs'.filter (·.1 = word)) :
    entries.filterMap said = entries'.filterMap said := by
  obtain ⟨kept, hkept, hsame⟩ := exists_reads_filter hsaid h
  obtain ⟨kept', hkept', hsame'⟩ := exists_reads_filter hsaid h'
  rw [← hfilter] at hkept'
  have hreads : Relator.RightUnique Reads := fun _ _ _ ↦ Reads.unique
  have hunique : kept = kept' := List.right_unique_forall₂' hreads hkept hkept'
  rw [← hsame, ← hsame', hunique]

theorem junction?_eq_none (pair : String × String) (entry : QueryEntry) (h : Reads pair entry)
    (hne : pair.1 ≠ "filters[junction]") : entry.junction? = none := by
  cases h with
  | junction => exact absurd rfl hne
  | condition | noCondition | noJunction | order | other => rfl

theorem order?_eq_none (pair : String × String) (entry : QueryEntry) (h : Reads pair entry)
    (hne : pair.1 ≠ "order") : entry.order? = none := by
  cases h with
  | order => exact absurd rfl hne
  | condition | noCondition | junction | noJunction | other => rfl

/-! ## Reworded queries -/

/-- A query that is read can be reworded: it is read again, with the same junction, the same order
and criteria for the same fields, and every entity passes as it did before. -/
theorem ofQuery_of_rewording (hrewording : Relation.ReflTransGen Rewording pairs pairs')
    (h : ofQuery pairs = .ok selection) :
    ∃ selection', ofQuery pairs' = .ok selection' ∧
      selection'.junction = selection.junction ∧ selection'.order = selection.order ∧
      selection'.fields = selection.fields ∧
      ∀ {α : Type} [Selectable α] (entity : α),
        selection'.passes entity = selection.passes entity := by
  have hrewords := rewords_of_reflTransGen hrewording
  have hsound := not_offends_of_foldlM h
  obtain ⟨entries, hentries⟩ := exists_forall₂_reads hsound
  obtain ⟨entries', hentries'⟩ := exists_forall₂_reads (hrewords.sound hsound)
  obtain rfl : build entries = selection :=
    Except.ok.inj ((ofQuery_of_reads hentries).symm.trans h)
  have hclauses (clause : Clause) :
      clause ∈ plainClauses entries' ↔ clause ∈ plainClauses entries := by
    rw [mem_plainClauses hentries', mem_plainClauses hentries, hrewords.conditions]
  have hjunctions := filterMap_congr_of_filter junction?_eq_none hentries' hentries
    hrewords.junctions.symm
  have horders := filterMap_congr_of_filter order?_eq_none hentries' hentries hrewords.orders.symm
  obtain ⟨hfields, hpasses⟩ := build_congr hclauses hjunctions
  refine ⟨build entries', ofQuery_of_reads hentries', ?_, ?_, hfields, hpasses⟩
  · rw [build, build, hjunctions]
  · rw [build, build, horders]

def resultQuery : List (String × String) := [
  ("filters[result][conditions][$in][]", "SUCCESS"),
  ("filters[code][conditions][$contains]", "SUMMER"),
  ("filters[junction]", "or"),
  ("order", "-created_at")]

/-- The query with the order first, the result with another operator and the code twice. -/
def resultQueryReworded : List (String × String) := [
  ("order", "-created_at"),
  ("filters[code][conditions][$contains]", "SUMMER"),
  ("filters[result][conditions][$is]", "SUCCESS"),
  ("filters[code][conditions][$contains]", "SUMMER"),
  ("filters[junction]", "or")]

def resultSelection : Selection where
  junction := .or
  criteria := [("code", { contains := ["SUMMER"] }), ("result", { included := ["SUCCESS"] })]
  order := some ⟨"created_at", .descending⟩

/-- The reworded query builds other criteria, in which a value stands twice, but the same entities
pass. -/
theorem ofQuery_resultQueryReworded :
    ofQuery resultQuery = .ok resultSelection ∧
    ∃ selection, ofQuery resultQueryReworded = .ok selection ∧
      selection.criteria? "code" = some { contains := ["SUMMER", "SUMMER"] } ∧
      selection.junction = .or ∧ selection.order = some ⟨"created_at", .descending⟩ ∧
      selection.fields = ["code", "result"] ∧
      ∀ {α : Type} [Selectable α] (entity : α),
        selection.passes entity = resultSelection.passes entity := by
  let isIn : ConditionKey :=
    ⟨"result", "$in", some "", by decide, by decide, by decide, by rintro _ ⟨⟩; decide⟩
  let is : ConditionKey := ⟨"result", "$is", none, by decide, by decide, by decide, nofun⟩
  let contains : ConditionKey :=
    ⟨"code", "$contains", none, by decide, by decide, by decide, nofun⟩
  let order := ("order", "-created_at")
  let junction := ("filters[junction]", "or")
  have hpermuted : Rewording resultQuery
      [order, (isIn.write, "SUCCESS"), (contains.write, "SUMMER"), junction] :=
    .permuted (by decide) (by decide) (by decide)
  have hrepeated : Rewording [order, (isIn.write, "SUCCESS"), (contains.write, "SUMMER"), junction]
      [order, (contains.write, "SUMMER"), (isIn.write, "SUCCESS"), (contains.write, "SUMMER"),
        junction] :=
    @Rewording.repeated contains "SUMMER" [order] _ (by decide)
  have hrestated : Rewording [order, (contains.write, "SUMMER"), (isIn.write, "SUCCESS"),
      (contains.write, "SUMMER"), junction] resultQueryReworded :=
    @Rewording.restated isIn is "SUCCESS" [order, (contains.write, "SUMMER")] _
      ⟨rfl, .isIn, .is, rfl, rfl, rfl⟩
  have hquery : ofQuery resultQuery = .ok resultSelection := by decide +kernel
  refine ⟨hquery, ?_⟩
  obtain ⟨selection, hread, hjunction, horder, hfields, hpasses⟩ :=
    ofQuery_of_rewording (((Relation.ReflTransGen.single hpermuted).tail hrepeated).tail hrestated)
      hquery
  refine ⟨selection, hread, ?_, hjunction, horder, hfields, hpasses⟩
  have hcode : (ofQuery resultQueryReworded).map (·.criteria? "code")
      = .ok (some { contains := ["SUMMER", "SUMMER"] }) := by
    decide +kernel
  rw [hread] at hcode
  exact Except.ok.inj hcode

end Selection

end Screening
