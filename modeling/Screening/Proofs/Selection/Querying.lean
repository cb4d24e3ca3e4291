import Mathlib.Data.List.Forall2
import Screening.Proofs.Selection.Keys

/-!
# Queries and what they build

A pair of a query says something of its own: a condition, a junction, an order, or nothing at all
(`Reads`). Or else it offends (`Offends`). Which of the two it is does not depend on the pairs
around it.

Reading a query fails with what its first offending pair is wrong about. A query without such a pair
is read as what its pairs say, built up in three separate parts (`Selection.build`): the conditions
are added one after the other, and of the junctions and the orders the last one counts.
-/

namespace Screening

/-! ## Words -/

namespace Junction

variable {text : String} {junction : Junction}

def word : Junction → String
  | .and => "and"
  | .or => "or"

/-- Whether a text is the word for a junction, in any case and with white space around it. -/
def SpelledBy (junction : Junction) (text : String) : Prop :=
  Text.eqIgnoringCase (Text.trim text) junction.word = true

instance (junction : Junction) (text : String) : Decidable (junction.SpelledBy text) :=
  inferInstanceAs (Decidable (_ = true))

/-- A text spells one junction at most. -/
theorem SpelledBy.unique {junction' : Junction} (h : junction.SpelledBy text)
    (h' : junction'.SpelledBy text) : junction = junction' := by
  rw [SpelledBy, Text.eqIgnoringCase_iff] at h h'
  have hword := h.symm.trans h'
  cases junction <;> cases junction' <;> first | rfl | exact absurd hword (by decide)

theorem parse_of_spelledBy (h : junction.SpelledBy text) : parse text = .ok junction := by
  cases junction with
  | and => exact if_pos h
  | or =>
    have hand : ¬ Junction.and.SpelledBy text := fun hand ↦ nomatch hand.unique h
    exact (if_neg hand).trans (if_pos h)

theorem parse_of_not_spelledBy (h : ∀ junction : Junction, ¬ junction.SpelledBy text) :
    parse text = .error (.invalidJunction text) :=
  (if_neg (h .and)).trans (if_neg (h .or))

end Junction

namespace Operator

variable {operator : Operator} {symbol value : String}

theorem ofSymbol_of_forall_ne (h : ∀ operator : Operator, operator.symbol ≠ symbol) :
    ofSymbol symbol = .error (.unknownOperator symbol) := by
  have hnone : all.find? (·.symbol == symbol) = none := by
    rw [List.find?_eq_none]
    intro operator _ heq
    exact h operator (beq_iff_eq.1 heq)
  rw [ofSymbol, hnone]

/-- Whether a value makes a condition of the operator: any but `false` does for a flag, and any that
is not blank for the other operators. -/
def takes (operator : Operator) (value : String) : Bool :=
  if operator.isFlag then !Text.eqIgnoringCase (Text.trim value) "false" else !Text.blank value

end Operator

/-! ## What pairs say -/

structure Clause where
  field : String
  operator : Operator
  value : String
deriving DecidableEq

/-- What a pair of a query says. -/
inductive QueryEntry where
  | condition (clause : Clause)
  | junction (junction : Junction)
  | order (order : Option SortOrder)
  | nothing
deriving DecidableEq

namespace QueryEntry

def clause? : QueryEntry → Option Clause
  | .condition clause => some clause
  | _ => none

def junction? : QueryEntry → Option Junction
  | .junction j => some j
  | _ => none

def order? : QueryEntry → Option (Option SortOrder)
  | .order o => some o
  | _ => none

end QueryEntry

/-- A pair of a query says something. -/
inductive Reads : String × String → QueryEntry → Prop
  | condition (key : ConditionKey) {operator : Operator} {value : String} :
    operator.symbol = key.symbol → operator.takes value = true →
      Reads (key.write, value) (.condition ⟨key.field, operator, value⟩)
  | noCondition (key : ConditionKey) {operator : Operator} {value : String} :
    operator.symbol = key.symbol → operator.takes value = false → Reads (key.write, value) .nothing
  | junction {junction : Junction} {value : String} :
    Text.blank value = false → junction.SpelledBy value →
      Reads ("filters[junction]", value) (.junction junction)
  | noJunction {value : String} :
    Text.blank value = true → Reads ("filters[junction]", value) .nothing
  | order (value : String) : Reads ("order", value) (.order (SortOrder.parse? value))
  | other {key value : String} :
    key ≠ "order" → Text.startsWith key "filters[" = false → Reads (key, value) .nothing

/-- A pair of a query is wrong about something. -/
inductive Offends : String × String → QueryError → Prop
  | malformedKey {key : String} (value : String) :
    Text.startsWith key "filters[" = true → key ≠ "filters[junction]" →
      (∀ condition : ConditionKey, key ≠ condition.write) → Offends (key, value) (.malformedKey key)
  | unknownOperator (key : ConditionKey) (value : String) :
    (∀ operator : Operator, operator.symbol ≠ key.symbol) →
      Offends (key.write, value) (.unknownOperator key.symbol)
  | invalidJunction {value : String} :
    Text.blank value = false → (∀ junction : Junction, ¬ junction.SpelledBy value) →
      Offends ("filters[junction]", value) (.invalidJunction value)

/-! ## One pair -/

namespace ConditionKey

theorem startsWith_write (key : ConditionKey) : Text.startsWith key.write "filters[" = true := by
  rw [Text.startsWith_iff]
  simp [write]

theorem write_ne_order (key : ConditionKey) : key.write ≠ "order" := by
  intro h
  have hstarts := key.startsWith_write
  rw [h] at hstarts
  exact absurd hstarts (by decide)

end ConditionKey

/-- Every pair says something or offends. -/
theorem reads_or_offends (pair : String × String) :
    (∃ entry, Reads pair entry) ∨ ∃ error, Offends pair error := by
  obtain ⟨key, value⟩ := pair
  by_cases horder : key = "order"
  · subst horder
    exact .inl ⟨_, .order value⟩
  cases hstarts : Text.startsWith key "filters[" with
  | false => exact .inl ⟨_, .other horder hstarts⟩
  | true =>
    by_cases hjunction : key = "filters[junction]"
    · subst hjunction
      cases hblank : Text.blank value with
      | true => exact .inl ⟨_, .noJunction hblank⟩
      | false =>
        by_cases hspelled : ∃ junction : Junction, junction.SpelledBy value
        · obtain ⟨junction, hspelled⟩ := hspelled
          exact .inl ⟨_, .junction hblank hspelled⟩
        · exact .inr ⟨_, .invalidJunction hblank (not_exists.1 hspelled)⟩
    by_cases hcondition : ∃ condition : ConditionKey, key = condition.write
    · obtain ⟨condition, rfl⟩ := hcondition
      by_cases hoperator : ∃ operator : Operator, operator.symbol = condition.symbol
      · obtain ⟨operator, hoperator⟩ := hoperator
        cases htakes : operator.takes value with
        | true => exact .inl ⟨_, .condition condition hoperator htakes⟩
        | false => exact .inl ⟨_, .noCondition condition hoperator htakes⟩
      · exact .inr ⟨_, .unknownOperator condition value (not_exists.1 hoperator)⟩
    · exact .inr ⟨_, .malformedKey value hstarts hjunction (not_exists.1 hcondition)⟩

namespace Selection

variable {selection : Selection} {pair : String × String} {entry : QueryEntry} {error : QueryError}

def addClause (selection : Selection) (clause : Clause) : Selection :=
  selection.addTo clause.field clause.operator clause.value

def take (selection : Selection) : QueryEntry → Selection
  | .condition clause => selection.addClause clause
  | .junction junction => selection.withJunction junction
  | .order order => { selection with order := order }
  | .nothing => selection

theorem addPair_of_startsWith {key value : String} (h : Text.startsWith key "filters[" = true) :
    selection.addPair (key, value) = (QueryKey.parse key).bind (selection.addEntry · value) := by
  have hne : key ≠ "order" := by
    rintro rfl
    exact absurd h (by decide)
  rw [addPair, if_neg hne, if_pos h]
  rfl

theorem addPair_condition (key : ConditionKey) (value : String) :
    selection.addPair (key.write, value)
      = selection.addEntry (.condition key.field key.symbol) value := by
  rw [addPair_of_startsWith key.startsWith_write, QueryKey.parse_write]
  rfl

theorem addPair_junction (value : String) :
    selection.addPair ("filters[junction]", value) = selection.addEntry .junction value := by
  rw [addPair_of_startsWith (by decide), QueryKey.parse_junction]
  rfl

/-- A flag takes no notice of its value. -/
theorem addTo_of_isFlag {operator : Operator} (h : operator.isFlag = true) (field value : String) :
    selection.addTo field operator "" = selection.addTo field operator value := by
  cases operator <;> first | rfl | cases h

/-- A condition is added if the operator takes the value. -/
theorem addEntry_condition {field value : String} {operator : Operator} :
    selection.addEntry (.condition field operator.symbol) value
      = .ok (if operator.takes value then selection.addClause ⟨field, operator, value⟩
          else selection) := by
  rw [addEntry, Operator.ofSymbol_symbol, Operator.takes, addClause]
  refine congrArg Except.ok ?_
  beta_reduce
  cases hflag : operator.isFlag with
  | true =>
    rw [if_pos rfl, if_pos rfl, addTo_of_isFlag hflag field value]
    cases Text.eqIgnoringCase (Text.trim value) "false" <;> rfl
  | false =>
    rw [if_neg Bool.false_ne_true, if_neg Bool.false_ne_true]
    cases Text.blank value <;> rfl

/-- What a pair says is taken in. -/
theorem addPair_of_reads (selection : Selection) (h : Reads pair entry) :
    selection.addPair pair = .ok (selection.take entry) := by
  cases h with
  | condition key hoperator htakes =>
    rw [addPair_condition, ← hoperator, addEntry_condition, if_pos htakes]
    rfl
  | noCondition key hoperator htakes =>
    rw [addPair_condition, ← hoperator, addEntry_condition, htakes]
    rfl
  | junction hblank hspelled =>
    rw [addPair_junction, addEntry, hblank, Junction.parse_of_spelledBy hspelled]
    rfl
  | noJunction hblank =>
    rw [addPair_junction]
    exact if_pos hblank
  | order value => rfl
  | other hne hstarts =>
    rw [addPair, if_neg hne, hstarts]
    rfl

/-- A pair that is wrong stops the reading with its error. -/
theorem addPair_of_offends (selection : Selection) (h : Offends pair error) :
    selection.addPair pair = .error error := by
  cases h with
  | malformedKey value hstarts hjunction hcondition =>
    rw [addPair_of_startsWith hstarts,
      QueryKey.parse_eq_error_iff.2 ⟨rfl, hjunction, hcondition⟩]
    rfl
  | unknownOperator key value hoperator =>
    rw [addPair_condition, addEntry, Operator.ofSymbol_of_forall_ne hoperator]
    rfl
  | invalidJunction hblank hspelled =>
    rw [addPair_junction, addEntry, hblank, Junction.parse_of_not_spelledBy hspelled]
    rfl

end Selection

/-- A pair that says something is not wrong about anything. -/
theorem Reads.not_offends {pair : String × String} {entry : QueryEntry} (h : Reads pair entry)
    (error : QueryError) : ¬ Offends pair error := by
  intro hoffends
  have hok := Selection.addPair_of_reads {} h
  rw [Selection.addPair_of_offends {} hoffends] at hok
  cases hok

/-! ## Whole queries -/

namespace Selection

variable {pairs : List (String × String)} {entries : List QueryEntry}

/-- The selection that entries of a query build: the conditions are added one after the other, and
the last junction and the last order count. -/
def build (entries : List QueryEntry) : Selection :=
  { (entries.filterMap QueryEntry.clause?).foldl addClause {} with
    junction := (entries.filterMap QueryEntry.junction?).getLast?.getD .and
    order := (entries.filterMap QueryEntry.order?).getLast?.getD none }

/-- The last junction that is said counts. -/
theorem junction_foldl_take (entries : List QueryEntry) (selection : Selection) :
    (entries.foldl take selection).junction
      = (entries.filterMap QueryEntry.junction?).getLast?.getD selection.junction := by
  induction entries generalizing selection with
  | nil => rfl
  | cons entry entries ih =>
    rw [List.foldl_cons, ih]
    cases entry with
    | junction junction =>
      have hcons : (QueryEntry.junction junction :: entries).filterMap QueryEntry.junction?
          = junction :: entries.filterMap QueryEntry.junction? := rfl
      rw [hcons, List.getLast?_cons]
      rfl
    | condition | order | nothing => rfl

theorem order_foldl_take (entries : List QueryEntry) (selection : Selection) :
    (entries.foldl take selection).order
      = (entries.filterMap QueryEntry.order?).getLast?.getD selection.order := by
  induction entries generalizing selection with
  | nil => rfl
  | cons entry entries ih =>
    rw [List.foldl_cons, ih]
    cases entry with
    | order order =>
      have hcons : (QueryEntry.order order :: entries).filterMap QueryEntry.order?
          = order :: entries.filterMap QueryEntry.order? := rfl
      rw [hcons, List.getLast?_cons]
      rfl
    | condition | junction | nothing => rfl

/-- Conditions are added to the criteria there are, whatever the junction and the order. -/
theorem criteria_foldl_take (entries : List QueryEntry) {selection selection' : Selection}
    (h : selection.criteria = selection'.criteria) :
    (entries.foldl take selection).criteria
      = ((entries.filterMap QueryEntry.clause?).foldl addClause selection').criteria := by
  induction entries generalizing selection selection' with
  | nil => exact h
  | cons entry entries ih =>
    cases entry with
    | condition clause =>
      refine ih ?_
      simp only [take, addClause, addTo, withCriteria, criteria?, h]
    | junction | order | nothing => exact ih h

/-- Taking in entries one after the other is to build from them. -/
theorem foldl_take_eq_build (entries : List QueryEntry) :
    entries.foldl take {} = build entries := by
  have hjunction := junction_foldl_take entries {}
  have hcriteria := criteria_foldl_take entries (rfl : ({} : Selection).criteria = _)
  have horder := order_foldl_take entries {}
  rw [build, ← hjunction, ← hcriteria, ← horder]

/-- If every pair says something, they are taken in one after the other. -/
theorem foldlM_addPair_of_reads (h : List.Forall₂ Reads pairs entries) (selection : Selection) :
    pairs.foldlM addPair selection = .ok (entries.foldl take selection) := by
  induction h generalizing selection with
  | nil => rfl
  | cons hpair _ ih =>
    rw [List.foldlM_cons, addPair_of_reads selection hpair]
    exact ih _

/-- A query of which every pair says something is read as what its pairs say. -/
theorem ofQuery_of_reads (h : List.Forall₂ Reads pairs entries) :
    ofQuery pairs = .ok (build entries) := by
  rw [ofQuery, foldlM_addPair_of_reads h, foldl_take_eq_build]

/-- Every pair says something if none is wrong. -/
theorem exists_forall₂_reads (h : ∀ pair ∈ pairs, ∀ error, ¬ Offends pair error) :
    ∃ entries, List.Forall₂ Reads pairs entries := by
  induction pairs with
  | nil => exact ⟨[], .nil⟩
  | cons pair pairs ih =>
    obtain ⟨hpair, hpairs⟩ := List.forall_mem_cons.1 h
    obtain ⟨entries, hentries⟩ := ih hpairs
    rcases reads_or_offends pair with ⟨entry, hentry⟩ | ⟨error, herror⟩
    · exact ⟨entry :: entries, .cons hentry hentries⟩
    · exact absurd herror (hpair error)

theorem not_offends_of_reads (h : List.Forall₂ Reads pairs entries) :
    ∀ pair ∈ pairs, ∀ error, ¬ Offends pair error := by
  induction h with
  | nil => exact nofun
  | cons hpair _ ih => exact List.forall_mem_cons.2 ⟨hpair.not_offends, ih⟩

/-- The first pair that offends decides, whatever stands around it. -/
theorem ofQuery_of_offends {before after : List (String × String)} {pair : String × String}
    {error : QueryError} (hbefore : ∀ earlier ∈ before, ∀ error, ¬ Offends earlier error)
    (hpair : Offends pair error) : ofQuery (before ++ pair :: after) = .error error := by
  obtain ⟨entries, hentries⟩ := exists_forall₂_reads hbefore
  rw [ofQuery, List.foldlM_append, foldlM_addPair_of_reads hentries]
  change (pair :: after).foldlM addPair (entries.foldl take {}) = _
  rw [List.foldlM_cons, addPair_of_offends _ hpair]
  rfl

/-! ## No criteria without conditions -/

theorem isEmpty_add (criteria : Criteria) (operator : Operator) (value : String) :
    (criteria.add operator value).isEmpty = false := by
  have hinsert (set : List String) : Keyed.insertKey value set ≠ [] := by
    intro h
    have hmem := (Keyed.mem_insertKey value value set).2 (.inl rfl)
    rw [h] at hmem
    cases hmem
  cases operator <;> simp [Criteria.add, Criteria.isEmpty, Criteria.hasInclude, hinsert]

/-- Criteria that stand in a selection are never empty. -/
theorem isEmpty_of_mem_build {entry : String × Criteria} (h : entry ∈ (build entries).criteria) :
    entry.2.isEmpty = false := by
  suffices hfold : ∀ (clauses : List Clause) (selection : Selection),
      (∀ entry ∈ selection.criteria, entry.2.isEmpty = false) →
        ∀ entry ∈ (clauses.foldl addClause selection).criteria, entry.2.isEmpty = false from
    hfold _ {} nofun entry h
  intro clauses
  induction clauses with
  | nil => exact fun selection hselection ↦ hselection
  | cons clause clauses ih =>
    intro selection hselection
    refine ih (selection.addClause clause) fun entry hentry ↦ ?_
    rcases Keyed.mem_insert hentry with rfl | hmem
    · exact isEmpty_add _ clause.operator clause.value
    · exact hselection entry hmem

/-! ## Queries -/

/-- A query with pairs that offend fails with what the first of them is wrong about, whatever comes
before or after it. A query without such pairs is read, pair by pair, as something that its pairs
say, and what they say builds the selection: every condition is added to the criteria of its field,
in order, and the last junction and the last order count. There are no criteria without a
condition. -/
theorem ofQuery_eq_build (pairs : List (String × String)) :
    (∀ before pair after error, pairs = before ++ pair :: after →
      (∀ earlier ∈ before, ∀ error, ¬ Offends earlier error) → Offends pair error →
        ofQuery pairs = .error error) ∧
    ((∀ pair ∈ pairs, ∀ error, ¬ Offends pair error) →
      (∃ entries, List.Forall₂ Reads pairs entries) ∧
      ∀ entries, List.Forall₂ Reads pairs entries →
        ofQuery pairs = .ok (build entries) ∧
        ∀ entry ∈ (build entries).criteria, entry.2.isEmpty = false) := by
  constructor
  · rintro before pair after error rfl hbefore hpair
    exact ofQuery_of_offends hbefore hpair
  · intro hpairs
    refine ⟨exists_forall₂_reads hpairs, fun entries hentries ↦ ⟨ofQuery_of_reads hentries, ?_⟩⟩
    exact fun entry ↦ isEmpty_of_mem_build

/-- Publications with certain codes or results, the latest first. A blank value, a flag that is not
set, a blank junction and the limit of a page say nothing. -/
def publicationQuery : List (String × String) := [
  ("filters[code][conditions][$contains]", "SUMMER"),
  ("limit", "10"),
  ("filters[result][conditions][$in][]", " SUCCESS"),
  ("filters[junction]", " Or "),
  ("filters[result][conditions][$is_unknown]", "FALSE "),
  ("filters[code][conditions][$starts_with][0]", "  "),
  ("filters[junction]", ""),
  ("order", "-created_at")]

def publicationEntries : List QueryEntry := [
  .condition ⟨"code", .contains, "SUMMER"⟩, .nothing, .condition ⟨"result", .isIn, " SUCCESS"⟩,
  .junction .or, .nothing, .nothing, .nothing, .order (some ⟨"created_at", .descending⟩)]

/-- The query is read, and with a malformed key and a wrong junction after it, the key is reported.
-/
theorem ofQuery_publicationQuery :
    ofQuery publicationQuery = .ok {
      junction := .or
      criteria := [("code", { contains := ["SUMMER"] }), ("result", { included := [" SUCCESS"] })]
      order := some ⟨"created_at", .descending⟩ } ∧
    ofQuery (publicationQuery ++ [("filters[code][where]", "x"), ("filters[junction]", "xor")])
      = .error (.malformedKey "filters[code][where]") := by
  let contains : ConditionKey :=
    ⟨"code", "$contains", none, by decide, by decide, by decide, nofun⟩
  let isIn : ConditionKey :=
    ⟨"result", "$in", some "", by decide, by decide, by decide, by rintro _ ⟨⟩; decide⟩
  let isUnknown : ConditionKey :=
    ⟨"result", "$is_unknown", none, by decide, by decide, by decide, nofun⟩
  let startsWith : ConditionKey :=
    ⟨"code", "$starts_with", some "0", by decide, by decide, by decide, by rintro _ ⟨⟩; decide⟩
  have hreads : List.Forall₂ Reads publicationQuery publicationEntries :=
    .cons (.condition contains rfl (by decide)) <| .cons (.other (by decide) (by decide)) <|
    .cons (.condition isIn rfl (by decide)) <| .cons (.junction (by decide) (by decide)) <|
    .cons (.noCondition isUnknown (rfl : Operator.isUnknown.symbol = _) (by decide)) <|
    .cons (.noCondition startsWith (rfl : Operator.startsWith.symbol = _) (by decide)) <|
    .cons (.noJunction (by decide)) <| .cons (.order "-created_at") .nil
  have hoffends : Offends ("filters[code][where]", "x") (.malformedKey "filters[code][where]") := by
    have hnone :
        (QueryKey.segments? "filters[code][where]".toList).bind QueryKey.ofSegments? = none := by
      decide
    have hparse : QueryKey.parse "filters[code][where]"
        = .error (.malformedKey "filters[code][where]") := by
      rw [QueryKey.parse, hnone]
    obtain ⟨-, hjunction, hcondition⟩ := QueryKey.parse_eq_error_iff.1 hparse
    exact .malformedKey "x" (by decide) hjunction hcondition
  have hnot := not_offends_of_reads hreads
  constructor
  · obtain ⟨-, hbuild⟩ := (ofQuery_eq_build publicationQuery).2 hnot
    exact (hbuild publicationEntries hreads).1
  · exact (ofQuery_eq_build _).1 _ _ _ _ rfl hnot hoffends

end Selection

end Screening
