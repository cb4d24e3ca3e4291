import Screening.Proofs.Field.Equality
import Screening.Proofs.Json.Respelling
import Screening.Proofs.Rules.Thresholds

/-!
# The spelling of numbers does not matter

Payloads that are the same but for the spelling of numbers compile to rule sets that are
(`RuleSet.compile_equal`): a rule asks the same of the same field, up to the spelling of numbers, or
it is malformed for the same reason. In contexts that are the same but for the spelling of numbers
such rule sets have the same report.
-/

namespace Screening

/-! ## Rules -/

inductive Rule.Equal : Rule → Rule → Prop
  | asking (id path : String) {c c' : Condition} : Condition.Equal c c' →
    Equal (.asking id path c) (.asking id path c')
  | malformed (id : String) (path : Option String) (problem : Diagnostic) :
    Equal (.malformed id path problem) (.malformed id path problem)

namespace Rule.Equal

variable {rule other : Rule} {context context' : Context}

theorem id_eq (h : rule.Equal other) : rule.id = other.id := by
  cases h <;> rfl

/-- The spelling of numbers, in rules and in contexts, has no part in outcomes. -/
theorem outcome_eq (h : rule.Equal other) (hcontext : context.Equal context')
    (allowed : AllowList) : rule.outcome context allowed = other.outcome context' allowed := by
  cases h with
  | asking id path hc =>
    have hholds := hc.holdsIn_eq (Field.resolve_equal (.ofPath path) hcontext)
    rw [outcome_asking, outcome_asking, Field.resolvePath, hholds, Field.resolvePath]
  | malformed => rfl

end Rule.Equal

/-- Rule sets that are the same but for the spelling of numbers, and perhaps for the problems that
were found. -/
structure RuleSet.Equal (set other : RuleSet) : Prop where
  rules : List.Forall₂ Rule.Equal set.rules other.rules
  combination : set.combination = other.combination

namespace RuleSet

open Json (Respelled)

theorem Equal.outcomes_eq {set other : RuleSet} (h : set.Equal other) {context context' : Context}
    (hcontext : context.Equal context') (allowed : AllowList) :
    set.outcomes context allowed = other.outcomes context' allowed := by
  have hrules := h.rules
  rw [outcomes, outcomes]
  generalize set.rules = rules at hrules ⊢
  generalize other.rules = others at hrules ⊢
  induction hrules with
  | nil => rfl
  | cons hrule hrest ih =>
    rw [List.map_cons, List.map_cons, ih, hrule.id_eq, hrule.outcome_eq hcontext]

theorem Equal.evaluateDetailed_eq {set other : RuleSet} (h : set.Equal other)
    {context context' : Context} (hcontext : context.Equal context') (allowed : AllowList) :
    set.evaluateDetailed context allowed = other.evaluateDetailed context' allowed := by
  rw [evaluateDetailed, evaluateDetailed, evaluateWith, evaluateWith, h.combination,
    h.outcomes_eq hcontext]

variable {json other : Json} {logic logic' : Option Json}

/-! ## Entries -/

/-- Conditions in another spelling are made or refused alike. -/
theorem conditionOf_equal (id : String) (h : Respelled json other) :
    Condition.MadeEqual (conditionOf id json) (conditionOf id other) := by
  have hoperators := (h.field? "conditions").bind fun h ↦ h.members?
  change Option.Rel _ (Entry.operators? json) (Entry.operators? other) at hoperators
  rw [conditionOf_eq, conditionOf_eq]
  generalize Entry.operators? json = operators at hoperators ⊢
  generalize Entry.operators? other = others at hoperators ⊢
  cases hoperators with
  | none => exact .error _
  | some hoperators =>
    cases hoperators with
    | nil => exact .error _
    | cons symbol hoperand hrest =>
      cases hrest with
      | nil => exact (Condition.parse_equal symbol (.ofJson hoperand)).mapError _
      | cons next hnext hrest =>
        simp only [List.map_cons, hrest.map_fst_eq]
        exact .error _

theorem ruleOf_equal (id : String) (h : Respelled json other) :
    (ruleOf id json).Equal (ruleOf id other) := by
  have hmembers := h.members?
  have hname := (h.field? "name").bind_eq fun h ↦ h.text?_eq
  have hcondition := conditionOf_equal id h
  rw [ruleOf, ruleOf, hname]
  generalize json.members? = members at hmembers ⊢
  generalize other.members? = others at hmembers ⊢
  cases hmembers with
  | none => exact .malformed ..
  | some hmembers =>
    cases (other.field? "name").bind Json.text? with
    | none => exact .malformed ..
    | some path =>
      generalize conditionOf id json = made at hcondition ⊢
      generalize conditionOf id other = made' at hcondition ⊢
      cases hcondition with
      | error problem => exact .malformed ..
      | ok hc => exact .asking id path hc

theorem map_ruleOf_equal {entries others : List (String × Json)}
    (h : Keyed.Related Respelled entries others) :
    List.Forall₂ Rule.Equal (entries.map fun entry ↦ ruleOf entry.1 entry.2)
      (others.map fun entry ↦ ruleOf entry.1 entry.2) := by
  induction h with
  | nil => exact .nil
  | cons id hentry hrest ih => exact .cons (ruleOf_equal id hentry) ih

/-! ## Logic -/

theorem combinationOf_eq_of_respelled (ids : List String) (h : Option.Rel Respelled logic logic') :
    (combinationOf ids logic).1 = (combinationOf ids logic').1 := by
  cases h with
  | none => rfl
  | some h => cases h <;> rfl

/-! ## Thresholds -/

/-- A threshold in another spelling is the same threshold. -/
theorem threshold?_rel (h : Respelled json other) :
    EqualDecimals (threshold? json) (threshold? other) := by
  refine (Value.Equal.ofJson h).decimal?.filter fun {d d'} hd hd' heq ↦ ?_
  rw [Bool.eq_iff_iff, whole_iff hd, whole_iff hd', (Decimal.beq_iff_toRat_eq d d').1 heq]

theorem thresholdRule?_rel {thresholds others : List (String × Json)}
    (h : Keyed.Related Respelled thresholds others) (key path : String) :
    Option.Rel Rule.Equal (thresholdRule? thresholds key path)
      (thresholdRule? others key path) := by
  have hfound := h.lookup key
  rw [thresholdRule?, thresholdRule?]
  generalize thresholds.lookup key = found at hfound ⊢
  generalize others.lookup key = found' at hfound ⊢
  cases hfound with
  | none => exact .none
  | some h =>
    have hlimit := threshold?_rel h
    cases h with
    | null => exact .none
    | bool | number | string | array | object =>
      dsimp only
      generalize threshold? _ = limit at hlimit ⊢
      generalize threshold? _ = limit' at hlimit ⊢
      cases hlimit with
      | none => exact .some (.malformed ..)
      | some h => exact .some (.asking key path (.lt h))

/-! ## Payloads -/

theorem Equal.unusable (problem : Diagnostic) :
    (RuleSet.unusable problem).Equal (RuleSet.unusable problem) :=
  ⟨.nil, rfl⟩

theorem compileGeneral_equal (h : Respelled json other) (hlogic : Option.Rel Respelled logic logic') :
    (compileGeneral json logic).Equal (compileGeneral other logic') := by
  have hmembers := h.members?
  rw [compileGeneral, compileGeneral]
  generalize json.members? = entries at hmembers ⊢
  generalize other.members? = others at hmembers ⊢
  cases hmembers with
  | none => exact .unusable _
  | some hentries =>
    refine ⟨map_ruleOf_equal hentries, ?_⟩
    simp only [List.map_map, Function.comp_def, id_ruleOf, hentries.map_fst_eq]
    exact combinationOf_eq_of_respelled _ hlogic

theorem compileThresholds_equal (h : Respelled json other) :
    (compileThresholds json).Equal (compileThresholds other) := by
  have hmembers := h.members?
  rw [compileThresholds, compileThresholds]
  generalize json.members? = thresholds at hmembers ⊢
  generalize other.members? = others at hmembers ⊢
  cases hmembers with
  | none => exact .unusable _
  | some h =>
    refine ⟨?_, rfl⟩
    exact List.rel_append (thresholdRule?_rel h _ _).forall₂_toList
      (thresholdRule?_rel h _ _).forall₂_toList

/-- The same payload but for the spelling of numbers is the same rule set but for it. -/
theorem compile_equal (h : Respelled json other) : (compile json).Equal (compile other) := by
  have hmembers := h.members?
  rw [compile, compile]
  generalize json.members? = members at hmembers ⊢
  generalize other.members? = members' at hmembers ⊢
  cases hmembers with
  | none => exact .unusable _
  | @some members members' hmembers =>
    have hrules := hmembers.lookup "rules"
    have hlogic := hmembers.lookup "logic"
    have hredemptions := hmembers.lookup "redemptions"
    dsimp only
    generalize members.lookup "rules" = entries at hrules ⊢
    generalize members'.lookup "rules" = entries' at hrules ⊢
    cases hrules with
    | some hentries => exact compileGeneral_equal hentries hlogic
    | none =>
      dsimp only
      generalize members.lookup "redemptions" = thresholds at hredemptions ⊢
      generalize members'.lookup "redemptions" = thresholds' at hredemptions ⊢
      cases hredemptions with
      | some hthresholds => exact compileThresholds_equal hthresholds
      | none => exact ⟨.nil, rfl⟩

/-- Equality of values is an equivalence: numbers are equal as numbers, lists item by item and maps
key by key. Conditions do not tell equal values apart: an operator refuses equal operands for the
same reason or accepts both, and its answers on equal values and operands are the same. So payloads
and contexts that are the same but for the spelling of numbers have the same report. -/
theorem equality_respected :
    Equivalence (fun v v' : Value ↦ (v == v') = true) ∧
    (∀ d d' : Decimal, (Value.number d == .number d') = true ↔ d.toRat = d'.toRat) ∧
    (∀ items items' : List Value, (Value.list items == .list items') = true ↔
      List.Forall₂ (fun v v' : Value ↦ (v == v') = true) items items') ∧
    (∀ entries entries' : Metadata, (Value.map entries == .map entries') = true ↔
      Keyed.Related (fun v v' : Value ↦ (v == v') = true) entries entries') ∧
    (∀ v v' o o' : Value, (v == v') = true → (o == o') = true → ∀ symbol : String,
      ((∃ e, Condition.parse symbol o = .error e ∧ Condition.parse symbol o' = .error e) ∨
        ∃ c c', Condition.parse symbol o = .ok c ∧ Condition.parse symbol o' = .ok c') ∧
      Condition.applyOperator (some v) symbol o = Condition.applyOperator (some v') symbol o') ∧
    ∀ payload payload' : Json, Respelled payload payload' →
      ∀ context context' : Context, context.Equal context' → ∀ allowed : AllowList,
        (compile payload).evaluateDetailed context allowed
          = (compile payload').evaluateDetailed context' allowed := by
  refine ⟨⟨fun _ ↦ BEq.rfl, BEq.symm, BEq.trans⟩, fun _ _ ↦ Value.number_beq_iff,
    fun _ _ ↦ Value.list_beq_iff, fun _ _ ↦ Value.map_beq_iff, ?_, ?_⟩
  · intro v v' o o' hv ho symbol
    have hv : Value.Equal v v' := Value.beq_iff_equal.1 hv
    have ho : Value.Equal o o' := Value.beq_iff_equal.1 ho
    refine ⟨?_, Condition.applyOperator_eq symbol (.some hv) ho⟩
    have hmade := Condition.parse_equal symbol ho
    generalize Condition.parse symbol o = made at hmade ⊢
    generalize Condition.parse symbol o' = made' at hmade ⊢
    cases hmade with
    | error e => exact .inl ⟨e, rfl, rfl⟩
    | ok => exact .inr ⟨_, _, rfl, rfl⟩
  · intro payload payload' hpayload context context' hcontext allowed
    exact (compile_equal hpayload).evaluateDetailed_eq hcontext allowed

def hundredWithPlaces : Decimal := ⟨false, 10000, 2, by decide, by decide⟩

def hundredRules (number : Json.Number) : Json := .object [
  ("rules", .object [
    ("points", .object [
      ("name", .string "customer.metadata.points"),
      ("conditions", .object [("$gte", .number number)])]),
    ("sizes", .object [
      ("name", .string "order.metadata.sizes"),
      ("conditions", .object [("$contains_all", .array [.number number])])])])]

def hundredOrdered (d : Decimal) : Context where
  customer := some { metadata := [("points", .number d)] }
  order := some { metadata := [("sizes", .list [.number (.ofUInt64 30), .number d])] }

/-- The rules may have 100 or 100.0 in them. -/
theorem hundredRules_respelled :
    Respelled (hundredRules (.ofUInt64 100)) (hundredRules (.double hundred)) := by
  have hinteger : (Json.Number.ofUInt64 100).decimal? = some (.ofUInt64 100) := by decide +kernel
  have hdouble : (Json.Number.double hundred).decimal?.any (· == .ofUInt64 100) = true := by
    decide +kernel
  obtain ⟨d, hd, hequal⟩ := (Option.any_eq_true _ _).1 hdouble
  have hnumber : Respelled (.number (.ofUInt64 100)) (.number (.double hundred)) := by
    refine .number ?_
    rw [hinteger, hd]
    exact .some (BEq.symm hequal)
  have hrule (path symbol : String) {operand operand' : Json} (h : Respelled operand operand') :
      Respelled
        (.object [("name", .string path), ("conditions", .object [(symbol, operand)])])
        (.object [("name", .string path), ("conditions", .object [(symbol, operand')])]) :=
    .object (.cons _ (.string path) (.cons _ (.object (.cons _ h .nil)) .nil))
  refine .object (.cons _ (.object (.cons _ ?_ (.cons _ ?_ .nil))) .nil)
  · exact hrule _ _ hnumber
  · exact hrule _ _ (.array (.cons hnumber .nil))

theorem hundredOrdered_equal {d d' : Decimal} (h : (d == d') = true) :
    (hundredOrdered d).Equal (hundredOrdered d') where
  voucher := ⟨rfl, .nil, .none⟩
  customer := .some ⟨rfl, rfl, .cons _ (.number h) .nil⟩
  order := .some ⟨BEq.rfl, rfl, .nil,
    .cons _ (.list (.cons (.number BEq.rfl) (.cons (.number h) .nil))) .nil⟩
  counters := rfl
  requestMetadata := .nil

/-- The rules are passed whatever the spelling of 100. -/
theorem equality_respected_hundredOrdered :
    (Value.number (.ofUInt64 100) == .number hundredWithPlaces) = true ∧
    Condition.applyOperator (some (.list [.number (.ofUInt64 100)])) "$contains"
      (.number hundredWithPlaces) = true ∧
    ((compile (hundredRules (.double hundred))).evaluateDetailed (hundredOrdered hundredWithPlaces)
      .everything).outcomes = [("points", .passed), ("sizes", .passed)] := by
  obtain ⟨-, -, -, -, hoperator, hreport⟩ := equality_respected
  have hequal : (Value.number (.ofUInt64 100) == .number hundredWithPlaces) = true := by
    decide +kernel
  have hlist : (Value.list [.number (.ofUInt64 100)] == .list [.number (.ofUInt64 100)]) = true :=
    BEq.rfl
  refine ⟨hequal, ?_, ?_⟩
  · obtain ⟨-, hanswer⟩ := hoperator _ _ _ _ hlist hequal "$contains"
    rw [← hanswer]
    decide +kernel
  · rw [← hreport _ _ hundredRules_respelled _ _ (hundredOrdered_equal hequal)]
    decide +kernel

end RuleSet

end Screening
