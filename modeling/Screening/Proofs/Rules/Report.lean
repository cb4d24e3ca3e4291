import Screening.Proofs.Rules.Forms

/-!
# Reports explain results

The report on an evaluation lists an outcome for each rule. From this list and the logic alone the
result can be worked out again (`Report.recomputed`), looking the rules up in the list one by one.
It can also be worked out from the map into which the listed outcomes are collected, where a later
outcome would replace an earlier one (`Report.verdicts`). The two are the same because the rules of
a payload have different identifiers.
-/

namespace Screening

/-- A rule counts as holding if it passed or was skipped. -/
theorem Outcome.holds_eq (outcome : Outcome) :
    outcome.holds = (outcome == .passed || outcome == .skipped) := by
  cases outcome <;> rfl

namespace Report

/-- Whether the report lists a rule as passed or skipped. -/
def lists (report : Report) (id : String) : Bool :=
  report.outcome? id == some .passed || report.outcome? id == some .skipped

/-- The result as it follows from the listed outcomes and the logic, if there is one. -/
def recomputed (report : Report) : Option Logic → Bool
  | some e => e.evaluate report.lists
  | none => report.outcomes.all fun entry ↦ entry.2 == .passed || entry.2 == .skipped

/-- The verdicts of the listed outcomes, collected one after the other into a map. -/
def verdicts (report : Report) : List (String × Bool) :=
  Keyed.ofList (report.outcomes.map fun entry ↦ (entry.1, entry.2.holds))

variable {report : Report}

theorem lists_eq (report : Report) (id : String) :
    report.lists id = (report.outcomes.lookup id).any (·.holds) := by
  rw [lists, outcome?]
  cases report.outcomes.lookup id with
  | none => rfl
  | some outcome => cases outcome <;> rfl

/-- Where no rule is listed twice, the collected verdicts are those of the list. -/
theorem lookup_verdicts (hnodup : (report.outcomes.map (·.1)).Nodup) (id : String) :
    (report.verdicts.lookup id).getD false = report.lists id := by
  have hkeys : (report.outcomes.map fun entry ↦ (entry.1, entry.2.holds)).map (·.1)
      = report.outcomes.map (·.1) := by
    rw [List.map_map]
    rfl
  rw [verdicts, Keyed.lookup_ofList, Keyed.lookup_reverse (by rwa [hkeys]), Keyed.lookup_map_snd,
    lists_eq]
  cases report.outcomes.lookup id <;> rfl

end Report

namespace RuleSet

variable {set : RuleSet} {context : Context} {allowed : AllowList} {ids : List String}

theorem map_fst_outcomes (set : RuleSet) (context : Context) (allowed : AllowList) :
    (set.outcomes context allowed).map (·.1) = set.rules.map (·.id) := by
  rw [outcomes, List.map_map]
  rfl

/-- A report explains its result, unless the payload could not be used. -/
theorem result_eq_recomputed (h : set.combination ≠ .unsatisfiable) :
    (set.evaluateDetailed context allowed).result
      = (set.evaluateDetailed context allowed).recomputed set.logic? := by
  change set.combination.verdict (set.outcomes context allowed) = _
  cases hcombination : set.combination with
  | unsatisfiable => exact absurd hcombination h
  | expression e =>
    have hlists : (set.evaluateDetailed context allowed).lists
        = fun id ↦ ((set.outcomes context allowed).lookup id).any (·.holds) :=
      funext (Report.lists_eq _)
    rw [logic?, hcombination, Report.recomputed, hlists]
    rfl
  | allOf | fallback =>
    rw [logic?, hcombination]
    simp only [Combination.verdict, Outcome.holds_eq]
    rfl

/-- Where no two rules have the same identifier, the logic has the same value on the collected
verdicts. -/
theorem result_eq_evaluateIn_verdicts {e : Logic} (hnodup : (set.rules.map (·.id)).Nodup)
    (he : set.logic? = some e) :
    (set.evaluateDetailed context allowed).result
      = e.evaluateIn (set.evaluateDetailed context allowed).verdicts := by
  have husable : set.combination ≠ .unsatisfiable := by
    intro h
    rw [logic?, h] at he
    cases he
  have houtcomes : ((set.evaluateDetailed context allowed).outcomes.map (·.1)).Nodup :=
    map_fst_outcomes set context allowed ▸ hnodup
  have hlookup : (fun id ↦ ((set.evaluateDetailed context allowed).verdicts.lookup id).getD false)
      = (set.evaluateDetailed context allowed).lists :=
    funext (Report.lookup_verdicts houtcomes)
  rw [result_eq_recomputed husable, he, Report.recomputed, Logic.evaluateIn, hlookup]

/-- The fallback is reported if the logic could not be used, whatever the context. -/
theorem logicFallback_iff :
    (set.evaluateDetailed context allowed).logicFallback = true
      ↔ set.combination = .fallback := by
  rw [evaluateDetailed]
  cases set.combination <;> simp

/-- The report on a payload lists its rules with their outcomes, in their order, which is that of
the entries of the payload, and no identifier twice. Its result is that of the evaluation. It does
not hold if the payload could not be used, and otherwise follows from the listed outcomes and the
logic, whether the outcomes are looked up in the list or collected into a map. The fallback flag
tells that the payload has entries and a logic that was rejected. -/
theorem evaluateDetailed_explains_result (payload : Json) (context : Context)
    (allowed : AllowList) :
    let set := compile payload
    let report := set.evaluateDetailed context allowed
    report.outcomes = set.rules.map (fun rule ↦ (rule.id, rule.outcome context allowed)) ∧
    (∀ entries, (payload.field? "rules").bind Json.members? = some entries →
      report.outcomes.map (·.1) = entries.map (·.1)) ∧
    (report.outcomes.map (·.1)).Nodup ∧
    report.result = set.evaluateWith context allowed ∧
    (Unusable payload → report.result = false) ∧
    (¬ Unusable payload → report.result = report.recomputed set.logic?) ∧
    (∀ e, set.logic? = some e → report.result = e.evaluateIn report.verdicts) ∧
    (report.logicFallback = true ↔
      ∃ entries logic, (payload.field? "rules").bind Json.members? = some entries ∧
        payload.field? "logic" = some logic ∧ RejectedLogic logic) := by
  intro set report
  have hids : report.outcomes.map (·.1) = set.rules.map (·.id) :=
    map_fst_outcomes set context allowed
  have hnodup : (set.rules.map (·.id)).Nodup := nodup_ids_compile payload
  refine ⟨rfl, ?_, ?_, rfl, ?_, ?_, ?_, ?_⟩
  · intro entries hentries
    rw [hids, map_id_rules_compile hentries]
  · rwa [hids]
  · intro h
    obtain ⟨problem, hcompile⟩ := compile_of_unusable h
    change (compile payload).evaluateWith context allowed = false
    rw [hcompile]
    rfl
  · intro h
    exact result_eq_recomputed fun hcombination ↦
      h (combination_eq_unsatisfiable_iff.1 hcombination)
  · exact fun e he ↦ result_eq_evaluateIn_verdicts hnodup he
  · exact logicFallback_iff.trans combination_eq_fallback_iff

/-- Rules of which one passes, one fails, one is broken and one may be left out of account. -/
def fourFates : Json := .object [
  ("rules", .object [
    ("amount", .object [
      ("name", .string "order.amount"),
      ("conditions", .object [("$gte", .number (.ofUInt64 1000))])]),
    ("mail", .object [
      ("name", .string "customer.email"),
      ("conditions", .object [("$contains", .string "@x.com")])]),
    ("broken", .object [("name", .string "order.currency")]),
    ("code", .object [
      ("name", .string "voucher.code"),
      ("conditions", .object [("$eq", .string "SUMMER")])])]),
  ("logic", .string "mail or broken or (code and amount)")]

def anonymousOrder : Context where
  order := some { amount := .ofInt64 1500 }

/-- The report on such rules, on rules with a logic that breaks off, and on what cannot be used. -/
theorem evaluateDetailed_fourFates :
    ((compile fourFates).evaluateDetailed anonymousOrder
        (.ofList ["order.", "customer."])).outcomes
      = [("amount", .passed), ("mail", .failed), ("broken", .malformed), ("code", .skipped)] ∧
    ((compile fourFates).evaluateDetailed anonymousOrder
      (.ofList ["order.", "customer."])).result = true ∧
    ((compile (.object [("rules", .object []), ("logic", .string "(a")])).evaluateDetailed
      anonymousOrder .everything).logicFallback = true ∧
    Unusable (.object [("rules", .null)]) ∧
    ((compile (.object [("rules", .null)])).evaluateDetailed anonymousOrder .everything).result
      = false := by
  have hunusable : Unusable (.object [("rules", .null)]) := .rules .null rfl rfl
  have husable : ¬ Unusable fourFates := by
    rw [← combination_eq_unsatisfiable_iff]
    intro h
    have hlogic : (compile fourFates).logic?.isSome = true := by decide +kernel
    rw [logic?, h] at hlogic
    cases hlogic
  obtain ⟨houtcomes, -, -, -, -, hresult, -, -⟩ :=
    evaluateDetailed_explains_result fourFates anonymousOrder (.ofList ["order.", "customer."])
  obtain ⟨-, -, -, -, -, -, -, hfallback⟩ := evaluateDetailed_explains_result
    (.object [("rules", .object []), ("logic", .string "(a")]) anonymousOrder .everything
  obtain ⟨-, -, -, -, hfalse, -, -, -⟩ :=
    evaluateDetailed_explains_result (.object [("rules", .null)]) anonymousOrder .everything
  refine ⟨?_, ?_, ?_, hunusable, hfalse hunusable⟩
  · rw [houtcomes]
    decide +kernel
  · rw [hresult husable]
    decide +kernel
  · refine hfallback.2 ⟨[], .string "(a", rfl, rfl, ?_⟩
    obtain ⟨problem, hproblem⟩ : ∃ problem, Logic.parse "(a" = .error problem := by
      have hnone : (Logic.parse "(a").toOption.isNone = true := by decide +kernel
      cases hparse : Logic.parse "(a" with
      | ok e =>
        rw [hparse] at hnone
        cases hnone
      | error problem => exact ⟨problem, rfl⟩
    exact .unreadable (by decide +kernel) hproblem

end RuleSet

end Screening
