import Screening.Proofs.Logic.Trace
import Screening.Proofs.Rules.Report

/-!
# Sound rule sets

Where a payload has a problem, evaluation fails closed: a malformed rule does not hold, a logic that
cannot be used gives way to all rules, a rule that does not exist does not hold, and a payload that
cannot be used is never met. A rule set is sound if there is no occasion for any of these. Payloads
without problems are exactly those that compile to sound rule sets, so an evaluation of what strict
compilation accepts never meets such a default: whatever the outcomes of the rules are, and
whichever of them the logic asks for, it asks for rules that exist.
-/

namespace Screening

/-- Only a rule with a problem is reported as malformed. -/
theorem Rule.outcome_ne_malformed {rule : Rule} {context : Context} {allowed : AllowList}
    (h : rule.problem? = none) :
    rule.outcome context allowed ≠ .malformed := by
  obtain ⟨id, path, check⟩ := rule
  cases check with
  | malformed problem => cases h
  | condition field condition =>
    rw [outcome]
    split
    case isTrue => rintro ⟨⟩
    case isFalse =>
      dsimp only
      split <;> rintro ⟨⟩

namespace RuleSet

/-- Nothing in the rule set gives occasion to a default. -/
structure Sound (set : RuleSet) : Prop where
  compiled : ∀ rule ∈ set.rules, rule.problem? = none
  usable : set.combination ≠ .unsatisfiable
  notFallback : set.combination ≠ .fallback
  defined : ∀ e, set.combination = .expression e → ∀ id ∈ e.ruleIds, id ∈ set.rules.map (·.id)

variable {payload : Json} {set : RuleSet} {context : Context} {allowed : AllowList}
  {ids : List String}

/-! ## Sound payloads -/

/-- No rule is unknown if the logic names existing ones only. -/
theorem undefinedIn_eq_nil_iff {e : Logic} :
    undefinedIn ids e = [] ↔ ∀ id ∈ e.ruleIds, id ∈ ids := by
  have happears : FirstAppearances (· ∉ ids) e.ruleIds (undefinedIn ids e) :=
    firstAppearances_undefinedIn e
  rw [List.eq_nil_iff_forall_not_mem]
  constructor
  · intro h id hid
    by_cases hmem : id ∈ ids
    · exact hmem
    · exact absurd ((happears.mem_iff id).2 ⟨hid, hmem⟩) (h id)
  · intro h id hid
    obtain ⟨hmem, hnot⟩ := (happears.mem_iff id).1 hid
    exact hnot (h id hmem)

/-- The logic of a payload has no problem if it is not rejected and names entries only. -/
theorem problems_combinationOf_eq_nil_iff {logic : Option Json} :
    (combinationOf ids logic).2 = [] ↔
      (combinationOf ids logic).1 ≠ .fallback ∧
      ∀ e, (combinationOf ids logic).1 = .expression e → ∀ id ∈ e.ruleIds, id ∈ ids := by
  fun_cases combinationOf ids logic
  case case4 text _ e _ =>
    rw [List.map_eq_nil_iff, undefinedIn_eq_nil_iff]
    constructor
    · intro h
      constructor
      · rintro ⟨⟩
      · rintro _ ⟨⟩
        exact h
    · exact fun h ↦ h.2 e rfl
  case case5 | case6 =>
    constructor
    · rintro ⟨⟩
    · exact fun h ↦ absurd rfl h.1
  all_goals
    refine ⟨fun _ ↦ ?_, fun _ ↦ rfl⟩
    constructor
    · rintro ⟨⟩
    · rintro _ ⟨⟩

/-- A payload has no problem exactly if it compiles to a sound rule set. -/
theorem diagnostics_eq_nil_iff : (compile payload).diagnostics = [] ↔ (compile payload).Sound := by
  rcases unusable_or_usable payload with h | h
  case inl =>
    obtain ⟨problem, hcompile⟩ := compile_of_unusable h
    rw [hcompile]
    exact ⟨nofun, fun hsound ↦ absurd rfl hsound.usable⟩
  case inr =>
    cases h with
    | entries entries h =>
      have hids : (entries.map fun entry ↦ ruleOf entry.1 entry.2).map (·.id)
          = entries.map (·.1) := by
        simp [Function.comp_def]
      -- There is no problem with the entries and none with the logic.
      rw [compile_of_rules h]
      dsimp only
      rw [List.append_eq_nil_iff, List.filterMap_eq_nil_iff, problems_combinationOf_eq_nil_iff]
      constructor
      · rintro ⟨hcompiled, hnotFallback, hdefined⟩
        exact ⟨hcompiled, combinationOf_ne_unsatisfiable _ _, hnotFallback,
          fun e he id hid ↦ hids ▸ hdefined e he id hid⟩
      · intro hsound
        exact ⟨hsound.compiled, hsound.notFallback,
          fun e he id hid ↦ hids ▸ hsound.defined e he id hid⟩
    | thresholds thresholds hrules h =>
      rw [compile_of_thresholds hrules h]
      dsimp only
      rw [List.filterMap_eq_nil_iff]
      exact ⟨fun hcompiled ↦ ⟨hcompiled, nofun, nofun, nofun⟩, fun hsound ↦ hsound.compiled⟩
    | neither h hrules hredemptions =>
      rw [compile_of_neither h hrules hredemptions]
      exact ⟨fun _ ↦ ⟨nofun, nofun, nofun, nofun⟩, fun _ ↦ rfl⟩

/-- Strict compilation accepts the payloads of sound rule sets. -/
theorem compileStrict_eq_ok_iff_sound :
    compileStrict payload = .ok set ↔ set.Sound ∧ compile payload = set := by
  rw [compileStrict_eq_ok_iff, diagnostics_eq_nil_iff]
  constructor
  · rintro ⟨hsound, rfl⟩
    exact ⟨hsound, rfl⟩
  · rintro ⟨hsound, rfl⟩
    exact ⟨hsound, rfl⟩

/-! ## Evaluating a sound rule set -/

namespace Sound

theorem outcome_ne_malformed (hsound : set.Sound) {entry : String × Outcome}
    (h : entry ∈ set.outcomes context allowed) : entry.2 ≠ .malformed := by
  obtain ⟨rule, hrule, rfl⟩ := List.mem_map.1 h
  exact Rule.outcome_ne_malformed (hsound.compiled rule hrule)

/-- Whatever the verdicts, the logic of a sound rule set asks for its rules only. -/
theorem mem_ids_of_mem_asked (hsound : set.Sound) {e : Logic} (he : set.logic? = some e)
    {verdict : String → Bool} {id : String} (h : id ∈ e.asked verdict) :
    id ∈ set.rules.map (·.id) := by
  rw [logic?] at he
  split at he
  case h_1 e' hcombination =>
    obtain rfl := Option.some.inj he
    exact hsound.defined e' hcombination id (Logic.mem_ruleIds_of_mem_asked h)
  case h_2 => cases he

/-- What becomes of rules that do not exist makes no difference to the result. -/
theorem result_eq_evaluate (hsound : set.Sound) {e : Logic} (he : set.logic? = some e)
    (missing : String → Bool) :
    (set.evaluateDetailed context allowed).result
      = e.evaluate fun id ↦
          ((set.evaluateDetailed context allowed).outcome? id).elim (missing id) (·.holds) := by
  rw [result_eq_recomputed hsound.usable, he, Report.recomputed]
  apply Logic.evaluate_congr_asked
  intro id hid
  have hmem : id ∈ (set.outcomes context allowed).map (·.1) := by
    rw [map_fst_outcomes]
    exact hsound.mem_ids_of_mem_asked he hid
  obtain ⟨outcome, hlookup⟩ := Keyed.exists_lookup_eq_some hmem
  have houtcome : (set.evaluateDetailed context allowed).outcome? id = some outcome := hlookup
  rw [Report.lists_eq, ← Report.outcome?, houtcome]
  rfl

end Sound

/-- An evaluation of what strict compilation accepts meets no default: no rule is malformed, the
logic is neither replaced nor overruled, and whatever verdicts lead it which way, it asks for rules
of the payload only, so that what is taken for the verdict of a missing rule does not matter. -/
theorem evaluateDetailed_of_compileStrict (payload : Json) (set : RuleSet)
    (h : compileStrict payload = .ok set) (context : Context) (allowed : AllowList) :
    let report := set.evaluateDetailed context allowed
    (∀ entry ∈ report.outcomes, entry.2 ≠ .malformed) ∧
    report.logicFallback = false ∧
    set.combination ≠ .unsatisfiable ∧
    ∀ e, set.logic? = some e →
      (∀ verdict id, id ∈ e.asked verdict → id ∈ set.rules.map (·.id)) ∧
      ∀ missing : String → Bool,
        report.result = e.evaluate fun id ↦ (report.outcome? id).elim (missing id) (·.holds) := by
  have hsound : set.Sound := (compileStrict_eq_ok_iff_sound.1 h).1
  refine ⟨?_, ?_, hsound.usable, ?_⟩
  · exact fun entry hentry ↦ hsound.outcome_ne_malformed hentry
  · exact Bool.eq_false_iff.2 fun hfallback ↦ hsound.notFallback (logicFallback_iff.1 hfallback)
  · intro e he
    exact ⟨fun verdict id hid ↦ hsound.mem_ids_of_mem_asked he hid, hsound.result_eq_evaluate he⟩

def mailOrCode : Json := .object [
  ("rules", .object [
    ("mail", .object [
      ("name", .string "customer.email"),
      ("conditions", .object [("$contains", .string "@x.com")])]),
    ("amount", .object [
      ("name", .string "order.amount"),
      ("conditions", .object [("$gte", .number (.ofUInt64 1000))])]),
    ("code", .object [
      ("name", .string "voucher.code"),
      ("conditions", .object [("$is", .array [.string "SUMMER", .string "WINTER"])])])]),
  ("logic", .string "mail OR (amount and code)")]

/-- Without a customer all of these rules are asked for, and the other two decide. -/
theorem evaluateDetailed_mailOrCode :
    compileStrict mailOrCode = .ok (compile mailOrCode) ∧
    (∀ entry ∈ ((compile mailOrCode).evaluateDetailed anonymousOrder .everything).outcomes,
      entry.2 ≠ .malformed) ∧
    ((compile mailOrCode).evaluateDetailed anonymousOrder .everything).logicFallback = false ∧
    ∀ e, (compile mailOrCode).logic? = some e → ∀ verdict id, id ∈ e.asked verdict →
      id ∈ ["mail", "amount", "code"] := by
  have hstrict : compileStrict mailOrCode = .ok (compile mailOrCode) :=
    compileStrict_eq_ok_iff.2 ⟨by decide +kernel, rfl⟩
  obtain ⟨hmalformed, hfallback, -, hasked⟩ :=
    evaluateDetailed_of_compileStrict mailOrCode _ hstrict anonymousOrder .everything
  refine ⟨hstrict, hmalformed, hfallback, fun e he verdict id hid ↦ ?_⟩
  exact (hasked e he).1 verdict id hid

end RuleSet

end Screening
