import Screening.Proofs.Logic.Monotone
import Screening.Rules.Evaluation

/-!
# Outcomes and verdicts

A rule holds if it is skipped or met (`Rule.holds_outcome`): the allow-list decides the one and the
context the other. A rule set has a verdict on the outcomes of its rules. Whichever way they are
combined, the verdict can only rise when outcomes do (`Combination.verdict_mono`), and none is
stricter than that all rules must hold (`Combination.verdict_of_forall`).

Two evaluations of a rule set are thus compared rule by rule, for their results
(`RuleSet.evaluateWith_mono`) and for their whole reports (`RuleSet.evaluateDetailed_congr`).
-/

namespace Screening

/-! ## Rules -/

namespace Rule

/-- Whether the allow-list keeps the rule out of an evaluation. -/
def isSkipped (rule : Rule) (allowed : AllowList) : Bool := rule.path.any (!allowed.admits ·)

def isMet (rule : Rule) (context : Context) : Bool :=
  match rule.check with
  | .malformed _ => false
  | .condition field condition => condition.holdsIn (field.resolve context)

@[simp] theorem isMet_condition (id : String) (path : Option String) (field : Field)
    (condition : Condition) (context : Context) :
    isMet ⟨id, path, .condition field condition⟩ context
      = condition.holdsIn (field.resolve context) := rfl

/-- No context meets a broken rule. -/
theorem isMet_of_isMalformed {rule : Rule} {context : Context} (h : rule.isMalformed = true) :
    rule.isMet context = false := by
  obtain ⟨id, path, check⟩ := rule
  cases check with
  | malformed problem => rfl
  | condition field condition => cases h

theorem isSkipped_iff {rule : Rule} {allowed : AllowList} :
    rule.isSkipped allowed = true ↔ ∃ path ∈ rule.path, allowed.admits path = false := by
  cases hpath : rule.path <;> simp [isSkipped, hpath]

/-- A skipped rule counts as holding, and any other as it is met. -/
theorem holds_outcome (rule : Rule) (context : Context) (allowed : AllowList) :
    (rule.outcome context allowed).holds = (rule.isSkipped allowed || rule.isMet context) := by
  obtain ⟨id, path, check⟩ := rule
  rw [outcome, isSkipped, isMet]
  cases path.any (!allowed.admits ·) with
  | true => rfl
  | false =>
    cases check with
    | malformed problem => rfl
    | condition field condition =>
      cases hc : condition.holdsIn (field.resolve context) <;> simp [hc, Outcome.holds]

theorem holds_outcome_iff {rule : Rule} {path : String} (hpath : rule.path = some path)
    {context : Context} {allowed : AllowList} :
    (rule.outcome context allowed).holds = true ↔
      (allowed.admits path = true → rule.isMet context = true) := by
  rw [holds_outcome, isSkipped, hpath, Option.any_some]
  cases allowed.admits path <;> simp

/-- What becomes of a rule that asks a condition. -/
theorem outcome_asking (id path : String) (condition : Condition) (context : Context)
    (allowed : AllowList) :
    (asking id path condition).outcome context allowed =
      if allowed.admits path then
        if condition.holdsIn (Field.resolvePath path context) then .passed else .failed
      else .skipped := by
  change (if (!allowed.admits path) = true then Outcome.skipped else _) = _
  cases allowed.admits path <;> rfl

end Rule

/-! ## Combinations -/

namespace Combination

variable {ι : Type} {items : List ι} {id : ι → String} {x y : ι → Outcome}

/-- Where outcomes rise, so does the one that is found under an identifier. -/
theorem lookup_holds_mono (h : ∀ item ∈ items, (x item).holds = true → (y item).holds = true)
    (k : String)
    (hk : ((items.map fun item ↦ (id item, x item)).lookup k).any (·.holds) = true) :
    ((items.map fun item ↦ (id item, y item)).lookup k).any (·.holds) = true := by
  rw [Keyed.lookup_map] at hk ⊢
  cases hfind : items.find? (k == id ·) with
  | none => simp [hfind] at hk
  | some item =>
    rw [hfind] at hk
    exact h item (List.mem_of_find?_eq_some hfind) hk

/-- Where outcomes rise, so does the verdict on them. -/
theorem verdict_mono (combination : Combination)
    (h : ∀ item ∈ items, (x item).holds = true → (y item).holds = true)
    (hv : combination.verdict (items.map fun item ↦ (id item, x item)) = true) :
    combination.verdict (items.map fun item ↦ (id item, y item)) = true := by
  cases combination with
  | unsatisfiable => exact hv
  | allOf | fallback =>
    simp only [verdict, List.all_map, List.all_eq_true] at hv ⊢
    exact fun item hitem ↦ h item hitem (hv item hitem)
  | expression e => exact Logic.evaluate_mono e (fun k _ ↦ lookup_holds_mono h k) hv

/-- Where all outcomes hold, so does the verdict on them, as long as it is on rules that exist. -/
theorem verdict_of_forall {combination : Combination} {outcomes : List (String × Outcome)}
    (hne : combination ≠ .unsatisfiable)
    (hids : ∀ e, combination = .expression e → ∀ id ∈ e.ruleIds, id ∈ outcomes.map (·.1))
    (h : ∀ entry ∈ outcomes, entry.2.holds = true) : combination.verdict outcomes = true := by
  cases combination with
  | unsatisfiable => exact absurd rfl hne
  | allOf | fallback => exact List.all_eq_true.2 h
  | expression e =>
    apply Logic.evaluate_of_forall e
    intro id hid
    obtain ⟨outcome, hlookup⟩ := Keyed.exists_lookup_eq_some (hids e rfl id hid)
    rw [hlookup]
    exact h (id, outcome) (Keyed.mem_of_lookup_eq_some hlookup)

end Combination

/-! ## Evaluations -/

namespace RuleSet

variable {set : RuleSet} {x y : Context} {a b : AllowList}

/-- If every rule that holds in one evaluation holds in another, so does the whole set. -/
theorem evaluateWith_mono
    (h : ∀ rule ∈ set.rules, (rule.outcome x a).holds = true → (rule.outcome y b).holds = true)
    (hx : set.evaluateWith x a = true) : set.evaluateWith y b = true :=
  Combination.verdict_mono set.combination h hx

/-- Two evaluations in which every rule has the same outcome have the same report. -/
theorem evaluateDetailed_congr (h : ∀ rule ∈ set.rules, rule.outcome x a = rule.outcome y b) :
    set.evaluateDetailed x a = set.evaluateDetailed y b := by
  have houtcomes : set.outcomes x a = set.outcomes y b := by
    apply List.map_congr_left
    intro rule hrule
    rw [h rule hrule]
  rw [evaluateDetailed, evaluateDetailed, evaluateWith, evaluateWith, houtcomes]

end RuleSet

end Screening
