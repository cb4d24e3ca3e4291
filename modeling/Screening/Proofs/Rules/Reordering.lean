import Screening.Proofs.Json.Canonical
import Screening.Proofs.Related
import Screening.Proofs.Rules.Sound

/-!
# Order and other members do not matter

Compilation looks at the name and the conditions of an entry and at nothing else of it, and of a
payload that has entries it looks at these and at the logic. Payloads that agree on this, in
whatever order their entries come and whatever else they have (`RuleSet.Alike`), compile to rule
sets of which strict compilation accepts both or neither, and which are evaluated alike.

The one thing that may differ is why a rule is malformed: several operators are listed in the order
in which the entry has them. This is why rules are compared up to their problems (`Rule.Alike`).
-/

namespace Screening

/-! ## Entries -/

/-- Entries that differ in nothing that compilation looks at. -/
inductive Entry.Alike (entry other : Json) : Prop
  | noObjects (hentry : entry.members? = none) (hother : other.members? = none)
  | objects (hentry : entry.members? ≠ none) (hother : other.members? ≠ none)
    (hname : Option.Rel Json.Same (entry.field? "name") (other.field? "name"))
    (hconditions : Option.Rel Json.Same (entry.field? "conditions") (other.field? "conditions"))

inductive Rule.Alike : Rule → Rule → Prop
  | refl (rule : Rule) : Alike rule rule
  | malformed (id : String) (path : Option String) (problem problem' : Diagnostic) :
    Alike (.malformed id path problem) (.malformed id path problem')

namespace Rule.Alike

variable {rule other : Rule}

/-- Why a rule could not be compiled has no part in its outcome. -/
theorem outcome_eq (h : rule.Alike other) (context : Context) (allowed : AllowList) :
    rule.outcome context allowed = other.outcome context allowed := by
  cases h <;> rfl

theorem problem?_eq_none_iff (h : rule.Alike other) :
    rule.problem? = none ↔ other.problem? = none := by
  cases h with
  | refl => rfl
  | malformed => simp

end Rule.Alike

namespace Entry

variable {entry other : Json}

theorem Alike.symm (h : Alike entry other) : Alike other entry := by
  cases h with
  | noObjects hentry hother => exact .noObjects hother hentry
  | objects hentry hother hname hconditions =>
    exact .objects hother hentry (hname.symm Json.Same.symm) (hconditions.symm Json.Same.symm)

theorem name?_eq (h : Option.Rel Json.Same (entry.field? "name") (other.field? "name")) :
    name? entry = name? other :=
  h.bind_eq Json.Same.text?_eq

/-- The same conditions have the same operators with the same operands, in any order. -/
theorem operators?_rel
    (h : Option.Rel Json.Same (entry.field? "conditions") (other.field? "conditions")) :
    Option.Rel (fun operators others ↦
        (Json.canonicalMembers operators).Perm (Json.canonicalMembers others))
      (operators? entry) (operators? other) :=
  h.bind Json.Same.members?

end Entry

namespace RuleSet

variable {entry other : Json}

/-- The same conditions make the same condition, or none for whatever reason. -/
theorem conditionOf_eq_or_error (id : String)
    (h : Option.Rel Json.Same (entry.field? "conditions") (other.field? "conditions")) :
    conditionOf id entry = conditionOf id other ∨
      ∃ problem problem', conditionOf id entry = .error problem ∧
        conditionOf id other = .error problem' := by
  have hoperators := Entry.operators?_rel h
  rw [conditionOf_eq, conditionOf_eq]
  generalize Entry.operators? entry = operators at hoperators ⊢
  generalize Entry.operators? other = others at hoperators ⊢
  cases hoperators with
  | none => exact .inl rfl
  | @some operators others hperm =>
    have hlength : operators.length = others.length := by
      simpa [Json.canonicalMembers_eq_map] using hperm.length_eq
    match operators with
    | [] =>
      obtain rfl := List.eq_nil_of_length_eq_zero hlength.symm
      exact .inl rfl
    | [(symbol, operand)] =>
      obtain ⟨⟨symbol', operand'⟩, rfl⟩ := List.length_eq_one_iff.1 hlength.symm
      obtain ⟨rfl, hoperand⟩ := Prod.mk.inj (List.singleton_perm_singleton.1 hperm)
      left
      dsimp only
      rw [Value.ofJson_eq_of_same hoperand]
    | _ :: _ :: _ =>
      match others with
      | _ :: _ :: _ => exact .inr ⟨_, _, rfl, rfl⟩

theorem ruleOf_alike (id : String) (h : Entry.Alike entry other) :
    (ruleOf id entry).Alike (ruleOf id other) := by
  cases h with
  | noObjects hentry hother =>
    rw [ruleOf, ruleOf, hentry, hother]
    exact .refl _
  | objects hentry hother hname hconditions =>
    have hsame : Entry.name? entry = Entry.name? other := Entry.name?_eq hname
    cases hpath : Entry.name? entry with
    | none =>
      obtain ⟨problem, hproblem⟩ := ruleOf_of_name?_eq_none id hpath
      obtain ⟨problem', hproblem'⟩ := ruleOf_of_name?_eq_none id (hsame ▸ hpath)
      rw [hproblem, hproblem']
      exact .malformed ..
    | some path =>
      rw [ruleOf_of_name?_eq_some hpath, ruleOf_of_name?_eq_some (hsame ▸ hpath)]
      rcases conditionOf_eq_or_error id hconditions with
        heq | ⟨problem, problem', hproblem, hproblem'⟩
      · rw [heq]
        exact .refl _
      · rw [hproblem, hproblem']
        exact .malformed ..

/-! ## Logic -/

/-- The order of members and the sign of zeros have no part in the logic. -/
theorem combinationOf_canonical (ids : List String) (logic : Option Json) :
    (combinationOf ids (logic.map Json.canonical)).1 = (combinationOf ids logic).1 := by
  rcases logic with _ | _ | b | n | text | items | members <;> rfl

/-- The combination does not depend on what rules there are. -/
theorem combinationOf_eq_of_ids (ids ids' : List String) (logic : Option Json) :
    (combinationOf ids logic).1 = (combinationOf ids' logic).1 := by
  rcases logic with _ | _ | b | n | text | items | members
  case some.string =>
    cases hblank : Text.blank text with
    | true => rw [combinationOf_blank hblank, combinationOf_blank hblank]
    | false =>
      cases hparse : Logic.parse text with
      | ok e =>
        rw [combinationOf_of_parse_eq_ok hblank hparse, combinationOf_of_parse_eq_ok hblank hparse]
      | error problem =>
        rw [combinationOf_of_parse_eq_error hblank hparse,
          combinationOf_of_parse_eq_error hblank hparse]
  all_goals rfl

theorem combinationOf_eq_of_same (ids ids' : List String) {logic logic' : Option Json}
    (h : Option.Rel Json.Same logic logic') :
    (combinationOf ids logic).1 = (combinationOf ids' logic').1 := by
  have hcanonical : logic.map Json.canonical = logic'.map Json.canonical := h.map_eq id
  calc (combinationOf ids logic).1
    _ = (combinationOf ids (logic.map Json.canonical)).1 := (combinationOf_canonical ids _).symm
    _ = (combinationOf ids' (logic'.map Json.canonical)).1 := by
      rw [hcanonical, combinationOf_eq_of_ids ids ids']
    _ = (combinationOf ids' logic').1 := combinationOf_canonical ids' _

end RuleSet

/-! ## Verdicts -/

/-- The order of outcomes does not matter to a verdict, as long as no rule has two. -/
theorem Combination.verdict_eq_of_perm (combination : Combination)
    {outcomes others : List (String × Outcome)} (hnodup : (outcomes.map (·.1)).Nodup)
    (h : outcomes.Perm others) : combination.verdict outcomes = combination.verdict others := by
  cases combination with
  | unsatisfiable => rfl
  | allOf | fallback => exact h.all_eq
  | expression e => simp only [verdict, Keyed.lookup_eq_of_perm hnodup h]

namespace RuleSet

/-! ## Payloads -/

/-- Payloads with entries that agree on all that compilation looks at: on what is under each
identifier among the entries, and on the logic. -/
structure Alike (payload other : Json) : Prop where
  entries : ∃ entries others, (payload.field? "rules").bind Json.members? = some entries ∧
    (other.field? "rules").bind Json.members? = some others ∧
    ∀ id, Option.Rel Entry.Alike (entries.lookup id) (others.lookup id)
  logic : Option.Rel Json.Same (payload.field? "logic") (other.field? "logic")

namespace Alike

variable {payload other : Json} {context : Context} {allowed : AllowList}

theorem symm (h : Alike payload other) : Alike other payload := by
  obtain ⟨⟨entries, others, hentries, hothers, halike⟩, hlogic⟩ := h
  refine ⟨⟨others, entries, hothers, hentries, fun id ↦ ?_⟩, ?_⟩
  · exact (halike id).symm Entry.Alike.symm
  · exact hlogic.symm Json.Same.symm

theorem outcome?_eq (h : Alike payload other) (id : String) :
    ((compile payload).evaluateDetailed context allowed).outcome? id
      = ((compile other).evaluateDetailed context allowed).outcome? id := by
  obtain ⟨⟨entries, others, hentries, hothers, halike⟩, -⟩ := h
  rw [outcome?_compile hentries, outcome?_compile hothers]
  exact (halike id).map_eq fun h ↦ (ruleOf_alike id h).outcome_eq context allowed

/-- The reports have the same outcomes, in some order. -/
theorem outcomes_perm (h : Alike payload other) (context : Context) (allowed : AllowList) :
    ((compile payload).outcomes context allowed).Perm ((compile other).outcomes context allowed) :=
  Keyed.perm_of_lookup_eq (map_fst_outcomes _ _ _ ▸ nodup_ids_compile payload)
    (map_fst_outcomes _ _ _ ▸ nodup_ids_compile other) fun id ↦ h.outcome?_eq id

theorem combination_eq (h : Alike payload other) :
    (compile payload).combination = (compile other).combination := by
  obtain ⟨⟨entries, others, hentries, hothers, -⟩, hlogic⟩ := h
  rw [compile_of_rules hentries, compile_of_rules hothers]
  exact combinationOf_eq_of_same _ _ hlogic

theorem evaluateWith_eq (h : Alike payload other) (context : Context) (allowed : AllowList) :
    (compile payload).evaluateWith context allowed
      = (compile other).evaluateWith context allowed := by
  rw [evaluateWith, evaluateWith, h.combination_eq]
  apply Combination.verdict_eq_of_perm _ _ (h.outcomes_perm context allowed)
  exact map_fst_outcomes _ _ _ ▸ nodup_ids_compile payload

/-- Payloads that are alike are sound together, since they have the same identifiers and the same
logic. -/
theorem sound (h : Alike payload other) (hsound : (compile payload).Sound) :
    (compile other).Sound := by
  have hcombination := h.combination_eq
  have hids : ((compile payload).rules.map (·.id)).Perm ((compile other).rules.map (·.id)) := by
    rw [← map_fst_outcomes _ {} .everything, ← map_fst_outcomes _ {} .everything]
    exact (h.outcomes_perm {} .everything).map _
  refine ⟨?_, hcombination ▸ hsound.usable, hcombination ▸ hsound.notFallback, ?_⟩
  · obtain ⟨⟨entries, others, hentries, hothers, halike⟩, -⟩ := h
    have hcompiled := hsound.compiled
    rw [compile_of_rules hentries] at hcompiled
    rw [compile_of_rules hothers]
    intro rule hrule
    obtain ⟨⟨id, entry⟩, hmem, rfl⟩ := List.mem_map.1 hrule
    have hother : others.lookup id = some entry :=
      Keyed.lookup_eq_some_of_mem (nodup_entries hothers) hmem
    obtain ⟨entry', hentry, h⟩ := (hother ▸ halike id).exists_left
    have hrule' : ruleOf id entry' ∈ entries.map fun entry ↦ ruleOf entry.1 entry.2 :=
      List.mem_map.2 ⟨(id, entry'), Keyed.mem_of_lookup_eq_some hentry, rfl⟩
    exact (ruleOf_alike id h).problem?_eq_none_iff.1 (hcompiled _ hrule')
  · intro e he id hid
    exact hids.mem_iff.1 (hsound.defined e (hcombination.trans he) id hid)

theorem exists_compileStrict_eq_ok (h : Alike payload other)
    (hset : ∃ set, compileStrict payload = .ok set) : ∃ set, compileStrict other = .ok set := by
  obtain ⟨set, hset⟩ := hset
  obtain ⟨hsound, rfl⟩ := compileStrict_eq_ok_iff_sound.1 hset
  exact ⟨compile other, compileStrict_eq_ok_iff_sound.2 ⟨h.sound hsound, rfl⟩⟩

end Alike

/-- Payloads that agree on what is under each identifier among their entries and on their logic are
treated alike, whatever the order of the entries and whatever else there is: strict compilation
accepts both or neither, and every evaluation has the same result, the same outcomes, in an order of
their own, and thus the same outcome under each identifier, and the same word on the fallback. -/
theorem evaluateDetailed_of_alike (payload other : Json) (h : Alike payload other) :
    ((∃ set, compileStrict payload = .ok set) ↔ ∃ set, compileStrict other = .ok set) ∧
    ∀ (context : Context) (allowed : AllowList),
      let report := (compile payload).evaluateDetailed context allowed
      let report' := (compile other).evaluateDetailed context allowed
      (compile payload).evaluateWith context allowed
        = (compile other).evaluateWith context allowed ∧
      report.result = report'.result ∧
      report.outcomes.Perm report'.outcomes ∧
      (∀ id, report.outcome? id = report'.outcome? id) ∧
      report.logicFallback = report'.logicFallback := by
  refine ⟨⟨h.exists_compileStrict_eq_ok, h.symm.exists_compileStrict_eq_ok⟩,
    fun context allowed ↦ ⟨h.evaluateWith_eq context allowed, h.evaluateWith_eq context allowed,
      h.outcomes_perm context allowed, h.outcome?_eq, ?_⟩⟩
  rw [Bool.eq_iff_iff, logicFallback_iff, logicFallback_iff, h.combination_eq]

def tiers : List (String × Json) := [
  ("mail", .object [
    ("name", .string "customer.email"),
    ("conditions", .object [("$contains", .string "@x.com")])]),
  ("tier", .object [
    ("name", .string "customer.metadata.tier"),
    ("conditions", .object [("$eq", .object [
      ("level", .number (.ofUInt64 2)),
      ("fee", .number (.double (.zero false)))])])]),
  ("twice", .object [
    ("name", .string "order.amount"),
    ("conditions", .object [("$gt", .null), ("$lt", .null)])]),
  ("odd", .null)]

def shuffledTiers : List (String × Json) := [
  ("odd", .bool true),
  ("tier", .string "gold"),
  ("twice", .object [
    ("conditions", .object [("$lt", .null), ("$gt", .null)]),
    ("name", .string "order.amount")]),
  ("tier", .object [
    ("remark", .string "gold"),
    ("conditions", .object [("$eq", .object [
      ("fee", .number (.double (.zero true))),
      ("level", .null),
      ("level", .number (.ofUInt64 2))])]),
    ("name", .string "customer.metadata.tier")]),
  ("mail", .object [
    ("name", .string "customer.email"),
    ("conditions", .object [("$contains", .string "@x.com")])])]

def tiered : Json := .object [
  ("rules", .object tiers),
  ("logic", .string "mail OR tier")]

/-- A payload of shuffled rules, which has thresholds as well. -/
def shuffledTiered : Json := .object [
  ("redemptions", .object [("quantity", .number (.ofUInt64 5))]),
  ("logic", .string "mail OR tier"),
  ("rules", .object shuffledTiers)]

def tieredCustomer : Context where
  customer := some { metadata := [("tier", .map [
    ("fee", .number (.ofUInt64 0)),
    ("level", .number (.ofUInt64 2))])] }

theorem tiered_alike : Alike tiered shuffledTiered := by
  refine ⟨⟨tiers, Keyed.merge shuffledTiers, rfl, rfl, fun id ↦ ?_⟩, .some rfl⟩
  by_cases hmail : id = "mail"
  · subst hmail
    exact .some (.objects (by rintro ⟨⟩) (by rintro ⟨⟩) (.some rfl) (.some rfl))
  by_cases htier : id = "tier"
  · subst htier
    exact .some (.objects (by rintro ⟨⟩) (by rintro ⟨⟩) (.some rfl) (.some rfl))
  by_cases htwice : id = "twice"
  · subst htwice
    exact .some (.objects (by rintro ⟨⟩) (by rintro ⟨⟩) (.some rfl) (.some rfl))
  by_cases hodd : id = "odd"
  · subst hodd
    exact .some (.noObjects rfl rfl)
  have hentry : tiers.lookup id = none := by
    simp [tiers, Keyed.lookup_entry, hmail, htier, htwice, hodd]
  have hother : (Keyed.merge shuffledTiers).lookup id = none := by
    simp [shuffledTiers, Keyed.lookup_merge, Keyed.lookup_entry, hmail, htier, htwice, hodd]
  rw [hentry, hother]
  exact .none

/-- What happens to the rules in one order happens to them in the other. -/
theorem evaluateDetailed_shuffledTiered :
    Alike tiered shuffledTiered ∧
    (¬ ∃ set, compileStrict shuffledTiered = .ok set) ∧
    ((compile shuffledTiered).evaluateDetailed tieredCustomer .everything).result = true ∧
    ((compile shuffledTiered).evaluateDetailed tieredCustomer .everything).outcome? "tier"
      = some .passed ∧
    ((compile shuffledTiered).evaluateDetailed tieredCustomer .everything).outcome? "twice"
      = some .malformed := by
  obtain ⟨hstrict, hevaluate⟩ := evaluateDetailed_of_alike tiered shuffledTiered tiered_alike
  obtain ⟨-, hresult, -, houtcome, -⟩ := hevaluate tieredCustomer .everything
  refine ⟨tiered_alike, ?_, ?_, ?_, ?_⟩
  · rw [← hstrict]
    rintro ⟨set, hset⟩
    obtain ⟨hnil, -⟩ := compileStrict_eq_ok_iff.1 hset
    revert hnil
    decide +kernel
  · rw [← hresult]
    decide +kernel
  · rw [← houtcome]
    decide +kernel
  · rw [← houtcome]
    decide +kernel

end RuleSet

end Screening
