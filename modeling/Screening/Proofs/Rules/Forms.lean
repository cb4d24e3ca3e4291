import Screening.Proofs.Rules.Diagnostics

/-!
# The forms of a payload

Told by its JSON alone, a payload has entries, or else thresholds, or neither, or it cannot be used.
What compilation makes of it in each of these forms is said once here; facts about every payload
follow by cases. The first of them is that no two rules of a payload have the same identifier.
-/

namespace Screening.RuleSet

/-- A payload that cannot be used: it is not an object, or what it has in the place of its entries,
or of its thresholds if it has no entries, is not one. -/
inductive Unusable (payload : Json) : Prop
  | payload (h : payload.members? = none)
  | rules (rules : Json) (hrules : payload.field? "rules" = some rules) (h : rules.members? = none)
  | redemptions (redemptions : Json) (hrules : payload.field? "rules" = none)
    (hredemptions : payload.field? "redemptions" = some redemptions)
    (h : redemptions.members? = none)

inductive Usable (payload : Json) : Prop
  | entries (entries : List (String × Json))
    (h : (payload.field? "rules").bind Json.members? = some entries)
  | thresholds (thresholds : List (String × Json)) (hrules : payload.field? "rules" = none)
    (h : (payload.field? "redemptions").bind Json.members? = some thresholds)
  | neither (h : payload.members? ≠ none) (hrules : payload.field? "rules" = none)
    (hredemptions : payload.field? "redemptions" = none)

variable {payload : Json} {thresholds : List (String × Json)}

theorem unusable_or_usable (payload : Json) : Unusable payload ∨ Usable payload := by
  cases hmembers : payload.members? with
  | none => exact .inl (.payload hmembers)
  | some members =>
    cases hrules : payload.field? "rules" with
    | some rules =>
      cases hentries : rules.members? with
      | none => exact .inl (.rules rules hrules hentries)
      | some entries => exact .inr (.entries entries (by rw [hrules]; exact hentries))
    | none =>
      cases hredemptions : payload.field? "redemptions" with
      | none => exact .inr (.neither (by simp [hmembers]) hrules hredemptions)
      | some redemptions =>
        cases hthresholds : redemptions.members? with
        | none => exact .inl (.redemptions redemptions hrules hredemptions hthresholds)
        | some thresholds =>
          exact .inr (.thresholds thresholds hrules (by rw [hredemptions]; exact hthresholds))

/-! ## Compilation by forms -/

def thresholdRules (thresholds : List (String × Json)) : List Rule :=
  (thresholdRule? thresholds "quantity" "redemptions.count.total").toList
    ++ (thresholdRule? thresholds "per_customer" "redemptions.count.per_customer").toList

/-- What cannot be used is compiled to rules that never hold, with the problem told. -/
theorem compile_of_unusable (h : Unusable payload) :
    ∃ problem, compile payload = unusable problem := by
  rw [compile]
  cases h with
  | payload h =>
    rw [h]
    exact ⟨_, rfl⟩
  | rules rules hrules h =>
    obtain ⟨members, hmembers, hlookup⟩ := Option.bind_eq_some_iff.1 hrules
    refine ⟨.rulesNotAnObject, ?_⟩
    simp only [hmembers, hlookup, compileGeneral, h]
  | redemptions redemptions hrules hredemptions h =>
    obtain ⟨members, hmembers, hlookup⟩ := Option.bind_eq_some_iff.1 hredemptions
    rw [Json.field?, hmembers, Option.bind_some] at hrules
    refine ⟨.notAnObject, ?_⟩
    simp only [hmembers, hrules, hlookup, compileThresholds, h]

theorem compile_of_thresholds (hrules : payload.field? "rules" = none)
    (h : (payload.field? "redemptions").bind Json.members? = some thresholds) :
    compile payload = ⟨thresholdRules thresholds, .allOf,
      (thresholdRules thresholds).filterMap (·.problem?)⟩ := by
  obtain ⟨redemptions, hredemptions, hthresholds⟩ := Option.bind_eq_some_iff.1 h
  obtain ⟨members, hmembers, hlookup⟩ := Option.bind_eq_some_iff.1 hredemptions
  rw [Json.field?, hmembers, Option.bind_some] at hrules
  simp only [compile, hmembers, hrules, hlookup, compileThresholds, hthresholds, thresholdRules]

/-- An object with neither rules nor thresholds asks for nothing. -/
theorem compile_of_neither (h : payload.members? ≠ none) (hrules : payload.field? "rules" = none)
    (hredemptions : payload.field? "redemptions" = none) : compile payload = ⟨[], .allOf, []⟩ := by
  obtain ⟨members, hmembers⟩ := Option.ne_none_iff_exists'.1 h
  rw [Json.field?, hmembers, Option.bind_some] at hrules hredemptions
  simp only [compile, hmembers, hrules, hredemptions]

/-! ## Identifiers -/

theorem id_of_thresholdRule? {key path : String} {rule : Rule}
    (h : thresholdRule? thresholds key path = some rule) : rule.id = key := by
  revert h
  fun_cases thresholdRule? thresholds key path
  case case1 | case2 => rintro ⟨⟩
  all_goals
    rintro ⟨⟩
    rfl

theorem map_id_toList_thresholdRule? (thresholds : List (String × Json)) (key path : String) :
    ((thresholdRule? thresholds key path).toList.map (·.id)).Sublist [key] := by
  cases h : thresholdRule? thresholds key path with
  | none => exact List.nil_sublist _
  | some rule => simp [id_of_thresholdRule? h]

/-- Thresholds have at most two rules, that for all redemptions before that for the customer's. -/
theorem map_id_thresholdRules (thresholds : List (String × Json)) :
    ((thresholdRules thresholds).map (·.id)).Sublist ["quantity", "per_customer"] := by
  rw [thresholdRules, List.map_append]
  exact (map_id_toList_thresholdRule? ..).append (map_id_toList_thresholdRule? ..)

/-- The rules of a payload have different identifiers. -/
theorem nodup_ids_compile (payload : Json) : ((compile payload).rules.map (·.id)).Nodup := by
  rcases unusable_or_usable payload with h | h
  case inl =>
    obtain ⟨problem, h⟩ := compile_of_unusable h
    rw [h]
    exact List.nodup_nil
  case inr =>
    cases h with
    | entries entries h =>
      rw [map_id_rules_compile h]
      exact nodup_entries h
    | thresholds thresholds hrules h =>
      rw [compile_of_thresholds hrules h]
      exact (map_id_thresholdRules thresholds).nodup (by decide)
    | neither h hrules hredemptions =>
      rw [compile_of_neither h hrules hredemptions]
      exact List.nodup_nil

/-! ## Combinations -/

/-- A value under `logic` that is rejected: it is there but no text, or a text that cannot be
read. -/
inductive RejectedLogic : Json → Prop
  | notText {json : Json} (htext : json.text? = none) (hnull : json ≠ .null) : RejectedLogic json
  | unreadable {text : String} {problem : LogicError} (hblank : Text.blank text = false)
    (hparse : Logic.parse text = .error problem) : RejectedLogic (.string text)

theorem combinationOf_eq_fallback_iff {ids : List String} {logic : Option Json} :
    (combinationOf ids logic).1 = .fallback ↔ ∃ json, logic = some json ∧ RejectedLogic json := by
  constructor
  · fun_cases combinationOf ids logic
    case case5 text hblank problem hparse =>
      exact fun _ ↦ ⟨_, rfl, .unreadable (Bool.eq_false_iff.2 hblank) hparse⟩
    case case6 json hnull htext =>
      intro _
      refine ⟨json, rfl, .notText ?_ hnull⟩
      cases json with
      | string text => exact absurd rfl (htext text)
      | null | bool b | number n | array items | object members => rfl
    all_goals rintro ⟨⟩
  · rintro ⟨json, rfl, hrejected⟩
    cases hrejected with
    | notText htext hnull =>
      cases json with
      | null => exact absurd rfl hnull
      | string text => cases htext
      | bool b | number n | array items | object members => rfl
    | unreadable hblank hparse => rw [combinationOf_of_parse_eq_error hblank hparse]

/-- The rules of a payload are combined by its logic, if it has entries. -/
theorem combination_cases (payload : Json) :
    (Unusable payload ∧ (compile payload).combination = .unsatisfiable) ∨
    (∃ entries, (payload.field? "rules").bind Json.members? = some entries ∧
      (compile payload).combination
        = (combinationOf (entries.map (·.1)) (payload.field? "logic")).1) ∨
    (compile payload).combination = .allOf := by
  rcases unusable_or_usable payload with h | h
  case inl =>
    obtain ⟨problem, hcompile⟩ := compile_of_unusable h
    exact .inl ⟨h, by rw [hcompile]; rfl⟩
  case inr =>
    cases h with
    | entries entries h => exact .inr (.inl ⟨entries, h, by rw [compile_of_rules h]⟩)
    | thresholds thresholds hrules h =>
      exact .inr (.inr (by rw [compile_of_thresholds hrules h]))
    | neither h hrules hredemptions =>
      exact .inr (.inr (by rw [compile_of_neither h hrules hredemptions]))

/-- Nothing can hold exactly where the payload cannot be used. -/
theorem combination_eq_unsatisfiable_iff :
    (compile payload).combination = .unsatisfiable ↔ Unusable payload := by
  constructor
  · intro h
    rcases combination_cases payload with ⟨hunusable, -⟩ | ⟨entries, -, hentries⟩ | hall
    · exact hunusable
    · exact absurd (hentries.symm.trans h) (combinationOf_ne_unsatisfiable _ _)
    · cases hall.symm.trans h
  · intro h
    obtain ⟨problem, hcompile⟩ := compile_of_unusable h
    rw [hcompile]
    rfl

/-- A fallback is in place exactly where a payload has entries and a logic that is rejected. -/
theorem combination_eq_fallback_iff :
    (compile payload).combination = .fallback ↔
      ∃ entries logic, (payload.field? "rules").bind Json.members? = some entries ∧
        payload.field? "logic" = some logic ∧ RejectedLogic logic := by
  constructor
  · intro h
    rcases combination_cases payload with ⟨-, hunusable⟩ | ⟨entries, hrules, hentries⟩ | hall
    · cases hunusable.symm.trans h
    · obtain ⟨logic, hlogic, hrejected⟩ :=
        combinationOf_eq_fallback_iff.1 (hentries.symm.trans h)
      exact ⟨entries, logic, hrules, hlogic, hrejected⟩
    · cases hall.symm.trans h
  · rintro ⟨entries, logic, hrules, hlogic, hrejected⟩
    rw [compile_of_rules hrules]
    exact combinationOf_eq_fallback_iff.2 ⟨logic, hlogic, hrejected⟩

end Screening.RuleSet
