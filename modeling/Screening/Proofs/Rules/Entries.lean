import Screening.Proofs.Rules.Verdict

/-!
# Entries and their rules

What compilation makes of a payload in the general form, entry by entry. The rule of an entry has
its identifier and its name for a path; it is met when the operator of the entry, if that makes a
condition, holds of the field at the path.
-/

namespace Screening

/-! ## What an entry has -/

namespace Entry

def name? (entry : Json) : Option String := (entry.field? "name").bind Json.text?

def operators? (entry : Json) : Option (List (String × Json)) :=
  (entry.field? "conditions").bind Json.members?

theorem name?_of_members?_eq_none {entry : Json} (h : entry.members? = none) :
    name? entry = none := by
  rw [name?, Json.field?, h]
  rfl

end Entry

/-- A rule as compilation makes it: it asks a condition of the field at its own path, or it could
not be compiled. -/
inductive Rule.Compiled : Rule → Prop
  | asking (id path : String) (condition : Condition) : Compiled (.asking id path condition)
  | malformed (id : String) (path : Option String) (problem : Diagnostic) :
    Compiled (.malformed id path problem)

namespace RuleSet

variable {payload : Json} {entries : List (String × Json)} {id : String} {entry : Json}
  {context : Context} {allowed : AllowList}

/-! ## The rule of an entry -/

theorem ruleOf_of_name?_eq_none (id : String) (hname : Entry.name? entry = none) :
    ∃ problem, ruleOf id entry = .malformed id none problem := by
  rw [Entry.name?] at hname
  cases hmembers : entry.members? with
  | none => exact ⟨.ruleNotAnObject id, by simp only [ruleOf, hmembers]⟩
  | some members => exact ⟨.missingName id, by simp only [ruleOf, hmembers, hname]⟩

theorem ruleOf_of_name?_eq_some {path : String} (hname : Entry.name? entry = some path) :
    ruleOf id entry = match conditionOf id entry with
      | .ok condition => .asking id path condition
      | .error problem => .malformed id (some path) problem := by
  cases hmembers : entry.members? with
  | none =>
    rw [Entry.name?_of_members?_eq_none hmembers] at hname
    cases hname
  | some members =>
    rw [Entry.name?] at hname
    cases hcondition : conditionOf id entry <;> simp only [ruleOf, hmembers, hname, hcondition]

/-- The condition of an entry is made of its operators. -/
theorem conditionOf_eq (id : String) (entry : Json) :
    conditionOf id entry = match Entry.operators? entry with
      | none => .error (.missingConditions id)
      | some [] => .error (.noOperator id)
      | some [(symbol, operand)] =>
        (Condition.parse symbol (.ofJson operand)).mapError (.condition id)
      | some operators => .error (.multipleOperators id (operators.map (·.1))) := rfl

@[simp] theorem id_ruleOf : (ruleOf id entry).id = id := by
  fun_cases ruleOf id entry <;> rfl

@[simp] theorem path_ruleOf : (ruleOf id entry).path = Entry.name? entry := by
  cases hname : Entry.name? entry with
  | none =>
    obtain ⟨problem, h⟩ := ruleOf_of_name?_eq_none id hname
    rw [h]
    rfl
  | some path =>
    rw [ruleOf_of_name?_eq_some hname]
    cases conditionOf id entry <;> rfl

/-! ## The logic of a payload -/

section Logic

variable {ids : List String} {text : String}

/-- A blank text is as good as no logic. -/
theorem combinationOf_blank (h : Text.blank text = true) :
    combinationOf ids (some (.string text)) = (.allOf, []) := by
  simp [combinationOf, h]

theorem combinationOf_of_parse_eq_ok {e : Logic} (hblank : Text.blank text = false)
    (h : Logic.parse text = .ok e) :
    combinationOf ids (some (.string text))
      = (.expression e, (undefinedIn ids e).map .undefinedRule) := by
  simp [combinationOf, hblank, h]

/-- A text that cannot be read does not stop compilation: every rule must hold instead. -/
theorem combinationOf_of_parse_eq_error {problem : LogicError} (hblank : Text.blank text = false)
    (h : Logic.parse text = .error problem) :
    combinationOf ids (some (.string text)) = (.fallback, [.invalidLogic text problem]) := by
  simp [combinationOf, hblank, h]

/-- Logic alone never makes a payload unsatisfiable. -/
theorem combinationOf_ne_unsatisfiable (ids : List String) (logic : Option Json) :
    (combinationOf ids logic).1 ≠ .unsatisfiable := by
  fun_cases combinationOf ids logic <;> exact nofun

/-- An expression comes from a text that holds it. -/
theorem exists_parse_of_combinationOf {logic : Option Json} {e : Logic}
    (h : (combinationOf ids logic).1 = .expression e) :
    ∃ text, logic = some (.string text) ∧ Text.blank text = false ∧ Logic.parse text = .ok e := by
  revert h
  fun_cases combinationOf ids logic
  case case4 text hblank e' hparse =>
    rintro ⟨⟩
    exact ⟨text, rfl, Bool.eq_false_iff.2 hblank, hparse⟩
  all_goals exact nofun

end Logic

/-! ## The rules of a payload -/

/-- Compiling the general form goes entry by entry; the logic sees the identifiers only. -/
theorem compile_of_rules (h : (payload.field? "rules").bind Json.members? = some entries) :
    compile payload =
      let rules := entries.map fun entry ↦ ruleOf entry.1 entry.2
      let combination := combinationOf (entries.map (·.1)) (payload.field? "logic")
      ⟨rules, combination.1, rules.filterMap (·.problem?) ++ combination.2⟩ := by
  rw [Json.field?] at h ⊢
  rw [compile]
  cases hmembers : payload.members? with
  | none => simp [hmembers] at h
  | some members =>
    simp only [hmembers, Option.bind_some] at h ⊢
    cases hrules : members.lookup "rules" with
    | none => simp [hrules] at h
    | some rules =>
      rw [hrules, Option.bind_some] at h
      simp [compileGeneral, h, Function.comp_def]

/-- Entries come from an object, so each identifier is there once. -/
theorem nodup_entries (h : (payload.field? "rules").bind Json.members? = some entries) :
    (entries.map (·.1)).Nodup := by
  obtain ⟨rules, -, hmembers⟩ := Option.bind_eq_some_iff.1 h
  exact Json.nodup_of_members? hmembers

/-- Each entry has its own outcome, under its own identifier. -/
theorem outcomes_compile (h : (payload.field? "rules").bind Json.members? = some entries) :
    (compile payload).outcomes context allowed
      = entries.map fun entry ↦
          (entry.1, (ruleOf entry.1 entry.2).outcome context allowed) := by
  simp [compile_of_rules h, outcomes, Function.comp_def]

/-- Under an identifier the report has the outcome of the entry with it. -/
theorem outcome?_compile (h : (payload.field? "rules").bind Json.members? = some entries)
    (id : String) :
    ((compile payload).evaluateDetailed context allowed).outcome? id
      = (entries.lookup id).map fun entry ↦ (ruleOf id entry).outcome context allowed := by
  change ((compile payload).outcomes context allowed).lookup id = _
  rw [outcomes_compile h, Keyed.lookup_map, Keyed.lookup_eq_find?]
  cases hfind : entries.find? (id == ·.1) with
  | none => rfl
  | some found =>
    have hid := List.find?_some hfind
    obtain rfl : id = found.1 := beq_iff_eq.1 hid
    rfl

/-- The outcome under an identifier is that of the rule made of its entry. -/
theorem outcome?_of_lookup (h : (payload.field? "rules").bind Json.members? = some entries)
    (hentry : entries.lookup id = some entry) :
    ((compile payload).evaluateDetailed context allowed).outcome? id
      = some ((ruleOf id entry).outcome context allowed) := by
  rw [outcome?_compile h, hentry]
  rfl

/-- The answer to a payload is a verdict on the outcomes of its entries. -/
theorem evaluateWith_compile (h : (payload.field? "rules").bind Json.members? = some entries) :
    (compile payload).evaluateWith context allowed
      = (combinationOf (entries.map (·.1)) (payload.field? "logic")).1.verdict
          (entries.map fun entry ↦
            (entry.1, (ruleOf entry.1 entry.2).outcome context allowed)) := by
  rw [evaluateWith, outcomes_compile h, compile_of_rules h]

/-- The rule of an entry asks a condition of the field at its own path, or is malformed. -/
theorem compiled_ruleOf (id : String) (entry : Json) : (ruleOf id entry).Compiled := by
  fun_cases ruleOf id entry
  case case3 path _ condition _ => exact .asking id path condition
  all_goals exact .malformed ..

theorem compiled_of_thresholdRule? {thresholds : List (String × Json)} {key path : String}
    {rule : Rule} (h : thresholdRule? thresholds key path = some rule) : rule.Compiled := by
  revert h
  fun_cases thresholdRule? thresholds key path
  case case1 | case2 => exact nofun
  case case3 limit _ =>
    rintro ⟨⟩
    exact .asking ..
  case case4 =>
    rintro ⟨⟩
    exact .malformed ..

/-- Whichever form a payload has, none of its rules looks anywhere but at its own path. -/
theorem compiled_of_mem_rules {rule : Rule} (h : rule ∈ (compile payload).rules) :
    rule.Compiled := by
  revert h
  fun_cases compile payload
  case case1 | case4 => exact nofun
  case case2 members _ entries _ =>
    fun_cases compileGeneral entries (members.lookup "logic")
    case case1 => exact nofun
    case case2 =>
      intro h
      obtain ⟨entry, -, rfl⟩ := List.mem_map.1 h
      exact compiled_ruleOf entry.1 entry.2
  case case3 members _ _ thresholds _ =>
    fun_cases compileThresholds thresholds
    case case1 => exact nofun
    case case2 thresholds _ =>
      intro h
      rcases List.mem_append.1 h with h | h
      · exact compiled_of_thresholdRule? (Option.mem_toList.1 h)
      · exact compiled_of_thresholdRule? (Option.mem_toList.1 h)

end RuleSet

end Screening
