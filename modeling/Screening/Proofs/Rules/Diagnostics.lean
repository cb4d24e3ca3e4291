import Screening.Proofs.Rules.Entries

/-!
# The diagnostics of a payload

What is wrong with a payload is said here without compiling it. For an entry there is a list of
checks, and its problem is that of the first check that fails (`Entry.firstProblem?`). What is wrong
with the logic depends on its value and on the identifiers of the entries (`LogicProblems`).

The diagnostics of a payload in the general form are the problems of its entries in their order and
then those of its logic, and a rule is malformed exactly when its entry has a problem. Strict
compilation fails with the first diagnostic, and succeeds when there is none.
-/

namespace Screening

/-! ## First appearances -/

/-- The elements of a list that have a property, each once, in the order of their first
appearance. -/
structure FirstAppearances (p : String → Prop) (xs ys : List String) : Prop where
  mem_iff : ∀ x, x ∈ ys ↔ x ∈ xs ∧ p x
  nodup : ys.Nodup
  ordered : ys.Pairwise fun x y ↦ xs.idxOf x < xs.idxOf y

namespace FirstAppearances

variable {p : String → Prop} {xs ys zs : List String} {a : String}

/-- There is only one list of first appearances. -/
theorem unique (hy : FirstAppearances p xs ys) (hz : FirstAppearances p xs zs) : ys = zs := by
  refine List.Perm.eq_of_pairwise (fun x y _ _ hxy hyx ↦ ?_) hy.ordered hz.ordered ?_
  · exact absurd hxy (Nat.lt_asymm hyx)
  · refine (List.perm_ext_iff_of_nodup hy.nodup hz.nodup).2 fun x ↦ ?_
    rw [hy.mem_iff, hz.mem_iff]

/-- Places in a list move up by one behind an element that is none of them. -/
theorem ordered_cons (hne : ∀ x ∈ ys, x ≠ a)
    (h : ys.Pairwise fun x y ↦ xs.idxOf x < xs.idxOf y) :
    ys.Pairwise fun x y ↦ (a :: xs).idxOf x < (a :: xs).idxOf y := by
  refine h.imp_of_mem fun hx hy hlt ↦ ?_
  rw [List.idxOf_cons, List.idxOf_cons, beq_false_of_ne (hne _ hx).symm,
    beq_false_of_ne (hne _ hy).symm]
  exact Nat.succ_lt_succ hlt

theorem cons_of_not (ha : ¬ p a) (h : FirstAppearances p xs ys) :
    FirstAppearances p (a :: xs) ys where
  mem_iff x := by
    rw [h.mem_iff, List.mem_cons]
    grind
  nodup := h.nodup
  ordered := ordered_cons (fun x hx heq ↦ ha (heq ▸ ((h.mem_iff x).1 hx).2)) h.ordered

/-- The first appearance of an element comes before those of all others, and leaves no second one.
-/
theorem cons_of_pos (ha : p a) (h : FirstAppearances (fun x ↦ p x ∧ x ≠ a) xs ys) :
    FirstAppearances p (a :: xs) (a :: ys) where
  mem_iff x := by
    rw [List.mem_cons, List.mem_cons, h.mem_iff]
    grind
  nodup := List.nodup_cons.2 ⟨fun hmem ↦ ((h.mem_iff a).1 hmem).2.2 rfl, h.nodup⟩
  ordered := by
    have hne : ∀ x ∈ ys, x ≠ a := fun x hx ↦ ((h.mem_iff x).1 hx).2.2
    refine List.pairwise_cons.2 ⟨fun y hy ↦ ?_, ordered_cons hne h.ordered⟩
    rw [List.idxOf_cons_self, List.idxOf_cons, beq_false_of_ne (hne y hy).symm]
    exact Nat.succ_pos _

/-- Filtering a list and erasing what is repeated leaves first appearances. -/
theorem eraseDups_filter (p : String → Bool) (xs : List String) :
    FirstAppearances (p · = true) xs (xs.filter p).eraseDups := by
  induction xs generalizing p with
  | nil => exact ⟨by simp, List.nodup_nil, .nil⟩
  | cons a xs ih =>
    cases ha : p a with
    | false =>
      rw [List.filter_cons_of_neg (by simp [ha])]
      exact (ih p).cons_of_not (by simp [ha])
    | true =>
      rw [List.filter_cons_of_pos ha, List.eraseDups_cons, List.filter_filter]
      have hrest := ih fun x ↦ !x == a && p x
      refine cons_of_pos ha ⟨fun x ↦ ?_, hrest.nodup, hrest.ordered⟩
      rw [hrest.mem_iff]
      simp [and_comm]

end FirstAppearances

/-! ## Problems of entries -/

namespace Entry

/-- What each check of an entry finds, whatever the other checks find. A check comes before those
that it takes precedence over. -/
def checks (id : String) (entry : Json) : List (Option Diagnostic) :=
  let operators := (operators? entry).getD []
  [ if entry.members?.isSome then none else some (.ruleNotAnObject id),
    if (name? entry).isSome then none else some (.missingName id),
    if (operators? entry).isSome then none else some (.missingConditions id),
    if operators.isEmpty then some (.noOperator id) else none,
    if 1 < operators.length then some (.multipleOperators id (operators.map (·.1))) else none,
    operators.head?.bind fun operator ↦
      match Condition.parse operator.1 (.ofJson operator.2) with
      | .ok _ => none
      | .error source => some (.condition id source) ]

/-- The problem of an entry is what the first check finds that finds one. -/
def firstProblem? (id : String) (entry : Json) : Option Diagnostic :=
  (checks id entry).findSome? fun found ↦ found

end Entry

/-! ## Problems of the logic -/

/-- What is wrong with a value under `logic`, or with its absence, where the entries have the given
identifiers. -/
inductive LogicProblems (ids : List String) : Option Json → List Diagnostic → Prop
  | absent : LogicProblems ids none []
  | null : LogicProblems ids (some .null) []
  | blank {text : String} : Text.blank text = true → LogicProblems ids (some (.string text)) []
  | notText (json : Json) : json.text? = none → json ≠ .null →
      LogicProblems ids (some json) [.invalidLogic json.render .notText]
  | unreadable {text : String} {problem : LogicError} : Text.blank text = false →
      Logic.parse text = .error problem →
      LogicProblems ids (some (.string text)) [.invalidLogic text problem]
  | readable {text : String} {e : Logic} {references : List String} : Text.blank text = false →
      Logic.parse text = .ok e → FirstAppearances (· ∉ ids) e.ruleIds references →
      LogicProblems ids (some (.string text)) (references.map .undefinedRule)

namespace RuleSet

variable {payload : Json} {entries : List (String × Json)} {ids : List String} {id : String}
  {entry : Json}

/-- The rule of an entry keeps the problem of the entry. -/
theorem problem?_ruleOf : (ruleOf id entry).problem? = Entry.firstProblem? id entry := by
  rw [Entry.firstProblem?, Entry.checks]
  cases hmembers : entry.members? with
  | none => simp [ruleOf, hmembers]
  | some members =>
    cases hname : Entry.name? entry with
    | none =>
      rw [Entry.name?] at hname
      simp [ruleOf, hmembers, hname]
    | some path =>
      rw [ruleOf_of_name?_eq_some hname, conditionOf_eq]
      rcases Entry.operators? entry with _ | _ | ⟨⟨symbol, operand⟩, _ | ⟨next, rest⟩⟩
      · simp
      · simp
      · dsimp only
        cases hparse : Condition.parse symbol (.ofJson operand) with
        | ok condition =>
          change none = _
          simp [hparse]
        | error source =>
          change some (Diagnostic.condition id source) = _
          simp [hparse]
      · simp

/-- Unknown rules are reported once each, in the order in which the logic first names them. -/
theorem firstAppearances_undefinedIn (e : Logic) :
    FirstAppearances (· ∉ ids) e.ruleIds (undefinedIn ids e) := by
  simpa [undefinedIn] using FirstAppearances.eraseDups_filter (fun id ↦ !ids.contains id) e.ruleIds

/-- The problems of the logic are those that its compilation finds. -/
theorem logicProblems_iff {logic : Option Json} {problems : List Diagnostic} :
    LogicProblems ids logic problems ↔ problems = (combinationOf ids logic).2 := by
  constructor
  · intro h
    cases h with
    | absent | null => rfl
    | blank hblank => rw [combinationOf_blank hblank]
    | notText json htext hnull =>
      cases json with
      | null => exact absurd rfl hnull
      | string text => cases htext
      | bool b | number n | array items | object members => rfl
    | unreadable hblank hparse => rw [combinationOf_of_parse_eq_error hblank hparse]
    | readable hblank hparse hreferences =>
      rw [combinationOf_of_parse_eq_ok hblank hparse,
        hreferences.unique (firstAppearances_undefinedIn _)]
  · rintro rfl
    rcases logic with _ | _ | b | n | text | items | members
    case none => exact .absent
    case some.null => exact .null
    case some.string =>
      cases hblank : Text.blank text with
      | true =>
        rw [combinationOf_blank hblank]
        exact .blank hblank
      | false =>
        cases hparse : Logic.parse text with
        | error problem =>
          rw [combinationOf_of_parse_eq_error hblank hparse]
          exact .unreadable hblank hparse
        | ok e =>
          rw [combinationOf_of_parse_eq_ok hblank hparse]
          exact .readable hblank hparse (firstAppearances_undefinedIn e)
    all_goals exact .notText _ rfl (by simp)

/-! ## Diagnostics -/

/-- Every entry makes a rule under its own identifier, broken or not. -/
theorem map_id_rules_compile
    (h : (payload.field? "rules").bind Json.members? = some entries) :
    (compile payload).rules.map (·.id) = entries.map (·.1) := by
  simp [compile_of_rules h, Function.comp_def]

/-- The problems of the entries come first, and those of the logic behind them. -/
theorem diagnostics_compile
    (h : (payload.field? "rules").bind Json.members? = some entries) :
    (compile payload).diagnostics
      = entries.filterMap (fun entry ↦ Entry.firstProblem? entry.1 entry.2)
        ++ (combinationOf (entries.map (·.1)) (payload.field? "logic")).2 := by
  have hproblem : (·.problem?) ∘ (fun entry ↦ ruleOf entry.1 entry.2)
      = fun entry : String × Json ↦ Entry.firstProblem? entry.1 entry.2 :=
    funext fun entry ↦ problem?_ruleOf
  rw [compile_of_rules h]
  dsimp only
  rw [List.filterMap_map, hproblem]

/-- Strict compilation fails with the first problem. -/
theorem compileStrict_eq_error_iff {problem : Diagnostic} :
    compileStrict payload = .error problem ↔
      (compile payload).diagnostics.head? = some problem := by
  rw [compileStrict]
  cases (compile payload).diagnostics <;> simp

/-- Strict compilation succeeds if there is no problem, and then it is plain compilation. -/
theorem compileStrict_eq_ok_iff {set : RuleSet} :
    compileStrict payload = .ok set ↔
      (compile payload).diagnostics = [] ∧ compile payload = set := by
  rw [compileStrict]
  cases (compile payload).diagnostics <;> simp

/-- A payload with entries has a rule for each of them, in their order and with their identifiers,
which are different; the rules of the entries with a problem are malformed; and the diagnostics are
these problems and then those of the logic. Strict compilation of any payload fails with the first
diagnostic and otherwise gives the same rule set. -/
theorem diagnostics_complete (payload : Json) :
    (∀ entries, (payload.field? "rules").bind Json.members? = some entries →
      (compile payload).rules.map (·.id) = entries.map (·.1) ∧
      (entries.map (·.1)).Nodup ∧
      (compile payload).rules.map (·.isMalformed)
        = entries.map (fun entry ↦ (Entry.firstProblem? entry.1 entry.2).isSome) ∧
      ∀ problems, LogicProblems (entries.map (·.1)) (payload.field? "logic") problems ↔
        (compile payload).diagnostics
          = entries.filterMap (fun entry ↦ Entry.firstProblem? entry.1 entry.2) ++ problems) ∧
    (∀ problem, compileStrict payload = .error problem ↔
      (compile payload).diagnostics.head? = some problem) ∧
    (∀ set, compileStrict payload = .ok set ↔
      (compile payload).diagnostics = [] ∧ compile payload = set) := by
  refine ⟨fun entries h ↦ ⟨map_id_rules_compile h, ?_, ?_, fun problems ↦ ?_⟩,
    fun problem ↦ compileStrict_eq_error_iff, fun set ↦ compileStrict_eq_ok_iff⟩
  · obtain ⟨rules, -, hrules⟩ := Option.bind_eq_some_iff.1 h
    exact Json.nodup_of_members? hrules
  · simp [compile_of_rules h, Function.comp_def, Rule.isMalformed, problem?_ruleOf]
  · rw [logicProblems_iff, diagnostics_compile h, List.append_cancel_left_eq, eq_comm]

def flaws : List (String × Json) := [
  ("a", .bool true),
  ("b", .object [("conditions", .object [])]),
  ("c", .object [("name", .string "order.amount")]),
  ("d", .object [("name", .string "order.amount"), ("conditions", .object [])]),
  ("e", .object [("name", .string "order.amount"),
    ("conditions", .object [("$gt", .null), ("$lt", .null)])]),
  ("f", .object [("name", .string "order.amount"), ("conditions", .object [("$gt", .string "x")])]),
  ("g", .object [("name", .string "order.amount"), ("conditions", .object [("$eq", .null)])])]

/-- A payload of the flawed entries, whose logic names an unknown rule twice. -/
def flawed : Json := .object [("rules", .object flaws), ("logic", .string "(g OR z) and a or z")]

theorem diagnostics_flawed :
    (flawed.field? "rules").bind Json.members? = some flaws ∧
      LogicProblems (flaws.map (·.1)) (flawed.field? "logic") [.undefinedRule "z"] ∧
      (compile flawed).rules.map (·.isMalformed) = [true, true, true, true, true, true, false] ∧
      compileStrict flawed = .error (.ruleNotAnObject "a") := by
  obtain ⟨hgeneral, hstrict, -⟩ := diagnostics_complete flawed
  obtain ⟨-, -, hmalformed, hproblems⟩ := hgeneral flaws rfl
  refine ⟨rfl, (hproblems _).2 (by decide +kernel), ?_, (hstrict _).2 (by decide +kernel)⟩
  rw [hmalformed]
  decide +kernel

end RuleSet

end Screening
