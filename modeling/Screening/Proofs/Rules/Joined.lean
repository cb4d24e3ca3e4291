import Screening.Proofs.Logic.Printing
import Screening.Proofs.Rules.Sound

/-!
# Joining all rules by hand

A payload without logic asks that all of its rules hold. So does one whose logic is the list of its
identifiers, in any order and with any repetitions, joined by `and`: the text is read as a chain of
these rules, and a chain of `and` holds if all of its rules do. This needs identifiers that a logic
text can name (`Logic.Names`). No other identifier is ever named by a logic text.
-/

namespace Screening

/-! ## Joined texts -/

namespace Logic

variable {id : String} {rest : List String}

/-- The derivation of rules that are joined by `and`. -/
def conjunction (id : String) (rest : List String) : Sentence :=
  ⟨.word id, rest.map fun next ↦ (.and, .word next)⟩

theorem tokens_conjunction_cons (id next : String) (rest : List String) :
    (conjunction id (next :: rest)).tokens
      = .word id :: .connective .and :: (conjunction next rest).tokens := rfl

/-- The joined text falls into the rules and the connectives between them. -/
theorem splits_joined (hid : Names id) (hrest : ∀ next ∈ rest, Names next) :
    Splits (" and ".intercalate (id :: rest)).toList (conjunction id rest).tokens := by
  induction rest generalizing id with
  | nil =>
    rw [String.intercalate_singleton, ← List.append_nil id.toList]
    exact hid.splits (by simp) .nil
  | cons next rest ih =>
    obtain ⟨hnext, hothers⟩ := List.forall_mem_cons.1 hrest
    have hjoin : " and ".toList = ' ' :: (Connective.and.render.toList ++ [' ']) := rfl
    rw [String.intercalate_cons_cons, String.toList_append, String.toList_append,
      tokens_conjunction_cons, List.append_assoc, hjoin]
    refine hid.splits ?_ ?_
    · rintro c ⟨⟩
      exact isWordChar_of_isBlank (by decide)
    · simpa using (ih hnext hothers).spaced .and

theorem tokens_joined (hid : Names id) (hrest : ∀ next ∈ rest, Names next) :
    tokens (" and ".intercalate (id :: rest)) = (conjunction id rest).tokens :=
  (splits_iff.1 (splits_joined hid hrest)).symm

/-- There are no parentheses in a joined text. -/
theorem depth_conjunction (id : String) (rest : List String) :
    (conjunction id rest).depth = 0 := by
  rw [Sentence.depth, conjunction]
  induction rest with
  | nil => rfl
  | cons next rest ih => simpa [Phrase.depth, Phrase.depthOf] using ih

/-- Identifiers joined by `and` are read as their conjunction. -/
theorem parse_joined (hid : Names id) (hrest : ∀ next ∈ rest, Names next) :
    parse (" and ".intercalate (id :: rest)) = .ok (conjunction id rest).toLogic := by
  refine parse_eq_ok_iff.2 ⟨?_, conjunction id rest, (tokens_joined hid hrest).symm, rfl⟩
  rw [nesting_eq_depthFrom, tokens_joined hid hrest, Sentence.depthFrom_tokens,
    depth_conjunction]
  exact Nat.zero_le _

theorem ruleIds_conjunction (id : String) (rest : List String) :
    (conjunction id rest).toLogic.ruleIds = id :: rest := by
  rw [Sentence.ruleIds_toLogic]
  induction rest generalizing id with
  | nil => rfl
  | cons next rest ih =>
    rw [tokens_conjunction_cons]
    simpa [List.filterMap_cons, Token.word?] using ih next

/-- A chain of `and` holds if all of its rules do. -/
theorem evaluate_conjunction (f : String → Bool) (id : String) (rest : List String) :
    (conjunction id rest).toLogic.evaluate f = (id :: rest).all f := by
  -- the fold begins with the first rule, but the induction needs it to begin anywhere
  suffices h : ∀ e : Logic, (rest.foldl (fun e next ↦ e.link .and (.rule next)) e).evaluate f
      = (e.evaluate f && rest.all f) by
    rw [Sentence.toLogic, conjunction, List.foldl_map]
    exact h (.rule id)
  induction rest with
  | nil => exact fun e ↦ (Bool.and_true _).symm
  | cons next rest ih =>
    intro e
    rw [List.foldl_cons, ih, evaluate_link, List.all_cons, ← Bool.and_assoc]
    rfl

/-- White space has no tokens. -/
theorem tokens_eq_nil_of_blank {text : String} (h : Text.blank text = true) : tokens text = [] := by
  suffices hsplits : ∀ cs : List Char, (∀ c ∈ cs, Text.isBlank c = true) → Splits cs [] from
    (splits_iff.1 (hsplits _ (List.all_eq_true.1 h))).symm
  intro cs hcs
  induction cs with
  | nil => exact .nil
  | cons c cs ih =>
    obtain ⟨hc, hrest⟩ := List.forall_mem_cons.1 hcs
    exact .blank hc (ih hrest)

/-- A joined text is never blank, so it counts as logic. -/
theorem blank_joined (hid : Names id) (hrest : ∀ next ∈ rest, Names next) :
    Text.blank (" and ".intercalate (id :: rest)) = false := by
  rw [Bool.eq_false_iff]
  intro h
  have htokens := tokens_eq_nil_of_blank h
  rw [tokens_joined hid hrest] at htokens
  cases htokens

/-- What a logic text names can be named. -/
theorem names_of_parse {text : String} {e : Logic} (h : parse text = .ok e)
    (hid : id ∈ e.ruleIds) : Names id := by
  rw [ruleIds_of_parse h] at hid
  obtain ⟨t, ht, hword⟩ := List.mem_filterMap.1 hid
  obtain rfl : t = .word id := by
    cases t with
    | word _ => exact congrArg Token.word (Option.some.inj hword)
    | opening | closing | connective _ => cases hword
  exact (splits_iff.2 rfl).names ht

end Logic

/-! ## All rules -/

/-- Where no rule has two outcomes, all of them hold if those that a list names do, as long as it
names all rules and no others. -/
theorem all_lookup_eq_all {outcomes : List (String × Outcome)} {ids : List String}
    (hnodup : (outcomes.map (·.1)).Nodup) (hids : ∀ id, id ∈ ids ↔ id ∈ outcomes.map (·.1)) :
    (ids.all fun id ↦ (outcomes.lookup id).any (·.holds)) = outcomes.all (·.2.holds) := by
  rw [Bool.eq_iff_iff, List.all_eq_true, List.all_eq_true]
  constructor
  · intro h entry hentry
    have hlookup := h entry.1 ((hids entry.1).2 (List.mem_map_of_mem hentry))
    rwa [Keyed.lookup_eq_some_of_mem hnodup hentry] at hlookup
  · intro h id hid
    obtain ⟨outcome, hlookup⟩ := Keyed.exists_lookup_eq_some ((hids id).1 hid)
    rw [hlookup]
    exact h (id, outcome) (Keyed.mem_of_lookup_eq_some hlookup)

namespace RuleSet

/-- Identifiers that are joined by `and` make a logic without problems, which asks for all of the
rules. -/
theorem exists_combinationOf_joined {ids keys : List String} (hne : ids ≠ [])
    (hnames : ∀ id ∈ ids, Logic.Names id) (hkeys : ∀ id ∈ ids, id ∈ keys) :
    ∃ e : Logic, e.ruleIds = ids ∧ (∀ f, e.evaluate f = ids.all f) ∧
      combinationOf keys (some (.string (" and ".intercalate ids))) = (.expression e, []) := by
  obtain ⟨id, rest, rfl⟩ := List.exists_cons_of_ne_nil hne
  obtain ⟨hid, hrest⟩ := List.forall_mem_cons.1 hnames
  have hruleIds := Logic.ruleIds_conjunction id rest
  have hundefined : undefinedIn keys (Logic.conjunction id rest).toLogic = [] :=
    undefinedIn_eq_nil_iff.2 (hruleIds ▸ hkeys)
  refine ⟨(Logic.conjunction id rest).toLogic, hruleIds,
    fun f ↦ Logic.evaluate_conjunction f id rest, ?_⟩
  rw [combinationOf_of_parse_eq_ok (Logic.blank_joined hid hrest) (Logic.parse_joined hid hrest),
    hundefined, List.map_nil]

/-- A logic that holds if all rules do may stand in for the absence of a logic. -/
theorem evaluateDetailed_expression {set : RuleSet} (hallOf : set.combination = .allOf)
    (hnodup : (set.rules.map (·.id)).Nodup) {ids : List String}
    (hids : ∀ id, id ∈ ids ↔ id ∈ set.rules.map (·.id)) {e : Logic}
    (he : ∀ f, e.evaluate f = ids.all f) (context : Context) (allowed : AllowList) :
    { set with combination := .expression e }.evaluateDetailed context allowed
      = set.evaluateDetailed context allowed := by
  have hkeys := map_fst_outcomes set context allowed
  have hresult : e.evaluate (fun id ↦ ((set.outcomes context allowed).lookup id).any (·.holds))
      = (set.outcomes context allowed).all (·.2.holds) := by
    rw [he]
    exact all_lookup_eq_all (hkeys ▸ hnodup) (hkeys ▸ hids)
  rw [evaluateDetailed, evaluateDetailed, evaluateWith, evaluateWith, hallOf, Combination.verdict,
    Combination.verdict, ← hresult]
  rfl

/-- If the identifiers of a payload without logic can all be named, it may be given them as its
logic, joined by `and` in any order and with any repetitions, as long as none is left out. This is
read as a logic, the problems stay the same, so that strict compilation accepts both payloads or
neither, and every evaluation has the same report. Identifiers that cannot be named are not named by
any logic. -/
theorem evaluateDetailed_joined :
    (∀ (payload other : Json) (entries : List (String × Json)) (ids : List String),
      (payload.field? "rules").bind Json.members? = some entries →
      other.field? "rules" = payload.field? "rules" →
      payload.field? "logic" = none →
      other.field? "logic" = some (.string (" and ".intercalate ids)) →
      entries ≠ [] →
      (∀ entry ∈ entries, Logic.Names entry.1) →
      (∀ id, id ∈ ids ↔ id ∈ entries.map (·.1)) →
        (∃ e, (compile other).logic? = some e ∧ e.ruleIds = ids) ∧
        (compile other).diagnostics = (compile payload).diagnostics ∧
        ((∃ set, compileStrict other = .ok set) ↔ ∃ set, compileStrict payload = .ok set) ∧
        ∀ (context : Context) (allowed : AllowList),
          (compile other).evaluateDetailed context allowed
            = (compile payload).evaluateDetailed context allowed) ∧
    ∀ (text : String) (e : Logic), Logic.parse text = .ok e →
      ∀ id ∈ e.ruleIds, Logic.Names id := by
  refine ⟨?_, fun text e h id hid ↦ Logic.names_of_parse h hid⟩
  intro payload other entries ids hpayload hrules hnone hlogic hne hnames hids
  have hother : (other.field? "rules").bind Json.members? = some entries := by
    rw [hrules, hpayload]
  have hidsNe : ids ≠ [] := by
    obtain ⟨entry, rest, rfl⟩ := List.exists_cons_of_ne_nil hne
    exact List.ne_nil_of_mem ((hids entry.1).2 (List.mem_map_of_mem List.mem_cons_self))
  have hidsNames : ∀ id ∈ ids, Logic.Names id := by
    intro id hid
    obtain ⟨entry, hentry, rfl⟩ := List.mem_map.1 ((hids id).1 hid)
    exact hnames entry hentry
  obtain ⟨e, heIds, hevaluate, hcombination⟩ :=
    exists_combinationOf_joined hidsNe hidsNames fun id hid ↦ (hids id).1 hid
  have hjoined : compile other = { compile payload with combination := .expression e } := by
    rw [compile_of_rules hother, compile_of_rules hpayload, hlogic, hnone, hcombination]
    rfl
  have hdiagnostics : (compile other).diagnostics = (compile payload).diagnostics := by
    rw [hjoined]
  refine ⟨⟨e, by rw [hjoined]; rfl, heIds⟩, hdiagnostics, ?_, fun context allowed ↦ ?_⟩
  · simp only [compileStrict_eq_ok_iff, hdiagnostics, exists_and_left, exists_eq', and_true]
  · have hallOf : (compile payload).combination = .allOf := by
      rw [compile_of_rules hpayload, hnone]
      rfl
    rw [hjoined]
    -- Apart from how the verdicts are combined, both payloads compile to the same rule set.
    refine evaluateDetailed_expression hallOf (nodup_ids_compile payload) ?_ hevaluate _ _
    rwa [map_id_rules_compile hpayload]

/-- Two rules, the second of them broken, whose identifiers only begin or end like connectives. -/
def lookalikes : List (String × Json) := [
  ("1and", .object [
    ("name", .string "voucher.code"),
    ("conditions", .object [("$eq", .string "SUMMER")])]),
  ("OR-2", .object [("name", .string "order.amount")])]

/-- The two rules may be joined with the second one in front and again at the end. That it is broken
is a problem with and without the logic. -/
theorem evaluateDetailed_lookalikes :
    (∃ e, (compile (.object [("rules", .object lookalikes),
        ("logic", .string "OR-2 and 1and and OR-2")])).logic? = some e ∧
      e.ruleIds = ["OR-2", "1and", "OR-2"]) ∧
    ((∃ set, compileStrict (.object [("rules", .object lookalikes),
        ("logic", .string "OR-2 and 1and and OR-2")]) = .ok set) ↔
      ∃ set, compileStrict (.object [("rules", .object lookalikes)]) = .ok set) ∧
    ∀ (context : Context) (allowed : AllowList),
      (compile (.object [("rules", .object lookalikes),
          ("logic", .string "OR-2 and 1and and OR-2")])).evaluateDetailed context allowed
        = (compile (.object [("rules", .object lookalikes)])).evaluateDetailed context allowed := by
  have hnames {id : String} (hne : id.toList ≠ []) (hword : id.toList.all Logic.isWordChar = true)
      (hconnective : Logic.connective? id = none) : Logic.Names id := by
    refine ⟨hne, List.all_eq_true.1 hword, fun c hc ↦ ?_⟩
    rw [← Logic.connective?_ofList, String.ofList_toList, hconnective] at hc
    cases hc
  obtain ⟨hlogic, -, hstrict, hreport⟩ := evaluateDetailed_joined.1
    (.object [("rules", .object lookalikes)])
    (.object [("rules", .object lookalikes), ("logic", .string "OR-2 and 1and and OR-2")])
    lookalikes ["OR-2", "1and", "OR-2"] rfl rfl rfl rfl (by simp [lookalikes])
    (List.forall_mem_cons.2 ⟨hnames (by decide) (by decide) (by decide),
      List.forall_mem_cons.2 ⟨hnames (by decide) (by decide) (by decide), by simp⟩⟩)
    (by simp [lookalikes])
  exact ⟨hlogic, hstrict, hreport⟩

end RuleSet

end Screening
