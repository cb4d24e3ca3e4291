import Screening.Proofs.Rules.Entries

/-!
# All rules as the strictest combination

A payload without logic asks that all of its rules hold, and so does one whose logic cannot be used.
No logic asks for more, as long as it names rules of the payload only: if all rules hold, then so
does every expression of them, however it nests, orders, repeats or omits them. A context that meets
a payload without its logic therefore meets it with any logic.
-/

namespace Screening.RuleSet

/-- A context that meets a payload of rules alone meets it with any value under `logic` as well: one
that is no text, a blank text, one that cannot be read, and one that names rules of the payload
only. -/
theorem evaluateWith_logic_of_conjunction (rules : Json) (entries : List (String × Json))
    (hrules : rules.members? = some entries) (logic : Json)
    (hlogic : ∀ text e, logic = .string text → Text.blank text = false →
      Logic.parse text = .ok e → ∀ id ∈ e.ruleIds, id ∈ entries.map (·.1))
    (context : Context) (allowed : AllowList)
    (h : (compile (.object [("rules", rules)])).evaluateWith context allowed = true) :
    (compile (.object [("rules", rules), ("logic", logic)])).evaluateWith context allowed
      = true := by
  have halone : ((Json.object [("rules", rules)]).field? "rules").bind Json.members?
      = some entries := hrules
  have hboth : ((Json.object [("rules", rules), ("logic", logic)]).field? "rules").bind
      Json.members? = some entries := hrules
  rw [evaluateWith_compile halone] at h
  rw [evaluateWith_compile hboth]
  apply Combination.verdict_of_forall (combinationOf_ne_unsatisfiable _ _)
  · intro e he id hid
    obtain ⟨text, htext, hblank, hparse⟩ := exists_parse_of_combinationOf he
    rw [List.map_map]
    exact hlogic text e (Option.some.inj htext) hblank hparse id hid
  · exact List.all_eq_true.1 h

def voucherRules : List (String × Json) := [
  ("code", .object [
    ("name", .string "voucher.code"),
    ("conditions", .object [("$is", .array [.string "SUMMER", .string "WINTER"])])]),
  ("amount", .object [
    ("name", .string "order.amount"),
    ("conditions", .object [("$gte", .number (.ofUInt64 1000))])]),
  ("region", .object [
    ("name", .string "voucher.metadata.region"),
    ("conditions", .object [("$ne", .string "us")])])]

def summerOrder : Context where
  voucher := { code := "SUMMER", metadata := [("region", .string "eu")] }
  order := some { amount := .ofInt64 1000 }

/-- The rules hold together, so they do under a logic that repeats one and leaves one out, and under
one that breaks off. -/
theorem evaluateWith_voucherRules :
    (compile (.object [("rules", .object voucherRules)])).evaluateWith summerOrder .everything
      = true ∧
    (compile (.object [("rules", .object voucherRules),
      ("logic", .string "(region OR code) and region")])).evaluateWith summerOrder .everything
      = true ∧
    (compile (.object [("rules", .object voucherRules),
      ("logic", .string "region or (code")])).evaluateWith summerOrder .everything = true := by
  have halone : (compile (.object [("rules", .object voucherRules)])).evaluateWith summerOrder
      .everything = true := by decide +kernel
  have hmembers : (Json.object voucherRules).members? = some voucherRules := rfl
  refine ⟨halone, ?_, ?_⟩
  · refine evaluateWith_logic_of_conjunction _ voucherRules hmembers _ ?_ _ _ halone
    rintro _ e ⟨⟩ - hparse
    have hids : (Logic.parse "(region OR code) and region").toOption.map Logic.ruleIds
        = some ["region", "code", "region"] := by decide +kernel
    rw [hparse] at hids
    rw [Option.some.inj hids]
    decide +kernel
  · refine evaluateWith_logic_of_conjunction _ voucherRules hmembers _ ?_ _ _ halone
    rintro _ e ⟨⟩ - hparse
    have hnone : (Logic.parse "region or (code").toOption.isNone = true := by decide +kernel
    rw [hparse] at hnone
    cases hnone

end Screening.RuleSet
