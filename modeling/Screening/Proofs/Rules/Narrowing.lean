import Screening.Proofs.Rules.Verdict

/-!
# Narrowing the allow-list

The fewer paths an allow-list admits, the more rules are skipped, and a skipped rule counts as
holding, however broken it is. Since rule sets are monotone in their rules, narrowing the list never
turns a result that holds into one that does not.

An evaluation asks its list about the paths of the rules only. Two lists that agree on them give the
same report, and a list that admits all of them changes nothing.
-/

namespace Screening

/-! ## Comparing lists -/

namespace AllowList

/-- A list admits no more than another one exactly when the other one admits its beginnings. -/
theorem admits_ofList_mono_iff {starts starts' : List String} :
    (∀ path, (ofList starts).admits path = true → (ofList starts').admits path = true) ↔
      ∀ start ∈ starts, (ofList starts').admits start = true := by
  constructor
  · intro h start hstart
    apply h
    exact admits_ofList_iff.2 ⟨start, hstart, List.prefix_rfl⟩
  · intro h path hpath
    obtain ⟨start, hstart, hprefix⟩ := admits_ofList_iff.1 hpath
    obtain ⟨start', hstart', hprefix'⟩ := admits_ofList_iff.1 (h start hstart)
    exact admits_ofList_iff.2 ⟨start', hstart', hprefix'.trans hprefix⟩

end AllowList

/-! ## Rules -/

namespace Rule

variable {rule : Rule} {context : Context} {a b : AllowList}

/-- A rule that is skipped stays so where its path is admitted no more than before. -/
theorem isSkipped_mono (h : ∀ path ∈ rule.path, a.admits path = true → b.admits path = true)
    (hb : rule.isSkipped b = true) : rule.isSkipped a = true := by
  obtain ⟨path, hpath, hnot⟩ := isSkipped_iff.1 hb
  refine isSkipped_iff.2 ⟨path, hpath, ?_⟩
  cases ha : a.admits path with
  | false => rfl
  | true =>
    rw [h path hpath ha] at hnot
    cases hnot

/-- A rule that holds still does when fewer paths are admitted. -/
theorem holds_outcome_mono (h : ∀ path ∈ rule.path, a.admits path = true → b.admits path = true)
    (hb : (rule.outcome context b).holds = true) : (rule.outcome context a).holds = true := by
  rw [holds_outcome, Bool.or_eq_true] at hb ⊢
  exact hb.imp_left (isSkipped_mono h)

/-- All that a list decides about a rule is whether its path is admitted. -/
theorem outcome_congr (h : ∀ path ∈ rule.path, a.admits path = b.admits path) :
    rule.outcome context a = rule.outcome context b := by
  rw [outcome, outcome]
  cases hpath : rule.path with
  | none => rfl
  | some path => rw [Option.any_some, Option.any_some, h path hpath]

end Rule

/-! ## Rule sets -/

namespace RuleSet

/-- A payload that is met stays so under an allow-list that admits no more. Two allow-lists that
agree on the paths of its rules give the same report, which is that of an evaluation without a list
if they admit them all. -/
theorem evaluateWith_narrowed (payload : Json) (context : Context) (a b : AllowList) :
    ((∀ path, a.admits path = true → b.admits path = true) →
      (compile payload).evaluateWith context b = true →
      (compile payload).evaluateWith context a = true) ∧
    ((∀ rule ∈ (compile payload).rules, ∀ path ∈ rule.path, a.admits path = b.admits path) →
      (compile payload).evaluateDetailed context a
        = (compile payload).evaluateDetailed context b) ∧
    ((∀ rule ∈ (compile payload).rules, ∀ path ∈ rule.path, a.admits path = true) →
      (compile payload).evaluateDetailed context a
        = (compile payload).evaluateDetailed context .everything) := by
  refine ⟨?_, ?_, ?_⟩
  · intro hab
    apply evaluateWith_mono
    intro rule _
    exact Rule.holds_outcome_mono fun path _ ↦ hab path
  · intro hab
    apply evaluateDetailed_congr
    intro rule hrule
    exact Rule.outcome_congr (hab rule hrule)
  · intro ha
    apply evaluateDetailed_congr
    intro rule hrule
    exact Rule.outcome_congr (ha rule hrule)

def threeParts : Json := .object [
  ("rules", .object [
    ("amount", .object [
      ("name", .string "order.amount"),
      ("conditions", .object [("$gte", .number (.ofUInt64 1000))])]),
    ("mail", .object [
      ("name", .string "customer.email"),
      ("conditions", .object [("$contains", .string "@x.com")])]),
    ("code", .object [
      ("name", .string "voucher.code"),
      ("conditions", .object [])])]),
  ("logic", .string "mail and (amount or code)")]

def largeOrder : Context where
  customer := some { email := some "a@x.com" }
  order := some { amount := .ofInt64 1500 }

theorem evaluateWith_threeParts_narrowed :
    (∀ path, (AllowList.ofList ["customer.email"]).admits path = true →
      (AllowList.ofList ["customer.", "order."]).admits path = true) ∧
    (compile threeParts).evaluateWith largeOrder (.ofList ["customer.email"]) = true ∧
    (compile threeParts).evaluateDetailed largeOrder (.ofList ["customer.", "order.amount"])
      = (compile threeParts).evaluateDetailed largeOrder (.ofList ["customer.", "order."]) ∧
    (compile threeParts).evaluateDetailed largeOrder (.ofList ["customer.", "order.", "voucher."])
      = (compile threeParts).evaluateDetailed largeOrder .everything := by
  have hnarrow : ∀ path, (AllowList.ofList ["customer.email"]).admits path = true →
      (AllowList.ofList ["customer.", "order."]).admits path = true :=
    AllowList.admits_ofList_mono_iff.2 (by decide +kernel)
  refine ⟨hnarrow, ?_, ?_, ?_⟩
  · exact (evaluateWith_narrowed threeParts largeOrder _ _).1 hnarrow (by decide +kernel)
  · exact (evaluateWith_narrowed threeParts largeOrder _ _).2.1 (by decide +kernel)
  · exact (evaluateWith_narrowed threeParts largeOrder _ .everything).2.2 (by decide +kernel)

end RuleSet

end Screening
