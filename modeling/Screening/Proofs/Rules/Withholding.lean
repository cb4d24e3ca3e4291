import Screening.Proofs.Rules.Verdict

/-!
# Withholding parts of a context

The customer, the order and the campaign may be missing from a context. A field of a missing part
holds nothing, and no condition holds of nothing, whatever its operator. A rule that holds without
some of the parts therefore holds with them as well, and since rule sets are monotone in their rules
the same goes for them: withholding a part may make a context fail, but never pass.
-/

namespace Screening

/-- The context without its customer, without its order, or without the campaign of its voucher. -/
def Context.withhold (context : Context) (customer order campaign : Bool) : Context where
  voucher := { context.voucher with
    campaign := if campaign then none else context.voucher.campaign }
  customer := if customer then none else context.customer
  order := if order then none else context.order
  counters := context.counters
  requestMetadata := context.requestMetadata

/-- A field of a part that is withheld holds nothing, any other what it held before. -/
theorem Field.resolve_withhold (field : Field) (context : Context)
    (customer order campaign : Bool) :
    field.resolve (context.withhold customer order campaign) = .absent ∨
      field.resolve (context.withhold customer order campaign) = field.resolve context := by
  cases field with
  | customer place =>
    cases customer with
    | false => exact .inr rfl
    | true => exact .inl rfl
  | order place | orderItems place =>
    cases order with
    | false => exact .inr rfl
    | true => exact .inl rfl
  | campaign place =>
    cases campaign with
    | false => exact .inr rfl
    | true => exact .inl rfl
  | voucher place | redemptions place | unknown path => exact .inr rfl

/-- A rule that is met without some part of the context is met with it. -/
theorem Rule.isMet_of_withhold {rule : Rule} {context : Context} {customer order campaign : Bool}
    (h : rule.isMet (context.withhold customer order campaign) = true) :
    rule.isMet context = true := by
  obtain ⟨id, path, check⟩ := rule
  cases check with
  | malformed problem => exact h
  | condition field condition =>
    rw [isMet_condition] at h ⊢
    rcases field.resolve_withhold context customer order campaign with hfield | hfield
    · rw [hfield] at h
      exact absurd h Bool.false_ne_true
    · rwa [hfield] at h

/-- So it counts as holding with the part, under the same allow-list. -/
theorem Rule.holds_outcome_of_withhold {rule : Rule} {context : Context} {allowed : AllowList}
    {customer order campaign : Bool}
    (h : (rule.outcome (context.withhold customer order campaign) allowed).holds = true) :
    (rule.outcome context allowed).holds = true := by
  rw [holds_outcome, Bool.or_eq_true] at h ⊢
  exact h.imp_right isMet_of_withhold

namespace RuleSet

/-- A context that meets a payload with some of its parts withheld meets it with them. -/
theorem evaluateWith_of_withhold (payload : Json) (context : Context) (allowed : AllowList)
    (customer order campaign : Bool)
    (h : (compile payload).evaluateWith (context.withhold customer order campaign) allowed
      = true) :
    (compile payload).evaluateWith context allowed = true :=
  Combination.verdict_mono _ (fun _ _ ↦ Rule.holds_outcome_of_withhold) h

def mailOrPrice : Json := .object [
  ("rules", .object [
    ("mail", .object [
      ("name", .string "customer.email"),
      ("conditions", .object [("$ne", .string "a@x.com")])]),
    ("price", .object [
      ("name", .string "order.items.price"),
      ("conditions", .object [("$gt", .number (.integer 10 (by decide) (by decide)))])])]),
  ("logic", .string "mail OR (price)")]

def buyer : Context where
  customer := some { email := some "b@x.com" }
  order := some { items := [{ price := some (.ofInt64 25) }] }

/-- The order alone is enough for one of two rules, and so it is together with the customer. -/
theorem evaluateWith_mailOrPrice_of_order :
    (compile mailOrPrice).evaluateWith (buyer.withhold true false true) .everything = true ∧
      (compile mailOrPrice).evaluateWith buyer .everything = true := by
  have h : (compile mailOrPrice).evaluateWith (buyer.withhold true false true) .everything
      = true := by decide +kernel
  exact ⟨h, evaluateWith_of_withhold mailOrPrice buyer .everything true false true h⟩

end RuleSet

end Screening
