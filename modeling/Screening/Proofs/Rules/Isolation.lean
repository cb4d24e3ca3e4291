import Screening.Proofs.Field.Parts
import Screening.Proofs.Rules.Entries

/-!
# Isolation of the parts of a context

An allow-list looks at the text of a path, and what a rule reads is decided by the field that the
path makes. The two go together: if every beginning on a list leads into one of certain parts, then
every rule that is not skipped reads from these parts only. So all that a report says is determined
by them, and whatever stands in the other parts of a context leaves no trace in it.
-/

namespace Screening

/-- A path that is admitted leads into one of the parts that the beginnings lead into. -/
theorem AllowList.exists_startsWith_of_admits {starts : List String} {parts : List Part}
    {path : String}
    (hstarts : ∀ start ∈ starts, ∃ part ∈ parts, Text.startsWith start part.start = true)
    (hpath : (ofList starts).admits path = true) :
    ∃ part ∈ parts, Text.startsWith path part.start = true := by
  obtain ⟨start, hstart, hprefix⟩ := admits_ofList_iff.1 hpath
  obtain ⟨part, hpart, hpartStart⟩ := hstarts start hstart
  refine ⟨part, hpart, ?_⟩
  rw [Text.startsWith_iff] at hpartStart ⊢
  exact hpartStart.trans hprefix

/-- A compiled rule has the same outcome in two contexts if its field holds the same in both, which
matters only if its path is admitted. -/
theorem Rule.Compiled.outcome_congr {rule : Rule} (hrule : rule.Compiled) {x y : Context}
    {allowed : AllowList}
    (h : ∀ path ∈ rule.path, allowed.admits path = true →
      Field.resolvePath path x = Field.resolvePath path y) :
    rule.outcome x allowed = rule.outcome y allowed := by
  cases hrule with
  | malformed id path problem => rfl
  | asking id path condition =>
    rw [outcome_asking, outcome_asking]
    split
    case isTrue hadmits => rw [h path rfl hadmits]
    case isFalse => rfl

namespace RuleSet

/-- If every beginning on an allow-list leads into one of the given parts, then contexts that agree
on these parts have the same report. -/
theorem evaluateDetailed_of_agree (payload : Json) (parts : List Part) (starts : List String)
    (hstarts : ∀ start ∈ starts, ∃ part ∈ parts, Text.startsWith start part.start = true)
    (x y : Context) (hagree : ∀ part ∈ parts, x.AgreeOn y part) :
    (compile payload).evaluateDetailed x (.ofList starts)
      = (compile payload).evaluateDetailed y (.ofList starts) := by
  apply evaluateDetailed_congr
  intro rule hrule
  apply (compiled_of_mem_rules hrule).outcome_congr
  intro path _ hadmits
  obtain ⟨part, hpart, hstart⟩ := AllowList.exists_startsWith_of_admits hstarts hadmits
  exact Field.resolve_eq_of_agreeOn (Field.namespaceName_ofPath_of_startsWith hstart)
    (hagree part hpart)

/-- Rules on several parts, with an unknown field, a broken rule and one without a name. -/
def manyParts : Json := .object [
  ("rules", .object [
    ("tier", .object [
      ("name", .string "customer.metadata.tier.level"),
      ("conditions", .object [("$eq", .string "gold")])]),
    ("nick", .object [
      ("name", .string "customer.metadata"),
      ("conditions", .object [("$ne", .null)])]),
    ("used", .object [
      ("name", .string "redemptions.count.total"),
      ("conditions", .object [("$lt", .number (.ofUInt64 5))])]),
    ("lines", .object [
      ("name", .string "order.items.quantity"),
      ("conditions", .object [("$gte", .number (.ofUInt64 2))])]),
    ("camp", .object [
      ("name", .string "campaign.id"),
      ("conditions", .object [])]),
    ("nameless", .object [])]),
  ("logic", .string "tier and used and lines or (nick and camp) or nameless")]

def goldCustomer : Context where
  customer := some { metadata := [("tier.level", .string "gold")] }

def goldOrder : Context where
  voucher := { code := "SUMMER", campaign := some { id := "camp" } }
  customer := some { metadata := [("tier.level", .string "gold")] }
  order := some { items := [{ quantity := 2 }] }

/-- The order makes a difference, but not where the list leads to the customer and the redemptions
only. -/
theorem evaluateDetailed_manyParts :
    (compile manyParts).evaluate goldCustomer = false ∧
    (compile manyParts).evaluate goldOrder = true ∧
    (∀ part ∈ [Part.customer, .redemptions], goldCustomer.AgreeOn goldOrder part) ∧
    (compile manyParts).evaluateDetailed goldCustomer
        (.ofList ["customer.metadata.", "redemptions."])
      = (compile manyParts).evaluateDetailed goldOrder
        (.ofList ["customer.metadata.", "redemptions."]) := by
  have hstarts : ∀ start ∈ ["customer.metadata.", "redemptions."],
      ∃ part ∈ [Part.customer, .redemptions], Text.startsWith start part.start = true := by
    decide +kernel
  have hagree : ∀ part ∈ [Part.customer, .redemptions], goldCustomer.AgreeOn goldOrder part := by
    intro part hpart
    rcases List.mem_cons.1 hpart with rfl | hpart
    · exact rfl
    · obtain rfl := List.mem_singleton.1 hpart
      exact ⟨rfl, rfl⟩
  refine ⟨?_, ?_, hagree, evaluateDetailed_of_agree manyParts _ _ hstarts _ _ hagree⟩
  · decide +kernel
  · decide +kernel

end RuleSet

end Screening
