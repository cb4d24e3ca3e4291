import Screening.Proofs.Rules.Entries

/-!
# Repairing a broken rule

A rule that could not be compiled holds only if it is skipped, and whether it is skipped depends on
its name alone. Whatever takes the place of its entry and keeps the name is skipped as well then, so
it holds wherever the broken rule did. A payload that is met with a broken rule is therefore met
with every repaired one: what is wrong with a rule never lets anything through that the rule would
stop.
-/

namespace Screening.RuleSet

variable {id : String} {broken entry : Json} {context : Context} {allowed : AllowList}

/-- An entry that keeps the name of a broken one holds where the broken one does. -/
theorem holds_outcome_of_repaired (hbroken : (ruleOf id broken).isMalformed = true)
    (hname : ∀ path, Entry.name? broken = some path → Entry.name? entry = some path)
    (h : ((ruleOf id broken).outcome context allowed).holds = true) :
    ((ruleOf id entry).outcome context allowed).holds = true := by
  rw [Rule.holds_outcome, Rule.isMet_of_isMalformed hbroken, Bool.or_false] at h
  obtain ⟨path, hpath, hadmits⟩ := Rule.isSkipped_iff.1 h
  rw [path_ruleOf] at hpath
  have hskipped : (ruleOf id entry).isSkipped allowed = true := by
    refine Rule.isSkipped_iff.2 ⟨path, ?_, hadmits⟩
    rw [path_ruleOf]
    exact hname path hpath
  rw [Rule.holds_outcome, hskipped, Bool.true_or]

/-- If a context meets a payload in which the entry under an identifier is broken, it meets the
payload with any other entry there, as long as that has the name of the broken one if this has a
name. -/
theorem evaluateWith_of_repaired (payload repaired : Json) (entries : List (String × Json))
    (id : String) (broken entry : Json)
    (hrules : (payload.field? "rules").bind Json.members? = some entries)
    (hlookup : entries.lookup id = some broken)
    (hbroken : (ruleOf id broken).isMalformed = true)
    (hrepaired : (repaired.field? "rules").bind Json.members?
      = some (Keyed.put id entry entries))
    (hlogic : repaired.field? "logic" = payload.field? "logic")
    (hname : ∀ path, Entry.name? broken = some path → Entry.name? entry = some path)
    (context : Context) (allowed : AllowList)
    (h : (compile payload).evaluateWith context allowed = true) :
    (compile repaired).evaluateWith context allowed = true := by
  have hnodup : (entries.map (·.1)).Nodup := nodup_entries hrules
  have hmem : id ∈ entries.map (·.1) :=
    List.mem_map_of_mem (Keyed.mem_of_lookup_eq_some hlookup)
  have hrise : ∀ other ∈ entries,
      ((ruleOf other.1 other.2).outcome context allowed).holds = true →
      ((ruleOf other.1 (if other.1 = id then entry else other.2)).outcome
        context allowed).holds = true := by
    intro other hother hholds
    split
    case isTrue hid =>
      -- the keys of an object come once, so this is the broken entry
      have hother : entries.lookup id = some other.2 :=
        Keyed.lookup_eq_some_of_mem hnodup (hid ▸ hother)
      obtain rfl : other.2 = broken := Option.some.inj (hother.symm.trans hlookup)
      subst hid
      exact holds_outcome_of_repaired hbroken hname hholds
    case isFalse => exact hholds
  rw [Keyed.put_eq_map hmem hnodup] at hrepaired
  rw [evaluateWith_compile hrules] at h
  rw [evaluateWith_compile hrepaired, hlogic, List.map_map, List.map_map]
  exact Combination.verdict_mono _ hrise h

/-- A rule on the voucher and an entry beside it, which the logic needs. -/
def codeAnd (entry : Json) : Json := .object [
  ("rules", .object [
    ("amount", entry),
    ("code", .object [
      ("name", .string "voucher.code"),
      ("conditions", .object [("$eq", .string "SUMMER")])])]),
  ("logic", .string "code AND (amount OR missing)")]

def twoBounds : Json := .object [
  ("name", .string "order.amount"),
  ("conditions", .object [
    ("$gte", .number (.ofUInt64 1000)),
    ("$lt", .number (.ofUInt64 5000))])]

def lowerBound : Json := .object [
  ("name", .string "order.amount"),
  ("conditions", .object [("$gte", .number (.ofUInt64 1000))])]

/-- Where the order is left out of account, the broken rule lets the voucher through, and so does
the repaired one. -/
theorem evaluateWith_codeAnd_lowerBound :
    (ruleOf "amount" twoBounds).isMalformed = true ∧
    (compile (codeAnd twoBounds)).evaluateWith { voucher := { code := "SUMMER" } }
      (.ofList ["voucher."]) = true ∧
    (compile (codeAnd lowerBound)).evaluateWith { voucher := { code := "SUMMER" } }
      (.ofList ["voucher."]) = true := by
  have hbroken : (ruleOf "amount" twoBounds).isMalformed = true := by decide +kernel
  have hpasses : (compile (codeAnd twoBounds)).evaluateWith { voucher := { code := "SUMMER" } }
      (.ofList ["voucher."]) = true := by decide +kernel
  refine ⟨hbroken, hpasses, ?_⟩
  exact evaluateWith_of_repaired (codeAnd twoBounds) (codeAnd lowerBound) _ "amount" twoBounds
    lowerBound rfl rfl hbroken rfl rfl (fun _ h ↦ h) _ _ hpasses

end Screening.RuleSet
