import Screening.Proofs.Context.Amount
import Screening.Proofs.Json.Amounts
import Screening.Proofs.Rules.Entries

/-!
# Rules on the amount of the order

A number that is the amount of an order can also be the operand of a rule on the amount. The two
are equal then, and the rule is met or not as equality tells. It takes 28 places to show the number:
of a smaller one the amount keeps a rounded remainder, or nothing, and as an operand it is null.
-/

namespace Screening

namespace Condition

variable {a d : Decimal} {symbol : String} {condition : Condition}

/-- The operators that hold between equal numbers. -/
def reflexive : List String := ["$eq", "$gte", "$lte"]

/-- The operators of comparison that do not hold between equal numbers. -/
def irreflexive : List String := ["$ne", "$gt", "$lt"]

/-- A comparison with an equal number holds if its operator is reflexive. -/
theorem exists_parse_holdsIn (h : (a == d) = true)
    (hsymbol : symbol ∈ reflexive ++ irreflexive) :
    ∃ condition, parse symbol (.number d) = .ok condition ∧
      condition.holdsIn (.value (.number a)) = decide (symbol ∈ reflexive) := by
  have hcompare : compare a d = .eq := (Decimal.compare_eq_iff a d).2 h
  have hbeq : (Value.number a == Value.number d) = true := h
  simp only [reflexive, irreflexive, List.cons_append, List.nil_append, List.mem_cons,
    List.not_mem_nil, or_false] at hsymbol
  rcases hsymbol with rfl | rfl | rfl | rfl | rfl | rfl
  · exact ⟨.eq (.number d), rfl, hbeq⟩
  · refine ⟨.gte d, rfl, ?_⟩
    change (some (compare a d)).any (·.isGE) = _
    rw [hcompare]
    rfl
  · refine ⟨.lte d, rfl, ?_⟩
    change (some (compare a d)).any (·.isLE) = _
    rw [hcompare]
    rfl
  · refine ⟨.ne (.number d), rfl, ?_⟩
    change (!(Value.number a == Value.number d)) = _
    rw [hbeq]
    rfl
  · refine ⟨.gt d, rfl, ?_⟩
    change (some (compare a d) == some .gt) = _
    rw [hcompare]
    rfl
  · refine ⟨.lt d, rfl, ?_⟩
    change (some (compare a d) == some .lt) = _
    rw [hcompare]
    rfl

end Condition

namespace RuleSet

open Json (Document Draft Number)

variable {payload entry : Json} {entries : List (String × Json)} {id symbol : String}
  {context : Context} {allowed : AllowList} {n : Number}

def smallShown : Double :=
  ⟨false, 5575186299632656, 930, by decide, by decide, .inr (by decide)⟩

def tooSmall : Double := ⟨false, 5708990770823840, 922, by decide, by decide, .inr (by decide)⟩

/-- The number 2.9999999999999997e23, which the text `3e23` is read as. -/
def quicklyRead : Double :=
  ⟨false, 8940696716308593, 1099, by decide, by decide, .inr (by decide)⟩

def contextOf (amount : Json) : Json := .object [
  ("voucher", .object [("code", .string "SUMMER")]),
  ("order", .object [("amount", amount)])]

def contextText (amount : String) : String :=
  "\x7b\"voucher\":\x7b\"code\":\"SUMMER\"\x7d,\"order\":\x7b\"amount\":" ++ amount ++ "\x7d\x7d"

def amountRules (operand : Json) : Json := .object [
  ("rules", .object [
    ("same", .object [
      ("name", .string "order.amount"), ("conditions", .object [("$eq", operand)])]),
    ("more", .object [
      ("name", .string "order.amount"), ("conditions", .object [("$gt", operand)])])])]

/-- Of the two rules the first passes and the second fails. -/
def MeetsSameAlone (d : Double) (context : Context) : Prop :=
  ((compile (amountRules (.number (.double d)))).evaluateDetailed context
    .everything).outcome? "same" = some .passed ∧
  ((compile (amountRules (.number (.double d)))).evaluateDetailed context
    .everything).outcome? "more" = some .failed

end RuleSet

end Screening
