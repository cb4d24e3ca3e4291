import Screening.Proofs.Decimal.Value
import Screening.Proofs.Json.Conversion
import Screening.Proofs.Rules.Forms

/-!
# Thresholds

A payload of the older form says that counters stay below thresholds. A threshold is a natural
number in any spelling that JSON has for it: what counts is the number that its decimal stands for.
One that is missing or null is no limit, and one that is anything else is an offence: the counter is
never below it, and strict compilation reports it.

Both thresholds go through one function, so what it makes of a threshold is said once
(`thresholdRule?_cases`), and then what its rule does in an evaluation and in a strict compilation.
-/

namespace Screening.RuleSet

/-- The natural number that a threshold means, whatever its spelling. -/
def IsLimit (json : Json) (limit : ℕ) : Prop :=
  ∃ number d, json = .number number ∧ number.decimal? = some d ∧ d.toRat = limit

/-- A counter is below a threshold, or there is none. -/
inductive StaysBelow (count : UInt64) : Option Json → Prop
  | missing : StaysBelow count none
  | null : StaysBelow count (some .null)
  | limit {json : Json} {limit : ℕ} (h : IsLimit json limit) (hlt : count.toNat < limit) :
    StaysBelow count (some json)

/-- A threshold that is there, but means no natural number. -/
inductive Offends : Option Json → Prop
  | intro {json : Json} (hnull : json ≠ .null) (h : ∀ limit, ¬ IsLimit json limit) :
    Offends (some json)

variable {payload json : Json} {thresholds : List (String × Json)} {d : Decimal} {count : UInt64}
  {context : Context} {allowed : AllowList} {key path : String}

/-! ## Limits -/

theorem decimal?_ofJson :
    (Value.ofJson json).decimal? = some d ↔
      ∃ number, json = .number number ∧ number.decimal? = some d := by
  constructor
  · intro h
    cases json with
    | number number =>
      rw [Value.ofJson] at h
      cases hnumber : number.decimal? with
      | none =>
        rw [hnumber] at h
        cases h
      | some d' =>
        rw [hnumber] at h
        exact ⟨number, rfl, hnumber.trans h⟩
    | null | bool b | string text | array items | object members =>
      rw [Value.ofJson] at h
      cases h
  · rintro ⟨number, rfl, h⟩
    rw [Value.ofJson, h]
    rfl

/-- A decimal that a number of JSON means is whole and has no sign if it is a natural number. -/
theorem whole_iff (h : (Value.ofJson json).decimal? = some d) :
    (!d.negative && d.isWhole) = true ↔ ∃ limit : ℕ, d.toRat = limit := by
  obtain ⟨number, -, hnumber⟩ := decimal?_ofJson.1 h
  have hzero := Json.Number.negative_eq_false_of_decimal? hnumber
  rw [Bool.and_eq_true, Bool.not_eq_true', Decimal.exists_toRat_eq_natCast_iff hzero]

/-- A threshold is a number whose decimal is whole and not negative, in any spelling. -/
theorem threshold?_eq_some_iff :
    threshold? json = some d ↔
      ∃ number, json = .number number ∧ number.decimal? = some d ∧
        ∃ limit : ℕ, d.toRat = limit := by
  rw [threshold?, Option.filter_eq_some_iff]
  constructor
  · rintro ⟨hd, h⟩
    obtain ⟨number, hjson, hnumber⟩ := decimal?_ofJson.1 hd
    exact ⟨number, hjson, hnumber, (whole_iff hd).1 h⟩
  · rintro ⟨number, hjson, hnumber, h⟩
    have hd := decimal?_ofJson.2 ⟨number, hjson, hnumber⟩
    exact ⟨hd, (whole_iff hd).2 h⟩

theorem isLimit_iff {limit : ℕ} :
    IsLimit json limit ↔ ∃ d, threshold? json = some d ∧ d.toRat = limit := by
  constructor
  · rintro ⟨number, d, hjson, hnumber, hlimit⟩
    exact ⟨d, threshold?_eq_some_iff.2 ⟨number, hjson, hnumber, limit, hlimit⟩, hlimit⟩
  · rintro ⟨d, hd, hlimit⟩
    obtain ⟨number, hjson, hnumber, -⟩ := threshold?_eq_some_iff.1 hd
    exact ⟨number, d, hjson, hnumber, hlimit⟩

theorem not_isLimit_of_threshold?_eq_none (h : threshold? json = none) (limit : ℕ) :
    ¬ IsLimit json limit := by
  intro hlimit
  obtain ⟨d, hd, -⟩ := isLimit_iff.1 hlimit
  cases h.symm.trans hd

/-- A counter is compared with the value of the threshold. -/
theorem staysBelow_iff (h : threshold? json = some d) :
    StaysBelow count (some json) ↔ (count.toNat : ℚ) < d.toRat := by
  constructor
  · intro hbelow
    cases hbelow with
    | null => cases h
    | limit hlimit hlt =>
      obtain ⟨d', hd', hrat⟩ := isLimit_iff.1 hlimit
      obtain rfl := Option.some.inj (h.symm.trans hd')
      rw [hrat]
      exact_mod_cast hlt
  · intro hlt
    obtain ⟨-, -, -, limit, hrat⟩ := threshold?_eq_some_iff.1 h
    refine .limit (isLimit_iff.2 ⟨d, h, hrat⟩) ?_
    rw [hrat] at hlt
    exact_mod_cast hlt

theorem not_offends_of_threshold?_eq_some (h : threshold? json = some d) :
    ¬ Offends (some json) := by
  rintro ⟨-, hlimit⟩
  obtain ⟨-, -, -, limit, hrat⟩ := threshold?_eq_some_iff.1 h
  exact hlimit limit (isLimit_iff.2 ⟨d, h, hrat⟩)

/-- No counter stays below a threshold that cannot be used. -/
theorem Offends.not_staysBelow {threshold : Option Json} (h : Offends threshold) :
    ¬ StaysBelow count threshold := by
  intro hbelow
  cases h with
  | intro hnull hlimit =>
    cases hbelow with
    | null => exact hnull rfl
    | limit h _ => exact hlimit _ h

/-! ## The rule of a threshold -/

/-- A threshold has no rule and is no limit, or its rule asks for less than its limit, or it offends
and its rule is malformed. -/
theorem thresholdRule?_cases (thresholds : List (String × Json)) (key path : String) :
    (thresholdRule? thresholds key path = none ∧ ¬ Offends (thresholds.lookup key) ∧
      ∀ count, StaysBelow count (thresholds.lookup key)) ∨
    (∃ d, thresholdRule? thresholds key path = some (.asking key path (.lt d)) ∧
      ¬ Offends (thresholds.lookup key) ∧
      ∀ count, StaysBelow count (thresholds.lookup key) ↔ (count.toNat : ℚ) < d.toRat) ∨
    (thresholdRule? thresholds key path
        = some (.malformed key (some path) (.invalidThreshold key)) ∧
      Offends (thresholds.lookup key)) := by
  rw [thresholdRule?]
  split
  case h_1 h =>
    rw [h]
    exact .inl ⟨rfl, nofun, fun _ ↦ .missing⟩
  case h_2 h =>
    rw [h]
    exact .inl ⟨rfl, fun hoffends ↦ hoffends.not_staysBelow (.null : StaysBelow 0 _),
      fun _ ↦ .null⟩
  case h_3 json hnull h =>
    rw [h]
    cases hthreshold : threshold? json with
    | some d =>
      exact .inr (.inl ⟨d, rfl, not_offends_of_threshold?_eq_some hthreshold,
        fun _ ↦ staysBelow_iff hthreshold⟩)
    | none =>
      exact .inr (.inr ⟨rfl, .intro hnull (not_isLimit_of_threshold?_eq_none hthreshold)⟩)

theorem holdsIn_lt_ofUInt64 :
    (Condition.lt d).holdsIn (.value (.number (.ofUInt64 count))) = true
      ↔ (count.toNat : ℚ) < d.toRat := by
  change (some (compare (Decimal.ofUInt64 count) d) == some .lt) = true ↔ _
  rw [beq_iff_eq, Option.some_inj, Decimal.compare_eq_lt_iff, Decimal.toRat_ofUInt64]

/-- The rule of a threshold holds if it is left out of account or its counter stays below. -/
theorem holds_thresholdRule?_iff
    (hfield : Field.resolvePath path context = .value (.number (.ofUInt64 count))) :
    (∀ rule ∈ thresholdRule? thresholds key path, (rule.outcome context allowed).holds = true) ↔
      (allowed.admits path = true → StaysBelow count (thresholds.lookup key)) := by
  rcases thresholdRule?_cases thresholds key path with
    ⟨hrule, -, hbelow⟩ | ⟨d, hrule, -, hbelow⟩ | ⟨hrule, hoffends⟩
  case inl =>
    rw [hrule]
    exact ⟨fun _ _ ↦ hbelow count, fun _ ↦ nofun⟩
  case inr.inl =>
    rw [hrule, hbelow count, ← holdsIn_lt_ofUInt64, ← hfield]
    simp only [Option.mem_def, Option.some_inj, forall_eq']
    exact Rule.holds_outcome_iff rfl
  case inr.inr =>
    rw [hrule]
    simp only [Option.mem_def, Option.some_inj, forall_eq']
    rw [Rule.holds_outcome_iff rfl]
    refine forall_congr' fun _ ↦ ?_
    exact ⟨nofun, fun hbelow ↦ absurd hbelow hoffends.not_staysBelow⟩

/-- The only problem with a threshold is that it means no natural number. -/
theorem problem?_thresholdRule?_iff {problem : Diagnostic} :
    (thresholdRule? thresholds key path).bind (·.problem?) = some problem ↔
      Offends (thresholds.lookup key) ∧ problem = .invalidThreshold key := by
  rcases thresholdRule?_cases thresholds key path with
    ⟨hrule, hnot, -⟩ | ⟨d, hrule, hnot, -⟩ | ⟨hrule, hoffends⟩
  case inl | inr.inl =>
    rw [hrule]
    exact ⟨nofun, fun h ↦ absurd h.1 hnot⟩
  case inr.inr =>
    rw [hrule, Option.bind_some, Rule.problem?_malformed, Option.some_inj]
    exact ⟨fun h ↦ ⟨hoffends, h.symm⟩, fun h ↦ h.2.symm⟩

/-! ## Payloads of thresholds -/

/-- The result is that both counters stay below their thresholds, as far as they are admitted. -/
theorem evaluateWith_thresholds_iff (hrules : payload.field? "rules" = none)
    (h : (payload.field? "redemptions").bind Json.members? = some thresholds) :
    (compile payload).evaluateWith context allowed = true ↔
      (allowed.admits "redemptions.count.total" = true →
        StaysBelow context.counters.total (thresholds.lookup "quantity")) ∧
      (allowed.admits "redemptions.count.per_customer" = true →
        StaysBelow context.counters.perCustomer (thresholds.lookup "per_customer")) := by
  have htotal : Field.resolvePath "redemptions.count.total" context
      = .value (.number (.ofUInt64 context.counters.total)) := rfl
  have hcustomer : Field.resolvePath "redemptions.count.per_customer" context
      = .value (.number (.ofUInt64 context.counters.perCustomer)) := rfl
  rw [← holds_thresholdRule?_iff htotal, ← holds_thresholdRule?_iff hcustomer,
    compile_of_thresholds hrules h, evaluateWith, Combination.verdict, outcomes, List.all_map,
    List.all_eq_true, thresholdRules, List.forall_mem_append]
  simp only [Option.mem_toList, Option.mem_def, Function.comp_apply]

theorem head?_filterMap_toList {α β : Type} (a : Option α) (f : α → Option β) :
    (a.toList.filterMap f).head? = a.bind f := by
  cases a with
  | none => rfl
  | some x => cases hx : f x <;> simp [hx]

/-- The total is checked before the counter of the customer, and the first offence is reported. -/
theorem compileStrict_thresholds_eq_error_iff (hrules : payload.field? "rules" = none)
    (h : (payload.field? "redemptions").bind Json.members? = some thresholds)
    {problem : Diagnostic} :
    compileStrict payload = .error problem ↔
      (Offends (thresholds.lookup "quantity") ∧ problem = .invalidThreshold "quantity") ∨
      (¬ Offends (thresholds.lookup "quantity") ∧ Offends (thresholds.lookup "per_customer") ∧
        problem = .invalidThreshold "per_customer") := by
  have hnone : (thresholdRule? thresholds "quantity" "redemptions.count.total").bind (·.problem?)
      = none ↔ ¬ Offends (thresholds.lookup "quantity") := by
    rw [Option.eq_none_iff_forall_ne_some]
    simp [problem?_thresholdRule?_iff]
  rw [compileStrict_eq_error_iff, compile_of_thresholds hrules h, thresholdRules,
    List.filterMap_append, List.head?_append, head?_filterMap_toList, head?_filterMap_toList,
    Option.or_eq_some_iff, hnone, problem?_thresholdRule?_iff, problem?_thresholdRule?_iff]

/-- A payload of thresholds is met if both counters stay below their thresholds. Under an allow-list
either counter is left out of account where its path is not admitted. Strict compilation fails with
the first threshold that offends, and only with one. Nothing else in the payload matters. -/
theorem evaluate_thresholds (payload : Json) (thresholds : List (String × Json))
    (hrules : payload.field? "rules" = none)
    (hredemptions : (payload.field? "redemptions").bind Json.members? = some thresholds)
    (context : Context) (allowed : AllowList) :
    let quantity := thresholds.lookup "quantity"
    let perCustomer := thresholds.lookup "per_customer"
    ((compile payload).evaluate context = true ↔
      StaysBelow context.counters.total quantity ∧
      StaysBelow context.counters.perCustomer perCustomer) ∧
    ((compile payload).evaluateWith context allowed = true ↔
      (allowed.admits "redemptions.count.total" = true →
        StaysBelow context.counters.total quantity) ∧
      (allowed.admits "redemptions.count.per_customer" = true →
        StaysBelow context.counters.perCustomer perCustomer)) ∧
    ∀ problem, compileStrict payload = .error problem ↔
      (Offends quantity ∧ problem = .invalidThreshold "quantity") ∨
      (¬ Offends quantity ∧ Offends perCustomer ∧ problem = .invalidThreshold "per_customer") := by
  intro quantity perCustomer
  refine ⟨?_, evaluateWith_thresholds_iff hrules hredemptions, ?_⟩
  · rw [evaluate, evaluateWith_thresholds_iff hrules hredemptions]
    simp only [AllowList.admits_everything, forall_const]
    exact Iff.rfl
  · exact fun _ ↦ compileStrict_thresholds_eq_error_iff hrules hredemptions

def hundred : Double := ⟨false, 7036874417766400, 1028, by decide, by decide, .inr (by decide)⟩

def twoAndHalf : Double := ⟨false, 5629499534213120, 1023, by decide, by decide, .inr (by decide)⟩

def oddThresholds : Json := .object [
  ("logic", .string "quantity or"),
  ("redemptions", .object [
    ("quantity", .number (.double hundred)),
    ("per_customer", .number (.double twoAndHalf))])]

/-- After 99 redemptions the one limit still holds, but the other is none. -/
theorem evaluate_oddThresholds :
    (compile oddThresholds).evaluate { counters := ⟨99, 0⟩ } = false ∧
    (compile oddThresholds).evaluateWith { counters := ⟨99, 0⟩ }
      (.ofList ["redemptions.count.total"]) = true ∧
    compileStrict oddThresholds = .error (.invalidThreshold "per_customer") := by
  have hquantity : IsLimit (.number (.double hundred)) 100 := by
    refine isLimit_iff.2 ⟨⟨false, 1000, 1, by decide, by decide⟩, by decide +kernel, ?_⟩
    exact Decimal.toRat_eq_natCast_iff.2 (by decide)
  have hoffends : Offends (some (.number (.double twoAndHalf))) :=
    .intro nofun (not_isLimit_of_threshold?_eq_none (by decide +kernel))
  obtain ⟨heverything, hallowed, hstrict⟩ := evaluate_thresholds oddThresholds
    [("quantity", .number (.double hundred)), ("per_customer", .number (.double twoAndHalf))]
    rfl rfl { counters := ⟨99, 0⟩ } (.ofList ["redemptions.count.total"])
  refine ⟨?_, hallowed.2 ⟨?_, ?_⟩, (hstrict _).2 (.inr ⟨?_, hoffends, rfl⟩)⟩
  · rw [Bool.eq_false_iff]
    exact fun h ↦ hoffends.not_staysBelow (heverything.1 h).2
  · exact fun _ ↦ .limit hquantity (by decide)
  · exact fun h ↦ absurd h (by decide +kernel)
  · rintro ⟨-, hlimit⟩
    exact hlimit 100 hquantity

end Screening.RuleSet
