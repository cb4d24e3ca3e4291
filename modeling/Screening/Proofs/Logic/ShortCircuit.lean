import Screening.Proofs.Logic.Trace

/-!
# Leaving out what is not needed

In `Logic.evaluate` the verdicts of all rules are there from the start. Here every look at a verdict
is an action (`Logic.evaluateM`), and the right side of a connective is not even begun where the left
side decides. With the action that notes down what it is asked for, such a run gives the value of the
expression and the list `Logic.asked`.

What is asked for comes in the order of the rules that the expression names, and begins with the
first of them. It decides the whole run: where the verdicts on it are the same, so are the value and
what is asked for, whatever the verdicts on all other rules are.
-/

namespace Screening

/-! ## Runs -/

section Runs

variable {m : Type → Type} [Monad m]

/-- Combines the value of the left side with the right side, which is run only if it is needed. -/
def Connective.combineM (c : Connective) (left : Bool) (right : m Bool) : m Bool :=
  match c with
  | .and => if left then right else pure false
  | .or => if left then pure true else right

namespace Logic

mutual

/-- Works an expression out, where looking at the verdict of a rule is an action. -/
def evaluateM (verdict : String → m Bool) : Logic → m Bool
  | .rule id => verdict id
  | .chain first rest => do
    let left ← evaluateM verdict first
    evaluateFromM verdict left rest

def evaluateFromM (verdict : String → m Bool) (left : Bool) : List (Connective × Logic) → m Bool
  | [] => pure left
  | (c, next) :: rest => do
    let left ← c.combineM left (evaluateM verdict next)
    evaluateFromM verdict left rest

end

end Logic

end Runs

namespace Logic

/-- Looks at the verdict of a rule and notes down that it was asked for. -/
def noting (verdict : String → Bool) (id : String) : StateM (List String) Bool := do
  modify (· ++ [id])
  return verdict id

variable {f g : String → Bool}

/-! ## The run that notes down what it asks for -/

/-- A right side that is not needed notes nothing down. -/
theorem run_combineM (c : Connective) (left right : Bool) (more asked : List String)
    (run : StateM (List String) Bool) (h : run.run asked = (right, asked ++ more)) :
    (c.combineM left run).run asked
      = (c.combine left right, asked ++ if c.needsRight left then more else []) := by
  cases c <;> cases left
  case and.true | or.false => exact h
  case and.false | or.true => exact congrArg (Prod.mk _) (List.append_nil asked).symm

mutual

/-- The run gives the value, and what it notes down is what is asked for. -/
theorem run_evaluateM (e : Logic) (asked : List String) :
    (evaluateM (noting f) e).run asked = (e.evaluate f, asked ++ e.asked f) := by
  match e with
  | .rule id => rfl
  | .chain first rest =>
    rw [evaluateM, StateT.run_bind, run_evaluateM first, evaluate, Logic.asked,
      ← List.append_assoc]
    exact run_evaluateFromM rest _ _

theorem run_evaluateFromM (rest : List (Connective × Logic)) (left : Bool) (asked : List String) :
    (evaluateFromM (noting f) left rest).run asked
      = (evaluateFrom f left rest, asked ++ askedFrom f left rest) := by
  match rest with
  | [] => exact congrArg (Prod.mk left) (List.append_nil asked).symm
  | (c, next) :: rest =>
    rw [evaluateFromM, StateT.run_bind, run_combineM c left _ _ _ _ (run_evaluateM next asked),
      evaluateFrom_cons, askedFrom, ← List.append_assoc]
    exact run_evaluateFromM rest _ _

end

/-! ## The order of what is asked for -/

/-- The first rule is asked for, and what comes then is named behind it. -/
theorem exists_asked_eq_cons (f : String → Bool) (e : Logic) :
    ∃ id more others, e.asked f = id :: more ∧ e.ruleIds = id :: others ∧ more.Sublist others := by
  match e with
  | .rule id => exact ⟨id, [], [], rfl, rfl, .slnil⟩
  | .chain first rest =>
    obtain ⟨id, more, others, hasked, hids, hmore⟩ := exists_asked_eq_cons f first
    refine ⟨id, _, _, ?_, ?_, hmore.append (askedFrom_sublist_ruleIdsOf f (first.evaluate f) rest)⟩
    · rw [asked, hasked, List.cons_append]
    · rw [ruleIds, hids, List.cons_append]

/-- The places in the expression at which its run asks, from left to right. -/
theorem exists_positions (f : String → Bool) (e : Logic) :
    ∃ positions : List Nat, positions.head? = some 0 ∧ positions.Pairwise (· < ·) ∧
      positions.map (e.ruleIds[·]?) = (e.asked f).map some := by
  obtain ⟨id, more, others, hasked, hids, hmore⟩ := exists_asked_eq_cons f e
  obtain ⟨places, rfl, hordered⟩ := List.sublist_eq_map_getElem hmore
  refine ⟨0 :: places.map (·.val + 1), rfl, ?_, ?_⟩
  · refine List.pairwise_cons.2 ⟨by simp, List.pairwise_map.2 (hordered.imp ?_)⟩
    exact fun hlt ↦ Nat.succ_lt_succ hlt
  · rw [hids, hasked]
    simp

/-! ## Two runs -/

mutual

/-- Where the verdicts on what is asked for are the same, the same is asked for. -/
theorem asked_congr_asked (e : Logic) (h : ∀ id ∈ e.asked f, f id = g id) :
    e.asked f = e.asked g := by
  match e with
  | .rule id => rfl
  | .chain first rest =>
    have hfirst : ∀ id ∈ first.asked f, f id = g id :=
      fun id hid ↦ h id (List.mem_append_left _ hid)
    rw [asked, asked, ← evaluate_congr_asked first hfirst, ← asked_congr_asked first hfirst,
      ← askedFrom_congr_asked rest fun id hid ↦ h id (List.mem_append_right _ hid)]

theorem askedFrom_congr_asked (rest : List (Connective × Logic)) {left : Bool}
    (h : ∀ id ∈ askedFrom f left rest, f id = g id) :
    askedFrom f left rest = askedFrom g left rest := by
  match rest with
  | [] => rfl
  | (c, next) :: rest =>
    rw [askedFrom] at h
    have hrest := askedFrom_congr_asked rest fun id hid ↦ h id (List.mem_append_right _ hid)
    rw [askedFrom, askedFrom, hrest]
    -- both runs stand at the same left side, so both need the right side or neither does
    cases hneeds : c.needsRight left with
    | false =>
      rw [Connective.combine_eq_left hneeds, Connective.combine_eq_left hneeds]
      rfl
    | true =>
      have hnext : ∀ id ∈ next.asked f, f id = g id :=
        fun id hid ↦ h id (List.mem_append_left _ (by rwa [if_pos hneeds]))
      rw [← asked_congr_asked next hnext, ← evaluate_congr_asked next hnext]

end

/-- A run that notes down what it asks for gives the value of the expression. It asks at places that
go from left to right through the rules of the expression, beginning with the first of them. With
any other verdicts that are the same on what it asked for, the value is the same and so is the whole
list of what is asked for. -/
theorem evaluate_asks (e : Logic) (f : String → Bool) :
    (evaluateM (noting f) e).run [] = (e.evaluate f, e.asked f) ∧
    (∃ positions : List Nat, positions.head? = some 0 ∧ positions.Pairwise (· < ·) ∧
      positions.map (e.ruleIds[·]?) = (e.asked f).map some) ∧
    ∀ g : String → Bool, (∀ id ∈ e.asked f, g id = f id) →
      e.evaluate g = e.evaluate f ∧ e.asked g = e.asked f := by
  refine ⟨run_evaluateM e [], exists_positions f e, fun g h ↦ ⟨?_, ?_⟩⟩
  · exact (evaluate_congr_asked e fun id hid ↦ (h id hid).symm).symm
  · exact (asked_congr_asked e fun id hid ↦ (h id hid).symm).symm

/-- The expression `a or (b and c) and d`. -/
def aroundGroup : Logic :=
  .chain (.rule "a") [(.or, .chain (.rule "b") [(.and, .rule "c")]), (.and, .rule "d")]

/-- Where `a` holds, the group behind it is left out, and its verdicts do not matter. -/
theorem evaluate_asks_aroundGroup :
    aroundGroup.asked (· == "a") = ["a", "d"] ∧
    aroundGroup.ruleIds = ["a", "b", "c", "d"] ∧
    aroundGroup.evaluate (· ∈ ["a", "b", "c"]) = aroundGroup.evaluate (· == "a") ∧
    aroundGroup.asked (· ∈ ["a", "b", "c"]) = ["a", "d"] := by
  obtain ⟨-, -, hagree⟩ := evaluate_asks aroundGroup (· == "a")
  have hasked : aroundGroup.asked (· == "a") = ["a", "d"] := by decide +kernel
  have hids : aroundGroup.ruleIds = ["a", "b", "c", "d"] := by decide +kernel
  obtain ⟨hvalue, hsame⟩ := hagree (· ∈ ["a", "b", "c"]) (by
    rw [hasked]
    decide)
  exact ⟨hasked, hids, hvalue, hsame.trans hasked⟩

end Logic

end Screening
