import Screening.Logic.Basic

/-!
# Expressions are monotone

There is no negation in an expression: if every rule that it names and that held before still holds,
then so does the expression (`evaluate_mono`). Where all rules that it names hold, so does the
expression (`evaluate_of_forall`).
-/

namespace Screening

/-- Both connectives keep what holds when more holds on either side. -/
theorem Connective.combine_mono {c : Connective} {a a' b b' : Bool} (ha : a = true → a' = true)
    (hb : b = true → b' = true) (h : c.combine a b = true) : c.combine a' b' = true := by
  cases c with
  | and =>
    obtain ⟨h₁, h₂⟩ := Bool.and_eq_true_iff.1 h
    exact Bool.and_eq_true_iff.2 ⟨ha h₁, hb h₂⟩
  | or => exact Bool.or_eq_true_iff.2 ((Bool.or_eq_true_iff.1 h).imp ha hb)

namespace Logic

variable {f g : String → Bool}

theorem evaluateFrom_cons (f : String → Bool) (left : Bool) (c : Connective) (next : Logic)
    (rest : List (Connective × Logic)) :
    evaluateFrom f left ((c, next) :: rest)
      = evaluateFrom f (c.combine left (next.evaluate f)) rest := by
  cases c <;> rfl

mutual

/-- When more rules hold, an expression that held still holds: there is no negation. -/
theorem evaluate_mono (e : Logic) (h : ∀ id ∈ e.ruleIds, f id = true → g id = true)
    (he : e.evaluate f = true) : e.evaluate g = true := by
  match e with
  | .rule id => exact h id (List.mem_singleton.2 rfl) he
  | .chain first rest =>
    rw [evaluate] at he ⊢
    refine evaluateFrom_mono rest ?_ (fun id hid ↦ h id (List.mem_append_right _ hid)) he
    exact evaluate_mono first fun id hid ↦ h id (List.mem_append_left _ hid)

theorem evaluateFrom_mono (rest : List (Connective × Logic)) {left left' : Bool}
    (hleft : left = true → left' = true) (h : ∀ id ∈ ruleIdsOf rest, f id = true → g id = true)
    (he : evaluateFrom f left rest = true) : evaluateFrom g left' rest = true := by
  match rest with
  | [] => exact hleft he
  | (c, next) :: rest =>
    rw [evaluateFrom_cons] at he ⊢
    refine evaluateFrom_mono rest (Connective.combine_mono hleft ?_)
      (fun id hid ↦ h id (List.mem_append_right _ hid)) he
    exact evaluate_mono next fun id hid ↦ h id (List.mem_append_left _ hid)

end

mutual

/-- However an expression combines its rules, it holds where all of them do. -/
theorem evaluate_of_forall (e : Logic) (h : ∀ id ∈ e.ruleIds, f id = true) :
    e.evaluate f = true := by
  match e with
  | .rule id => exact h id (List.mem_singleton.2 rfl)
  | .chain first rest =>
    rw [evaluate]
    apply evaluateFrom_of_forall rest
    · exact evaluate_of_forall first fun id hid ↦ h id (List.mem_append_left _ hid)
    · exact fun id hid ↦ h id (List.mem_append_right _ hid)

/-- What is true stays true if all rules of the further terms hold. -/
theorem evaluateFrom_of_forall (rest : List (Connective × Logic)) {left : Bool}
    (hleft : left = true) (h : ∀ id ∈ ruleIdsOf rest, f id = true) :
    evaluateFrom f left rest = true := by
  match rest with
  | [] => exact hleft
  | (c, next) :: rest =>
    have hnext : next.evaluate f = true :=
      evaluate_of_forall next fun id hid ↦ h id (List.mem_append_left _ hid)
    rw [evaluateFrom_cons]
    apply evaluateFrom_of_forall rest
    · rw [hleft, hnext]
      cases c <;> rfl
    · exact fun id hid ↦ h id (List.mem_append_right _ hid)

end

end Logic

end Screening
