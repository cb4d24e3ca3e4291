import Screening.Proofs.Logic.Monotone

/-!
# What an expression asks for

Working an expression out looks at some of the rules that it names, and in the order in which it
names them. These are all that count: where the verdicts of the rules that are asked for agree, the
value is the same, whatever becomes of the others.
-/

namespace Screening

/-- Where the right side is not needed, the left side decides. -/
theorem Connective.combine_eq_left {c : Connective} {left : Bool} (h : c.needsRight left = false)
    (right : Bool) : c.combine left right = left := by
  cases c with
  | and =>
    obtain rfl : left = false := h
    rfl
  | or =>
    cases left with
    | true => rfl
    | false => cases h

namespace Logic

variable {f g : String → Bool}

/-! ## Only what is named is asked for -/

mutual

/-- Rules are asked for in the order in which they stand, and none more often than it stands there.
-/
theorem asked_sublist_ruleIds (f : String → Bool) (e : Logic) :
    (e.asked f).Sublist e.ruleIds := by
  match e with
  | .rule id => exact List.Sublist.refl _
  | .chain first rest =>
    exact (asked_sublist_ruleIds f first).append (askedFrom_sublist_ruleIdsOf f _ rest)

theorem askedFrom_sublist_ruleIdsOf (f : String → Bool) (left : Bool)
    (rest : List (Connective × Logic)) : (askedFrom f left rest).Sublist (ruleIdsOf rest) := by
  match rest with
  | [] => exact List.Sublist.refl _
  | (c, next) :: rest =>
    rw [askedFrom, ruleIdsOf]
    refine List.Sublist.append ?_ (askedFrom_sublist_ruleIdsOf f _ rest)
    split
    case isTrue => exact asked_sublist_ruleIds f next
    case isFalse => exact List.nil_sublist _

end

theorem mem_ruleIds_of_mem_asked {e : Logic} {id : String} (h : id ∈ e.asked f) : id ∈ e.ruleIds :=
  (asked_sublist_ruleIds f e).subset h

/-! ## Only what is asked for counts -/

mutual

/-- A value depends on the rules that were asked for, and on no others. -/
theorem evaluate_congr_asked (e : Logic) (h : ∀ id ∈ e.asked f, f id = g id) :
    e.evaluate f = e.evaluate g := by
  match e with
  | .rule id => exact h id (List.mem_singleton.2 rfl)
  | .chain first rest =>
    have hfirst : first.evaluate f = first.evaluate g :=
      evaluate_congr_asked first fun id hid ↦ h id (List.mem_append_left _ hid)
    rw [evaluate, evaluate, ← hfirst]
    exact evaluateFrom_congr_asked rest fun id hid ↦ h id (List.mem_append_right _ hid)

theorem evaluateFrom_congr_asked (rest : List (Connective × Logic)) {left : Bool}
    (h : ∀ id ∈ askedFrom f left rest, f id = g id) :
    evaluateFrom f left rest = evaluateFrom g left rest := by
  match rest with
  | [] => rfl
  | (c, next) :: rest =>
    rw [askedFrom] at h
    have hcombine : c.combine left (next.evaluate f) = c.combine left (next.evaluate g) := by
      cases hneeds : c.needsRight left with
      | false => rw [Connective.combine_eq_left hneeds, Connective.combine_eq_left hneeds]
      | true =>
        rw [evaluate_congr_asked next fun id hid ↦
          h id (List.mem_append_left _ (by rwa [if_pos hneeds]))]
    rw [evaluateFrom_cons, evaluateFrom_cons, ← hcombine]
    exact evaluateFrom_congr_asked rest fun id hid ↦ h id (List.mem_append_right _ hid)

end

end Logic

end Screening
