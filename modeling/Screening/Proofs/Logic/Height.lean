import Screening.Proofs.Logic.Monotone
import Screening.Proofs.Logic.Reading
import Screening.Proofs.Logic.Trace

/-!
# The height of expressions

A term that is appended stands one level below the expression, wherever the expression ends
(`height_link`). So a chain grows in length alone as long as its terms are lower than itself, and the
parentheses of a text bound the height of its expression (`Sentence.height_toLogic_le`). A group that
comes first does not even count, since the further terms are appended to it.

Whatever goes through an expression calls itself for the terms of a chain and goes along the chain in
a loop. `Walk` is this common shape of working out, listing the rules and printing, and
`Walk.within?` gives up where calls would stand too deep inside one another. The height is enough for
every walk (`Walk.within?_eq_some`), and for one that leaves nothing out it is needed
(`Walk.within?_eq_none`).
-/

namespace Screening

namespace Logic

/-! ## Heights -/

theorem heightOf_append (xs ys : List (Connective × Logic)) :
    heightOf (xs ++ ys) = max (heightOf xs) (heightOf ys) := by
  induction xs with
  | nil => simp [heightOf]
  | cons x xs ih => rw [List.cons_append, heightOf, heightOf, ih, Nat.max_assoc]

/-- A term that is appended stands one level below the expression. -/
theorem height_link (e : Logic) (c : Connective) (next : Logic) :
    (e.link c next).height = max e.height (1 + next.height) := by
  cases e with
  | rule id =>
    simp only [link, height, heightOf]
    omega
  | chain first rest =>
    simp only [link, height, heightOf_append, heightOf]
    omega

/-- Terms that are lower than the expression do not make it higher, however many are appended. -/
theorem height_foldl_link (e : Logic) (rest : List (Connective × Logic))
    (h : ∀ next ∈ rest, next.2.height < e.height) :
    (rest.foldl (fun e next ↦ e.link next.1 next.2) e).height = e.height := by
  induction rest generalizing e with
  | nil => rfl
  | cons next rest ih =>
    obtain ⟨hnext, hrest⟩ := List.forall_mem_cons.1 h
    have hlink : (e.link next.1 next.2).height = e.height := by
      rw [height_link]
      omega
    rw [List.foldl_cons, ih, hlink]
    rwa [hlink]

namespace Phrase

mutual

/-- The height of a term is bounded by its parentheses. -/
theorem height_toLogic_le (p : Phrase) : p.toLogic.height ≤ p.depth := by
  match p with
  | .word id => exact Nat.le_refl 0
  | .group first rest =>
    have hfirst := height_toLogic_le first
    have hgroup := height_linkAll_le first.toLogic rest
    rw [toLogic, depth]
    omega

theorem height_linkAll_le (e : Logic) (rest : List (Connective × Phrase)) :
    (linkAll e rest).height ≤ max e.height (depthOf rest + 1) := by
  match rest with
  | [] => exact Nat.le_max_left _ _
  | (c, next) :: rest =>
    have hnext := height_toLogic_le next
    have hrest := height_linkAll_le (e.link c next.toLogic) rest
    rw [height_link] at hrest
    rw [linkAll, depthOf]
    omega

end

end Phrase

/-- An expression is higher by one at most than its parentheses are deep. -/
theorem Sentence.height_toLogic_le (s : Sentence) : s.toLogic.height ≤ s.depth + 1 := by
  have hfirst := s.first.height_toLogic_le
  have hrest := Phrase.height_linkAll_le s.first.toLogic s.rest
  rw [toLogic, ← Phrase.linkAll_eq_foldl, depth]
  omega

/-- The parentheses of a text bound the height of its expression. -/
theorem height_le_of_parse {text : String} {e : Logic} (h : parse text = .ok e) :
    e.height ≤ nesting text + 1 := by
  obtain ⟨-, s, hs, rfl⟩ := parse_eq_ok_iff.1 h
  rw [nesting_eq_depthFrom, ← hs, s.depthFrom_tokens]
  exact s.height_toLogic_le

end Logic

/-! ## Walks -/

/-- A way of going through an expression that calls itself for the terms of a chain, one after
another, and carries along what it has so far. -/
structure Walk (α : Type) where
  /-- What a rule gives. -/
  rule : String → α
  /-- What stands before the further terms, of which the number is known, once the first term has
  been gone through. -/
  enter : Nat → α → α
  /-- Whether the term after a connective is called for at all. -/
  needs : Connective → α → Bool
  /-- Adds what the term after a connective gives. -/
  join : Connective → α → α → α

namespace Walk

open Logic

variable {α : Type} (w : Walk α)

mutual

def run : Logic → α
  | .rule id => w.rule id
  | .chain first rest => runFrom (w.enter rest.length (run first)) rest

def runFrom (before : α) : List (Connective × Logic) → α
  | [] => before
  | (c, next) :: rest =>
    runFrom (if w.needs c before then w.join c before (run next) else before) rest

end

mutual

/-- What a walk gives if below its outermost call no more than `calls` calls may stand inside one
another, and nothing if it needs more. -/
def within? : Nat → Logic → Option α
  | _, .rule id => some (w.rule id)
  | 0, .chain _ _ => none
  | calls + 1, .chain first rest => do
    let before ← within? calls first
    withinFrom? calls (w.enter rest.length before) rest

/-- Goes along the further terms of a chain, each of which may use as many calls as the others. -/
def withinFrom? (calls : Nat) (before : α) : List (Connective × Logic) → Option α
  | [] => some before
  | (c, next) :: rest =>
    if w.needs c before then do
      let more ← within? calls next
      withinFrom? calls (w.join c before more) rest
    else withinFrom? calls before rest

end

mutual

/-- A walk through an expression needs no more calls than the expression is high. -/
theorem within?_eq_some {calls : Nat} (e : Logic) (h : e.height ≤ calls) :
    w.within? calls e = some (w.run e) := by
  match calls, e with
  | _, .rule id => rw [within?, run]
  | 0, .chain first rest => exact absurd h (Nat.not_succ_le_zero _)
  | calls + 1, .chain first rest =>
    rw [height] at h
    have hfirst : w.within? calls first = some (w.run first) :=
      within?_eq_some first (by omega)
    rw [within?, hfirst, run]
    exact withinFrom?_eq_some rest _ (by omega)

/-- Calls for the further terms are enough if they are enough for the highest one. -/
theorem withinFrom?_eq_some {calls : Nat} (rest : List (Connective × Logic)) (before : α)
    (h : heightOf rest ≤ calls) :
    w.withinFrom? calls before rest = some (w.runFrom before rest) := by
  match rest with
  | [] => rw [withinFrom?, runFrom]
  | (c, next) :: rest =>
    rw [heightOf] at h
    have hnext : w.within? calls next = some (w.run next) := within?_eq_some next (by omega)
    rw [withinFrom?, runFrom, hnext]
    split
    · exact withinFrom?_eq_some rest _ (by omega)
    · exact withinFrom?_eq_some rest _ (by omega)

end

mutual

/-- A walk that leaves no term out needs as many calls as the expression is high. -/
theorem within?_eq_none {calls : Nat} (hneeds : ∀ c before, w.needs c before = true) (e : Logic)
    (h : calls < e.height) : w.within? calls e = none := by
  match calls, e with
  | _, .rule id => exact absurd h (Nat.not_lt_zero _)
  | 0, .chain first rest => rw [within?]
  | calls + 1, .chain first rest =>
    rw [height] at h
    rw [within?]
    rcases Nat.lt_or_ge calls first.height with hfirst | hfirst
    · rw [within?_eq_none hneeds first hfirst]
      rfl
    · rw [w.within?_eq_some first hfirst]
      exact withinFrom?_eq_none hneeds rest _ (by omega)

/-- Going along the further terms it runs out of calls if one of them needs more. -/
theorem withinFrom?_eq_none {calls : Nat} (hneeds : ∀ c before, w.needs c before = true)
    (rest : List (Connective × Logic)) (before : α) (h : calls < heightOf rest) :
    w.withinFrom? calls before rest = none := by
  match rest with
  | [] => exact absurd h (Nat.not_lt_zero _)
  | (c, next) :: rest =>
    rw [heightOf] at h
    rw [withinFrom?, if_pos (hneeds c before)]
    rcases Nat.lt_or_ge calls next.height with hnext | hnext
    · rw [within?_eq_none hneeds next hnext]
      rfl
    · rw [w.within?_eq_some next hnext]
      exact withinFrom?_eq_none hneeds rest _ (by omega)

end

/-- A walk that leaves no term out gets through exactly if the calls are as many as the expression is
high. -/
theorem within?_eq_ite (hneeds : ∀ c before, w.needs c before = true) (calls : Nat) (e : Logic) :
    w.within? calls e = if e.height ≤ calls then some (w.run e) else none := by
  split
  · next h => exact w.within?_eq_some e h
  · next h => exact w.within?_eq_none hneeds e (Nat.lt_of_not_le h)

/-! ## Working out, listing and printing -/

/-- Working an expression out. A term is left alone where what stands before it decides. -/
def evaluation (verdict : String → Bool) : Walk Bool where
  rule := verdict
  enter _ first := first
  needs := Connective.needsRight
  join := Connective.combine

def listing : Walk (List String) where
  rule id := [id]
  enter _ first := first
  needs _ _ := true
  join _ before next := before ++ next

def printing : Walk (List String) where
  rule id := [id]
  enter more first := List.replicate more "(" ++ first
  needs _ _ := true
  join c before next := before ++ " " :: c.render :: " " :: (next ++ [")"])

mutual

theorem run_evaluation (verdict : String → Bool) (e : Logic) :
    (evaluation verdict).run e = e.evaluate verdict := by
  match e with
  | .rule id => rfl
  | .chain first rest =>
    rw [run, run_evaluation verdict first, evaluate]
    exact runFrom_evaluation verdict _ rest

theorem runFrom_evaluation (verdict : String → Bool) (left : Bool)
    (rest : List (Connective × Logic)) :
    (evaluation verdict).runFrom left rest = evaluateFrom verdict left rest := by
  match rest with
  | [] => rfl
  | (c, next) :: rest =>
    have hstep : (if c.needsRight left then c.combine left (next.evaluate verdict) else left)
        = c.combine left (next.evaluate verdict) := by
      split
      · rfl
      · next hneeds => exact (Connective.combine_eq_left (by simpa using hneeds) _).symm
    rw [runFrom, run_evaluation verdict next, evaluateFrom_cons, ← hstep]
    exact runFrom_evaluation verdict _ rest

end

mutual

theorem run_listing (e : Logic) : listing.run e = e.ruleIds := by
  match e with
  | .rule id => rfl
  | .chain first rest =>
    rw [run, run_listing first, ruleIds]
    exact runFrom_listing _ rest

theorem runFrom_listing (before : List String) (rest : List (Connective × Logic)) :
    listing.runFrom before rest = before ++ ruleIdsOf rest := by
  match rest with
  | [] => exact (List.append_nil before).symm
  | (c, next) :: rest =>
    rw [runFrom, run_listing next, ruleIdsOf, ← List.append_assoc]
    exact runFrom_listing _ rest

end

mutual

theorem run_printing (e : Logic) : printing.run e = e.pieces := by
  match e with
  | .rule id => rfl
  | .chain first rest =>
    rw [run, run_printing first, pieces, List.map_const']
    exact runFrom_printing _ rest

theorem runFrom_printing (before : List String) (rest : List (Connective × Logic)) :
    printing.runFrom before rest = before ++ piecesOf rest := by
  match rest with
  | [] => exact (List.append_nil before).symm
  | (c, next) :: rest =>
    rw [runFrom, run_printing next]
    refine (runFrom_printing _ rest).trans ?_
    simp [printing, piecesOf]

end

end Walk

namespace Logic

/-! ## Texts -/

/-- The height of an expression that was read is at most one more than the nesting of its text, so at
most 65, however long the text is. It has as many rules as the text has words that are no
connectives. It can be worked out, listed and printed with 65 calls inside one another, below the
outermost. A term that is appended stands one level below the expression, and so a chain grows in
length alone as long as its terms are lower than itself. For listing and printing the height is the
number of calls that are needed. -/
theorem parse_bounds_height :
    (∀ text e, parse text = .ok e →
      e.height ≤ nesting text + 1 ∧ e.height ≤ 65 ∧
      e.ruleIds.length = (tokens text).countP (·.word?.isSome) ∧
      (∀ verdict, (Walk.evaluation verdict).within? 65 e = some (e.evaluate verdict)) ∧
      Walk.listing.within? 65 e = some e.ruleIds ∧
      (Walk.printing.within? 65 e).map String.join = some e.render) ∧
    (∀ (e next : Logic) (c : Connective),
      (e.link c next).height = max e.height (1 + next.height)) ∧
    (∀ (e : Logic) (rest : List (Connective × Logic)),
      (∀ next ∈ rest, next.2.height < e.height) →
        (rest.foldl (fun e next ↦ e.link next.1 next.2) e).height = e.height) ∧
    ∀ (calls : Nat) (e : Logic),
      Walk.listing.within? calls e = (if e.height ≤ calls then some e.ruleIds else none) ∧
      Walk.printing.within? calls e = (if e.height ≤ calls then some e.pieces else none) := by
  refine ⟨fun text e hread ↦ ?_, fun e next c ↦ height_link e c next, height_foldl_link,
    fun calls e ↦ ⟨?_, ?_⟩⟩
  · have hheight := height_le_of_parse hread
    have hlimit : e.height ≤ 65 := by
      have hnesting : nesting text ≤ nestingLimit := (parse_eq_ok_iff.1 hread).1
      rw [nestingLimit] at hnesting
      omega
    refine ⟨hheight, hlimit, ?_, fun verdict ↦ ?_, ?_, ?_⟩
    · rw [ruleIds_of_parse hread, List.length_filterMap_eq_countP]
    · rw [Walk.within?_eq_some _ e hlimit, Walk.run_evaluation]
    · rw [Walk.within?_eq_some _ e hlimit, Walk.run_listing]
    · rw [Walk.within?_eq_some _ e hlimit, Walk.run_printing]
      rfl
  · rw [Walk.within?_eq_ite _ (fun _ _ ↦ rfl), Walk.run_listing]
  · rw [Walk.within?_eq_ite _ (fun _ _ ↦ rfl), Walk.run_printing]

/-- The expression `a or (b and c and (d or (e and f)))`. -/
def threeGroups : Logic :=
  .chain (.rule "a") [(.or, .chain (.rule "b") [(.and, .rule "c"),
    (.and, .chain (.rule "d") [(.or, .chain (.rule "e") [(.and, .rule "f")])])])]

/-- The parentheses around `b and c` come first in their group and do not count, the others do. The
height is then one more than the nesting, and one call less is not enough. -/
theorem parse_bounds_height_threeGroups :
    parse "a or ((b and c) and (d or (e and f)))" = .ok threeGroups ∧
    nesting "a or ((b and c) and (d or (e and f)))" = 3 ∧ threeGroups.height = 4 ∧
    threeGroups.ruleIds.length = 6 ∧
    Walk.listing.within? 65 threeGroups = some ["a", "b", "c", "d", "e", "f"] ∧
    Walk.listing.within? 4 threeGroups = some ["a", "b", "c", "d", "e", "f"] ∧
    Walk.listing.within? 3 threeGroups = none := by
  have hread : parse "a or ((b and c) and (d or (e and f)))" = .ok threeGroups := rfl
  obtain ⟨-, -, hrules, -, hlisting, -⟩ := parse_bounds_height.1 _ _ hread
  obtain ⟨henough, -⟩ := parse_bounds_height.2.2.2 4 threeGroups
  obtain ⟨hneeded, -⟩ := parse_bounds_height.2.2.2 3 threeGroups
  exact ⟨hread, rfl, rfl, hrules, hlisting, henough, hneeded⟩

end Logic

end Screening
