/-!
# Logic over rules

An expression combines the verdicts of rules, which it names by their identifiers. It has no
precedence: a chain is a first term and any number of further terms, each with the connective before
it, and is worked out strictly from left to right. A term that is a chain itself stands in
parentheses. Appending to a chain makes it longer and never deeper.

The value of an expression needs only some of its rules: the right side of a connective is left
alone when the left side decides. `Logic.asked` lists the rules that are looked at, in order.
-/

namespace Screening

/-- How a term is combined with what stands before it. -/
inductive Connective where
  | and
  | or
deriving DecidableEq, Repr

namespace Connective

def render : Connective → String
  | .and => "and"
  | .or => "or"

def combine : Connective → Bool → Bool → Bool
  | .and => Bool.and
  | .or => Bool.or

/-- Whether the right side is needed when the left side is known. -/
def needsRight : Connective → Bool → Bool
  | .and, left => left
  | .or, left => !left

end Connective

inductive Logic where
  | rule (id : String)
  | chain (first : Logic) (rest : List (Connective × Logic))

namespace Logic

instance : Inhabited Logic := ⟨.rule ""⟩

/-! ## Building -/

/-- Appends a term: a chain becomes longer, a rule becomes the first term of a chain. -/
def link (e : Logic) (c : Connective) (next : Logic) : Logic :=
  match e with
  | .chain first rest => .chain first (rest ++ [(c, next)])
  | .rule id => .chain (.rule id) [(c, next)]

def both (e next : Logic) : Logic := e.link .and next

def either (e next : Logic) : Logic := e.link .or next

/-! ## Working out -/

mutual

def evaluate (verdict : String → Bool) : Logic → Bool
  | .rule id => verdict id
  | .chain first rest => evaluateFrom verdict (evaluate verdict first) rest

/-- The value of the further terms of a chain, given the value of what stands before them. -/
def evaluateFrom (verdict : String → Bool) (left : Bool) : List (Connective × Logic) → Bool
  | [] => left
  | (c, next) :: rest =>
    evaluateFrom verdict
      (match c with
        | .and => left && evaluate verdict next
        | .or => left || evaluate verdict next) rest

end

mutual

/-- The rules that working out the value looks at, in order. -/
def asked (verdict : String → Bool) : Logic → List String
  | .rule id => [id]
  | .chain first rest => asked verdict first ++ askedFrom verdict (evaluate verdict first) rest

def askedFrom (verdict : String → Bool) (left : Bool) : List (Connective × Logic) → List String
  | [] => []
  | (c, next) :: rest =>
    (if c.needsRight left then asked verdict next else []) ++
      askedFrom verdict (c.combine left (evaluate verdict next)) rest

end

/-- The value of an expression when the verdicts are given as a list; a rule that is not in the list
does not hold. -/
def evaluateIn (verdicts : List (String × Bool)) (e : Logic) : Bool :=
  e.evaluate fun id => (verdicts.lookup id).getD false

mutual

/-- The rules that an expression names, from left to right. -/
def ruleIds : Logic → List String
  | .rule id => [id]
  | .chain first rest => ruleIds first ++ ruleIdsOf rest

def ruleIdsOf : List (Connective × Logic) → List String
  | [] => []
  | (_, next) :: rest => ruleIds next ++ ruleIdsOf rest

end

mutual

/-- How deep chains stand inside one another; a rule has height zero. -/
def height : Logic → Nat
  | .rule _ => 0
  | .chain first rest => max (height first) (heightOf rest) + 1

def heightOf : List (Connective × Logic) → Nat
  | [] => 0
  | (_, next) :: rest => max (height next) (heightOf rest)

end

/-! ## Text -/

mutual

def pieces : Logic → List String
  | .rule id => [id]
  | .chain first rest => rest.map (fun _ => "(") ++ pieces first ++ piecesOf rest

/-- The pieces of the further terms of a chain, each of which closes a parenthesis. -/
def piecesOf : List (Connective × Logic) → List String
  | [] => []
  | (c, next) :: rest => " " :: c.render :: " " :: pieces next ++ ")" :: piecesOf rest

end

/-- The text of an expression, with every step of a chain in parentheses. -/
def render (e : Logic) : String := String.join e.pieces

instance : ToString Logic := ⟨render⟩

mutual

def printedDepth : Logic → Nat
  | .rule _ => 0
  | .chain first rest => max (rest.length + printedDepth first) (printedDepthOf rest)

/-- How deep they stand in the further terms of a chain: before the `i`-th last of them, `i`
parentheses are open. -/
def printedDepthOf : List (Connective × Logic) → Nat
  | [] => 0
  | (_, next) :: rest => max (rest.length + 1 + printedDepth next) (printedDepthOf rest)

end

/-! ## Laws of appending -/

/-- The further terms can be cut in two: what the first of them amount to stands before the others.
-/
theorem evaluateFrom_append (verdict : String → Bool) (left : Bool)
    (xs ys : List (Connective × Logic)) :
    evaluateFrom verdict left (xs ++ ys)
      = evaluateFrom verdict (evaluateFrom verdict left xs) ys := by
  induction xs generalizing left with
  | nil => rfl
  | cons x xs ih =>
    obtain ⟨c, next⟩ := x
    cases c <;> simp [evaluateFrom, ih]

/-- Appending combines the values of the two sides, whatever shape the first one has. -/
theorem evaluate_link (verdict : String → Bool) (e : Logic) (c : Connective) (next : Logic) :
    (e.link c next).evaluate verdict = c.combine (e.evaluate verdict) (next.evaluate verdict) := by
  cases e <;> cases c <;>
    simp [link, evaluate, evaluateFrom, evaluateFrom_append, Connective.combine]

theorem ruleIdsOf_append (xs ys : List (Connective × Logic)) :
    ruleIdsOf (xs ++ ys) = ruleIdsOf xs ++ ruleIdsOf ys := by
  induction xs with
  | nil => rfl
  | cons x xs ih => simp [ruleIdsOf, ih]

/-- The rules of an appended term come behind those that are there. -/
theorem ruleIds_link (e : Logic) (c : Connective) (next : Logic) :
    (e.link c next).ruleIds = e.ruleIds ++ next.ruleIds := by
  cases e <;> simp [link, ruleIds, ruleIdsOf, ruleIdsOf_append]

end Logic

end Screening
