import Screening.Proofs.Logic.Monotone
import Screening.Proofs.Logic.Reading

/-!
# Working out from left to right

The reader appends a group that comes first to the chain around it, so an expression has other
groups than its text. Its value has not changed by that, since there is no precedence: a chain is
worked out from left to right, and so a group at its beginning comes first anyway. `valueOf` works a
text out on its tokens, strictly from left to right and without any expression, and goes into
parentheses only where they are written. By `valueOf_tokens` the two values agree.

For the same reason parentheses may be put around the first terms of an expression, or of one inside
it (`Parenthesizes`): the text is then read as the same expression.
-/

namespace Screening.Logic

/-! ## The value of tokens -/

mutual

/-- The value of the term that tokens begin with, and the number of its tokens. -/
def valueOfTerm (verdict : String → Bool) : List Token → Option (Bool × Nat)
  | .word id :: _ => some (verdict id, 1)
  | .opening :: ts => do
    let (value, taken) ← valueOfTerms verdict ts
    if ts[taken]? = some .closing then some (value, taken + 2) else none
  | _ => none
termination_by ts => 2 * ts.length

def valueOfTerms (verdict : String → Bool) (ts : List Token) : Option (Bool × Nat) := do
  let (value, taken) ← valueOfTerm verdict ts
  valueFrom verdict value taken (ts.drop taken)
termination_by 2 * ts.length + 1

/-- The value of the terms that follow, after `taken` tokens that have the value `left`. -/
def valueFrom (verdict : String → Bool) (left : Bool) (taken : Nat) :
    List Token → Option (Bool × Nat)
  | .connective c :: ts => do
    let (right, more) ← valueOfTerm verdict ts
    valueFrom verdict (c.combine left right) (taken + more + 1) (ts.drop more)
  | _ => some (left, taken)
termination_by ts => 2 * ts.length

end

def valueOf (verdict : String → Bool) (ts : List Token) : Option Bool := do
  let (value, taken) ← valueOfTerms verdict ts
  if taken = ts.length then some value else none

variable {f : String → Bool} {xs ts : List Token} {value : Bool}

/-- Tokens behind a first term are worked out as further terms of it. -/
theorem valueOfTerms_append (h : valueOfTerm f (xs ++ ts) = some (value, xs.length)) :
    valueOfTerms f (xs ++ ts) = valueFrom f value xs.length ts := by
  rw [valueOfTerms, h]
  exact congrArg (valueFrom f value xs.length) List.drop_left

/-- Parentheses add two tokens and leave the value alone. -/
theorem valueOfTerm_group
    (h : valueOfTerms f (xs ++ .closing :: ts) = some (value, xs.length)) :
    valueOfTerm f (.opening :: (xs ++ .closing :: ts)) = some (value, xs.length + 2) := by
  have hclosing : (xs ++ .closing :: ts)[xs.length]? = some .closing := by simp
  rw [valueOfTerm, h]
  exact if_pos hclosing

/-- A connective combines what stands before it with the next term. -/
theorem valueFrom_connective {c : Connective} {left : Bool} {taken : Nat}
    (h : valueOfTerm f (xs ++ ts) = some (value, xs.length)) :
    valueFrom f left taken (.connective c :: (xs ++ ts))
      = valueFrom f (c.combine left value) (taken + xs.length + 1) ts := by
  rw [valueFrom, h]
  exact congrArg (valueFrom f (c.combine left value) (taken + xs.length + 1)) List.drop_left

theorem valueFrom_stops {left : Bool} {taken : Nat} (h : ∀ c, ts.head? ≠ some (.connective c)) :
    valueFrom f left taken ts = some (left, taken) := by
  rw [valueFrom.eq_2]
  rintro c ts rfl
  exact h c rfl

mutual

/-- A term has the value of its expression, whatever comes behind it. -/
theorem valueOfTerm_tokens (p : Phrase) (ts : List Token) :
    valueOfTerm f (p.tokens ++ ts) = some (p.toLogic.evaluate f, p.tokens.length) := by
  match p with
  | .word id =>
    rw [Phrase.tokens, List.singleton_append, valueOfTerm]
    rfl
  | .group first rest =>
    have hfirst := valueOfTerms_append
      (valueOfTerm_tokens first (Phrase.tokensOf rest ++ .closing :: ts))
    rw [valueFrom_tokensOf rest first.toLogic first.tokens.length (by simp),
      ← List.append_assoc, ← List.length_append] at hfirst
    simpa [Phrase.tokens, Phrase.toLogic, Nat.add_assoc] using valueOfTerm_group hfirst

/-- Further terms are worked out from left to right, up to where no connective follows. -/
theorem valueFrom_tokensOf (rest : List (Connective × Phrase)) (e : Logic) (taken : Nat)
    {ts : List Token} (hts : ∀ c, ts.head? ≠ some (.connective c)) :
    valueFrom f (e.evaluate f) taken (Phrase.tokensOf rest ++ ts)
      = some ((Phrase.linkAll e rest).evaluate f, taken + (Phrase.tokensOf rest).length) := by
  match rest with
  | [] => exact valueFrom_stops hts
  | (c, next) :: rest =>
    rw [Phrase.tokensOf, List.cons_append, List.append_assoc,
      valueFrom_connective (valueOfTerm_tokens next _), ← evaluate_link,
      valueFrom_tokensOf rest _ _ hts, Phrase.linkAll]
    simp [Nat.add_assoc, Nat.add_comm, Nat.add_left_comm]

end

namespace Sentence

/-- An expression is worth the same on its tokens. -/
theorem valueOf_tokens (s : Sentence) : valueOf f s.tokens = some (s.toLogic.evaluate f) := by
  have hterms : valueOfTerms f s.tokens
      = some ((Phrase.linkAll s.first.toLogic s.rest).evaluate f, s.tokens.length) := by
    rw [tokens, valueOfTerms_append (valueOfTerm_tokens s.first _),
      ← List.append_nil (Phrase.tokensOf s.rest), valueFrom_tokensOf s.rest _ _ (by simp)]
    simp
  rw [valueOf, hterms, toLogic, ← Phrase.linkAll_eq_foldl]
  exact if_pos rfl

end Sentence

/-! ## Parentheses around first terms -/

namespace Phrase

theorem tokensOf_append (xs ys : List (Connective × Phrase)) :
    tokensOf (xs ++ ys) = tokensOf xs ++ tokensOf ys := by
  induction xs with
  | nil => rfl
  | cons x xs ih => simp [tokensOf, ih]

/-- The term that an expression is in parentheses. -/
def ofSentence (s : Sentence) : Phrase := .group s.first s.rest

@[simp] theorem tokens_ofSentence (s : Sentence) :
    (ofSentence s).tokens = .opening :: (s.tokens ++ [.closing]) := rfl

@[simp] theorem toLogic_ofSentence (s : Sentence) : (ofSentence s).toLogic = s.toLogic := by
  rw [ofSentence, toLogic, linkAll_eq_foldl, Sentence.toLogic]

end Phrase

/-- The second expression is the first one with parentheses around its first terms, or around those
of an expression inside it. -/
inductive Parenthesizes : Sentence → Sentence → Prop
  | here (first : Phrase) (terms rest : List (Connective × Phrase)) :
    Parenthesizes ⟨first, terms ++ rest⟩ ⟨.group first terms, rest⟩
  | first {s t : Sentence} (rest : List (Connective × Phrase)) : Parenthesizes s t →
    Parenthesizes ⟨.ofSentence s, rest⟩ ⟨.ofSentence t, rest⟩
  | later {s t : Sentence} (first : Phrase) (before : List (Connective × Phrase)) (c : Connective)
    (after : List (Connective × Phrase)) : Parenthesizes s t →
    Parenthesizes ⟨first, before ++ (c, .ofSentence s) :: after⟩
      ⟨first, before ++ (c, .ofSentence t) :: after⟩

namespace Parenthesizes

variable {s t : Sentence}

/-- More parentheses around first terms change nothing of the expression. -/
theorem toLogic_eq (h : Parenthesizes s t) : t.toLogic = s.toLogic := by
  induction h with
  | here first terms rest =>
    simp only [Sentence.toLogic, Phrase.toLogic, Phrase.linkAll_eq_foldl, List.foldl_append]
  | first rest _ ih =>
    rw [Sentence.toLogic, Sentence.toLogic, Phrase.toLogic_ofSentence, Phrase.toLogic_ofSentence,
      ih]
  | later first before c after _ ih =>
    rw [Sentence.toLogic, Sentence.toLogic]
    simp only [List.foldl_append, List.foldl_cons, Phrase.toLogic_ofSentence, ih]

/-- One more pair of parentheses stands among the tokens. -/
theorem tokens_eq (h : Parenthesizes s t) : ∃ before terms after : List Token,
    s.tokens = before ++ (terms ++ after) ∧
      t.tokens = before ++ .opening :: (terms ++ .closing :: after) := by
  induction h with
  | here first terms rest =>
    refine ⟨[], first.tokens ++ Phrase.tokensOf terms, Phrase.tokensOf rest, ?_, ?_⟩
    · simp [Sentence.tokens, Phrase.tokensOf_append]
    · simp [Sentence.tokens, Phrase.tokens]
  | first rest _ ih =>
    obtain ⟨before, terms, after, hs, ht⟩ := ih
    refine ⟨.opening :: before, terms, after ++ .closing :: Phrase.tokensOf rest, ?_, ?_⟩
    · rw [Sentence.tokens]
      simp [hs]
    · rw [Sentence.tokens]
      simp [ht]
  | later first xs c ys _ ih =>
    obtain ⟨before, terms, after, hs, ht⟩ := ih
    refine ⟨first.tokens ++ Phrase.tokensOf xs ++ .connective c :: .opening :: before, terms,
      after ++ .closing :: Phrase.tokensOf ys, ?_, ?_⟩
    · rw [Sentence.tokens, Phrase.tokensOf_append]
      simp [hs, Phrase.tokensOf]
    · rw [Sentence.tokens, Phrase.tokensOf_append]
      simp [ht, Phrase.tokensOf]

end Parenthesizes

/-! ## Texts -/

/-- Appending combines the values and joins the rules, whatever the two expressions are like. Hence
an expression that was read has the value that its text has from left to right. And the text has a
derivation of which the first terms of any expression can be put in parentheses: every text with
these tokens is read as the same expression, if its parentheses are not too deep. -/
theorem parse_folds :
    (∀ (e next : Logic) (c : Connective),
      (∀ verdict, (e.link c next).evaluate verdict
        = c.combine (e.evaluate verdict) (next.evaluate verdict)) ∧
      (e.link c next).ruleIds = e.ruleIds ++ next.ruleIds) ∧
    ∀ text e, parse text = .ok e →
      (∀ verdict, valueOf verdict (tokens text) = some (e.evaluate verdict)) ∧
      ∃ s : Sentence, s.tokens = tokens text ∧ ∀ t, Parenthesizes s t →
        (∃ before terms after, tokens text = before ++ (terms ++ after) ∧
          t.tokens = before ++ .opening :: (terms ++ .closing :: after)) ∧
        ∀ other, tokens other = t.tokens → nesting other ≤ 64 → parse other = .ok e := by
  refine ⟨fun e next c ↦ ⟨fun verdict ↦ evaluate_link .., ruleIds_link ..⟩, ?_⟩
  intro text e h
  obtain ⟨-, s, hs, rfl⟩ := parse_eq_ok_iff.1 h
  rw [← hs]
  refine ⟨fun verdict ↦ s.valueOf_tokens, s, rfl, fun t ht ↦ ⟨ht.tokens_eq, ?_⟩⟩
  intro other hother hnesting
  exact parse_eq_ok_iff.2 ⟨hnesting, t, hother.symm, ht.toLogic_eq⟩

/-- Where only the first of these rules holds, the last one decides, as there is no precedence. The
parentheses around the first terms of the group change nothing. -/
theorem parse_folds_group :
    parse "a or (b and c or d) AND e" = .ok
      (.chain (.rule "a") [
        (.or, .chain (.rule "b") [(.and, .rule "c"), (.or, .rule "d")]),
        (.and, .rule "e")]) ∧
    valueOf (· == "a") (tokens "a or (b and c or d) AND e") = some false ∧
    parse "a or ((b and c) or d) and e" = .ok
      (.chain (.rule "a") [
        (.or, .chain (.rule "b") [(.and, .rule "c"), (.or, .rule "d")]),
        (.and, .rule "e")]) := by
  have hread : parse "a or (b and c or d) AND e" = .ok
      (.chain (.rule "a") [
        (.or, .chain (.rule "b") [(.and, .rule "c"), (.or, .rule "d")]),
        (.and, .rule "e")]) := rfl
  obtain ⟨hvalue, s, hs, hsame⟩ := parse_folds.2 _ _ hread
  let group : Sentence := ⟨.word "b", [(.and, .word "c")] ++ [(.or, .word "d")]⟩
  obtain rfl : s = ⟨.word "a", [] ++ (.or, .ofSentence group) :: [(.and, .word "e")]⟩ :=
    Sentence.tokens_injective (hs.trans rfl)
  obtain ⟨-, hother⟩ := hsame _ (.later _ _ _ _ (.here _ _ _))
  refine ⟨hread, hvalue _, hother _ rfl (by decide)⟩

end Screening.Logic
