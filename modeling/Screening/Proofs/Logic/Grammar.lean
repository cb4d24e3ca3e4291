import Screening.Proofs.Logic.Splitting

/-!
# The grammar of logic texts

    expression := term ((and | or) term)*
    term       := '(' expression ')' | word

A `Phrase` is a derivation from `term`, a `Sentence` one from `expression`. A derivation has the
tokens that it derives, the expression that they mean and a depth, which is the greatest number of
its parentheses inside one another.

The grammar is unambiguous: no term is a proper beginning of another one, and the further terms of
an expression end where no connective follows. Hence tokens have one derivation at most
(`Sentence.tokens_injective`). Its depth is the nesting of its tokens
(`Sentence.depthFrom_tokens`).
-/

namespace Screening.Logic

/-! ## Derivations -/

/-- A derivation of a term: a word, or a first term and further ones, each with the connective
before it, in parentheses. -/
inductive Phrase where
  | word (id : String)
  | group (first : Phrase) (rest : List (Connective × Phrase))

structure Sentence where
  first : Phrase
  rest : List (Connective × Phrase)

namespace Phrase

mutual

def tokens : Phrase → List Token
  | .word id => [.word id]
  | .group first rest => .opening :: (tokens first ++ tokensOf rest ++ [.closing])

def tokensOf : List (Connective × Phrase) → List Token
  | [] => []
  | (c, next) :: rest => .connective c :: (tokens next ++ tokensOf rest)

end

mutual

def toLogic : Phrase → Logic
  | .word id => .rule id
  | .group first rest => linkAll (toLogic first) rest

def linkAll (e : Logic) : List (Connective × Phrase) → Logic
  | [] => e
  | (c, next) :: rest => linkAll (e.link c (toLogic next)) rest

end

mutual

/-- How many parentheses stand inside one another in a term. -/
def depth : Phrase → Nat
  | .word _ => 0
  | .group first rest => max (depth first) (depthOf rest) + 1

def depthOf : List (Connective × Phrase) → Nat
  | [] => 0
  | (_, next) :: rest => max (depth next) (depthOf rest)

end

theorem linkAll_eq_foldl (e : Logic) (rest : List (Connective × Phrase)) :
    linkAll e rest = rest.foldl (fun e next ↦ e.link next.1 next.2.toLogic) e := by
  induction rest generalizing e with
  | nil => rfl
  | cons next rest ih => rw [linkAll, ih, List.foldl_cons]

/-! ## Tokens have one derivation at most -/

mutual

/-- A term is no proper beginning of another one. -/
theorem eq_of_tokens_append {p q : Phrase} {ts us : List Token}
    (h : p.tokens ++ ts = q.tokens ++ us) : p = q ∧ ts = us := by
  match p, q with
  | .word id, .word id' => simpa [tokens] using h
  | .word id, .group first rest => simp [tokens] at h
  | .group first rest, .word id => simp [tokens] at h
  | .group first rest, .group first' rest' =>
    simp only [tokens, List.cons_append, List.append_assoc, List.cons.injEq, true_and] at h
    obtain ⟨rfl, hrest⟩ := eq_of_tokens_append h
    have hclosing : ∀ (c : Connective) (ts : List Token),
        (Token.closing :: ts).head? ≠ some (.connective c) := by simp
    obtain ⟨rfl, hts⟩ := eq_of_tokensOf_append (hclosing · _) (hclosing · _) hrest
    exact ⟨rfl, by simpa using hts⟩

/-- Further terms end where no connective follows. -/
theorem eq_of_tokensOf_append {xs ys : List (Connective × Phrase)} {ts us : List Token}
    (hts : ∀ c, ts.head? ≠ some (.connective c)) (hus : ∀ c, us.head? ≠ some (.connective c))
    (h : tokensOf xs ++ ts = tokensOf ys ++ us) : xs = ys ∧ ts = us := by
  match xs, ys with
  | [], [] => exact ⟨rfl, h⟩
  | [], (c, next) :: rest =>
    simp only [tokensOf, List.nil_append, List.cons_append] at h
    exact absurd (by rw [h]; rfl) (hts c)
  | (c, next) :: rest, [] =>
    simp only [tokensOf, List.nil_append, List.cons_append] at h
    exact absurd (by rw [← h]; rfl) (hus c)
  | (c, next) :: rest, (c', next') :: rest' =>
    simp only [tokensOf, List.cons_append, List.append_assoc, List.cons.injEq,
      Token.connective.injEq] at h
    obtain ⟨rfl, hnext⟩ := h
    obtain ⟨rfl, hrest⟩ := eq_of_tokens_append hnext
    obtain ⟨rfl, hts⟩ := eq_of_tokensOf_append hts hus hrest
    exact ⟨rfl, hts⟩

end

/-! ## Depth is nesting -/

mutual

/-- A term leaves as many parentheses open as it found. -/
theorem depthFrom_tokens (p : Phrase) {opened deepest : Nat} (h : opened ≤ deepest)
    (ts : List Token) :
    depthFrom opened deepest (p.tokens ++ ts)
      = depthFrom opened (max deepest (opened + p.depth)) ts := by
  match p with
  | .word id => simp [tokens, depthFrom, depth, h]
  | .group first rest =>
    simp only [tokens, List.cons_append, List.append_assoc, depthFrom]
    rw [depthFrom_tokens first (by omega), depthFrom_tokensOf rest (by omega), List.nil_append,
      depthFrom, depth]
    congr 1
    omega

theorem depthFrom_tokensOf (xs : List (Connective × Phrase)) {opened deepest : Nat}
    (h : opened ≤ deepest) (ts : List Token) :
    depthFrom opened deepest (tokensOf xs ++ ts)
      = depthFrom opened (max deepest (opened + depthOf xs)) ts := by
  match xs with
  | [] => simp [tokensOf, depthOf, h]
  | (c, next) :: rest =>
    simp only [tokensOf, List.cons_append, List.append_assoc, depthFrom]
    rw [depthFrom_tokens next h, depthFrom_tokensOf rest (by omega), depthOf]
    congr 1
    omega

end

/-! ## The words of a derivation -/

mutual

/-- The rules that a term names are its words. -/
theorem ruleIds_toLogic (p : Phrase) : p.toLogic.ruleIds = p.tokens.filterMap Token.word? := by
  match p with
  | .word id => rfl
  | .group first rest =>
    simp [toLogic, tokens, ruleIds_linkAll, ruleIds_toLogic first, List.filterMap_cons, Token.word?]

theorem ruleIds_linkAll (e : Logic) (rest : List (Connective × Phrase)) :
    (linkAll e rest).ruleIds = e.ruleIds ++ (tokensOf rest).filterMap Token.word? := by
  match rest with
  | [] => simp [linkAll, tokensOf]
  | (c, next) :: rest =>
    simp [linkAll, tokensOf, ruleIds_linkAll, ruleIds_link, ruleIds_toLogic next,
      List.filterMap_cons, Token.word?]

end

end Phrase

namespace Sentence

def tokens (s : Sentence) : List Token := s.first.tokens ++ Phrase.tokensOf s.rest

/-- The meaning of an expression: its terms, linked from left to right. -/
def toLogic (s : Sentence) : Logic :=
  s.rest.foldl (fun e next ↦ e.link next.1 next.2.toLogic) s.first.toLogic

def depth (s : Sentence) : Nat := max s.first.depth (Phrase.depthOf s.rest)

/-- No two derivations have the same tokens. -/
theorem tokens_injective {s t : Sentence} (h : s.tokens = t.tokens) : s = t := by
  obtain ⟨p, xs⟩ := s
  obtain ⟨q, ys⟩ := t
  obtain ⟨rfl, h⟩ := Phrase.eq_of_tokens_append (show p.tokens ++ _ = q.tokens ++ _ from h)
  have hnil : ∀ c, ([] : List Token).head? ≠ some (.connective c) := by simp
  obtain ⟨rfl, -⟩ := Phrase.eq_of_tokensOf_append hnil hnil (congrArg (· ++ []) h)
  rfl

/-- Among the tokens of a derivation the parentheses stand as deep as in the derivation. -/
theorem depthFrom_tokens (s : Sentence) : depthFrom 0 0 s.tokens = s.depth := by
  rw [tokens, Phrase.depthFrom_tokens s.first (Nat.le_refl 0),
    ← List.append_nil (Phrase.tokensOf s.rest), Phrase.depthFrom_tokensOf s.rest (Nat.zero_le _)]
  simp [depthFrom, depth]

/-- An expression names the words of its text, in order and as often as they come. -/
theorem ruleIds_toLogic (s : Sentence) : s.toLogic.ruleIds = s.tokens.filterMap Token.word? := by
  rw [toLogic, ← Phrase.linkAll_eq_foldl, Phrase.ruleIds_linkAll, Phrase.ruleIds_toLogic, tokens,
    List.filterMap_append]

end Sentence

end Screening.Logic
