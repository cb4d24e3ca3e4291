import Screening.Proofs.Logic.Agreement
import Screening.Proofs.Logic.Grammar

/-!
# The reader accepts exactly the grammar

The reader holds what stands before each open parenthesis and closes it later, so in the middle of a
text it has no derivation yet. What it has is a demand on the tokens to come: they must go on with
further terms, close the innermost parenthesis, go on behind it, and so forth until the outermost
expression ends. `Completes` is this demand. The reader succeeds behind a term exactly when the
remaining tokens meet it (`afterTerm_eq_ok_iff`), and where a term must come exactly when they are a
term and then meet it (`expectTerm_eq_ok_iff`).

With nothing open that is the grammar: `parse_eq_ok_iff`. What is refused is refused for its depth
(`parse_eq_tooDeep_iff`) or else for a misplaced token (`parse_eq_misplaced_iff`).
-/

namespace Screening.Logic

variable {outer : List Before} {before : Before} {e r : Logic} {ts : List Token}

/-! ## What open parentheses demand -/

/-- Behind the expression `e`, in the parentheses that `outer` tells of, the tokens complete the
text and make it mean the last argument. -/
def Completes : List Before → Logic → List Token → Logic → Prop
  | [], e, ts, r => ∃ rest, ts = Phrase.tokensOf rest ∧ r = Phrase.linkAll e rest
  | before :: outer, e, ts, r => ∃ rest ts', ts = Phrase.tokensOf rest ++ .closing :: ts' ∧
      Completes outer (before.add (Phrase.linkAll e rest)).toLogic ts' r

/-- Nothing is missing behind an expression outside all parentheses. -/
theorem completes_nil : Completes outer e [] r ↔ outer = [] ∧ r = e := by
  cases outer with
  | nil =>
    constructor
    · rintro ⟨_ | ⟨next, rest⟩, h, rfl⟩
      · exact ⟨rfl, rfl⟩
      · simp [Phrase.tokensOf] at h
    · rintro ⟨-, rfl⟩
      exact ⟨[], rfl, rfl⟩
  | cons before outer => simp [Completes]

/-- A connective calls for a term, which is appended. -/
theorem completes_connective {c : Connective} :
    Completes outer e (.connective c :: ts) r ↔
      ∃ p ts', ts = Phrase.tokens p ++ ts' ∧ Completes outer (e.link c p.toLogic) ts' r := by
  cases outer with
  | nil =>
    constructor
    · rintro ⟨_ | ⟨⟨c', next⟩, rest⟩, h, rfl⟩
      · simp [Phrase.tokensOf] at h
      · obtain ⟨rfl, rfl⟩ : c = c' ∧ ts = _ := by simpa [Phrase.tokensOf] using h
        exact ⟨next, _, rfl, rest, rfl, rfl⟩
    · rintro ⟨p, _, rfl, rest, rfl, rfl⟩
      exact ⟨(c, p) :: rest, rfl, rfl⟩
  | cons before outer =>
    constructor
    · rintro ⟨_ | ⟨⟨c', next⟩, rest⟩, ts', h, hc⟩
      · simp [Phrase.tokensOf] at h
      · obtain ⟨rfl, rfl⟩ : c = c' ∧ ts = _ := by simpa [Phrase.tokensOf] using h
        exact ⟨next, _, rfl, rest, ts', rfl, hc⟩
    · rintro ⟨p, _, rfl, rest, ts', rfl, hc⟩
      exact ⟨(c, p) :: rest, ts', by simp [Phrase.tokensOf], hc⟩

/-- A closing parenthesis ends the innermost group, if there is one. -/
theorem completes_closing : Completes (before :: outer) e (.closing :: ts) r ↔
    Completes outer (before.add e).toLogic ts r := by
  constructor
  · rintro ⟨_ | ⟨next, rest⟩, ts', h, hc⟩
    · obtain rfl : ts = ts' := by simpa [Phrase.tokensOf] using h
      exact hc
    · simp [Phrase.tokensOf] at h
  · intro hc
    exact ⟨[], ts, rfl, hc⟩

theorem not_completes_closing : ¬ Completes [] e (.closing :: ts) r := by
  rintro ⟨_ | ⟨next, rest⟩, h, -⟩ <;> simp [Phrase.tokensOf] at h

/-- Behind a term there is no other token. -/
theorem not_completes {t : Token} (hconnective : ∀ c, t ≠ .connective c) (hclosing : t ≠ .closing) :
    ¬ Completes outer e (t :: ts) r := by
  cases outer with
  | nil =>
    rintro ⟨_ | ⟨⟨c, next⟩, rest⟩, h, -⟩
    · simp [Phrase.tokensOf] at h
    · exact hconnective c (List.cons.inj h).1
  | cons before outer =>
    rintro ⟨_ | ⟨⟨c, next⟩, rest⟩, ts', h, -⟩
    · exact hclosing (List.cons.inj h).1
    · exact hconnective c (List.cons.inj h).1

/-! ## The reader meets the demand -/

mutual

/-- Where a term must come, the reader succeeds exactly when the tokens begin with a term and then
complete the text. -/
theorem expectTerm_eq_ok_iff {outer : List Before} {before : Before} {r : Logic}
    (ls : List Lexeme) :
    expectTerm outer before ls = .ok r ↔
      ∃ p ts, ls.map (·.token) = Phrase.tokens p ++ ts ∧
        Completes outer (before.add p.toLogic).toLogic ts r := by
  match ls with
  | [] =>
    constructor
    · intro h
      simp [expectTerm] at h
    · rintro ⟨p, ts, h, -⟩
      cases p <;> simp [Phrase.tokens] at h
  | ⟨.opening, start⟩ :: ls =>
    rw [expectTerm, expectTerm_eq_ok_iff ls]
    constructor
    · rintro ⟨first, _, hls, rest, ts, rfl, hc⟩
      -- The demand on the rest holds the closing parenthesis, so the group can be made whole.
      refine ⟨.group first rest, ts, ?_, ?_⟩
      · simp [Phrase.tokens, hls]
      · simpa [Phrase.toLogic, Before.add] using hc
    · rintro ⟨p, ts, hls, hc⟩
      cases p with
      | word id => simp [Phrase.tokens] at hls
      | group first rest =>
        refine ⟨first, Phrase.tokensOf rest ++ .closing :: ts, ?_, rest, ts, rfl, ?_⟩
        · simpa [Phrase.tokens] using hls
        · simpa [Phrase.toLogic, Before.add] using hc
  | ⟨.word id, start⟩ :: ls =>
    rw [expectTerm, afterTerm_eq_ok_iff ls]
    constructor
    · intro hc
      exact ⟨.word id, _, rfl, hc⟩
    · rintro ⟨p, ts, hls, hc⟩
      cases p with
      | word id' =>
        obtain ⟨rfl, rfl⟩ : id = id' ∧ _ = ts := by simpa [Phrase.tokens] using hls
        exact hc
      | group first rest => simp [Phrase.tokens] at hls
  | ⟨.closing, start⟩ :: ls | ⟨.connective c, start⟩ :: ls =>
    constructor
    · intro h
      simp [expectTerm] at h
    · rintro ⟨p, ts, h, -⟩
      cases p <;> simp [Phrase.tokens] at h

/-- Behind a term the reader succeeds exactly when the tokens complete the text. -/
theorem afterTerm_eq_ok_iff {outer : List Before} {terms : Terms} {r : Logic} (ls : List Lexeme) :
    afterTerm outer terms ls = .ok r ↔ Completes outer terms.toLogic (ls.map (·.token)) r := by
  match ls with
  | [] =>
    rw [List.map_nil, completes_nil]
    cases outer <;> simp [afterTerm, eq_comm]
  | ⟨.connective c, start⟩ :: ls =>
    rw [afterTerm, expectTerm_eq_ok_iff ls, List.map_cons, completes_connective]
    simp [Before.add]
  | ⟨.closing, start⟩ :: ls =>
    rw [List.map_cons]
    cases outer with
    | nil => simp [afterTerm, not_completes_closing]
    | cons before outer => rw [afterTerm, afterTerm_eq_ok_iff ls, completes_closing]
  | ⟨.opening, start⟩ :: ls | ⟨.word id, start⟩ :: ls =>
    rw [List.map_cons]
    simp [afterTerm, not_completes]

end

/-! ## Texts -/

/-- With nothing open, the tokens that can be read are those of an expression. -/
theorem expectTerm_lex_eq_ok_iff {text : String} {e : Logic} :
    expectTerm [] none (lex text) = .ok e ↔
      ∃ s : Sentence, s.tokens = tokens text ∧ s.toLogic = e := by
  rw [expectTerm_eq_ok_iff]
  constructor
  · rintro ⟨first, _, h, rest, rfl, rfl⟩
    refine ⟨⟨first, rest⟩, h.symm, ?_⟩
    simp [Sentence.toLogic, Phrase.linkAll_eq_foldl, Before.add]
  · rintro ⟨⟨first, rest⟩, h, rfl⟩
    refine ⟨first, Phrase.tokensOf rest, h.symm, rest, rfl, ?_⟩
    simp [Sentence.toLogic, Phrase.linkAll_eq_foldl, Before.add]

/-- A text is read if it nests within the limit and is derived, and then it means what its
derivation means. -/
theorem parse_eq_ok_iff {text : String} {e : Logic} :
    parse text = .ok e ↔
      nesting text ≤ nestingLimit ∧ ∃ s : Sentence, s.tokens = tokens text ∧ s.toLogic = e := by
  rw [← expectTerm_lex_eq_ok_iff]
  rcases Nat.lt_or_ge nestingLimit (nesting text) with h | h
  · simp [parse_of_tooDeep h, Nat.not_le.2 h]
  · cases hrun : expectTerm [] none (lex text) with
    | ok e' => simp [parse_of_expectTerm_eq_ok h hrun, h]
    | error m => simp [parse_of_expectTerm_eq_error h hrun]

/-- Connectives are whole words, in whatever case, and need no white space beside a group. -/
example : parse "1and OR(android and b)" =
    .ok (.chain (.rule "1and") [(.or, .chain (.rule "android") [(.and, .rule "b")])]) := rfl

/-- Too deep is what nests beyond the limit, whether it is an expression or not. -/
theorem parse_eq_tooDeep_iff {text : String} {depth limit : Nat} :
    parse text = .error (.tooDeep depth limit) ↔
      nestingLimit < nesting text ∧ depth = nesting text ∧ limit = nestingLimit := by
  rcases Nat.lt_or_ge nestingLimit (nesting text) with h | h
  · simp [parse_of_tooDeep h, h, eq_comm]
  · cases hrun : expectTerm [] none (lex text) with
    | ok e => simp [parse_of_expectTerm_eq_ok h hrun, Nat.not_lt.2 h]
    | error m => simp [parse_of_expectTerm_eq_error h hrun, Nat.not_lt.2 h]

/-- A text that is not too deep is refused at some place when no expression has its tokens. -/
theorem parse_eq_misplaced_iff {text : String} :
    (∃ place expected, parse text = .error (.misplaced text place expected)) ↔
      nesting text ≤ nestingLimit ∧ ¬ ∃ s : Sentence, s.tokens = tokens text := by
  have hderives : (∃ s : Sentence, s.tokens = tokens text) ↔
      ∃ e, expectTerm [] none (lex text) = .ok e := by
    simp only [expectTerm_lex_eq_ok_iff]
    exact ⟨fun ⟨s, hs⟩ ↦ ⟨_, s, hs, rfl⟩, fun ⟨_, s, hs, _⟩ ↦ ⟨s, hs⟩⟩
  rw [hderives]
  rcases Nat.lt_or_ge nestingLimit (nesting text) with h | h
  · simp [parse_of_tooDeep h, Nat.not_le.2 h]
  · cases hrun : expectTerm [] none (lex text) with
    | ok e => simp [parse_of_expectTerm_eq_ok h hrun]
    | error m => simp [parse_of_expectTerm_eq_error h hrun, h]

/-- The rules of an expression are the words of its text. -/
theorem ruleIds_of_parse {text : String} {e : Logic} (h : parse text = .ok e) :
    e.ruleIds = (tokens text).filterMap Token.word? := by
  obtain ⟨-, s, hs, rfl⟩ := parse_eq_ok_iff.1 h
  rw [s.ruleIds_toLogic, hs]

/-- What a text means hangs on its tokens alone. -/
theorem parse_eq_ok_iff_of_tokens_eq {text other : String} (h : tokens other = tokens text)
    (e : Logic) : parse other = .ok e ↔ parse text = .ok e := by
  rw [parse_eq_ok_iff, parse_eq_ok_iff, nesting_eq_depthFrom, nesting_eq_depthFrom, h]

/-- A text has the tokens that it falls into. It is read as an expression if these are the tokens of
one and its parentheses are not too deep; the expression is the meaning of its only derivation,
whose depth the nesting of the text is, and names the words of the text in order. Otherwise the text
is refused, either for its depth or for a misplaced token. Texts with the same tokens are read
alike, and so is a text by descent. -/
theorem parse_reads_grammar (text : String) :
    (∀ ts, Splits text.toList ts ↔ ts = tokens text) ∧
    (∀ e, parse text = .ok e ↔
      nesting text ≤ 64 ∧ ∃ s : Sentence, s.tokens = tokens text ∧ s.toLogic = e) ∧
    (∀ depth limit, parse text = .error (.tooDeep depth limit) ↔
      64 < nesting text ∧ depth = nesting text ∧ limit = 64) ∧
    ((∃ place expected, parse text = .error (.misplaced text place expected)) ↔
      nesting text ≤ 64 ∧ ¬ ∃ s : Sentence, s.tokens = tokens text) ∧
    (∀ s t : Sentence, s.tokens = tokens text → t.tokens = tokens text → s = t) ∧
    (∀ s : Sentence, s.tokens = tokens text → s.depth = nesting text) ∧
    (∀ e, parse text = .ok e → e.ruleIds = (tokens text).filterMap Token.word?) ∧
    (∀ other, tokens other = tokens text → ∀ e, parse other = .ok e ↔ parse text = .ok e) ∧
    descend text = parse text := by
  refine ⟨fun ts ↦ splits_iff, fun e ↦ parse_eq_ok_iff, fun depth limit ↦ parse_eq_tooDeep_iff,
    parse_eq_misplaced_iff, ?_, ?_, fun e ↦ ruleIds_of_parse, ?_, descend_eq_parse text⟩
  · intro s t hs ht
    exact Sentence.tokens_injective (hs.trans ht.symm)
  · intro s hs
    rw [nesting_eq_depthFrom, ← hs, s.depthFrom_tokens]
  · intro other h e
    exact parse_eq_ok_iff_of_tokens_eq h e

end Screening.Logic
