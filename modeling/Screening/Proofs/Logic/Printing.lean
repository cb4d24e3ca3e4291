import Screening.Proofs.Logic.Reading

/-!
# Printing expressions

The text of an expression has every step of a chain in parentheses, although the reader would not
need them: it appends a leading group to the chain around it. So the derivation of the text
(`printed`) has groups of two terms only, one inside the other, and yet it means the expression
again if every chain in that begins with a rule and goes on (`Regular`). Expressions that were read
are like this, and so are all that are built by appending (`Built`).

A chain costs as many parentheses as it has further terms. The depth of the text is `printedDepth`,
and once that is beyond the limit the reader refuses what the printer wrote.
-/

namespace Screening.Logic

/-! ## Expressions that are read or built -/

/-- A text can name a rule: it is a word, and no connective. -/
structure Names (id : String) : Prop where
  ne_nil : id.toList ≠ []
  all_word : ∀ c ∈ id.toList, isWordChar c = true
  not_spells : ∀ c, ¬ Spells id.toList c

/-- An expression is built of rules by appending. -/
inductive Built : Logic → Prop
  | rule {id : String} : Names id → Built (.rule id)
  | link {e next : Logic} (c : Connective) : Built e → Built next → Built (e.link c next)

/-- Every chain in an expression has a rule for its first term and at least one further term. -/
inductive Regular : Logic → Prop
  | rule {id : String} : Names id → Regular (.rule id)
  | chain {id : String} {rest : List (Connective × Logic)} : Names id → rest ≠ [] →
      (∀ next ∈ rest, Regular next.2) → Regular (.chain (.rule id) rest)

/-- Appending keeps an expression regular. -/
theorem Regular.link {e next : Logic} (c : Connective) (he : Regular e) (hnext : Regular next) :
    Regular (e.link c next) := by
  cases he with
  | rule hid => exact .chain hid (by simp) (by simpa using hnext)
  | chain hid hne hrest =>
    refine .chain hid (by simp) fun last hlast ↦ ?_
    rcases List.mem_append.1 hlast with h | h
    · exact hrest last h
    · obtain rfl := List.mem_singleton.1 h
      exact hnext

/-- What is built by appending is regular. -/
theorem Built.regular {e : Logic} (h : Built e) : Regular e := by
  induction h with
  | rule hid => exact .rule hid
  | link c _ _ he hnext => exact he.link c hnext

/-- The words of a text are runs of characters and no connectives. -/
theorem Splits.names {cs : List Char} {ts : List Token} (h : Splits cs ts) {id : String}
    (hid : .word id ∈ ts) : Names id := by
  induction h with
  | nil => cases hid
  | blank _ _ ih => exact ih hid
  | opening _ ih | closing _ ih => exact ih (by simpa using hid)
  | connective _ _ _ ih => exact ih (by simpa using hid)
  | word hrun hspells _ ih =>
    rcases List.mem_cons.1 hid with heq | hmem
    · obtain rfl := Token.word.inj heq
      exact ⟨by simpa using hrun.ne_nil, by simpa using hrun.all_word, by simpa using hspells⟩
    · exact ih hmem

mutual

/-- A term whose words name rules means a built expression. -/
theorem Phrase.built_toLogic (p : Phrase) (h : ∀ id, .word id ∈ p.tokens → Names id) :
    Built p.toLogic := by
  match p with
  | .word id => exact .rule (h id (List.mem_singleton.2 rfl))
  | .group first rest =>
    refine Phrase.built_linkAll rest (Phrase.built_toLogic first fun id hid ↦ h id ?_)
      fun id hid ↦ h id ?_
    · simp [Phrase.tokens, hid]
    · simp [Phrase.tokens, hid]

theorem Phrase.built_linkAll (rest : List (Connective × Phrase)) {e : Logic} (he : Built e)
    (h : ∀ id, .word id ∈ Phrase.tokensOf rest → Names id) : Built (Phrase.linkAll e rest) := by
  match rest with
  | [] => exact he
  | (c, next) :: rest =>
    refine Phrase.built_linkAll rest (.link c he (Phrase.built_toLogic next fun id hid ↦ h id ?_))
      fun id hid ↦ h id ?_
    · simp [Phrase.tokensOf, hid]
    · simp [Phrase.tokensOf, hid]

end

/-- What is read was built. -/
theorem built_of_parse {text : String} {e : Logic} (h : parse text = .ok e) : Built e := by
  obtain ⟨-, s, hs, rfl⟩ := parse_eq_ok_iff.1 h
  have hnames : ∀ id, .word id ∈ s.tokens → Names id := by
    rw [hs]
    exact fun id hid ↦ (splits_iff.2 rfl).names hid
  rw [Sentence.toLogic, ← Phrase.linkAll_eq_foldl]
  refine Phrase.built_linkAll s.rest (Phrase.built_toLogic s.first fun id hid ↦ hnames id ?_)
    fun id hid ↦ hnames id ?_
  · exact List.mem_append_left _ hid
  · exact List.mem_append_right _ hid

/-! ## The derivation of the text -/

mutual

def printed : Logic → Phrase
  | .rule id => .word id
  | .chain first rest => printedAround (printed first) rest

/-- The derivation of the text of a chain: each further term closes a group around what stands
before it. -/
def printedAround (p : Phrase) : List (Connective × Logic) → Phrase
  | [] => p
  | (c, next) :: rest => printedAround (.group p [(c, printed next)]) rest

end

mutual

def printedTokens : Logic → List Token
  | .rule id => [.word id]
  | .chain first rest =>
    List.replicate rest.length .opening ++ (printedTokens first ++ printedTokensOf rest)

def printedTokensOf : List (Connective × Logic) → List Token
  | [] => []
  | (c, next) :: rest =>
    .connective c :: (printedTokens next ++ .closing :: printedTokensOf rest)

end

mutual

theorem tokens_printed (e : Logic) : (printed e).tokens = printedTokens e := by
  match e with
  | .rule id => rfl
  | .chain first rest =>
    rw [printed, tokens_printedAround, tokens_printed first, printedTokens]

theorem tokens_printedAround (p : Phrase) (rest : List (Connective × Logic)) :
    (printedAround p rest).tokens
      = List.replicate rest.length .opening ++ (p.tokens ++ printedTokensOf rest) := by
  match rest with
  | [] => simp [printedAround, printedTokensOf]
  | (c, next) :: rest =>
    rw [printedAround, tokens_printedAround, Phrase.tokens, Phrase.tokensOf, Phrase.tokensOf,
      tokens_printed next, printedTokensOf, List.length_cons, List.replicate_succ']
    simp

end

mutual

/-- Its parentheses stand as deep as the formula tells. -/
theorem depth_printed (e : Logic) : (printed e).depth = e.printedDepth := by
  match e with
  | .rule id => rfl
  | .chain first rest =>
    rw [printed, depth_printedAround, depth_printed first, printedDepth]

theorem depth_printedAround (p : Phrase) (rest : List (Connective × Logic)) :
    (printedAround p rest).depth = max (rest.length + p.depth) (printedDepthOf rest) := by
  match rest with
  | [] => simp [printedAround, printedDepthOf]
  | (c, next) :: rest =>
    rw [printedAround, depth_printedAround, Phrase.depth, Phrase.depthOf, Phrase.depthOf,
      depth_printed next, printedDepthOf, List.length_cons]
    omega

end

theorem foldl_link_chain (first : Logic) (xs rest : List (Connective × Logic)) :
    rest.foldl (fun e next ↦ link e next.1 next.2) (.chain first xs)
      = .chain first (xs ++ rest) := by
  induction rest generalizing xs with
  | nil => rw [List.append_nil, List.foldl_nil]
  | cons next rest ih => rw [List.foldl_cons, link, ih, List.append_assoc, List.singleton_append]

/-- A group around all that stands before a further term means that the term is appended. -/
theorem toLogic_printedAround (p : Phrase) {rest : List (Connective × Logic)}
    (h : ∀ next ∈ rest, (printed next.2).toLogic = next.2) :
    (printedAround p rest).toLogic = rest.foldl (fun e next ↦ link e next.1 next.2) p.toLogic := by
  induction rest generalizing p with
  | nil => rfl
  | cons next rest ih =>
    rw [printedAround, ih _ fun other hother ↦ h other (List.mem_cons_of_mem _ hother),
      List.foldl_cons, Phrase.toLogic, Phrase.linkAll, Phrase.linkAll, h next List.mem_cons_self]

/-- The text of a regular expression means the expression. -/
theorem Regular.toLogic_printed {e : Logic} (h : Regular e) : (printed e).toLogic = e := by
  induction h with
  | rule _ => rfl
  | @chain id rest _ hne _ ih =>
    obtain ⟨⟨c, next⟩, rest, rfl⟩ := List.exists_cons_of_ne_nil hne
    rw [printed, toLogic_printedAround _ ih]
    exact foldl_link_chain (.rule id) [(c, next)] rest

/-! ## The text and its tokens -/

/-- A word that names a rule is a token where no word goes on. -/
theorem Names.splits {id : String} (h : Names id) {cs : List Char} {ts : List Token}
    (hstops : ∀ c ∈ cs.head?, isWordChar c = false) (hcs : Splits cs ts) :
    Splits (id.toList ++ cs) (.word id :: ts) := by
  have hrun : IsRun id.toList cs := ⟨h.ne_nil, h.all_word, hstops⟩
  simpa using Splits.word hrun h.not_spells hcs

/-- Opening parentheses in front of a text are tokens in front of its tokens. -/
theorem Splits.openings {cs : List Char} {ts : List Token} (h : Splits cs ts) (n : Nat) :
    Splits (List.replicate n '(' ++ cs) (List.replicate n .opening ++ ts) := by
  induction n with
  | zero => exact h
  | succ n ih => exact .opening ih

/-- A connective between spaces is a token. -/
theorem Splits.spaced {cs : List Char} {ts : List Token} (h : Splits cs ts) (c : Connective) :
    Splits (' ' :: (c.render.toList ++ ' ' :: cs)) (.connective c :: ts) := by
  have hspace : Text.isBlank ' ' = true := by decide
  have hrun : IsRun c.render.toList (' ' :: cs) := by
    refine ⟨?_, ?_, by simpa using isWordChar_of_isBlank hspace⟩
    · cases c <;> decide
    · exact List.all_eq_true.1 (by cases c <;> decide)
  have hspells : Spells c.render.toList c := by cases c <;> rw [Spells] <;> decide
  exact .blank hspace (.connective hrun hspells (.blank hspace h))

/-- No word goes on where further terms come or where it would not go on anyway. -/
theorem stops_piecesOf (rest : List (Connective × Logic)) {cs : List Char}
    (hstops : ∀ c ∈ cs.head?, isWordChar c = false) :
    ∀ c ∈ ((piecesOf rest).flatMap String.toList ++ cs).head?, isWordChar c = false := by
  cases rest with
  | nil => exact hstops
  | cons next rest =>
    rintro c ⟨⟩
    exact isWordChar_of_isBlank (by decide)

theorem splits_piecesOf {rest : List (Connective × Logic)}
    (hrest : ∀ next ∈ rest, ∀ {cs : List Char} {ts : List Token},
      (∀ c ∈ cs.head?, isWordChar c = false) → Splits cs ts →
        Splits (next.2.pieces.flatMap String.toList ++ cs) (printedTokens next.2 ++ ts))
    {cs : List Char} {ts : List Token} (hcs : Splits cs ts) :
    Splits ((piecesOf rest).flatMap String.toList ++ cs) (printedTokensOf rest ++ ts) := by
  induction rest with
  | nil => exact hcs
  | cons next rest ih =>
    have hlater := ih fun other hother ↦ hrest other (List.mem_cons_of_mem _ hother)
    have hnext := hrest next List.mem_cons_self (by simp) (.closing hlater)
    simpa [piecesOf, printedTokensOf] using hnext.spaced next.1

/-- The pieces of a regular expression fall into its tokens, if no word goes on behind them. -/
theorem Regular.splits_pieces {e : Logic} (h : Regular e) {cs : List Char} {ts : List Token}
    (hstops : ∀ c ∈ cs.head?, isWordChar c = false) (hcs : Splits cs ts) :
    Splits (e.pieces.flatMap String.toList ++ cs) (printedTokens e ++ ts) := by
  induction h generalizing cs ts with
  | rule hid => simpa [pieces, printedTokens] using hid.splits hstops hcs
  | @chain id rest hid _ _ ih =>
    have hopenings : (rest.map fun _ ↦ "(").flatMap String.toList
        = List.replicate rest.length '(' := by
      rw [List.flatMap_map, List.flatMap_def, List.map_const']
      exact List.flatten_replicate_singleton
    have hfirst := hid.splits (stops_piecesOf rest hstops) (splits_piecesOf ih hcs)
    rw [pieces, pieces, List.flatMap_append, List.flatMap_append, hopenings, printedTokens,
      printedTokens]
    simpa using hfirst.openings rest.length

/-- The text of a regular expression falls into the tokens of its derivation. -/
theorem Regular.tokens_render {e : Logic} (h : Regular e) :
    tokens e.render = (printed e).tokens := by
  have hsplits : Splits (e.pieces.flatMap String.toList ++ []) (printedTokens e ++ []) :=
    h.splits_pieces (by simp) .nil
  rw [List.append_nil, List.append_nil, ← String.toList_join] at hsplits
  rw [tokens_printed]
  exact (splits_iff.1 hsplits).symm

/-- Hence the formula also tells how deep the text nests. -/
theorem Regular.nesting_render {e : Logic} (h : Regular e) : nesting e.render = e.printedDepth := by
  rw [nesting_eq_depthFrom, h.tokens_render, ← depth_printed]
  simpa [depthFrom] using (printed e).depthFrom_tokens (Nat.le_refl 0) []

/-! ## Reading what was printed -/

/-- Behind `i` further terms, there are as many parentheses to be closed as terms to come. -/
theorem printedDepthOf_eq (rest : List (Connective × Logic)) :
    printedDepthOf rest
      = (rest.mapIdx fun i next ↦ rest.length - i + next.2.printedDepth).foldr max 0 := by
  induction rest with
  | nil => rfl
  | cons next rest ih => simp [printedDepthOf, ih]

/-- An expression that was read or built is regular. Its text nests as many parentheses as
`printedDepth` says, which for a chain of rules is the number of its further terms, and more only
if one of these needs more where it stands. As long as the limit allows that many, the text is read
as the same expression; beyond the limit it is refused for its depth. -/
theorem parse_render (e : Logic) (h : (∃ text, parse text = .ok e) ∨ Built e) :
    Regular e ∧
    (∀ id, printedDepth (.rule id) = 0) ∧
    (∀ id rest, printedDepth (.chain (.rule id) rest) = max rest.length
      ((rest.mapIdx fun i next ↦ rest.length - i + next.2.printedDepth).foldr max 0)) ∧
    nesting e.render = e.printedDepth ∧
    (e.printedDepth ≤ 64 → parse e.render = .ok e) ∧
    (64 < e.printedDepth → parse e.render = .error (.tooDeep e.printedDepth 64)) := by
  have hregular : Regular e := by
    rcases h with ⟨text, htext⟩ | hbuilt
    · exact (built_of_parse htext).regular
    · exact hbuilt.regular
  have hnesting : nesting e.render = e.printedDepth := hregular.nesting_render
  refine ⟨hregular, fun id ↦ rfl, fun id rest ↦ ?_, hnesting, fun hdepth ↦ ?_, fun hdepth ↦ ?_⟩
  · rw [← printedDepthOf_eq]
    rfl
  · refine parse_eq_ok_iff.2 ⟨hnesting ▸ hdepth, ⟨printed e, []⟩, ?_, ?_⟩
    · rw [hregular.tokens_render]
      exact List.append_nil _
    · exact hregular.toLogic_printed
  · exact parse_eq_tooDeep_iff.2 ⟨hnesting ▸ hdepth, hnesting.symm, rfl⟩

def repeated : Nat → Logic
  | 0 => .rule "a"
  | n + 1 => (repeated n).either (.rule "a")

/-- A chain with groups in it is read from its text. A chain of 66 rules is not, although a text
without any parenthesis would hold it. -/
theorem parse_render_repeated :
    parse "(a AND (b or c or d)) or ((e)and f)" = .ok
      (.chain (.rule "a") [
        (.and, .chain (.rule "b") [(.or, .rule "c"), (.or, .rule "d")]),
        (.or, .chain (.rule "e") [(.and, .rule "f")])]) ∧
    parse "((a and ((b or c) or d)) or (e and f))" = .ok
      (.chain (.rule "a") [
        (.and, .chain (.rule "b") [(.or, .rule "c"), (.or, .rule "d")]),
        (.or, .chain (.rule "e") [(.and, .rule "f")])]) ∧
    (repeated 65).Built ∧ parse (repeated 65).render = .error (.tooDeep 65 64) := by
  have hread : parse "(a AND (b or c or d)) or ((e)and f)" = .ok
      (.chain (.rule "a") [
        (.and, .chain (.rule "b") [(.or, .rule "c"), (.or, .rule "d")]),
        (.or, .chain (.rule "e") [(.and, .rule "f")])]) := rfl
  have hnames : Names "a" :=
    ⟨by decide, List.all_eq_true.1 (by decide), fun c ↦ by cases c <;> rw [Spells] <;> decide⟩
  have hbuilt : ∀ n, (repeated n).Built := by
    intro n
    induction n with
    | zero => exact .rule hnames
    | succ n ih => exact .link .or ih (.rule hnames)
  obtain ⟨-, -, -, -, hsame, -⟩ := parse_render _ (.inl ⟨_, hread⟩)
  obtain ⟨-, -, -, -, -, hrefused⟩ := parse_render _ (.inr (hbuilt 65))
  refine ⟨hread, hsame (by decide), hbuilt 65, ?_⟩
  have hdepth : (repeated 65).printedDepth = 65 := by decide +kernel
  rw [hdepth] at hrefused
  exact hrefused (by decide)

end Screening.Logic
