import Screening.Logic.Parser

/-!
# How a text falls into tokens

The tokens of a text are its parentheses and its words. A word is a run of characters that are
neither white space nor parentheses, and it goes as far as it can. `Splits` says so one token at a
time, without the accumulator of `lexFrom`; by `splits_iff` the reader of tokens finds the only list
of tokens that a text falls into.

The nesting of a text is counted on its characters, before there are any tokens. It hangs on the
tokens alone (`Splits.nestingFrom_eq`), which is why white space does not matter to it.
-/

namespace Screening.Logic

/-! ## Splitting a text -/

/-- A word is written like a connective, whatever the case of its letters from A to Z. -/
def Spells (word : List Char) (c : Connective) : Prop := word.map Char.toLower = c.render.toList

/-- A word stands before `rest` and cannot go on there. -/
structure IsRun (word rest : List Char) : Prop where
  ne_nil : word ≠ []
  all_word : ∀ c ∈ word, isWordChar c = true
  stops : ∀ c ∈ rest.head?, isWordChar c = false

/-- The characters of a text fall into tokens. -/
inductive Splits : List Char → List Token → Prop
  | nil : Splits [] []
  | blank {c : Char} {cs : List Char} {ts : List Token} :
      Text.isBlank c = true → Splits cs ts → Splits (c :: cs) ts
  | opening {cs : List Char} {ts : List Token} : Splits cs ts → Splits ('(' :: cs) (.opening :: ts)
  | closing {cs : List Char} {ts : List Token} : Splits cs ts → Splits (')' :: cs) (.closing :: ts)
  | connective {word cs : List Char} {c : Connective} {ts : List Token} :
      IsRun word cs → Spells word c → Splits cs ts → Splits (word ++ cs) (.connective c :: ts)
  | word {word cs : List Char} {ts : List Token} :
      IsRun word cs → (∀ c, ¬ Spells word c) → Splits cs ts →
        Splits (word ++ cs) (.word (String.ofList word) :: ts)

def Token.word? : Token → Option String
  | .word id => some id
  | _ => none

/-- The tokens of a text without their places. -/
def tokens (text : String) : List Token := (lex text).map (·.token)

/-! ## Characters and words -/

theorem isWordChar_of_isBlank {c : Char} (h : Text.isBlank c = true) : isWordChar c = false := by
  simp [isWordChar, h]

/-- What belongs to no word is white space, parentheses apart. -/
theorem isBlank_of_not_isWordChar {c : Char} (h : isWordChar c = false) (ho : c ≠ '(')
    (hc : c ≠ ')') : Text.isBlank c = true := by
  simpa [isWordChar, ho, hc] using h

@[simp] theorem isWordChar_opening : isWordChar '(' = false := by decide

@[simp] theorem isWordChar_closing : isWordChar ')' = false := by decide

theorem ne_opening_of_isBlank {c : Char} (h : Text.isBlank c = true) : c ≠ '(' := by
  rintro rfl
  exact absurd h (by decide)

theorem ne_closing_of_isBlank {c : Char} (h : Text.isBlank c = true) : c ≠ ')' := by
  rintro rfl
  exact absurd h (by decide)

/-- A word is a connective if its letters spell one in any case. -/
theorem connective?_ofList (word : List Char) (c : Connective) :
    connective? (String.ofList word) = some c ↔ Spells word c := by
  have hne : "and".toList ≠ "or".toList := by decide
  have hand : "and".toList.map Char.toLower = "and".toList := by decide
  have hor : "or".toList.map Char.toLower = "or".toList := by decide
  cases c <;>
    simp only [connective?, Text.eqIgnoringCase_iff, String.toList_ofList, Spells,
      Connective.render, hand, hor] <;> grind

theorem ofWord_of_spells {word : List Char} {c : Connective} (h : Spells word c) :
    Token.ofWord (String.ofList word) = .connective c := by
  simp only [Token.ofWord, (connective?_ofList word c).2 h]

theorem ofWord_of_not_spells {word : List Char} (h : ∀ c, ¬ Spells word c) :
    Token.ofWord (String.ofList word) = .word (String.ofList word) := by
  have hnone : connective? (String.ofList word) = none :=
    Option.eq_none_iff_forall_ne_some.2 fun c hc ↦ h c ((connective?_ofList word c).1 hc)
  simp only [Token.ofWord, hnone]

/-- A run is one token, whether it is a connective or names a rule. -/
theorem IsRun.splits {word cs : List Char} {ts : List Token} (hrun : IsRun word cs)
    (h : Splits cs ts) : Splits (word ++ cs) (.ofWord (String.ofList word) :: ts) := by
  by_cases hs : ∃ c, Spells word c
  · obtain ⟨c, hc⟩ := hs
    rw [ofWord_of_spells hc]
    exact .connective hrun hc h
  · rw [not_exists] at hs
    rw [ofWord_of_not_spells hs]
    exact .word hrun hs h

/-! ## The reader of tokens -/

/-- Inside a word the reader only gathers characters. -/
theorem lexFrom_append {word : List Char} (hword : ∀ c ∈ word, isWordChar c = true)
    (before : List Char) (start : Nat) (cs : List Char) :
    lexFrom before start (word ++ cs)
      = lexFrom (word.reverse ++ before) (start + word.length) cs := by
  induction word generalizing before start with
  | nil => rfl
  | cons c word ih =>
    have hc : isWordChar c = true := hword c (List.mem_cons_self ..)
    rw [List.cons_append, lexFrom, if_pos hc,
      ih (fun d hd ↦ hword d (List.mem_cons_of_mem _ hd))]
    simp [Nat.add_comm, Nat.add_left_comm]

/-- Behind a word the reader starts afresh. -/
theorem lexFrom_stops {cs : List Char} (hstops : ∀ c ∈ cs.head?, isWordChar c = false)
    (before : List Char) (start : Nat) :
    lexFrom before start cs = endWord before start (lexFrom [] start cs) := by
  cases cs with
  | nil => rfl
  | cons c cs =>
    have hc : isWordChar c = false := hstops c rfl
    simp [lexFrom, hc, endWord]

theorem map_token_endWord {word : List Char} (hne : word ≠ []) (stop : Nat) (more : List Lexeme) :
    (endWord word stop more).map (·.token)
      = .ofWord (String.ofList word.reverse) :: more.map (·.token) := by
  simp [endWord, hne]

theorem lexFrom_run {word cs : List Char} (hrun : IsRun word cs) (start : Nat) :
    (lexFrom [] start (word ++ cs)).map (·.token)
      = .ofWord (String.ofList word) :: (lexFrom [] (start + word.length) cs).map (·.token) := by
  rw [lexFrom_append hrun.all_word, List.append_nil, lexFrom_stops hrun.stops,
    map_token_endWord (by simpa using hrun.ne_nil), List.reverse_reverse]

/-- However a text splits, the reader finds these tokens. -/
theorem Splits.map_token_lexFrom {cs : List Char} {ts : List Token} (h : Splits cs ts)
    (start : Nat) : (lexFrom [] start cs).map (·.token) = ts := by
  induction h generalizing start with
  | nil => rfl
  | blank hc _ ih =>
    simp [lexFrom, isWordChar_of_isBlank hc, ne_opening_of_isBlank hc, ne_closing_of_isBlank hc,
      endWord, ih]
  | opening _ ih => simp [lexFrom, endWord, ih]
  | closing _ ih => simp [lexFrom, endWord, ih]
  | connective hrun hs _ ih => rw [lexFrom_run hrun, ofWord_of_spells hs, ih]
  | word hrun hs _ ih => rw [lexFrom_run hrun, ofWord_of_not_spells hs, ih]

/-- A word that was begun ends where a text goes on that splits and begins with no part of it. -/
theorem splits_endWord {word cs : List Char} (hword : ∀ c ∈ word, isWordChar c = true)
    (hstops : ∀ c ∈ cs.head?, isWordChar c = false) {stop : Nat} {more : List Lexeme}
    (h : Splits cs (more.map (·.token))) :
    Splits (word.reverse ++ cs) ((endWord word stop more).map (·.token)) := by
  by_cases hne : word = []
  · subst hne
    exact h
  · rw [map_token_endWord hne]
    have hrun : IsRun word.reverse cs := ⟨by simpa using hne, by simpa using hword, hstops⟩
    exact hrun.splits h

/-- The lexer cuts a text into the tokens that it falls into. -/
theorem splits_lexFrom (cs word : List Char) (hword : ∀ c ∈ word, isWordChar c = true)
    (start : Nat) : Splits (word.reverse ++ cs) ((lexFrom word start cs).map (·.token)) := by
  induction cs generalizing word start with
  | nil => exact splits_endWord hword (by simp) .nil
  | cons c cs ih =>
    have hrest := ih [] (by simp) (start + 1)
    rw [lexFrom]
    by_cases hc : isWordChar c = true
    · rw [if_pos hc]
      simpa using ih (c :: word) (by simpa [hc] using hword) (start + 1)
    · rw [if_neg hc]
      rw [Bool.not_eq_true] at hc
      refine splits_endWord hword (by simpa using hc) ?_
      split
      · next ho =>
        subst ho
        exact .opening hrest
      · split
        · next hcl =>
          subst hcl
          exact .closing hrest
        · next ho hcl => exact .blank (isBlank_of_not_isWordChar hc ho hcl) hrest

/-- A text falls into its tokens and into nothing else. -/
theorem splits_iff {text : String} {ts : List Token} :
    Splits text.toList ts ↔ ts = tokens text := by
  constructor
  · intro h
    exact (h.map_token_lexFrom 0).symm
  · rintro rfl
    exact splits_lexFrom text.toList [] (by simp) 0

/-! ## Nesting -/

/-- The greatest number of open parentheses in a list of tokens, after `deepest` and with `opened`
of them open. -/
def depthFrom (opened deepest : Nat) : List Token → Nat
  | [] => deepest
  | .opening :: ts => depthFrom (opened + 1) (max deepest (opened + 1)) ts
  | .closing :: ts => depthFrom (opened - 1) deepest ts
  | .connective _ :: ts | .word _ :: ts => depthFrom opened deepest ts

/-- Characters that are no parentheses do not count. -/
theorem nestingFrom_append {word : List Char} (hword : ∀ c ∈ word, isWordChar c = true)
    (opened deepest : Nat) (cs : List Char) :
    nestingFrom opened deepest (word ++ cs) = nestingFrom opened deepest cs := by
  induction word with
  | nil => rfl
  | cons c word ih =>
    have hc : isWordChar c = true := hword c (List.mem_cons_self ..)
    have ho : c ≠ '(' := by rintro rfl; simp at hc
    have hcl : c ≠ ')' := by rintro rfl; simp at hc
    rw [List.cons_append, nestingFrom, if_neg ho, if_neg hcl]
    exact ih fun d hd ↦ hword d (List.mem_cons_of_mem _ hd)

/-- The depth can be told from the tokens alone. -/
theorem Splits.nestingFrom_eq {cs : List Char} {ts : List Token} (h : Splits cs ts)
    (opened deepest : Nat) : nestingFrom opened deepest cs = depthFrom opened deepest ts := by
  induction h generalizing opened deepest with
  | nil => rfl
  | blank hc _ ih =>
    rw [nestingFrom, if_neg (ne_opening_of_isBlank hc), if_neg (ne_closing_of_isBlank hc), ih]
  | opening _ ih => simp [nestingFrom, depthFrom, ih]
  | closing _ ih => simp [nestingFrom, depthFrom, ih]
  | connective hrun _ _ ih => rw [nestingFrom_append hrun.all_word, ih, depthFrom]
  | word hrun _ _ ih => rw [nestingFrom_append hrun.all_word, ih, depthFrom]

theorem nesting_eq_depthFrom (text : String) : nesting text = depthFrom 0 0 (tokens text) :=
  (splits_iff.2 rfl).nestingFrom_eq 0 0

end Screening.Logic
