import Screening.Proofs.Logic.Descent

/-!
# Descent and the stack agree

The two readers of logic texts give the same answer to every text (`descend_eq_parse`): the same
expression, or a stop at the same place with as many terms begun.

Both stand before the same rest of the text all the time. The descent is `d` calls deep when the
stack has `d` entries, so what one call of the descent reads is what the stack machine goes through
until it is behind the term, with the same stack (`TermAgrees`). That the limit of the nesting gives
the descent levels enough is carried along as `Shallow`.
-/

namespace Screening.Logic

variable {n d : Nat} {cs rest run : List Char}

/-! ## The rest of a text -/

/-- The tokens of the last characters `cs` of a text of `n` characters. -/
def lexemesOf (n : Nat) (cs : List Char) : List Lexeme := lexFrom [] (n - cs.length) cs

/-- Where the last characters of a text begin, if there are any. -/
def placeOf (n : Nat) (cs : List Char) : Option Nat :=
  if cs.isEmpty then none else some (n - cs.length)

theorem lexemesOf_dropWhile (h : cs.length ≤ n) :
    lexemesOf n (cs.dropWhile Text.isBlank) = lexemesOf n cs := by
  induction cs with
  | nil => rfl
  | cons c cs ih =>
    rw [List.length_cons] at h
    cases hc : Text.isBlank c with
    | false => rw [List.dropWhile_cons_of_neg (by simp [hc])]
    | true =>
      rw [List.dropWhile_cons_of_pos hc, ih (by omega)]
      have hstart : n - (cs.length + 1) + 1 = n - cs.length := by omega
      simp [lexemesOf, lexFrom, isWordChar_of_isBlank hc, ne_opening_of_isBlank hc,
        ne_closing_of_isBlank hc, endWord, hstart]

theorem lexemesOf_opening (h : cs.length < n) :
    lexemesOf n ('(' :: cs) = ⟨.opening, n - (cs.length + 1)⟩ :: lexemesOf n cs := by
  have hstart : n - (cs.length + 1) + 1 = n - cs.length := by omega
  simp [lexemesOf, lexFrom, endWord, hstart]

theorem lexemesOf_closing (h : cs.length < n) :
    lexemesOf n (')' :: cs) = ⟨.closing, n - (cs.length + 1)⟩ :: lexemesOf n cs := by
  have hstart : n - (cs.length + 1) + 1 = n - cs.length := by omega
  simp [lexemesOf, lexFrom, endWord, hstart]

theorem lexemesOf_run (hrun : IsRun run rest) (h : (run ++ rest).length ≤ n) :
    lexemesOf n (run ++ rest)
      = ⟨.ofWord (String.ofList run), n - (run ++ rest).length⟩ :: lexemesOf n rest := by
  rw [List.length_append] at h ⊢
  have hstart : n - (run.length + rest.length) + run.length = n - rest.length := by omega
  rw [lexemesOf, lexFrom_append hrun.all_word, List.append_nil, lexFrom_stops hrun.stops,
    List.length_append, hstart, endWord]
  have hplace : n - rest.length - run.length = n - (run.length + rest.length) := by omega
  simp [hrun.ne_nil, hplace, lexemesOf]

/-- No connective comes next. -/
def Ends (n : Nat) (cs : List Char) : Prop :=
  ∀ c place ls, lexemesOf n cs ≠ ⟨.connective c, place⟩ :: ls

theorem placeOf_run (hrun : IsRun run rest) :
    placeOf n (run ++ rest) = some (n - (run ++ rest).length) := by
  simp [placeOf, hrun.ne_nil]

/-- What comes next behind white space. -/
inductive Ahead : List Char → Prop
  | nil : Ahead []
  | opening (cs : List Char) : Ahead ('(' :: cs)
  | closing (cs : List Char) : Ahead (')' :: cs)
  | run {run cs : List Char} : IsRun run cs → Ahead (run ++ cs)

theorem isRun_takeWhile (cs : List Char) (h : cs.takeWhile isWordChar ≠ []) :
    IsRun (cs.takeWhile isWordChar) (cs.dropWhile isWordChar) where
  ne_nil := h
  all_word := List.all_eq_true.1 List.all_takeWhile
  stops c hc := by
    have hhead := List.head?_dropWhile_not isWordChar cs
    rw [Option.mem_def.1 hc] at hhead
    exact hhead

/-- Behind white space comes the end, a parenthesis or a word. -/
theorem ahead_dropWhile (cs : List Char) : Ahead (cs.dropWhile Text.isBlank) := by
  have hhead := List.head?_dropWhile_not Text.isBlank cs
  cases hcs : cs.dropWhile Text.isBlank with
  | nil => exact .nil
  | cons c rest =>
    have hc : Text.isBlank c = false := by simpa [hcs] using hhead
    by_cases ho : c = '('
    · subst ho
      exact .opening rest
    · by_cases hcl : c = ')'
      · subst hcl
        exact .closing rest
      · have hword : isWordChar c = true := by simp [isWordChar, hc, ho, hcl]
        have hrun := Ahead.run (isRun_takeWhile (c :: rest) (by simp [hword]))
        rwa [List.takeWhile_append_dropWhile] at hrun

/-! ## How deep the rest is -/

/-- With `d` parentheses open, the limit is kept to the end. -/
def Shallow (d : Nat) (cs : List Char) : Prop := nestingFrom d 0 cs ≤ nestingLimit

/-- The depth that was reached before only counts as a lower bound. -/
theorem nestingFrom_eq_max (opened deepest : Nat) (cs : List Char) :
    nestingFrom opened deepest cs = max deepest (nestingFrom opened 0 cs) := by
  induction cs generalizing opened deepest with
  | nil => simp [nestingFrom]
  | cons c cs ih =>
    simp only [nestingFrom]
    split
    · rw [ih _ (max deepest _), ih _ (max 0 _)]
      omega
    · split <;> exact ih _ _

theorem shallow_dropWhile (h : Shallow d cs) : Shallow d (cs.dropWhile Text.isBlank) := by
  induction cs with
  | nil => exact h
  | cons c cs ih =>
    cases hc : Text.isBlank c with
    | false => rwa [List.dropWhile_cons_of_neg (by simp [hc])]
    | true =>
      rw [List.dropWhile_cons_of_pos hc]
      rw [Shallow, nestingFrom, if_neg (ne_opening_of_isBlank hc),
        if_neg (ne_closing_of_isBlank hc)] at h
      exact ih h

/-- At an opening parenthesis there is room for one more. -/
theorem Shallow.of_opening (h : Shallow d ('(' :: cs)) :
    d + 1 ≤ nestingLimit ∧ Shallow (d + 1) cs := by
  rw [Shallow, nestingFrom, if_pos rfl, nestingFrom_eq_max] at h
  rw [Shallow]
  omega

theorem Shallow.of_closing (h : Shallow (d + 1) (')' :: cs)) : Shallow d cs := h

theorem Shallow.of_run (hrun : IsRun run rest) (h : Shallow d (run ++ rest)) : Shallow d rest := by
  rwa [Shallow, nestingFrom_append hrun.all_word] at h

/-! ## What the readers read -/

namespace Reader

theorem word_run (hrun : IsRun run rest) :
    word (run ++ rest) = .read (String.ofList run) rest := by
  have hrest : rest.takeWhile isWordChar = [] ∧ rest.dropWhile isWordChar = rest := by
    cases rest with
    | nil => exact ⟨rfl, rfl⟩
    | cons c rest =>
      have hc : ¬ isWordChar c = true := by simp [hrun.stops c rfl]
      exact ⟨List.takeWhile_cons_of_neg hc, List.dropWhile_cons_of_neg hc⟩
  have htake : (run ++ rest).takeWhile isWordChar = run := by
    rw [List.takeWhile_append_of_pos hrun.all_word, hrest.1, List.append_nil]
  have hdrop : (run ++ rest).dropWhile isWordChar = rest := by
    rw [List.dropWhile_append_of_pos hrun.all_word, hrest.2]
  rw [word, htake, hdrop]
  cases run with
  | nil => exact absurd rfl hrun.ne_nil
  | cons c run => rfl

/-- Where no word begins, there is none to choose. -/
theorem choose_word_of_stops {α : Type} {f : String → Option α}
    (h : ∀ c ∈ cs.head?, isWordChar c = false) : word.choose f cs = .stop false cs 0 := by
  have hword : word cs = .stop false cs 0 := by
    cases cs with
    | nil => rfl
    | cons c cs => simp [word, h c rfl]
  rw [choose, hword]

theorem choose_word_run {α : Type} {f : String → Option α} (hrun : IsRun run rest) :
    word.choose f (run ++ rest) = match f (String.ofList run) with
      | some value => .read value rest
      | none => .stop false (run ++ rest) 0 := by
  have hword := word_run hrun
  cases hf : f (String.ofList run) <;> simp [choose, hword, hf]

/-- A connective is read exactly if it is the next token. -/
theorem connective_cases (hn : cs.length ≤ n) :
    (∃ c place rest, connective cs = .read c rest ∧ rest.length < cs.length ∧
      (∀ d, Shallow d cs → Shallow d rest) ∧
      lexemesOf n cs = ⟨.connective c, place⟩ :: lexemesOf n rest) ∨
    (∃ rest, connective cs = .stop false rest 0) ∧ Ends n cs := by
  have hshallow : ∀ d, Shallow d cs → Shallow d (cs.dropWhile Text.isBlank) :=
    fun d ↦ shallow_dropWhile
  have hlength := (List.dropWhile_suffix (l := cs) Text.isBlank).length_le
  have hahead := ahead_dropWhile cs
  have hconnective : connective cs = word.choose connective? (cs.dropWhile Text.isBlank) := rfl
  rw [hconnective, Ends, ← lexemesOf_dropWhile hn]
  generalize cs.dropWhile Text.isBlank = skipped at *
  cases hahead with
  | nil => exact .inr ⟨⟨_, choose_word_of_stops (by simp)⟩, fun c place ls h ↦ by cases h⟩
  | opening rest =>
    rw [List.length_cons] at hlength
    refine .inr ⟨⟨_, choose_word_of_stops (by simp)⟩, fun c place ls h ↦ ?_⟩
    rw [lexemesOf_opening (by omega)] at h
    simp at h
  | closing rest =>
    rw [List.length_cons] at hlength
    refine .inr ⟨⟨_, choose_word_of_stops (by simp)⟩, fun c place ls h ↦ ?_⟩
    rw [lexemesOf_closing (by omega)] at h
    simp at h
  | @run run rest hrun =>
    rw [choose_word_run hrun, lexemesOf_run hrun (by omega), Token.ofWord]
    cases connective? (String.ofList run) with
    | none => exact .inr ⟨⟨_, rfl⟩, by simp⟩
    | some c =>
      have hpos := List.length_pos_iff.2 hrun.ne_nil
      rw [List.length_append] at hlength
      exact .inl ⟨c, _, rest, rfl, by omega, fun d h ↦ (hshallow d h).of_run hrun, rfl⟩

theorem group_of_ne {r : Reader Logic} (h : ∀ c ∈ cs.head?, c ≠ '(') :
    group r cs = .stop false cs 0 := by
  have hopening : char '(' cs = .stop false cs 0 := by
    cases cs with
    | nil => rfl
    | cons c cs => rw [char, if_neg (h c rfl)]
  rw [group, bind_of_stop hopening]

/-- Behind an opening parenthesis there is no way back. -/
theorem group_of_stop {r : Reader Logic} {committed : Bool} {terms : Nat}
    (h : r cs = .stop committed rest terms) : group r ('(' :: cs) = .stop true rest terms := by
  have hopening : char '(' ('(' :: cs) = .read () cs := rfl
  rw [group, bind_of_read hopening, bind_of_stop (commit_of_stop h)]

/-- Behind the expression of a group, a closing parenthesis must come. -/
theorem group_of_read {r : Reader Logic} {e : Logic} (h : r cs = .read e rest) :
    group r ('(' :: cs) = match (char ')').commit (rest.dropWhile Text.isBlank) with
      | .read _ rest => .read e rest
      | .stop committed rest terms => .stop committed rest terms := by
  have hopening : char '(' ('(' :: cs) = .read () cs := rfl
  have hblanks : blanks rest = .read () (rest.dropWhile Text.isBlank) := rfl
  rw [group, bind_of_read hopening, bind_of_read (commit_of_read h), bind_of_read hblanks]
  cases hclosing : (char ')').commit (rest.dropWhile Text.isBlank) with
  | read _ rest =>
    rw [bind_of_read hclosing]
    rfl
  | stop committed rest terms => rw [bind_of_stop hclosing]

/-- Behind the terms of a group only a closing parenthesis will do. -/
theorem commit_closing_of_ne (h : cs.head? ≠ some ')') :
    (char ')').commit cs = .stop true cs 0 := by
  cases cs with
  | nil => rfl
  | cons c cs =>
    have hc : c ≠ ')' := fun hc ↦ h (congrArg some hc)
    rw [commit, char, if_neg hc]

/-- Where no term can begin, one term more is missing. -/
theorem inTerm_of_stops {r : Reader Logic} (h : ∀ c ∈ cs.head?, isWordChar c = false)
    (hopening : ∀ c ∈ cs.head?, c ≠ '(') :
    inTerm ((group r).either rule) cs = .stop false cs 1 := by
  rw [inTerm, either, group_of_ne hopening, rule, choose_word_of_stops h]

/-- A word is a rule unless it is a connective. -/
theorem inTerm_run {r : Reader Logic} (hrun : IsRun run rest) :
    inTerm ((group r).either rule) (run ++ rest)
      = match connective? (String.ofList run) with
        | none => .read (.rule (String.ofList run)) rest
        | some _ => .stop false (run ++ rest) 1 := by
  have hopening : ∀ c ∈ (run ++ rest).head?, c ≠ '(' := by
    cases run with
    | nil => exact absurd rfl hrun.ne_nil
    | cons c run =>
      have hc : isWordChar c = true := hrun.all_word c (List.mem_cons_self ..)
      rintro _ ⟨⟩ rfl
      simp at hc
  rw [inTerm, either, group_of_ne hopening]
  dsimp only
  rw [rule, choose_word_run hrun]
  cases connective? (String.ofList run) <;> rfl

end Reader

/-! ## The readers in step with the stack -/

/-- With `d` entries on the stack, the machine is behind a term where the reader has read it, and
fails where the reader stops. -/
def TermAgrees (n d : Nat) (r : Reader Logic) : Prop :=
  ∀ cs, cs.length ≤ n → Shallow d cs → ∀ (outer : List Before) (before : Before), outer.length = d →
    match r cs with
    | .read e rest => rest.length < cs.length ∧ Shallow d rest ∧
        expectTerm outer before (lexemesOf n cs)
          = afterTerm outer (before.add e) (lexemesOf n rest)
    | .stop _ rest terms =>
        expectTerm outer before (lexemesOf n cs) = .error ⟨placeOf n rest, d + terms⟩

/-- The same for an expression, which ends where no connective follows. -/
def ExpressionAgrees (n d : Nat) (r : Reader Logic) : Prop :=
  ∀ cs, cs.length ≤ n → Shallow d cs → ∀ outer : List Before, outer.length = d →
    match r cs with
    | .read e rest => rest.length < cs.length ∧ Shallow d rest ∧ Ends n rest ∧
        expectTerm outer none (lexemesOf n cs) = afterTerm outer (.ofLogic e) (lexemesOf n rest)
    | .stop _ rest terms =>
        expectTerm outer none (lexemesOf n cs) = .error ⟨placeOf n rest, d + terms⟩

/-- Behind a term, what is no connective and closes no open parenthesis is misplaced. -/
theorem afterTerm_of_ends (outer : List Before) (terms : Terms) (hn : cs.length ≤ n)
    (hahead : Ahead cs) (hends : Ends n cs) (hclosing : cs.head? = some ')' → outer = [])
    (hnil : cs = [] → outer ≠ []) :
    afterTerm outer terms (lexemesOf n cs) = .error ⟨placeOf n cs, outer.length⟩ := by
  cases hahead with
  | nil =>
    cases outer with
    | nil => exact absurd rfl (hnil rfl)
    | cons before outer => rfl
  | opening rest =>
    rw [lexemesOf_opening hn]
    rfl
  | closing rest =>
    rw [lexemesOf_closing hn, hclosing rfl]
    rfl
  | @run run rest hrun =>
    rw [Ends, lexemesOf_run hrun hn, Token.ofWord] at hends
    rw [lexemesOf_run hrun hn, Token.ofWord, placeOf_run hrun]
    cases hc : connective? (String.ofList run) with
    | some c => simp [hc] at hends
    | none => rfl

/-- Behind the expression of a group, both want a closing parenthesis. -/
theorem closing_agrees (e : Logic) {outer : List Before} (before : Before) (hn : cs.length ≤ n)
    (hs : Shallow (outer.length + 1) cs) (hends : Ends n cs) :
    match (Reader.char ')').commit (cs.dropWhile Text.isBlank) with
    | .read _ rest => rest.length < cs.length ∧ Shallow outer.length rest ∧
        afterTerm (before :: outer) (.ofLogic e) (lexemesOf n cs)
          = afterTerm outer (before.add e) (lexemesOf n rest)
    | .stop _ rest terms =>
        afterTerm (before :: outer) (.ofLogic e) (lexemesOf n cs)
          = .error ⟨placeOf n rest, outer.length + 1 + terms⟩ := by
  have hlength := (List.dropWhile_suffix (l := cs) Text.isBlank).length_le
  have hahead := ahead_dropWhile cs
  replace hs := shallow_dropWhile hs
  rw [Ends, ← lexemesOf_dropWhile hn] at hends
  rw [← lexemesOf_dropWhile hn]
  generalize cs.dropWhile Text.isBlank = skipped at *
  by_cases hclosing : skipped.head? = some ')'
  · obtain ⟨rest, rfl⟩ := List.head?_eq_some_iff.1 hclosing
    rw [List.length_cons] at hlength
    have hread : (Reader.char ')').commit (')' :: rest) = .read () rest := rfl
    rw [hread, lexemesOf_closing (by omega)]
    refine ⟨by omega, hs.of_closing, ?_⟩
    rw [afterTerm, Terms.toLogic_ofLogic]
  · rw [Reader.commit_closing_of_ne hclosing]
    exact afterTerm_of_ends _ _ (by omega) hahead hends (absurd · hclosing) (by simp)

/-- A group costs the machine an entry and the descent a call. -/
theorem group_agrees {r : Reader Logic} {k : Nat} {outer : List Before} (before : Before)
    (hr : ExpressionAgrees n (outer.length + 1) r) (hn : cs.length < n) (hk : cs.length < k)
    (hs : Shallow (outer.length + 1) cs) :
    match Reader.inTerm ((Reader.group r).either Reader.rule) ('(' :: cs) with
    | .read e rest => rest.length < k ∧ Shallow outer.length rest ∧
        expectTerm outer before (lexemesOf n ('(' :: cs))
          = afterTerm outer (before.add e) (lexemesOf n rest)
    | .stop _ rest terms =>
        expectTerm outer before (lexemesOf n ('(' :: cs))
          = .error ⟨placeOf n rest, outer.length + terms⟩ := by
  have hgroup := hr cs (Nat.le_of_lt hn) hs (before :: outer) (List.length_cons ..)
  rw [lexemesOf_opening hn, expectTerm, Reader.inTerm, Reader.either]
  cases hreply : r cs with
  | stop committed stopped terms =>
    rw [hreply] at hgroup
    rw [Reader.group_of_stop hreply]
    dsimp only at hgroup ⊢
    rw [hgroup, Nat.add_assoc, Nat.add_comm 1]
  | read e behind =>
    rw [hreply] at hgroup
    obtain ⟨hlt, hbehind, hends, hgroup⟩ := hgroup
    have hclosing := closing_agrees e before (by omega) hbehind hends
    rw [Reader.group_of_read hreply, hgroup]
    cases hc : (Reader.char ')').commit (behind.dropWhile Text.isBlank) with
    | read _ rest =>
      rw [hc] at hclosing
      exact ⟨by omega, hclosing.2⟩
    | stop committed stopped terms =>
      -- a group that is open excludes the alternative
      obtain rfl := Reader.committed_of_commit_eq_stop hc
      rw [hc] at hclosing
      dsimp only at hclosing ⊢
      rw [hclosing, Nat.add_assoc, Nat.add_comm 1]

/-- The expression in a group is read one level deeper, as far as the limit allows groups. -/
theorem term_agrees {r : Reader Logic} (hr : d + 1 ≤ nestingLimit → ExpressionAgrees n (d + 1) r) :
    TermAgrees n d (Reader.term r) := by
  rintro cs hn hs outer before rfl
  have hterm : Reader.term r cs
      = Reader.inTerm ((Reader.group r).either Reader.rule) (cs.dropWhile Text.isBlank) := rfl
  have hlength := (List.dropWhile_suffix (l := cs) Text.isBlank).length_le
  have hahead := ahead_dropWhile cs
  replace hs := shallow_dropWhile hs
  rw [hterm, ← lexemesOf_dropWhile hn]
  generalize cs.dropWhile Text.isBlank = skipped at *
  cases hahead with
  | nil =>
    rw [Reader.inTerm_of_stops (by simp) (by simp)]
    rfl
  | opening rest =>
    rw [List.length_cons] at hlength
    obtain ⟨hd, hrest⟩ := hs.of_opening
    exact group_agrees before (hr hd) (by omega) (by omega) hrest
  | closing rest =>
    rw [List.length_cons] at hlength
    rw [Reader.inTerm_of_stops (by simp) (by simp), lexemesOf_closing (by omega)]
    rfl
  | @run run rest hrun =>
    rw [Reader.inTerm_run hrun, lexemesOf_run hrun (by omega), Token.ofWord]
    cases connective? (String.ofList run) with
    | none =>
      have hpos := List.length_pos_iff.2 hrun.ne_nil
      rw [List.length_append] at hlength
      exact ⟨by omega, hs.of_run hrun, rfl⟩
    | some c =>
      dsimp only
      rw [placeOf_run hrun]
      rfl

/-- Further terms are read, and linked to what stands before them, until no connective follows. -/
theorem many_agrees {r : Reader Logic} {outer : List Before} (hr : TermAgrees n outer.length r)
    (cs : List Char) (hn : cs.length ≤ n) (hs : Shallow outer.length cs) (e : Logic) :
    match Reader.many (Reader.next r) cs with
    | .read terms rest => rest.length ≤ cs.length ∧ Shallow outer.length rest ∧ Ends n rest ∧
        afterTerm outer (.ofLogic e) (lexemesOf n cs)
          = afterTerm outer (.ofLogic (terms.foldl (fun e next ↦ e.link next.1 next.2) e))
            (lexemesOf n rest)
    | .stop _ rest terms =>
        afterTerm outer (.ofLogic e) (lexemesOf n cs)
          = .error ⟨placeOf n rest, outer.length + terms⟩ := by
  -- By recursion on the rest of the text, of which each connective and term takes something.
  rw [Reader.many]
  rcases Reader.connective_cases hn with
    ⟨c, place, behind, hc, hlt, hshallow, hlex⟩ | ⟨⟨behind, hc⟩, hends⟩
  · have hterm := hr behind (by omega) (hshallow _ hs) outer (some (.ofLogic e, c)) rfl
    rw [hlex, afterTerm]
    cases hreply : r behind with
    | stop committed stopped terms =>
      have hnext : Reader.next r cs = .stop true stopped terms := by
        rw [Reader.next, Reader.bind_of_read hc, Reader.bind_of_stop (Reader.commit_of_stop hreply)]
      rw [hreply] at hterm
      rw [hnext]
      exact hterm
    | read next rest =>
      have hnext : Reader.next r cs = .read (c, next) rest := by
        rw [Reader.next, Reader.bind_of_read hc, Reader.bind_of_read (Reader.commit_of_read hreply)]
        rfl
      rw [hreply] at hterm
      obtain ⟨hlt', hs', hterm⟩ := hterm
      have hlink : Before.add (some (.ofLogic e, c)) next = .ofLogic (e.link c next) := by
        rw [Terms.ofLogic_link]
        rfl
      have ih := many_agrees hr rest (by omega) hs' (e.link c next)
      rw [hnext, hterm, hlink]
      dsimp only
      rw [if_pos (by omega)]
      cases hmany : Reader.many (Reader.next r) rest with
      | stop committed stopped terms =>
        rw [hmany] at ih
        exact ih
      | read terms rest' =>
        rw [hmany] at ih
        exact ⟨by omega, ih.2⟩
  -- Without a connective nothing has been read, so the chain ends here for both.
  · have hnext : Reader.next r cs = .stop false behind 0 := by
      rw [Reader.next, Reader.bind_of_stop hc]
    rw [hnext]
    exact ⟨Nat.le_refl _, hs, hends, rfl⟩
termination_by cs.length

/-- The levels that the open parentheses leave are enough. -/
theorem expression_agrees (levels : Nat) (hlevels : d + levels = nestingLimit + 1)
    (hd : d ≤ nestingLimit) : ExpressionAgrees n d (Reader.expression levels) := by
  induction levels generalizing d with
  | zero => omega
  | succ levels ih =>
    have hterm : TermAgrees n d (Reader.term (Reader.expression levels)) :=
      term_agrees fun hd ↦ ih (by omega) hd
    rintro cs hn hs outer rfl
    have hfirst := hterm cs hn hs outer none rfl
    rw [Reader.expression]
    cases hreply : Reader.term (Reader.expression levels) cs with
    | stop committed stopped terms =>
      rw [hreply] at hfirst
      rw [Reader.bind_of_stop hreply]
      exact hfirst
    | read first behind =>
      rw [hreply] at hfirst
      obtain ⟨hlt, hs', hfirst⟩ := hfirst
      have hrest := many_agrees hterm behind (by omega) hs' first
      rw [Reader.bind_of_read hreply, hfirst]
      cases hmany : Reader.many (Reader.next (Reader.term (Reader.expression levels))) behind with
      | stop committed stopped terms =>
        rw [hmany] at hrest
        rw [Reader.bind_of_stop hmany]
        exact hrest
      | read terms rest =>
        rw [hmany] at hrest
        rw [Reader.bind_of_read hmany]
        exact ⟨by omega, hrest.2⟩

/-! ## Texts -/

/-- A text that nests too deep is refused before it is read. -/
theorem parse_of_tooDeep {text : String} (h : nestingLimit < nesting text) :
    parse text = .error (.tooDeep (nesting text) nestingLimit) := by
  rw [parse, if_pos h]

theorem parse_of_expectTerm_eq_ok {text : String} {e : Logic} (h : nesting text ≤ nestingLimit)
    (hrun : expectTerm [] none (lex text) = .ok e) : parse text = .ok e := by
  rw [parse, if_neg (Nat.not_lt.2 h), hrun]
  rfl

theorem parse_of_expectTerm_eq_error {text : String} {m : Misplaced}
    (h : nesting text ≤ nestingLimit) (hrun : expectTerm [] none (lex text) = .error m) :
    parse text = .error (.misplaced text (m.place.getD text.toList.length) m.expected) := by
  rw [parse, if_neg (Nat.not_lt.2 h), hrun]
  rfl

@[simp] theorem getD_placeOf (n : Nat) (cs : List Char) :
    (placeOf n cs).getD n = n - cs.length := by
  cases cs <;> rfl

/-- Descent gives the answer of the stack machine to every text. -/
theorem descend_eq_parse (text : String) : descend text = parse text := by
  rw [descend]
  rcases Nat.lt_or_ge nestingLimit (nesting text) with hnesting | hnesting
  · rw [if_pos hnesting, parse_of_tooDeep hnesting]
  · rw [if_neg (Nat.not_lt.2 hnesting)]
    have hlex : lexemesOf text.toList.length text.toList = lex text := by
      rw [lexemesOf, Nat.sub_self, lex]
    have hrun := expression_agrees (nestingLimit + 1) (Nat.zero_add _) (Nat.zero_le _) text.toList
      (Nat.le_refl _) hnesting [] rfl
    rw [hlex] at hrun
    cases hreply : Reader.expression (nestingLimit + 1) text.toList with
    | stop committed stopped terms =>
      rw [hreply] at hrun
      rw [Reader.whole, Reader.bind_of_stop hreply, parse_of_expectTerm_eq_error hnesting hrun,
        getD_placeOf, Nat.zero_add]
    | read e rest =>
      rw [hreply] at hrun
      obtain ⟨hlt, -, hends, hrun⟩ := hrun
      have hblanks : Reader.blanks rest = .read () (rest.dropWhile Text.isBlank) := rfl
      rw [Reader.whole, Reader.bind_of_read hreply, Reader.bind_of_read hblanks]
      have hahead := ahead_dropWhile rest
      have hlength := (List.dropWhile_suffix (l := rest) Text.isBlank).length_le
      rw [Ends, ← lexemesOf_dropWhile (Nat.le_of_lt hlt)] at hends
      rw [← lexemesOf_dropWhile (Nat.le_of_lt hlt)] at hrun
      -- Both look for the end behind the white space, so only what follows it matters.
      generalize rest.dropWhile Text.isBlank = skipped at *
      cases skipped with
      | nil =>
        have hok : afterTerm [] (.ofLogic e) (lexemesOf text.toList.length []) = .ok e :=
          congrArg Except.ok (Terms.toLogic_ofLogic e)
        rw [parse_of_expectTerm_eq_ok hnesting (hrun.trans hok)]
        rfl
      | cons c skipped =>
        have herror := afterTerm_of_ends [] (.ofLogic e) (by omega) hahead hends
          (fun _ ↦ rfl) (by simp)
        rw [parse_of_expectTerm_eq_error hnesting (hrun.trans herror), getD_placeOf]
        rfl

end Screening.Logic
