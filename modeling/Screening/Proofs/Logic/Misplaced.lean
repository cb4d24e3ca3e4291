import Screening.Logic.ErrorText
import Screening.Proofs.Logic.Reading

/-!
# Where a text goes wrong

The reader of logic texts goes from token to token and is always at a `Stage`: a term must come, or
one has just been read, inside some open parentheses. A token takes it from one stage to another
(`Stage.next?`) or cannot be read there at all. Every stage can be brought to an end: a term if one
must come, and a closing parenthesis for each open one. So the place at which a text is refused is
that of its first wrong token. What stands before the place can be completed, and if it is not the
end of the text, then no text that is read goes on from there with the token that this one has.
-/

namespace Screening.Logic

variable {cs before after : List Char} {ts us : List Token} {ls : List Lexeme}

/-! ## Stages -/

/-- Where the reader stands between two tokens. -/
inductive Stage where
  | expecting (outer : List Before) (before : Before)
  | behind (outer : List Before) (terms : Terms)

namespace Stage

variable {s s' : Stage}

def start : Stage := .expecting [] none

def read : Stage → List Lexeme → Except Misplaced Logic
  | .expecting outer before => expectTerm outer before
  | .behind outer terms => afterTerm outer terms

/-- The stage behind a token, if the token can be read. -/
def next? : Stage → Token → Option Stage
  | .expecting outer before, .opening => some (.expecting (before :: outer) none)
  | .expecting outer before, .word id => some (.behind outer (before.add (.rule id)))
  | .behind outer terms, .connective c => some (.expecting outer (some (terms, c)))
  | .behind (before :: outer) terms, .closing => some (.behind outer (before.add terms.toLogic))
  | _, _ => none

def after? (s : Stage) (ts : List Token) : Option Stage := ts.foldlM next? s

theorem after?_cons {t : Token} : s.after? (t :: ts) = (s.next? t).bind (·.after? ts) := rfl

theorem read_cons_of_next {l : Lexeme} (h : s.next? l.token = some s') :
    s.read (l :: ls) = s'.read ls := by
  obtain ⟨t, place⟩ := l
  revert h
  fun_cases next? s t <;> rintro ⟨⟩ <;> rfl

/-- A token that cannot be read is reported with its place. -/
theorem read_cons_of_not_next {l : Lexeme} (h : s.next? l.token = none) (ls : List Lexeme) :
    ∃ expected, s.read (l :: ls) = .error ⟨some l.start, expected⟩ := by
  obtain ⟨t, place⟩ := l
  match s, t with
  | .expecting _ _, .closing | .expecting _ _, .connective _ => exact ⟨_, rfl⟩
  | .behind [] _, .closing | .behind _ _, .opening | .behind _ _, .word _ => exact ⟨_, rfl⟩
  | .expecting _ _, .opening | .expecting _ _, .word _ => cases h
  | .behind (_ :: _) _, .closing | .behind _ _, .connective _ => cases h

/-- What is read in front of further tokens decides at which stage these are read. -/
theorem read_append {xs : List Lexeme} (h : s.after? (xs.map (·.token)) = some s') :
    s.read (xs ++ ls) = s'.read ls := by
  induction xs generalizing s with
  | nil =>
    obtain rfl : s = s' := Option.some.inj h
    rfl
  | cons l xs ih =>
    obtain ⟨middle, hmiddle, hrest⟩ := Option.bind_eq_some_iff.1 h
    rw [List.cons_append, read_cons_of_next hmiddle, ih hrest]

/-- Where the reader fails, it has read all tokens before the place, and the token at the place, if
there is one, cannot be read. -/
theorem exists_of_read_eq_error {m : Misplaced} (h : s.read ls = .error m) :
    ∃ done rest s', ls = done ++ rest ∧ s.after? (done.map (·.token)) = some s' ∧
      m.place = rest.head?.map (·.start) ∧ ∀ l ∈ rest.head?, s'.next? l.token = none := by
  induction ls generalizing s with
  | nil =>
    refine ⟨[], [], s, rfl, rfl, ?_, by simp⟩
    match s with
    | .expecting _ _ | .behind (_ :: _) _ => exact Except.error.inj h ▸ rfl
    | .behind [] _ => cases h
  | cons l ls ih =>
    cases hnext : s.next? l.token with
    | none =>
      obtain ⟨expected, herror⟩ := read_cons_of_not_next hnext ls
      rw [herror] at h
      exact ⟨[], l :: ls, s, rfl, rfl, Except.error.inj h ▸ rfl, by simpa using hnext⟩
    | some middle =>
      rw [read_cons_of_next hnext] at h
      obtain ⟨done, rest, s', rfl, hdone, hplace, hrest⟩ := ih h
      refine ⟨l :: done, rest, s', rfl, ?_, hplace, hrest⟩
      rw [List.map_cons, after?_cons, hnext]
      exact hdone

/-! ## Bringing a text to an end -/

/-- Tokens that end a text at a stage. -/
def ending : Stage → List Token
  | .expecting outer _ => .word "a" :: List.replicate outer.length .closing
  | .behind outer _ => List.replicate outer.length .closing

def endingText : Stage → List Char
  | .expecting outer _ => ' ' :: 'a' :: List.replicate outer.length ')'
  | .behind outer _ => List.replicate outer.length ')'

/-- Behind a term, as many closing parentheses as there are open ones end the text. -/
theorem exists_afterTerm_closings (outer : List Before) (terms : Terms)
    (hls : ls.map (·.token) = List.replicate outer.length .closing) :
    ∃ e, afterTerm outer terms ls = .ok e := by
  induction outer generalizing terms ls with
  | nil =>
    obtain rfl := List.map_eq_nil_iff.1 hls
    exact ⟨_, rfl⟩
  | cons before outer ih =>
    obtain ⟨⟨t, place⟩, ls, rfl, rfl, hrest⟩ := List.map_eq_cons_iff.1 hls
    exact ih _ hrest

/-- The ending of a stage can be read from there. -/
theorem exists_read_ending (hls : ls.map (·.token) = s.ending) : ∃ e, s.read ls = .ok e := by
  cases s with
  | behind outer terms => exact exists_afterTerm_closings outer terms hls
  | expecting outer before =>
    obtain ⟨⟨t, place⟩, ls, rfl, rfl, hrest⟩ := List.map_eq_cons_iff.1 hls
    exact exists_afterTerm_closings outer _ hrest

end Stage

/-! ## Single tokens of a text -/

/-- The characters of a token that stands before `rest` and is complete there: a parenthesis, or a
word that cannot go on. -/
inductive IsToken : List Char → Token → List Char → Prop
  | opening (rest : List Char) : IsToken ['('] .opening rest
  | closing (rest : List Char) : IsToken [')'] .closing rest
  | run {word rest : List Char} : IsRun word rest → IsToken word (.ofWord (String.ofList word)) rest

/-- No word goes on across the border between two parts of a text. -/
def Parted (before after : List Char) : Prop :=
  ∀ c ∈ before.getLast?, ∀ d ∈ after.head?, isWordChar c = true → isWordChar d = false

namespace IsToken

variable {word rest : List Char} {t : Token}

theorem ne_nil (h : IsToken word t rest) : word ≠ [] := by
  cases h with
  | opening | closing => simp
  | run hrun => exact hrun.ne_nil

/-- Behind a token no word goes on. -/
theorem parted (h : IsToken word t rest) : Parted word rest := by
  intro c hc d hd hword
  cases h with
  | opening | closing =>
    obtain rfl := Option.some.inj hc
    simp at hword
  | run hrun => exact hrun.stops d hd

theorem splits (h : IsToken word t rest) (hrest : Splits rest ts) :
    Splits (word ++ rest) (t :: ts) := by
  cases h with
  | opening => exact .opening hrest
  | closing => exact .closing hrest
  | run hrun => exact hrun.splits hrest

theorem lexFrom_eq (h : IsToken word t rest) (start : Nat) :
    lexFrom [] start (word ++ rest) = ⟨t, start⟩ :: lexFrom [] (start + word.length) rest := by
  cases h with
  | opening | closing => simp [lexFrom, endWord]
  | run hrun =>
    rw [lexFrom_append hrun.all_word, List.append_nil, lexFrom_stops hrun.stops, endWord]
    simp [hrun.ne_nil]

/-- A token stays one if more is written behind the text, unless a word goes on there. -/
theorem append (h : IsToken word t rest) {more : List Char} (hparted : Parted (word ++ rest) more) :
    IsToken word t (rest ++ more) := by
  cases h with
  | opening => exact .opening _
  | closing => exact .closing _
  | run hrun =>
    refine .run ⟨hrun.ne_nil, hrun.all_word, ?_⟩
    cases rest with
    | cons d rest => exact hrun.stops
    | nil =>
      intro d hd
      rw [List.append_nil] at hparted
      have hlast := List.getLast?_eq_some_getLast hrun.ne_nil
      exact hparted _ hlast d hd (hrun.all_word _ (List.getLast_mem _))

/-- A token stays one if the text is cut behind it. -/
theorem of_append {more : List Char} (h : IsToken word t (rest ++ more)) : IsToken word t rest := by
  cases h with
  | opening => exact .opening _
  | closing => exact .closing _
  | run hrun =>
    refine .run ⟨hrun.ne_nil, hrun.all_word, fun c hc ↦ hrun.stops c ?_⟩
    rw [List.head?_append, Option.mem_def.1 hc]
    rfl

end IsToken

/-- White space moves the places of the tokens, and nothing else. -/
theorem lexFrom_blank {c : Char} (hc : Text.isBlank c = true) (start : Nat) (cs : List Char) :
    lexFrom [] start (c :: cs) = lexFrom [] (start + 1) cs := by
  simp [lexFrom, isWordChar_of_isBlank hc, ne_opening_of_isBlank hc, ne_closing_of_isBlank hc,
    endWord]

/-- The tokens of a text one by one, where it does not matter what kind of tokens they are. -/
@[elab_as_elim]
theorem Splits.tokenInduction {motive : ∀ cs ts, Splits cs ts → Prop} (nil : motive [] [] .nil)
    (blank : ∀ {c cs ts} (hc : Text.isBlank c = true) (h : Splits cs ts), motive cs ts h →
      motive (c :: cs) ts (.blank hc h))
    (token : ∀ {word t cs ts} (hword : IsToken word t cs) (h : Splits cs ts), motive cs ts h →
      motive (word ++ cs) (t :: ts) (hword.splits h))
    {cs : List Char} {ts : List Token} (h : Splits cs ts) : motive cs ts h := by
  have run {word cs : List Char} {t : Token} {ts : List Token} (hrun : IsRun word cs)
      (ht : .ofWord (String.ofList word) = t) (h : Splits cs ts) (ih : motive cs ts h)
      (hall : Splits (word ++ cs) (t :: ts)) : motive (word ++ cs) (t :: ts) hall := by
    subst ht
    exact token (.run hrun) h ih
  induction h with
  | nil => exact nil
  | blank hc h ih => exact blank hc h ih
  | opening h ih => exact token (.opening _) h ih
  | closing h ih => exact token (.closing _) h ih
  | connective hrun hspells h ih => exact run hrun (ofWord_of_spells hspells) h ih _
  | word hrun hspells h ih => exact run hrun (ofWord_of_not_spells hspells) h ih _

namespace Parted

/-- Whether a word goes on across the border is decided at the border. -/
theorem of_append {xs ys zs : List Char} (h : Parted (xs ++ ys) zs) : Parted ys zs := by
  intro c hc
  refine h c ?_
  rw [List.getLast?_append, Option.mem_def.1 hc]
  rfl

theorem append_left {xs ys zs : List Char} (hxs : ys = [] → Parted xs zs) (hys : Parted ys zs) :
    Parted (xs ++ ys) zs := by
  intro c hc
  rw [List.getLast?_append] at hc
  cases hlast : ys.getLast? with
  | some d =>
    rw [hlast] at hc
    exact hys c (hlast.trans hc)
  | none =>
    rw [hlast] at hc
    exact hxs (List.getLast?_eq_none_iff.1 hlast) c hc

/-- Only the beginning of what comes behind the border matters. -/
theorem iff_append {xs ys : List Char} (hys : ys ≠ []) (zs : List Char) :
    Parted xs (ys ++ zs) ↔ Parted xs ys := by
  obtain ⟨d, ys, rfl⟩ := List.exists_cons_of_ne_nil hys
  rfl

theorem of_isBlank {c : Char} (hc : Text.isBlank c = true) (ys : List Char) : Parted [c] ys := by
  intro e he d _ hword
  obtain rfl : c = e := Option.some.inj he
  rw [isWordChar_of_isBlank hc] at hword
  cases hword

end Parted

/-- Two texts next to each other have the tokens of both, unless a word goes on across the border. -/
theorem Splits.append {xs ys : List Char} (hxs : Splits xs ts) (hys : Splits ys us)
    (hparted : Parted xs ys) : Splits (xs ++ ys) (ts ++ us) := by
  induction hxs using Splits.tokenInduction with
  | nil => exact hys
  | @blank c _ _ hc _ ih => exact .blank hc (ih (@Parted.of_append [c] _ _ hparted))
  | token hword _ ih =>
    rw [List.append_assoc]
    exact (hword.append hparted).splits (ih hparted.of_append)

/-- A text is cut in front of any of its tokens. -/
theorem Splits.exists_cut (h : Splits cs ts) {start : Nat} {done rest : List Lexeme} {l : Lexeme}
    (hlex : lexFrom [] start cs = done ++ l :: rest) :
    ∃ before word behind, cs = before ++ (word ++ behind) ∧ l.start = start + before.length ∧
      IsToken word l.token behind ∧ Splits before (done.map (·.token)) ∧ Parted before word := by
  induction h using Splits.tokenInduction generalizing start done with
  | nil => simp [lexFrom, endWord] at hlex
  | @blank c cs ts hc _ ih =>
    rw [lexFrom_blank hc] at hlex
    obtain ⟨before, word, behind, rfl, hstart, hword, hbefore, hparted⟩ := ih hlex
    refine ⟨c :: before, word, behind, rfl, ?_, hword, .blank hc hbefore, ?_⟩
    · rw [hstart, List.length_cons, Nat.add_right_comm, Nat.add_assoc]
    · exact @Parted.append_left [c] _ _ (fun _ ↦ .of_isBlank hc word) hparted
  | @token run t cs ts hrun _ ih =>
    rw [hrun.lexFrom_eq] at hlex
    cases done with
    | nil =>
      obtain ⟨rfl, rfl⟩ := List.cons.inj hlex
      exact ⟨[], run, cs, rfl, rfl, hrun, .nil, by simp [Parted]⟩
    | cons first done =>
      obtain ⟨rfl, hrest⟩ := List.cons.inj hlex
      obtain ⟨before, word, behind, rfl, hstart, hword, hbefore, hparted⟩ := ih hrest
      refine ⟨run ++ before, word, behind, ?_, ?_, hword, hrun.of_append.splits hbefore, ?_⟩
      · rw [List.append_assoc]
      · rw [hstart, List.length_append, Nat.add_assoc]
      · refine .append_left ?_ hparted
        rintro rfl
        exact (Parted.iff_append hword.ne_nil behind).1 hrun.parted

/-! ## How deep the beginning of a text is -/

theorem le_depthFrom (opened deepest : Nat) (ts : List Token) :
    deepest ≤ depthFrom opened deepest ts := by
  induction ts generalizing opened deepest with
  | nil => exact Nat.le_refl _
  | cons t ts ih =>
    cases t with
    | opening => exact Nat.le_trans (Nat.le_max_left ..) (ih ..)
    | closing | connective | word => exact ih ..

/-- The beginning of a text is not deeper than the text. -/
theorem depthFrom_le_append (opened deepest : Nat) (ts us : List Token) :
    depthFrom opened deepest ts ≤ depthFrom opened deepest (ts ++ us) := by
  induction ts generalizing opened deepest with
  | nil => exact le_depthFrom opened deepest us
  | cons t ts ih => cases t <;> exact ih ..

/-- A text does not become deeper by tokens that open nothing. -/
theorem depthFrom_append_of_not_opening (opened deepest : Nat) (ts : List Token)
    (hus : .opening ∉ us) : depthFrom opened deepest (ts ++ us) = depthFrom opened deepest ts := by
  induction ts generalizing opened deepest with
  | cons t ts ih => cases t <;> exact ih ..
  | nil =>
    induction us generalizing opened with
    | nil => rfl
    | cons u us ih =>
      have hrest := List.not_mem_of_not_mem_cons hus
      cases u with
      | opening => exact absurd List.mem_cons_self hus
      | closing | connective | word => exact ih hrest _

/-! ## Texts -/

/-- A text is an expression if it nests within the limit and its tokens can be read from the start.
-/
theorem parse_eq_ok_iff_read {text : String} {e : Logic} :
    parse text = .ok e ↔ nesting text ≤ nestingLimit ∧ Stage.start.read (lex text) = .ok e :=
  parse_eq_ok_iff.trans (and_congr Iff.rfl expectTerm_lex_eq_ok_iff.symm)

namespace Stage

variable {s : Stage} {t : Token}

theorem splits_closings (n : Nat) : Splits (List.replicate n ')') (List.replicate n .closing) := by
  induction n with
  | zero => exact .nil
  | succ n ih => exact .closing ih

theorem splits_endingText (s : Stage) : Splits s.endingText s.ending := by
  cases s with
  | behind outer terms => exact splits_closings outer.length
  | expecting outer before =>
    have hrun : IsRun ['a'] (List.replicate outer.length ')') := by
      refine ⟨by simp, fun c hc ↦ ?_, ?_⟩
      · obtain rfl := List.mem_singleton.1 hc
        decide
      · cases outer <;> simp [List.replicate_succ]
    exact .blank (by decide) (hrun.splits (splits_closings outer.length))

/-- The text of an ending never goes on with a word that stands before it. -/
theorem parted_endingText (s : Stage) (before : List Char) : Parted before s.endingText := by
  intro c _ d hd _
  cases s with
  | expecting outer _ =>
    obtain rfl := Option.some.inj hd
    decide
  | behind outer _ =>
    cases outer with
    | nil => cases hd
    | cons _ _ =>
      obtain rfl := Option.some.inj hd
      decide

theorem opening_notMem_ending (s : Stage) : .opening ∉ s.ending := by
  cases s <;> simp [ending]

/-- Behind the tokens that lead to a stage, its ending makes a text complete. -/
theorem exists_parse_endingText (hs : start.after? ts = some s) (hbefore : Splits before ts)
    (hdepth : depthFrom 0 0 ts ≤ nestingLimit) :
    ∃ e, parse (String.ofList (before ++ s.endingText)) = .ok e := by
  have hsplits : Splits (before ++ s.endingText) (ts ++ s.ending) :=
    hbefore.append s.splits_endingText (s.parted_endingText before)
  have htokens : tokens (String.ofList (before ++ s.endingText)) = ts ++ s.ending :=
    (splits_iff.1 (by simpa using hsplits)).symm
  obtain ⟨done, rest, hlex, rfl, hrest⟩ := List.map_eq_append_iff.1 htokens
  obtain ⟨e, he⟩ := exists_read_ending hrest
  refine ⟨e, parse_eq_ok_iff_read.2 ⟨?_, ?_⟩⟩
  · rwa [nesting_eq_depthFrom, htokens,
      depthFrom_append_of_not_opening _ _ _ s.opening_notMem_ending]
  · rw [hlex, read_append hs, he]

/-- No text is read that has a wrong token behind the tokens that lead to a stage. -/
theorem not_parse_of_next?_eq_none {text : String} (hs : start.after? ts = some s)
    (hnext : s.next? t = none) (htext : Splits text.toList (ts ++ t :: us)) (e : Logic) :
    parse text ≠ .ok e := by
  intro h
  have htokens : tokens text = ts ++ t :: us := (splits_iff.1 htext).symm
  obtain ⟨done, rest, hlex, rfl, hrest⟩ := List.map_eq_append_iff.1 htokens
  obtain ⟨l, rest, rfl, rfl, -⟩ := List.map_eq_cons_iff.1 hrest
  obtain ⟨expected, herror⟩ := read_cons_of_not_next hnext rest
  have hread := (parse_eq_ok_iff_read.1 h).2
  rw [hlex, read_append hs, herror] at hread
  cases hread

end Stage

/-! ## The caret -/

section Caret

open ErrorText

/-- A report shows a caret at the border between two parts of a text. In a text of one line it
stands behind as many spaces as the first part has bytes. In a text of several lines it stands in
the column of the border, which the report tells with the line. -/
inductive PointsBetween (before after : List Char) : String → Prop
  | line (expected : String) : '\n' ∉ before ++ after → PointsBetween before after
      (String.ofList (before ++ after) ++ "\n"
        ++ String.ofList (spaces (Text.utf8Size before)) ++ "^\n" ++ expected)
  | lines (shown expected : String) : '\n' ∈ before ++ after → PointsBetween before after
      ("parse error at line " ++ toString (position before after).line
        ++ ", column " ++ toString (position before after).column ++ "\n" ++ shown
        ++ String.ofList (spaces ((position before after).column - 1)) ++ "^\n" ++ expected)

/-- The report on a place points at the place. -/
theorem pointsBetween_render {text : String} (htext : text.toList = before ++ after)
    (expected : Nat) :
    PointsBetween before after (ErrorText.render text before.length expected) := by
  have hbefore : text.toList.take before.length = before := by
    rw [htext, List.take_left]
  have hafter : text.toList.drop before.length = after := by
    rw [htext, List.drop_left]
  have hcaret : String.ofList ['^', '\n'] = "^\n" := rfl
  have hlines : text.toList.contains '\n' = true ↔ '\n' ∈ before ++ after := by
    rw [htext, List.contains_iff_mem]
  rw [ErrorText.render]
  dsimp only
  rw [hbefore, hafter]
  by_cases hline : '\n' ∈ before ++ after
  · rw [if_pos (hlines.2 hline), String.ofList_append, String.ofList_append, String.ofList_append,
      hcaret, ← String.append_assoc, ← String.append_assoc, ← String.append_assoc]
    exact .lines _ _ hline
  · rw [if_neg (mt hlines.1 hline), String.ofList_append, String.ofList_append,
      String.ofList_append, String.ofList_append, hcaret, htext]
    exact .line _ hline

end Caret

/-! ## The first wrong token -/

/-- A text that is refused, although its parentheses are not too deep, is refused at a place between
two parts of it, and there the caret of the report points. The first part can be completed to a text
that is read. If the second part is not empty, it begins with a token of the text, and no text is
read that begins with the first part and with this token, complete. -/
theorem parse_refuses_at_wrong_token (text : String) (hnesting : nesting text ≤ 64)
    (hrefused : ∀ e, parse text ≠ .ok e) :
    ∃ before after expected report, text.toList = before ++ after ∧
      parse text = .error (.misplaced text before.length expected) ∧
      (LogicError.misplaced text before.length expected).message
        = "logic parse error: " ++ report ∧
      PointsBetween before after report ∧
      (∃ more e, parse (String.ofList (before ++ more)) = .ok e) ∧
      (after ≠ [] → ∃ word token behind, after = word ++ behind ∧ IsToken word token behind ∧
        ⟨token, before.length⟩ ∈ lex text ∧
        ∀ rest, IsToken word token rest → ∀ e,
          parse (String.ofList (before ++ (word ++ rest))) ≠ .ok e) := by
  have hsplits : Splits text.toList (tokens text) := splits_iff.2 rfl
  obtain ⟨m, hread⟩ : ∃ m, Stage.start.read (lex text) = .error m := by
    cases hread : Stage.start.read (lex text) with
    | error m => exact ⟨m, rfl⟩
    | ok e => exact absurd (parse_eq_ok_iff_read.2 ⟨hnesting, hread⟩) (hrefused e)
  have hparse := parse_of_expectTerm_eq_error hnesting hread
  obtain ⟨done, rest, s, hlex, hs, hplace, hnext⟩ := Stage.exists_of_read_eq_error hread
  have hdepth : depthFrom 0 0 (done.map (·.token)) ≤ nestingLimit := by
    refine Nat.le_trans (depthFrom_le_append 0 0 _ (rest.map (·.token))) ?_
    rwa [← List.map_append, ← hlex, ← tokens, ← nesting_eq_depthFrom]
  cases rest with
  | nil =>
    -- The text ends too early: all of it can be completed, and there is no token to point at.
    have hbefore : Splits text.toList (done.map (·.token)) := by
      rwa [tokens, hlex, List.append_nil] at hsplits
    have htext : text.toList = text.toList ++ [] := (List.append_nil _).symm
    refine ⟨text.toList, [], m.expected, _, htext, ?_, rfl, pointsBetween_render htext _,
      ⟨_, Stage.exists_parse_endingText hs hbefore hdepth⟩, absurd rfl⟩
    rw [hparse, hplace]
    rfl
  | cons l rest =>
    -- the text is cut in front of the first token that cannot be read
    obtain ⟨before, word, behind, htext, hstart, hword, hbefore, hparted⟩ :=
      hsplits.exists_cut hlex
    rw [Nat.zero_add] at hstart
    refine ⟨before, word ++ behind, m.expected, _, htext, ?_, rfl, pointsBetween_render htext _,
      ⟨_, Stage.exists_parse_endingText hs hbefore hdepth⟩,
      fun _ ↦ ⟨word, l.token, behind, rfl, hword, ?_, fun more hmore e ↦ ?_⟩⟩
    · rw [hparse, hplace, ← hstart]
      rfl
    · rw [hlex, ← hstart]
      exact List.mem_append_right _ List.mem_cons_self
    -- The cut stays where it is, whatever comes behind the wrong token.
    · have hmoreSplits : Splits more (tokens (String.ofList more)) := by
        simpa using splits_iff.2 (rfl : tokens (String.ofList more) = _)
      have hother : Splits (before ++ (word ++ more))
          (done.map (·.token) ++ l.token :: tokens (String.ofList more)) :=
        hbefore.append (hmore.splits hmoreSplits) ((Parted.iff_append hword.ne_nil more).2 hparted)
      exact Stage.not_parse_of_next?_eq_none hs (hnext l rfl) (by simpa using hother) e

/-- In such a text the first wrong token may stand inside a group and behind letters of several
bytes. Here the caret stands behind 13 spaces, since 11 characters come before the parenthesis. No
text is read that begins as this one does up to the parenthesis, whatever comes then. -/
theorem parse_refuses_closing_behind_connective :
    nesting "(é or ü and) x" ≤ 64 ∧
    parse "(é or ü and) x" = .error (.misplaced "(é or ü and) x" 11 2) ∧
    PointsBetween "(é or ü and".toList ") x".toList
      ("(é or ü and) x\n" ++ String.ofList (List.replicate 13 ' ') ++ "^\n"
        ++ "expected rule id, rule id") ∧
    ∀ rest e, parse (String.ofList ("(é or ü and".toList ++ (')' :: rest))) ≠ .ok e := by
  have hparse : parse "(é or ü and) x" = .error (.misplaced "(é or ü and) x" 11 2) := rfl
  have hnesting : nesting "(é or ü and) x" ≤ 64 := by decide
  have hrefused : ∀ e, parse "(é or ü and) x" ≠ .ok e := by
    intro e h
    rw [hparse] at h
    cases h
  obtain ⟨before, after, expected, report, htext, herror, hmessage, hpoints, -, hwrong⟩ :=
    parse_refuses_at_wrong_token "(é or ü and) x" hnesting hrefused
  obtain ⟨hplace, rfl⟩ : 11 = before.length ∧ 2 = expected := by
    simpa [hparse] using herror
  have hparts : "(é or ü and".toList ++ ") x".toList = before ++ after := htext
  obtain ⟨rfl, rfl⟩ := List.append_inj hparts hplace
  have hreport : ErrorText.render "(é or ü and) x" 11 2 = report :=
    (String.append_right_inj _).1 hmessage
  obtain ⟨word, token, behind, hword, htoken, -, hrest⟩ := hwrong (by simp)
  refine ⟨hnesting, hparse, ?_, ?_⟩
  · rw [← hreport] at hpoints
    exact hpoints
  · cases htoken with
    | opening => cases hword
    | closing => exact fun rest ↦ hrest rest (.closing rest)
    | run hrun =>
      obtain ⟨c, word, rfl⟩ := List.exists_cons_of_ne_nil hrun.ne_nil
      obtain ⟨rfl, -⟩ := List.cons.inj hword
      cases hrun.all_word _ List.mem_cons_self

end Screening.Logic
