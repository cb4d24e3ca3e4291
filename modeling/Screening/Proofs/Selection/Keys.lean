import Screening.Selection.Query

/-!
# The keys of filters

The key of a filter is a word and a row of segments in square brackets. Segments have no brackets
themselves, so a row can be read in one way only (`segmentsFrom?_eq_some_iff`). Of all rows just
those of the junction and of conditions (`ConditionKey`) mean something, and a key of any other form
is malformed.

Reading a key is thus told by writing it: `parse_eq_junction_iff`, `parse_eq_condition_iff` and
`parse_eq_error_iff` cover every text. With the texts written out (`IsConditionKey`) this is
`parse_decodes`.
-/

namespace Screening

/-! ## Segments in brackets -/

/-- Whether a text can stand in square brackets. -/
def Bracketless (text : String) : Prop := ∀ c ∈ text.toList, c ≠ '[' ∧ c ≠ ']'

instance (text : String) : Decidable (Bracketless text) :=
  decidable_of_iff (text.toList.all fun c ↦ c != '[' && c != ']') (by simp [Bracketless])

namespace QueryKey

def writeSegments (segments : List String) : List Char :=
  segments.flatMap fun segment ↦ '[' :: segment.toList ++ [']']

theorem segmentsFrom?_run {opened run rest : List Char} (hrun : ∀ c ∈ run, c ≠ '[' ∧ c ≠ ']') :
    segmentsFrom? (some opened) (run ++ ']' :: rest)
      = (segmentsFrom? none rest).map (String.ofList (opened.reverse ++ run) :: ·) := by
  induction run generalizing opened with
  | nil => simp [segmentsFrom?]
  | cons c run ih =>
    obtain ⟨hopening, hclosing⟩ := hrun c List.mem_cons_self
    have hrest : ∀ d ∈ run, d ≠ '[' ∧ d ≠ ']' := fun d hd ↦ hrun d (List.mem_cons_of_mem c hd)
    rw [List.cons_append, segmentsFrom?, if_neg hopening, if_neg hclosing, ih hrest]
    simp

/-- Segments are read as they are written. -/
theorem segmentsFrom?_writeSegments {segments : List String}
    (h : ∀ segment ∈ segments, Bracketless segment) :
    segmentsFrom? none (writeSegments segments) = some segments := by
  induction segments with
  | nil => rfl
  | cons segment segments ih =>
    obtain ⟨hsegment, hrest⟩ := List.forall_mem_cons.1 h
    have hwritten : writeSegments (segment :: segments)
        = '[' :: (segment.toList ++ ']' :: writeSegments segments) := by
      simp [writeSegments]
    rw [hwritten, segmentsFrom?, if_pos rfl, segmentsFrom?_run hsegment, ih hrest]
    simp

/-- What is read was written, up to the part of the open segment that was read before. -/
theorem eq_writeSegments_of_segmentsFrom? {opened : Option (List Char)} {cs : List Char}
    {segments : List String} (hopened : ∀ run ∈ opened, ∀ c ∈ run, c ≠ '[' ∧ c ≠ ']')
    (h : segmentsFrom? opened cs = some segments) :
    (opened.elim [] fun run ↦ '[' :: run.reverse) ++ cs = writeSegments segments ∧
      ∀ segment ∈ segments, Bracketless segment := by
  -- What was read of the open segment stands in front of what is left, so the two make one text in
  -- every step of the reader.
  fun_induction segmentsFrom? opened cs generalizing segments with
  | case1 opened hnone =>
    cases h
    obtain rfl := Option.isNone_iff_eq_none.1 hnone
    exact ⟨rfl, nofun⟩
  | case2 opened hsome => cases h
  | case3 cs ih =>
    obtain ⟨hwritten, hsegments⟩ := ih (by rintro run ⟨⟩; exact nofun) h
    exact ⟨hwritten, hsegments⟩
  | case4 c cs hc => cases h
  | case5 cs run => cases h
  | case6 cs run hne ih =>
    obtain ⟨others, hothers, rfl⟩ := Option.map_eq_some_iff.1 h
    obtain ⟨hwritten, hsegments⟩ := ih nofun hothers
    rw [Option.elim_none, List.nil_append] at hwritten
    refine ⟨by simp [writeSegments, hwritten], List.forall_mem_cons.2 ⟨?_, hsegments⟩⟩
    intro c hc
    rw [String.toList_ofList, List.mem_reverse] at hc
    exact hopened run rfl c hc
  | case7 c cs run hopening hclosing ih =>
    have hrun : ∀ run' ∈ some (c :: run), ∀ d ∈ run', d ≠ '[' ∧ d ≠ ']' := by
      rintro _ ⟨⟩
      exact List.forall_mem_cons.2 ⟨⟨hopening, hclosing⟩, hopened run rfl⟩
    obtain ⟨hwritten, hsegments⟩ := ih hrun h
    refine ⟨?_, hsegments⟩
    rw [← hwritten]
    simp

/-- Segments are read from their own text, and from no other. -/
theorem segmentsFrom?_eq_some_iff {cs : List Char} {segments : List String} :
    segmentsFrom? none cs = some segments ↔
      cs = writeSegments segments ∧ ∀ segment ∈ segments, Bracketless segment := by
  constructor
  · exact eq_writeSegments_of_segmentsFrom? nofun
  · rintro ⟨rfl, hsegments⟩
    exact segmentsFrom?_writeSegments hsegments

theorem segments?_eq_some_iff {cs : List Char} {segments : List String} :
    segments? cs = some segments ↔
      cs = "filters".toList ++ writeSegments segments ∧
        ∀ segment ∈ segments, Bracketless segment := by
  have hword : "filters".toList = ['f', 'i', 'l', 't', 'e', 'r', 's'] := by decide
  rw [hword]
  constructor
  · intro h
    rw [segments?.eq_def] at h
    split at h
    · obtain ⟨rfl, hsegments⟩ := segmentsFrom?_eq_some_iff.1 h
      exact ⟨rfl, hsegments⟩
    · cases h
  · rintro ⟨rfl, hsegments⟩
    exact segmentsFrom?_writeSegments hsegments

end QueryKey

/-! ## Keys of conditions -/

/-- The key of a condition. An index is a row of digits and says no more than that the condition may
come several times. -/
structure ConditionKey where
  field : String
  symbol : String
  index : Option String := none
  field_ne_blank : Text.blank field = false
  field_bracketless : Bracketless field
  symbol_bracketless : Bracketless symbol
  index_digits : ∀ digits ∈ index, QueryKey.isIndex digits = true

namespace ConditionKey

variable {key : ConditionKey}

def write (key : ConditionKey) : String :=
  "filters[" ++ key.field ++ "][conditions][" ++ key.symbol ++ "]"
    ++ key.index.elim "" fun digits ↦ "[" ++ digits ++ "]"

def segments (key : ConditionKey) : List String :=
  [key.field, "conditions", key.symbol] ++ key.index.toList

theorem toList_write (key : ConditionKey) :
    key.write.toList = "filters".toList ++ QueryKey.writeSegments key.segments := by
  cases hindex : key.index <;>
    simp [write, segments, hindex, QueryKey.writeSegments]

theorem bracketless_of_isIndex {digits : String} (h : QueryKey.isIndex digits = true) :
    Bracketless digits := by
  intro c hc
  have hdigit : c.isDigit = true := List.all_eq_true.1 h c hc
  constructor
  · rintro rfl
    exact absurd hdigit (by decide)
  · rintro rfl
    exact absurd hdigit (by decide)

theorem bracketless_of_mem_segments {segment : String} (h : segment ∈ key.segments) :
    Bracketless segment := by
  simp only [segments, List.mem_append, List.mem_cons, List.not_mem_nil, or_false,
    Option.mem_toList] at h
  rcases h with (rfl | rfl | rfl) | hindex
  · exact key.field_bracketless
  · decide
  · exact key.symbol_bracketless
  · exact bracketless_of_isIndex (key.index_digits segment hindex)

end ConditionKey

namespace QueryKey

/-! ## What keys say -/

variable {text field symbol : String} {segments : List String} {parsed : QueryKey}

/-- A key is read as the condition that it is written for, with or without an index. -/
theorem ofSegments?_segments (key : ConditionKey) :
    ofSegments? key.segments = some (.condition key.field key.symbol) := by
  have hfield : onField? key.field key.symbol = some (.condition key.field key.symbol) := by
    simp [onField?, key.field_ne_blank]
  cases hindex : key.index with
  | none => simpa [ConditionKey.segments, hindex, ofSegments?] using hfield
  | some digits =>
    have hdigits : isIndex digits = true := key.index_digits digits hindex
    simpa [ConditionKey.segments, hindex, ofSegments?, hdigits] using hfield

/-- Only a blank field keeps a condition from being read. -/
theorem onField?_eq_some (h : onField? field symbol = some parsed) :
    Text.blank field = false ∧ parsed = .condition field symbol := by
  cases hblank : Text.blank field with
  | true => simp [onField?, hblank] at h
  | false =>
    simp only [onField?, hblank, Bool.false_eq_true, if_false, Option.some.injEq] at h
    exact ⟨rfl, h.symm⟩

/-- Segments say something only if they are those of the junction or of a condition. -/
theorem ofSegments?_eq_some (hsegments : ∀ segment ∈ segments, Bracketless segment)
    (h : ofSegments? segments = some parsed) :
    (segments = ["junction"] ∧ parsed = .junction) ∨
      ∃ key : ConditionKey, segments = key.segments ∧ parsed = .condition key.field key.symbol := by
  revert h
  fun_cases ofSegments? segments
  case case1 =>
    rintro ⟨⟩
    exact .inl ⟨rfl, rfl⟩
  case case2 field symbol =>
    intro h
    obtain ⟨hblank, rfl⟩ := onField?_eq_some h
    exact .inr ⟨⟨field, symbol, none, hblank, hsegments field (by simp),
      hsegments symbol (by simp), nofun⟩, rfl, rfl⟩
  case case3 field symbol index hindex =>
    intro h
    obtain ⟨hblank, rfl⟩ := onField?_eq_some h
    refine .inr ⟨⟨field, symbol, some index, hblank, hsegments field (by simp),
      hsegments symbol (by simp), ?_⟩, rfl, rfl⟩
    rintro digits ⟨⟩
    exact hindex
  all_goals rintro ⟨⟩

/-- A key is read if it falls into segments that refer to something. -/
theorem parse_eq_ok_iff :
    parse text = .ok parsed ↔ ∃ segments, ofSegments? segments = some parsed ∧
      text.toList = "filters".toList ++ writeSegments segments ∧
      ∀ segment ∈ segments, Bracketless segment := by
  have hparse :
      parse text = .ok parsed ↔ (segments? text.toList).bind ofSegments? = some parsed := by
    rw [parse]
    cases (segments? text.toList).bind ofSegments? <;> simp
  rw [hparse, Option.bind_eq_some_iff]
  refine exists_congr fun segments ↦ ?_
  rw [segments?_eq_some_iff, and_comm]

theorem parse_junction : parse "filters[junction]" = .ok .junction :=
  parse_eq_ok_iff.2 ⟨["junction"], rfl, by decide, by decide⟩

/-- The key of a condition is read as it is written. -/
theorem parse_write (key : ConditionKey) :
    parse key.write = .ok (.condition key.field key.symbol) :=
  parse_eq_ok_iff.2 ⟨key.segments, ofSegments?_segments key, key.toList_write, fun _ ↦
    ConditionKey.bracketless_of_mem_segments⟩

/-- A key that says something is that of the junction or of a condition. -/
theorem parse_eq_ok_cases (h : parse text = .ok parsed) :
    (text = "filters[junction]" ∧ parsed = .junction) ∨
      ∃ key : ConditionKey, text = key.write ∧ parsed = .condition key.field key.symbol := by
  obtain ⟨segments, hparsed, htext, hsegments⟩ := parse_eq_ok_iff.1 h
  rcases ofSegments?_eq_some hsegments hparsed with ⟨rfl, rfl⟩ | ⟨key, rfl, rfl⟩
  · refine .inl ⟨String.toList_inj.1 ?_, rfl⟩
    rw [htext]
    decide
  · refine .inr ⟨key, String.toList_inj.1 ?_, rfl⟩
    rw [htext, key.toList_write]

/-- Only one text means the junction. -/
theorem parse_eq_junction_iff : parse text = .ok .junction ↔ text = "filters[junction]" := by
  constructor
  · intro h
    rcases parse_eq_ok_cases h with ⟨htext, -⟩ | ⟨key, -, hparsed⟩
    · exact htext
    · cases hparsed
  · rintro rfl
    exact parse_junction

/-- A condition is meant by its own keys and by no other text. -/
theorem parse_eq_condition_iff :
    parse text = .ok (.condition field symbol) ↔
      ∃ key : ConditionKey, key.field = field ∧ key.symbol = symbol ∧ text = key.write := by
  constructor
  · intro h
    rcases parse_eq_ok_cases h with ⟨-, hparsed⟩ | ⟨key, htext, hparsed⟩
    · cases hparsed
    · cases hparsed
      exact ⟨key, rfl, rfl, htext⟩
  · rintro ⟨key, rfl, rfl, rfl⟩
    exact parse_write key

/-- Every other text is malformed as a key, and the error has it as it is. -/
theorem parse_eq_error_iff {error : QueryError} :
    parse text = .error error ↔ error = .malformedKey text ∧ text ≠ "filters[junction]" ∧
      ∀ key : ConditionKey, text ≠ key.write := by
  have hnone : (∀ parsed, parse text ≠ .ok parsed) ↔
      text ≠ "filters[junction]" ∧ ∀ key : ConditionKey, text ≠ key.write := by
    constructor
    · intro h
      exact ⟨fun htext ↦ h _ (parse_eq_junction_iff.2 htext), fun key htext ↦
        h _ (parse_eq_condition_iff.2 ⟨key, rfl, rfl, htext⟩)⟩
    · rintro ⟨hjunction, hcondition⟩ parsed hparsed
      rcases parse_eq_ok_cases hparsed with ⟨htext, -⟩ | ⟨key, htext, -⟩
      · exact hjunction htext
      · exact hcondition key htext
  rw [← hnone, parse]
  cases (segments? text.toList).bind ofSegments? with
  | some parsed => simp
  | none => simp [eq_comm]

/-! ## Texts of keys -/

/-- An index is a row of digits from 0 to 9, which may be empty. -/
theorem isIndex_iff {digits : String} :
    isIndex digits = true ↔ ∀ c ∈ digits.toList, '0' ≤ c ∧ c ≤ '9' := by
  simp [isIndex, Char.isDigit, Char.le_def]

/-- A text is the key of a condition: in brackets it names a field, which is not blank, and an
operator, and perhaps there is a row of digits behind them. -/
structure IsConditionKey (text field symbol : String) : Prop where
  field_ne_blank : Text.blank field = false
  field_bracketless : Bracketless field
  symbol_bracketless : Bracketless symbol
  written : text = "filters[" ++ field ++ "][conditions][" ++ symbol ++ "]" ∨
    ∃ digits : String, (∀ c ∈ digits.toList, '0' ≤ c ∧ c ≤ '9') ∧
      text = "filters[" ++ field ++ "][conditions][" ++ symbol ++ "][" ++ digits ++ "]"

/-- The brackets between the operator and the digits. -/
theorem append_digits (key digits : String) :
    key ++ "][" ++ digits ++ "]" = key ++ "]" ++ ("[" ++ digits ++ "]") :=
  String.toList_inj.1 (by simp)

theorem isConditionKey_iff : IsConditionKey text field symbol ↔
    ∃ key : ConditionKey, key.field = field ∧ key.symbol = symbol ∧ text = key.write := by
  constructor
  · rintro ⟨hblank, hfield, hsymbol, rfl | ⟨digits, hdigits, rfl⟩⟩
    · exact ⟨⟨field, symbol, none, hblank, hfield, hsymbol, nofun⟩, rfl, rfl,
        String.append_empty.symm⟩
    · have hindex : ∀ index ∈ some digits, isIndex index = true := by
        rintro _ ⟨⟩
        exact isIndex_iff.2 hdigits
      exact ⟨⟨field, symbol, some digits, hblank, hfield, hsymbol, hindex⟩, rfl, rfl,
        append_digits _ digits⟩
  · rintro ⟨⟨field, symbol, index, hblank, hfield, hsymbol, hindex⟩, rfl, rfl, rfl⟩
    refine ⟨hblank, hfield, hsymbol, ?_⟩
    cases index with
    | none => exact .inl String.append_empty
    | some digits =>
      exact .inr ⟨digits, isIndex_iff.1 (hindex digits rfl), (append_digits _ digits).symm⟩

/-- A text is read as the key of the junction or of a condition exactly if it is one, and is
malformed otherwise, in which case the error has the text as it is. So the text alone tells the field
and the operator. The other way round, every field that is not blank and every operator can be
written, with digits behind them or without, as long as they have no brackets; they are read as they
were, whatever else they look like. -/
theorem parse_decodes :
    (∀ text,
      (parse text = .ok .junction ↔ text = "filters[junction]") ∧
      (∀ field symbol, parse text = .ok (.condition field symbol) ↔
        IsConditionKey text field symbol) ∧
      (∀ error, parse text = .error error ↔ error = .malformedKey text ∧
        text ≠ "filters[junction]" ∧ ∀ field symbol, ¬ IsConditionKey text field symbol) ∧
      (∀ field symbol field' symbol', IsConditionKey text field symbol →
        IsConditionKey text field' symbol' → field = field' ∧ symbol = symbol')) ∧
    ∀ field symbol, Text.blank field = false → Bracketless field → Bracketless symbol →
      parse ("filters[" ++ field ++ "][conditions][" ++ symbol ++ "]")
        = .ok (.condition field symbol) ∧
      ∀ digits : String, (∀ c ∈ digits.toList, '0' ≤ c ∧ c ≤ '9') →
        parse ("filters[" ++ field ++ "][conditions][" ++ symbol ++ "][" ++ digits ++ "]")
          = .ok (.condition field symbol) := by
  have hcondition : ∀ text field symbol, parse text = .ok (.condition field symbol) ↔
      IsConditionKey text field symbol := by
    intro text field symbol
    rw [isConditionKey_iff, parse_eq_condition_iff]
  refine ⟨fun text ↦ ⟨parse_eq_junction_iff, hcondition text, fun error ↦ ?_, ?_⟩, ?_⟩
  · rw [parse_eq_error_iff]
    simp only [isConditionKey_iff, not_exists, not_and]
    refine and_congr_right fun _ ↦ and_congr_right fun _ ↦ ?_
    exact ⟨fun hkey _ _ key _ _ ↦ hkey key, fun hkey key ↦ hkey _ _ key rfl rfl⟩
  · intro field symbol field' symbol' hkey hkey'
    have hsame := ((hcondition _ _ _).2 hkey).symm.trans ((hcondition _ _ _).2 hkey')
    cases hsame
    exact ⟨rfl, rfl⟩
  · intro field symbol hblank hfield hsymbol
    refine ⟨?_, fun digits hdigits ↦ ?_⟩
    · exact (hcondition _ _ _).2 ⟨hblank, hfield, hsymbol, .inl rfl⟩
    · exact (hcondition _ _ _).2 ⟨hblank, hfield, hsymbol, .inr ⟨digits, hdigits, rfl⟩⟩

/-- A field that looks like the fixed segment of a key, and one with spaces around it. A bracket too
many and a number that is not written in digits from 0 to 9 are malformed. -/
theorem parse_decodes_lookalikes :
    parse "filters[conditions][conditions][conditions][007]"
      = .ok (.condition "conditions" "conditions") ∧
    parse "filters[ junction ][conditions][]" = .ok (.condition " junction " "") ∧
    parse "filters[code][conditions][[$is]]"
      = .error (.malformedKey "filters[code][conditions][[$is]]") ∧
    parse "filters[code][conditions][$is][٣]"
      = .error (.malformedKey "filters[code][conditions][$is][٣]") := by
  have hdigits : ∀ c ∈ "007".toList, '0' ≤ c ∧ c ≤ '9' := by
    intro c hc
    change c ∈ ['0', '0', '7'] at hc
    simp only [List.mem_cons, List.not_mem_nil, or_false] at hc
    rcases hc with rfl | rfl | rfl <;> decide
  refine ⟨?_, ?_, rfl, rfl⟩
  · exact (parse_decodes.2 "conditions" "conditions" (by decide) (by decide) (by decide)).2 "007"
      hdigits
  · exact (parse_decodes.2 " junction " "" (by decide) (by decide) (by decide)).1

end QueryKey

end Screening
