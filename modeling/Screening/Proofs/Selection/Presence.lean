import Screening.Proofs.Selection.Patterns
import Screening.Proofs.Selection.Spelling

/-!
# Data that says nothing

A field can be without data in several forms: nothing is found at its path, or null, or a blank
string, or a list without anything but nulls (`NoData`). To criteria these are one and the same, as
are the subjects without candidates (`Subject.candidates_ofData_eq_nil_iff`), and nulls in a list
are passed over.

The two flags of presence are opposites of one another with one exception: a list that has nothing
but blank strings and nulls, and at least one blank string, is neither without data nor does it have
a value (`OnlyBlanks`).
-/

namespace Screening

/-! ## Forms of no data -/

/-- What was found says nothing. -/
inductive NoData : Option Value → Prop
  | missing : NoData none
  | null : NoData (some .null)
  | blank {text : String} : Text.blank text = true → NoData (some (.string text))
  | nulls {items : List Value} : (∀ item ∈ items, item = .null) → NoData (some (.list items))

/-- What was found is a list that is not without items, nulls aside, but all its items are blank. -/
inductive OnlyBlanks : Option Value → Prop
  | list {items : List Value} : (∃ item ∈ items, item ≠ .null) →
    (∀ item ∈ items, item = .null ∨ ∃ text, item = .string text ∧ Text.blank text = true) →
      OnlyBlanks (some (.list items))

/-- The second list is the first with nulls put in anywhere. -/
inductive Padded : List Value → List Value → Prop
  | nil : Padded [] []
  | cons (item : Value) {items items' : List Value} :
    Padded items items' → Padded (item :: items) (item :: items')
  | null {items items' : List Value} : Padded items items' → Padded items (.null :: items')

namespace Subject

variable {found : Option Value} {items items' : List Value} {item : Value} {text : String}

def ofData (found : Option Value) : Subject := found.elim .absent .ofValue

theorem subject_eq_ofData (metadata : Metadata) (path : String) :
    Selectable.subject metadata path = ofData (Value.lookup metadata path) := rfl

theorem textOf?_eq_none_iff : textOf? item = none ↔ item = .null := by
  cases item <;> simp [textOf?]

/-- Only a blank string has a blank text. -/
theorem blank_of_textOf?_eq_some (h : textOf? item = some text) :
    Text.blank text = true ↔ ∃ s, item = .string s ∧ Text.blank s = true := by
  cases item with
  | null => cases h
  | string s =>
    cases h
    simp
  | bool | number | list | map =>
    obtain rfl := Option.some.inj h
    simp [Value.blank_render_eq_false]

theorem filterMap_textOf?_eq_nil_iff :
    items.filterMap textOf? = [] ↔ ∀ item ∈ items, item = .null := by
  simp only [List.filterMap_eq_nil_iff, textOf?_eq_none_iff]

/-- All texts of a list are blank if its items are nulls and blank strings. -/
theorem forall_blank_filterMap_textOf?_iff :
    (∀ text ∈ items.filterMap textOf?, Text.blank text = true) ↔
      ∀ item ∈ items, item = .null ∨ ∃ text, item = .string text ∧ Text.blank text = true := by
  constructor
  · intro h item hitem
    cases htext : textOf? item with
    | none => exact .inl (textOf?_eq_none_iff.1 htext)
    | some text =>
      have hblank := h text (List.mem_filterMap.2 ⟨item, hitem, htext⟩)
      exact .inr ((blank_of_textOf?_eq_some htext).1 hblank)
  · intro h text hmem
    obtain ⟨item, hitem, htext⟩ := List.mem_filterMap.1 hmem
    rcases h item hitem with rfl | hblank
    · cases htext
    · exact (blank_of_textOf?_eq_some htext).2 hblank

/-- Nulls in a list are passed over. -/
theorem filterMap_textOf?_padded (h : Padded items items') :
    items'.filterMap textOf? = items.filterMap textOf? := by
  induction h with
  | nil => rfl
  | cons item _ ih => rw [List.filterMap_cons, List.filterMap_cons, ih]
  | null _ ih => rwa [List.filterMap_cons_none rfl]

/-! ## Candidates -/

theorem candidates_one_eq_nil_iff : (one text).candidates = [] ↔ Text.blank text = true := by
  rw [candidates, ite_eq_left_iff, Bool.not_eq_true]
  simp

/-- What is without candidates is without data. -/
theorem candidates_ofData_eq_nil_iff : (ofData found).candidates = [] ↔ NoData found := by
  constructor
  · intro h
    cases found with
    | none => exact .missing
    | some v =>
      cases v with
      | null => exact .null
      | string s => exact .blank (candidates_one_eq_nil_iff.1 h)
      | list items => exact .nulls (filterMap_textOf?_eq_nil_iff.1 h)
      | bool | number | map =>
        exact absurd (candidates_one_eq_nil_iff.1 h) (by simp [Value.blank_render_eq_false])
  · intro h
    cases h with
    | missing | null => rfl
    | blank hblank => exact candidates_one_eq_nil_iff.2 hblank
    | nulls hnulls => exact filterMap_textOf?_eq_nil_iff.2 hnulls

/-- A text on its own is a candidate only if it is not blank. -/
theorem forall_blank_candidates_one_iff :
    (∀ candidate ∈ (one text).candidates, Text.blank candidate = true) ↔
      (one text).candidates = [] := by
  rw [candidates]
  split
  case isTrue => simp
  case isFalse hblank => simpa using hblank

/-- There are blank candidates only in a list, where they can be all there is. -/
theorem forall_blank_candidates_ofData_iff :
    (∀ candidate ∈ (ofData found).candidates, Text.blank candidate = true) ↔
      NoData found ∨ OnlyBlanks found := by
  constructor
  · intro h
    by_cases hsome : (ofData found).candidates = []
    case pos => exact .inl (candidates_ofData_eq_nil_iff.1 hsome)
    case neg =>
      right
      cases found with
      | none => exact absurd rfl hsome
      | some v =>
        cases v with
        | list items =>
          refine .list ?_ (forall_blank_filterMap_textOf?_iff.1 h)
          have hnotall := mt filterMap_textOf?_eq_nil_iff.2 hsome
          simpa only [not_forall, exists_prop] using hnotall
        | null => exact absurd rfl hsome
        | string | bool | number | map =>
          exact absurd (forall_blank_candidates_one_iff.1 h) hsome
  · rintro (hnone | ⟨-, hblank⟩)
    · rw [candidates_ofData_eq_nil_iff.2 hnone]
      exact nofun
    · exact forall_blank_filterMap_textOf?_iff.2 hblank

end Subject

/-- A list of blank texts does hold something. -/
theorem OnlyBlanks.not_noData {found : Option Value} (h : OnlyBlanks found) : ¬ NoData found := by
  obtain ⟨⟨item, hmem, hitem⟩, -⟩ := h
  intro hnone
  cases hnone with
  | nulls hnulls => exact hitem (hnulls item hmem)

/-! ## Verdicts -/

namespace Criteria

open Subject (ofData candidates_ofData_eq_nil_iff)

variable {criteria : Criteria} {found : Option Value}

/-- Without data a subject passes if it may be unknown, or if nothing has to be there. -/
theorem passesNothing_iff : criteria.passesNothing = true ↔
    criteria.isUnknown = true ∨ (criteria.hasValue = false ∧ ¬ criteria.HasAlternative) := by
  rw [passesNothing, ← hasInclude_iff]
  simp

theorem passes_ofData_of_noData (criteria : Criteria) (h : NoData found) :
    criteria.passes (ofData found) = criteria.passesNothing := by
  rw [passes_eq, candidates_ofData_eq_nil_iff.2 h]
  rfl

/-- What has data is not unknown. -/
theorem passes_ofData_eq_false (hflag : criteria.isUnknown = true) (h : ¬ NoData found) :
    criteria.passes (ofData found) = false := by
  rw [Bool.eq_false_iff, ne_eq, passes_eq_true_iff, candidates_ofData_eq_nil_iff]
  rintro (⟨hnone, -⟩ | ⟨text, -, haccepts⟩)
  · exact h hnone
  · rw [(accepts_iff.1 haccepts).1] at hflag
    cases hflag

theorem accepts_only_hasValue (value text : String) :
    (only .hasValue value).accepts text = true ↔ Text.blank text ≠ true := by
  rw [accepts_iff]
  simp [only, add, hasInclude]

/-- To have a value, something must be found that is not blank throughout. -/
theorem passes_only_hasValue_iff {value : String} :
    (only .hasValue value).passes (ofData found) = true ↔ ¬ NoData found ∧ ¬ OnlyBlanks found := by
  rw [← not_or, ← Subject.forall_blank_candidates_ofData_iff, passes_eq_true_iff]
  simp only [accepts_only_hasValue, not_forall, exists_prop]
  exact or_iff_right fun h ↦ absurd h.2 (by simp [passesNothing, only, add])

/-- Unknown is what says nothing; a list of blanks says something. -/
theorem passes_only_isUnknown_iff {value : String} :
    (only .isUnknown value).passes (ofData found) = true ↔ NoData found := by
  by_cases h : NoData found
  · rw [passes_ofData_of_noData _ h]
    exact iff_of_true rfl h
  · rw [passes_ofData_eq_false rfl h]
    exact iff_of_false Bool.false_ne_true h

/-- All data that says nothing passes alike, and nothing else passes as unknown. Nulls in a list
make no difference. Of the two flags of presence exactly one lets an entity pass, but for a list
with nothing but blanks in it, which neither does. -/
theorem passes_by_presence (criteria : Criteria) (metadata : Metadata) (path : String) :
    (NoData (Value.lookup metadata path) →
      (criteria.passes (Selectable.subject metadata path) = true ↔
        criteria.isUnknown = true ∨ (criteria.hasValue = false ∧ ¬ criteria.HasAlternative))) ∧
    (¬ NoData (Value.lookup metadata path) → criteria.isUnknown = true →
      criteria.passes (Selectable.subject metadata path) = false) ∧
    (∀ (metadata' : Metadata) (items items' : List Value),
      Value.lookup metadata path = some (.list items) →
      Value.lookup metadata' path = some (.list items') → Padded items items' →
        criteria.passes (Selectable.subject metadata' path)
          = criteria.passes (Selectable.subject metadata path)) ∧
    ∀ value value' : String,
      ¬ ((only .hasValue value).passes (Selectable.subject metadata path) = true ∧
        (only .isUnknown value').passes (Selectable.subject metadata path) = true) ∧
      (¬ OnlyBlanks (Value.lookup metadata path) →
        (only .hasValue value).passes (Selectable.subject metadata path)
          = !(only .isUnknown value').passes (Selectable.subject metadata path)) ∧
      (OnlyBlanks (Value.lookup metadata path) →
        (only .hasValue value).passes (Selectable.subject metadata path) = false ∧
        (only .isUnknown value').passes (Selectable.subject metadata path) = false) := by
  simp only [Subject.subject_eq_ofData]
  refine ⟨?nothing, ?something, ?nulls, fun value value' ↦ ⟨?both, ?one, ?neither⟩⟩
  case nothing =>
    intro h
    rw [passes_ofData_of_noData criteria h, passesNothing_iff]
  case something => exact fun h hflag ↦ passes_ofData_eq_false hflag h
  case nulls =>
    intro metadata' items items' hitems hitems' hpadded
    rw [hitems, hitems']
    exact congrArg (fun texts ↦ criteria.passes (.many texts))
      (Subject.filterMap_textOf?_padded hpadded)
  case both =>
    rw [passes_only_hasValue_iff, passes_only_isUnknown_iff]
    exact fun h ↦ h.1.1 h.2
  case one =>
    intro hblanks
    rw [Bool.eq_iff_iff, Bool.not_eq_true', ← Bool.not_eq_true, passes_only_hasValue_iff,
      passes_only_isUnknown_iff, and_iff_left hblanks]
  case neither =>
    intro hblanks
    rw [Bool.eq_false_iff, Bool.eq_false_iff, ne_eq, ne_eq, passes_only_hasValue_iff,
      passes_only_isUnknown_iff]
    exact ⟨fun h ↦ h.2 hblanks, hblanks.not_noData⟩

/-- What is known of a visitor: a blank address of mail, no city, and notes with nothing in them. -/
def visitorData (notes : List Value) : Metadata := [
  ("address", .map [("city", .list [.null])]), ("email", .string "\t"), ("notes", .list notes)]

/-- The city, the address of mail and a telephone number that is not there pass alike, even where
the flags contradict one another. The notes have no value and are not unknown, however many nulls
there are. -/
theorem passes_visitorData :
    (∀ path ∈ ["address.city", "email", "phone"],
      ({ hasValue := true, isUnknown := true } : Criteria).passes
        (Selectable.subject (visitorData [.string " "]) path) = true) ∧
    (only .hasValue "").passes
      (Selectable.subject (visitorData [.null, .string " ", .null]) "notes") = false ∧
    (only .isUnknown "").passes
      (Selectable.subject (visitorData [.null, .string " ", .null]) "notes") = false := by
  have hcity : Value.lookup (visitorData [.string " "]) "address.city" = some (.list [.null]) := rfl
  have hemail : Value.lookup (visitorData [.string " "]) "email" = some (.string "\t") := rfl
  have hphone : Value.lookup (visitorData [.string " "]) "phone" = none := rfl
  have hnotes : Value.lookup (visitorData [.string " "]) "notes" = some (.list [.string " "]) := rfl
  have hpadded : Value.lookup (visitorData [.null, .string " ", .null]) "notes"
      = some (.list [.null, .string " ", .null]) := rfl
  have hnone : ∀ path ∈ ["address.city", "email", "phone"],
      NoData (Value.lookup (visitorData [.string " "]) path) := by
    simp only [List.forall_mem_cons, hcity, hemail, hphone]
    exact ⟨.nulls (by simp), .blank (by decide), .missing, by simp⟩
  have hblanks : OnlyBlanks (some (.list [.string " "])) := .list (by simp) (by simp; decide)
  refine ⟨fun path hpath ↦ ?_, ?_, ?_⟩
  · obtain ⟨hnothing, -⟩ :=
      passes_by_presence { hasValue := true, isUnknown := true } (visitorData [.string " "]) path
    exact (hnothing (hnone path hpath)).2 (.inl rfl)
  · obtain ⟨-, -, hnulls, hflags⟩ :=
      passes_by_presence (only .hasValue "") (visitorData [.string " "]) "notes"
    rw [hnulls _ _ _ hnotes hpadded (.null (.cons _ (.null .nil)))]
    exact ((hflags "" "").2.2 (hnotes ▸ hblanks)).1
  · obtain ⟨-, -, hnulls, hflags⟩ :=
      passes_by_presence (only .isUnknown "") (visitorData [.string " "]) "notes"
    rw [hnulls _ _ _ hnotes hpadded (.null (.cons _ (.null .nil)))]
    exact ((hflags "" "").2.2 (hnotes ▸ hblanks)).2

end Criteria

end Screening
