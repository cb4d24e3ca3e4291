import Mathlib.Data.List.DropRight
import Screening.Selection.SortOrder

/-!
# Orders in text

The field of an order that was read is trimmed and not empty, but it may begin with a sign: the
reader takes one sign off and no more. The printer writes a sign for the descending direction alone.
So behind the minus of a descending order the field is safe, whatever it begins with. The field of
an ascending order stands by itself, and there its first sign is taken for that of the order.

Hence an order that was read is read again from its text, unless it is ascending and its field begins
with a sign (`parse?_render_iff`). Only texts with two signs at their beginning lead to such orders.
-/

namespace Screening

/-! ## Trimmed texts -/

namespace Text

/-- Neither the first nor the last character is white space. -/
structure Trimmed (cs : List Char) : Prop where
  first : ∀ c ∈ cs.head?, isBlank c = false
  last : ∀ c ∈ cs.getLast?, isBlank c = false

variable {cs : List Char}

theorem dropWhile_eq_self (h : ∀ c ∈ cs.head?, isBlank c = false) : cs.dropWhile isBlank = cs := by
  cases cs with
  | nil => rfl
  | cons c cs => exact List.dropWhile_cons_of_neg (by simp [h c rfl])

theorem isBlank_of_mem_head?_dropWhile {c : Char} (h : c ∈ (cs.dropWhile isBlank).head?) :
    isBlank c = false := by
  have hnot := List.head?_dropWhile_not isBlank cs
  rw [Option.mem_def.1 h] at hnot
  exact hnot

theorem trimChars_eq_self (h : Trimmed cs) : trimChars cs = cs := by
  have hreverse : cs.reverse.dropWhile isBlank = cs.reverse := by
    apply dropWhile_eq_self
    rw [List.head?_reverse]
    exact h.last
  rw [trimChars, dropWhile_eq_self h.first, hreverse, List.reverse_reverse]

/-- Trimming the end leaves the first character, if that is not white space. -/
theorem head?_trimChars (cs : List Char) :
    (trimChars cs).head? = (cs.dropWhile isBlank).head? := by
  change ((cs.dropWhile isBlank).rdropWhile isBlank).head? = _
  cases hdropped : cs.dropWhile isBlank with
  | nil => rfl
  | cons c rest =>
    have hc : isBlank c = false := by
      apply isBlank_of_mem_head?_dropWhile
      rw [hdropped]
      rfl
    have hne : (c :: rest).rdropWhile isBlank ≠ [] := by
      rw [Ne, List.rdropWhile_eq_nil_iff]
      intro hall
      exact absurd (hall c List.mem_cons_self) (by simp [hc])
    obtain ⟨dropped, happend⟩ := List.rdropWhile_prefix isBlank (c :: rest)
    calc ((c :: rest).rdropWhile isBlank).head?
        = ((c :: rest).rdropWhile isBlank ++ dropped).head? :=
          (List.head?_append_of_ne_nil _ hne).symm
      _ = some c := by rw [happend, List.head?_cons]

/-- What trimming leaves is trimmed. -/
theorem trimmed_trimChars (cs : List Char) : Trimmed (trimChars cs) := by
  constructor
  · intro c hc
    rw [head?_trimChars] at hc
    exact isBlank_of_mem_head?_dropWhile hc
  · intro c hc
    rw [trimChars, List.getLast?_reverse] at hc
    exact isBlank_of_mem_head?_dropWhile hc

theorem length_trimChars_le (cs : List Char) : (trimChars cs).length ≤ cs.length :=
  calc (trimChars cs).length
      ≤ (cs.dropWhile isBlank).length := (List.rdropWhile_prefix isBlank _).length_le
    _ ≤ cs.length := (List.dropWhile_suffix isBlank).length_le

end Text

namespace SortOrder

variable {text : String} {order : SortOrder}

/-! ## Reading -/

def Signed (text : String) : Prop := ∃ sign ∈ text.toList.head?, sign = '-' ∨ sign = '+'

instance (text : String) : Decidable (Signed text) :=
  decidable_of_iff (text.toList.head?.any fun sign ↦ sign == '-' || sign == '+')
    (by simp [Signed, Option.any_eq_true])

theorem unsign_of_not_signed {cs : List Char} (h : ∀ sign ∈ cs.head?, ¬(sign = '-' ∨ sign = '+')) :
    unsign cs = (.ascending, cs) := by
  rw [unsign.eq_3]
  · rintro rest rfl
    exact h '-' rfl (.inl rfl)
  · rintro rest rfl
    exact h '+' rfl (.inr rfl)

/-- A minus sign turns the direction round, a plus sign does not, and neither is left in the field.
-/
theorem unsign_cases (cs : List Char) :
    (∃ rest, cs = '-' :: rest ∧ unsign cs = (.descending, rest)) ∨
    (∃ rest, cs = '+' :: rest ∧ unsign cs = (.ascending, rest)) ∨
    (∀ sign ∈ cs.head?, ¬(sign = '-' ∨ sign = '+')) ∧ unsign cs = (.ascending, cs) := by
  by_cases hsigned : ∃ sign ∈ cs.head?, sign = '-' ∨ sign = '+'
  · obtain ⟨sign, hsign, hkind⟩ := hsigned
    obtain ⟨rest, rfl⟩ := List.head?_eq_some_iff.1 hsign
    rcases hkind with rfl | rfl
    · exact .inl ⟨rest, rfl, rfl⟩
    · exact .inr (.inl ⟨rest, rfl, rfl⟩)
  · have hplain : ∀ sign ∈ cs.head?, ¬(sign = '-' ∨ sign = '+') := by
      intro sign hsign hkind
      exact hsigned ⟨sign, hsign, hkind⟩
    exact .inr (.inr ⟨hplain, unsign_of_not_signed hplain⟩)

/-- A text is an order if something is left behind its sign. -/
theorem parse?_eq_some_iff {direction : Direction} {rest : List Char}
    (h : unsign (Text.trimChars text.toList) = (direction, rest)) :
    parse? text = some order ↔ order.direction = direction ∧
      order.field.toList = Text.trimChars rest ∧ Text.trimChars rest ≠ [] := by
  obtain ⟨field, direction'⟩ := order
  have hparse : parse? text = if (Text.trimChars rest).isEmpty then none
      else some ⟨String.ofList (Text.trimChars rest), direction⟩ := by
    rw [parse?, h]
  rw [hparse]
  cases hfield : Text.trimChars rest with
  | nil => simp
  | cons c cs => simp [← String.toList_inj, eq_comm, and_comm]

/-- The field of an order that was read is trimmed and not empty. -/
theorem trimmed_of_parse? (h : parse? text = some order) :
    Text.Trimmed order.field.toList ∧ order.field.toList ≠ [] := by
  obtain ⟨-, hfield, hne⟩ := (parse?_eq_some_iff rfl).1 h
  rw [hfield]
  exact ⟨Text.trimmed_trimChars _, hne⟩

/-- A text that is read begins with a minus, with a plus, or with the field, which then has no sign of
its own. -/
theorem parse?_eq_some_cases (h : parse? text = some order) :
    order.direction = .descending ∨
    (∃ rest, order.direction = .ascending ∧ Text.trimChars text.toList = '+' :: rest ∧
      order.field.toList = Text.trimChars rest) ∨
    (order.direction = .ascending ∧ ¬ Signed order.field) := by
  rcases unsign_cases (Text.trimChars text.toList) with
    ⟨rest, -, hunsign⟩ | ⟨rest, htext, hunsign⟩ | ⟨hplain, hunsign⟩
  · exact .inl ((parse?_eq_some_iff hunsign).1 h).1
  · obtain ⟨hdirection, hfield, -⟩ := (parse?_eq_some_iff hunsign).1 h
    exact .inr (.inl ⟨rest, hdirection, htext, hfield⟩)
  · obtain ⟨hdirection, hfield, -⟩ := (parse?_eq_some_iff hunsign).1 h
    rw [Text.trimChars_eq_self (Text.trimmed_trimChars _)] at hfield
    refine .inr (.inr ⟨hdirection, ?_⟩)
    rintro ⟨sign, hsign, hkind⟩
    rw [hfield] at hsign
    exact hplain sign hsign hkind

/-! ## Reading what was printed -/

section Printed

variable (htrimmed : Text.Trimmed order.field.toList) (hne : order.field.toList ≠ [])
include htrimmed hne

/-- Behind a minus the field is safe. -/
theorem parse?_render_descending (hdirection : order.direction = .descending) :
    parse? order.render = some order := by
  have htext : order.render.toList = '-' :: order.field.toList := by
    simp [render, hdirection]
  have hsigned : Text.Trimmed ('-' :: order.field.toList) := by
    constructor
    · rintro c ⟨⟩
      decide
    · intro c hc
      rw [List.getLast?_cons_of_ne_nil hne] at hc
      exact htrimmed.last c hc
  have hunsign : unsign (Text.trimChars order.render.toList)
      = (.descending, order.field.toList) := by
    rw [htext, Text.trimChars_eq_self hsigned]
    rfl
  rw [parse?_eq_some_iff hunsign, Text.trimChars_eq_self htrimmed]
  exact ⟨hdirection, rfl, hne⟩

/-- Without a sign of its own the field is read as it is. With one it is not, for the sign is gone. -/
theorem parse?_render_ascending_iff (hdirection : order.direction = .ascending) :
    parse? order.render = some order ↔ ¬ Signed order.field := by
  have htext : Text.trimChars order.render.toList = order.field.toList := by
    rw [render, hdirection]
    exact Text.trimChars_eq_self htrimmed
  constructor
  · intro hread
    rcases parse?_eq_some_cases hread with hdescending | ⟨rest, -, hplus, hfield⟩ | ⟨-, hplain⟩
    · cases hdirection.symm.trans hdescending
    · -- the sign that the reader took off is missing in the field
      have hlength := Text.length_trimChars_le rest
      rw [← hfield, ← htext, hplus, List.length_cons] at hlength
      omega
    · exact hplain
  · intro hplain
    have hunsign : unsign (Text.trimChars order.render.toList)
        = (.ascending, order.field.toList) := by
      rw [htext]
      apply unsign_of_not_signed
      intro sign hsign hkind
      exact hplain ⟨sign, hsign, hkind⟩
    rw [parse?_eq_some_iff hunsign, Text.trimChars_eq_self htrimmed]
    exact ⟨hdirection, rfl, hne⟩

end Printed

/-- The text of an ascending order whose field begins with a sign begins with two: a plus, which the
reader takes off, and perhaps behind white space the one that stays. -/
theorem ascending_and_signed_iff (h : parse? text = some order) :
    order.direction = .ascending ∧ Signed order.field ↔ ∃ (blanks : List Char) (sign : Char)
      (rest : List Char), Text.trimChars text.toList = '+' :: (blanks ++ sign :: rest) ∧
        (∀ c ∈ blanks, Text.isBlank c = true) ∧ (sign = '-' ∨ sign = '+') := by
  constructor
  · rintro ⟨hascending, sign, hsign, hkind⟩
    rcases parse?_eq_some_cases h with hdescending | ⟨rest, -, htext, hfield⟩ | ⟨-, hplain⟩
    · cases hascending.symm.trans hdescending
    · rw [hfield, Text.head?_trimChars] at hsign
      obtain ⟨others, hothers⟩ := List.head?_eq_some_iff.1 hsign
      refine ⟨rest.takeWhile Text.isBlank, sign, others, ?_, ?_, hkind⟩
      · rw [htext, ← hothers, List.takeWhile_append_dropWhile]
      · intro c hc
        exact List.mem_takeWhile_imp hc
    · exact absurd ⟨sign, hsign, hkind⟩ hplain
  · rintro ⟨blanks, sign, rest, htext, hblanks, hkind⟩
    have hunsign : unsign (Text.trimChars text.toList) = (.ascending, blanks ++ sign :: rest) := by
      rw [htext]
      rfl
    obtain ⟨hascending, hfield, -⟩ := (parse?_eq_some_iff hunsign).1 h
    refine ⟨hascending, sign, ?_, hkind⟩
    -- The white space before the second sign is trimmed off, the sign itself is not.
    have hsign : Text.isBlank sign = false := by
      rcases hkind with rfl | rfl <;> decide
    rw [hfield, Text.head?_trimChars, List.dropWhile_append_of_pos hblanks,
      List.dropWhile_cons_of_neg (by simp [hsign])]
    rfl

/-- An order that was read is read again from its text, with the same field and the same direction,
unless it is ascending and its field begins with a sign. Its text then began with a plus and a
second sign behind it. -/
theorem parse?_render_iff (h : parse? text = some order) :
    (parse? order.render = some order ↔ (order.direction = .ascending → ¬ Signed order.field)) ∧
    (order.direction = .ascending ∧ Signed order.field ↔ ∃ (blanks : List Char) (sign : Char)
      (rest : List Char), Text.trimChars text.toList = '+' :: (blanks ++ sign :: rest) ∧
        (∀ c ∈ blanks, Text.isBlank c = true) ∧ (sign = '-' ∨ sign = '+')) := by
  refine ⟨?_, ascending_and_signed_iff h⟩
  obtain ⟨htrimmed, hne⟩ := trimmed_of_parse? h
  cases hdirection : order.direction with
  | ascending =>
    rw [parse?_render_ascending_iff htrimmed hne hdirection]
    exact ⟨fun hplain _ ↦ hplain, fun hplain ↦ hplain rfl⟩
  | descending =>
    refine ⟨fun _ ↦ nofun, fun _ ↦ ?_⟩
    exact parse?_render_descending htrimmed hne hdirection

/-- A field with a sign is safe behind a minus. -/
theorem parse?_render_minusPlus :
    parse? " - +code" = some ⟨"+code", .descending⟩ ∧ Signed "+code" ∧
    parse? (render ⟨"+code", .descending⟩) = some ⟨"+code", .descending⟩ := by
  have hread : parse? " - +code" = some ⟨"+code", .descending⟩ := by decide
  exact ⟨hread, by decide, (parse?_render_iff hread).1.2 nofun⟩

/-- A minus behind a plus belongs to the field, but in print it turns the order around. -/
theorem parse?_plusMinus :
    parse? "+-a" = some ⟨"-a", .ascending⟩ ∧
    parse? (render ⟨"-a", .ascending⟩) = some ⟨"a", .descending⟩ ∧
    ¬ ∀ text order, parse? text = some order → parse? order.render = some order := by
  have hread : parse? "+-a" = some ⟨"-a", .ascending⟩ := by decide
  have hprinted : parse? (render ⟨"-a", .ascending⟩) = some ⟨"a", .descending⟩ := by decide
  refine ⟨hread, hprinted, fun hall ↦ ?_⟩
  exact absurd (hprinted.symm.trans (hall _ _ hread)) (by decide)

end SortOrder

end Screening
