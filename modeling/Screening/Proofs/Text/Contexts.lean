import Screening.Text.Lowercase
import Screening.Text.Search

/-!
# Lowercase in context

The lowercase form of a text is put together from the images of its parts. The image of a part is
the lowercase form of the part on its own, but for capital sigmas: one of them may end a word in the
part and not in the text, or in the text and not in the part. A part without such sigmas is steady
where it stands, and steady parts are those that are found again in lowercase.
-/

namespace Screening.Text

/-- Whether a capital sigma with these characters before and after it ends a word. -/
def endsWord (before after : List Char) : Bool :=
  meetsCased before.reverse && !meetsCased after

def lowercaseIn (ends : Bool) (c : Char) : List Char :=
  if c = 'Σ' then [if ends then 'ς' else 'σ'] else lowercaseChar c

/-- The image of a part in the lowercase form of a text, by what stands before and after it. -/
def lowercaseBetween (before after : List Char) : List Char → List Char
  | [] => []
  | c :: cs =>
    lowercaseIn (endsWord before (cs ++ after)) c ++ lowercaseBetween (before ++ [c]) after cs

/-- Every capital sigma of a part ends a word in the text exactly if it does in the part alone. -/
def Steady (before after part : List Char) : Prop :=
  ∀ left right, part = left ++ 'Σ' :: right →
    endsWord (before ++ left) (right ++ after) = endsWord left right

/-! ## Images of characters -/

theorem length_lowercaseIn (ends ends' : Bool) (c : Char) :
    (lowercaseIn ends c).length = (lowercaseIn ends' c).length := by
  rw [lowercaseIn, lowercaseIn]
  split <;> rfl

/-- It is for a capital sigma only that it matters whether it ends a word. -/
theorem lowercaseIn_eq_iff {ends ends' : Bool} {c : Char} :
    lowercaseIn ends c = lowercaseIn ends' c ↔ (c = 'Σ' → ends = ends') := by
  rw [lowercaseIn, lowercaseIn]
  split
  · next hc => cases ends <;> cases ends' <;> simp [hc]
  · next hc => exact iff_of_true rfl fun h ↦ absurd h hc

/-! ## Images of parts -/

/-- A text is lowercased part by part, if each part knows what stands around it. -/
theorem lowercaseAfter_append (before part after : List Char) :
    lowercaseAfter before.reverse (part ++ after)
      = lowercaseBetween before after part ++ lowercaseAfter (before ++ part).reverse after := by
  induction part generalizing before with
  | nil => rw [List.nil_append, lowercaseBetween, List.nil_append, List.append_nil]
  | cons c cs ih =>
    have hbefore : c :: before.reverse = (before ++ [c]).reverse := by simp
    rw [List.cons_append, lowercaseAfter, hbefore, ih, lowercaseBetween, lowercaseIn, endsWord,
      List.append_assoc before, List.singleton_append, List.append_assoc]

/-- A text alone has nothing before it or after it. -/
theorem lowercaseAfter_nil (part : List Char) :
    lowercaseAfter [] part = lowercaseBetween [] [] part := by
  have h := lowercaseAfter_append [] part []
  rwa [List.append_nil, List.reverse_nil, lowercaseAfter, List.append_nil] at h

/-- The length of a part in lower case does not depend on what stands around it. -/
theorem length_lowercaseBetween (before after before' after' part : List Char) :
    (lowercaseBetween before after part).length
      = (lowercaseBetween before' after' part).length := by
  induction part generalizing before before' with
  | nil => rfl
  | cons c cs ih =>
    rw [lowercaseBetween, lowercaseBetween, List.length_append, List.length_append,
      ih (before ++ [c]) (before' ++ [c]), length_lowercaseIn]

/-- The places of a character in a list with one more in front are the places behind that one, and
the front if it is the character. -/
theorem forall_eq_append_cons {P : List Char → List Char → Prop} {c d : Char} {cs : List Char} :
    (∀ left right, c :: cs = left ++ d :: right → P left right) ↔
      (c = d → P [] cs) ∧ ∀ left right, cs = left ++ d :: right → P (c :: left) right := by
  constructor
  · intro h
    constructor
    · rintro rfl
      exact h [] cs rfl
    · rintro left right rfl
      exact h (c :: left) right rfl
  · rintro ⟨hfront, hbehind⟩ left right h
    cases left with
    | nil =>
      obtain ⟨rfl, rfl⟩ := List.cons.inj h
      exact hfront rfl
    | cons first left =>
      obtain ⟨rfl, rfl⟩ := List.cons.inj h
      exact hbehind left right rfl

/-- A part has the same image in two contexts if no sigma of it ends a word in one of them only. -/
theorem lowercaseBetween_eq_iff (before after before' after' part : List Char) :
    lowercaseBetween before after part = lowercaseBetween before' after' part ↔
      ∀ left right, part = left ++ 'Σ' :: right →
        endsWord (before ++ left) (right ++ after)
          = endsWord (before' ++ left) (right ++ after') := by
  induction part generalizing before before' with
  | nil => simp [lowercaseBetween]
  | cons c cs ih =>
    -- The images of a character have one length, so those of the rest begin at the same place.
    have hsplit :
        lowercaseBetween before after (c :: cs) = lowercaseBetween before' after' (c :: cs) ↔
          lowercaseIn (endsWord before (cs ++ after)) c
              = lowercaseIn (endsWord before' (cs ++ after')) c ∧
            lowercaseBetween (before ++ [c]) after cs
              = lowercaseBetween (before' ++ [c]) after' cs := by
      rw [lowercaseBetween, lowercaseBetween]
      constructor
      · exact fun h ↦ List.append_inj h (length_lowercaseIn _ _ c)
      · rintro ⟨hfirst, hrest⟩
        rw [hfirst, hrest]
    rw [hsplit, lowercaseIn_eq_iff, ih, forall_eq_append_cons, List.append_nil, List.append_nil]
    simp only [List.append_assoc, List.singleton_append]

/-- The image of a steady part is the lowercase form of the part. -/
theorem lowercaseBetween_eq_iff_steady (before after part : List Char) :
    lowercaseBetween before after part = lowercaseAfter [] part ↔ Steady before after part := by
  rw [lowercaseAfter_nil, lowercaseBetween_eq_iff, Steady]
  simp only [List.nil_append, List.append_nil]

instance (before after part : List Char) : Decidable (Steady before after part) :=
  decidable_of_iff _ (lowercaseBetween_eq_iff_steady before after part)

/-- A part without capital sigmas is steady everywhere. -/
theorem steady_of_notMem {part : List Char} (h : 'Σ' ∉ part) (before after : List Char) :
    Steady before after part := by
  rintro left right rfl
  exact absurd (List.mem_append_right left List.mem_cons_self) h

/-! ## Parts found in lowercase -/

variable {whole part : String} {before after : List Char}

theorem toList_lowercase (s : String) : (lowercase s).toList = lowercaseAfter [] s.toList := by
  rw [lowercase, String.toList_ofList]

/-- The lowercase form of a text, around a part of it. -/
theorem toList_lowercase_eq (h : whole.toList = before ++ part.toList ++ after) :
    (lowercase whole).toList
      = lowercaseBetween [] (part.toList ++ after) before
        ++ lowercaseBetween before after part.toList
        ++ lowercaseAfter (before ++ part.toList).reverse after := by
  have hbefore := lowercaseAfter_append [] before (part.toList ++ after)
  have hpart := lowercaseAfter_append before part.toList after
  rw [List.reverse_nil, List.nil_append] at hbefore
  rw [toList_lowercase, h, List.append_assoc, hbefore, hpart, List.append_assoc]

/-- A steady part is found. -/
theorem contains_lowercase (h : whole.toList = before ++ part.toList ++ after)
    (hsteady : Steady before after part.toList) :
    contains (lowercase whole) (lowercase part) = true := by
  rw [contains, occursIn_iff, toList_lowercase_eq h, toList_lowercase part,
    (lowercaseBetween_eq_iff_steady before after part.toList).2 hsteady]
  exact ⟨_, _, rfl⟩

/-- A part is found at the beginning exactly if it is steady there. -/
theorem startsWith_lowercase_iff (h : whole.toList = part.toList ++ after) :
    startsWith (lowercase whole) (lowercase part) = true ↔ Steady [] after part.toList := by
  have hwhole : whole.toList = [] ++ part.toList ++ after := by rw [h, List.nil_append]
  rw [startsWith_iff, toList_lowercase_eq hwhole, toList_lowercase part, lowercaseBetween,
    List.nil_append, ← lowercaseBetween_eq_iff_steady]
  constructor
  · rintro ⟨rest, hrest⟩
    rw [lowercaseAfter_nil] at hrest ⊢
    exact (List.append_inj_left hrest (length_lowercaseBetween _ _ _ _ _)).symm
  · intro heq
    rw [heq]
    exact List.prefix_append _ _

/-- A part is found at the end exactly if it is steady there. -/
theorem endsWith_lowercase_iff (h : whole.toList = before ++ part.toList) :
    endsWith (lowercase whole) (lowercase part) = true ↔ Steady before [] part.toList := by
  have hwhole : whole.toList = before ++ part.toList ++ [] := by rw [h, List.append_nil]
  rw [endsWith_iff, toList_lowercase_eq hwhole, toList_lowercase part, lowercaseAfter,
    List.append_nil, ← lowercaseBetween_eq_iff_steady]
  constructor
  · rintro ⟨rest, hrest⟩
    rw [lowercaseAfter_nil] at hrest ⊢
    exact (List.append_inj_right' hrest (length_lowercaseBetween _ _ _ _ _)).symm
  · intro heq
    rw [heq]
    exact List.suffix_append _ _

end Screening.Text
