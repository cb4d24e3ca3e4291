import Mathlib.Data.List.TakeDrop
import Screening.Field.Resolve
import Screening.Text.Search

/-!
# Parts of a context

The text of a path before its first dot names a part of the context. A field reads from the part
that its path names and from no other (`Field.resolve_eq_of_agreeOn`), and a path that begins with a
part's name and a dot names that part, whatever follows
(`Field.namespaceName_ofPath_of_startsWith`).
-/

namespace Screening

inductive Part where
  | customer
  | order
  | voucher
  | campaign
  | redemptions
deriving DecidableEq

namespace Part

def name : Part → String
  | .customer => "customer"
  | .order => "order"
  | .voucher => "voucher"
  | .campaign => "campaign"
  | .redemptions => "redemptions"

/-- What the paths into the part begin with. -/
def start (part : Part) : String := part.name ++ "."

theorem toList_start (part : Part) : part.start.toList = part.name.toList ++ ['.'] := by
  rw [start, String.toList_append]
  rfl

theorem dot_notMem_name (part : Part) : '.' ∉ part.name.toList := by
  cases part <;> decide +kernel

theorem name_injective {part part' : Part} (h : part.name = part'.name) : part = part' := by
  cases part <;> cases part' <;> revert h <;> decide

end Part

/-- Two contexts have the same data in a part. The campaign of a voucher is a part of its own, and
the data of the request goes with the counters. -/
def Context.AgreeOn (x y : Context) : Part → Prop
  | .customer => x.customer = y.customer
  | .order => x.order = y.order
  | .voucher => x.voucher.code = y.voucher.code ∧ x.voucher.metadata = y.voucher.metadata
  | .campaign => x.voucher.campaign = y.voucher.campaign
  | .redemptions => x.counters = y.counters ∧ x.requestMetadata = y.requestMetadata

namespace Field

/-! ## Paths -/

/-- A path is split at its first dot. -/
theorem splitAtDot_append {head rest : List Char} (h : '.' ∉ head) :
    splitAtDot (String.ofList (head ++ '.' :: rest))
      = (String.ofList head, some (String.ofList rest)) := by
  have hhead : ∀ c ∈ head, (c != '.') = true := by
    intro c hc
    rw [bne_iff_ne]
    rintro rfl
    exact h hc
  have hspan : (head ++ '.' :: rest).span (· != '.') = (head, '.' :: rest) := by
    rw [List.span_eq_takeWhile_dropWhile, List.takeWhile_append_of_pos hhead,
      List.dropWhile_append_of_pos hhead, List.takeWhile_cons_of_neg (by decide),
      List.dropWhile_cons_of_neg (by decide), List.append_nil]
  rw [splitAtDot, String.toList_ofList, hspan]

/-- A place in metadata makes a field of the part whose metadata it is in. -/
theorem namespaceName_of_metadataKey? {part place : String} {field : Field}
    {make : String → Field} (hmake : ∀ key, (make key).namespaceName = part)
    (h : (metadataKey? place).map make = some field) : field.namespaceName = part := by
  obtain ⟨key, -, rfl⟩ := Option.map_eq_some_iff.1 h
  exact hmake key

/-- A place in a part makes a field of that part. -/
theorem namespaceName_of_place? {part place : String} {field : Field}
    (h : place? part place = some field) : field.namespaceName = part := by
  unfold place? at h
  split at h
  -- in every part the last case is that of metadata, and the others are places by themselves
  case h_1 =>
    unfold customerPlace? at h
    split at h
    case h_4 => exact namespaceName_of_metadataKey? (fun _ ↦ rfl) h
    all_goals exact Option.some.inj h ▸ rfl
  case h_2 =>
    unfold orderPlace? at h
    split at h
    case h_8 => exact namespaceName_of_metadataKey? (fun _ ↦ rfl) h
    all_goals exact Option.some.inj h ▸ rfl
  case h_3 =>
    unfold voucherPlace? at h
    split at h
    case h_2 => exact namespaceName_of_metadataKey? (fun _ ↦ rfl) h
    all_goals exact Option.some.inj h ▸ rfl
  case h_4 =>
    unfold campaignPlace? at h
    split at h
    case h_2 => exact namespaceName_of_metadataKey? (fun _ ↦ rfl) h
    all_goals exact Option.some.inj h ▸ rfl
  case h_5 =>
    unfold redemptionsPlace? at h
    split at h
    case h_3 => exact namespaceName_of_metadataKey? (fun _ ↦ rfl) h
    all_goals exact Option.some.inj h ▸ rfl
  case h_6 => cases h

/-- The part of the field at a path is what the path has before its first dot. -/
theorem namespaceName_ofPath (path : String) :
    (ofPath path).namespaceName = (splitAtDot path).1 := by
  rw [ofPath]
  dsimp only
  cases hfield : (splitAtDot path).2.bind (place? (splitAtDot path).1) with
  | none => rfl
  | some field =>
    obtain ⟨place, -, hplace⟩ := Option.bind_eq_some_iff.1 hfield
    exact namespaceName_of_place? hplace

/-- A path that begins with a part's name and a dot belongs to that part, even if its field is
unknown. -/
theorem namespaceName_ofPath_of_startsWith {path : String} {part : Part}
    (h : Text.startsWith path part.start = true) :
    (ofPath path).namespaceName = part.name := by
  obtain ⟨rest, hrest⟩ := (Text.startsWith_iff _ _).1 h
  have hpath : path = String.ofList (part.name.toList ++ '.' :: rest) := by
    rw [← String.toList_inj, String.toList_ofList, ← hrest, Part.toList_start]
    simp
  rw [namespaceName_ofPath, hpath, splitAtDot_append part.dot_notMem_name, String.ofList_toList]

/-! ## Contexts -/

/-- Where two contexts agree on its part, a field holds the same in both. -/
theorem resolve_eq_of_agreeOn {field : Field} {part : Part} {x y : Context}
    (hpart : field.namespaceName = part.name) (h : x.AgreeOn y part) :
    field.resolve x = field.resolve y := by
  cases field with
  | unknown path => rfl
  | customer place =>
    obtain rfl : part = .customer := Part.name_injective hpart.symm
    have hcustomer : x.customer = y.customer := h
    rw [resolve, resolve, hcustomer]
  | order place | orderItems place =>
    obtain rfl : part = .order := Part.name_injective hpart.symm
    have horder : x.order = y.order := h
    rw [resolve, resolve, horder]
  | voucher place =>
    obtain rfl : part = .voucher := Part.name_injective hpart.symm
    obtain ⟨hcode, hmetadata⟩ := h
    rw [resolve, resolve, hcode, hmetadata]
  | campaign place =>
    obtain rfl : part = .campaign := Part.name_injective hpart.symm
    have hcampaign : x.voucher.campaign = y.voucher.campaign := h
    rw [resolve, resolve, hcampaign]
  | redemptions place =>
    obtain rfl : part = .redemptions := Part.name_injective hpart.symm
    obtain ⟨hcounters, hmetadata⟩ := h
    cases place <;> simp only [resolve, resolveRedemptions, hcounters, hmetadata]

end Field

end Screening
