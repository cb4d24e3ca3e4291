import Screening.Proofs.Field.Parts

/-!
# Paths and their fields

Reading a path loses nothing. A part has places with names (`Part.places`), and beside them it has
metadata under keys, so that a path is one of three things (`Field.Decoded`): the path of a place,
of a key in metadata, or of neither. What it is, it is in one way only, since a path determines the
part and the place it is put together from (`Field.eq_of_start_append_eq`). Hence a field is written
as it was read (`Field.render_ofPath`), which `Field.ofPath_lossless` puts together with what is
then known of paths with the same field, of the part and of unknown fields.

The one exception are the two paths of a customer's identifier, of which one is written
(`Field.canonicalPath`).
-/

namespace Screening

namespace Part

/-- The places of the part that have a name, with their fields. -/
def places : Part → List (String × Field)
  | .customer => [
    ("id", .customer .id), ("source_id", .customer .id), ("email", .customer .email)]
  | .order => [
    ("amount", .order .amount), ("currency", .order .currency),
    ("items.count", .order .itemsCount), ("items.sku", .orderItems .sku),
    ("items.product", .orderItems .product), ("items.quantity", .orderItems .quantity),
    ("items.price", .orderItems .price)]
  | .voucher => [("code", .voucher .key)]
  | .campaign => [("id", .campaign .key)]
  | .redemptions => [
    ("count.total", .redemptions .total), ("count.per_customer", .redemptions .perCustomer)]

def metadata (part : Part) (key : String) : Field :=
  match part with
  | .customer => .customer (.metadata key)
  | .order => .order (.metadata key)
  | .voucher => .voucher (.metadata key)
  | .campaign => .campaign (.metadata key)
  | .redemptions => .redemptions (.metadata key)

theorem ne_unknown_of_mem_places {part : Part} {entry : String × Field} (h : entry ∈ part.places)
    (path : String) : entry.2 ≠ .unknown path := by
  revert entry
  cases part <;> simp [places]

end Part

namespace Field

variable {path place key : String} {part : Part} {field : Field}

/-! ## Places -/

/-- The key of metadata is all that stands behind the first dot, and it must not be empty. -/
theorem metadataKey?_eq_some_iff :
    metadataKey? place = some key ↔ key ≠ "" ∧ place = "metadata." ++ key := by
  constructor
  · fun_cases metadataKey? place
    case case1 c rest h =>
      rintro ⟨⟩
      refine ⟨by simp [← String.toList_inj], ?_⟩
      rw [← String.toList_inj, h, String.toList_append, String.toList_ofList]
      simp
    case case2 => rintro ⟨⟩
  · rintro ⟨hkey, rfl⟩
    obtain ⟨c, rest, hlist⟩ := List.exists_cons_of_ne_nil (mt String.toList_eq_nil_iff.1 hkey)
    obtain rfl : key = String.ofList (c :: rest) := by rw [← hlist, String.ofList_toList]
    simp [metadataKey?]

/-- A place in a part has a name, or it is a key of the metadata. -/
theorem place?_name (part : Part) (place : String) :
    place? part.name place
      = (part.places.lookup place).or ((metadataKey? place).map part.metadata) := by
  -- where no name fits, the places are passed by one after the other
  cases part with
  | customer =>
    change customerPlace? place = _
    fun_cases customerPlace? place
    case case4 h₁ h₂ h₃ =>
      simp only [Part.places, Keyed.lookup_entry, if_neg h₁, if_neg h₂, if_neg h₃]
      rfl
    all_goals rfl
  | order =>
    change orderPlace? place = _
    fun_cases orderPlace? place
    case case8 h₁ h₂ h₃ h₄ h₅ h₆ h₇ =>
      simp only [Part.places, Keyed.lookup_entry, if_neg h₁, if_neg h₂, if_neg h₃, if_neg h₄,
        if_neg h₅, if_neg h₆, if_neg h₇]
      rfl
    all_goals rfl
  | voucher =>
    change voucherPlace? place = _
    fun_cases voucherPlace? place
    case case1 => rfl
    case case2 h =>
      simp only [Part.places, Keyed.lookup_entry, if_neg h]
      rfl
  | campaign =>
    change campaignPlace? place = _
    fun_cases campaignPlace? place
    case case1 => rfl
    case case2 h =>
      simp only [Part.places, Keyed.lookup_entry, if_neg h]
      rfl
  | redemptions =>
    change redemptionsPlace? place = _
    fun_cases redemptionsPlace? place
    case case3 h₁ h₂ =>
      simp only [Part.places, Keyed.lookup_entry, if_neg h₁, if_neg h₂]
      rfl
    all_goals rfl

theorem place?_eq_none (h : ∀ part : Part, path ≠ part.name) : place? path place = none := by
  unfold place?
  split
  case h_1 => exact absurd rfl (h .customer)
  case h_2 => exact absurd rfl (h .order)
  case h_3 => exact absurd rfl (h .voucher)
  case h_4 => exact absurd rfl (h .campaign)
  case h_5 => exact absurd rfl (h .redemptions)
  case h_6 => rfl

/-! ## Paths -/

theorem splitAtDot_fst (path : String) :
    (splitAtDot path).1 = String.ofList (path.toList.takeWhile (· != '.')) := by
  rw [splitAtDot, List.span_eq_takeWhile_dropWhile]
  cases hrest : path.toList.dropWhile (· != '.') with
  | nil =>
    have hwhole := List.takeWhile_append_dropWhile (p := (· != '.')) (l := path.toList)
    rw [hrest, List.append_nil] at hwhole
    rw [hwhole, String.ofList_toList]
  | cons c rest => rfl

/-- What a path is split into makes it up again. -/
theorem eq_of_splitAtDot {place : String} (h : (splitAtDot path).2 = some place) :
    path = (splitAtDot path).1 ++ "." ++ place := by
  rw [splitAtDot_fst]
  rw [splitAtDot, List.span_eq_takeWhile_dropWhile] at h
  cases hrest : path.toList.dropWhile (· != '.') with
  | nil =>
    rw [hrest] at h
    cases h
  | cons c rest =>
    have hdot : c = '.' := by
      have hhead := List.head?_dropWhile_not (· != '.') path.toList
      simpa [hrest] using hhead
    rw [hrest] at h
    have hwhole := List.takeWhile_append_dropWhile (p := (· != '.')) (l := path.toList)
    obtain rfl : String.ofList rest = place := Option.some.inj h
    rw [hrest, hdot] at hwhole
    rw [← String.toList_inj]
    simp only [String.toList_append, String.toList_ofList, List.append_assoc]
    exact hwhole.symm

theorem splitAtDot_start (part : Part) (place : String) :
    splitAtDot (part.start ++ place) = (part.name, some place) := by
  have hpath : part.start ++ place = String.ofList (part.name.toList ++ '.' :: place.toList) := by
    rw [← String.toList_inj, String.toList_append, Part.toList_start]
    simp
  rw [hpath, splitAtDot_append part.dot_notMem_name, String.ofList_toList, String.ofList_toList]

theorem eq_of_start_append_eq {part' : Part} {place' : String}
    (h : part.start ++ place = part'.start ++ place') : part = part' ∧ place = place' := by
  have hsplit := congrArg splitAtDot h
  rw [splitAtDot_start, splitAtDot_start, Prod.mk.injEq] at hsplit
  exact ⟨Part.name_injective hsplit.1, Option.some.inj hsplit.2⟩

/-- Behind the name of a part comes a place with a name, or a key of its metadata, or nothing known.
-/
theorem ofPath_start (part : Part) (place : String) :
    ofPath (part.start ++ place)
      = ((part.places.lookup place).or ((metadataKey? place).map part.metadata)).getD
          (.unknown (part.start ++ place)) := by
  rw [ofPath, splitAtDot_start, ← place?_name]
  rfl

/-- A path that leads into no part is unknown. -/
theorem ofPath_eq_unknown (h : ∀ (part : Part) (place : String), path ≠ part.start ++ place) :
    ofPath path = .unknown path := by
  have hnone : (splitAtDot path).2.bind (place? (splitAtDot path).1) = none := by
    rw [Option.bind_eq_none_iff]
    intro place hplace
    apply place?_eq_none
    intro part hpart
    exact h part place ((eq_of_splitAtDot hplace).trans (by rw [hpart, Part.start]))
  change ((splitAtDot path).2.bind (place? (splitAtDot path).1)).getD _ = _
  rw [hnone, Option.getD_none]

/-! ## Written paths -/

/-- The path under which a field is written. -/
def canonicalPath (path : String) : String :=
  if path = "customer.source_id" then "customer.id" else path

/-- Only the two names of the customer's identifier are brought to one. -/
theorem canonicalPath_eq_iff {other : String} :
    canonicalPath other = canonicalPath path ↔ other = path ∨
      (other ∈ ["customer.id", "customer.source_id"] ∧
        path ∈ ["customer.id", "customer.source_id"]) := by
  simp only [canonicalPath, List.mem_cons, List.not_mem_nil, or_false]
  grind

/-- A place with a name is written as its path in canonical form. -/
theorem render_of_mem_places {entry : String × Field} (h : entry ∈ part.places) :
    entry.2.render = canonicalPath (part.start ++ entry.1) := by
  revert entry
  cases part <;> decide +kernel

theorem render_metadata (part : Part) (key : String) :
    (part.metadata key).render = part.start ++ "metadata." ++ key := by
  cases part <;> rfl

/-- The canonical form leaves keys of metadata alone. -/
theorem canonicalPath_metadata (part : Part) (key : String) :
    canonicalPath (part.start ++ "metadata." ++ key) = part.start ++ "metadata." ++ key := by
  rw [canonicalPath, if_neg]
  rw [← String.toList_inj]
  cases part <;> simp [Part.start, Part.name]

/-! ## Decoding -/

/-- What a path is decoded to: the field of a place that has a name, the field of a key in metadata,
or an unknown field with the path in it. -/
inductive Decoded : String → Field → Prop
  | place (part : Part) {entry : String × Field} : entry ∈ part.places →
    Decoded (part.start ++ entry.1) entry.2
  | metadata (part : Part) {key : String} : key ≠ "" →
    Decoded (part.start ++ "metadata." ++ key) (part.metadata key)
  | unknown {path : String} : (∀ part : Part, ∀ entry ∈ part.places, path ≠ part.start ++ entry.1) →
    (∀ (part : Part) (key : String), key ≠ "" → path ≠ part.start ++ "metadata." ++ key) →
    Decoded path (.unknown path)

/-- Every path is decoded in one of these ways. -/
theorem decoded_ofPath (path : String) : Decoded path (ofPath path) := by
  by_cases hpath : ∃ (part : Part) (place : String), path = part.start ++ place
  case neg =>
    have hnot (part : Part) (place : String) : path ≠ part.start ++ place :=
      fun h ↦ hpath ⟨part, place, h⟩
    rw [ofPath_eq_unknown hnot]
    refine .unknown (fun part entry _ ↦ hnot part entry.1) fun part key _ ↦ ?_
    rw [String.append_assoc]
    exact hnot part ("metadata." ++ key)
  case pos =>
    obtain ⟨part, place, rfl⟩ := hpath
    rw [ofPath_start]
    cases hlookup : part.places.lookup place with
    | some field => exact .place part (Keyed.mem_of_lookup_eq_some hlookup)
    | none =>
      cases hkey : metadataKey? place with
      | some key =>
        obtain ⟨hne, rfl⟩ := metadataKey?_eq_some_iff.1 hkey
        rw [← String.append_assoc]
        exact .metadata part hne
      | none =>
        refine .unknown ?_ ?_
        · intro part' entry hentry h
          obtain ⟨rfl, rfl⟩ := eq_of_start_append_eq h
          obtain ⟨field, hfield⟩ := Keyed.exists_lookup_eq_some (List.mem_map_of_mem hentry)
          exact absurd (hlookup.symm.trans hfield) nofun
        · intro part' key hne h
          rw [String.append_assoc] at h
          obtain ⟨rfl, rfl⟩ := eq_of_start_append_eq h
          exact absurd (hkey.symm.trans (metadataKey?_eq_some_iff.2 ⟨hne, rfl⟩)) nofun

/-- A field is written as it was read, but for a customer's second identifier. -/
theorem render_ofPath (path : String) : (ofPath path).render = canonicalPath path := by
  have hdecoded := decoded_ofPath path
  generalize ofPath path = field at hdecoded ⊢
  cases hdecoded with
  | place part hentry => exact render_of_mem_places hentry
  | metadata part hkey => rw [render_metadata, canonicalPath_metadata]
  | unknown hplace hmetadata =>
    have hne : path ≠ "customer.source_id" :=
      hplace .customer ("source_id", .customer .id) (by decide)
    rw [canonicalPath, if_neg hne]
    rfl

/-- A path and its canonical form mean the same field. -/
theorem ofPath_canonicalPath (path : String) : ofPath (canonicalPath path) = ofPath path := by
  rw [canonicalPath]
  split
  case isTrue h =>
    rw [h]
    decide +kernel
  case isFalse => rfl

/-- Two paths mean the same field if their canonical forms agree, and only then. -/
theorem ofPath_eq_iff {other : String} :
    ofPath other = ofPath path ↔ canonicalPath other = canonicalPath path := by
  constructor
  · intro h
    rw [← render_ofPath, ← render_ofPath, h]
  · intro h
    rw [← ofPath_canonicalPath other, h, ofPath_canonicalPath]

def namedPaths : List String := [
  "customer.id", "customer.source_id", "customer.email",
  "order.amount", "order.currency", "order.items.count", "order.items.sku", "order.items.product",
  "order.items.quantity", "order.items.price",
  "voucher.code", "campaign.id", "redemptions.count.total", "redemptions.count.per_customer"]

theorem mem_namedPaths_iff :
    path ∈ namedPaths ↔ ∃ part : Part, ∃ entry ∈ part.places, path = part.start ++ entry.1 := by
  have hpaths : namedPaths = [Part.customer, .order, .voucher, .campaign, .redemptions].flatMap
      fun part ↦ part.places.map fun entry ↦ part.start ++ entry.1 := by decide +kernel
  rw [hpaths, List.mem_flatMap]
  constructor
  · rintro ⟨part, -, hpath⟩
    obtain ⟨entry, hentry, rfl⟩ := List.mem_map.1 hpath
    exact ⟨part, entry, hentry, rfl⟩
  · rintro ⟨part, entry, hentry, rfl⟩
    exact ⟨part, by cases part <;> simp, List.mem_map_of_mem hentry⟩

/-- The unknown fields are those at the other paths. -/
theorem exists_ofPath_eq_unknown_iff :
    (∃ other, ofPath path = .unknown other) ↔ path ∉ namedPaths ∧
      ¬ ∃ (part : Part) (key : String), key ≠ "" ∧ path = part.start ++ "metadata." ++ key := by
  rw [mem_namedPaths_iff]
  have hdecoded := decoded_ofPath path
  generalize ofPath path = field at hdecoded ⊢
  cases hdecoded with
  | @place part entry hentry =>
    refine iff_of_false ?_ ?_
    · rintro ⟨other, hother⟩
      exact Part.ne_unknown_of_mem_places hentry other hother
    · rintro ⟨hnot, -⟩
      exact hnot ⟨part, entry, hentry, rfl⟩
  | @metadata part key hkey =>
    refine iff_of_false ?_ ?_
    · rintro ⟨other, hother⟩
      cases part <;> cases hother
    · rintro ⟨-, hnot⟩
      exact hnot ⟨part, key, hkey, rfl⟩
  | unknown hplace hmetadata =>
    refine iff_of_true ⟨path, rfl⟩ ⟨?_, ?_⟩
    · rintro ⟨part, entry, hentry, hpath⟩
      exact hplace part entry hentry hpath
    · rintro ⟨part, key, hkey, hpath⟩
      exact hmetadata part key hkey hpath

/-- The field at a path says all that the path says, but which of a customer's two identifiers was
meant. It is written as its path and read back as itself, it is the field of no other path, its part
is what stands before the first dot, and it is an unknown one only where the path has neither a name
nor a key in metadata. -/
theorem ofPath_lossless (path : String) :
    (ofPath path).render = (if path = "customer.source_id" then "customer.id" else path) ∧
    ofPath (ofPath path).render = ofPath path ∧
    (∀ other, ofPath other = ofPath path ↔ other = path ∨
      (other ∈ ["customer.id", "customer.source_id"] ∧
        path ∈ ["customer.id", "customer.source_id"])) ∧
    (ofPath path).namespaceName = String.ofList (path.toList.takeWhile (· != '.')) ∧
    ((∃ other, ofPath path = .unknown other) ↔ path ∉ namedPaths ∧
      ¬ ∃ (part : Part) (key : String),
        key ≠ "" ∧ path = part.start ++ "metadata." ++ key) := by
  refine ⟨render_ofPath path, ?_, ?_, ?_, exists_ofPath_eq_unknown_iff⟩
  · rw [render_ofPath, ofPath_canonicalPath]
  · intro other
    rw [ofPath_eq_iff, canonicalPath_eq_iff]
  · rw [namespaceName_ofPath, splitAtDot_fst]

end Field

end Screening
