import Screening.Context.Decode
import Screening.Proofs.Json.Record

/-!
# The amount of a decoded order

A context is decoded from a text, or from a value that was read before. Either way the amount of its
order is what the number under `amount` means as an amount of money, and there is an order only if
that number has such a meaning.
-/

namespace Screening

open Json (Draft Number Slot bind_eq_ok_iff)

/-! ## Drafts of values -/

namespace Json

variable {json value : Json} {key : String}

theorem Draft.ofJsonMembers_eq_map (members : List (String × Json)) :
    ofJsonMembers members = members.map fun member ↦ (member.1, ofJson member.2) := by
  induction members with
  | nil => rfl
  | cons member members ih =>
    rw [ofJsonMembers, ih]
    rfl

/-- The draft of an object has what the object has. -/
theorem Draft.has_ofJson (h : json.field? key = some value) :
    (Draft.ofJson json).Has key (Draft.ofJson value) := by
  obtain ⟨members, hmembers, hlookup⟩ := Option.bind_eq_some_iff.1 h
  cases json with
  | object written =>
    obtain rfl := Option.some.inj hmembers
    rw [ofJson]
    refine ⟨_, _, rfl, ?_⟩
    rw [ofJsonMembers_eq_map, Keyed.merge_map, List.map_map, List.mem_map]
    exact ⟨_, Keyed.mem_of_lookup_eq_some hlookup, rfl⟩
  | null | bool | number | string | array => cases hmembers

end Json

/-! ## The two slots on the way -/

def Order.amountSlot : Slot Order.Parts :=
  ⟨"amount", (·.amount.isSome), fun d p ↦ return { p with amount := ← Decimal.decode d }⟩

/-- No other member of an order touches the amount. -/
theorem Order.looksAfter_amount (room : Nat) :
    Slot.LooksAfter (Order.slots room) "amount" Order.amountSlot (·.amount) where
  found := rfl
  filled _ := rfl
  fills h := by
    obtain ⟨a, -, hparts⟩ := bind_eq_ok_iff.1 h
    cases hparts
    rfl
  others other hother hne := by
    intro value parts parts' h
    simp only [slots, List.mem_cons, List.not_mem_nil, or_false] at hother
    rcases hother with rfl | rfl | rfl | rfl
    · exact absurd rfl hne
    all_goals
      obtain ⟨a, -, hparts⟩ := bind_eq_ok_iff.1 h
      cases hparts
      rfl

def Context.orderSlot (room : Nat) : Slot Context.Parts :=
  ⟨"order", (·.order.isSome),
    fun d p ↦ return { p with order := some (← Draft.nullable (Order.decode room) d) }⟩

theorem Context.looksAfter_order (room : Nat) :
    Slot.LooksAfter (Context.slots room) "order" (Context.orderSlot room) (·.order) where
  found := rfl
  filled _ := rfl
  fills h := by
    obtain ⟨a, -, hparts⟩ := bind_eq_ok_iff.1 h
    cases hparts
    rfl
  others other hother hne := by
    intro value parts parts' h
    simp only [slots, List.mem_cons, List.not_mem_nil, or_false] at hother
    rcases hother with rfl | rfl | rfl | rfl | rfl
    case inr.inr.inl => exact absurd rfl hne
    all_goals
      obtain ⟨a, -, hparts⟩ := bind_eq_ok_iff.1 h
      cases hparts
      rfl

/-! ## Decoded amounts -/

variable {n : Number} {room : Nat} {draft order : Draft} {context : Context}

/-- Decoding an order gives it the amount that its number means as money. -/
theorem Order.amount?_of_decode {decoded : Order} (hamount : draft.Has "amount" (.number (some n)))
    (h : Order.decode room draft = .ok decoded) : n.amount? = some decoded.amount := by
  obtain ⟨inner, before, after, last, hfill, hpart, hfinish⟩ :=
    Draft.exists_fill_of_record looksAfter_amount hamount h
  obtain ⟨a, ha, hafter⟩ := bind_eq_ok_iff.1 hfill
  cases hafter
  obtain ⟨amount, hrequired, hdecoded⟩ := bind_eq_ok_iff.1 hfinish
  cases hdecoded
  rw [Draft.required_eq_ok_iff, hpart] at hrequired
  cases hrequired
  exact Draft.required_eq_ok_iff.1 ha

/-- The amount arrives in the order of a context, if the whole context can be decoded. -/
theorem Context.exists_order_of_decode (horder : draft.Has "order" order)
    (hamount : order.Has "amount" (.number (some n)))
    (h : Context.decode room draft = .ok context) :
    ∃ decoded, context.order = some decoded ∧ n.amount? = some decoded.amount := by
  obtain ⟨inner, before, after, last, hfill, hpart, hfinish⟩ :=
    Draft.exists_fill_of_record looksAfter_order horder h
  obtain ⟨found, hfound, hafter⟩ := bind_eq_ok_iff.1 hfill
  cases hafter
  obtain ⟨voucher, -, hcontext⟩ := bind_eq_ok_iff.1 hfinish
  cases hcontext
  rw [Draft.nullable_of_has hamount] at hfound
  obtain ⟨decoded, hdecoded, hsome⟩ := bind_eq_ok_iff.1 hfound
  cases hsome
  refine ⟨decoded, ?_, Order.amount?_of_decode hamount hdecoded⟩
  change last.order.getD none = some decoded
  rw [hpart]
  rfl

/-- The context was decoded from JSON in which the amount of the order is a number: a text that was
read straight away, or a value. -/
inductive Context.DecodedWith (n : Number) : Context → Prop
  | text {input : String} {order : Draft} {context : Context} :
    (Json.Document.read input).root.Has "order" order → order.Has "amount" (.number (some n)) →
      Context.read input = .ok context → DecodedWith n context
  | value {json order : Json} {context : Context} :
    json.field? "order" = some order → order.field? "amount" = some (.number n) →
      Context.ofJson? json = some context → DecodedWith n context

theorem Context.DecodedWith.exists_order (h : context.DecodedWith n) :
    ∃ decoded, context.order = some decoded ∧ n.amount? = some decoded.amount := by
  cases h with
  | text horder hamount hread =>
    obtain ⟨context', hdecode, hread⟩ := bind_eq_ok_iff.1 hread
    split at hread
    · cases hread
    · cases hread
      exact Context.exists_order_of_decode horder hamount hdecode
  | @value json order context horder hamount hread =>
    rw [Context.ofJson?] at hread
    cases hdecode : Context.decode json.depth (Draft.ofJson json) with
    | error fault =>
      rw [hdecode] at hread
      cases hread
    | ok context' =>
      rw [hdecode] at hread
      cases hread
      exact Context.exists_order_of_decode (Draft.has_ofJson horder) (Draft.has_ofJson hamount)
        hdecode

end Screening
