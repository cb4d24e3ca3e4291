import Screening.Json.Draft

/-!
# Decoding records

A record is written as an object with a member for each field, or as an array of the fields in their
order. Fields may be missing at the end of the array and anywhere in the object; whether the record
can do without them is decided when it ends. Members that are no field are passed over, and a field
that comes a second time is a fault, even before its value is looked at.

All problems are found in the order of the text. `room` is the number of arrays and objects that may
still stand inside one another.
-/

namespace Screening.Json

variable {σ α : Type}

/-- A field of a record whose parts are gathered in `σ`. -/
structure Slot (σ : Type) where
  name : String
  /-- Whether the field has come already. -/
  filled : σ → Bool
  /-- Reads the field. -/
  fill : Draft → σ → Except Fault σ

namespace Slot

/-- Reads the fields of an array, as far as it has items. -/
def fillInOrder : List (Slot σ) → List Draft → σ → Except Fault σ
  | slot :: slots, item :: items, parts => do fillInOrder slots items (← slot.fill item parts)
  | [], _ :: _, _ => .error .malformed
  | _, [], parts => .ok parts

def fillNamed (slots : List (Slot σ)) (parts : σ) (member : Option String × Draft) :
    Except Fault σ := do
  let key ← Draft.checked member.1
  match slots.find? (·.name == key) with
  | none =>
    member.2.skip
    return parts
  | some slot => if slot.filled parts then .error .mistyped else slot.fill member.2 parts

end Slot

namespace Draft

/-- Decodes a record: `slots` are its fields, given the room for their values, and `finish` makes
the record of its parts. -/
def record (slots : Nat → List (Slot σ)) (parts : σ) (finish : σ → Except Fault α) (room : Nat)
    (draft : Draft) : Except Fault α :=
  match draft, room with
  | .array .., 0 | .object .., 0 => .error .malformed
  | .array items stop, room + 1 => do
    let parts ← Slot.fillInOrder (slots room) items parts
    closed stop
    finish parts
  | .object members stop, room + 1 => do
    let parts ← members.foldlM (Slot.fillNamed (slots room)) parts
    closed stop
    finish parts
  | draft, _ => .error draft.mistyped

def required : Option α → Except Fault α
  | some a => .ok a
  | none => .error .mistyped

def text : Draft → Except Fault String
  | .string (some s) => .ok s
  | draft => .error draft.mistyped

def nullable (decode : Draft → Except Fault α) : Draft → Except Fault (Option α)
  | .null => .ok none
  | draft => some <$> decode draft

def listOf (decode : Nat → Draft → Except Fault α) (room : Nat) (draft : Draft) :
    Except Fault (List α) :=
  match draft, room with
  | .array .., 0 => .error .malformed
  | .array items stop, room + 1 => do
    let items ← items.mapM (decode room)
    closed stop
    return items
  | draft, _ => .error draft.mistyped

/-- Decodes a whole number within bounds, which has neither point nor exponent. -/
def wholeBetween (low high : Int) : Draft → Except Fault Int
  | .number (some (.integer n _ _)) => if low ≤ n ∧ n ≤ high then .ok n else .error .mistyped
  | draft => .error draft.mistyped

def int64 (draft : Draft) : Except Fault Int64 :=
  Int64.ofInt <$> wholeBetween minInteger 9223372036854775807 draft

def uint64 (draft : Draft) : Except Fault UInt64 :=
  (fun n => UInt64.ofNat n.toNat) <$> wholeBetween 0 maxInteger draft

end Draft

end Screening.Json
