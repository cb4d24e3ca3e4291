import Screening.Json.Number
import Screening.Keyed

/-!
# JSON values

Objects are kept as they are written, in order and with repeated keys. What an object means is given
by `members`: each key once, at its first place and with its last value.
-/

namespace Screening

inductive Json where
  | null
  | bool (b : Bool)
  | number (n : Json.Number)
  | string (s : String)
  | array (items : List Json)
  | object (written : List (String × Json))

namespace Json

instance : Inhabited Json := ⟨.null⟩

/-- The members of an object, each key once; nothing for other values. -/
def members? : Json → Option (List (String × Json))
  | .object written => some (Keyed.merge written)
  | _ => none

/-- Of an object with a repeated key only one member is left under it. -/
theorem nodup_of_members? {json : Json} {members : List (String × Json)}
    (h : json.members? = some members) : (members.map (·.1)).Nodup := by
  cases json <;> cases h
  exact Keyed.nodup_merge _

def text? : Json → Option String
  | .string s => some s
  | _ => none

def items? : Json → Option (List Json)
  | .array items => some items
  | _ => none

def field? (key : String) (json : Json) : Option Json := json.members?.bind (·.lookup key)

mutual

/-- How many arrays and objects stand inside one another. -/
def depth : Json → Nat
  | .array items => depthItems items + 1
  | .object written => depthMembers written + 1
  | _ => 0

def depthItems : List Json → Nat
  | [] => 0
  | item :: rest => max (depth item) (depthItems rest)

def depthMembers : List (String × Json) → Nat
  | [] => 0
  | (_, value) :: rest => max (depth value) (depthMembers rest)

end

end Json

end Screening
