import Screening.Json.Basic

/-!
# JSON texts that may be faulty

A text is read in one pass from its start, and the first problem in the text decides what is
reported. Whether something is a problem hangs on what the reader wants of it: a value of the wrong
type is one where a certain type is expected, and a string with half a surrogate pair is one unless
the value is skipped anyway. A draft therefore records a text as far as it goes, with its faults in
their places. What a text means is then a function on drafts that visits them in the order of the
text.

* `Draft.toJson` reads any value, up to a certain depth.
* `Draft.skip` passes over a value that nobody asked for, which is less strict.
* `Draft.ofJson` is the draft of a value that has no faults.
-/

namespace Screening.Json

variable {α : Type}

inductive Fault where
  /-- The text ends too early. -/
  | unfinished
  /-- The text is no JSON. -/
  | malformed
  /-- The text is good so far, but not what was expected. -/
  | mistyped
deriving DecidableEq, Repr

/-- A place where a text breaks off, with what is reported when the value is read and when it is
only skipped. -/
structure Break where
  reading : Fault
  skipping : Fault

/-- A break that is reported alike in both ways. -/
def Break.of (fault : Fault) : Break := ⟨fault, fault⟩

/-- A value of a text that may be faulty. After a break nothing follows: a broken value is the last
one of its array or object. -/
inductive Draft where
  | null
  | bool (b : Bool)
  /-- A number, or nothing if it is out of range. -/
  | number (n : Option Number)
  /-- A string, or nothing if it has half a surrogate pair. -/
  | string (s : Option String)
  /-- An array, which is closed or else breaks off after its last item. -/
  | array (items : List Draft) (stop : Option Break)
  /-- An object, likewise. -/
  | object (members : List (Option String × Draft)) (stop : Option Break)
  | broken (stop : Break)

namespace Draft

instance : Inhabited Draft := ⟨.null⟩

/-- Goes on if an array or object is closed. -/
def closed (stop : Option Break) : Except Fault Unit :=
  match stop with
  | none => .ok ()
  | some stop => .error stop.reading

def checked : Option α → Except Fault α
  | some a => .ok a
  | none => .error .malformed

/-- The fault of a value of the wrong type. A number, a string or a word is read before its type is
found to be wrong, an array or object is not. -/
def mistyped : Draft → Fault
  | .broken stop => stop.reading
  | .number none | .string none => .malformed
  | _ => .mistyped

mutual

/-- Passes over a value, without a bound on its depth. -/
def skip : Draft → Except Fault Unit
  | .array items stop => do
    skipItems items
    (stop.map (·.skipping)).elim (.ok ()) .error
  | .object members stop => do
    skipMembers members
    (stop.map (·.skipping)).elim (.ok ()) .error
  | .broken stop => .error stop.skipping
  | _ => .ok ()

def skipItems : List Draft → Except Fault Unit
  | [] => .ok ()
  | item :: rest => do
    skip item
    skipItems rest

def skipMembers : List (Option String × Draft) → Except Fault Unit
  | [] => .ok ()
  | (_, value) :: rest => do
    skip value
    skipMembers rest

end

mutual

/-- Reads a value in which at most `room` arrays and objects stand inside one another. -/
def toJson (room : Nat) : Draft → Except Fault Json
  | .null => .ok .null
  | .bool b => .ok (.bool b)
  | .number n => return .number (← checked n)
  | .string s => return .string (← checked s)
  | .array items stop =>
    match room with
    | 0 => .error .malformed
    | room + 1 => do
      let items ← toJsonItems room items
      closed stop
      return .array items
  | .object members stop =>
    match room with
    | 0 => .error .malformed
    | room + 1 => do
      let members ← toJsonMembers room members
      closed stop
      return .object members
  | .broken stop => .error stop.reading

def toJsonItems (room : Nat) : List Draft → Except Fault (List Json)
  | [] => .ok []
  | item :: rest => do
    let item ← toJson room item
    return item :: (← toJsonItems room rest)

def toJsonMembers (room : Nat) : List (Option String × Draft) → Except Fault (List (String × Json))
  | [] => .ok []
  | (key, value) :: rest => do
    let key ← checked key
    let value ← toJson room value
    return (key, value) :: (← toJsonMembers room rest)

end

mutual

/-- The draft of a value, in which an object has each key once. -/
def ofJson : Json → Draft
  | .null => .null
  | .bool b => .bool b
  | .number n => .number (some n)
  | .string s => .string (some s)
  | .array items => .array (ofJsonItems items) none
  | .object written =>
    .object ((Keyed.merge (ofJsonMembers written)).map fun member => (some member.1, member.2)) none

def ofJsonItems : List Json → List Draft
  | [] => []
  | item :: rest => ofJson item :: ofJsonItems rest

def ofJsonMembers : List (String × Json) → List (String × Draft)
  | [] => []
  | (key, value) :: rest => (key, ofJson value) :: ofJsonMembers rest

end

end Draft

end Screening.Json
