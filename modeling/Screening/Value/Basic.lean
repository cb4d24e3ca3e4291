import Screening.Decimal.Basic
import Screening.Json.Basic

/-!
# Values

The data that rules and filters look at. Numbers are decimals, and two values are equal when they
have the same shape and their numbers are equal as numbers. Maps are kept in key order.
-/

namespace Screening

inductive Value where
  | null
  | bool (b : Bool)
  | number (d : Decimal)
  | string (s : String)
  | list (items : List Value)
  | map (entries : List (String × Value))

/-- Data under names, attached to vouchers, customers, orders and requests. -/
abbrev Metadata := List (String × Value)

namespace Value

instance : Inhabited Value := ⟨.null⟩

def isNull : Value → Bool
  | .null => true
  | _ => false

def decimal? : Value → Option Decimal
  | .number d => some d
  | _ => none

def string? : Value → Option String
  | .string s => some s
  | _ => none

def items? : Value → Option (List Value)
  | .list items => some items
  | _ => none

/-! ## Equality -/

mutual

protected def beq : Value → Value → Bool
  | .null, .null => true
  | .bool a, .bool b => a == b
  | .number a, .number b => a == b
  | .string a, .string b => a == b
  | .list a, .list b => beqItems a b
  | .map a, .map b => beqEntries a b
  | _, _ => false

def beqItems : List Value → List Value → Bool
  | [], [] => true
  | a :: as, b :: bs => Value.beq a b && beqItems as bs
  | _, _ => false

def beqEntries : List (String × Value) → List (String × Value) → Bool
  | [], [] => true
  | (k, a) :: as, (l, b) :: bs => k == l && Value.beq a b && beqEntries as bs
  | _, _ => false

end

instance : BEq Value := ⟨Value.beq⟩

/-! ## From JSON -/

mutual

/-- The value of a JSON value. A number out of the range of decimals has no data. -/
def ofJson : Json → Value
  | .null => .null
  | .bool b => .bool b
  | .number n => n.decimal?.elim .null .number
  | .string s => .string s
  | .array items => .list (ofJsonItems items)
  | .object written => .map (Keyed.ofList (ofJsonMembers written))

def ofJsonItems : List Json → List Value
  | [] => []
  | item :: rest => ofJson item :: ofJsonItems rest

def ofJsonMembers : List (String × Json) → List (String × Value)
  | [] => []
  | (key, value) :: rest => (key, ofJson value) :: ofJsonMembers rest

end

/-! ## Looking up paths -/

def segments : List Char → List (List Char)
  | [] => [[]]
  | c :: cs =>
    match segments cs with
    | [] => [[c]]
    | s :: rest => if c = '.' then [] :: s :: rest else (c :: s) :: rest

def joinSegments (path : List (List Char)) : String := String.ofList (['.'].intercalate path)

/-- Follows the segments of a path. The whole path is tried as a key first, and then the first
segment as the key of a nested map, in which the rest is followed. -/
def follow (map : Metadata) : List (List Char) → Option Value
  | [] => none
  | segment :: rest =>
    match map.lookup (joinSegments (segment :: rest)) with
    | some value => some value
    | none =>
      match map.lookup (String.ofList segment) with
      | some (.map nested) => follow nested rest
      | _ => none

/-- The value at a path of keys with dots between them. A key may itself hold dots. -/
def lookup (map : Metadata) (path : String) : Option Value := follow map (segments path.toList)

/-! ## Text -/

/-- A list with a comma between any two texts. -/
def commaSeparated (texts : List String) : String := String.intercalate ", " texts

mutual

/-- The text of a value. Strings stand in quotes, without escapes. -/
def render : Value → String
  | .null => "null"
  | .bool b => if b then "true" else "false"
  | .number d => d.render
  | .string s => "\"" ++ s ++ "\""
  | .list items => "[" ++ commaSeparated (renderItems items) ++ "]"
  | .map entries => "\x7b" ++ commaSeparated (renderEntries entries) ++ "\x7d"

def renderItems : List Value → List String
  | [] => []
  | item :: rest => render item :: renderItems rest

def renderEntries : List (String × Value) → List String
  | [] => []
  | (key, value) :: rest => ("\"" ++ key ++ "\": " ++ render value) :: renderEntries rest

end

instance : ToString Value := ⟨render⟩

end Value

end Screening
