import Screening.Selection.Basic

/-!
# Selections from queries

A query is a list of keys with values. The key of a condition is
`filters[field][conditions][operator]`, perhaps with a last segment that is empty or a number, for
conditions that come several times; `filters[junction]` sets the junction and `order` the order.
Other keys mean nothing here.

Blank values are ignored, except that a flag is set by any value but `false`, and that a blank order
takes back the one before it. The first wrong pair makes the whole query fail.
-/

namespace Screening

/-- What the key of a filter refers to. -/
inductive QueryKey where
  | junction
  | condition (field operator : String)
deriving DecidableEq, Repr

namespace QueryKey

/-- The segments of a text that is made of segments in square brackets and nothing else. `segment`
is the segment that is open, the last character first. -/
def segmentsFrom? (segment : Option (List Char)) : List Char → Option (List String)
  | [] => if segment.isNone then some [] else none
  | c :: cs =>
    match segment with
    | none => if c = '[' then segmentsFrom? (some []) cs else none
    | some segment =>
      if c = '[' then none
      else if c = ']' then (segmentsFrom? none cs).map (String.ofList segment.reverse :: ·)
      else segmentsFrom? (some (c :: segment)) cs

def segments? : List Char → Option (List String)
  | 'f' :: 'i' :: 'l' :: 't' :: 'e' :: 'r' :: 's' :: rest => segmentsFrom? none rest
  | _ => none

/-- Whether a segment is empty or a number. -/
def isIndex (segment : String) : Bool := segment.toList.all Char.isDigit

/-- What a condition's key refers to, if its field is not blank. -/
def onField? (field operator : String) : Option QueryKey :=
  if Text.blank field then none else some (.condition field operator)

def ofSegments? : List String → Option QueryKey
  | ["junction"] => some .junction
  | [field, "conditions", operator] => onField? field operator
  | [field, "conditions", operator, index] =>
    if isIndex index then onField? field operator else none
  | _ => none

def parse (key : String) : Except QueryError QueryKey :=
  match (segments? key.toList).bind ofSegments? with
  | some parsed => .ok parsed
  | none => .error (.malformedKey key)

end QueryKey

namespace Selection

def addEntry (selection : Selection) (key : QueryKey) (value : String) :
    Except QueryError Selection :=
  match key with
  | .junction =>
    if Text.blank value then .ok selection else (Junction.parse value).map selection.withJunction
  | .condition field symbol =>
    (Operator.ofSymbol symbol).map fun operator =>
      if operator.isFlag then
        if Text.eqIgnoringCase (Text.trim value) "false" then selection
        else selection.addTo field operator ""
      else if Text.blank value then selection
      else selection.addTo field operator value

def addPair (selection : Selection) (pair : String × String) : Except QueryError Selection :=
  -- An order replaces the one before it, also where its text holds none.
  if pair.1 = "order" then .ok { selection with order := SortOrder.parse? pair.2 }
  else if Text.startsWith pair.1 "filters[" then do
    selection.addEntry (← QueryKey.parse pair.1) pair.2
  else .ok selection

def ofQuery (pairs : List (String × String)) : Except QueryError Selection :=
  pairs.foldlM addPair {}

end Selection

end Screening
