import Screening.Json.Draft
import Screening.Text.Size

/-!
# Reading JSON texts

`Document.read` makes the draft of a text. The scanners of strings and numbers answer with what was
read and with what is left of the text, or with the break at which they gave up.

`Json.read` reads one value that fills the text but for blanks, with at most 127 arrays and objects
inside one another.
-/

namespace Screening.Json

variable {α : Type}

/-- Leaves out the blanks of JSON: space, tab, line feed and carriage return. -/
def skipBlanks (cs : List Char) : List Char :=
  cs.dropWhile fun c => c == ' ' || c == '\t' || c == '\n' || c == '\r'

/-! ## Strings -/

def hexValue? (c : Char) : Option Nat :=
  if '0' ≤ c ∧ c ≤ '9' then some (c.toNat - '0'.toNat)
  else if 'a' ≤ c ∧ c ≤ 'f' then some (c.toNat - 'a'.toNat + 10)
  else if 'A' ≤ c ∧ c ≤ 'F' then some (c.toNat - 'A'.toNat + 10)
  else none

def hexValue4? (a b c d : Char) : Option Nat := do
  return (((← hexValue? a) * 16 + (← hexValue? b)) * 16 + (← hexValue? c)) * 16 + (← hexValue? d)

def isHighSurrogate (n : Nat) : Bool := 0xD800 ≤ n && n ≤ 0xDBFF

def isLowSurrogate (n : Nat) : Bool := 0xDC00 ≤ n && n ≤ 0xDFFF

/-- The character of a surrogate pair. -/
def pairedSurrogates (high low : Nat) : Char :=
  Char.ofNat (0x10000 + (high - 0xD800) * 0x400 + (low - 0xDC00))

/-- The character of an escape of one letter. -/
def escaped? : Char → Option Char
  | '"' => some '"'
  | '\\' => some '\\'
  | '/' => some '/'
  | 'b' => some '\x08'
  | 'f' => some '\x0c'
  | 'n' => some '\n'
  | 'r' => some '\r'
  | 't' => some '\t'
  | _ => none

/-- Scans a string from behind its opening quote. The characters so far are in `done`, the latest
first. `half` is the first half of a surrogate pair that stands just before, and `sound` tells that
every half before that had its other half. -/
def scanString (done : List Char) (half : Option Nat) (sound : Bool) :
    List Char → Except Break (Option String × List Char)
  | [] => .error ⟨if sound then .unfinished else .malformed, .unfinished⟩
  | '"' :: rest =>
    .ok (if sound && half.isNone then some (String.ofList done.reverse) else none, rest)
  | '\\' :: rest =>
    match rest with
    | [] => .error ⟨if sound then .unfinished else .malformed, .unfinished⟩
    | 'u' :: a :: b :: c :: d :: rest =>
      -- A half without its other half makes the string unsound, but the text goes on.
      match hexValue4? a b c d, half with
      | none, _ => .error (.of .malformed)
      | some n, some high =>
        if isLowSurrogate n then scanString (pairedSurrogates high n :: done) none sound rest
        else scanString done none false rest
      | some n, none =>
        if isHighSurrogate n then scanString done (some n) sound rest
        else if isLowSurrogate n then scanString done none false rest
        else scanString (Char.ofNat n :: done) none sound rest
    | 'u' :: rest =>
      -- With fewer bytes left, the text ends within the escape.
      if 4 ≤ Text.utf8Size rest then .error (.of .malformed)
      else .error ⟨if sound then .unfinished else .malformed, .unfinished⟩
    | c :: rest =>
      match escaped? c with
      | some c => scanString (c :: done) none (sound && half.isNone) rest
      | none => .error (.of .malformed)
  | c :: rest =>
    if c.toNat < 0x20 then .error (.of .malformed)
    else scanString (c :: done) none (sound && half.isNone) rest

/-! ## Numbers and words -/

def digitsValue (cs : List Char) : Nat := cs.foldl (fun n c => n * 10 + (c.toNat - '0'.toNat)) 0

/-- Scans digits, of which there must be one. -/
def scanDigits (cs : List Char) : Except Break (List Char × List Char) :=
  match cs.span Char.isDigit with
  | ([], []) => .error ⟨.unfinished, .malformed⟩
  | ([], _) => .error (.of .malformed)
  | found => .ok found

/-- Scans the digits before the point, which do not begin with a zero unless it is alone. -/
def scanWhole (cs : List Char) : Except Break (List Char × List Char) := do
  match ← scanDigits cs with
  | ('0' :: _ :: _, _) => .error (.of .malformed)
  | found => return found

def scanPower : List Char → Except Break (Option Int × List Char)
  | [] => .ok (none, [])
  | c :: rest =>
    if c == 'e' || c == 'E' then do
      let (minus, rest) := match rest with
        | '-' :: rest => (true, rest)
        | '+' :: rest => (false, rest)
        | rest => (false, rest)
      let (digits, rest) ← scanDigits rest
      return (some (if minus then -digitsValue digits else digitsValue digits), rest)
    else .ok (none, c :: rest)

/-- Scans the digits after the point, if there is one. -/
def scanFraction : List Char → Except Break (Option (List Char) × List Char)
  | '.' :: rest => do
    let (digits, rest) ← scanDigits rest
    return (some digits, rest)
  | rest => .ok (none, rest)

/-- Takes digits as long as the number that they make has no more than 64 bits. Answers with that
number and with the digits that are left. -/
def takeDigits (n : Nat) : List Char → Nat × List Char
  | [] => (n, [])
  | c :: cs =>
    let next := n * 10 + (c.toNat - '0'.toNat)
    if next ≤ maxInteger then takeDigits next cs else (n, c :: cs)

/-- Scans a number. With a point or an exponent it is a double. Digits that do not fit 64 bits count
before the point, where each stands for a power of ten, but not behind it. -/
def scanNumber (cs : List Char) : Except Break (Option Number × List Char) := do
  let (negative, rest) := match cs with
    | '-' :: rest => (true, rest)
    | rest => (false, rest)
  let (whole, rest) ← scanWhole rest
  let (fraction, rest) ← scanFraction rest
  let (power, rest) ← scanPower rest
  let (digits, dropped) := takeDigits 0 whole
  match fraction, power with
  | none, none => return (Number.ofWhole? negative digits dropped.length, rest)
  | fraction, power =>
    let places := fraction.getD []
    let (digits, left) := takeDigits digits places
    -- Of the digits behind the point only those that were taken lower the power.
    let power := power.getD 0 + dropped.length - (places.length - left.length : Nat)
    return (Number.ofScientific? negative digits power, rest)

def scanWord : List Char → List Char → Except Break (List Char)
  | [], rest => .ok rest
  | _ :: _, [] => .error (.of .unfinished)
  | w :: word, c :: rest => if w = c then scanWord word rest else .error (.of .malformed)

/-! ## Values

A reader answers with the draft and with the rest of the text, which is none after a break.
The first argument bounds the number of steps; every other step takes a character. -/

def finishScalar (draft : α → Draft) :
    Except Break (α × List Char) → Draft × Option (List Char)
  | .ok (a, rest) => (draft a, some rest)
  | .error stop => (.broken stop, none)

/-- What an array or a member list holds, where it breaks off, and what is left of the text. -/
structure Contents (α : Type) where
  found : List α
  stop : Option Break
  rest : Option (List Char)

def Contents.broken (fault : Fault) : Contents α := ⟨[], some (.of fault), none⟩

/-- Goes on after a value: a comma and more, or the closing bracket. -/
def Contents.next (close : Char) (entry : α) (rest : Option (List Char))
    (more : List Char → Contents α) : Contents α :=
  match rest.map skipBlanks with
  | none => ⟨[entry], none, none⟩
  | some [] => ⟨[entry], some (.of .unfinished), none⟩
  | some (c :: rest) =>
    if c = ',' then
      let after := more rest
      ⟨entry :: after.found, after.stop, after.rest⟩
    else if c = close then ⟨[entry], none, some rest⟩
    else ⟨[entry], some (.of .malformed), none⟩

mutual

def readValue : Nat → List Char → Draft × Option (List Char)
  | 0, _ => (.broken (.of .malformed), none)
  | steps + 1, cs =>
    match skipBlanks cs with
    | [] => (.broken (.of .unfinished), none)
    | c :: rest =>
      if c = '"' then finishScalar .string (scanString [] none true rest)
      else if c = '-' || c.isDigit then finishScalar .number (scanNumber (c :: rest))
      else if c = 'n' then
        finishScalar (fun _ => .null) ((scanWord ['u', 'l', 'l'] rest).map ((), ·))
      else if c = 't' then
        finishScalar (fun _ => .bool true) ((scanWord ['r', 'u', 'e'] rest).map ((), ·))
      else if c = 'f' then
        finishScalar (fun _ => .bool false) ((scanWord ['a', 'l', 's', 'e'] rest).map ((), ·))
      else if c = '[' then
        let contents : Contents _ := match skipBlanks rest with
          | [] => .broken .unfinished
          | d :: more => if d = ']' then ⟨[], none, some more⟩ else readItems steps rest
        (.array contents.found contents.stop, contents.rest)
      else if c = '\x7b' then
        let contents : Contents _ := match skipBlanks rest with
          | [] => .broken .unfinished
          | d :: more => if d = '\x7d' then ⟨[], none, some more⟩ else readMembers steps rest
        (.object contents.found contents.stop, contents.rest)
      else (.broken (.of .malformed), none)

def readItems : Nat → List Char → Contents Draft
  | 0, _ => .broken .malformed
  | steps + 1, cs =>
    let (item, rest) := readValue steps cs
    .next ']' item rest (readItems steps)

def readMembers : Nat → List Char → Contents (Option String × Draft)
  | 0, _ => .broken .malformed
  | steps + 1, cs =>
    match skipBlanks cs with
    | [] => .broken .unfinished
    | '"' :: rest =>
      match scanString [] none true rest with
      | .error stop => ⟨[], some stop, none⟩
      | .ok (key, rest) =>
        match skipBlanks rest with
        | [] => ⟨[(key, .broken (.of .unfinished))], none, none⟩
        | ':' :: rest =>
          let (value, rest) := readValue steps rest
          .next '\x7d' (key, value) rest (readMembers steps)
        | _ => ⟨[(key, .broken (.of .malformed))], none, none⟩
    | _ => .broken .malformed

end

/-- The draft of a whole text. -/
structure Document where
  root : Draft
  /-- Whether something other than blanks follows the value. -/
  trailing : Bool

namespace Document

/-- Reads a text as far as it goes. -/
def read (text : String) : Document :=
  let cs := text.toList
  let (root, rest) := readValue (2 * cs.length + 2) cs
  ⟨root, !(skipBlanks (rest.getD [])).isEmpty⟩

/-- What a reader of drafts makes of the text, which must end after the value. -/
def decode (reader : Draft → Except Fault α) (document : Document) : Except Fault α := do
  let a ← reader document.root
  if document.trailing then .error .malformed else return a

end Document

/-- The greatest depth of a value in a text. -/
def maxDepth : Nat := 127

def read (text : String) : Except Fault Json := (Document.read text).decode (Draft.toJson maxDepth)

end Screening.Json
