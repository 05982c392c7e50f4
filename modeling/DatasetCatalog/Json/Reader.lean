import DatasetCatalog.Number.NumberText
import DatasetCatalog.Text.Quoted
import DatasetCatalog.Text.Surrogate
import DatasetCatalog.Value.Basic

/-!
# Reading JSON

A number with a point or an exponent is a double, any other a whole number. Of entries with one
key the last counts, in the place of the first. A text that is no JSON is refused at the position
where reading stopped. The words for not-a-number and infinity are read as well. Whole numbers of
too many digits, and lists and objects too deep within each other, are not read.
-/

namespace DatasetCatalog.Json

open Number Text

def maxDepth : Nat := 960

/-- The rest of the text, how many characters precede it, and how many lists and objects may still
be opened within those that are open. -/
structure Cursor where
  position : Nat
  rest : List Char
  room : Nat := maxDepth

def Cursor.advance (c : Cursor) (n : Nat) : Cursor :=
  { c with position := c.position + n, rest := c.rest.drop n }

def isJsonBlank (c : Char) : Bool := c == ' ' || c == '\n' || c == '\t' || c == '\r'

def Cursor.skipBlanks (c : Cursor) : Cursor := c.advance (c.rest.takeWhile isJsonBlank).length

inductive Fault where
  | malformed (position : Nat)
  | excessive
deriving DecidableEq, Repr

abbrev Outcome := Except Fault

def refuseAt {α : Type} (position : Nat) : Outcome α := .error (.malformed position)

def Cursor.enter (c : Cursor) : Outcome Cursor :=
  match c.room with
  | 0 => .error .excessive
  | room + 1 => .ok { c.advance 1 with room }

def Cursor.leave (c : Cursor) : Cursor := { c.advance 1 with room := c.room + 1 }

def hexNumber? (cs : List Char) : Option Nat :=
  cs.foldlM (fun n c => (hexValue? c).map (16 * n + ·)) 0

def escapes : List (Char × Char) :=
  [('"', '"'), ('\\', '\\'), ('/', '/'), ('b', '\x08'), ('f', '\x0c'), ('n', '\n'), ('r', '\r'),
    ('t', '\t')]

/-- One UTF-16 unit after `\u`; the text has to go on behind its four digits. -/
def readUnit? (c : Cursor) : Outcome (Nat × Cursor) :=
  if (c.rest.drop 4).isEmpty then refuseAt (c.position - 1)
  else match hexNumber? (c.rest.take 4) with
    | some n => .ok (n, c.advance 4)
    | none => refuseAt (c.position - 1)

/-- A character after `\u`; two surrogates make one character. -/
def readEscapedUnits (c : Cursor) : Outcome (Char × Cursor) := do
  let (first, afterFirst) ← readUnit? c
  match isHighSurrogate first && !(afterFirst.rest.drop 6).isEmpty, afterFirst.rest with
  | true, '\\' :: 'u' :: _ =>
    let (second, afterSecond) ← readUnit? (afterFirst.advance 2)
    if isLowSurrogate second then
      return (pairedChar first second, afterSecond)
    else return (unitChar first, afterFirst)
  | _, _ => return (unitChar first, afterFirst)

/-- The characters up to the closing quote; `start` is the position of the opening one. -/
def readCharacters (start : Nat) (read : List Char) : Nat → Cursor → Outcome (String × Cursor)
  | 0, _ => refuseAt start
  | fuel + 1, c =>
    match c.rest with
    | [] => refuseAt start
    | '"' :: _ => .ok (String.ofList read.reverse, c.advance 1)
    | ['\\'] => refuseAt start
    | '\\' :: 'u' :: _ => do
      let (character, next) ← readEscapedUnits (c.advance 2)
      readCharacters start (character :: read) fuel next
    | '\\' :: mark :: _ =>
      match escapes.lookup mark with
      | some character => readCharacters start (character :: read) fuel (c.advance 2)
      | none => refuseAt c.position
    | a :: _ =>
      if a.toNat < 0x20 then refuseAt c.position
      else readCharacters start (a :: read) fuel (c.advance 1)

def readText (fuel : Nat) (c : Cursor) : Outcome (String × Cursor) :=
  readCharacters c.position [] fuel (c.advance 1)

/-- The digits of a whole number: a zero alone or a run that begins with another digit. -/
def wholeDigits (cs : List Char) : List Char :=
  match cs with
  | '0' :: _ => ['0']
  | _ => cs.takeWhile Char.isDigit

/-- How many characters a point and the digits behind it take. -/
def fractionLength : List Char → Nat
  | '.' :: rest =>
    let count := (rest.takeWhile Char.isDigit).length
    if count == 0 then 0 else count + 1
  | _ => 0

def exponentLength : List Char → Nat
  | mark :: rest =>
    let signLength := match rest with
      | '+' :: _ | '-' :: _ => 1
      | _ => 0
    let count := ((rest.drop signLength).takeWhile Char.isDigit).length
    if (mark == 'e' || mark == 'E') && count != 0 then count + signLength + 1 else 0
  | [] => 0

def readNumber (c : Cursor) : Outcome (Value × Cursor) :=
  let (negative, digitsFrom) := match c.rest with
    | '-' :: rest => (true, rest)
    | rest => (false, rest)
  let digits := wholeDigits digitsFrom
  if digits.isEmpty then refuseAt c.position
  else
    let signLength := if negative then 1 else 0
    let afterDigits := digitsFrom.drop digits.length
    let fraction := fractionLength afterDigits
    let exponent := exponentLength (afterDigits.drop fraction)
    let length := signLength + digits.length + fraction + exponent
    if fraction + exponent != 0 then
      .ok (.float ((readPlain? (c.rest.take length)).getD 0.0), c.advance length)
    else if maxDigits < digits.length then .error .excessive
    else .ok (.int (signed negative (digitsValue digits)), c.advance length)

def words : List (List Char × Value) :=
  [("null".toList, .null), ("true".toList, .bool true), ("false".toList, .bool false),
    ("NaN".toList, .float (0.0 / 0.0)), ("Infinity".toList, .float (1.0 / 0.0)),
    ("-Infinity".toList, .float (-(1.0 / 0.0)))]

def readScalar (c : Cursor) : Outcome (Value × Cursor) :=
  match words.find? fun (word, _) => word.isPrefixOf c.rest with
  | some (word, value) => .ok (value, c.advance word.length)
  | none => readNumber c

mutual

def readValue : Nat → Cursor → Outcome (Value × Cursor)
  | 0, c => refuseAt c.position
  | fuel + 1, c =>
    match c.rest with
    | '"' :: _ => do
      let (s, next) ← readText fuel c
      return (.text s, next)
    | '[' :: _ => do
      let inside := (← c.enter).skipBlanks
      match inside.rest with
      | ']' :: _ => return (.list [], inside.leave)
      | _ => readItems fuel [] inside
    | '\x7b' :: _ => do
      let inside := (← c.enter).skipBlanks
      match inside.rest with
      | '\x7d' :: _ => return (.object [], inside.leave)
      | _ => readEntries fuel [] inside
    | _ => readScalar c

/-- The items of a list from one of them on, those before it in reverse. -/
def readItems : Nat → List Value → Cursor → Outcome (Value × Cursor)
  | 0, _, c => refuseAt c.position
  | fuel + 1, read, c => do
    let (v, next) ← readValue fuel c
    let next := next.skipBlanks
    match next.rest with
    | ']' :: _ => return (.list (v :: read).reverse, next.leave)
    | ',' :: _ => readItems fuel (v :: read) (next.advance 1).skipBlanks
    | _ => refuseAt next.position

def readEntries : Nat → List (String × Value) → Cursor → Outcome (Value × Cursor)
  | 0, _, c => refuseAt c.position
  | fuel + 1, read, c =>
    match c.rest with
    | '"' :: _ => do
      let (k, afterKey) ← readText fuel c
      let afterKey := afterKey.skipBlanks
      match afterKey.rest with
      | ':' :: _ =>
        let (v, next) ← readValue fuel (afterKey.advance 1).skipBlanks
        let next := next.skipBlanks
        let entries := Value.putEntry k v read
        match next.rest with
        | '\x7d' :: _ => return (.object entries, next.leave)
        | ',' :: _ => readEntries fuel entries (next.advance 1).skipBlanks
        | _ => refuseAt next.position
      | _ => refuseAt afterKey.position
    | _ => refuseAt c.position

end

def parse (s : String) : Except Fault Value := do
  let cs := s.toList
  let (v, next) ← readValue (2 * cs.length + 1) (Cursor.mk 0 cs maxDepth).skipBlanks
  let next := next.skipBlanks
  if next.rest.isEmpty then return v else refuseAt next.position

end DatasetCatalog.Json
