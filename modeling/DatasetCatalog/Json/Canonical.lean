import DatasetCatalog.Error
import DatasetCatalog.Text.Quoted
import DatasetCatalog.Value.Display

/-!
# Canonical JSON

One text for every JSON value up to the order of object keys: keys sorted by code points, no
blanks, and everything outside printing ASCII escaped. Values that JSON lacks are written as the
text that displays them. A value with a whole number that is too long to be written has no text.
-/

namespace DatasetCatalog.Json

open Number Text

def escapeUnits (c : Char) : List Char :=
  let n := c.toNat
  if n < 0x10000 then '\\' :: 'u' :: hexDigits 4 n
  else
    let rest := n - 0x10000
    '\\' :: 'u' :: hexDigits 4 (0xD800 + rest / 0x400) ++
      '\\' :: 'u' :: hexDigits 4 (0xDC00 + rest % 0x400)

def escapeChar (c : Char) : List Char :=
  if c == '"' || c == '\\' then ['\\', c]
  else if ' ' ≤ c && c ≤ '~' then [c]
  else if c == '\n' then ['\\', 'n']
  else if c == '\r' then ['\\', 'r']
  else if c == '\t' then ['\\', 't']
  else if c == '\x0c' then ['\\', 'f']
  else if c == '\x08' then ['\\', 'b']
  else escapeUnits c

def writeText (s : String) : List Char := '"' :: s.toList.flatMap escapeChar ++ ['"']

def writeFloat (x : Float) : List Char :=
  match Binary64.ofFloat x with
  | .nan => ['N', 'a', 'N']
  | .infinite negative => (if negative then ['-'] else []) ++ "Infinity".toList
  | b => binaryText b

def separated (parts : List (List Char)) : List Char := List.intercalate [','] parts

def writeEntries (entries : List (String × List Char)) : List Char :=
  separated ((entries.mergeSort fun a b => decide (a.1 ≤ b.1)).map fun e =>
    writeText e.1 ++ ':' :: e.2)

def writeNotANumber : NotANumber → List Char
  | .double => writeFloat (0.0 / 0.0)
  | n@(.decimal ..) => writeText n.text

mutual

def write : Value → List Char
  | .null => "null".toList
  | .bool b => (if b then "true" else "false").toList
  | .int n => (intText n).toList
  | .float x => writeFloat x
  | .text s => writeText s
  | .list items => '[' :: separated (writeItems items) ++ [']']
  | .object entries => '\x7b' :: writeEntries (writeFields entries) ++ ['\x7d']
  | .date d => writeText (Value.date d).display
  | .moment m => writeText (Value.moment m).display
  | .duration d => writeText (Value.duration d).display
  | .decimal d => writeText (Value.decimal d).display
  | .nan _ n => writeNotANumber n
  | .bytes octets => writeText (Value.bytes octets).display
termination_by structural v => v

def writeItems : List Value → List (List Char)
  | [] => []
  | v :: rest => write v :: writeItems rest
termination_by structural vs => vs

def writeFields : List (String × Value) → List (String × List Char)
  | [] => []
  | (k, v) :: rest => (k, write v) :: writeFields rest
termination_by structural es => es

end

end DatasetCatalog.Json

namespace DatasetCatalog

/-- The text of a value whose whole numbers can all be written. -/
def canonicalJson (v : Value) : Except Breakdown String :=
  if v.hasText then .ok (String.ofList (Json.write v)) else .error .badValue

end DatasetCatalog
