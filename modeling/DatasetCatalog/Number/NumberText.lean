import DatasetCatalog.Number.Binary64
import DatasetCatalog.Text.Blank
import DatasetCatalog.Text.DecimalDigit

/-!
# Reading numbers

A number is written with an optional sign, digits with an optional point, and an optional exponent;
the words for infinity and not-a-number are read in any case. The lenient form also takes the
decimal digits of every script and single underscores between digits.
-/

namespace DatasetCatalog.Number

open Text

def readSign : List Char → Bool × List Char
  | '-' :: rest => (true, rest)
  | '+' :: rest => (false, rest)
  | cs => (false, cs)

/-- The exponent part: nothing, or a mark, an optional sign and at least one digit. -/
def readExponent? : List Char → Option Int
  | [] => some 0
  | mark :: rest =>
    let (negative, digits) := readSign rest
    if (mark == 'e' || mark == 'E') && !digits.isEmpty && digits.all Char.isDigit then
      some (signed negative (digitsValue digits))
    else none

def readMagnitude? (negative : Bool) (cs : List Char) : Option Float :=
  let whole := cs.takeWhile Char.isDigit
  let afterWhole := cs.dropWhile Char.isDigit
  let (fraction, rest) := match afterWhole with
    | '.' :: r => (r.takeWhile Char.isDigit, r.dropWhile Char.isDigit)
    | r => ([], r)
  if whole.isEmpty && fraction.isEmpty then none
  else (readExponent? rest).map fun e =>
    ofDecimal negative (digitsValue (whole ++ fraction)) (e - fraction.length)

/-- A number of ASCII digits, or one of the words. -/
def readPlain? (cs : List Char) : Option Float :=
  let (negative, rest) := readSign cs
  let word := String.ofList (rest.map (·.toLower))
  if word == "inf" || word == "infinity" then
    some (if negative then -(1.0 / 0.0) else 1.0 / 0.0)
  else if word == "nan" then some (0.0 / 0.0)
  else readMagnitude? negative rest

/-- Remove underscores, each of which has to stand between two digits. -/
def dropUnderscores? (afterDigit : Bool) : List Char → Option (List Char)
  | [] => some []
  | '_' :: c :: rest =>
    if afterDigit && c.isDigit then (dropUnderscores? true rest).map (c :: ·) else none
  | ['_'] => none
  | c :: rest => (dropUnderscores? c.isDigit rest).map (c :: ·)

/-- Decimal digits of every script as ASCII digits. -/
def asciiDigit (c : Char) : Char :=
  match digitValue? c with
  | some n => Char.ofNat (48 + n)
  | none => c

/-- The number that a text writes in the lenient form, white space at its ends apart. -/
def readLenient? (s : String) : Option Float :=
  (dropUnderscores? false ((trimWhite s.toList).map asciiDigit)).bind readPlain?

end DatasetCatalog.Number
