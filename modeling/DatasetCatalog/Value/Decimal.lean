import DatasetCatalog.Number.DoubleText
import DatasetCatalog.Number.NumberText

/-!
# Decimal numbers

A decimal number as a database writes it: zeros at the end count, so it is kept as a whole number
times a power of ten.
-/

namespace DatasetCatalog

open Number Text

inductive DecimalNumber where
  | finite (negative : Bool) (coefficient : Nat) (exponent : Int)
  | infinite (negative : Bool)
  /-- Not a number; one that signals must not be computed with. -/
  | nan (negative signaling : Bool) (payload : Nat)
deriving DecidableEq, Repr

namespace DecimalNumber

/-- Digits with an optional point, then an optional exponent. -/
def ofMagnitude? (negative : Bool) (cs : List Char) : Option DecimalNumber :=
  let whole := cs.takeWhile Char.isDigit
  let (fraction, rest) := match cs.dropWhile Char.isDigit with
    | '.' :: r => (r.takeWhile Char.isDigit, r.dropWhile Char.isDigit)
    | r => ([], r)
  if whole.isEmpty && fraction.isEmpty then none
  else (readExponent? rest).map fun e =>
    .finite negative (digitsValue (whole ++ fraction)) (e - fraction.length)

/-- A not-a-number: the word for its kind, then the digits of its payload. -/
def nanOf? (negative : Bool) (cs : List Char) : Option DecimalNumber :=
  let word := String.ofList ((cs.takeWhile (!·.isDigit)).map Char.toLower)
  let payload := cs.dropWhile (!·.isDigit)
  if !payload.all Char.isDigit then none
  else if word == "nan" then some (.nan negative false (digitsValue payload))
  else if word == "snan" then some (.nan negative true (digitsValue payload))
  else none

/-- The number that a text writes, white space at its ends and underscores apart. -/
def ofText? (s : String) : Option DecimalNumber :=
  let (negative, rest) :=
    readSign (((stripBlanks s.toList).filter (· != '_')).map asciiDigit)
  let word := String.ofList (rest.map Char.toLower)
  if word == "inf" || word == "infinity" then some (.infinite negative)
  else (nanOf? negative rest).or (ofMagnitude? negative rest)

/-- Positional unless the exponent is above zero or the first digit is far behind the point. -/
def finiteText (coefficient : Nat) (exponent : Int) : List Char :=
  let digits := natText coefficient
  let point := digits.length + exponent
  if exponent ≤ 0 && -6 < point then
    if exponent == 0 then digits
    else if 0 < point then digits.take point.toNat ++ '.' :: digits.drop point.toNat
    else ['0', '.'] ++ List.replicate (-point).toNat '0' ++ digits
  else
    let power := point - 1
    digits.take 1 ++ (if digits.length == 1 then [] else '.' :: digits.drop 1) ++
      (if power == 0 then []
        else (if power < 0 then ['E', '-'] else ['E', '+']) ++ natText power.natAbs)

def text : DecimalNumber → String
  | .finite negative coefficient exponent =>
    (if negative then "-" else "") ++ String.ofList (finiteText coefficient exponent)
  | .infinite negative => if negative then "-Infinity" else "Infinity"
  | .nan negative signaling payload =>
    (if negative then "-" else "") ++ (if signaling then "sNaN" else "NaN") ++
      (if payload == 0 then "" else String.ofList (natText payload))

def powerOfTen (exponent : Int) : Rat :=
  if 0 ≤ exponent then mkRat (Nat.pow 10 exponent.toNat) 1
  else mkRat 1 (Nat.pow 10 (-exponent).toNat)

def finiteValue (negative : Bool) (coefficient : Nat) (exponent : Int) : Rat :=
  mkRat (signed negative coefficient) 1 * powerOfTen exponent

/-- The coefficient without zeros at its end, with the exponent that makes up for them. -/
def reduced (coefficient : Nat) (exponent : Int) : Nat × Int :=
  if coefficient ≠ 0 ∧ coefficient % 10 = 0 then reduced (coefficient / 10) (exponent + 1)
  else (coefficient, exponent)
termination_by coefficient
decreasing_by omega

def isSignaling : DecimalNumber → Bool
  | .nan _ signaling _ => signaling
  | _ => false

/-- The nearest double; a signaling not-a-number has none. -/
def toFloat? : DecimalNumber → Option Float
  | .finite negative coefficient exponent => some (ofDecimal negative coefficient exponent)
  | .infinite negative => some (if negative then -(1.0 / 0.0) else 1.0 / 0.0)
  | .nan _ true _ => none
  | .nan negative false _ => some (if negative then -(0.0 / 0.0) else 0.0 / 0.0)

end DecimalNumber

end DatasetCatalog
