import DatasetCatalog.Number.Shortest

/-!
# Text of a double

The shortest digits, written positionally when the first digit stands between the fourth decimal
place and the sixteenth place before the point, and with an exponent of at least two digits
otherwise. A whole number keeps one decimal place, so a double never looks like an integer.
-/

namespace DatasetCatalog.Number

def natText (n : Nat) : List Char := Nat.toDigits 10 n

def exponentText (e : Int) : List Char :=
  let digits := natText e.natAbs
  (if e < 0 then ['e', '-'] else ['e', '+']) ++
    (if digits.length < 2 then '0' :: digits else digits)

/-- Write `0.digits * 10 ^ point`. -/
def layoutDigits (digits : List Char) (point : Int) : List Char :=
  let count : Int := digits.length
  if -4 < point && point ≤ 16 then
    if point ≤ 0 then ['0', '.'] ++ List.replicate (-point).toNat '0' ++ digits
    else if count ≤ point then
      digits ++ List.replicate (point - count).toNat '0' ++ ['.', '0']
    else digits.take point.toNat ++ '.' :: digits.drop point.toNat
  else
    digits.take 1 ++ (if digits.length == 1 then [] else '.' :: digits.drop 1) ++
      exponentText (point - 1)

def positiveText (significand : Nat) (exponent : Int) : List Char :=
  if significand == 0 then ['0', '.', '0']
  else
    let d := shortest significand exponent
    let digits := natText d.digits
    layoutDigits digits (digits.length + d.exponent)

def binaryText : Binary64 → List Char
  | .nan => ['n', 'a', 'n']
  | .infinite negative => (if negative then ['-'] else []) ++ ['i', 'n', 'f']
  | .finite negative significand exponent =>
    (if negative then ['-'] else []) ++ positiveText significand exponent

def doubleText (x : Float) : String := String.ofList (binaryText (.ofFloat x))

def intText (n : Int) : String :=
  String.ofList ((if n < 0 then ['-'] else []) ++ natText n.natAbs)

/-- The most digits that a whole number is written with, or read from. -/
def maxDigits : Nat := 4300

/-- Whether a whole number has no more digits than are written. -/
def isWritable (n : Int) : Bool := (natText n.natAbs).length ≤ maxDigits

end DatasetCatalog.Number
