import DatasetCatalog.Document.IntText
import DatasetCatalog.Document.Reader
import DatasetCatalog.Text.Utf8

/-!
# Reading texts, numbers and truth values

A number is taken from a number, a truth value or a text that writes one, so long as nothing is
lost; a truth value also from one, zero and the usual words. Octets stand for the text that they
encode.
-/

namespace DatasetCatalog.Document

open Number Text

def text : Reader String
  | .text s => .ok ⟨s, .text s⟩
  | .bytes octets =>
    match decodeUtf8? octets with
    | some s => .ok ⟨s, .text s⟩
    | none => .fault .unreadableText
  | _ => .fault .notText

def textAtLeast (low : Nat) : Reader String := refuse text (·.length < low) .textTooShort

def textAtMost (high : Nat) : Reader String := refuse text (high < ·.length) .textTooLong

def textBetween (low high : Nat) : Reader String :=
  refuse (textAtLeast low) (high < ·.length) .textTooLong

/-- The text that is to write a number or a truth value; octets that are no text have the fault of
one that writes none. -/
def writing? (unreadable : FaultKind) : Value → Option (Checked String)
  | .text s => some (.ok s)
  | .bytes octets => some ((decodeUtf8? octets).elim (.fault unreadable) .ok)
  | _ => none

/-- A whole number that a double is, within 63 bits and a sign. -/
def intOfFloat (x : Float) : Checked Int :=
  match (Binary64.ofFloat x).toRat? with
  | none => .fault .notFinite
  | some q =>
    if q.den != 1 then .fault .fractionalInt
    else if q.num.natAbs < Nat.pow 2 63 then .ok q.num
    else .fault .oversizedInt

def intOfDecimal : DecimalNumber → Checked Int
  | .finite negative coefficient exponent =>
    let q := DecimalNumber.finiteValue negative coefficient exponent
    if q.den != 1 then .fault .fractionalInt else .ok q.num
  | _ => .fault .notFinite

def int : Reader Int := fun v =>
  ((writing? .unreadableInt v).elim
    (match v with
    | .int n => Checked.ok n
    | .bool b => .ok (if b then 1 else 0)
    | .float x => intOfFloat x
    | .decimal d => intOfDecimal d
    | .nan .. => .fault .notFinite
    | _ => .fault .notInt)
    (·.bind intOfText)).map fun n => ⟨n, .int n⟩

def intAtLeast (low : Int) : Reader Int := refuse int (· < low) .belowMinimum

def intBetween (low high : Int) : Reader Int :=
  refuse (intAtLeast low) (high < ·) .aboveMaximum

def readFloat? (s : String) : Option Float :=
  let cs := s.toList
  (readPlain? (trimWhite cs)).or (readPlain? (dropSingleUnderscores cs))

def floatOf? : Value → Option Float
  | .float x => some x
  | .int n => ofInt? n
  | .bool b => some (if b then 1.0 else 0.0)
  | .decimal d => d.toFloat?
  | .nan .. => some (0.0 / 0.0)
  | _ => none

def float : Reader Float := fun v =>
  ((writing? .unreadableFloat v).elim
    ((floatOf? v).elim (.fault .notFloat) .ok)
    (·.bind fun s => (readFloat? s).elim (.fault .unreadableFloat) .ok)).map fun x => ⟨x, .float x⟩

def trueWords : List String := ["1", "on", "t", "true", "y", "yes"]

def falseWords : List String := ["0", "off", "f", "false", "n", "no"]

def boolOfText (s : String) : Checked Bool :=
  let word := String.ofList (s.toList.map Char.toLower)
  if trueWords.contains word then .ok true
  else if falseWords.contains word then .ok false
  else .fault .unreadableBool

def boolOfInt (n : Int) : Checked Bool :=
  if n == 0 then .ok false else if n == 1 then .ok true else .fault .unreadableBool

/-- Whether a number is a word of a machine: 63 bits and a sign. -/
def isMachineInt (n : Int) : Bool := -Nat.pow 2 63 ≤ n && n < Nat.pow 2 63

def boolOfFloat (x : Float) : Checked Bool :=
  match intOfFloat x with
  | .ok n => boolOfInt n
  | .faults _ => .fault .notBool

def bool : Reader Bool := fun v =>
  ((writing? .unreadableBool v).elim
    (match v with
    | .bool b => .ok b
    | .int n => if isMachineInt n then boolOfInt n else .fault .notBool
    | v => (floatOf? v).elim (.fault .notBool) boolOfFloat)
    (·.bind boolOfText)).map fun b => ⟨b, .bool b⟩

end DatasetCatalog.Document
