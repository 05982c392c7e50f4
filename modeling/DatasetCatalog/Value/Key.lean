import DatasetCatalog.Value.Display

/-!
# Comparing values

Two values are the same when their keys are. Numbers are compared by their exact value, truth
values counting as one and zero; lists and objects by their literal, as texts, without which they
cannot be compared. A not-a-number is the same as the object that it is and nothing else.
-/

namespace DatasetCatalog

open Number Time

inductive Value.Key where
  | null
  | number (q : Rat)
  /-- A number far from all doubles, by its digits without zeros at the end. -/
  | scaled (negative : Bool) (coefficient : Nat) (exponent : Int)
  | infinite (negative : Bool)
  /-- A not-a-number that stands in no other place. -/
  | nan
  | object (number : Nat) (n : NotANumber)
  | text (s : String)
  | date (d : Date)
  | localTime (microseconds : Int)
  | instant (microseconds : Int)
  | duration (d : Duration)
  | bytes (octets : List UInt8)
deriving DecidableEq, Repr

namespace Value

def binaryKey (x : Binary64) : Key :=
  match x with
  | .nan => .nan
  | .infinite negative => .infinite negative
  | .finite negative significand exponent =>
    .number (scaleByTwo (signed negative significand) exponent)

/-- The greatest power of ten that is worth multiplying out. -/
def maxKeyExponent : Nat := 10000

/-- A signaling not-a-number cannot be compared, so its literal is. -/
def decimalKey (d : DecimalNumber) : Key :=
  match d with
  | .finite negative coefficient exponent =>
    let (digits, power) := DecimalNumber.reduced coefficient exponent
    if digits == 0 || power.natAbs ≤ maxKeyExponent then
      .number (if digits == 0 then 0 else DecimalNumber.finiteValue negative digits power)
    else .scaled negative digits power
  | .infinite negative => .infinite negative
  | .nan _ true _ => .text (Value.decimal d).literal
  | .nan _ false _ => .nan

def key : Value → Key
  | .null => .null
  | .bool b => .number (if b then 1 else 0)
  | .int n => decimalKey (.finite (n < 0) n.natAbs 0)
  | .float x => binaryKey (.ofFloat x)
  | .text s => .text s
  | .date d => .date d
  | .moment m => if m.offset.isSome then .instant m.instant else .localTime m.local
  | .duration d => .duration d
  | .decimal d => decimalKey d
  | .nan i n => .object i n
  | .bytes octets => .bytes octets
  | v@(.list _) => .text v.literal
  | v@(.object _) => .text v.literal

/-- Whether a value can be compared: a list or an object has to be written for that. -/
def hasKey : Value → Bool
  | v@(.list _) | v@(.object _) => v.hasText
  | _ => true

end Value

def Value.Key.same (a b : Value.Key) : Bool := a != .nan && a == b

def distinctKeys (keys : List Value.Key) : List Value.Key := keys.eraseDupsBy Value.Key.same

def distinctCount (values : List Value) : Nat := (distinctKeys (values.map Value.key)).length

end DatasetCatalog
