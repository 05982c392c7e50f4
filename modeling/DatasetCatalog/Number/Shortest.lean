import DatasetCatalog.Number.Binary64

/-!
# Shortest decimal text of a double

The fewest digits that read back as the same double and, of those, the nearest to its value.
The numbers that round to a double form an interval, ends included when the significand is even.
On the grid of decimals with a given number of digits only the two neighbours of the value can
be the nearest member, so the first grid with a neighbour inside the interval has the answer.
-/

namespace DatasetCatalog.Number

/-- The number `digits * 10 ^ exponent`. -/
structure Decimal where
  digits : Nat
  exponent : Int
deriving DecidableEq, Repr

/-- The value and the two ends of its rounding interval, as multiples of `1 / denominator`. -/
structure RoundingInterval where
  low : Nat
  value : Nat
  high : Nat
  denominator : Nat
  closed : Bool

/-- Quarters of the last place keep all three numbers whole; below a power of two the gap to the
next double is half as wide. -/
def RoundingInterval.ofBinary (significand : Nat) (exponent : Int) : RoundingInterval :=
  let scale := if 2 ≤ exponent then Nat.pow 2 (exponent - 2).toNat else 1
  let below := if significand == Nat.pow 2 52 && -1074 < exponent then 1 else 2
  { low := (4 * significand - below) * scale
    value := 4 * significand * scale
    high := (4 * significand + 2) * scale
    denominator := if 2 ≤ exponent then 1 else Nat.pow 2 (2 - exponent).toNat
    closed := significand % 2 == 0 }

/-- Measure in units of `10 ^ exponent`. -/
def RoundingInterval.inUnits (r : RoundingInterval) (exponent : Int) : RoundingInterval :=
  if 0 ≤ exponent then { r with denominator := r.denominator * Nat.pow 10 exponent.toNat }
  else
    let scale := Nat.pow 10 (-exponent).toNat
    { r with low := r.low * scale, value := r.value * scale, high := r.high * scale }

def RoundingInterval.contains (r : RoundingInterval) (n : Nat) : Bool :=
  if r.closed then r.low ≤ n * r.denominator && n * r.denominator ≤ r.high
  else r.low < n * r.denominator && n * r.denominator < r.high

/-- Of the whole numbers next to the value, the nearer that lies in the interval; ties are even. -/
def RoundingInterval.nearest? (r : RoundingInterval) : Option Nat :=
  let n := r.value / r.denominator
  let rest := r.value % r.denominator
  match r.contains n, r.contains (n + 1) with
  | true, true =>
    some (if 2 * rest < r.denominator || (2 * rest == r.denominator && n % 2 == 0) then n
      else n + 1)
  | true, false => some n
  | false, true => some (n + 1)
  | false, false => none

/-- The power of ten at the first digit of the positive number `n / d`. -/
def leadingPower (n d : Nat) : Int :=
  if d ≤ n then (Nat.toDigits 10 (n / d)).length - 1
  else Int.negOfNat (((List.range 400).find? fun j => d ≤ n * Nat.pow 10 j).getD 400)

/-- The shortest decimal that reads back as `significand * 2 ^ exponent`, which is positive. -/
def shortest (significand : Nat) (exponent : Int) : Decimal :=
  let r := RoundingInterval.ofBinary significand exponent
  let power := leadingPower r.value r.denominator
  let grid (count : Nat) : Option Decimal :=
    let unit := power - count + 1
    ((r.inUnits unit).nearest?).map fun digits =>
      if digits == 10 then ⟨1, unit + 1⟩ else ⟨digits, unit⟩
  ((List.range' 1 17).findSome? grid).getD ⟨0, 0⟩

end DatasetCatalog.Number
