/-!
# Doubles as exact numbers

A finite double is a signed whole number times a power of two. Whole numbers are compared with
doubles, and converted to them, by way of that exact value.
-/

namespace DatasetCatalog.Number

inductive Binary64 where
  | nan
  | infinite (negative : Bool)
  /-- The number `± significand * 2 ^ exponent`. -/
  | finite (negative : Bool) (significand : Nat) (exponent : Int)
deriving DecidableEq, Repr

def Binary64.ofBits (bits : Nat) : Binary64 :=
  let negative := bits / Nat.pow 2 63 % 2 == 1
  let biased : Nat := bits / Nat.pow 2 52 % 2048
  let fraction : Nat := bits % Nat.pow 2 52
  if biased == 2047 then
    if fraction == 0 then .infinite negative else .nan
  else if biased == 0 then .finite negative fraction (-1074)
  else .finite negative (Nat.pow 2 52 + fraction) ((biased : Int) - 1075)

def Binary64.ofFloat (x : Float) : Binary64 := .ofBits x.toBits.toNat

def scaleByTwo (n : Int) (exponent : Int) : Rat :=
  if 0 ≤ exponent then mkRat (n * Nat.pow 2 exponent.toNat) 1
  else mkRat n (Nat.pow 2 (-exponent).toNat)

def signed (negative : Bool) (n : Nat) : Int := if negative then -n else n

def Binary64.toRat? : Binary64 → Option Rat
  | .finite negative significand exponent =>
    some (scaleByTwo (signed negative significand) exponent)
  | _ => none

/-- The double nearest to `± mantissa * 10 ^ exponent`; the two bounds on the exponent decide
everything outside the range of doubles without computing the power. -/
def ofDecimal (negative : Bool) (mantissa : Nat) (exponent : Int) : Float :=
  let magnitude : Float :=
    if mantissa == 0 then 0.0
    else
      let digits : Int := (Nat.toDigits 10 mantissa).length
      if 310 < digits + exponent then 1.0 / 0.0
      else if digits + exponent < -400 then 0.0
      else Float.ofScientific mantissa (exponent < 0) exponent.natAbs
  if negative then -magnitude else magnitude

/-- The least whole number whose nearest double is beyond the greatest finite one. -/
def overflowBound : Nat := Nat.pow 2 1024 - Nat.pow 2 970

/-- The double nearest to a whole number, if one is in range. -/
def ofInt? (n : Int) : Option Float :=
  if n.natAbs < overflowBound then some (ofDecimal (n < 0) n.natAbs 0) else none

end DatasetCatalog.Number
