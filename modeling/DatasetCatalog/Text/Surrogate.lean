/-!
# Surrogates

UTF-16 writes the characters beyond the first plane as two units. A unit without its other half is no
character, so no text holds one: the replacement character stands in its place.
-/

namespace DatasetCatalog.Text

def isHighSurrogate (n : Nat) : Bool := 0xD800 ≤ n && n < 0xDC00

def isLowSurrogate (n : Nat) : Bool := 0xDC00 ≤ n && n < 0xE000

def isSurrogate (n : Nat) : Bool := isHighSurrogate n || isLowSurrogate n

/-- The character that two surrogates write. -/
def pairedChar (high low : Nat) : Char :=
  Char.ofNat (0x10000 + (high - 0xD800) * 0x400 + (low - 0xDC00))

/-- The character of a UTF-16 unit that is not part of a pair. -/
def unitChar (n : Nat) : Char := if isSurrogate n then '\uFFFD' else Char.ofNat n

/-- The numbers of characters from units: a pair has that of its character, halves keep their own. -/
def joinUnits : List Nat → List Nat
  | [] => []
  | [n] => [n]
  | n :: m :: rest =>
    if isHighSurrogate n && isLowSurrogate m then (pairedChar n m).toNat :: joinUnits rest
    else n :: joinUnits (m :: rest)

end DatasetCatalog.Text
