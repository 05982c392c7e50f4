import DatasetCatalog.Text.Surrogate

/-!
# Encodings of JSON

JSON that comes as octets is told apart by its zeros: the first characters are from ASCII, so in the
wide encodings most of their octets are zero. A byte order mark in front of UTF-8 does not count.
-/

namespace DatasetCatalog.Json

open Text

inductive Encoding where
  | utf8
  | utf16 (bigEndian : Bool)
  | utf32 (bigEndian : Bool)
deriving DecidableEq, Repr

def Encoding.of : List UInt8 → Encoding
  | 0 :: b :: _ :: _ :: _ => if b == 0 then .utf32 true else .utf16 true
  | _ :: 0 :: c :: d :: _ => if c == 0 && d == 0 then .utf32 false else .utf16 false
  | [0, _] => .utf16 true
  | [_, 0] => .utf16 false
  | _ => .utf8

def unitValue (bigEndian : Bool) (octets : List UInt8) : Nat :=
  (if bigEndian then octets else octets.reverse).foldl (fun n b => 256 * n + b.toNat) 0

def units16? (bigEndian : Bool) : List UInt8 → Option (List Nat)
  | [] => some []
  | a :: b :: rest => (units16? bigEndian rest).map (unitValue bigEndian [a, b] :: ·)
  | _ => none

def units32? (bigEndian : Bool) : List UInt8 → Option (List Nat)
  | [] => some []
  | a :: b :: c :: d :: rest =>
    (units32? bigEndian rest).map (unitValue bigEndian [a, b, c, d] :: ·)
  | _ => none

def numberedChar? (n : Nat) : Option Char := if n < 0x110000 then some (unitChar n) else none

/-- The text that a text of octets is meant to be, if those can be read. -/
def decode? (s : String) : Option String :=
  match s.toList with
  | '\uFEFF' :: rest => some (String.ofList rest)
  | _ =>
    let octets := s.toUTF8.toList
    match Encoding.of octets with
    | .utf8 => some s
    | .utf16 bigEndian =>
      (units16? bigEndian octets).map fun units => String.ofList ((joinUnits units).map unitChar)
    | .utf32 bigEndian =>
      (units32? bigEndian octets).bind fun units => (units.mapM numberedChar?).map String.ofList

end DatasetCatalog.Json
