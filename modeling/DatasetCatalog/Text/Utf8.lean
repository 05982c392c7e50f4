/-!
# Octets as text

A character takes one to four octets, of which all but the first are continuations; the first tells
their number and bounds the second. Octets that are no text can be refused, or read with a mark in
place of every longest beginning of a character that is broken off.
-/

namespace DatasetCatalog.Text

def decodeUtf8? (octets : List UInt8) : Option String := String.fromUTF8? ⟨octets.toArray⟩

def asciiText? (octets : List UInt8) : Option String :=
  if octets.all (· < 128) then some (String.ofList (octets.map fun b => Char.ofNat b.toNat))
  else none

def replacementChar : Char := '\uFFFD'

/-- How a character begins: the bits that its first octet gives, how many continuations follow, and
the bounds of the first of them. -/
structure OctetLead where
  bits : Nat
  continuations : Nat
  low : Nat := 0x80
  high : Nat := 0xBF

def OctetLead.of? (n : Nat) : Option OctetLead :=
  if n < 0x80 then some { bits := n, continuations := 0 }
  else if 0xC2 ≤ n && n < 0xE0 then some { bits := n - 0xC0, continuations := 1 }
  else if n == 0xE0 then some { bits := 0, continuations := 2, low := 0xA0 }
  else if n == 0xED then some { bits := n - 0xE0, continuations := 2, high := 0x9F }
  else if 0xE1 ≤ n && n < 0xF0 then some { bits := n - 0xE0, continuations := 2 }
  else if n == 0xF0 then some { bits := 0, continuations := 3, low := 0x90 }
  else if 0xF1 ≤ n && n < 0xF4 then some { bits := n - 0xF0, continuations := 3 }
  else if n == 0xF4 then some { bits := n - 0xF0, continuations := 3, high := 0x8F }
  else none

/-- Read the continuations of a character, and what follows them. -/
def readContinuations (bits low high : Nat) : Nat → List UInt8 → Char × List UInt8
  | 0, rest => (Char.ofNat bits, rest)
  | _ + 1, [] => (replacementChar, [])
  | count + 1, octet :: rest =>
    if low ≤ octet.toNat && octet.toNat ≤ high then
      readContinuations (64 * bits + octet.toNat % 64) 0x80 0xBF count rest
    else (replacementChar, octet :: rest)

theorem length_readContinuations_le (bits low high count : Nat) (octets : List UInt8) :
    (readContinuations bits low high count octets).2.length ≤ octets.length := by
  induction count generalizing bits low high octets with
  | zero => simp [readContinuations]
  | succ count ih =>
    cases octets with
    | nil => simp [readContinuations]
    | cons octet rest =>
      rw [readContinuations]
      split
      · exact Nat.le_succ_of_le (ih ..)
      · exact Nat.le_refl _

/-- Read octets as text, with marks for what is none. -/
def readUtf8 : List UInt8 → List Char
  | [] => []
  | octet :: rest =>
    match OctetLead.of? octet.toNat with
    | none => replacementChar :: readUtf8 rest
    | some lead =>
      let read := readContinuations lead.bits lead.low lead.high lead.continuations rest
      have := length_readContinuations_le lead.bits lead.low lead.high lead.continuations rest
      read.1 :: readUtf8 read.2
termination_by octets => octets.length
decreasing_by all_goals simp only [List.length_cons]; omega

end DatasetCatalog.Text
