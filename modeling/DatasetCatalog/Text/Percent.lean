import DatasetCatalog.Text.Quoted
import DatasetCatalog.Text.Utf8

/-!
# Percent encoding

An octet of an address can be written as a percent sign and two hexadecimal digits. A percent sign
without them stands for itself.
-/

namespace DatasetCatalog.Text

/-- The octet that two digits write, and what follows them. -/
def escapedOctet? : List Char → Option (UInt8 × List Char)
  | a :: b :: rest => do
    let high ← hexValue? a
    let low ← hexValue? b
    return (UInt8.ofNat (16 * high + low), rest)
  | _ => none

theorem length_lt_of_escapedOctet? {cs rest : List Char} {octet : UInt8}
    (h : escapedOctet? cs = some (octet, rest)) : rest.length < cs.length := by
  match cs, h with
  | a :: b :: tail, h =>
    simp only [escapedOctet?, Option.bind_eq_bind, Option.bind_eq_some_iff, Option.pure_def,
      Option.some.injEq, Prod.mk.injEq] at h
    obtain ⟨_, _, _, _, _, rfl⟩ := h
    simp only [List.length_cons]
    omega

def percentOctets : List Char → List UInt8
  | [] => []
  | c :: rest =>
    if c = '%' then
      match h : escapedOctet? rest with
      | some (octet, after) =>
        have := length_lt_of_escapedOctet? h
        octet :: percentOctets after
      | none => 0x25 :: percentOctets rest
    else c.toString.toUTF8.toList ++ percentOctets rest
termination_by cs => cs.length
decreasing_by all_goals simp only [List.length_cons]; omega

def percentDecode (cs : List Char) : List Char := readUtf8 (percentOctets cs)

end DatasetCatalog.Text
