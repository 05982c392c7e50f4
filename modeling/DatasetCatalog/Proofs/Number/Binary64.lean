import DatasetCatalog.Number.Binary64
import DatasetCatalog.Proofs.Number.Shortest

/-!
# Doubles by their parts

A finite double is told by its sign, its significand and its exponent.
-/

namespace DatasetCatalog.Number

variable {bits bits' : Nat} {negative : Bool} {significand : Nat} {exponent : Int}

theorem Binary64.isCanonical_of_ofBits (h : ofBits bits = .finite negative significand exponent) :
    IsCanonical significand exponent := by
  unfold ofBits at h
  simp only [Nat.pow_eq, Nat.reducePow, beq_iff_eq] at h
  split at h
  · split at h <;> cases h
  split at h
  · cases h
    refine ⟨?_, ?_, .inl rfl⟩ <;> omega
  · cases h
    refine ⟨?_, ?_, .inr ?_⟩ <;> omega

/-- The parts of a finite double give back its bits. -/
theorem Binary64.bits_of_ofBits (hlt : bits < 2 ^ 64)
    (h : ofBits bits = .finite negative significand exponent) :
    bits = (if negative then 2 ^ 63 else 0) +
      if significand < 2 ^ 52 then significand
      else (exponent + 1075).toNat * 2 ^ 52 + (significand - 2 ^ 52) := by
  have hsign : ∀ b : Nat,
      (if (b == 1) = true then 2 ^ 63 else 0) = if b = 1 then 2 ^ 63 else 0 := by
    intro b
    simp only [beq_iff_eq]
  unfold ofBits at h
  simp only [Nat.pow_eq, Nat.reducePow, beq_iff_eq] at h
  split at h
  · split at h <;> cases h
  split at h
  · cases h
    rw [hsign]
    split <;> split <;> omega
  · cases h
    rw [hsign]
    split <;> split <;> omega

theorem unpackExponent_ne_of_isFinite {x : Float} (hx : x.isFinite = true) :
    x.toBits.toNat / 2 ^ 52 % 2048 ≠ 2047 := by
  intro hall
  have hexponent : @Float.Model.UnpackedFloat.unpackExponent
      Float.Model.Format.binary64 x.toBits.toBitVec = -1#_ := by
    apply BitVec.eq_of_toNat_eq
    simpa [Float.Model.UnpackedFloat.unpackExponent, BitVec.extractLsb_toNat,
      Nat.shiftRight_eq_div_pow] using hall
  have hfinite : (Float.Model.UnpackedFloat.unpack Float.Model.Format.binary64
    x.toBits.toBitVec).isFinite = true := hx
  unfold Float.Model.UnpackedFloat.unpack at hfinite
  rw [if_pos hexponent] at hfinite
  split at hfinite <;> cases hfinite

theorem ofFloat_of_isFinite {x : Float} (hx : x.isFinite = true) :
    ∃ negative significand exponent,
      Binary64.ofFloat x = .finite negative significand exponent := by
  have hexponent := unpackExponent_ne_of_isFinite hx
  unfold Binary64.ofFloat Binary64.ofBits
  simp only [Nat.pow_eq, beq_iff_eq]
  rw [if_neg hexponent]
  split
  · exact ⟨_, _, _, rfl⟩
  · exact ⟨_, _, _, rfl⟩

theorem ofFloat_injective {x y : Float} (hx : x.isFinite = true)
    (h : Binary64.ofFloat x = Binary64.ofFloat y) : x = y := by
  obtain ⟨negative, significand, exponent, hparts⟩ := ofFloat_of_isFinite hx
  have hbits := Binary64.bits_of_ofBits x.toBits.toNat_lt hparts
  have hbits' := Binary64.bits_of_ofBits y.toBits.toNat_lt (h.symm.trans hparts)
  have hsame : x.toBits = y.toBits := UInt64.toNat_inj.mp (hbits.trans hbits'.symm)
  obtain ⟨⟨b, hb⟩⟩ := x
  obtain ⟨⟨b', hb'⟩⟩ := y
  obtain rfl : b = b' := hsame
  rfl

end DatasetCatalog.Number
