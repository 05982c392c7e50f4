import DatasetCatalog.Number.Shortest
import Mathlib.Algebra.Order.Field.Power
import Mathlib.Data.Rat.Cast.Order
import Mathlib.Tactic.FieldSimp
import Mathlib.Tactic.Linarith
import Mathlib.Tactic.Positivity
import Mathlib.Tactic.Ring

/-!
# Shortest decimals tell doubles apart

The decimal that is found for a double lies in its rounding interval: seventeen digits are always
enough. The intervals of two doubles have no number in common, so no two share a decimal.
-/

namespace DatasetCatalog.Number

/-- The number that a decimal is. -/
def Decimal.toRat (d : Decimal) : ℚ := d.digits * 10 ^ d.exponent

/-- Significand and exponent as doubles have them: 53 bits, fewer only with the least exponent. -/
structure IsCanonical (significand : Nat) (exponent : Int) : Prop where
  bits : significand < 2 ^ 53
  least : -1074 ≤ exponent
  normal : exponent = -1074 ∨ 2 ^ 52 ≤ significand

namespace RoundingInterval

/-- The number lies in the interval. -/
def Admits (r : RoundingInterval) (q : ℚ) : Prop :=
  if r.closed then r.low ≤ q * r.denominator ∧ q * r.denominator ≤ r.high
  else r.low < q * r.denominator ∧ q * r.denominator < r.high

variable {r : RoundingInterval}

theorem admits_of_contains {n : Nat} (h : r.contains n = true) : r.Admits n := by
  unfold contains at h
  unfold Admits
  split at h <;> rename_i hclosed <;>
    simp only [hclosed, Bool.and_eq_true, decide_eq_true_eq] at h ⊢
  · exact_mod_cast h
  · exact_mod_cast h

/-- In other units all numbers are scaled alike. -/
theorem inUnits_scaled (r : RoundingInterval) (unit : Int) : ∃ c : Nat, 0 < c ∧
    (r.inUnits unit).low = r.low * c ∧ (r.inUnits unit).value = r.value * c ∧
    (r.inUnits unit).high = r.high * c ∧ (r.inUnits unit).closed = r.closed ∧
    ((r.inUnits unit).denominator : ℚ) = 10 ^ unit * r.denominator * c := by
  unfold inUnits
  split
  · rename_i hunit
    obtain ⟨k, rfl⟩ := Int.eq_ofNat_of_zero_le hunit
    refine ⟨1, one_pos, (mul_one _).symm, (mul_one _).symm, (mul_one _).symm, rfl, ?_⟩
    simp only [Int.toNat_natCast, Nat.pow_eq, zpow_natCast]
    push_cast
    ring
  · rename_i hunit
    obtain ⟨k, rfl⟩ : ∃ k : Nat, unit = -k := ⟨(-unit).toNat, by omega⟩
    refine ⟨10 ^ k, Nat.pow_pos (by omega), ?_, ?_, ?_, rfl, ?_⟩
    · simp
    · simp
    · simp
    · simp only [zpow_neg, zpow_natCast, Nat.cast_pow, Nat.cast_ofNat]
      field_simp

theorem Admits.of_inUnits {unit : Int} {q : ℚ} (h : (r.inUnits unit).Admits q) :
    r.Admits (q * 10 ^ unit) := by
  obtain ⟨c, hc, hlow, _, hhigh, hclosed, hdenominator⟩ := r.inUnits_scaled unit
  have hpos : (0 : ℚ) < c := by exact_mod_cast hc
  have hq : q * (10 ^ unit * r.denominator * c) = q * 10 ^ unit * r.denominator * c := by ring
  unfold Admits at h ⊢
  simpa only [hclosed, hlow, hhigh, hdenominator, hq, Nat.cast_mul, mul_le_mul_iff_left₀ hpos,
    mul_lt_mul_iff_left₀ hpos] using h

/-- The number that is found lies in the interval. -/
theorem contains_of_nearest? {n : Nat} (h : r.nearest? = some n) : r.contains n = true := by
  unfold nearest? at h
  simp only at h
  split at h
  · rename_i hlow hhigh
    split at h <;> cases h
    · exact hlow
    · exact hhigh
  · rename_i hlow _
    cases h
    exact hlow
  · rename_i _ hhigh
    cases h
    exact hhigh
  · cases h

/-- An interval about its value that is wider than one has a whole number next to the value. -/
theorem exists_nearest (hpos : 0 < r.denominator) (hlow : r.low < r.value)
    (hhigh : r.value < r.high) (hwide : r.low + r.denominator < r.high) :
    ∃ n, r.nearest? = some n := by
  have hdivide := Nat.div_add_mod r.value r.denominator
  rw [Nat.mul_comm] at hdivide
  have hrest := Nat.mod_lt r.value hpos
  have hnext : (r.value / r.denominator + 1) * r.denominator =
      r.value / r.denominator * r.denominator + r.denominator := by ring
  have hone : r.contains (r.value / r.denominator) = true ∨
      r.contains (r.value / r.denominator + 1) = true := by
    unfold contains
    rw [hnext]
    generalize r.value / r.denominator * r.denominator = below at hdivide ⊢
    by_cases h : r.low < below
    · left
      split <;> simp only [Bool.and_eq_true, decide_eq_true_eq] <;> omega
    · right
      split <;> simp only [Bool.and_eq_true, decide_eq_true_eq] <;> omega
  unfold nearest?
  simp only
  split
  · exact ⟨_, rfl⟩
  · exact ⟨_, rfl⟩
  · exact ⟨_, rfl⟩
  · rename_i hfirst hsecond
    rw [hfirst, hsecond] at hone
    simp at hone

theorem exists_nearest_inUnits {unit : Int} (hpos : 0 < r.denominator) (hlow : r.low < r.value)
    (hhigh : r.value < r.high) (hwide : r.low + (10 : ℚ) ^ unit * r.denominator < r.high) :
    ∃ n, (r.inUnits unit).nearest? = some n := by
  obtain ⟨c, hc, hlow', hvalue', hhigh', _, hunit⟩ := r.inUnits_scaled unit
  have hpos' : (0 : ℚ) < r.denominator := by exact_mod_cast hpos
  have hc' : (0 : ℚ) < c := by exact_mod_cast hc
  apply exists_nearest
  · have : (0 : ℚ) < (r.inUnits unit).denominator := by
      rw [hunit]
      positivity
    exact_mod_cast this
  · rw [hlow', hvalue']
    exact Nat.mul_lt_mul_of_pos_right hlow hc
  · rw [hvalue', hhigh']
    exact Nat.mul_lt_mul_of_pos_right hhigh hc
  · have hscaled := mul_lt_mul_of_pos_right hwide hc'
    rw [add_mul, ← hunit] at hscaled
    rw [hlow', hhigh']
    exact_mod_cast hscaled

end RoundingInterval

theorem pow_le_of_length_toDigits {n : Nat} (hn : 0 < n) :
    10 ^ ((Nat.toDigits 10 n).length - 1) ≤ n := by
  rcases Nat.eq_zero_or_pos ((Nat.toDigits 10 n).length - 1) with hzero | hpos
  · rw [hzero]
    exact hn
  · have hlt : ¬ (Nat.toDigits 10 n).length ≤ (Nat.toDigits 10 n).length - 1 := by omega
    rw [Nat.length_toDigits_le_iff (by omega) hpos] at hlt
    exact Nat.le_of_not_lt hlt

/-- The power at the first digit is not above the number, if that has a digit in 400 places. -/
theorem leadingPower_le {n d j : Nat} (hd : 0 < d) (hj : j < 400) (h : d ≤ n * 10 ^ j) :
    (10 : ℚ) ^ leadingPower n d * d ≤ n := by
  unfold leadingPower
  split
  · rename_i hle
    have hdiv := Nat.div_pos hle hd
    have hlength : 1 ≤ (Nat.toDigits 10 (n / d)).length := Nat.length_toDigits_pos
    have hbound : 10 ^ ((Nat.toDigits 10 (n / d)).length - 1) * d ≤ n :=
      (Nat.mul_le_mul_right d (pow_le_of_length_toDigits hdiv)).trans (Nat.div_mul_le_self n d)
    rw [← Nat.cast_one, ← Nat.cast_sub hlength, zpow_natCast]
    exact_mod_cast hbound
  · cases hfind : (List.range 400).find? fun i => decide (d ≤ n * Nat.pow 10 i) with
    | none =>
      have hnone := List.find?_eq_none.mp hfind j (List.mem_range.mpr hj)
      rw [decide_eq_true_eq] at hnone
      exact absurd h hnone
    | some i =>
      have hi := List.find?_some hfind
      rw [decide_eq_true_eq, Nat.pow_eq] at hi
      have hi' : (d : ℚ) ≤ n * 10 ^ i := by exact_mod_cast hi
      rw [Option.getD_some, Int.negOfNat_eq, zpow_neg, Int.ofNat_eq_natCast, zpow_natCast]
      rwa [inv_mul_le_iff₀ (by positivity), mul_comm]

section Doubles

/-- The scale and the denominator that make the quarters of the last place whole. -/
def quarterScale (exponent : Int) : Nat :=
  if 2 ≤ exponent then Nat.pow 2 (exponent - 2).toNat else 1

def quarterDenominator (exponent : Int) : Nat :=
  if 2 ≤ exponent then 1 else Nat.pow 2 (2 - exponent).toNat

/-- How many quarters the interval reaches below the double. -/
def quartersBelow (significand : Nat) (exponent : Int) : Nat :=
  if significand == Nat.pow 2 52 && -1074 < exponent then 1 else 2

variable {significand s s' : Nat} {exponent e e' : Int}

theorem RoundingInterval.ofBinary_eq (significand : Nat) (exponent : Int) :
    RoundingInterval.ofBinary significand exponent =
      { low := (4 * significand - quartersBelow significand exponent) * quarterScale exponent
        value := 4 * significand * quarterScale exponent
        high := (4 * significand + 2) * quarterScale exponent
        denominator := quarterDenominator exponent
        closed := significand % 2 == 0 } := rfl

theorem quarterScale_pos (exponent : Int) : 0 < quarterScale exponent := by
  unfold quarterScale
  split
  · exact Nat.pow_pos (by omega)
  · exact one_pos

theorem quarterDenominator_pos (exponent : Int) : 0 < quarterDenominator exponent := by
  unfold quarterDenominator
  split
  · exact one_pos
  · exact Nat.pow_pos (by omega)

theorem quarterScale_eq (exponent : Int) :
    (quarterScale exponent : ℚ) = 2 ^ (exponent - 2) * quarterDenominator exponent := by
  unfold quarterScale quarterDenominator
  split
  · rename_i h
    obtain ⟨k, hk⟩ := Int.eq_ofNat_of_zero_le (Int.sub_nonneg.mpr h)
    rw [hk]
    simp
  · rename_i h
    obtain ⟨k, hk⟩ : ∃ k : Nat, 2 - exponent = k := ⟨(2 - exponent).toNat, by omega⟩
    rw [show exponent - 2 = -k by omega, hk]
    simp

/-- A number of 13 bits has no more than four digits. -/
theorem two_pow_le (k : Nat) : 2 ^ k ≤ 10 ^ (4 * ((k + 12) / 13)) :=
  calc 2 ^ k ≤ 2 ^ (13 * ((k + 12) / 13)) := Nat.pow_le_pow_right two_pos (by omega)
    _ = (2 ^ 13) ^ ((k + 12) / 13) := pow_mul _ _ _
    _ ≤ (10 ^ 4) ^ ((k + 12) / 13) := Nat.pow_le_pow_left (by decide) _
    _ = 10 ^ (4 * ((k + 12) / 13)) := (pow_mul _ _ _).symm

/-- The least double has a digit in the first 400 places. -/
theorem exists_quarterDenominator_le (hs : 0 < s) (he : -1074 ≤ e) :
    ∃ j < 400, quarterDenominator e ≤ 4 * s * quarterScale e * 10 ^ j := by
  refine ⟨4 * (((2 - e).toNat + 12) / 13), by omega, ?_⟩
  have hvalue : 0 < 4 * s * quarterScale e :=
    Nat.mul_pos (Nat.mul_pos (by omega) hs) (quarterScale_pos e)
  refine le_trans ?_ (Nat.le_mul_of_pos_left _ hvalue)
  unfold quarterDenominator
  split
  · exact Nat.one_le_pow _ _ (by omega)
  · exact two_pow_le _

theorem quartersBelow_cases (significand : Nat) (exponent : Int) :
    quartersBelow significand exponent = 1 ∧ significand = 2 ^ 52 ∧ -1074 < exponent ∨
      quartersBelow significand exponent = 2 ∧ (significand = 2 ^ 52 → exponent ≤ -1074) := by
  unfold quartersBelow
  split
  · rename_i h
    simp only [Bool.and_eq_true, beq_iff_eq, decide_eq_true_eq] at h
    exact .inl ⟨rfl, h⟩
  · rename_i h
    simp only [Bool.and_eq_true, beq_iff_eq, decide_eq_true_eq, not_and, not_lt] at h
    exact .inr ⟨rfl, h⟩

/-- The ends of the interval of a double; they do not belong to that of an odd one. -/
theorem ends_of_admits {q : ℚ} (h : (RoundingInterval.ofBinary significand exponent).Admits q) :
    (4 * significand - quartersBelow significand exponent : ℕ) * (2 : ℚ) ^ (exponent - 2) ≤ q ∧
      q ≤ (4 * significand + 2 : ℕ) * (2 : ℚ) ^ (exponent - 2) ∧
      (significand % 2 = 1 →
        (4 * significand - quartersBelow significand exponent : ℕ) * (2 : ℚ) ^ (exponent - 2) < q ∧
        q < (4 * significand + 2 : ℕ) * (2 : ℚ) ^ (exponent - 2)) := by
  have hpos : (0 : ℚ) < quarterDenominator exponent := by
    exact_mod_cast quarterDenominator_pos exponent
  rw [RoundingInterval.ofBinary_eq, RoundingInterval.Admits] at h
  simp only [Nat.cast_mul, quarterScale_eq, ← mul_assoc, mul_le_mul_iff_left₀ hpos,
    mul_lt_mul_iff_left₀ hpos] at h
  split at h
  · rename_i hclosed
    simp only [beq_iff_eq] at hclosed
    exact ⟨h.1, h.2, fun hodd => by omega⟩
  · exact ⟨h.1.le, h.2.le, fun _ => h⟩

theorem pos_of_admits (hs : 0 < s) {q : ℚ} (h : (RoundingInterval.ofBinary s e).Admits q) :
    0 < q := by
  obtain ⟨hlow, _⟩ := ends_of_admits h
  refine lt_of_lt_of_le (mul_pos ?_ (by positivity)) hlow
  have hbelow : 0 < 4 * s - quartersBelow s e := by
    rcases quartersBelow_cases s e with ⟨h, _⟩ | ⟨h, _⟩ <;> omega
  exact_mod_cast hbelow

/-- Seventeen digits are enough: the interval of a double is wider than a unit of the last one. -/
theorem exists_nearest_ofBinary (hs : 0 < s) (h : IsCanonical s e) :
    ∃ n, ((RoundingInterval.ofBinary s e).inUnits
      (leadingPower (RoundingInterval.ofBinary s e).value
        (RoundingInterval.ofBinary s e).denominator - 16)).nearest? = some n := by
  have hscale := quarterScale_pos e
  have hdenominator := quarterDenominator_pos e
  obtain ⟨j, hj, hplaces⟩ := exists_quarterDenominator_le hs h.least
  have hpower := leadingPower_le hdenominator hj hplaces
  rw [RoundingInterval.ofBinary_eq]
  simp only
  generalize leadingPower (4 * s * quarterScale e) (quarterDenominator e) = power at hpower ⊢
  have hbelow : quartersBelow s e ≤ 4 * s := by
    rcases quartersBelow_cases s e with ⟨h, _⟩ | ⟨h, _⟩ <;> omega
  have hnarrow : 4 * s < (2 + quartersBelow s e) * 10 ^ 16 := by
    have hbits := h.bits
    rcases quartersBelow_cases s e with ⟨h, hs, _⟩ | ⟨h, _⟩ <;> omega
  refine RoundingInterval.exists_nearest_inUnits hdenominator ?_ ?_ ?_
  · apply Nat.mul_lt_mul_of_pos_right _ hscale
    rcases quartersBelow_cases s e with ⟨h, _⟩ | ⟨h, _⟩ <;> omega
  · exact Nat.mul_lt_mul_of_pos_right (by omega) hscale
  · have hnarrow' : (4 * s : ℚ) < (2 + quartersBelow s e) * 10 ^ 16 := by exact_mod_cast hnarrow
    have hscale' : (0 : ℚ) < quarterScale e := by exact_mod_cast hscale
    have hunit : (10 : ℚ) ^ (power - 16) * quarterDenominator e * 10 ^ 16 ≤
        4 * s * quarterScale e := by
      rw [zpow_sub₀ (by norm_num)]
      field_simp
      exact_mod_cast hpower
    simp only [Nat.cast_mul, Nat.cast_sub hbelow]
    push_cast
    linarith [mul_lt_mul_of_pos_right hnarrow' hscale']

/-- The decimal that is found for a double lies in its rounding interval. -/
theorem shortest_admits (hs : 0 < s) (h : IsCanonical s e) :
    (RoundingInterval.ofBinary s e).Admits (shortest s e).toRat := by
  obtain ⟨n, hn⟩ := exists_nearest_ofBinary hs h
  unfold shortest
  simp only
  generalize hr : RoundingInterval.ofBinary s e = r at hn ⊢
  generalize leadingPower r.value r.denominator = power at hn ⊢
  cases hfound : (List.range' 1 17).findSome? fun count : Nat =>
      ((r.inUnits (power - count + 1)).nearest?).map fun digits =>
        if digits == 10 then (⟨1, power - count + 1 + 1⟩ : Decimal)
        else ⟨digits, power - count + 1⟩ with
  | none =>
    have hnone := List.findSome?_eq_none_iff.mp hfound 17 (by simp)
    rw [show power - ((17 : Nat) : Int) + 1 = power - 16 by omega, hn] at hnone
    cases hnone
  | some d =>
    obtain ⟨count, _, hcount⟩ := List.exists_of_findSome?_eq_some hfound
    obtain ⟨digits, hdigits, rfl⟩ := Option.map_eq_some_iff.mp hcount
    have hadmits := (RoundingInterval.admits_of_contains
      (RoundingInterval.contains_of_nearest? hdigits)).of_inUnits
    rw [Option.getD_some]
    split
    · rename_i hten
      rw [beq_iff_eq.mp hten] at hadmits
      convert hadmits using 1
      rw [Decimal.toRat, zpow_add_one₀ (by norm_num)]
      push_cast
      ring
    · exact hadmits

/-- The interval of the greater of two doubles begins where that of the other ends, at the earliest,
and two neighbours are not both even. -/
theorem not_admits_of_lt (h : IsCanonical s e) (h' : IsCanonical s' e')
    (hlt : e < e' ∨ e = e' ∧ s < s') {q : ℚ} (hq : (RoundingInterval.ofBinary s e).Admits q) :
    ¬ (RoundingInterval.ofBinary s' e').Admits q := by
  intro hq'
  obtain ⟨_, hhigh, hodd⟩ := ends_of_admits hq
  obtain ⟨hlow, _, hodd'⟩ := ends_of_admits hq'
  have hbelow := quartersBelow_cases s' e'
  have hunit : (0 : ℚ) < 2 ^ (e - 2) := by positivity
  generalize hL : 4 * s' - quartersBelow s' e' = low at hlow hodd'
  generalize hH : 4 * s + 2 = high at hhigh hodd
  rcases hlt with hlt | ⟨rfl, hlt⟩
  · -- the greater one is normal, and its units are twice as wide at least
    have hnormal : 2 ^ 52 ≤ s' := h'.normal.resolve_left (by have := h.least; omega)
    have hbits := h.bits
    have hleast := h.least
    have hwide : 2 * (2 : ℚ) ^ (e - 2) ≤ 2 ^ (e' - 2) := by
      rw [← zpow_one_add₀ (by norm_num)]
      exact zpow_le_zpow_right₀ (by norm_num) (by omega)
    have hscaled : (low : ℚ) * (2 * 2 ^ (e - 2)) ≤ low * 2 ^ (e' - 2) :=
      mul_le_mul_of_nonneg_left hwide (Nat.cast_nonneg _)
    rcases Nat.mod_two_eq_zero_or_one s with heven | hodd₁
    · have hends : high < 2 * low := by omega
      have hends' : (high : ℚ) < 2 * low := by exact_mod_cast hends
      linarith [mul_lt_mul_of_pos_right hends' hunit]
    · have hends : high ≤ 2 * low := by omega
      have hends' : (high : ℚ) ≤ 2 * low := by exact_mod_cast hends
      linarith [mul_le_mul_of_nonneg_right hends' hunit.le, (hodd hodd₁).2]
  · have hends : high ≤ low := by omega
    have hends' : (high : ℚ) ≤ low := by exact_mod_cast hends
    have hscaled := mul_le_mul_of_nonneg_right hends' hunit.le
    rcases Nat.mod_two_eq_zero_or_one s with heven | hodd₁
    · rcases Nat.mod_two_eq_zero_or_one s' with heven' | hodd₁'
      · have hstrict : high < low := by omega
        have hstrict' : (high : ℚ) < low := by exact_mod_cast hstrict
        linarith [mul_lt_mul_of_pos_right hstrict' hunit]
      · linarith [(hodd' hodd₁').1]
    · linarith [(hodd hodd₁).2]

/-- No number rounds to two doubles. -/
theorem eq_of_admits (h : IsCanonical s e) (h' : IsCanonical s' e') {q : ℚ}
    (hq : (RoundingInterval.ofBinary s e).Admits q)
    (hq' : (RoundingInterval.ofBinary s' e').Admits q) : s = s' ∧ e = e' := by
  rcases lt_trichotomy e e' with hlt | rfl | hlt
  · exact absurd hq' (not_admits_of_lt h h' (.inl hlt) hq)
  · rcases lt_trichotomy s s' with hlt | rfl | hlt
    · exact absurd hq' (not_admits_of_lt h h' (.inr ⟨rfl, hlt⟩) hq)
    · exact ⟨rfl, rfl⟩
    · exact absurd hq (not_admits_of_lt h' h (.inr ⟨rfl, hlt⟩) hq')
  · exact absurd hq (not_admits_of_lt h' h (.inl hlt) hq')

end Doubles

end DatasetCatalog.Number
