import DatasetCatalog.Proofs.Number.Binary64
import DatasetCatalog.Value.Key

/-!
# Equal values

To be compared, a number of any kind stands for one rational number, a list or an object for its
literal, and what is not a number for the object that it is. Values are equal when they stand for the
same, and keys tell exactly that: a number that is kept apart for being far from all doubles has one
key, and no other number has it.
-/

namespace DatasetCatalog

open Number Time

theorem Number.scaleByTwo_eq (n exponent : Int) :
    scaleByTwo n exponent = n * (2 : ℚ) ^ exponent := by
  unfold scaleByTwo
  split
  · rename_i h
    obtain ⟨k, rfl⟩ := Int.eq_ofNat_of_zero_le h
    simp [Rat.mkRat_eq_div]
  · obtain ⟨k, rfl⟩ : ∃ k : Nat, exponent = -k := ⟨(-exponent).toNat, by omega⟩
    simp [Rat.mkRat_eq_div, div_eq_mul_inv]

namespace DecimalNumber
variable {negative : Bool} {coefficient digits digits' : Nat} {exponent power power' : Int}

theorem finiteValue_eq (negative : Bool) (coefficient : Nat) (exponent : Int) :
    finiteValue negative coefficient exponent =
      signed negative coefficient * (10 : ℚ) ^ exponent := by
  unfold finiteValue powerOfTen
  split
  · rename_i h
    obtain ⟨k, rfl⟩ := Int.eq_ofNat_of_zero_le h
    simp [Rat.mkRat_eq_div]
  · obtain ⟨k, rfl⟩ : ∃ k : Nat, exponent = -k := ⟨(-exponent).toNat, by omega⟩
    simp [Rat.mkRat_eq_div]

theorem reduced_value (coefficient : Nat) (exponent : Int) :
    ((reduced coefficient exponent).1 : ℚ) * 10 ^ (reduced coefficient exponent).2 =
      coefficient * 10 ^ exponent := by
  fun_induction reduced coefficient exponent with
  | case1 coefficient exponent h ih =>
    have htens : ((coefficient / 10 : Nat) : ℚ) * 10 = coefficient := by
      exact_mod_cast Nat.div_mul_cancel (Nat.dvd_of_mod_eq_zero h.2)
    rw [ih, zpow_add_one₀ (by norm_num), mul_comm ((10 : ℚ) ^ exponent), ← mul_assoc, htens]
  | case2 => rfl

theorem reduced_mod (h : coefficient ≠ 0) (exponent : Int) :
    (reduced coefficient exponent).1 % 10 ≠ 0 := by
  fun_induction reduced coefficient exponent with
  | case1 coefficient exponent hzeros ih => exact ih (by omega)
  | case2 coefficient exponent hzeros => exact fun hmod => hzeros ⟨h, hmod⟩

theorem reduced_zero (exponent : Int) : reduced 0 exponent = (0, exponent) := by
  unfold reduced
  exact if_neg fun h => h.1 rfl

/-- Digits without a zero at their end are told by the number, and so is their power of ten. -/
theorem eq_of_reduced (h : digits % 10 ≠ 0) (h' : digits' % 10 ≠ 0)
    (hvalue : (digits : ℚ) * 10 ^ power = digits' * 10 ^ power') :
    digits = digits' ∧ power = power' := by
  have hten : (10 : ℚ) ≠ 0 := by norm_num
  -- with a greater power on one side, the digits of the other would end in a zero
  have hle : ∀ {d d' : Nat} {p p' : Int}, d % 10 ≠ 0 → (d : ℚ) * 10 ^ p = d' * 10 ^ p' →
      ¬p < p' := by
    intro d d' p p' hd hvalue hlt
    obtain ⟨k, rfl⟩ : ∃ k : Nat, p' = p + (k + 1 : Nat) := ⟨(p' - p - 1).toNat, by omega⟩
    rw [zpow_add₀ hten, mul_left_comm, mul_comm, zpow_natCast] at hvalue
    have hdigits := mul_left_cancel₀ (zpow_ne_zero p hten) hvalue
    have hdigits : d = d' * 10 ^ (k + 1) := by exact_mod_cast hdigits
    rw [hdigits, pow_succ, ← mul_assoc, Nat.mul_mod_left] at hd
    exact hd rfl
  obtain rfl : power = power' :=
    le_antisymm (not_lt.mp (hle h' hvalue.symm)) (not_lt.mp (hle h hvalue))
  refine ⟨?_, rfl⟩
  exact_mod_cast mul_right_cancel₀ (zpow_ne_zero power hten) hvalue

end DecimalNumber

namespace Number

section Near
variable {negative : Bool} {significand digits : Nat} {exponent power : Int}

/-- A number whose power of ten, no zeros being at the end of its digits, is worth writing out. -/
def IsNear (q : ℚ) : Prop :=
  ∀ (digits : Nat) (power : Int), digits % 10 ≠ 0 → |q| = digits * 10 ^ power →
    power.natAbs ≤ Value.maxKeyExponent

theorem abs_signed (negative : Bool) (n : Nat) : |(signed negative n : ℚ)| = n := by
  cases negative <;> simp [signed]

theorem isNear_zero : IsNear 0 := by
  intro digits power hdigits h
  rw [abs_zero, eq_comm, mul_eq_zero_iff_right (zpow_ne_zero _ (by norm_num))] at h
  rw [Nat.cast_eq_zero.mp h] at hdigits
  exact absurd rfl hdigits

theorem isNear_of_digits (hdigits : digits % 10 ≠ 0)
    (hpower : power.natAbs ≤ Value.maxKeyExponent) :
    IsNear (signed negative digits * 10 ^ power) := by
  intro digits' power' hdigits' h
  rw [abs_mul, abs_signed, abs_of_nonneg (zpow_nonneg (by norm_num) _)] at h
  obtain ⟨-, rfl⟩ := DecimalNumber.eq_of_reduced hdigits hdigits' h
  exact hpower

/-- A number with fewer binary places than decimal ones has digits that end in a zero. -/
theorem mod_eq_zero_of_places {places e k : Nat} (h : (significand : ℚ) * 2 ^ ((e : Int) - places) =
    digits * 10 ^ (-((places + (k + 1) : Nat) : Int))) : digits % 10 = 0 := by
  have hten : (10 : ℚ) ^ (places + (k + 1)) = 2 ^ places * (5 ^ places * 10 ^ (k + 1)) := by
    rw [pow_add, ← mul_assoc, ← mul_pow]
    norm_num
  have hdigits : (digits : ℚ) = significand * 2 ^ e * 5 ^ places * 10 ^ k * 10 := by
    rw [zpow_sub₀ (by norm_num), zpow_neg, zpow_natCast, zpow_natCast, zpow_natCast, hten] at h
    field_simp at h
    rw [← h, pow_succ]
    ring
  have hdigits : digits = significand * 2 ^ e * 5 ^ places * 10 ^ k * 10 := by
    exact_mod_cast hdigits
  rw [hdigits, Nat.mul_mod_left]

/-- A double is less than `2 ^ 1024`, and has at most 1074 binary places. -/
theorem isNear_binary (hsignificand : significand < 2 ^ 53) (hleast : -1074 ≤ exponent)
    (hgreatest : exponent ≤ 971) : IsNear (signed negative significand * 2 ^ exponent) := by
  intro digits power hdigits h
  rw [abs_mul, abs_signed, abs_of_nonneg (zpow_nonneg (by norm_num) _)] at h
  by_contra hfar
  rw [Value.maxKeyExponent, not_le] at hfar
  rcases le_or_gt 0 power with hpower | hpower
  · have hdigits : 1 ≤ digits := by omega
    have hbig : (2 : ℚ) ^ (1024 : Int) ≤ digits * 10 ^ power := by
      calc (2 : ℚ) ^ (1024 : Int) ≤ 2 ^ power := zpow_le_zpow_right₀ (by norm_num) (by omega)
        _ ≤ 10 ^ power := zpow_le_zpow_left₀ hpower (by norm_num) (by norm_num)
        _ ≤ digits * 10 ^ power :=
          le_mul_of_one_le_left (zpow_nonneg (by norm_num) _) (by exact_mod_cast hdigits)
    have hsmall : (significand : ℚ) * 2 ^ exponent < 2 ^ (1024 : Int) := by
      calc (significand : ℚ) * 2 ^ exponent < 2 ^ (53 : Int) * 2 ^ exponent :=
            mul_lt_mul_of_pos_right (by exact_mod_cast hsignificand) (zpow_pos (by norm_num) _)
        _ ≤ 2 ^ (53 : Int) * 2 ^ (971 : Int) := by
            gcongr
            norm_num
        _ = 2 ^ (1024 : Int) := by
            rw [← zpow_add₀ (by norm_num)]
            rfl
    exact absurd (h ▸ hsmall) (not_lt.mpr hbig)
  · obtain ⟨k, rfl⟩ : ∃ k : Nat, power = -((1074 + (k + 1) : Nat) : Int) :=
      ⟨power.natAbs - 1075, by omega⟩
    obtain ⟨e, rfl⟩ : ∃ e : Nat, exponent = e - (1074 : Nat) := ⟨(exponent + 1074).toNat, by omega⟩
    exact hdigits (mod_eq_zero_of_places h)

theorem Binary64.exponent_le_of_ofBits {bits : Nat}
    (h : Binary64.ofBits bits = .finite negative significand exponent) : exponent ≤ 971 := by
  unfold Binary64.ofBits at h
  simp only [Nat.pow_eq, Nat.reducePow, beq_iff_eq] at h
  split at h
  · split at h <;> cases h
  split at h
  · cases h
    omega
  · cases h
    omega

end Near

end Number

namespace Value

/-- What a value stands for when it is compared. -/
inductive Meaning where
  | null
  | number (q : ℚ)
  | infinite (negative : Bool)
  | object (number : Nat) (n : NotANumber)
  | text (s : String)
  | date (d : Date)
  | localTime (microseconds : Int)
  | instant (microseconds : Int)
  | duration (d : Duration)
  | bytes (octets : List UInt8)
deriving DecidableEq

/-- What is not a number and stands in one place only stands for nothing else. -/
def Meaning.ofBinary? : Binary64 → Option Meaning
  | .nan => none
  | .infinite negative => some (.infinite negative)
  | .finite negative significand exponent =>
    some (.number (signed negative significand * 2 ^ exponent))

/-- What is not a number stands for nothing else, unless it signals: then it stands for its
literal. -/
def Meaning.ofDecimal? : DecimalNumber → Option Meaning
  | .finite negative coefficient exponent =>
    some (.number (signed negative coefficient * 10 ^ exponent))
  | .infinite negative => some (.infinite negative)
  | .nan _ false _ => none
  | d@(.nan _ true _) => some (.text (Value.decimal d).literal)

def meaning? : Value → Option Meaning
  | .null => some .null
  | .bool b => some (.number (if b then 1 else 0))
  | .int n => some (.number n)
  | .float x => Meaning.ofBinary? (.ofFloat x)
  | .text s => some (.text s)
  | .date d => some (.date d)
  | .moment m => some (if m.offset.isSome then .instant m.instant else .localTime m.local)
  | .duration d => some (.duration d)
  | .decimal d => Meaning.ofDecimal? d
  | .nan i n => some (.object i n)
  | .bytes octets => some (.bytes octets)
  | v@(.list _) => some (.text v.literal)
  | v@(.object _) => some (.text v.literal)

/-- Two values are equal when they stand for the same: for one number, text or time, or as the very
same object for that object. -/
def Equal (v w : Value) : Prop := ∃ m, v.meaning? = some m ∧ w.meaning? = some m

namespace Key

def meaning? : Key → Option Meaning
  | .null => some .null
  | .number q => some (.number q)
  | .scaled negative coefficient exponent =>
    some (.number (signed negative coefficient * 10 ^ exponent))
  | .infinite negative => some (.infinite negative)
  | .nan => none
  | .object i n => some (.object i n)
  | .text s => some (.text s)
  | .date d => some (.date d)
  | .localTime t => some (.localTime t)
  | .instant t => some (.instant t)
  | .duration d => some (.duration d)
  | .bytes octets => some (.bytes octets)

/-- A number is kept by its digits exactly if it is not near. -/
def Canonical : Key → Prop
  | .number q => IsNear q
  | .scaled _ coefficient exponent =>
    coefficient % 10 ≠ 0 ∧ maxKeyExponent < exponent.natAbs
  | _ => True

theorem number_ne_scaled {q : ℚ} {negative : Bool} {digits : Nat} {power : Int} (hq : IsNear q)
    (hdigits : digits % 10 ≠ 0) (hfar : maxKeyExponent < power.natAbs) :
    q ≠ signed negative digits * 10 ^ power := by
  rintro rfl
  refine absurd (hq digits power hdigits ?_) (not_le.mpr hfar)
  rw [abs_mul, abs_signed, abs_of_nonneg (zpow_nonneg (by norm_num) _)]

theorem scaled_injective {negative negative' : Bool} {digits digits' : Nat} {power power' : Int}
    (h : digits % 10 ≠ 0) (h' : digits' % 10 ≠ 0)
    (hvalue : (signed negative digits : ℚ) * 10 ^ power = signed negative' digits' * 10 ^ power') :
    scaled negative digits power = scaled negative' digits' power' := by
  have habs := congrArg abs hvalue
  rw [abs_mul, abs_mul, abs_signed, abs_signed, abs_of_nonneg (zpow_nonneg (by norm_num) _),
    abs_of_nonneg (zpow_nonneg (by norm_num) _)] at habs
  obtain ⟨rfl, rfl⟩ := DecimalNumber.eq_of_reduced h h' habs
  have hsigned : signed negative digits = signed negative' digits := by
    exact_mod_cast mul_right_cancel₀ (zpow_ne_zero power (by norm_num)) hvalue
  obtain rfl : negative = negative' := by
    have hpos : digits ≠ 0 := fun hzero => h (by rw [hzero])
    cases negative <;> cases negative' <;> simp [signed] at hsigned ⊢ <;> omega
  rfl

theorem exists_meaning? {k : Key} (h : k ≠ .nan) : ∃ m, k.meaning? = some m := by
  cases k with
  | nan => exact absurd rfl h
  | _ => exact ⟨_, rfl⟩

/-- The keys that are made are told by what they stand for. -/
theorem eq_of_meaning? {k k' : Key} {m : Meaning} (hk : k.Canonical) (hk' : k'.Canonical)
    (h : k.meaning? = some m) (h' : k'.meaning? = some m) : k = k' := by
  cases k with
  | number q =>
    cases h
    cases k' with
    | number q' =>
      cases h'
      rfl
    | scaled negative digits power =>
      cases h'
      exact absurd rfl (number_ne_scaled hk hk'.1 hk'.2)
    | _ => cases h'
  | scaled negative digits power =>
    cases h
    cases k' with
    | number q =>
      cases h'
      exact absurd rfl (number_ne_scaled hk' hk.1 hk.2)
    | scaled negative' digits' power' =>
      exact scaled_injective hk.1 hk'.1 (Meaning.number.inj (Option.some.inj h')).symm
    | _ => cases h'
  | _ => cases h <;> cases k' <;> cases h' <;> rfl

end Key

theorem canonical_binaryKey (bits : Nat) : (binaryKey (.ofBits bits)).Canonical := by
  cases h : Binary64.ofBits bits with
  | nan => trivial
  | infinite negative => trivial
  | finite negative significand exponent =>
    have hparts := Binary64.isCanonical_of_ofBits h
    change IsNear _
    rw [scaleByTwo_eq]
    exact isNear_binary hparts.bits hparts.least (Binary64.exponent_le_of_ofBits h)

theorem meaning?_binaryKey (x : Binary64) : (binaryKey x).meaning? = Meaning.ofBinary? x := by
  cases x with
  | nan => rfl
  | infinite negative => rfl
  | finite negative significand exponent =>
    rw [binaryKey, Key.meaning?, scaleByTwo_eq, Meaning.ofBinary?]

/-- The key of a finite decimal number is in order and stands for the number. -/
theorem decimalKey_finite (negative : Bool) (coefficient : Nat) (exponent : Int) :
    (decimalKey (.finite negative coefficient exponent)).Canonical ∧
      (decimalKey (.finite negative coefficient exponent)).meaning? =
        some (.number (signed negative coefficient * 10 ^ exponent)) := by
  by_cases hzero : coefficient = 0
  · subst hzero
    have hkey : decimalKey (.finite negative 0 exponent) = .number 0 := by
      simp [decimalKey, DecimalNumber.reduced_zero]
    rw [hkey]
    refine ⟨isNear_zero, ?_⟩
    cases negative <;> simp [Key.meaning?, signed]
  · have hdigits := DecimalNumber.reduced_mod hzero exponent
    have hvalue := DecimalNumber.reduced_value coefficient exponent
    unfold decimalKey
    simp only
    generalize DecimalNumber.reduced coefficient exponent = r at hdigits hvalue
    obtain ⟨digits, power⟩ := r
    simp only at hdigits hvalue ⊢
    have hne : (digits == 0) = false := beq_false_of_ne fun h => hdigits (by rw [h])
    have hsigned : (signed negative digits : ℚ) * 10 ^ power =
        signed negative coefficient * 10 ^ exponent := by
      cases negative <;> simp [signed, hvalue]
    rw [hne]
    simp only [Bool.false_or, decide_eq_true_eq, Bool.false_eq_true, if_false]
    split
    · rename_i hpower
      rw [DecimalNumber.finiteValue_eq]
      exact ⟨isNear_of_digits hdigits hpower, by rw [Key.meaning?, hsigned]⟩
    · rename_i hpower
      exact ⟨⟨hdigits, not_le.mp hpower⟩, by rw [Key.meaning?, hsigned]⟩

theorem canonical_decimalKey (d : DecimalNumber) : (decimalKey d).Canonical := by
  rcases d with ⟨negative, coefficient, exponent⟩ | _ | ⟨_, _ | _, _⟩
  · exact (decimalKey_finite _ _ _).1
  all_goals trivial

theorem meaning?_decimalKey (d : DecimalNumber) :
    (decimalKey d).meaning? = Meaning.ofDecimal? d := by
  rcases d with ⟨negative, coefficient, exponent⟩ | _ | ⟨_, _ | _, _⟩
  · exact (decimalKey_finite _ _ _).2
  all_goals rfl

theorem canonical_key (v : Value) : v.key.Canonical := by
  cases v with
  | bool b =>
    cases b with
    | false => exact isNear_zero
    | true =>
      have hone : IsNear (signed false 1 * 10 ^ (0 : Int)) :=
        isNear_of_digits (by decide) (by decide)
      have hvalue : (signed false 1 * 10 ^ (0 : Int) : ℚ) = 1 := by simp [signed]
      rwa [hvalue] at hone
  | int n => exact canonical_decimalKey (.finite (n < 0) n.natAbs 0)
  | float x => exact canonical_binaryKey _
  | decimal d => exact canonical_decimalKey d
  | moment m =>
    simp only [key]
    split <;> trivial
  | _ => trivial

/-- The key of a value stands for what the value does. -/
theorem meaning?_key (v : Value) : v.key.meaning? = v.meaning? := by
  cases v with
  | int n =>
    have hsigned : signed (n < 0) n.natAbs = n := by
      unfold signed
      split <;> rename_i h <;> rw [decide_eq_true_eq] at h <;> omega
    simp only [key, meaning?_decimalKey, Meaning.ofDecimal?, meaning?, hsigned, zpow_zero, mul_one]
  | float x => exact meaning?_binaryKey _
  | decimal d => exact meaning?_decimalKey d
  | moment m =>
    simp only [key, meaning?]
    split <;> rfl
  | _ => rfl

/-- Keys tell which values are equal. -/
theorem same_key_iff {v w : Value} : v.key.same w.key = true ↔ v.Equal w := by
  rw [Key.same, Bool.and_eq_true, bne_iff_ne, beq_iff_eq, Equal, ← meaning?_key, ← meaning?_key]
  constructor
  · rintro ⟨hnan, hkey⟩
    obtain ⟨m, hm⟩ := Key.exists_meaning? hnan
    exact ⟨m, hm, hkey ▸ hm⟩
  · rintro ⟨m, hv, hw⟩
    refine ⟨?_, Key.eq_of_meaning? (canonical_key v) (canonical_key w) hv hw⟩
    intro hnan
    rw [hnan] at hv
    cases hv

section Equal
variable {u v w : Value}

theorem Equal.symm (h : v.Equal w) : w.Equal v := by
  obtain ⟨m, hv, hw⟩ := h
  exact ⟨m, hw, hv⟩

theorem Equal.trans (h : u.Equal v) (h' : v.Equal w) : u.Equal w := by
  obtain ⟨m, hu, hv⟩ := h
  obtain ⟨m', hv', hw⟩ := h'
  rw [hv] at hv'
  cases hv'
  exact ⟨m, hu, hw⟩

end Equal

end Value

end DatasetCatalog
