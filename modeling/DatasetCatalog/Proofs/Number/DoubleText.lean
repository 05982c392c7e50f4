import DatasetCatalog.Number.NumberText
import DatasetCatalog.Proofs.Json.Delimiting
import DatasetCatalog.Proofs.Number.Binary64

/-!
# Written doubles

However the digits of a double are laid out, they read back as the same decimal. As the decimal
tells the double, so does the text; and it is never that of a whole number.
-/

namespace DatasetCatalog.Number

open Text Json

/-- The digits after a point, if there is one, and what comes behind them. -/
def fractionParts : List Char → List Char × List Char
  | '.' :: r => (r.takeWhile Char.isDigit, r.dropWhile Char.isDigit)
  | r => ([], r)

/-- The decimal that a text without a sign writes. -/
def decimal? (cs : List Char) : Option Decimal :=
  let whole := cs.takeWhile Char.isDigit
  let parts := fractionParts (cs.dropWhile Char.isDigit)
  if whole.isEmpty && parts.1.isEmpty then none
  else (readExponent? parts.2).map fun e => ⟨digitsValue (whole ++ parts.1), e - parts.1.length⟩

/-- A text is read by rounding the decimal that it writes. -/
theorem readMagnitude?_eq (negative : Bool) (cs : List Char) :
    readMagnitude? negative cs =
      (decimal? cs).map fun d => ofDecimal negative d.digits d.exponent := by
  have hread : readMagnitude? negative cs =
      let whole := cs.takeWhile Char.isDigit
      let parts := fractionParts (cs.dropWhile Char.isDigit)
      if whole.isEmpty && parts.1.isEmpty then none
      else (readExponent? parts.2).map fun e =>
        ofDecimal negative (digitsValue (whole ++ parts.1)) (e - parts.1.length) := rfl
  rw [hread, decimal?]
  simp only
  split
  · rfl
  · rw [Option.map_map]
    rfl

section Digits
variable {whole fraction rest : List Char}

theorem toNat_of_isDigit {c : Char} (h : c.isDigit = true) : 48 ≤ c.toNat ∧ c.toNat ≤ 57 := by
  simp only [Char.isDigit, Bool.and_eq_true, decide_eq_true_eq, ge_iff_le,
    UInt32.le_iff_toNat_le] at h
  exact h

theorem digitValue?_eq {c : Char} (h : c.isDigit = true) :
    digitValue? c = some (c.toNat - '0'.toNat) :=
  digitValue?_of_isDigit (Nat.lt_of_le_of_lt (toNat_of_isDigit h).2 (by omega)) h

theorem digitsValue_eq {ds : List Char} (h : ∀ c ∈ ds, c.isDigit = true) :
    digitsValue ds = Nat.ofDigitChars 10 ds 0 := by
  unfold digitsValue
  rw [Nat.ofDigitChars_eq_foldl]
  refine List.foldl_ext _ _ _ fun n c hc => ?_
  rw [digitValue?_eq (h c hc), Option.getD_some]

theorem takeWhile_digits (hwhole : ∀ c ∈ whole, c.isDigit = true)
    (hrest : ∀ c, rest.head? = some c → c.isDigit = false) :
    (whole ++ rest).takeWhile Char.isDigit = whole ∧
      (whole ++ rest).dropWhile Char.isDigit = rest := by
  rw [List.takeWhile_append_of_pos hwhole, List.dropWhile_append_of_pos hwhole]
  cases rest with
  | nil => exact ⟨List.append_nil _, rfl⟩
  | cons c rest =>
    have hc : ¬ c.isDigit = true := by simp [hrest c rfl]
    rw [List.takeWhile_cons_of_neg hc, List.dropWhile_cons_of_neg hc]
    exact ⟨List.append_nil _, rfl⟩

theorem decimal?_pointed (hwhole : ∀ c ∈ whole, c.isDigit = true) (hne : whole ≠ [])
    (hfraction : ∀ c ∈ fraction, c.isDigit = true)
    (hrest : ∀ c, rest.head? = some c → c.isDigit = false) {e : Int}
    (he : readExponent? rest = some e) :
    decimal? (whole ++ '.' :: (fraction ++ rest)) =
      some ⟨Nat.ofDigitChars 10 (whole ++ fraction) 0, e - fraction.length⟩ := by
  have hpoint : ∀ c, ('.' :: (fraction ++ rest)).head? = some c → c.isDigit = false := by
    rintro c ⟨⟩
    rfl
  obtain ⟨htake, hdrop⟩ := takeWhile_digits hwhole hpoint
  obtain ⟨htake', hdrop'⟩ := takeWhile_digits hfraction hrest
  have hempty : whole.isEmpty = false := by simpa using hne
  unfold decimal?
  simp only [htake, hdrop, fractionParts, htake', hdrop', hempty, Bool.false_and,
    Bool.false_eq_true, if_false, he, Option.map_some,
    digitsValue_eq (List.forall_mem_append.mpr ⟨hwhole, hfraction⟩)]

theorem decimal?_pointed_end (hwhole : ∀ c ∈ whole, c.isDigit = true) (hne : whole ≠ [])
    (hfraction : ∀ c ∈ fraction, c.isDigit = true) :
    decimal? (whole ++ '.' :: fraction) =
      some ⟨Nat.ofDigitChars 10 (whole ++ fraction) 0, -fraction.length⟩ := by
  have hread : decimal? (whole ++ '.' :: (fraction ++ [])) = _ :=
    decimal?_pointed hwhole hne hfraction (fun _ h => by cases h) rfl
  rwa [List.append_nil, zero_sub] at hread

theorem decimal?_whole (hwhole : ∀ c ∈ whole, c.isDigit = true) (hne : whole ≠ [])
    (hrest : ∀ c, rest.head? = some c → c.isDigit = false) (hpoint : rest.head? ≠ some '.')
    {e : Int} (he : readExponent? rest = some e) :
    decimal? (whole ++ rest) = some ⟨Nat.ofDigitChars 10 whole 0, e⟩ := by
  obtain ⟨htake, hdrop⟩ := takeWhile_digits hwhole hrest
  have hempty : whole.isEmpty = false := by simpa using hne
  have hparts : fractionParts rest = ([], rest) := by
    unfold fractionParts
    split
    · exact absurd rfl hpoint
    · rfl
  unfold decimal?
  simp [htake, hdrop, hparts, hempty, he, digitsValue_eq hwhole]

theorem readExponent?_exponentText (e : Int) : readExponent? (exponentText e) = some e := by
  let padded : List Char :=
    if (natText e.natAbs).length < 2 then '0' :: natText e.natAbs else natText e.natAbs
  have hvalue : Nat.ofDigitChars 10 padded 0 = e.natAbs := by
    unfold padded
    split
    · exact Nat.ofDigitChars_ten_toDigits
    · exact Nat.ofDigitChars_ten_toDigits
  have hdigits : ∀ c ∈ padded, c.isDigit = true := by
    unfold padded
    split
    · exact List.forall_mem_cons.mpr ⟨rfl, fun _ => isDigit_of_mem_natText⟩
    · exact fun _ => isDigit_of_mem_natText
  have hne : padded.isEmpty = false := by
    unfold padded
    split
    · rfl
    · exact List.isEmpty_eq_false_iff.mpr Nat.toDigits_ne_nil
  have hread : ∀ negative, (if (('e' == 'e' || 'e' == 'E') && !padded.isEmpty &&
      padded.all Char.isDigit) = true then some (signed negative (digitsValue padded)) else none) =
      some (signed negative e.natAbs) := by
    intro negative
    rw [if_pos (by simpa [hne] using hdigits), digitsValue_eq hdigits, hvalue]
  change readExponent? ((if e < 0 then ['e', '-'] else ['e', '+']) ++ padded) = some e
  split
  · exact (hread true).trans (congrArg some (by rw [signed, if_pos rfl]; omega))
  · exact (hread false).trans (congrArg some (by rw [signed, if_neg nofun]; omega))

end Digits

theorem head_exponentText (e : Int) : (exponentText e).head? = some 'e' := by
  unfold exponentText
  split <;> rfl

section Layouts
variable {ds : List Char} (hds : ∀ c ∈ ds, c.isDigit = true)
include hds

theorem isDigit_of_mem_zeros (k : Nat) : ∀ c ∈ List.replicate k '0' ++ ds, c.isDigit = true := by
  refine List.forall_mem_append.mpr ⟨fun c hc => ?_, hds⟩
  rw [List.eq_of_mem_replicate hc]
  rfl

theorem decimal?_fraction (k : Nat) : decimal? (['0', '.'] ++ List.replicate k '0' ++ ds) =
    some ⟨Nat.ofDigitChars 10 ds 0, -(k + ds.length)⟩ := by
  have hzero : ∀ c ∈ ['0'], c.isDigit = true := by simp
  refine (decimal?_pointed_end hzero (List.cons_ne_nil _ _) (isDigit_of_mem_zeros hds k)).trans ?_
  rw [Nat.ofDigitChars_append, Nat.ofDigitChars_append]
  simp [Nat.ofDigitChars_cons]

theorem decimal?_padded (hne : ds ≠ []) (k : Nat) :
    decimal? (ds ++ List.replicate k '0' ++ ['.', '0']) =
      some ⟨10 ^ (k + 1) * Nat.ofDigitChars 10 ds 0, -1⟩ := by
  have hzero : ∀ c ∈ ['0'], c.isDigit = true := by simp
  have hwhole : ∀ c ∈ ds ++ List.replicate k '0', c.isDigit = true := by
    refine List.forall_mem_append.mpr ⟨hds, fun c hc => ?_⟩
    rw [List.eq_of_mem_replicate hc]
    rfl
  refine (decimal?_pointed_end hwhole (List.append_ne_nil_of_left_ne_nil hne _) hzero).trans ?_
  rw [Nat.ofDigitChars_append, Nat.ofDigitChars_append]
  simp [Nat.ofDigitChars_cons, pow_succ', mul_assoc]

theorem decimal?_inside {k : Nat} (hpos : 0 < k) (hk : k < ds.length) :
    decimal? (ds.take k ++ '.' :: ds.drop k) =
      some ⟨Nat.ofDigitChars 10 ds 0, k - ds.length⟩ := by
  have hne : ds.take k ≠ [] := List.ne_nil_of_length_pos (by rw [List.length_take]; omega)
  rw [decimal?_pointed_end (fun c hc => hds c (List.mem_of_mem_take hc)) hne
    (fun c hc => hds c (List.mem_of_mem_drop hc)), List.take_append_drop, List.length_drop]
  congr 2
  omega

theorem decimal?_scientific (hne : ds ≠ []) (e : Int) :
    decimal? (ds.take 1 ++ (if ds.length == 1 then [] else '.' :: ds.drop 1) ++ exponentText e) =
      some ⟨Nat.ofDigitChars 10 ds 0, e + 1 - ds.length⟩ := by
  have hlength := List.length_pos_iff.mpr hne
  have htake : ds.take 1 ≠ [] := List.ne_nil_of_length_pos (by rw [List.length_take]; omega)
  have hwhole : ∀ c ∈ ds.take 1, c.isDigit = true := fun c hc => hds c (List.mem_of_mem_take hc)
  have hmark : ∀ c, (exponentText e).head? = some c → c.isDigit = false := by
    intro c hc
    rw [head_exponentText] at hc
    cases hc
    rfl
  split
  · rename_i hone
    rw [beq_iff_eq] at hone
    have hread := decimal?_whole hwhole htake hmark (by rw [head_exponentText]; decide)
      (readExponent?_exponentText e)
    rw [List.append_nil, hread, List.take_of_length_le (Nat.le_of_eq hone), hone]
    congr 2
    omega
  · have hread := decimal?_pointed hwhole htake
      (fun c hc => hds c (List.mem_of_mem_drop (i := 1) hc)) hmark (readExponent?_exponentText e)
    rw [List.append_assoc, List.cons_append, hread, List.take_append_drop, List.length_drop]
    congr 2
    omega

end Layouts

/-- The layout of digits reads back as the decimal that they are of. -/
theorem decimal?_layoutDigits (n : Nat) (exponent : Int) : ∃ d : Decimal,
    d.toRat = Decimal.toRat ⟨n, exponent⟩ ∧
      decimal? (layoutDigits (natText n) ((natText n).length + exponent)) = some d := by
  have hvalue : Nat.ofDigitChars 10 (natText n) 0 = n := Nat.ofDigitChars_ten_toDigits
  have hdigits : ∀ c ∈ natText n, c.isDigit = true := fun _ => isDigit_of_mem_natText
  have hne : natText n ≠ [] := Nat.toDigits_ne_nil
  unfold layoutDigits
  simp only
  split
  · split
    · refine ⟨_, ?_, decimal?_fraction hdigits _⟩
      rw [hvalue]
      congr 2
      omega
    split
    · refine ⟨_, ?_, decimal?_padded hdigits hne _⟩
      rw [hvalue]
      obtain ⟨k, rfl⟩ := Int.eq_ofNat_of_zero_le (a := exponent) (by omega)
      simp only [add_sub_cancel_left, Decimal.toRat, Int.toNat_natCast, zpow_natCast]
      push_cast
      rw [zpow_neg_one, pow_succ]
      field_simp
    · refine ⟨_, ?_, decimal?_inside hdigits (by omega) (by omega)⟩
      rw [hvalue]
      congr 2
      omega
  · refine ⟨_, ?_, decimal?_scientific hdigits hne _⟩
    rw [hvalue]
    congr 2
    omega

/-- A positive double reads back as a decimal in its rounding interval. -/
theorem decimal?_positiveText {significand : Nat} {exponent : Int}
    (h : IsCanonical significand exponent) (hpos : 0 < significand) : ∃ d : Decimal,
    decimal? (positiveText significand exponent) = some d ∧
      (RoundingInterval.ofBinary significand exponent).Admits d.toRat := by
  obtain ⟨d, hd, hread⟩ := decimal?_layoutDigits (shortest significand exponent).digits
    (shortest significand exponent).exponent
  refine ⟨d, ?_, hd ▸ shortest_admits hpos h⟩
  unfold positiveText
  rw [if_neg (by simpa using hpos.ne')]
  exact hread

theorem decimal?_zero : decimal? (positiveText 0 (-1074)) = some ⟨0, -1⟩ := by decide +kernel

/-- Zero and the positive doubles read back as decimals that tell them. -/
theorem decimal?_positiveText_zero_or_pos {significand : Nat} {exponent : Int}
    (h : IsCanonical significand exponent) : ∃ d : Decimal,
    decimal? (positiveText significand exponent) = some d ∧
      (significand = 0 ∧ exponent = -1074 ∧ d.toRat = 0 ∨
        0 < d.toRat ∧ (RoundingInterval.ofBinary significand exponent).Admits d.toRat) := by
  rcases Nat.eq_zero_or_pos significand with rfl | hpos
  · obtain rfl : exponent = -1074 := h.normal.resolve_right (by omega)
    exact ⟨_, decimal?_zero, .inl ⟨rfl, rfl, by rw [Decimal.toRat, Nat.cast_zero, zero_mul]⟩⟩
  · obtain ⟨d, hread, hadmits⟩ := decimal?_positiveText h hpos
    exact ⟨d, hread, .inr ⟨pos_of_admits hpos hadmits, hadmits⟩⟩

theorem positiveText_injective {s s' : Nat} {e e' : Int} (h : IsCanonical s e)
    (h' : IsCanonical s' e') (htext : positiveText s e = positiveText s' e') : s = s' ∧ e = e' := by
  obtain ⟨d, hread, hd⟩ := decimal?_positiveText_zero_or_pos h
  obtain ⟨d', hread', hd'⟩ := decimal?_positiveText_zero_or_pos h'
  obtain rfl := Option.some.inj (hread.symm.trans (htext ▸ hread'))
  rcases hd with ⟨rfl, rfl, hzero⟩ | ⟨hpos, hadmits⟩
  · rcases hd' with ⟨rfl, rfl, _⟩ | ⟨hpos', _⟩
    · exact ⟨rfl, rfl⟩
    · exact absurd hzero hpos'.ne'
  · rcases hd' with ⟨rfl, rfl, hzero'⟩ | ⟨_, hadmits'⟩
    · exact absurd hzero' hpos.ne'
    · exact eq_of_admits h h' hadmits hadmits'

/-- A decimal does not begin with a sign. -/
theorem positiveText_ne_signed {s s' : Nat} {e e' : Int} (h : IsCanonical s e) :
    positiveText s e ≠ '-' :: positiveText s' e' := by
  intro htext
  obtain ⟨d, hread, _⟩ := decimal?_positiveText_zero_or_pos h
  rw [htext] at hread
  cases hread

theorem binaryText_injective {negative negative' : Bool} {s s' : Nat} {e e' : Int}
    (h : IsCanonical s e) (h' : IsCanonical s' e')
    (htext : binaryText (.finite negative s e) = binaryText (.finite negative' s' e')) :
    negative = negative' ∧ s = s' ∧ e = e' := by
  cases negative with
  | false =>
    cases negative' with
    | false => exact ⟨rfl, positiveText_injective h h' htext⟩
    | true => exact absurd htext (positiveText_ne_signed h)
  | true =>
    cases negative' with
    | false => exact absurd htext.symm (positiveText_ne_signed h')
    | true => exact ⟨rfl, positiveText_injective h h' (List.cons.inj htext).2⟩

/-- The layout of digits has a point or an exponent. -/
theorem exists_mark_layoutDigits (ds : List Char) (point : Int) :
    ∃ c ∈ layoutDigits ds point, c = '.' ∨ c = 'e' := by
  unfold layoutDigits
  simp only
  split
  · refine ⟨'.', ?_, .inl rfl⟩
    split
    · simp
    split
    · simp
    · simp
  · have hmark := List.mem_of_mem_head? (head_exponentText (point - 1))
    exact ⟨'e', List.mem_append_right _ hmark, .inr rfl⟩

theorem exists_mark_positiveText (s : Nat) (e : Int) :
    ∃ c ∈ positiveText s e, c = '.' ∨ c = 'e' := by
  unfold positiveText
  split
  · exact ⟨'.', by simp, .inl rfl⟩
  · exact exists_mark_layoutDigits _ _

end DatasetCatalog.Number

namespace DatasetCatalog.Json

open Number

theorem writeFloat_of_isFinite {x : Float} (hx : x.isFinite = true) :
    ∃ negative s e, Binary64.ofFloat x = .finite negative s e ∧ IsCanonical s e ∧
      writeFloat x = binaryText (.finite negative s e) := by
  obtain ⟨negative, s, e, hparts⟩ := ofFloat_of_isFinite hx
  refine ⟨negative, s, e, hparts, Binary64.isCanonical_of_ofBits hparts, ?_⟩
  unfold writeFloat
  rw [hparts]

/-- Finite doubles are written in different texts. -/
theorem writeFloat_injective {x y : Float} (hx : x.isFinite = true) (hy : y.isFinite = true)
    (h : writeFloat x = writeFloat y) : x = y := by
  obtain ⟨negative, s, e, hparts, hcanonical, htext⟩ := writeFloat_of_isFinite hx
  obtain ⟨negative', s', e', hparts', hcanonical', htext'⟩ := writeFloat_of_isFinite hy
  rw [htext, htext'] at h
  obtain ⟨rfl, rfl, rfl⟩ := binaryText_injective hcanonical hcanonical' h
  exact ofFloat_injective hx (hparts.trans hparts'.symm)

/-- No double is written as a whole number is. -/
theorem writeFloat_ne_intText (x : Float) (n : Int) : writeFloat x ≠ (intText n).toList := by
  intro h
  have hmark : ∃ c ∈ writeFloat x, c ≠ '-' ∧ c.isDigit = false := by
    unfold writeFloat
    split
    · exact ⟨'N', by simp, by decide⟩
    · exact ⟨'I', by simp, by decide⟩
    · rename_i hnan hinfinite
      cases hx : Binary64.ofFloat x with
      | nan => exact absurd hx hnan
      | infinite negative => exact absurd hx (hinfinite negative)
      | finite negative s e =>
        obtain ⟨c, hc, hmark⟩ := exists_mark_positiveText s e
        refine ⟨c, List.mem_append_right _ hc, ?_⟩
        rcases hmark with rfl | rfl <;> decide
  obtain ⟨c, hc, hsign, hdigit⟩ := hmark
  rcases mem_intText (h ▸ hc) with rfl | hdigit'
  · exact hsign rfl
  · rw [hdigit'] at hdigit
    cases hdigit

end DatasetCatalog.Json
