import DatasetCatalog.Json.Canonical
import DatasetCatalog.Json.Reader
import Mathlib.Data.Nat.Digits.Lemmas

/-!
# Escapes

A text reads back as it was written, so two texts that are written alike are the same, whatever
stands behind them.
-/

namespace DatasetCatalog.Json

open Text

section Hexadecimal

theorem hexValue?_digitChar : ∀ n < 16, hexValue? n.digitChar = some n := by decide

theorem hexNumber?_concat (cs : List Char) (c : Char) :
    hexNumber? (cs ++ [c]) =
      (hexNumber? cs).bind fun n => (hexValue? c).map (16 * n + ·) := by
  simp only [hexNumber?, List.foldlM_append, List.foldlM_cons, List.foldlM_nil, bind_pure]
  rfl

theorem hexNumber?_toDigits (n : Nat) : hexNumber? (Nat.toDigits 16 n) = some n := by
  induction n using Nat.strong_induction_on with
  | _ n ih =>
    by_cases hn : n < 16
    · rw [Nat.toDigits_of_lt_base hn]
      simp only [hexNumber?, List.foldlM_cons, List.foldlM_nil, hexValue?_digitChar n hn]
      simp
    · have hdigit := hexValue?_digitChar (n % 16) (Nat.mod_lt n (by omega))
      rw [Nat.toDigits_of_base_le (by omega) (by omega), hexNumber?_concat, ih (n / 16) (by omega),
        Option.bind_some, hdigit, Option.map_some]
      congr 1
      omega

/-- Zeros in front do not count. -/
theorem hexNumber?_zeros (count : Nat) (cs : List Char) :
    hexNumber? (List.replicate count '0' ++ cs) = hexNumber? cs := by
  induction count with
  | zero => rfl
  | succ count ih =>
    rw [← ih]
    rfl

theorem hexNumber?_hexDigits (width n : Nat) : hexNumber? (hexDigits width n) = some n := by
  rw [hexDigits, hexNumber?_zeros, hexNumber?_toDigits]

theorem length_hexDigits (width n : Nat) (hwidth : 0 < width) (hn : n < 16 ^ width) :
    (hexDigits width n).length = width := by
  have hlength := Nat.toDigits_length 16 n width hwidth hn
  rw [hexDigits, List.length_append, List.length_replicate]
  omega

end Hexadecimal

section Reading

theorem toNat_cases (a : Char) :
    a.toNat < 0xD800 ∨ 0xE000 ≤ a.toNat ∧ a.toNat < 0x110000 := by
  have hvalid : a.toNat.isValidChar := a.valid
  unfold Nat.isValidChar at hvalid
  omega

theorem isHighSurrogate_toNat (a : Char) : isHighSurrogate a.toNat = false := by
  have ha := toNat_cases a
  rw [isHighSurrogate, ← Bool.not_eq_true, Bool.and_eq_true, decide_eq_true_eq, decide_eq_true_eq]
  omega

theorem isLowSurrogate_toNat (a : Char) : isLowSurrogate a.toNat = false := by
  have ha := toNat_cases a
  rw [isLowSurrogate, ← Bool.not_eq_true, Bool.and_eq_true, decide_eq_true_eq, decide_eq_true_eq]
  omega

theorem unitChar_toNat (a : Char) : unitChar a.toNat = a := by
  rw [unitChar, isSurrogate, isHighSurrogate_toNat, isLowSurrogate_toNat, Bool.or_self,
    if_neg Bool.false_ne_true, Char.ofNat_toNat]

theorem lt_of_isHighSurrogate {n : Nat} (h : isHighSurrogate n = true) : n < 16 ^ 4 := by
  simp only [isHighSurrogate, Bool.and_eq_true, decide_eq_true_eq] at h
  omega

theorem lt_of_isLowSurrogate {n : Nat} (h : isLowSurrogate n = true) : n < 16 ^ 4 := by
  simp only [isLowSurrogate, Bool.and_eq_true, decide_eq_true_eq] at h
  omega

variable {c : Cursor} {tail : List Char}

theorem Cursor.advance_advance (c : Cursor) (m n : Nat) :
    (c.advance m).advance n = c.advance (m + n) := by
  simp only [Cursor.advance, List.drop_drop, Nat.add_assoc]

theorem Cursor.rest_advance (cs : List Char) {n : Nat} (hn : cs.length = n)
    (h : c.rest = cs ++ tail) : (c.advance n).rest = tail := by
  rw [Cursor.advance, h, List.drop_left' hn]

theorem readUnit?_hexDigits {n : Nat} (hn : n < 16 ^ 4) (htail : tail ≠ [])
    (h : c.rest = hexDigits 4 n ++ tail) :
    readUnit? c = .ok (n, c.advance 4) ∧ (c.advance 4).rest = tail := by
  have hlength := length_hexDigits 4 n (by omega) hn
  have hdrop : c.rest.drop 4 = tail := by rw [h, List.drop_left' hlength]
  have htake : c.rest.take 4 = hexDigits 4 n := by rw [h, List.take_left' hlength]
  refine ⟨?_, hdrop⟩
  unfold readUnit?
  rw [hdrop, htake, hexNumber?_hexDigits, if_neg]
  rw [List.isEmpty_iff]
  exact htail

/-- A character that is one unit reads back. -/
theorem readEscapedUnits_unit {a : Char} (ha : a.toNat < 0x10000) (htail : tail ≠ [])
    (h : c.rest = hexDigits 4 a.toNat ++ tail) : readEscapedUnits c = .ok (a, c.advance 4) := by
  obtain ⟨hunit, _⟩ := readUnit?_hexDigits ha htail h
  unfold readEscapedUnits
  rw [hunit]
  simp only [bind, Except.bind, isHighSurrogate_toNat, Bool.false_and, unitChar_toNat]
  rfl

/-- Two units that are a pair of surrogates read as one character. -/
theorem readEscapedUnits_pair {high low : Nat} (hhigh : isHighSurrogate high = true)
    (hlow : isLowSurrogate low = true) (htail : tail ≠ [])
    (h : c.rest = hexDigits 4 high ++ '\\' :: 'u' :: hexDigits 4 low ++ tail) :
    readEscapedUnits c = .ok (pairedChar high low, c.advance 10) := by
  rw [List.append_assoc] at h
  obtain ⟨hunit, hrest⟩ :=
    readUnit?_hexDigits (lt_of_isHighSurrogate hhigh) (List.cons_ne_nil _ _) h
  have hbehind : ((c.advance 4).advance 2).rest = hexDigits 4 low ++ tail :=
    Cursor.rest_advance ['\\', 'u'] rfl hrest
  obtain ⟨hunit', hrest'⟩ := readUnit?_hexDigits (lt_of_isLowSurrogate hlow) htail hbehind
  have hdrop : (c.advance 4).rest.drop 6 = tail := by
    rw [← hrest', Cursor.advance_advance]
    rfl
  have hmore : ((c.advance 4).rest.drop 6).isEmpty = false := by
    rw [hdrop]
    exact List.isEmpty_eq_false_iff.mpr htail
  unfold readEscapedUnits
  rw [hunit]
  simp only [bind, Except.bind]
  rw [hhigh, hmore, hrest]
  simp only [Bool.not_false, Bool.and_self]
  rw [hunit']
  simp only [hlow, if_true, Cursor.advance_advance]
  rfl

end Reading

section Characters

/-- A character is written as itself, or by a mark, or by its units. -/
theorem escapeChar_cases (a : Char) :
    (a ≠ '"' ∧ a ≠ '\\' ∧ ' ' ≤ a ∧ escapeChar a = [a]) ∨
      (∃ mark, mark ≠ 'u' ∧ escapes.lookup mark = some a ∧ escapeChar a = ['\\', mark]) ∨
      escapeChar a = escapeUnits a := by
  by_cases hspecial : a = '"' ∨ a = '\\'
  · refine .inr (.inl ?_)
    rcases hspecial with rfl | rfl
    · exact ⟨'"', by decide, rfl, rfl⟩
    · exact ⟨'\\', by decide, rfl, rfl⟩
  obtain ⟨hquote, hslash⟩ := not_or.mp hspecial
  unfold escapeChar
  rw [if_neg (by simpa using hspecial)]
  split
  · rename_i hplain
    simp only [Bool.and_eq_true, decide_eq_true_eq] at hplain
    exact .inl ⟨hquote, hslash, hplain.1, rfl⟩
  split
  · rename_i hline
    rw [beq_iff_eq.mp hline]
    exact .inr (.inl ⟨'n', by decide, rfl, rfl⟩)
  split
  · rename_i hreturn
    rw [beq_iff_eq.mp hreturn]
    exact .inr (.inl ⟨'r', by decide, rfl, rfl⟩)
  split
  · rename_i htab
    rw [beq_iff_eq.mp htab]
    exact .inr (.inl ⟨'t', by decide, rfl, rfl⟩)
  split
  · rename_i hfeed
    rw [beq_iff_eq.mp hfeed]
    exact .inr (.inl ⟨'f', by decide, rfl, rfl⟩)
  split
  · rename_i hback
    rw [beq_iff_eq.mp hback]
    exact .inr (.inl ⟨'b', by decide, rfl, rfl⟩)
  · exact .inr (.inr rfl)

theorem escapeUnits_of_lt {a : Char} (hsmall : a.toNat < 0x10000) :
    escapeUnits a = '\\' :: 'u' :: hexDigits 4 a.toNat := by
  simp only [escapeUnits, if_pos hsmall]

/-- A character beyond the first plane is written as two surrogates. -/
theorem exists_surrogates {a : Char} (hlarge : 0x10000 ≤ a.toNat) :
    ∃ high low, isHighSurrogate high = true ∧ isLowSurrogate low = true ∧ pairedChar high low = a ∧
      escapeUnits a = '\\' :: 'u' :: hexDigits 4 high ++ '\\' :: 'u' :: hexDigits 4 low := by
  have hbound : a.toNat < 0x110000 := by
    have := toNat_cases a
    omega
  have hwritten : escapeUnits a =
      '\\' :: 'u' :: hexDigits 4 (0xD800 + (a.toNat - 0x10000) / 0x400) ++
        '\\' :: 'u' :: hexDigits 4 (0xDC00 + (a.toNat - 0x10000) % 0x400) := by
    simp only [escapeUnits, if_neg (Nat.not_lt.mpr hlarge)]
  refine ⟨_, _, ?_, ?_, ?_, hwritten⟩
  · rw [isHighSurrogate, Bool.and_eq_true, decide_eq_true_eq, decide_eq_true_eq]
    omega
  · rw [isLowSurrogate, Bool.and_eq_true, decide_eq_true_eq, decide_eq_true_eq]
    omega
  · generalize hn : a.toNat - 0x10000 = n
    have hvalue : 0x10000 + (0xD800 + n / 0x400 - 0xD800) * 0x400 +
        (0xDC00 + n % 0x400 - 0xDC00) = a.toNat := by omega
    rw [pairedChar, hvalue, Char.ofNat_toNat]

variable {c : Cursor} {tail : List Char}

theorem readCharacters_plain {a : Char} (hquote : a ≠ '"') (hslash : a ≠ '\\') (ha : ' ' ≤ a)
    (h : c.rest = a :: tail) (start : Nat) (read : List Char) (fuel : Nat) :
    readCharacters start read (fuel + 1) c =
      readCharacters start (a :: read) fuel (c.advance 1) := by
  have hlow : ¬ a.toNat < 0x20 := by
    have := UInt32.le_iff_toNat_le.mp ha
    exact Nat.not_lt.mpr this
  rw [readCharacters, h]
  split <;> rename_i heq <;> cases heq
  · exact absurd rfl hquote
  · exact absurd rfl hslash
  · exact absurd rfl hslash
  · exact absurd rfl hslash
  · rw [if_neg hlow]

theorem readCharacters_marked {mark a : Char} (hmark : mark ≠ 'u')
    (ha : escapes.lookup mark = some a) (h : c.rest = '\\' :: mark :: tail) (start : Nat)
    (read : List Char) (fuel : Nat) :
    readCharacters start read (fuel + 1) c =
      readCharacters start (a :: read) fuel (c.advance 2) := by
  rw [readCharacters, h]
  split <;> rename_i heq <;> cases heq
  · exact absurd rfl hmark
  · rw [ha]
  · rename_i hnot
    exact (hnot _ _ rfl rfl).elim

theorem readCharacters_units {a : Char} {n : Nat}
    (ha : readEscapedUnits (c.advance 2) = .ok (a, (c.advance 2).advance n))
    (h : c.rest = '\\' :: 'u' :: tail) (start : Nat) (read : List Char) (fuel : Nat) :
    readCharacters start read (fuel + 1) c =
      readCharacters start (a :: read) fuel (c.advance (2 + n)) := by
  rw [readCharacters, h]
  change (readEscapedUnits (c.advance 2) >>= fun _ => _) = _
  rw [ha, Cursor.advance_advance]
  rfl

/-- What is written reads as the character, in front of the rest. -/
def ReadsAs (a : Char) (written tail : List Char) : Prop :=
  ∀ {c : Cursor}, c.rest = written ++ tail → ∀ (start : Nat) (read : List Char) (fuel : Nat),
    readCharacters start read (fuel + 1) c =
      readCharacters start (a :: read) fuel (c.advance written.length)

theorem readsAs_plain {a : Char} (hquote : a ≠ '"') (hslash : a ≠ '\\') (ha : ' ' ≤ a) :
    ReadsAs a [a] tail :=
  fun h start read fuel => readCharacters_plain hquote hslash ha h start read fuel

/-- A character reads back as it was written. -/
theorem readsAs_escapeChar (a : Char) (htail : tail ≠ []) : ReadsAs a (escapeChar a) tail := by
  intro c h start read fuel
  rcases escapeChar_cases a with
    ⟨hquote, hslash, hplain, hwritten⟩ | ⟨mark, hmark, hread, hwritten⟩ | hwritten
  · rw [hwritten] at h ⊢
    exact readCharacters_plain hquote hslash hplain h start read fuel
  · rw [hwritten] at h ⊢
    exact readCharacters_marked hmark hread h start read fuel
  rw [hwritten] at h ⊢
  have hbehind (units : List Char) (hrest : c.rest = '\\' :: 'u' :: units ++ tail) :
      (c.advance 2).rest = units ++ tail := Cursor.rest_advance ['\\', 'u'] rfl hrest
  rcases Nat.lt_or_ge a.toNat 0x10000 with hsmall | hlarge
  · rw [escapeUnits_of_lt hsmall] at h ⊢
    have hunit := readEscapedUnits_unit hsmall htail (hbehind _ h)
    have hlength := length_hexDigits 4 a.toNat (by omega) (by omega)
    rw [List.length_cons, List.length_cons, hlength]
    exact readCharacters_units hunit h start read fuel
  · obtain ⟨high, low, hhigh, hlow, hpair, hunits⟩ := exists_surrogates hlarge
    rw [hunits] at h ⊢
    have hread := readEscapedUnits_pair hhigh hlow htail (hbehind _ h)
    rw [hpair] at hread
    have hlength := length_hexDigits 4 high (by omega) (lt_of_isHighSurrogate hhigh)
    have hlength' := length_hexDigits 4 low (by omega) (lt_of_isLowSurrogate hlow)
    rw [List.length_append, List.length_cons, List.length_cons, List.length_cons,
      List.length_cons, hlength, hlength']
    exact readCharacters_units hread h start read fuel

/-- The characters of a text read back, each in front of those behind it. -/
def ReadsBack (write : Char → List Char) (cs tail : List Char) : Prop :=
  ∀ a bs, a :: bs <:+ cs → ReadsAs a (write a) (bs.flatMap write ++ '"' :: tail)

/-- Characters read back, one after another, up to the quote behind them. -/
theorem readCharacters_flatMap {write : Char → List Char} {cs : List Char}
    (hcs : ReadsBack write cs tail) (h : c.rest = cs.flatMap write ++ '"' :: tail) (start : Nat)
    (read : List Char) {fuel : Nat} (hfuel : cs.length < fuel) :
    readCharacters start read fuel c =
      .ok (String.ofList (read.reverse ++ cs), c.advance ((cs.flatMap write).length + 1)) := by
  induction cs generalizing c read fuel with
  | nil =>
    obtain ⟨fuel, rfl⟩ := Nat.exists_eq_add_of_lt hfuel
    rw [readCharacters, h, List.append_nil]
    rfl
  | cons a rest ih =>
    obtain ⟨fuel, rfl⟩ := Nat.exists_eq_add_of_lt (Nat.zero_lt_of_lt hfuel)
    have hrest : ReadsBack write rest tail := fun b bs hsuffix =>
      hcs b bs (hsuffix.trans (List.suffix_cons a rest))
    rw [List.flatMap_cons, List.append_assoc] at h
    rw [List.length_cons] at hfuel
    rw [Nat.zero_add, hcs a rest (List.suffix_refl _) h,
      ih hrest (Cursor.rest_advance _ rfl h) (a :: read) (by omega), Cursor.advance_advance,
      List.reverse_cons, List.append_assoc, List.flatMap_cons, List.length_append, Nat.add_assoc]
    rfl

/-- Texts read back as they were written. -/
theorem readText_of_readsBack {write : Char → List Char} {s : String}
    (hs : ReadsBack write s.toList tail)
    (h : c.rest = '"' :: s.toList.flatMap write ++ ['"'] ++ tail) {fuel : Nat}
    (hfuel : s.toList.length < fuel) :
    readText fuel c = .ok (s, c.advance ((s.toList.flatMap write).length + 2)) := by
  have hopen : (c.advance 1).rest = s.toList.flatMap write ++ '"' :: tail := by
    have hwritten : c.rest = ['"'] ++ (s.toList.flatMap write ++ '"' :: tail) := by
      rw [h, List.append_assoc, List.singleton_append]
      rfl
    exact Cursor.rest_advance _ rfl hwritten
  rw [readText, readCharacters_flatMap hs hopen c.position [] hfuel, Cursor.advance_advance,
    List.reverse_nil, List.nil_append, String.ofList_toList, Nat.add_comm 1]

/-- Texts that are written alike are the same, whatever stands behind them. -/
theorem quoted_append_inj {write : Char → List Char} {s s' : String}
    (hs : ∀ tail, ReadsBack write s.toList tail) (hs' : ∀ tail, ReadsBack write s'.toList tail)
    {tail tail' : List Char}
    (h : '"' :: s.toList.flatMap write ++ ['"'] ++ tail =
      '"' :: s'.toList.flatMap write ++ ['"'] ++ tail') : s = s' ∧ tail = tail' := by
  let c : Cursor := ⟨0, '"' :: s.toList.flatMap write ++ ['"'] ++ tail, 0⟩
  have hfuel : s.toList.length < s.toList.length + s'.toList.length + 1 := by omega
  have hfuel' : s'.toList.length < s.toList.length + s'.toList.length + 1 := by omega
  have hread : readText _ c = _ := readText_of_readsBack (hs tail) rfl hfuel
  have hread' : readText _ c = _ := readText_of_readsBack (hs' tail') h hfuel'
  obtain ⟨rfl, _⟩ := Prod.mk.inj (Except.ok.inj (hread.symm.trans hread'))
  exact ⟨rfl, List.append_cancel_left h⟩

theorem readsBack_escapeChar (cs : List Char) : ReadsBack escapeChar cs tail := fun a _ _ =>
  readsAs_escapeChar a (List.append_ne_nil_of_right_ne_nil _ (List.cons_ne_nil _ _))

theorem writeText_append_inj {s s' : String} {tail tail' : List Char}
    (h : writeText s ++ tail = writeText s' ++ tail') : s = s' ∧ tail = tail' :=
  quoted_append_inj (fun _ => readsBack_escapeChar _) (fun _ => readsBack_escapeChar _) h

theorem writeText_inj {s s' : String} (h : writeText s = writeText s') : s = s' :=
  (writeText_append_inj (congrArg (· ++ []) h)).1

end Characters

end DatasetCatalog.Json
