import DatasetCatalog.Inference.FieldInference
import DatasetCatalog.Proofs.Success
import DatasetCatalog.Proofs.Time.IsoText
import DatasetCatalog.Source.Execution
import Mathlib.Data.List.TakeWhile

/-!
# Dates that were handed on as texts

A source's dates and moments reach the inference of fields either as they are or as the texts
that execution makes of them. Such a text is long, has a hyphen behind the digits of its year and
nothing that stripping would take away, so it is a date and nothing else, and a column has the
same type in both forms.
-/

namespace DatasetCatalog

open Number Text Time

namespace Text

section Trimming
variable {p : Char → Bool} {cs : List Char}

theorem dropWhile_eq_self (h : ∀ c ∈ cs, p c = false) : cs.dropWhile p = cs :=
  List.dropWhile_eq_self_iff.mpr fun hl => by
    rw [h _ (List.getElem_mem hl)]
    exact Bool.false_ne_true

theorem dropEndWhile_eq_self (h : ∀ c ∈ cs, p c = false) : dropEndWhile p cs = cs := by
  rw [dropEndWhile, dropWhile_eq_self fun c hc => h c (List.mem_reverse.mp hc),
    List.reverse_reverse]

theorem strip_eq_self {s : String} (h : ∀ c ∈ s.toList, isBlank c = false) : strip s = s := by
  rw [strip, stripBlanks, dropWhile_eq_self h, dropEndWhile_eq_self h, String.ofList_toList]

theorem trimWhite_eq_self (h : ∀ c ∈ cs, isBlank c = false) : trimWhite cs = cs := by
  have hwhite : ∀ c ∈ cs, isWhite c = false := fun c hc => by
    rw [isWhite, h c hc, Bool.false_and]
  rw [trimWhite, dropWhile_eq_self hwhite, dropEndWhile_eq_self hwhite]

/-- No character disappears in lower case. -/
theorem length_le_lowerAfter (before cs : List Char) :
    cs.length ≤ (lowerAfter before cs).length := by
  induction cs generalizing before with
  | nil => exact Nat.le_refl _
  | cons c rest ih =>
    have hrest := ih (c :: before)
    rw [lowerAfter, List.length_append, List.length_cons]
    split
    · rw [List.length_singleton]
      omega
    · split
      · rw [List.length_cons, List.length_singleton]
        omega
      · rw [List.length_singleton]
        omega

end Trimming

end Text

namespace Number

theorem dropUnderscores?_eq_self {cs : List Char} (h : '_' ∉ cs) (afterDigit : Bool) :
    dropUnderscores? afterDigit cs = some cs := by
  induction cs generalizing afterDigit with
  | nil => rfl
  | cons c rest ih =>
    have hc : c ≠ '_' := fun hc => h (hc ▸ List.mem_cons_self)
    have hrest := ih (fun hmem => h (List.mem_cons_of_mem _ hmem)) c.isDigit
    rw [dropUnderscores?, hrest, Option.map_some]
    · intro _ _ hcons
      exact absurd hcons hc
    · intro hcons
      exact fun _ => absurd hcons hc

theorem toLower_of_isDigit {c : Char} (h : c.isDigit = true) : c.toLower = c := by
  have hdigit : c.val.toNat ≤ 57 := (toNat_of_isDigit h).2
  unfold Char.toLower
  rw [dif_neg]
  rintro ⟨hcapital, -⟩
  have hcapital : 65 ≤ c.val.toNat := hcapital
  omega

theorem asciiDigit_of_isDigit {c : Char} (h : c.isDigit = true) : asciiDigit c = c := by
  have hzero : '0'.toNat = 48 := rfl
  rw [asciiDigit, digitValue?_eq h]
  simp only [hzero]
  rw [Nat.add_sub_cancel' (toNat_of_isDigit h).1, Char.ofNat_toNat]

theorem readSign_of_isDigit {c : Char} (h : c.isDigit = true) (cs : List Char) :
    readSign (c :: cs) = (false, c :: cs) := by
  unfold readSign
  split
  · rename_i hcons
    cases hcons
    cases h
  · rename_i hcons
    cases hcons
    cases h
  · rfl

section Hyphen
variable {ds rest : List Char}

/-- Behind digits a hyphen is neither a point nor the mark of an exponent. -/
theorem readMagnitude?_hyphen (negative : Bool) (hdigits : ∀ c ∈ ds, c.isDigit = true)
    (hne : ds ≠ []) : readMagnitude? negative (ds ++ '-' :: rest) = none := by
  have hhyphen : ∀ c, ('-' :: rest).head? = some c → c.isDigit = false := by
    rintro c ⟨⟩
    rfl
  obtain ⟨htake, hdrop⟩ := takeWhile_digits hdigits hhyphen
  have hempty : ds.isEmpty = false := by simpa using hne
  have hparts : fractionParts ('-' :: rest) = ([], '-' :: rest) := rfl
  have hmark : readExponent? ('-' :: rest) = none := rfl
  rw [readMagnitude?_eq, decimal?]
  simp only [htake, hdrop, hparts, hempty, Bool.false_and, Bool.false_eq_true, if_false, hmark,
    Option.map_none]

/-- What begins with digits and a hyphen is no number, and none of the words for one. -/
theorem readPlain?_hyphen (hdigits : ∀ c ∈ ds, c.isDigit = true) (hne : ds ≠ []) :
    readPlain? (ds ++ '-' :: rest) = none := by
  have hmagnitude := @readMagnitude?_hyphen ds rest false hdigits hne
  obtain ⟨c, more, rfl⟩ := List.exists_cons_of_ne_nil hne
  have hc : c.isDigit = true := hdigits c List.mem_cons_self
  have hsign := readSign_of_isDigit hc (more ++ '-' :: rest)
  have hword : ∀ (word : String) (first : Char) (cs : List Char), word.toList = first :: cs →
      first.isDigit = false →
      (String.ofList ((c :: (more ++ '-' :: rest)).map Char.toLower) == word) = false := by
    intro word first cs hlist hfirst
    refine beq_false_of_ne fun heq => ?_
    rw [← heq, String.toList_ofList, List.map_cons, toLower_of_isDigit hc] at hlist
    rw [(List.cons.inj hlist).1, hfirst] at hc
    cases hc
  have hinf := hword "inf" 'i' _ rfl rfl
  have hinfinity := hword "infinity" 'i' _ rfl rfl
  have hnan := hword "nan" 'n' _ rfl rfl
  rw [List.cons_append] at hmagnitude ⊢
  simp only [readPlain?, hsign, hinf, hinfinity, hnan, Bool.or_self, Bool.false_eq_true, if_false,
    hmagnitude]

end Hyphen

end Number

namespace Inference

/-- A date of the calendar, or a moment of one. -/
inductive IsTemporal : Value → Prop
  | date {d : Date} (h : d.Valid) : IsTemporal (.date d)
  | moment {m : Moment} (h : m.Valid) : IsTemporal (.moment m)

/-- A cell that looks like a date and like nothing else. -/
structure OnlyDated (v : Value) : Prop where
  dated : looksDated v = true
  notBoolean : looksBoolean v = false
  notNumeric : looksNumeric v = .ok false

section Cells

theorem onlyDated_of_isTemporal {v : Value} (h : IsTemporal v) : OnlyDated v := by
  cases h <;> exact ⟨rfl, rfl, rfl⟩

theorem isBlank_of_isMomentChar {c : Char} (h : isMomentChar c = true) : isBlank c = false := by
  simp only [isMomentChar, Bool.or_eq_true, List.contains_iff_mem] at h
  rcases h with hdigit | hmark
  · have hbounds := toNat_of_isDigit hdigit
    simp only [isBlank, Bool.or_eq_false_iff, Bool.and_eq_false_imp, decide_eq_true_eq,
      decide_eq_false_iff_not, beq_eq_false_iff_ne]
    omega
  · simp only [List.mem_cons, List.not_mem_nil, or_false] at hmark
    rcases hmark with rfl | rfl | rfl | rfl | rfl <;> rfl

theorem asciiDigit_of_isMomentChar {c : Char} (h : isMomentChar c = true) : asciiDigit c = c := by
  simp only [isMomentChar, Bool.or_eq_true, List.contains_iff_mem] at h
  rcases h with hdigit | hmark
  · exact asciiDigit_of_isDigit hdigit
  · simp only [List.mem_cons, List.not_mem_nil, or_false] at hmark
    rcases hmark with rfl | rfl | rfl | rfl | rfl <;> rfl

variable {s : String} {year rest : List Char}

/-- None of the words for truth values is as long as a date. -/
theorem looksBoolean_of_long (h : 5 < (strip s).toList.length) :
    looksBoolean (.text s) = false := by
  have hlower : 5 < (lower (strip s)).toList.length := by
    rw [lower, String.toList_ofList]
    exact Nat.lt_of_lt_of_le h (length_le_lowerAfter [] _)
  have hwords : ∀ word ∈ booleanWords, word.toList.length ≤ 5 := by decide
  have hnot : lower (strip s) ∉ booleanWords := fun hmem => by
    have hshort := hwords _ hmem
    omega
  rw [looksBoolean, List.contains_eq_mem, decide_eq_false hnot]

theorem looksNumeric_of_hyphen (hchars : s.toList.all isMomentChar = true)
    (hyear : ∀ c ∈ year, c.isDigit = true) (hne : year ≠ [])
    (hs : s.toList = year ++ '-' :: rest) : looksNumeric (.text s) = .ok false := by
  have hchar := List.all_eq_true.mp hchars
  have hblank : ∀ c ∈ s.toList, isBlank c = false :=
    fun c hc => isBlank_of_isMomentChar (hchar c hc)
  have hdigits : s.toList.map asciiDigit = s.toList := by
    rw [List.map_congr_left fun c hc => asciiDigit_of_isMomentChar (hchar c hc), List.map_id']
  have hunderscore : '_' ∉ s.toList := fun hmem => absurd (hchar _ hmem) (by decide)
  have hread : readLenient? s = none := by
    rw [readLenient?, trimWhite_eq_self hblank, hdigits, dropUnderscores?_eq_self hunderscore, hs,
      Option.bind_some, readPlain?_hyphen hyear hne]
  rw [looksNumeric, strip_eq_self hblank, hread, Option.any_none]

/-- A text that begins as a date and is read as a moment is a date and nothing else. -/
theorem onlyDated_of_text (hchars : s.toList.all isMomentChar = true) {d : Date} (hd : d.Valid)
    (hs : s.toList = d.text.toList ++ rest) {m : Moment} (hread : Moment.ofIso? s = some m) :
    OnlyDated (.text s) := by
  have hchar := List.all_eq_true.mp hchars
  have hstrip : strip s = s := strip_eq_self fun c hc => isBlank_of_isMomentChar (hchar c hc)
  have hlength : 10 ≤ s.toList.length := by
    rw [hs, List.length_append, Date.length_text hd]
    omega
  refine ⟨?_, ?_, ?_⟩
  · have hlong : 8 < s.length := by
      rw [← String.length_toList]
      omega
    simp only [looksDated, isDateText, hstrip, hread, Option.isSome_some, Bool.true_or, hlong,
      decide_true, Bool.and_self]
  · exact looksBoolean_of_long (by rw [hstrip]; omega)
  · have hyear : d.year < 10 ^ 4 := Nat.lt_of_le_of_lt hd.2.1 (by omega)
    rw [Date.toList_text, List.append_assoc, List.cons_append] at hs
    exact looksNumeric_of_hyphen hchars (fun _ => isDigit_of_mem_padded)
      (padded_ne_nil 4 (by omega) hyear) hs

/-- Handing a date or moment on makes a text of it that is a date and nothing else. -/
theorem serialiseCell_isTemporal {v : Value} (h : IsTemporal v) :
    ∃ s, Source.serialiseCell v = .ok (.text s) ∧ OnlyDated (.text s) := by
  cases h with
  | @date d hd =>
    refine ⟨d.text, rfl, ?_⟩
    exact onlyDated_of_text (all_isMomentChar_date d) hd (List.append_nil _).symm
      (Date.momentOfIso?_text hd)
  | @moment m hm =>
    refine ⟨m.text, rfl, ?_⟩
    have htext : m.text.toList = m.date.text.toList ++ ("T".toList ++ m.clockText.toList ++
        ((m.offset.map offsetText).getD "").toList) := by
      simp only [Moment.text, Moment.textWith, String.toList_append, List.append_assoc]
    exact onlyDated_of_text (all_isMomentChar_text m) hm.date htext (Moment.ofIso?_text hm)

end Cells

section Columns
variable {cells : List Value}

/-- A column of nothing but dates is of type date, whatever forms the dates have. -/
theorem dataType_of_onlyDated (hne : cells ≠ []) (h : ∀ v ∈ cells, OnlyDated v) :
    dataType cells = .ok .date := by
  have hsniffed : ∀ v ∈ cells.take sniffLimit, OnlyDated v :=
    fun v hv => h v (List.mem_of_mem_take hv)
  have hpos : 0 < (cells.take sniffLimit).length := by
    rw [List.length_take]
    exact Nat.lt_min.mpr ⟨by decide, List.length_pos_of_ne_nil hne⟩
  unfold dataType
  generalize cells.take sniffLimit = sniffed at hsniffed hpos
  obtain ⟨v, rest, rfl⟩ := List.exists_cons_of_ne_nil (List.ne_nil_of_length_pos hpos)
  have hboolean : (v :: rest).all looksBoolean = false := by
    rw [List.all_cons, (hsniffed v List.mem_cons_self).notBoolean, Bool.false_and]
  obtain ⟨numeric, hnumeric⟩ := exists_mapM_of_forall fun w hw =>
    ⟨false, (hsniffed w hw).notNumeric⟩
  have hcount : numeric.count true = 0 := by
    refine List.count_eq_zero.mpr fun hmem => ?_
    obtain ⟨w, hw, htrue⟩ := exists_left_of_mem (forall₂_of_mapM hnumeric) hmem
    rw [(hsniffed w hw).notNumeric] at htrue
    cases htrue
  have hdated : (v :: rest).countP looksDated = (v :: rest).length :=
    List.countP_eq_length.mpr fun w hw => (hsniffed w hw).dated
  have hfew : isMajority 0 (v :: rest).length = false := decide_eq_false (by omega)
  have hmost : isMajority (v :: rest).length (v :: rest).length = true :=
    decide_eq_true (by omega)
  simp only [List.isEmpty_cons, hboolean, hnumeric, Bool.false_eq_true, if_false]
  show (if isMajority (numeric.count true) (v :: rest).length = true then _ else _) = _
  rw [hcount, hfew, if_neg Bool.false_ne_true, hdated, hmost]
  rfl

theorem exists_texts (h : ∀ v ∈ cells, IsTemporal v) :
    ∃ texts : List String, cells.mapM Source.serialiseCell = .ok (texts.map .text) ∧
      ∀ s ∈ texts, OnlyDated (.text s) := by
  induction cells with
  | nil => exact ⟨[], rfl, fun _ hs => absurd hs List.not_mem_nil⟩
  | cons v rest ih =>
    obtain ⟨s, hs, hdated⟩ := serialiseCell_isTemporal (h v List.mem_cons_self)
    obtain ⟨texts, htexts, hall⟩ := ih fun w hw => h w (List.mem_cons_of_mem _ hw)
    refine ⟨s :: texts, ?_, List.forall_mem_cons.mpr ⟨hdated, hall⟩⟩
    rw [List.mapM_cons, hs, htexts]
    rfl

/-- Dates and moments of all years, fractions and offsets stay dates when they are handed on: each
of the texts is recognised as a date and as nothing else, and the column has the type that the
values themselves give it. -/
theorem dates_stay_dates (hne : cells ≠ []) (h : ∀ v ∈ cells, IsTemporal v) :
    ∃ texts : List String, cells.mapM Source.serialiseCell = .ok (texts.map .text) ∧
      (∀ s ∈ texts, looksDated (.text s) = true ∧ looksBoolean (.text s) = false ∧
        looksNumeric (.text s) = .ok false) ∧
      dataType (texts.map .text) = .ok .date ∧ dataType cells = .ok .date := by
  obtain ⟨texts, htexts, hdated⟩ := exists_texts h
  refine ⟨texts, htexts, ?_, ?_, ?_⟩
  · exact fun s hs => ⟨(hdated s hs).dated, (hdated s hs).notBoolean, (hdated s hs).notNumeric⟩
  · refine dataType_of_onlyDated ?_ fun v hv => ?_
    · rintro hnil
      rw [List.map_eq_nil_iff.mp hnil] at htexts
      obtain ⟨v, rest, rfl⟩ := List.exists_cons_of_ne_nil hne
      cases forall₂_of_mapM htexts
    · obtain ⟨s, hs, rfl⟩ := List.mem_map.mp hv
      exact hdated s hs
  · exact dataType_of_onlyDated hne fun v hv => onlyDated_of_isTemporal (h v hv)

/-- The first year, the last microsecond of the calendar just west of a whole day, and an offset
of a microsecond. -/
theorem dates_stay_dates_at_the_limits :
    ∃ texts : List String,
      [Value.date ⟨1, 1, 1⟩,
        .moment ⟨⟨9999, 12, 31⟩, 23, 59, 59, 999999, some (-86399999999)⟩,
        .moment ⟨⟨2024, 2, 29⟩, 0, 0, 0, 0, some 1⟩].mapM Source.serialiseCell =
          .ok (texts.map .text) ∧
      (∀ s ∈ texts, looksDated (.text s) = true ∧ looksBoolean (.text s) = false ∧
        looksNumeric (.text s) = .ok false) ∧
      dataType (texts.map .text) = .ok .date ∧
      dataType [Value.date ⟨1, 1, 1⟩,
        .moment ⟨⟨9999, 12, 31⟩, 23, 59, 59, 999999, some (-86399999999)⟩,
        .moment ⟨⟨2024, 2, 29⟩, 0, 0, 0, 0, some 1⟩] = .ok .date := by
  have hlast : Moment.Valid ⟨⟨9999, 12, 31⟩, 23, 59, 59, 999999, some (-86399999999)⟩ :=
    ⟨by decide, by decide, by decide, by decide, by decide, fun o ho => by cases ho; decide⟩
  have hleap : Moment.Valid ⟨⟨2024, 2, 29⟩, 0, 0, 0, 0, some 1⟩ :=
    ⟨by decide, by decide, by decide, by decide, by decide, fun o ho => by cases ho; decide⟩
  refine dates_stay_dates (List.cons_ne_nil _ _) fun v hv => ?_
  simp only [List.mem_cons, List.not_mem_nil, or_false] at hv
  rcases hv with rfl | rfl | rfl
  · exact .date (by decide)
  · exact .moment hlast
  · exact .moment hleap

end Columns

end Inference

end DatasetCatalog
