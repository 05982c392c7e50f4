import DatasetCatalog.Proofs.Time.MomentText

/-!
# Dates and moments read back

What is written of a date or of a moment is read as that date or moment, whatever the year, the
fraction of the second and the offset. Only an offset of less than a second is lost: such a
moment is read as one of universal time.
-/

namespace DatasetCatalog.Time

open Number Text

/-- A moment of calendar and clock whose offset, to the microsecond, is less than a day. -/
structure Moment.Valid (m : Moment) : Prop where
  date : m.date.Valid
  hour : m.hour < 24
  minute : m.minute < 60
  second : m.second < 60
  microsecond : m.microsecond < 1000000
  offset : ∀ o, m.offset = some o → o.natAbs < 86400000000

/-- What is read of an offset: a fraction of a second counts only beside whole seconds. -/
def offsetRead (offset : Int) : Int := if offset.natAbs < 1000000 then 0 else offset

section Clock
variable {followed colons : Bool} {parts : List Nat} {left n microsecond : Nat}

theorem readParts?_last (hn : n < 100) :
    readParts? followed colons parts (left + 1) (padded 2 n).toList =
      some ⟨(n :: parts).reverse, 0, followed⟩ := by
  have hread := readDigits?_padded 2 n (by omega) hn []
  rw [List.append_nil] at hread
  simp only [readParts?, hread, Option.bind_eq_bind, Option.bind_some]

/-- Behind a part and a colon the next part is read; the first colon decides that there are any. -/
theorem readParts?_colon (hn : n < 100) (hcolons : left = 2 ∨ colons = true) {more : List Char}
    (hmore : more ≠ []) :
    readParts? followed colons parts (left + 1) ((padded 2 n).toList ++ ':' :: more) =
      readParts? followed true (n :: parts) left more := by
  have hread := readDigits?_padded 2 n (by omega) hn (':' :: more)
  have hinUse : (if left == 2 then (':' :: more).head? == some ':' else colons) = true := by
    rcases hcolons with rfl | rfl
    · rfl
    · rw [List.head?_cons, beq_self_eq_true, ite_self]
  obtain ⟨c, cs, rfl⟩ := List.exists_cons_of_ne_nil hmore
  simp only [readParts?, hread, hinUse, Option.bind_eq_bind, Option.bind_some, beq_self_eq_true,
    Bool.and_self, if_true]

theorem readFraction?_padded (hmicrosecond : microsecond < 1000000) :
    readFraction? parts followed (padded 6 microsecond).toList =
      some ⟨parts.reverse, microsecond, followed⟩ := by
  have hlength : (padded 6 microsecond).toList.length = 6 := length_padded (by omega) hmicrosecond
  have hread := readDigits?_padded 6 microsecond (by omega) hmicrosecond []
  rw [List.append_nil] at hread
  simp only [readFraction?, hlength, Nat.min_self, hread, Option.map_some, Nat.sub_self,
    Nat.pow_eq, Nat.pow_zero, Nat.mul_one, List.dropWhile_nil, List.isEmpty_nil, Bool.not_true,
    Bool.false_or]

theorem readParts?_fraction (hn : n < 100) (hmicrosecond : microsecond < 1000000) :
    readParts? followed colons parts (left + 1)
        ((padded 2 n).toList ++ (fractionText microsecond).toList) =
      some ⟨(n :: parts).reverse, microsecond, followed⟩ := by
  unfold fractionText
  by_cases hzero : microsecond = 0
  · subst hzero
    rw [beq_self_eq_true, if_pos rfl, String.toList_empty, List.append_nil]
    exact readParts?_last hn
  · have hpoint : ("." ++ padded 6 microsecond).toList = '.' :: (padded 6 microsecond).toList := by
      rw [String.toList_append]
      rfl
    rw [beq_false_of_ne hzero, if_neg Bool.false_ne_true, hpoint]
    have hread := readDigits?_padded 2 n (by omega) hn ('.' :: (padded 6 microsecond).toList)
    have hfraction : readFraction? (n :: parts) followed (padded 6 microsecond).toList =
        some ⟨(n :: parts).reverse, microsecond, followed⟩ := readFraction?_padded hmicrosecond
    obtain ⟨c, cs, hcs⟩ := List.exists_cons_of_ne_nil (padded_ne_nil 6 (by omega) hmicrosecond)
    rw [hcs] at hread hfraction ⊢
    simp [readParts?, hread, hfraction]

theorem readClock?_minutes {hour minute : Nat} (hhour : hour < 100) (hminute : minute < 100) :
    readClock? followed ((padded 2 hour).toList ++ ':' :: (padded 2 minute).toList) =
      some ⟨[hour, minute], 0, followed⟩ := by
  rw [readClock?, readParts?_colon hhour (.inl rfl) (padded_ne_nil 2 (by omega) hminute),
    readParts?_last hminute]
  rfl

theorem readClock?_seconds {hour minute second : Nat} (hhour : hour < 100) (hminute : minute < 100)
    (hsecond : second < 100) (hmicrosecond : microsecond < 1000000) :
    readClock? followed ((padded 2 hour).toList ++ ':' :: ((padded 2 minute).toList ++
        ':' :: ((padded 2 second).toList ++ (fractionText microsecond).toList))) =
      some ⟨[hour, minute, second], microsecond, followed⟩ := by
  have hlast : (padded 2 second).toList ++ (fractionText microsecond).toList ≠ [] :=
    List.append_ne_nil_of_left_ne_nil (padded_ne_nil 2 (by omega) hsecond) _
  rw [readClock?, readParts?_colon hhour (.inl rfl)
      (List.append_ne_nil_of_left_ne_nil (padded_ne_nil 2 (by omega) hminute) _),
    readParts?_colon hminute (.inr rfl) hlast, readParts?_fraction hsecond hmicrosecond]
  rfl

end Clock

section Offset
variable {offset : Int}

/-- The clock of an offset without its sign. -/
def offsetClock (offset : Int) : String :=
  let seconds := offset.natAbs / 1000000
  let sub := offset.natAbs % 1000000
  padded 2 (seconds / 3600) ++ ":" ++ padded 2 (seconds / 60 % 60) ++
    (if seconds % 60 == 0 && sub == 0 then ""
      else ":" ++ padded 2 (seconds % 60) ++ fractionText sub)

theorem toList_offsetText : (offsetText offset).toList =
    (if offset < 0 then '-' else '+') :: (offsetClock offset).toList := by
  have happend : offsetText offset = (if offset < 0 then "-" else "+") ++ offsetClock offset := by
    simp only [offsetText, offsetClock, String.append_assoc]
  rw [happend, String.toList_append]
  split <;> rfl

/-- The clock is read as its seconds and the fraction, whether or not these are written. -/
theorem readClock?_offsetClock (hoffset : offset.natAbs < 86400000000) :
    ∃ clock, readClock? false (offsetClock offset).toList = some clock ∧ clock.extra = false ∧
      (clock.part 0 * 60 + clock.part 1) * 60 + clock.part 2 = offset.natAbs / 1000000 ∧
      clock.microsecond = offset.natAbs % 1000000 := by
  have hcolon : ":".toList = [':'] := rfl
  unfold offsetClock
  simp only
  generalize offset.natAbs = n at hoffset
  -- the seconds are left out where they and the fraction are zero
  have hhour : n / 1000000 / 3600 < 100 := by omega
  have hminute : n / 1000000 / 60 % 60 < 100 := by omega
  have hsecond : n / 1000000 % 60 < 100 := by omega
  by_cases hwhole : n / 1000000 % 60 = 0 ∧ n % 1000000 = 0
  · obtain ⟨hzero, hsub⟩ := hwhole
    refine ⟨⟨[n / 1000000 / 3600, n / 1000000 / 60 % 60], 0, false⟩, ?_, rfl, ?_, hsub.symm⟩
    · simp only [hzero, hsub, beq_self_eq_true, Bool.and_self, if_true, String.toList_append,
        hcolon, String.toList_empty, List.append_nil, List.append_assoc, List.singleton_append]
      exact readClock?_minutes hhour hminute
    · simp only [Clock.part, List.getElem?_cons_zero, List.getElem?_cons_succ, List.getElem?_nil,
        Option.getD_some, Option.getD_none]
      omega
  · have hshown : (n / 1000000 % 60 == 0 && n % 1000000 == 0) = false := by
      simpa using hwhole
    refine ⟨⟨[n / 1000000 / 3600, n / 1000000 / 60 % 60, n / 1000000 % 60], n % 1000000, false⟩,
      ?_, rfl, ?_, rfl⟩
    · simp only [hshown, Bool.false_eq_true, if_false, String.toList_append, hcolon,
        List.append_assoc, List.singleton_append]
      exact readClock?_seconds hhour hminute hsecond (Nat.mod_lt _ (by omega))
    · simp only [Clock.part, List.getElem?_cons_zero, List.getElem?_cons_succ, Option.getD_some]
      omega

theorem readOffset?_offsetClock (hoffset : offset.natAbs < 86400000000) :
    readOffset? ((if offset < 0 then '-' else '+') == '-') (offsetClock offset).toList =
      some (offsetRead offset) := by
  obtain ⟨clock, hread, hextra, hseconds, hsub⟩ := readClock?_offsetClock hoffset
  have hsign : ((if offset < 0 then '-' else '+') == '-') = decide (offset < 0) := by
    by_cases hneg : offset < 0 <;> simp [hneg]
  have hvalue : (if (offset.natAbs / 1000000 == 0) = true then 0
      else offset.natAbs / 1000000 * 1000000 + offset.natAbs % 1000000) =
      if offset.natAbs < 1000000 then 0 else offset.natAbs := by
    by_cases hsmall : offset.natAbs < 1000000
    · rw [Nat.div_eq_of_lt hsmall, beq_self_eq_true, if_pos rfl, if_pos hsmall]
    · have hne : (offset.natAbs / 1000000 == 0) = false := beq_false_of_ne (by omega)
      rw [hne, if_neg Bool.false_ne_true, if_neg hsmall]
      omega
  simp only [readOffset?, hread, Option.bind_eq_bind, Option.bind_some, hextra, hseconds, hsub,
    hvalue, hsign, Bool.false_or]
  unfold offsetRead
  by_cases hsmall : offset.natAbs < 1000000
  · simp [hsmall]
  · have hbound : ¬ 86400000000 ≤ offset.natAbs := by omega
    simp only [hsmall, if_false, hbound, decide_false, Bool.false_eq_true, Option.some.injEq,
      decide_eq_true_eq]
    omega

end Offset

section Characters

/-- The characters that moments are written with. -/
def isMomentChar (c : Char) : Bool := c.isDigit || ['-', '+', ':', '.', 'T'].contains c

/-- Those of a time of day. -/
def isClockChar (c : Char) : Bool := c.isDigit || c == ':' || c == '.'

theorem isMomentChar_of_isClockChar {c : Char} (h : isClockChar c = true) :
    isMomentChar c = true := by
  simp only [isClockChar, Bool.or_eq_true, beq_iff_eq] at h
  rcases h with (hdigit | rfl) | rfl
  · rw [isMomentChar, hdigit, Bool.true_or]
  · rfl
  · rfl

theorem isOffsetSign_of_isClockChar {c : Char} (h : isClockChar c = true) :
    isOffsetSign c = false := by
  simp only [isClockChar, Bool.or_eq_true, beq_iff_eq] at h
  rcases h with (hdigit | rfl) | rfl
  · have hplus : c ≠ '+' := by rintro rfl; cases hdigit
    have hminus : c ≠ '-' := by rintro rfl; cases hdigit
    simp [isOffsetSign, hplus, hminus]
  · rfl
  · rfl

theorem all_isClockChar_padded (width n : Nat) :
    (padded width n).toList.all isClockChar = true :=
  List.all_eq_true.mpr fun c hc => by rw [isClockChar, isDigit_of_mem_padded hc]; rfl

theorem all_isClockChar_fractionText (microsecond : Nat) :
    (fractionText microsecond).toList.all isClockChar = true := by
  have hpoint : ".".toList.all isClockChar = true := rfl
  unfold fractionText
  split
  · rfl
  · rw [String.toList_append, List.all_append, hpoint, all_isClockChar_padded, Bool.and_self]

theorem all_isClockChar_clockText (m : Moment) : m.clockText.toList.all isClockChar = true := by
  have hcolon : ":".toList.all isClockChar = true := rfl
  simp only [Moment.clockText, String.toList_append, List.all_append, hcolon,
    all_isClockChar_padded, all_isClockChar_fractionText, Bool.and_self]

theorem all_isClockChar_offsetClock (offset : Int) :
    (offsetClock offset).toList.all isClockChar = true := by
  have hcolon : ":".toList.all isClockChar = true := rfl
  have hempty : "".toList.all isClockChar = true := rfl
  simp only [offsetClock, String.toList_append, List.all_append, all_isClockChar_padded, hcolon,
    Bool.true_and]
  split
  · exact hempty
  · simp only [String.toList_append, List.all_append, hcolon, all_isClockChar_padded,
      all_isClockChar_fractionText, Bool.and_self]

theorem all_isMomentChar_of_clock {cs : List Char} (h : cs.all isClockChar = true) :
    cs.all isMomentChar = true :=
  List.all_eq_true.mpr fun c hc => isMomentChar_of_isClockChar (List.all_eq_true.mp h c hc)

theorem all_isMomentChar_date (d : Date) : d.text.toList.all isMomentChar = true := by
  have hdash : "-".toList.all isMomentChar = true := rfl
  have hdigits : ∀ width n, (padded width n).toList.all isMomentChar = true :=
    fun width n => all_isMomentChar_of_clock (all_isClockChar_padded width n)
  simp only [Date.text, String.toList_append, List.all_append, hdash, hdigits, Bool.and_self]

theorem all_isMomentChar_offset (offset : Option Int) :
    ((offset.map offsetText).getD "").toList.all isMomentChar = true := by
  cases offset with
  | none => rfl
  | some o =>
    rw [Option.map_some, Option.getD_some, toList_offsetText, List.all_cons,
      all_isMomentChar_of_clock (all_isClockChar_offsetClock o), Bool.and_true]
    split <;> rfl

theorem all_isMomentChar_text (m : Moment) : m.text.toList.all isMomentChar = true := by
  have hmark : "T".toList.all isMomentChar = true := rfl
  simp only [Moment.text, Moment.textWith, String.toList_append, List.all_append, hmark,
    all_isMomentChar_date, all_isMomentChar_of_clock (all_isClockChar_clockText m),
    all_isMomentChar_offset, Bool.and_self]

/-- Universal time is written with digits, so there is no `Z` to be replaced. -/
theorem spellZulu_of_isMomentChar {cs : List Char} (h : cs.all isMomentChar = true) :
    spellZulu cs = cs := by
  have hsame : ∀ c ∈ cs, (if (c == 'Z') = true then ['+', '0', '0', ':', '0', '0'] else [c]) =
      [c] := by
    intro c hc
    have hne : c ≠ 'Z' := by
      rintro rfl
      exact absurd (List.all_eq_true.mp h _ hc) (by decide)
    rw [if_neg (by simpa using hne)]
  rw [spellZulu, List.flatMap_congr hsame, List.flatMap_singleton']

end Characters

section Reading
variable {d : Date} {rest : List Char}

theorem Date.toList_text (d : Date) : d.text.toList = (padded 4 d.year).toList ++
    '-' :: ((padded 2 d.month).toList ++ '-' :: (padded 2 d.day).toList) := by
  have hdash : "-".toList = ['-'] := rfl
  simp only [Date.text, String.toList_append, hdash, List.append_assoc, List.cons_append,
    List.nil_append]

/-- A number is no week's mark. -/
theorem exists_padded_cons (width n : Nat) (hwidth : 0 < width) (hn : n < 10 ^ width) :
    ∃ c cs, (padded width n).toList = c :: cs ∧ c ≠ 'W' := by
  obtain ⟨c, cs, hcs⟩ := List.exists_cons_of_ne_nil (padded_ne_nil width hwidth hn)
  refine ⟨c, cs, hcs, ?_⟩
  rintro rfl
  have hdigit : 'W'.isDigit = true :=
    isDigit_of_mem_padded (by rw [hcs]; exact List.mem_cons_self)
  cases hdigit

theorem Date.length_text (hd : d.Valid) : d.text.toList.length = 10 := by
  have hday := hd.day_le
  obtain ⟨_, hyear, _, hmonth, _, _⟩ := hd
  simp only [Date.toList_text, List.length_append, List.length_cons,
    length_padded (by omega : 0 < 4) (by omega : d.year < 10 ^ 4),
    length_padded (by omega : 0 < 2) (by omega : d.month < 10 ^ 2),
    length_padded (by omega : 0 < 2) (by omega : d.day < 10 ^ 2)]

theorem dateLength_text (hd : d.Valid) : dateLength (d.text.toList ++ rest) = some 10 := by
  have hlength : ((d.text.toList ++ rest).length == 7) = false :=
    beq_false_of_ne (by rw [List.length_append, Date.length_text hd]; omega)
  obtain ⟨_, hyear, _, hmonth, _, _⟩ := hd
  have hfour := length_padded (by omega : 0 < 4) (by omega : d.year < 10 ^ 4)
  obtain ⟨c, cs, hcs, hweek⟩ := exists_padded_cons 2 d.month (by omega) (by omega)
  have hhyphen : (d.text.toList ++ rest)[4]? = some '-' := by
    rw [Date.toList_text, List.append_assoc, List.getElem?_append_right (by omega), hfour]
    rfl
  have hmark : (d.text.toList ++ rest)[5]? = some c := by
    rw [Date.toList_text, List.append_assoc, List.getElem?_append_right (by omega), hfour, hcs]
    rfl
  have hdays : (some c == some 'W') = false := beq_false_of_ne fun h => hweek (Option.some.inj h)
  simp only [dateLength, hlength, hhyphen, hmark, hdays, beq_self_eq_true, Bool.false_eq_true,
    if_true, if_false]

theorem readDate?_text (hd : d.Valid) : readDate? 10 (d.text.toList ++ rest) = some d := by
  have hof : Date.of? d.year d.month d.day = some d := if_pos hd
  have hday := hd.day_le
  obtain ⟨_, hyear, _, hmonth, _, _⟩ := hd
  have hreadYear := readDigits?_padded 4 d.year (by omega) (by omega)
  have hreadMonth := readDigits?_padded 2 d.month (by omega) (by omega)
  have hreadDay := readDigits?_padded 2 d.day (by omega) (by omega)
  obtain ⟨c, cs, hcs, hweek⟩ := exists_padded_cons 2 d.month (by omega) (by omega)
  rw [hcs] at hreadMonth
  simp only [readDate?, Date.toList_text, List.append_assoc, List.cons_append, hreadYear, hcs,
    List.head?_cons, beq_self_eq_true, skipHyphen?, Option.bind_eq_bind, Option.bind_some]
  split
  · rename_i heq
    exact absurd (List.cons.inj heq).1 hweek
  · rw [← List.cons_append, hreadMonth]
    simp only [Option.bind_some, hreadDay, hof]

/-- The text of a date is read as that date's midnight. -/
theorem Date.momentOfIso?_text (hd : d.Valid) : Moment.ofIso? d.text = some (Moment.ofDate d) := by
  have hlength := @dateLength_text d [] hd
  have hdate := @readDate?_text d [] hd
  rw [List.append_nil] at hlength hdate
  have hdrop : d.text.toList.drop 10 = [] := List.drop_of_length_le (Date.length_text hd).le
  simp only [Moment.ofIso?, spellZulu_of_isMomentChar (all_isMomentChar_date d), hlength, hdate,
    hdrop, Option.bind_eq_bind, Option.bind_some]

theorem readClock?_clockText {m : Moment} (hm : m.Valid) (followed : Bool) :
    readClock? followed m.clockText.toList =
      some ⟨[m.hour, m.minute, m.second], m.microsecond, followed⟩ := by
  have hcolon : ":".toList = [':'] := rfl
  have hhour : m.hour < 100 := Nat.lt_trans hm.hour (by omega)
  have hminute : m.minute < 100 := Nat.lt_trans hm.minute (by omega)
  have hsecond : m.second < 100 := Nat.lt_trans hm.second (by omega)
  simp only [Moment.clockText, String.toList_append, hcolon, List.append_assoc, List.cons_append,
    List.nil_append]
  exact readClock?_seconds hhour hminute hsecond hm.microsecond

theorem readTime?_text {m : Moment} (hm : m.Valid) :
    readTime? m.date (m.clockText.toList ++ ((m.offset.map offsetText).getD "").toList) =
      some { m with offset := m.offset.map offsetRead } := by
  have hclock := readClock?_clockText hm
  -- the first sign parts the clock from the offset, as the clock has none
  have hsigns : ∀ c ∈ m.clockText.toList, (!isOffsetSign c) = true := fun c hc => by
    rw [isOffsetSign_of_isClockChar (List.all_eq_true.mp (all_isClockChar_clockText m) c hc),
      Bool.not_false]
  rw [readTime?, List.takeWhile_append_of_pos hsigns, List.dropWhile_append_of_pos hsigns]
  obtain ⟨date, hour, minute, second, microsecond, offset⟩ := m
  cases offset with
  | none =>
    simp only [Option.map_none, Option.getD_none, String.toList_empty, List.takeWhile_nil,
      List.dropWhile_nil, List.append_nil, hclock, Option.bind_eq_bind, Option.bind_some,
      List.isEmpty_nil, Bool.not_true, Bool.false_eq_true, if_false]
    exact if_pos (by simpa [Clock.part] using ⟨⟨hm.hour, hm.minute⟩, hm.second⟩)
  | some o =>
    have hsign : isOffsetSign (if o < 0 then '-' else '+') = true := by split <;> rfl
    have htake : ((if o < 0 then '-' else '+') :: (offsetClock o).toList).takeWhile
        (!isOffsetSign ·) = [] := List.takeWhile_cons_of_neg (by simp [hsign])
    have hdrop : ((if o < 0 then '-' else '+') :: (offsetClock o).toList).dropWhile
        (!isOffsetSign ·) = (if o < 0 then '-' else '+') :: (offsetClock o).toList :=
      List.dropWhile_cons_of_neg (by simp [hsign])
    simp only [Option.map_some, Option.getD_some, toList_offsetText, htake, hdrop,
      List.append_nil, hclock, readOffset?_offsetClock (hm.offset o rfl), Option.bind_eq_bind,
      Option.bind_some]
    exact if_pos (by simpa [Clock.part] using ⟨⟨hm.hour, hm.minute⟩, hm.second⟩)

/-- The text of a moment is read as that moment, but for an offset under a second. -/
theorem Moment.ofIso?_text {m : Moment} (hm : m.Valid) :
    Moment.ofIso? m.text = some { m with offset := m.offset.map offsetRead } := by
  have hmark : "T".toList = ['T'] := rfl
  have htext : m.text.toList = m.date.text.toList ++ 'T' ::
      (m.clockText.toList ++ ((m.offset.map offsetText).getD "").toList) := by
    simp only [Moment.text, Moment.textWith, String.toList_append, hmark, List.append_assoc,
      List.cons_append, List.nil_append]
  rw [Moment.ofIso?, spellZulu_of_isMomentChar (all_isMomentChar_text m), htext]
  simp only [dateLength_text hm.date, readDate?_text hm.date,
    List.drop_left' (Date.length_text hm.date), readTime?_text hm, Option.bind_eq_bind,
    Option.bind_some]

end Reading

end DatasetCatalog.Time
