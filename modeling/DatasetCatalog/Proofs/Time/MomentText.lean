import DatasetCatalog.Document.MomentText
import DatasetCatalog.Proofs.Number.DoubleText

/-!
# Moments in documents

A document writes the offset of a moment in hours and minutes. A moment whose offset has no more
than these reads back as it was, and every moment that is read from a text is of this kind.
-/

namespace DatasetCatalog

open Number Text

namespace Time

/-- A moment of calendar and clock whose offset has no seconds and is less than a day. -/
structure Moment.Proper (m : Moment) : Prop where
  date : m.date.Valid
  hour : m.hour < 24
  minute : m.minute < 60
  second : m.second < 60
  microsecond : m.microsecond < 1000000
  offset : ∀ o, m.offset = some o → ∃ minutes : Int, minutes.natAbs < 1440 ∧ o = minutes * 60000000

theorem Date.Valid.day_le {d : Date} (hd : d.Valid) : d.day ≤ 31 := by
  obtain ⟨_, _, _, _, _, hday⟩ := hd
  have hdays : daysInMonth d.year d.month ≤ 31 := by
    unfold daysInMonth
    split
    · split <;> omega
    · split <;> omega
  omega

section Digits
variable {width n : Nat}

theorem toList_padded (width n : Nat) : (padded width n).toList =
    List.replicate (width - (natText n).length) '0' ++ natText n := String.toList_ofList

theorem isDigit_of_mem_padded {c : Char} (h : c ∈ (padded width n).toList) : c.isDigit = true := by
  rw [toList_padded] at h
  exact isDigit_of_mem_zeros (fun _ => Json.isDigit_of_mem_natText) _ c h

theorem length_padded (hwidth : 0 < width) (hn : n < 10 ^ width) :
    (padded width n).toList.length = width := by
  have hlength := (Nat.length_toDigits_le_iff (by omega) hwidth).mpr hn
  rw [toList_padded, List.length_append, List.length_replicate]
  exact Nat.sub_add_cancel hlength

theorem padded_ne_nil (width : Nat) (hwidth : 0 < width) (hn : n < 10 ^ width) :
    (padded width n).toList ≠ [] :=
  List.ne_nil_of_length_pos (by rw [length_padded hwidth hn]; exact hwidth)

theorem digitsValue_padded (width n : Nat) : digitsValue (padded width n).toList = n := by
  rw [digitsValue_eq fun _ => isDigit_of_mem_padded, toList_padded, Nat.ofDigitChars_append,
    Nat.ofDigitChars_replicate_zero, Nat.mul_zero]
  exact Nat.ofDigitChars_ten_toDigits

theorem readDigits?_padded (width n : Nat) (hwidth : 0 < width) (hn : n < 10 ^ width)
    (rest : List Char) :
    readDigits? width ((padded width n).toList ++ rest) = some (n, rest) := by
  have htake : ((padded width n).toList ++ rest).take width = (padded width n).toList :=
    List.take_left' (length_padded hwidth hn)
  have hdrop : ((padded width n).toList ++ rest).drop width = rest :=
    List.drop_left' (length_padded hwidth hn)
  have hall : (padded width n).toList.all Char.isDigit = true :=
    List.all_eq_true.mpr fun _ => isDigit_of_mem_padded
  simp only [readDigits?, htake, hdrop, hall, length_padded hwidth hn, digitsValue_padded,
    beq_self_eq_true, Bool.and_self, if_true]

theorem digitsValue_lt {ds : List Char} (h : ∀ c ∈ ds, c.isDigit = true) :
    digitsValue ds < 10 ^ ds.length := by
  have hone : ∀ c ∈ ds, (digitValue? c).getD 0 ≤ 9 := by
    intro c hc
    have hlast := (toNat_of_isDigit (h c hc)).2
    have hzero : '0'.toNat = 48 := rfl
    rw [digitValue?_eq (h c hc), Option.getD_some]
    omega
  unfold digitsValue
  clear h
  induction ds using List.reverseRecOn with
  | nil => exact Nat.one_pos
  | append_singleton ds c ih =>
    have hds := ih fun c hc => hone c (List.mem_append_left _ hc)
    have hc := hone c (List.mem_append_right _ List.mem_cons_self)
    rw [List.foldl_append, List.foldl_cons, List.foldl_nil, List.length_append,
      List.length_singleton, Nat.pow_succ]
    omega

end Digits

end Time

namespace Document

open Time

section Writing

/-- The date of a text is found, whatever comes behind it. -/
theorem datePart?_text {d : Date} (hd : d.Valid) (rest : List Char) :
    datePart? (d.text.toList ++ rest) = some (d, rest) := by
  have hof : Date.of? d.year d.month d.day = some d := if_pos hd
  have hday := hd.day_le
  obtain ⟨_, hyear, _, hmonth, _, _⟩ := hd
  have hdash : "-".toList = ['-'] := rfl
  have hreadYear := readDigits?_padded 4 d.year (by omega) (by omega)
  have hreadMonth := readDigits?_padded 2 d.month (by omega) (by omega)
  have hreadDay := readDigits?_padded 2 d.day (by omega) (by omega)
  simp only [datePart?, Date.text, String.toList_append, List.append_assoc, hdash, hreadYear,
    hreadMonth, hreadDay, hof, List.cons_append, List.nil_append, skipHyphen?,
    Option.bind_eq_bind, Option.bind_some, Option.pure_def]

/-- The seconds of a text are found with their fraction, if no digit and no point follow. -/
theorem secondPart?_text {second microsecond : Nat} (hsecond : second < 60)
    (hmicrosecond : microsecond < 1000000) {rest : List Char}
    (hrest : ∀ c, rest.head? = some c → c.isDigit = false ∧ c ≠ '.' ∧ c ≠ ',') :
    secondPart? (':' :: ((padded 2 second).toList ++ ((fractionText microsecond).toList ++ rest))) =
      some (second, microsecond, rest) := by
  have hreadSecond := readDigits?_padded 2 second (by omega) (by omega)
  simp only [secondPart?, hreadSecond, Option.bind_eq_bind, Option.bind_some]
  unfold fractionText
  by_cases hzero : microsecond = 0
  · subst hzero
    cases rest with
    | nil => rfl
    | cons c rest =>
      obtain ⟨_, hpoint, hcomma⟩ := hrest c rfl
      simp [hpoint, hcomma]
  · have hdigits : ∀ c ∈ (padded 6 microsecond).toList, c.isDigit = true :=
      fun _ => isDigit_of_mem_padded
    have hlength : (padded 6 microsecond).toList.length = 6 :=
      length_padded (by omega) (by omega)
    obtain ⟨htake, hdrop⟩ := takeWhile_digits hdigits fun c hc => (hrest c hc).1
    have hpoint : ".".toList = ['.'] := rfl
    have hne : (padded 6 microsecond).toList.isEmpty = false := by
      simpa using padded_ne_nil 6 (by omega) hmicrosecond
    have hsix : (padded 6 microsecond).toList.take 6 = (padded 6 microsecond).toList :=
      List.take_of_length_le (Nat.le_of_eq hlength)
    have hrest' : ((padded 6 microsecond).toList ++ rest).drop 6 = rest :=
      List.drop_left' hlength
    simp [hzero, hpoint, htake, hne, hsix, hlength, hrest', digitsValue_padded]

/-- An offset of minutes is written with a sign, or as universal time. -/
theorem shortOffsetText_minutes (minutes : Int) : (shortOffsetText (minutes * 60000000)).toList =
    if minutes = 0 then ['Z']
    else (if minutes < 0 then '-' else '+') :: ((padded 2 (minutes.natAbs / 60)).toList ++
      ':' :: (padded 2 (minutes.natAbs % 60)).toList) := by
  have hseconds : (minutes * 60000000).fdiv 1000000 = minutes * 60 := by
    rw [Int.fdiv_eq_ediv_of_nonneg _ (by omega)]
    omega
  have hhours : (minutes * 60).natAbs / 3600 = minutes.natAbs / 60 := by omega
  have hrest : (minutes * 60).natAbs / 60 % 60 = minutes.natAbs % 60 := by omega
  unfold shortOffsetText
  rw [hseconds]
  simp only [hhours, hrest]
  by_cases hzero : minutes = 0
  · subst hzero
    rfl
  · have hne : (minutes * 60 == 0) = false := beq_false_of_ne (by omega)
    have hcolon : ":".toList = [':'] := rfl
    rw [hne, if_neg hzero]
    simp only [Bool.false_eq_true, if_false, String.toList_append, hcolon]
    by_cases hsign : minutes < 0
    · have hsign' : minutes * 60 < 0 := by omega
      rw [if_pos hsign, if_pos hsign']
      simp
    · have hsign' : ¬ minutes * 60 < 0 := by omega
      rw [if_neg hsign, if_neg hsign']
      simp

theorem offsetPart?_text {offset : Option Int}
    (h : ∀ o, offset = some o → ∃ minutes : Int, minutes.natAbs < 1440 ∧ o = minutes * 60000000) :
    offsetPart? ((offset.map shortOffsetText).getD "").toList = some offset := by
  cases offset with
  | none => rfl
  | some o =>
    obtain ⟨minutes, hday, rfl⟩ := h o rfl
    rw [Option.map_some, Option.getD_some, shortOffsetText_minutes]
    by_cases hzero : minutes = 0
    · subst hzero
      rfl
    · have hreadHour := readDigits?_padded 2 (minutes.natAbs / 60) (by omega)
        (by omega)
      have hreadMinute := readDigits?_padded 2 (minutes.natAbs % 60) (by omega)
        (by omega) []
      rw [List.append_nil] at hreadMinute
      have hhour : minutes.natAbs / 60 < 24 := by omega
      have hminute : minutes.natAbs % 60 < 60 := by omega
      rw [if_neg hzero]
      by_cases hsign : minutes < 0
      · simp [offsetPart?, hsign, hreadHour, hreadMinute, hhour, hminute, guard]
        rw [abs_of_neg hsign]
        omega
      · simp [offsetPart?, hsign, hreadHour, hreadMinute, hhour, hminute, guard]
        rw [abs_of_nonneg (not_lt.mp hsign)]
        omega

theorem head_shortOffsetText {offset : Option Int}
    (h : ∀ o, offset = some o → ∃ minutes : Int, minutes.natAbs < 1440 ∧ o = minutes * 60000000)
    {c : Char} (hc : ((offset.map shortOffsetText).getD "").toList.head? = some c) :
    c = 'Z' ∨ c = '+' ∨ c = '-' := by
  cases offset with
  | none => cases hc
  | some o =>
    obtain ⟨minutes, _, rfl⟩ := h o rfl
    rw [Option.map_some, Option.getD_some, shortOffsetText_minutes] at hc
    split at hc
    · exact .inl (Option.some.inj hc).symm
    · split at hc
      · exact .inr (.inr (Option.some.inj hc).symm)
      · exact .inr (.inl (Option.some.inj hc).symm)

/-- The text of a proper moment is read as that moment. -/
theorem momentText?_jsonText {m : Moment} (hm : m.Proper) :
    momentText? m.jsonText.toList = some m := by
  have hmark : "T".toList = ['T'] := rfl
  have hcolon : ":".toList = [':'] := rfl
  have hreadHour := readDigits?_padded 2 m.hour (by omega)
    (Nat.lt_trans hm.hour (by omega))
  have hreadMinute := readDigits?_padded 2 m.minute (by omega)
    (Nat.lt_trans hm.minute (by omega))
  have hhead : ∀ c, ((m.offset.map shortOffsetText).getD "").toList.head? = some c →
      c.isDigit = false ∧ c ≠ '.' ∧ c ≠ ',' := by
    intro c hc
    rcases head_shortOffsetText hm.offset hc with rfl | rfl | rfl <;> decide
  have hreadSecond := secondPart?_text hm.second hm.microsecond hhead
  simp only [momentText?, Moment.jsonText, Moment.clockText, String.toList_append,
    List.append_assoc, hmark, hcolon, datePart?_text hm.date, hreadHour, hreadMinute, hreadSecond,
    List.cons_append, List.nil_append, Option.bind_eq_bind, Option.bind_some, List.head?_cons,
    List.drop_succ_cons, List.drop_zero, offsetPart?_text hm.offset, hm.hour, hm.minute,
    hm.second, guard, decide_true, Bool.and_self, beq_self_eq_true, Bool.true_or, if_true,
    Option.pure_def]

theorem momentOfText_jsonText {m : Moment} (hm : m.Proper) :
    momentOfText m.jsonText = .ok m := by
  simp only [momentOfText, momentOrDate?, momentText?_jsonText hm, Option.some_or]

end Writing

section Reading

theorem date_valid_of_of? {year month day : Nat} {d : Date} (h : Date.of? year month day = some d) :
    d.Valid := by
  unfold Date.of? at h
  split at h
  · cases h
    assumption
  · cases h

theorem date_valid_of_ofDays? {days : Int} {d : Date} (h : Date.ofDays? days = some d) :
    d.Valid := by
  have hguarded : ∀ {c : Prop} [Decidable c] {year month day : Nat},
      (if c then Date.of? year month day else none) = some d → d.Valid := by
    intro c _ year month day hc
    split at hc
    · exact date_valid_of_of? hc
    · cases hc
  unfold Date.ofDays? at h
  exact hguarded h

theorem valid_of_datePart? {cs rest : List Char} {d : Date} (h : datePart? cs = some (d, rest)) :
    d.Valid := by
  simp only [datePart?, Option.bind_eq_bind, Option.bind_eq_some_iff, Option.pure_def,
    Option.some.injEq, Prod.mk.injEq] at h
  obtain ⟨_, _, _, _, _, _, _, _, _, _, d', hd', rfl, _⟩ := h
  exact date_valid_of_of? hd'

theorem lt_of_secondPart? {cs rest : List Char} {second microsecond : Nat}
    (h : secondPart? cs = some (second, microsecond, rest)) : microsecond < 1000000 := by
  unfold secondPart? at h
  split at h
  · simp only [Option.bind_eq_bind, Option.bind_eq_some_iff] at h
    obtain ⟨⟨n, rest'⟩, _, h⟩ := h
    split at h
    · rename_i mark more _
      split at h
      · split at h
        · cases h
        · simp only [Option.some.injEq, Prod.mk.injEq] at h
          obtain ⟨_, rfl, _⟩ := h
          have hdigits : ∀ c ∈ (more.takeWhile Char.isDigit).take 6, c.isDigit = true :=
            fun c hc => List.all_eq_true.mp List.all_takeWhile c (List.mem_of_mem_take hc)
          have hlt := digitsValue_lt hdigits
          have hlength : ((more.takeWhile Char.isDigit).take 6).length ≤ 6 := by
            rw [List.length_take]
            exact Nat.min_le_left _ _
          calc digitsValue ((more.takeWhile Char.isDigit).take 6) *
                Nat.pow 10 (6 - ((more.takeWhile Char.isDigit).take 6).length)
              < 10 ^ ((more.takeWhile Char.isDigit).take 6).length *
                10 ^ (6 - ((more.takeWhile Char.isDigit).take 6).length) :=
                Nat.mul_lt_mul_of_pos_right hlt (Nat.pow_pos (by omega))
            _ = 1000000 := by rw [← Nat.pow_add, Nat.add_sub_cancel' hlength]
      · cases h
        omega
    · cases h
      omega
  · cases h
    omega

theorem minutes_of_offsetPart? {cs : List Char} {offset : Option Int}
    (h : offsetPart? cs = some offset) :
    ∀ o, offset = some o → ∃ minutes : Int, minutes.natAbs < 1440 ∧ o = minutes * 60000000 := by
  unfold offsetPart? at h
  split at h
  · cases h
    exact fun o ho => by cases ho
  · cases h
    exact fun o ho => by cases ho; exact ⟨0, by omega, rfl⟩
  · cases h
    exact fun o ho => by cases ho; exact ⟨0, by omega, rfl⟩
  · simp only [Option.bind_eq_bind, Option.bind_eq_some_iff, Option.pure_def] at h
    obtain ⟨_, _, ⟨hour, _⟩, _, ⟨minute, _⟩, _, _, hbound, h⟩ := h
    simp only [Option.guard_eq_some', Bool.and_eq_true, decide_eq_true_eq] at hbound
    obtain ⟨⟨_, hminute⟩, hhour⟩ := hbound
    intro o ho
    subst ho
    have ho := Option.some.inj (Option.some.inj h)
    split at ho
    · exact ⟨hour * 60 + minute, by omega, by omega⟩
    · exact ⟨-(hour * 60 + minute), by omega, by omega⟩

theorem proper_of_momentText? {cs : List Char} {m : Moment} (h : momentText? cs = some m) :
    m.Proper := by
  simp only [momentText?, Option.bind_eq_bind, Option.bind_eq_some_iff] at h
  obtain ⟨⟨date, rest⟩, hdate, h⟩ := h
  split at h
  · simp only [Option.bind_eq_some_iff, Option.pure_def] at h
    obtain ⟨_, _, ⟨hour, _⟩, _, _, _, ⟨minute, _⟩, _, ⟨second, microsecond, _⟩, hsecond, offset,
      hoffset, _, hbound, h⟩ := h
    simp only [Option.guard_eq_some', Bool.and_eq_true, decide_eq_true_eq] at hbound
    obtain ⟨⟨hhour, hminute⟩, hsecond'⟩ := hbound
    cases h
    exact ⟨valid_of_datePart? hdate, hhour, hminute, hsecond', lt_of_secondPart? hsecond,
      minutes_of_offsetPart? hoffset⟩
  · cases h

theorem proper_ofDate {d : Date} (hd : d.Valid) : (Moment.ofDate d).Proper :=
  ⟨hd, Nat.zero_lt_succ _, Nat.zero_lt_succ _, Nat.zero_lt_succ _, Nat.zero_lt_succ _, nofun⟩

theorem proper_of_ofLocal? {microseconds : Int} {m : Moment}
    (h : Moment.ofLocal? (some 0) microseconds = some m) : m.Proper := by
  unfold Moment.ofLocal? at h
  obtain ⟨date, hdate, rfl⟩ := Option.map_eq_some_iff.mp h
  have hrest : (microseconds - microseconds.fdiv microsecondsPerDay * microsecondsPerDay).toNat <
      86400000000 := by
    have hday : microsecondsPerDay = 86400000000 := rfl
    rw [hday, Int.fdiv_eq_ediv_of_nonneg _ (by omega)]
    omega
  refine ⟨date_valid_of_ofDays? hdate, ?_, ?_, ?_, ?_, ?_⟩
  · simp only
    omega
  · exact Nat.mod_lt _ (by omega)
  · exact Nat.mod_lt _ (by omega)
  · exact Nat.mod_lt _ (by omega)
  · intro o ho
    cases ho
    exact ⟨0, by omega, rfl⟩

theorem proper_of_momentAt {seconds microseconds : Int} {m : Moment}
    (h : momentAt seconds microseconds = .ok m) : m.Proper := by
  unfold momentAt at h
  split at h
  · rename_i hlocal
    cases h
    exact proper_of_ofLocal? hlocal
  · split at h <;> cases h

theorem proper_of_momentNumber? {cs : List Char} {m : Moment}
    (h : momentNumber? cs = some (.ok m)) : m.Proper := by
  unfold momentNumber? at h
  simp only at h
  split at h
  · split at h
    · cases h
    · have hm := Option.some.inj h
      unfold momentOfInt at hm
      split at hm
      · exact proper_of_momentAt hm
      · exact proper_of_momentAt hm
  · obtain ⟨x, _, hm⟩ := Option.map_eq_some_iff.mp h
    unfold momentOfFloat at hm
    simp only at hm
    split at hm
    · split at hm
      · exact proper_of_momentAt hm
      · exact proper_of_momentAt hm
    · cases hm
  · cases h

/-- Whatever form a text has, a moment that it is read as is proper. -/
theorem proper_of_momentOfText {s : String} {m : Moment} (h : momentOfText s = .ok m) :
    m.Proper := by
  unfold momentOfText at h
  simp only at h
  split at h
  · rename_i hm
    cases h
    unfold momentOrDate? at hm
    rcases Option.or_eq_some_iff.mp hm with hm | ⟨_, hm⟩
    · exact proper_of_momentText? hm
    · split at hm
      · rename_i hdate
        cases hm
        exact proper_ofDate (valid_of_datePart? hdate)
      · cases hm
  · rename_i hm
    subst h
    exact proper_of_momentNumber? hm
  · split at h <;> cases h
  · cases h

end Reading

end Document

end DatasetCatalog
