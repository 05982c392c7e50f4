import DatasetCatalog.Proofs.Governance.Literals

/-!
# The limit of an accepted text

The limits of a text are those that stand outside of its literals, each as a word of its own. The
last of them is the one that an accepted text keeps to. It may stand in parentheses, and then
nothing bounds the statement around them.
-/

namespace DatasetCatalog.Governance

open Text

/-- The word, blanks, and a number written with these digits. -/
inductive SpellsLimit (digits : List Char) : List Char → Prop
  | mk {word blanks : List Char} (letters : word.map caseless = "limit".toList)
      (apart : blanks ≠ []) (blank : ∀ c ∈ blanks, isBlank c = true) (number : digits ≠ [])
      (decimal : ∀ c ∈ digits, isDecimal c = true) : SpellsLimit digits (word ++ blanks ++ digits)

/-- Code points of blanks and of the semicolon. -/
def marginCodes : List Nat :=
  [9, 10, 11, 12, 13, 28, 29, 30, 31, 32, 59, 0x85, 0xA0, 0x1680, 0x2000, 0x2001, 0x2002, 0x2003,
    0x2004, 0x2005, 0x2006, 0x2007, 0x2008, 0x2009, 0x200A, 0x2028, 0x2029, 0x202F, 0x205F, 0x3000]

section Reading

theorem toNat_mem_marginCodes {c : Char} (h : isMargin c = true) : c.toNat ∈ marginCodes := by
  rw [isMargin, Bool.or_eq_true, beq_iff_eq] at h
  rcases h with h | rfl
  · simp only [isBlank, Bool.or_eq_true, Bool.and_eq_true, decide_eq_true_eq, beq_iff_eq] at h
    simp only [marginCodes, List.mem_cons, List.not_mem_nil, or_false]
    rcases h with (((((((((h | h) | h) | h) | h) | h) | h) | h) | h) | h) | h <;> omega
  · decide

theorem not_isDecimal_of_isMargin {c : Char} (h : isMargin c = true) : isDecimal c = false := by
  have hall : ∀ n ∈ marginCodes, isDecimal (Char.ofNat n) = false := by decide
  rw [← Char.ofNat_toNat c]
  exact hall _ (toNat_mem_marginCodes h)

theorem not_isMargin_of_isDecimal {c : Char} (h : isDecimal c = true) : isMargin c = false := by
  rw [← Bool.not_eq_true]
  intro hmargin
  rw [not_isDecimal_of_isMargin hmargin] at h
  cases h

theorem splitWord?_eq_some {word cs read rest : List Char}
    (h : splitWord? word cs = some (read, rest)) :
    cs = read ++ rest ∧ read.map caseless = word := by
  fun_induction splitWord? word cs generalizing read rest with
  | case1 cs =>
    cases h
    exact ⟨rfl, rfl⟩
  | case2 => cases h
  | case3 w word c cs hc ih =>
    obtain ⟨⟨read', rest'⟩, hmore, hread⟩ := Option.map_eq_some_iff.mp h
    cases hread
    obtain ⟨rfl, rfl⟩ := ih hmore
    exact ⟨rfl, by rw [List.map_cons, beq_iff_eq.mp hc]⟩
  | case4 => cases h

theorem skipBlanks?_eq_some {cs rest : List Char} (h : skipBlanks? cs = some rest) :
    ∃ blanks, cs = blanks ++ rest ∧ blanks ≠ [] ∧ ∀ c ∈ blanks, isBlank c = true := by
  unfold skipBlanks? at h
  split_ifs at h with hblank
  cases h
  refine ⟨cs.takeWhile isBlank, List.takeWhile_append_dropWhile.symm, ?_,
    fun _ => List.mem_takeWhile_imp⟩
  cases cs with
  | nil => cases hblank
  | cons c cs =>
    have hc : isBlank c = true := hblank
    rw [List.takeWhile_cons_of_pos hc]
    exact List.cons_ne_nil _ _

/-- The digits of a limit are read up to where they end. -/
theorem limitDigitsAt?_eq_some_iff {cs digits : List Char} :
    limitDigitsAt? cs = some digits ↔ ∃ limit after, cs = limit ++ after ∧
      SpellsLimit digits limit ∧ ∀ c ∈ after.head?, isDecimal c = false := by
  constructor
  · intro h
    unfold limitDigitsAt? at h
    obtain ⟨⟨word, rest⟩, hword, h⟩ := Option.bind_eq_some_iff.mp h
    obtain ⟨number, hnumber, h⟩ := Option.bind_eq_some_iff.mp h
    obtain ⟨hempty, hdigits⟩ := Option.ite_none_left_eq_some.mp h
    cases hdigits
    obtain ⟨rfl, letters⟩ := splitWord?_eq_some hword
    obtain ⟨blanks, rfl, apart, blank⟩ := skipBlanks?_eq_some hnumber
    refine ⟨_, number.dropWhile isDecimal, ?_, .mk letters apart blank (by simpa using hempty)
      fun _ => List.mem_takeWhile_imp, fun c hc => ?_⟩
    · rw [List.append_assoc, List.append_assoc, List.takeWhile_append_dropWhile]
    · have hstop := List.head?_dropWhile_not isDecimal number
      rw [Option.mem_def.mp hc] at hstop
      simpa using hstop
  · rintro ⟨_, after, rfl, ⟨letters, apart, blank, number, decimal⟩, hafter⟩
    obtain ⟨d, digits, rfl⟩ := List.exists_cons_of_ne_nil number
    have hd : isMargin d = false := not_isMargin_of_isDecimal (decimal d List.mem_cons_self)
    have hdigits : (d :: digits ++ after).takeWhile isDecimal = d :: digits := by
      rw [List.takeWhile_append_of_pos decimal]
      cases after with
      | nil => rw [List.takeWhile_nil, List.append_nil]
      | cons c after => rw [List.takeWhile_cons_of_neg (by simp [hafter c rfl]), List.append_nil]
    rw [limitDigitsAt?, List.append_assoc, List.append_assoc, splitWord?_append letters]
    simp only [Option.bind_eq_bind, Option.bind_some]
    rw [skipBlanks?_append apart blank rfl hd, Option.bind_some, hdigits]
    rfl

/-- The last limit that is found: no other one begins behind it. -/
theorem exists_last_limit {cs digits : List Char} {afterWord : Bool}
    (h : ((wordStarts afterWord cs).filterMap limitDigitsAt?).getLast? = some digits) :
    ∃ before rest, cs = before ++ rest ∧ (before.getLast?.map isWord).getD afterWord = false ∧
      limitDigitsAt? rest = some digits ∧
      ∀ more rest', rest = more ++ rest' → more ≠ [] → endsWithWord more = false →
        limitDigitsAt? rest' = none := by
  induction cs generalizing afterWord with
  | nil => cases h
  | cons c cs ih =>
    rw [wordStarts, List.filterMap_append, List.getLast?_append] at h
    cases hbehind : ((wordStarts (isWord c) cs).filterMap limitDigitsAt?).getLast? with
    | some digits' =>
      rw [hbehind, Option.some_or] at h
      obtain ⟨before, rest, rfl, hword, hdigits, hlast⟩ := ih (hbehind.trans h)
      refine ⟨c :: before, rest, rfl, ?_, hdigits, hlast⟩
      rw [List.getLast?_cons]
      cases hend : before.getLast? <;> simpa [hend] using hword
    | none =>
      rw [hbehind, Option.none_or] at h
      rw [List.getLast?_eq_none_iff, List.filterMap_eq_nil_iff] at hbehind
      cases afterWord with
      | true => cases h
      | false =>
        refine ⟨[], c :: cs, rfl, rfl, ?_, fun more rest' hrest hmore hword => ?_⟩
        · cases hhere : limitDigitsAt? (c :: cs) with
          | none => simp [hhere] at h
          | some digits' => simpa [hhere] using h
        · rcases List.cons_eq_append_iff.mp hrest with ⟨hnil, -⟩ | ⟨more', rfl, rfl⟩
          · exact absurd hnil hmore
          by_cases hrest' : rest' = []
          · rw [hrest']
            rfl
          · refine hbehind rest' (mem_wordStarts hrest' more' ?_)
            rw [endsWithWord, List.getLast?_cons] at hword
            cases hend : more'.getLast? <;> simpa [hend] using hword

/-- The last limit of an accepted text is not too high. -/
theorem exists_last_digits_of_accepted {sql : String} {maxRows : Int}
    (accepted : sqlViolations sql maxRows = .ok []) :
    ∃ digits, ((wordStarts false (normalStatement sql)).filterMap limitDigitsAt?).getLast? =
      some digits ∧ (digitsValue digits : Int) ≤ maxRows := by
  obtain ⟨limit, hlimit, h⟩ := bind_eq_ok accepted
  have hnil := Except.ok.inj h
  simp only [List.append_eq_nil_iff, Option.toList_eq_nil_iff] at hnil
  obtain ⟨-, rfl⟩ := hnil
  obtain ⟨ns, hns, hlast⟩ := bind_eq_ok hlimit
  cases hn : ns.getLast? with
  | none =>
    rw [hn] at hlast
    cases hlast
  | some n =>
    rw [hn] at hlast
    have hbound : ¬ maxRows < n := by
      intro hhigh
      simp only [if_pos hhigh] at hlast
      cases hlast
    have hread := congrArg List.getLast? (map_eq_of_mapM hns)
    rw [List.getLast?_map, List.getLast?_map, hn, Option.map_some, Option.map_eq_some_iff] at hread
    obtain ⟨digits, hdigits, hvalue⟩ := hread
    refine ⟨digits, hdigits, ?_⟩
    split_ifs at hvalue
    obtain rfl := Except.ok.inj hvalue
    exact Int.not_lt.mp hbound

end Reading

/-- How many parentheses outside of literals are open behind these characters. -/
def depth (ms : List (Char × Bool)) : Int := ms.count ('(', false) - ms.count (')', false)

/-- Behind `before`, a limit of `n` stands outside of literals, as a word of its own. -/
def StandsLimit (sql : String) (before : List (Char × Bool)) (n : Nat) : Prop :=
  ∃ digits limit after, SpellsLimit digits limit ∧ digitsValue digits = n ∧
    markLiterals false sql.toList = before ++ limit.map (·, false) ++ after ∧
    endsWithWord (before.map Prod.fst) = false ∧
    ∀ c ∈ (after.map Prod.fst).head?, isDecimal c = false

section Limits
variable {digits limit : List Char}

/-- A limit neither begins nor ends with a margin, and no quote is in it. -/
theorem SpellsLimit.exists_ends (h : SpellsLimit digits limit) :
    (∃ c, limit.head? = some c ∧ isMargin c = false) ∧
      (∃ c, limit.getLast? = some c ∧ isMargin c = false) ∧ '\'' ∉ limit := by
  obtain ⟨letters, apart, blank, number, decimal⟩ := h
  rename_i word blanks
  have hlimit : IsKeywordWord "limit".toList := ⟨by decide, List.all_eq_true.mp (by decide)⟩
  obtain ⟨c, hc, hmargin⟩ := (exists_ends_of_letters hlimit letters).1
  have hlast := not_isMargin_of_isDecimal (decimal _ (List.getLast_mem number))
  refine ⟨⟨c, ?_, hmargin⟩, ⟨_, ?_, hlast⟩, ?_⟩
  · rw [List.append_assoc, List.head?_append, hc, Option.some_or]
  · rw [List.getLast?_append, List.getLast?_eq_some_getLast number, Option.some_or]
  · rw [List.mem_append, List.mem_append, not_or, not_or]
    refine ⟨⟨fun hword => ?_, quote_not_mem blank⟩, fun hdigit => ?_⟩
    · have hletter := List.mem_map_of_mem (f := caseless) hword
      rw [letters] at hletter
      revert hletter
      decide
    · exact absurd (decimal _ hdigit) (by decide)

theorem SpellsLimit.ne_nil (h : SpellsLimit digits limit) : limit ≠ [] := by
  obtain ⟨⟨c, hc, -⟩, -⟩ := h.exists_ends
  rintro rfl
  cases hc

/-- No word ends before a limit that is shown if none ends there in the text. -/
theorem not_endsWithWord_veil {b : List (Char × Bool)}
    (h : endsWithWord (b.map Prod.fst) = false) : endsWithWord (veil false b) = false := by
  rw [endsWithWord] at h ⊢
  cases hlast : (veil false b).getLast? with
  | none => rfl
  | some c =>
    rw [Option.map_some, Option.getD_some]
    by_cases hc : c = '\''
    · subst hc
      decide
    · obtain ⟨p, hp⟩ := List.getLast?_eq_some_iff.mp hlast
      obtain ⟨b', a, rfl, -, ha⟩ := exists_of_veil_eq hc hp
      obtain rfl := eq_nil_of_veil_eq_nil ha
      simpa using h

/-- No word ends before a character outside of literals if none ends where it is shown. -/
theorem not_endsWithWord_of_veil {cs : List Char} {b a : List (Char × Bool)} {c : Char}
    (hmarks : markLiterals false cs = b ++ (c, false) :: a)
    (h : endsWithWord (veil false b) = false) : endsWithWord (b.map Prod.fst) = false := by
  rcases List.eq_nil_or_concat' b with rfl | ⟨b', ⟨d, mark⟩, rfl⟩
  · rfl
  rw [endsWithWord, List.map_append, List.map_singleton, List.getLast?_concat]
  cases mark with
  | true =>
    rw [List.append_assoc, List.singleton_append] at hmarks
    rw [eq_quote_of_last_mark hmarks]
    decide
  | false =>
    rw [veil_append, endsWithWord, veil, List.getLast?_concat] at h
    exact h

/-- Where no digit follows what is shown, none follows in the text. -/
theorem not_isDecimal_of_veil {cs : List Char} {b a : List (Char × Bool)} {c : Char}
    (hmarks : markLiterals false cs = b ++ (c, false) :: a)
    (h : ∀ d ∈ (veil false a).head?, isDecimal d = false) :
    ∀ d ∈ (a.map Prod.fst).head?, isDecimal d = false := by
  intro d hd
  rcases a with - | ⟨⟨e, mark⟩, a⟩
  · cases hd
  cases hd
  cases mark with
  | true =>
    rw [eq_quote_of_first_mark hmarks]
    decide
  | false => exact h e (by rw [veil_shown]; rfl)

theorem not_isDecimal_veil {a : List (Char × Bool)}
    (h : ∀ d ∈ (a.map Prod.fst).head?, isDecimal d = false) :
    ∀ d ∈ (veil false a).head?, isDecimal d = false := by
  intro d hd
  rcases a with - | ⟨⟨e, mark⟩, a⟩
  · cases hd
  cases mark with
  | true =>
    rw [veil_begun, List.head?_cons, Option.mem_some_iff] at hd
    rw [← hd]
    decide
  | false =>
    rw [veil_shown, List.head?_cons, Option.mem_some_iff] at hd
    exact h d (by rw [← hd]; rfl)

/-- Margins are no words. -/
theorem not_isWord_of_isMargin {c : Char} (h : isMargin c = true) : isWord c = false := by
  have hall : ∀ n ∈ marginCodes, isWord (Char.ofNat n) = false := by decide +kernel
  rw [← Char.ofNat_toNat c]
  exact hall _ (toNat_mem_marginCodes h)

theorem endsWithWord_append {l : List Char} (hl : ∀ c ∈ l, isBlank c = true) (p : List Char) :
    endsWithWord (l ++ p) = endsWithWord p := by
  rw [endsWithWord, endsWithWord, List.getLast?_append]
  cases p.getLast? with
  | some c => rfl
  | none =>
    cases hlast : l.getLast? with
    | none => rfl
    | some c =>
      have hmargin : isMargin c = true := by
        rw [isMargin, hl c (List.mem_of_getLast? hlast), Bool.true_or]
      exact not_isWord_of_isMargin hmargin

variable {sql : String} {l e : List Char}

/-- The rules see every limit, with nothing of a word before it. -/
theorem StandsLimit.exists_in_statement {before : List (Char × Bool)} {n : Nat}
    (h : StandsLimit sql before n)
    (hstatement : blankLiterals sql.toList = l ++ normalStatement sql ++ e)
    (hl : ∀ c ∈ l, isBlank c = true) (he : ∀ c ∈ e, isMargin c = true) :
    ∃ p rest, normalStatement sql = p ++ rest ∧ l ++ p = veil false before ∧
      endsWithWord p = false ∧ limitDigitsAt? rest ≠ none := by
  obtain ⟨digits, limit, after, hlimit, -, hmarks, hword, hafter⟩ := h
  obtain ⟨⟨c, first, hc⟩, ⟨d, last, hd⟩, -⟩ := hlimit.exists_ends
  have hshown : l ++ (normalStatement sql ++ e) =
      veil false before ++ (limit ++ veil false after) := by
    rw [← List.append_assoc, ← hstatement, blankLiterals_eq_veil, hmarks,
      veil_append_plain hlimit.ne_nil, List.append_assoc]
  have hblank : isBlank c = false := (Bool.or_eq_false_iff.mp hc).1
  have hfirst : (limit ++ veil false after).head? = some c := by
    rw [List.head?_append, first, Option.some_or]
  obtain ⟨p, hp, hinner⟩ := exists_behind_margin hl hfirst hblank hshown
  have hlast : (p ++ limit).getLast? = some d := by
    rw [List.getLast?_append, last, Option.some_or]
  rw [← List.append_assoc] at hinner
  obtain ⟨s, hs, hwithin⟩ := exists_before_margin he hlast hd hinner
  rw [List.append_assoc] at hwithin
  refine ⟨p, limit ++ s, hwithin, hp.symm, ?_, ?_⟩
  · rw [← endsWithWord_append hl, ← hp]
    exact not_endsWithWord_veil hword
  · have hdigits : limitDigitsAt? (limit ++ s) = some digits := by
      refine limitDigitsAt?_eq_some_iff.mpr ⟨limit, s, rfl, hlimit, fun c hc => ?_⟩
      apply not_isDecimal_veil hafter
      rw [hs, List.head?_append, Option.mem_def.mp hc, Option.some_or]
      rfl
    rw [hdigits]
    exact Option.some_ne_none _

/-- Whatever the rules take for a limit is one. -/
theorem exists_standsLimit {p rest digits : List Char}
    (hstatement : blankLiterals sql.toList = l ++ normalStatement sql ++ e)
    (hl : ∀ c ∈ l, isBlank c = true) (he : ∀ c ∈ e, isMargin c = true)
    (hrest : normalStatement sql = p ++ rest) (hword : endsWithWord p = false)
    (hdigits : limitDigitsAt? rest = some digits) :
    ∃ before, StandsLimit sql before (digitsValue digits) ∧ veil false before = l ++ p := by
  obtain ⟨limit, s, rfl, hlimit, hstop⟩ := limitDigitsAt?_eq_some_iff.mp hdigits
  have hshown : veil false (markLiterals false sql.toList) = l ++ p ++ limit ++ (s ++ e) := by
    rw [← blankLiterals_eq_veil, hstatement, hrest]
    simp only [List.append_assoc]
  obtain ⟨b, a, hmarks, hb, ha⟩ :=
    exists_plain_of_veil_eq hlimit.ne_nil hlimit.exists_ends.2.2 hshown
  refine ⟨b, ⟨digits, limit, a, hlimit, rfl, hmarks, ?_, ?_⟩, hb⟩
  · obtain ⟨c, rest, rfl⟩ := List.exists_cons_of_ne_nil hlimit.ne_nil
    rw [List.append_assoc, List.map_cons, List.cons_append] at hmarks
    apply not_endsWithWord_of_veil hmarks
    rw [hb, endsWithWord_append hl, hword]
  · rcases List.eq_nil_or_concat' limit with rfl | ⟨start, c, rfl⟩
    · exact absurd rfl hlimit.ne_nil
    rw [List.map_append, List.map_singleton, ← List.append_assoc, List.append_assoc,
      List.singleton_append] at hmarks
    apply not_isDecimal_of_veil hmarks
    intro d hd
    rw [ha, List.head?_append] at hd
    cases hhead : s.head? with
    | some d' =>
      rw [hhead] at hd
      exact hstop d (hhead.trans hd)
    | none =>
      rw [hhead, Option.none_or] at hd
      exact not_isDecimal_of_isMargin (he d (List.mem_of_mem_head? hd))

/-- Of two limits, the later one stands behind the first letter of the other. -/
theorem StandsLimit.exists_between {before before' : List (Char × Bool)} {n m : Nat}
    (h : StandsLimit sql before n) (h' : StandsLimit sql before' m)
    (hbehind : before.length < before'.length) : ∃ c z, before' = before ++ (c, false) :: z := by
  obtain ⟨digits, limit, after, hlimit, -, hmarks, -⟩ := h
  obtain ⟨digits', limit', after', -, -, hmarks', -⟩ := h'
  obtain ⟨c, rest, rfl⟩ := List.exists_cons_of_ne_nil hlimit.ne_nil
  rw [hmarks, List.append_assoc, List.append_assoc] at hmarks'
  rcases List.append_eq_append_iff.mp hmarks' with ⟨z, rfl, hz⟩ | ⟨z, rfl, -⟩
  · rw [List.map_cons, List.cons_append] at hz
    rcases List.cons_eq_append_iff.mp hz with ⟨rfl, -⟩ | ⟨z', rfl, -⟩
    · simp at hbehind
    · exact ⟨c, z', rfl⟩
  · rw [List.length_append] at hbehind
    omega

/-- Outside of its literals an accepted text has a limit that is not too high, and no limit behind
that one. If behind each limit in parentheses there is one outside of parentheses, this limit is
outside of parentheses, too. -/
theorem accepted_sql_keeps_to_last_limit {maxRows : Int}
    (accepted : sqlViolations sql maxRows = .ok []) :
    ∃ before n, StandsLimit sql before n ∧ (n : Int) ≤ maxRows ∧
      (∀ before' m, StandsLimit sql before' m → before'.length ≤ before.length) ∧
      ((∀ inner m, StandsLimit sql inner m → depth inner ≠ 0 →
          ∃ outer k, StandsLimit sql outer k ∧ inner.length < outer.length ∧ depth outer = 0) →
        depth before = 0) := by
  obtain ⟨digits, hread, hbound⟩ := exists_last_digits_of_accepted accepted
  obtain ⟨p, rest, hrest, hword, hdigits, hlast⟩ := exists_last_limit hread
  obtain ⟨l, e, hstatement, hl, he⟩ := exists_normalStatement sql
  obtain ⟨before, hstands, hbefore⟩ := exists_standsLimit hstatement hl he hrest hword hdigits
  have hnone : ∀ before' m, StandsLimit sql before' m → before'.length ≤ before.length := by
    intro before' m hm
    by_contra hbehind
    obtain ⟨c, z, rfl⟩ := hstands.exists_between hm (Nat.lt_of_not_le hbehind)
    obtain ⟨p', rest', hrest', hp', hword', hfound⟩ := hm.exists_in_statement hstatement hl he
    rw [veil_append, hbefore, List.append_assoc, List.append_cancel_left_eq] at hp'
    subst hp'
    rw [hrest, List.append_assoc, List.append_cancel_left_eq] at hrest'
    refine hfound (hlast _ rest' hrest' (List.cons_ne_nil _ _) ?_)
    rw [endsWithWord, List.getLast?_append_of_ne_nil _ (List.cons_ne_nil _ _)] at hword'
    exact hword'
  refine ⟨before, _, hstands, hbound, hnone, fun houter => ?_⟩
  by_contra hdepth
  obtain ⟨outer, k, hk, hbehind, -⟩ := houter before _ hstands hdepth
  exact absurd (hnone outer k hk) (Nat.not_le.mpr hbehind)

theorem StandsLimit.exists_place {before : List (Char × Bool)} {n : Nat}
    (h : StandsLimit sql before n) :
    ∃ k ≤ sql.toList.length, before = (markLiterals false sql.toList).take k ∧
      limitDigitsAt? (sql.toList.drop k) ≠ none := by
  obtain ⟨digits, limit, after, hlimit, -, hmarks, -, hafter⟩ := h
  have htext : sql.toList = before.map Prod.fst ++ (limit ++ after.map Prod.fst) := by
    rw [← map_fst_markLiterals false sql.toList, hmarks]
    simp [Function.comp_def]
  refine ⟨before.length, ?_, ?_, ?_⟩
  · rw [htext, List.length_append, List.length_map]
    omega
  · rw [hmarks, List.append_assoc, List.take_left]
  · rw [htext, List.drop_left' (List.length_map _),
      limitDigitsAt?_eq_some_iff.mpr ⟨limit, _, rfl, hlimit, hafter⟩]
    exact Option.some_ne_none _

theorem accepted_sql_keeps_to_outer_limit :
    let sql := "SELECT '(' FROM (SELECT a LIMIT 5) LIMIT 3"
    sqlViolations sql 4 = .ok [] ∧
      ∃ before n, StandsLimit sql before n ∧ (n : Int) ≤ 4 ∧ depth before = 0 := by
  intro sql
  have accepted : sqlViolations sql 4 = .ok [] := by decide +kernel
  obtain ⟨before, n, hstands, hbound, -, hdepth⟩ := accepted_sql_keeps_to_last_limit accepted
  have houter : StandsLimit sql ((markLiterals false sql.toList).take 35) 3 := by
    have hlimit : SpellsLimit ['3'] ("LIMIT".toList ++ [' '] ++ ['3']) :=
      .mk (by decide +kernel) (by decide) (List.forall_mem_singleton.mpr (by decide)) (by decide)
        (List.forall_mem_singleton.mpr (by decide))
    exact ⟨_, _, [], hlimit, by decide, by decide +kernel, by decide +kernel,
      fun _ hnone => by cases hnone⟩
  have hplaces : ∀ k ≤ sql.toList.length, limitDigitsAt? (sql.toList.drop k) ≠ none →
      depth ((markLiterals false sql.toList).take k) ≠ 0 →
      ((markLiterals false sql.toList).take k).length <
        ((markLiterals false sql.toList).take 35).length := by decide +kernel
  refine ⟨accepted, before, n, hstands, hbound, hdepth fun inner m hinner hwithin => ?_⟩
  obtain ⟨k, hk, rfl, hfound⟩ := hinner.exists_place
  exact ⟨_, 3, houter, hplaces k hk hfound hwithin, by decide +kernel⟩

/-- The last limit of a text may stand in a subquery, and the text is accepted though nothing bounds
the outer statement. -/
theorem accepted_sql_may_be_unbounded :
    let sql := "SELECT region FROM (SELECT region FROM sales LIMIT 5) s"
    sqlViolations sql 1000 = .ok [] ∧
      ∀ before n, StandsLimit sql before n → depth before ≠ 0 := by
  intro sql
  refine ⟨by decide +kernel, fun before n hstands => ?_⟩
  obtain ⟨k, hk, rfl, hfound⟩ := hstands.exists_place
  have hplaces : ∀ k ≤ sql.toList.length, limitDigitsAt? (sql.toList.drop k) ≠ none →
      depth ((markLiterals false sql.toList).take k) ≠ 0 := by decide +kernel
  exact hplaces k hk hfound

end Limits

end DatasetCatalog.Governance
