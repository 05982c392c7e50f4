import Mathlib
import DatasetCatalog.Governance.SqlSafety
import DatasetCatalog.Proofs.Governance.QuotedParts
import DatasetCatalog.Proofs.Success

/-!
# Free SQL that is accepted

An accepted text is one reading statement by the quoting rules of SQL, if no single quote stands
in a quoted name: outside quotes it has no write keyword, no comment, and no semicolon with more
text behind it. A single quote in a quoted name is taken for the beginning of a literal, and such
a text may hide another statement.
-/

namespace DatasetCatalog.Governance

open Text

def endsWithWord (cs : List Char) : Bool := (cs.getLast?.map isWord).getD false

/-- Characters that stand for the words of a keyword, in any case and with blanks between words. -/
inductive Spells : List (List Char) → List Char → Prop
  | word {word cs : List Char} (letters : cs.map caseless = word) : Spells [word] cs
  | words {word cs blanks rest : List Char} {more : List (List Char)}
      (letters : cs.map caseless = word) (apart : blanks ≠ [])
      (blank : ∀ c ∈ blanks, isBlank c = true) (others : Spells more rest) :
      Spells (word :: more) (cs ++ blanks ++ rest)

section Statement

/-- Blanks and semicolons are not looked at around a statement. -/
def isMargin (c : Char) : Bool := isBlank c || c == ';'

theorem exists_dropEndWhile (p : Char → Bool) (cs : List Char) :
    ∃ e, cs = dropEndWhile p cs ++ e ∧ ∀ c ∈ e, p c = true :=
  ⟨cs.rtakeWhile p, List.rdropWhile_append_rtakeWhile.symm, fun _ => List.mem_rtakeWhile_imp⟩

theorem exists_stripBlanks (cs : List Char) :
    ∃ l e, cs = l ++ stripBlanks cs ++ e ∧ (∀ c ∈ l, isBlank c = true) ∧
      ∀ c ∈ e, isBlank c = true := by
  obtain ⟨e, he, hblank⟩ := exists_dropEndWhile isBlank (cs.dropWhile isBlank)
  refine ⟨cs.takeWhile isBlank, e, ?_, fun _ => List.mem_takeWhile_imp, hblank⟩
  rw [List.append_assoc, stripBlanks, ← he, List.takeWhile_append_dropWhile]

theorem quote_not_mem {cs : List Char} (h : ∀ c ∈ cs, isBlank c = true) : '\'' ∉ cs := by
  intro hmem
  exact absurd (h _ hmem) (by decide)

/-- The rules look at the blanked text, but for its margins. -/
theorem exists_normalStatement (sql : String) :
    ∃ l e, blankLiterals sql.toList = l ++ normalStatement sql ++ e ∧
      (∀ c ∈ l, isBlank c = true) ∧ ∀ c ∈ e, isMargin c = true := by
  obtain ⟨l, t, hsql, hl, ht⟩ := exists_stripBlanks sql.toList
  obtain ⟨e₁, h₁, he₁⟩ := exists_dropEndWhile isBlank (blankLiterals (stripBlanks sql.toList))
  obtain ⟨e₂, h₂, he₂⟩ := exists_dropEndWhile (· == ';')
    (dropEndWhile isBlank (blankLiterals (stripBlanks sql.toList)))
  obtain ⟨e₃, h₃, he₃⟩ := exists_dropEndWhile isBlank (dropEndWhile (· == ';')
    (dropEndWhile isBlank (blankLiterals (stripBlanks sql.toList))))
  refine ⟨l, e₃ ++ e₂ ++ e₁ ++ t, ?_, hl, ?_⟩
  · have hblanked : blankLiterals (stripBlanks sql.toList) =
        normalStatement sql ++ e₃ ++ e₂ ++ e₁ := by
      rw [normalStatement, ← h₃, ← h₂, ← h₁]
    calc blankLiterals sql.toList
        = blankLiterals (l ++ stripBlanks sql.toList ++ t) := congrArg _ hsql
      _ = l ++ blankLiterals (stripBlanks sql.toList) ++ t := by
        rw [blankLiterals_append_end (quote_not_mem ht), blankLiterals_append (quote_not_mem hl)]
      _ = l ++ normalStatement sql ++ (e₃ ++ e₂ ++ e₁ ++ t) := by
        rw [hblanked]
        simp only [List.append_assoc]
  · simp only [List.mem_append, isMargin, Bool.or_eq_true]
    rintro c (((hc | hc) | hc) | hc)
    · exact .inl (he₃ c hc)
    · exact .inr (he₂ c hc)
    · exact .inl (he₁ c hc)
    · exact .inl (ht c hc)

/-- What does not begin with a margin begins behind the margin. -/
theorem exists_behind_margin {p : Char → Bool} {l x before cs : List Char} {c : Char}
    (hl : ∀ d ∈ l, p d = true) (first : cs.head? = some c) (hc : p c = false)
    (h : l ++ x = before ++ cs) : ∃ before', before = l ++ before' ∧ x = before' ++ cs := by
  rcases List.append_eq_append_iff.mp h with ⟨y, hbefore, hx⟩ | ⟨y, hy, hcs⟩
  · exact ⟨y, hbefore, hx⟩
  cases y with
  | nil => exact ⟨[], by simpa using hy.symm, by simpa using hcs.symm⟩
  | cons d y =>
    obtain rfl : d = c := by simpa [hcs] using first
    rw [hl d (by simp [hy])] at hc
    cases hc

/-- What does not end with a margin ends before the margin. -/
theorem exists_before_margin {p : Char → Bool} {x e cs after : List Char} {c : Char}
    (he : ∀ d ∈ e, p d = true) (last : cs.getLast? = some c) (hc : p c = false)
    (h : x ++ e = cs ++ after) : ∃ after', after = after' ++ e ∧ x = cs ++ after' := by
  rcases List.append_eq_append_iff.mp h with ⟨y, hcs, hy⟩ | ⟨y, hx, hafter⟩
  · rcases List.eq_nil_or_concat y with rfl | ⟨y, d, rfl⟩
    · exact ⟨[], by simpa using hy.symm, by simpa using hcs.symm⟩
    · obtain rfl : d = c := by simpa [hcs, ← List.append_assoc] using last
      rw [he d (by simp [hy])] at hc
      cases hc
  · exact ⟨y, hafter, hx⟩

end Statement

section Keywords

/-- Small ASCII letters, at least one. -/
def IsKeywordWord (word : List Char) : Prop := word ≠ [] ∧ ∀ c ∈ word, c.isLower = true

theorem isKeywordWord_of_mem {keyword : List (List Char)} (hk : keyword ∈ writeKeywords) :
    ∀ word ∈ keyword, IsKeywordWord word := by
  have hall : (writeKeywords.all fun keyword =>
      keyword.all fun word => !word.isEmpty && word.all Char.isLower) = true := by decide
  intro word hword
  have hone := List.all_eq_true.mp (List.all_eq_true.mp hall keyword hk) word hword
  rw [Bool.and_eq_true, Bool.not_eq_true', List.isEmpty_eq_false_iff, List.all_eq_true] at hone
  exact hone

theorem isAlpha_of_isLower_toLower {c : Char} (h : c.toLower.isLower = true) :
    c.isAlpha = true := by
  unfold Char.toLower at h
  split at h
  · next hupper => rw [Char.isAlpha, Char.isUpper, decide_eq_true hupper, Bool.true_or]
  · rw [Char.isAlpha, h, Bool.or_true]

theorem not_isMargin_of_isAlpha {c : Char} (h : c.isAlpha = true) : isMargin c = false := by
  have hnat : 65 ≤ c.toNat ∧ c.toNat ≤ 90 ∨ 97 ≤ c.toNat ∧ c.toNat ≤ 122 := by
    simp only [Char.isAlpha, Char.isUpper, Char.isLower, Bool.or_eq_true, Bool.and_eq_true,
      decide_eq_true_eq, ge_iff_le, UInt32.le_iff_toNat_le] at h
    exact h
  have hsemicolon : c ≠ ';' := by
    rintro rfl
    exact absurd hnat (by decide)
  have hblank : isBlank c = false := by
    simp only [isBlank, Bool.or_eq_false_iff, Bool.and_eq_false_imp, decide_eq_false_iff_not,
      decide_eq_true_eq, beq_eq_false_iff_ne]
    omega
  rw [isMargin, hblank, Bool.false_or, beq_eq_false_iff_ne]
  exact hsemicolon

theorem not_isMargin_of_letter {c : Char} (h : (caseless c).isLower = true) :
    isMargin c = false := by
  unfold caseless at h
  split_ifs at h with hi hs hk
  · rcases (Bool.or_eq_true _ _).mp hi with hi | hi <;> rw [beq_iff_eq.mp hi] <;> decide
  · rw [beq_iff_eq.mp hs]
    decide
  · rw [beq_iff_eq.mp hk]
    decide
  · exact not_isMargin_of_isAlpha (isAlpha_of_isLower_toLower h)

/-- What stands for a word neither begins nor ends with a margin. -/
theorem exists_ends_of_letters {word cs : List Char} (hw : IsKeywordWord word)
    (letters : cs.map caseless = word) :
    (∃ c, cs.head? = some c ∧ isMargin c = false) ∧
      ∃ c, cs.getLast? = some c ∧ isMargin c = false := by
  subst letters
  have hcs : cs ≠ [] := fun h => hw.1 (by rw [h, List.map_nil])
  have hletter : ∀ c ∈ cs, isMargin c = false := fun c hc =>
    not_isMargin_of_letter (hw.2 _ (List.mem_map_of_mem hc))
  exact ⟨⟨_, List.head?_eq_some_head hcs, hletter _ (List.head_mem hcs)⟩,
    _, List.getLast?_eq_some_getLast hcs, hletter _ (List.getLast_mem hcs)⟩

theorem splitWord?_append {word cs : List Char} (letters : cs.map caseless = word)
    (rest : List Char) : splitWord? word (cs ++ rest) = some (cs, rest) := by
  subst letters
  induction cs with
  | nil => rfl
  | cons c cs ih =>
    rw [List.map_cons, List.cons_append, splitWord?, if_pos (beq_self_eq_true _), ih]
    rfl

theorem skipBlanks?_append {blanks rest : List Char} {c : Char} (apart : blanks ≠ [])
    (blank : ∀ d ∈ blanks, isBlank d = true) (hc : rest.head? = some c)
    (hmargin : isMargin c = false) : skipBlanks? (blanks ++ rest) = some rest := by
  obtain ⟨d, blanks, rfl⟩ := List.exists_cons_of_ne_nil apart
  have hd : isBlank d = true := blank d List.mem_cons_self
  have hrest : rest.dropWhile isBlank = rest := by
    have hblank : isBlank c = false := (Bool.or_eq_false_iff.mp hmargin).1
    cases rest with
    | nil => rfl
    | cons e rest =>
      obtain rfl : e = c := Option.some.inj hc
      rw [List.dropWhile_cons_of_neg (by simp [hblank])]
  have hfirst : ((d :: blanks ++ rest).head?.map isBlank).getD false = true := hd
  rw [skipBlanks?, if_pos hfirst, List.dropWhile_append_of_pos blank, hrest]

namespace Spells
variable {keyword : List (List Char)} {cs : List Char}

theorem exists_first (h : Spells keyword cs) (hk : ∀ word ∈ keyword, IsKeywordWord word) :
    ∃ c, cs.head? = some c ∧ isMargin c = false := by
  cases h with
  | word letters => exact (exists_ends_of_letters (hk _ List.mem_cons_self) letters).1
  | words letters apart blank others =>
    obtain ⟨c, hc, hmargin⟩ := (exists_ends_of_letters (hk _ List.mem_cons_self) letters).1
    refine ⟨c, ?_, hmargin⟩
    rw [List.append_assoc, List.head?_append, hc, Option.some_or]

theorem exists_last (h : Spells keyword cs) (hk : ∀ word ∈ keyword, IsKeywordWord word) :
    ∃ c, cs.getLast? = some c ∧ isMargin c = false := by
  induction h with
  | word letters => exact (exists_ends_of_letters (hk _ List.mem_cons_self) letters).2
  | words letters apart blank others ih =>
    obtain ⟨c, hc, hmargin⟩ := ih fun word hword => hk word (List.mem_cons_of_mem _ hword)
    refine ⟨c, ?_, hmargin⟩
    rw [List.getLast?_append, hc, Option.some_or]

theorem exists_splitWords? (h : Spells keyword cs) (hk : ∀ word ∈ keyword, IsKeywordWord word)
    (rest : List Char) : ∃ read, splitWords? keyword (cs ++ rest) = some (read, rest) := by
  induction h with
  | word letters =>
    rw [splitWords?, splitWord?_append letters]
    exact ⟨_, rfl⟩
  | @words word cs blanks others more letters apart blank hothers ih =>
    have hk' : ∀ word ∈ more, IsKeywordWord word := fun w hw => hk w (List.mem_cons_of_mem _ hw)
    obtain ⟨read, hread⟩ := ih hk'
    obtain ⟨c, hc, hmargin⟩ := hothers.exists_first hk'
    have hskip : skipBlanks? (blanks ++ (others ++ rest)) = some (others ++ rest) :=
      skipBlanks?_append apart blank (by rw [List.head?_append, hc, Option.some_or]) hmargin
    have hmore : more = [] → False := by
      rintro rfl
      cases hothers
    rw [splitWords?.eq_3 _ _ _ hmore, List.append_assoc, List.append_assoc,
      splitWord?_append letters]
    simp only [Option.bind_eq_bind, Option.bind_some, hskip, hread]
    exact ⟨_, rfl⟩

end Spells

end Keywords

section Rules
variable {statement before cs after : List Char}

/-- A word may begin wherever no word ends. -/
theorem mem_wordStarts {rest : List Char} (hrest : rest ≠ []) (before : List Char)
    {afterWord : Bool} (h : (before.getLast?.map isWord).getD afterWord = false) :
    rest ∈ wordStarts afterWord (before ++ rest) := by
  induction before generalizing afterWord with
  | nil =>
    obtain ⟨c, rest, rfl⟩ := List.exists_cons_of_ne_nil hrest
    change afterWord = false at h
    subst h
    exact List.mem_append_left _ List.mem_cons_self
  | cons c before ih =>
    refine List.mem_append_right _ (ih ?_)
    rw [List.getLast?_cons] at h
    cases hlast : before.getLast? with
    | none =>
      rw [hlast] at h
      exact h
    | some d =>
      rw [hlast] at h
      exact h

/-- Every write keyword that stands as a whole word is found. -/
theorem stands_in_word_of_no_keyword {keyword : List (List Char)}
    (h : firstWriteKeyword? (before ++ cs ++ after) = none) (hk : keyword ∈ writeKeywords)
    (hcs : Spells keyword cs) : endsWithWord before = true ∨ beginsWithWord after = true := by
  have hwords := isKeywordWord_of_mem hk
  obtain ⟨c, hc, -⟩ := hcs.exists_first hwords
  obtain ⟨read, hread⟩ := hcs.exists_splitWords? hwords after
  by_contra hstands
  rw [not_or, Bool.not_eq_true, Bool.not_eq_true] at hstands
  have hstart : cs ++ after ∈ wordStarts false (before ++ (cs ++ after)) := by
    apply mem_wordStarts
    · rintro hnil
      rw [(List.append_eq_nil_iff.mp hnil).1] at hc
      cases hc
    · exact hstands.1
  rw [firstWriteKeyword?, Option.map_eq_none_iff, List.append_assoc] at h
  have hat := List.findSome?_eq_none_iff.mp h _ hstart
  have hfound := List.findSome?_eq_none_iff.mp hat keyword hk
  rw [hread] at hfound
  simp [hstands.2] at hfound

theorem blank_of_no_second_statement (h : hasSecondStatement (before ++ ';' :: after) = false) :
    ∀ c ∈ after, isBlank c = true := by
  induction before with
  | nil =>
    have hblank : (!after.all isBlank) = false := (Bool.or_eq_false_iff.mp h).1
    rw [Bool.not_eq_false', List.all_eq_true] at hblank
    exact hblank
  | cons c before ih => exact ih (Bool.or_eq_false_iff.mp h).2

/-- An accepted text breaks none of the rules. -/
theorem rules_of_accepted {sql : String} {maxRows : Int} (h : sqlViolations sql maxRows = .ok []) :
    hasSecondStatement (normalStatement sql) = false ∧
      firstWriteKeyword? (normalStatement sql) = none ∧
      occursIn "--".toList (normalStatement sql) = false ∧
      occursIn "/*".toList (normalStatement sql) = false := by
  obtain ⟨limit, -, h⟩ := bind_eq_ok h
  have hnil := Except.ok.inj h
  simp only [List.append_eq_nil_iff, ite_eq_left_iff, ite_eq_right_iff, imp_false,
    Bool.not_eq_true, Option.toList_eq_nil_iff, Option.map_eq_none_iff, List.cons_ne_nil] at hnil
  obtain ⟨⟨⟨⟨⟨⟨-, hsecond⟩, hkeyword⟩, hline⟩, hblock⟩, -⟩, -⟩ := hnil
  exact ⟨hsecond, hkeyword, hline, hblock⟩

end Rules

section Accepted
variable {sql : String} {before cs after : List Char}

/-- What stands outside quotes, but for margins, the rules see with the same word characters
around it. -/
theorem StandsPlain.exists_in_statement {c d : Char} (names : NamesWithoutApostrophe sql.toList)
    (h : StandsPlain sql.toList before cs after) (first : cs.head? = some c)
    (hc : isMargin c = false) (last : cs.getLast? = some d) (hd : isMargin d = false) :
    ∃ before' after', normalStatement sql = before' ++ cs ++ after' ∧
      (endsWithWord before' = true → endsWithWord before = true) ∧
      (beginsWithWord after' = true → beginsWithWord after = true) := by
  have hcs : cs ≠ [] := by
    rintro rfl
    cases first
  obtain ⟨shown, hshown, hbefore⟩ := h.exists_blankLiterals_eq names hcs
  obtain ⟨l, e, hstatement, hl, he⟩ := exists_normalStatement sql
  have hframe : l ++ (normalStatement sql ++ e) = shown ++ (cs ++ blankLiterals after) := by
    rw [← List.append_assoc, ← hstatement, hshown, List.append_assoc]
  -- what is cut off in front ends before the first character of `cs`, which is no margin
  have hblank : isBlank c = false := (Bool.or_eq_false_iff.mp hc).1
  have hfirst : (cs ++ blankLiterals after).head? = some c := by
    rw [List.head?_append, first, Option.some_or]
  obtain ⟨before', rfl, hinner⟩ := exists_behind_margin hl hfirst hblank hframe
  rw [← List.append_assoc] at hinner
  have hlast : (before' ++ cs).getLast? = some d := by
    rw [List.getLast?_append, last, Option.some_or]
  obtain ⟨after', hafter, hwithin⟩ := exists_before_margin he hlast hd hinner
  refine ⟨before', after', hwithin, fun hword => ?_, fun hword => ?_⟩
  · unfold endsWithWord at hword ⊢
    rw [← hbefore, List.getLast?_append]
    cases hlast' : before'.getLast? with
    | none => simp [hlast'] at hword
    | some x => simpa [hlast'] using hword
  · unfold beginsWithWord at hword ⊢
    rw [← head?_blankLiterals, hafter, List.head?_append]
    cases hhead : after'.head? with
    | none => simp [hhead] at hword
    | some x => simpa [hhead] using hword

/-- Behind a semicolon outside quotes only margins are left. -/
theorem StandsPlain.margin_behind_semicolon (names : NamesWithoutApostrophe sql.toList)
    (h : StandsPlain sql.toList before [';'] after)
    (single : hasSecondStatement (normalStatement sql) = false) :
    ∀ c ∈ after, isMargin c = true := by
  obtain ⟨shown, hshown, -⟩ := h.exists_blankLiterals_eq names (List.cons_ne_nil _ _)
  obtain ⟨l, e, hstatement, hl, he⟩ := exists_normalStatement sql
  have hframe : l ++ (normalStatement sql ++ e) = shown ++ (';' :: blankLiterals after) := by
    rw [← List.append_assoc, ← hstatement, hshown, List.append_assoc]
    rfl
  obtain ⟨before', rfl, hinner⟩ := exists_behind_margin hl rfl (by decide) hframe
  have hshownAfter : ∀ c ∈ blankLiterals after, isMargin c = true := by
    intro c hc
    rcases List.append_eq_append_iff.mp hinner with ⟨y, -, hy⟩ | ⟨y, hy, hafter⟩
    · exact he c (by simp [hy, hc])
    rcases List.cons_eq_append_iff.mp hafter with ⟨-, hmargin⟩ | ⟨y', rfl, hbehind⟩
    · exact he c (by simp [hmargin, hc])
    · rw [hbehind, List.mem_append] at hc
      rcases hc with hc | hc
      · rw [hy] at single
        have hblank := blank_of_no_second_statement single c hc
        rw [isMargin, hblank, Bool.true_or]
      · exact he c hc
  -- a literal would leave its quotes there, so nothing behind the semicolon was blanked out
  have hquote : '\'' ∉ after := by
    intro hmem
    obtain ⟨x, y, rfl, hx⟩ := List.eq_append_cons_of_mem hmem
    refine absurd (hshownAfter '\'' ?_) (by decide)
    rw [blankLiterals_append hx, blankLiterals_quote]
    split <;> simp
  have hsame : blankLiterals after = after := by
    simpa [blankLiterals] using blankLiterals_append hquote []
  rwa [hsame] at hshownAfter

/-- Outside quotes an accepted text has no write keyword as a whole word, no comment, and no
semicolon before anything but blanks and semicolons, if no single quote stands in a quoted
name. -/
theorem accepted_sql_is_one_reading_statement {maxRows : Int}
    (accepted : sqlViolations sql maxRows = .ok [])
    (names : NamesWithoutApostrophe sql.toList) :
    (∀ keyword ∈ writeKeywords, ∀ before cs after, Spells keyword cs →
      StandsPlain sql.toList before cs after →
        endsWithWord before = true ∨ beginsWithWord after = true) ∧
    (∀ before after, ¬ StandsPlain sql.toList before "--".toList after) ∧
    (∀ before after, ¬ StandsPlain sql.toList before "/*".toList after) ∧
    ∀ before after, StandsPlain sql.toList before [';'] after →
      ∀ c ∈ after, isBlank c = true ∨ c = ';' := by
  obtain ⟨hsecond, hkeyword, hline, hblock⟩ := rules_of_accepted accepted
  refine ⟨?_, ?_, ?_, ?_⟩
  · intro keyword hk before cs after hcs hplain
    have hwords := isKeywordWord_of_mem hk
    obtain ⟨c, first, hc⟩ := hcs.exists_first hwords
    obtain ⟨d, last, hd⟩ := hcs.exists_last hwords
    obtain ⟨before', after', hstatement, hbefore, hafter⟩ :=
      hplain.exists_in_statement names first hc last hd
    rw [hstatement] at hkeyword
    exact (stands_in_word_of_no_keyword hkeyword hk hcs).imp hbefore hafter
  · intro before after hplain
    obtain ⟨before', after', hstatement, -⟩ :=
      hplain.exists_in_statement names rfl (by decide) rfl (by decide)
    have hoccurs : "--".toList <:+: normalStatement sql := ⟨before', after', hstatement.symm⟩
    rw [occursIn_iff.mpr hoccurs] at hline
    cases hline
  · intro before after hplain
    obtain ⟨before', after', hstatement, -⟩ :=
      hplain.exists_in_statement names rfl (by decide) rfl (by decide)
    have hoccurs : "/*".toList <:+: normalStatement sql := ⟨before', after', hstatement.symm⟩
    rw [occursIn_iff.mpr hoccurs] at hblock
    cases hblock
  · intro before after hplain c hc
    have hmargin := hplain.margin_behind_semicolon names hsecond c hc
    rw [isMargin, Bool.or_eq_true, beq_iff_eq] at hmargin
    exact hmargin

theorem accepted_sql_is_one_reading_statement_with_quotes :
    sqlViolations "SELECT 'it''s; DROP --' AS \"a b\" FROM t LIMIT 5 ; ;" 5 = .ok [] ∧
      NamesWithoutApostrophe "SELECT 'it''s; DROP --' AS \"a b\" FROM t LIMIT 5 ; ;".toList ∧
      (∀ before after, ¬ StandsPlain
        "SELECT 'it''s; DROP --' AS \"a b\" FROM t LIMIT 5 ; ;".toList before "--".toList after) ∧
      ∀ before after, StandsPlain
        "SELECT 'it''s; DROP --' AS \"a b\" FROM t LIMIT 5 ; ;".toList before [';'] after →
          ∀ c ∈ after, isBlank c = true ∨ c = ';' := by
  have accepted :
      sqlViolations "SELECT 'it''s; DROP --' AS \"a b\" FROM t LIMIT 5 ; ;" 5 = .ok [] := by
    decide +kernel
  have names :
      NamesWithoutApostrophe "SELECT 'it''s; DROP --' AS \"a b\" FROM t LIMIT 5 ; ;".toList := by
    decide +kernel
  obtain ⟨-, hline, -, hsemicolon⟩ := accepted_sql_is_one_reading_statement accepted names
  exact ⟨accepted, names, hline, hsemicolon⟩

/-- A quote in a name and one behind it are taken for the ends of a literal, and the statement
between them is not looked at. -/
theorem accepted_sql_may_hide_statement :
    sqlViolations "SELECT \"it's\"; DROP 'x' LIMIT 5" 1000 = .ok [] ∧
      Spells ["drop".toList] "DROP".toList ∧
      StandsPlain "SELECT \"it's\"; DROP 'x' LIMIT 5".toList
        "SELECT \"it's\"; ".toList "DROP".toList " 'x' LIMIT 5".toList ∧
      endsWithWord "SELECT \"it's\"; ".toList = false ∧
      beginsWithWord " 'x' LIMIT 5".toList = false ∧
      StandsPlain "SELECT \"it's\"; DROP 'x' LIMIT 5".toList
        "SELECT \"it's\"".toList [';'] " DROP 'x' LIMIT 5".toList := by
  refine ⟨by decide +kernel, .word rfl, ?_, by decide, by decide, ?_⟩
  · exact ⟨(scan .plain "SELECT \"it's\"; ".toList), (scan .plain " 'x' LIMIT 5".toList),
      by decide, by decide, by decide⟩
  · exact ⟨(scan .plain "SELECT \"it's\"".toList), (scan .plain " DROP 'x' LIMIT 5".toList),
      by decide, by decide, by decide⟩

end Accepted

end DatasetCatalog.Governance
