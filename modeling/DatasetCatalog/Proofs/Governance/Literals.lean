import DatasetCatalog.Proofs.Governance.AcceptedSql

/-!
# Literals in an SQL text

Which characters of a text stand in single-quoted literals, and what the blanking of literals leaves
of the text: what stands outside of them, and a pair of quotes for literals that follow one another.
So the verdict on a text does not depend on what its literals say.
-/

namespace DatasetCatalog.Governance

open Text

/-- Each character with whether it stands in a literal. A quote that is not in a literal begins one
if there is another quote to end it. The halves of a doubled quote end a literal and begin another,
with nothing between the two. -/
def markLiterals : Bool → List Char → List (Char × Bool)
  | _, [] => []
  | inside, c :: rest =>
    if c = '\'' then
      if inside || decide ('\'' ∈ rest) then (c, true) :: markLiterals (!inside) rest
      else (c, false) :: markLiterals false rest
    else (c, inside) :: markLiterals inside rest

/-- The characters outside of literals, with a pair of quotes for literals that follow one another;
nothing for those that follow one which is shown already. -/
def veil : Bool → List (Char × Bool) → List Char
  | _, [] => []
  | _, (c, false) :: rest => c :: veil false rest
  | false, (_, true) :: rest => '\'' :: '\'' :: veil true rest
  | true, (_, true) :: rest => veil true rest

section Marks

theorem map_fst_markLiterals (inside : Bool) (cs : List Char) :
    (markLiterals inside cs).map Prod.fst = cs := by
  fun_induction markLiterals inside cs <;> simp_all

theorem markLiterals_eq_ite (inside : Bool) (c : Char) (rest : List Char) :
    markLiterals inside (c :: rest) =
      if c = '\'' then
        if inside || decide ('\'' ∈ rest) then (c, true) :: markLiterals (!inside) rest
        else (c, false) :: markLiterals false rest
      else (c, inside) :: markLiterals inside rest :=
  rfl

theorem markLiterals_cons {c : Char} (hc : c ≠ '\'') (inside : Bool) (rest : List Char) :
    markLiterals inside (c :: rest) = (c, inside) :: markLiterals inside rest := by
  rw [markLiterals_eq_ite, if_neg hc]

theorem markLiterals_close (rest : List Char) :
    markLiterals true ('\'' :: rest) = ('\'', true) :: markLiterals false rest := by
  rw [markLiterals_eq_ite, if_pos rfl, Bool.true_or, if_pos rfl, Bool.not_true]

theorem markLiterals_open {rest : List Char} (h : '\'' ∈ rest) :
    markLiterals false ('\'' :: rest) = ('\'', true) :: markLiterals true rest := by
  rw [markLiterals_eq_ite, if_pos rfl, Bool.false_or, if_pos (decide_eq_true h), Bool.not_false]

theorem markLiterals_unclosed {rest : List Char} (h : '\'' ∉ rest) :
    markLiterals false ('\'' :: rest) = ('\'', false) :: markLiterals false rest := by
  rw [markLiterals_eq_ite, if_pos rfl, Bool.false_or, if_neg (by simpa using h)]

theorem markLiterals_append {cs : List Char} (h : '\'' ∉ cs) (inside : Bool) (rest : List Char) :
    markLiterals inside (cs ++ rest) = cs.map (·, inside) ++ markLiterals inside rest := by
  induction cs with
  | nil => rfl
  | cons c cs ih =>
    rw [List.mem_cons, not_or] at h
    rw [List.cons_append, markLiterals_cons (Ne.symm h.1), ih h.2, List.map_cons, List.cons_append]

/-- Literals begin and end with quotes. -/
theorem exists_markLiterals_cons (inside : Bool) (c : Char) (rest : List Char) :
    ∃ mark next, markLiterals inside (c :: rest) = (c, mark) :: markLiterals next rest ∧
      (inside = true → mark = true) ∧ (mark = false → next = false) ∧
      (inside = false → mark = true → c = '\'') ∧ (mark = true → next = false → c = '\'') := by
  by_cases hc : c = '\''
  · subst hc
    by_cases hquote : '\'' ∈ rest <;> cases inside
    · exact ⟨true, true, markLiterals_open hquote, by simp⟩
    · exact ⟨true, false, markLiterals_close rest, by simp⟩
    · exact ⟨false, false, markLiterals_unclosed hquote, by simp⟩
    · exact ⟨true, false, markLiterals_close rest, by simp⟩
  · exact ⟨inside, inside, markLiterals_cons hc inside rest, by cases inside <;> simp⟩

/-- Only a quote stands in a literal right before a character that does not. -/
theorem eq_quote_of_last_mark {inside : Bool} {cs : List Char} {b a : List (Char × Bool)}
    {c d : Char} (h : markLiterals inside cs = b ++ (d, true) :: (c, false) :: a) : d = '\'' := by
  induction cs generalizing inside b with
  | nil => cases b <;> cases h
  | cons e rest ih =>
    obtain ⟨mark, next, hmarks, -, -, -, hend⟩ := exists_markLiterals_cons inside e rest
    rw [hmarks] at h
    rcases List.cons_eq_append_iff.mp h with ⟨-, h⟩ | ⟨b, -, h⟩
    · rw [List.cons.injEq, Prod.mk.injEq] at h
      obtain ⟨⟨rfl, hmark⟩, hrest⟩ := h
      refine hend hmark.symm ?_
      cases rest with
      | nil => cases hrest
      | cons e' rest =>
        obtain ⟨mark', next', hmarks', hinside, -⟩ := exists_markLiterals_cons next e' rest
        rw [hmarks', List.cons.injEq, Prod.mk.injEq] at hrest
        rw [← Bool.not_eq_true]
        intro hnext
        rw [hinside hnext] at hrest
        cases hrest.1.2
    · exact ih h

/-- Only a quote stands in a literal right behind a character that does not. -/
theorem eq_quote_of_first_mark {inside : Bool} {cs : List Char} {b a : List (Char × Bool)}
    {c d : Char} (h : markLiterals inside cs = b ++ (c, false) :: (d, true) :: a) : d = '\'' := by
  induction cs generalizing inside b with
  | nil => cases b <;> cases h
  | cons e rest ih =>
    obtain ⟨mark, next, hmarks, -, hout, -, -⟩ := exists_markLiterals_cons inside e rest
    rw [hmarks] at h
    rcases List.cons_eq_append_iff.mp h with ⟨-, h⟩ | ⟨b, -, h⟩
    · rw [List.cons.injEq, Prod.mk.injEq] at h
      obtain ⟨⟨rfl, hmark⟩, hrest⟩ := h
      cases rest with
      | nil => cases hrest
      | cons e' rest =>
        obtain ⟨mark', next', hmarks', -, -, hbegin, -⟩ := exists_markLiterals_cons next e' rest
        rw [hmarks', List.cons.injEq, Prod.mk.injEq] at hrest
        obtain ⟨⟨rfl, hmark'⟩, -⟩ := hrest
        exact hbegin (hout hmark.symm) hmark'.symm
    · exact ih h

end Marks

section Blanking

theorem veil_shown (inside : Bool) (c : Char) (ms : List (Char × Bool)) :
    veil inside ((c, false) :: ms) = c :: veil false ms := rfl

theorem veil_begun (c : Char) (ms : List (Char × Bool)) :
    veil false ((c, true) :: ms) = '\'' :: '\'' :: veil true ms := rfl

theorem veil_hidden (c : Char) (ms : List (Char × Bool)) :
    veil true ((c, true) :: ms) = veil true ms := rfl

theorem mem_of_closeQuote? {cs after : List Char} (h : closeQuote? cs = some after) :
    '\'' ∈ cs := by
  by_contra hquote
  rw [closeQuote?_eq_none hquote] at h
  cases h

theorem not_mem_of_closeQuote? {cs : List Char} (h : closeQuote? cs = none) : '\'' ∉ cs := by
  fun_induction closeQuote? cs with
  | case1 rest ih =>
    rw [Option.or_eq_none_iff] at h
    cases h.2
  | case2 => cases h
  | case3 c rest _ hc ih =>
    rw [List.mem_cons, not_or]
    exact ⟨fun hquote => hc hquote.symm, ih h⟩
  | case4 => exact List.not_mem_nil

/-- Behind the quote that closes a literal no other one begins at once. -/
theorem veil_of_closeQuote? {cs after : List Char} (h : closeQuote? cs = some after) :
    veil true (markLiterals true cs) = veil false (markLiterals false after) := by
  fun_induction closeQuote? cs with
  | case1 rest ih =>
    rw [markLiterals_close, veil_hidden]
    cases hrest : closeQuote? rest with
    | some after' =>
      rw [hrest, Option.some_or] at h
      rw [markLiterals_open (mem_of_closeQuote? hrest), veil_hidden, ih (hrest.trans h)]
    | none =>
      rw [hrest, Option.none_or, Option.some.injEq] at h
      rw [← h, markLiterals_unclosed (not_mem_of_closeQuote? hrest), veil_shown, veil_shown]
  | case2 rest hnext =>
    obtain rfl : rest = after := Option.some.inj h
    rw [markLiterals_close, veil_hidden]
    cases rest with
    | nil => rfl
    | cons c rest =>
      have hc : c ≠ '\'' := fun hc => hnext rest (by rw [hc])
      rw [markLiterals_cons hc, veil_shown, veil_shown]
  | case3 c rest _ hc ih => rw [markLiterals_cons (fun hquote => hc hquote), veil_hidden, ih h]
  | case4 => cases h

theorem blankLiterals_eq_veil (cs : List Char) :
    blankLiterals cs = veil false (markLiterals false cs) := by
  fun_induction blankLiterals cs with
  | case1 => rfl
  | case2 c rest hc after hafter ih =>
    obtain rfl : c = '\'' := beq_iff_eq.mp hc
    rw [markLiterals_open (mem_of_closeQuote? hafter), veil_begun, veil_of_closeQuote? hafter, ih]
  | case3 c rest hc hnone ih =>
    obtain rfl : c = '\'' := beq_iff_eq.mp hc
    rw [markLiterals_unclosed (not_mem_of_closeQuote? hnone), veil_shown, ih]
  | case4 c rest hc ih =>
    rw [markLiterals_cons (by simpa using hc), veil_shown, ih]

end Blanking

section Veil

theorem veil_append (inside : Bool) (b : List (Char × Bool)) (c : Char) (a : List (Char × Bool)) :
    veil inside (b ++ (c, false) :: a) = veil inside b ++ c :: veil false a := by
  fun_induction veil inside b with
  | case1 => rw [List.nil_append, veil_shown, List.nil_append]
  | case2 _ _ _ ih => rw [List.cons_append, veil_shown, ih, List.cons_append]
  | case3 _ _ ih => rw [List.cons_append, veil_begun, ih, List.cons_append, List.cons_append]
  | case4 _ _ ih => rw [List.cons_append, veil_hidden, ih]

/-- Whatever is shown and is no quote stands outside of literals. -/
theorem exists_of_veil_eq {inside : Bool} {ms : List (Char × Bool)} {p s : List Char} {c : Char}
    (hc : c ≠ '\'') (h : veil inside ms = p ++ c :: s) :
    ∃ b a, ms = b ++ (c, false) :: a ∧ veil inside b = p ∧ veil false a = s := by
  fun_induction veil inside ms generalizing p with
  | case1 => simp at h
  | case2 inside d rest ih =>
    rcases List.cons_eq_append_iff.mp h with ⟨rfl, hhere⟩ | ⟨p', rfl, hrest⟩
    · obtain ⟨rfl, rfl⟩ := List.cons.inj hhere
      exact ⟨[], rest, rfl, rfl, rfl⟩
    · obtain ⟨b, a, rfl, hb, ha⟩ := ih hrest
      exact ⟨(d, false) :: b, a, rfl, by rw [veil_shown, hb], ha⟩
  | case3 d rest ih =>
    -- neither of the two quotes is the character looked for
    rcases List.cons_eq_append_iff.mp h with ⟨-, hhere⟩ | ⟨p₁, rfl, hsecond⟩
    · exact absurd (List.cons.inj hhere).1 hc
    rcases List.cons_eq_append_iff.mp hsecond with ⟨-, hhere⟩ | ⟨p₂, rfl, hrest⟩
    · exact absurd (List.cons.inj hhere).1 hc
    obtain ⟨b, a, rfl, hb, ha⟩ := ih hrest
    exact ⟨(d, true) :: b, a, rfl, by rw [veil_begun, hb], ha⟩
  | case4 d rest ih =>
    obtain ⟨b, a, rfl, rfl, rfl⟩ := ih h
    exact ⟨(d, true) :: b, a, rfl, veil_hidden d b, rfl⟩

theorem eq_nil_of_veil_eq_nil {ms : List (Char × Bool)} (h : veil false ms = []) : ms = [] := by
  rcases ms with - | ⟨⟨c, mark⟩, ms⟩
  · rfl
  · cases mark <;> cases h

theorem veil_plain (cs : List Char) (a : List (Char × Bool)) :
    veil false (cs.map (·, false) ++ a) = cs ++ veil false a := by
  induction cs with
  | nil => rfl
  | cons c cs ih => rw [List.map_cons, List.cons_append, veil_shown, ih, List.cons_append]

theorem veil_append_plain {cs : List Char} (hcs : cs ≠ []) (inside : Bool)
    (b a : List (Char × Bool)) :
    veil inside (b ++ cs.map (·, false) ++ a) = veil inside b ++ cs ++ veil false a := by
  obtain ⟨c, cs, rfl⟩ := List.exists_cons_of_ne_nil hcs
  rw [List.map_cons, List.append_assoc, List.cons_append, veil_append, veil_plain,
    List.append_assoc, List.cons_append]

/-- Characters that are shown in a row, no quote among them, stand in a row outside of literals. -/
theorem exists_plain_of_veil_eq {inside : Bool} {ms : List (Char × Bool)} {p cs s : List Char}
    (hcs : cs ≠ []) (hquote : '\'' ∉ cs) (h : veil inside ms = p ++ cs ++ s) :
    ∃ b a, ms = b ++ cs.map (·, false) ++ a ∧ veil inside b = p ∧ veil false a = s := by
  induction cs generalizing inside ms p with
  | nil => exact absurd rfl hcs
  | cons c cs ih =>
    rw [List.mem_cons, not_or] at hquote
    rw [List.append_assoc, List.cons_append] at h
    obtain ⟨b, a, rfl, hb, ha⟩ := exists_of_veil_eq (Ne.symm hquote.1) h
    by_cases hnil : cs = []
    · subst hnil
      exact ⟨b, a, by simp, hb, ha⟩
    · obtain ⟨b', a', rfl, hb', ha'⟩ := ih hnil hquote.2 (p := []) ha
      obtain rfl := eq_nil_of_veil_eq_nil hb'
      exact ⟨b, a', by simp, hb, ha'⟩

/-- Marks may be exchanged at the end of a text if they are shown alike. -/
theorem veil_congr {ms ms' : List (Char × Bool)} (h : ∀ inside, veil inside ms = veil inside ms')
    (b : List (Char × Bool)) (inside : Bool) : veil inside (b ++ ms) = veil inside (b ++ ms') := by
  fun_induction veil inside b with
  | case1 => exact h _
  | case2 _ _ _ ih => rw [List.cons_append, List.cons_append, veil_shown, veil_shown, ih]
  | case3 _ _ ih => rw [List.cons_append, List.cons_append, veil_begun, veil_begun, ih]
  | case4 _ _ ih => rw [List.cons_append, List.cons_append, veil_hidden, veil_hidden, ih]

/-- Of a literal nothing is shown but that there is one. -/
theorem veil_literal {cs : List Char} (hcs : cs ≠ []) (inside : Bool) (ms : List (Char × Bool)) :
    veil inside (cs.map (·, true) ++ ms) =
      (if inside then [] else ['\'', '\'']) ++ veil true ms := by
  obtain ⟨c, cs, rfl⟩ := List.exists_cons_of_ne_nil hcs
  have hrest : veil true (cs.map (·, true) ++ ms) = veil true ms := by
    clear hcs
    induction cs with
    | nil => rfl
    | cons d cs ih => rw [List.map_cons, List.cons_append, veil_hidden, ih]
  rw [List.map_cons, List.cons_append]
  cases inside with
  | false => rw [veil_begun, hrest, if_neg Bool.false_ne_true, List.cons_append, List.cons_append,
      List.nil_append]
  | true => rw [veil_hidden, hrest, if_pos rfl, List.nil_append]

end Veil

section Alternation

def doubleQuotes (content : List Char) : List Char :=
  content.flatMap fun c => if c = '\'' then ['\'', '\''] else [c]

def literal (content : List Char) : List Char := '\'' :: doubleQuotes content ++ ['\'']

/-- A segment, and contents of literals with the segment behind each. -/
def alternation (first : List Char) (parts : List (List Char × List Char)) : List Char :=
  first ++ parts.flatMap fun p => literal p.1 ++ p.2

theorem markLiterals_doubleQuotes (content rest : List Char) :
    markLiterals true (doubleQuotes content ++ '\'' :: rest) =
      (doubleQuotes content).map (·, true) ++ ('\'', true) :: markLiterals false rest := by
  induction content with
  | nil => exact markLiterals_close rest
  | cons c content ih =>
    rw [doubleQuotes, List.flatMap_cons, ← doubleQuotes]
    split_ifs with hc
    · have hquote : '\'' ∈ doubleQuotes content ++ '\'' :: rest :=
        List.mem_append_right _ List.mem_cons_self
      simp only [List.cons_append, List.nil_append, List.map_cons]
      rw [markLiterals_close, markLiterals_open hquote, ih]
    · simp only [List.cons_append, List.nil_append, List.map_cons]
      rw [markLiterals_cons hc, ih]

theorem markLiterals_literal (content rest : List Char) :
    markLiterals false (literal content ++ rest) =
      (literal content).map (·, true) ++ markLiterals false rest := by
  have hquote : '\'' ∈ doubleQuotes content ++ '\'' :: rest :=
    List.mem_append_right _ List.mem_cons_self
  simp only [literal, List.append_assoc, List.cons_append, List.nil_append, List.map_cons,
    List.map_append, List.map_nil]
  rw [markLiterals_open hquote, markLiterals_doubleQuotes]

/-- What is shown of an alternation depends on its segments alone. -/
theorem veil_alternation {parts parts' : List (List Char × List Char)} {first : List Char}
    (hfirst : '\'' ∉ first) (hparts : ∀ p ∈ parts, '\'' ∉ p.2)
    (segments : parts.map Prod.snd = parts'.map Prod.snd) (inside : Bool) :
    veil inside (markLiterals false (alternation first parts)) =
      veil inside (markLiterals false (alternation first parts')) := by
  rw [alternation, alternation, markLiterals_append hfirst, markLiterals_append hfirst]
  refine veil_congr (fun inside => ?_) _ inside
  induction parts generalizing parts' inside with
  | nil =>
    obtain rfl : parts' = [] := List.map_eq_nil_iff.mp segments.symm
    rfl
  | cons p parts ih =>
    obtain ⟨p', parts', rfl, hsegment, hmore⟩ := List.map_eq_cons_iff.mp segments.symm
    obtain ⟨hp, hrest⟩ := List.forall_mem_cons.mp hparts
    have hliteral (content : List Char) : literal content ≠ [] := List.cons_ne_nil _ _
    rw [List.flatMap_cons, List.flatMap_cons, List.append_assoc, List.append_assoc,
      markLiterals_literal, markLiterals_literal, veil_literal (hliteral _),
      veil_literal (hliteral _), hsegment, markLiterals_append hp, markLiterals_append hp]
    exact congrArg _ (veil_congr (ih hrest hmore.symm) _ _)

end Alternation

section Verdict

theorem dropEndWhile_append {p : Char → Bool} {e : List Char} (he : ∀ c ∈ e, p c = true)
    (cs : List Char) : dropEndWhile p (cs ++ e) = dropEndWhile p cs := by
  rw [dropEndWhile, dropEndWhile, List.reverse_append, List.dropWhile_append_of_pos]
  intro c hc
  exact he c (List.mem_reverse.mp hc)

theorem blankLiterals_dropWhile (cs : List Char) :
    blankLiterals (cs.dropWhile isBlank) = (blankLiterals cs).dropWhile isBlank := by
  induction cs with
  | nil => rw [List.dropWhile_nil, blankLiterals, List.dropWhile_nil]
  | cons c rest ih =>
    by_cases hc : isBlank c = true
    · have hquote : c ≠ '\'' := by
        rintro rfl
        exact absurd hc (by decide)
      rw [List.dropWhile_cons_of_pos hc, blankLiterals_cons hquote, List.dropWhile_cons_of_pos hc,
        ih]
    · have hhead := head?_blankLiterals (c :: rest)
      rw [List.head?_cons, List.head?_eq_some_iff] at hhead
      obtain ⟨rest', hblanked⟩ := hhead
      rw [List.dropWhile_cons_of_neg hc, hblanked, List.dropWhile_cons_of_neg hc]

/-- No blanks are cut off from within a literal. -/
theorem normalStatement_eq (sql : String) :
    normalStatement sql = dropEndWhile isBlank (dropEndWhile (· == ';') (dropEndWhile isBlank
      ((blankLiterals sql.toList).dropWhile isBlank))) := by
  obtain ⟨e, he, hblank⟩ := exists_dropEndWhile isBlank (sql.toList.dropWhile isBlank)
  have hblanked : blankLiterals (sql.toList.dropWhile isBlank) =
      blankLiterals (stripBlanks sql.toList) ++ e := by
    rw [stripBlanks, ← blankLiterals_append_end (quote_not_mem hblank), ← he]
  rw [← blankLiterals_dropWhile, hblanked, dropEndWhile_append hblank, normalStatement]

/-- The verdict on an alternation of segments without quotes and literals does not depend on what
the literals say. -/
theorem sqlViolations_eq_of_segments {parts parts' : List (List Char × List Char)}
    {first : List Char} (hfirst : '\'' ∉ first) (hparts : ∀ p ∈ parts, '\'' ∉ p.2)
    (segments : parts.map Prod.snd = parts'.map Prod.snd) (maxRows : Int) :
    sqlViolations (String.ofList (alternation first parts)) maxRows =
      sqlViolations (String.ofList (alternation first parts')) maxRows := by
  have hstatement : normalStatement (String.ofList (alternation first parts)) =
      normalStatement (String.ofList (alternation first parts')) := by
    rw [normalStatement_eq, normalStatement_eq, String.toList_ofList, String.toList_ofList,
      blankLiterals_eq_veil, blankLiterals_eq_veil, veil_alternation hfirst hparts segments]
  rw [sqlViolations, sqlViolations, hstatement]

theorem sqlViolations_of_statement_in_literal :
    let first := "SELECT a FROM t WHERE n = ".toList
    let harmless := [("x".toList, " AND m = ".toList), ([], " LIMIT 5".toList)]
    let hostile := [("'; DROP --'".toList, " AND m = ".toList), ("''".toList, " LIMIT 5".toList)]
    String.ofList (alternation first hostile) =
        "SELECT a FROM t WHERE n = '''; DROP --''' AND m = '''''' LIMIT 5" ∧
      sqlViolations (String.ofList (alternation first hostile)) 5 =
        sqlViolations (String.ofList (alternation first harmless)) 5 ∧
      sqlViolations (String.ofList (alternation first harmless)) 5 = .ok [] := by
  intro first harmless hostile
  have hharmless : String.ofList (alternation first harmless) =
      "SELECT a FROM t WHERE n = 'x' AND m = '' LIMIT 5" := by decide
  refine ⟨by decide, ?_, ?_⟩
  · exact sqlViolations_eq_of_segments (by decide) (by decide) (by decide) 5
  · rw [hharmless]
    decide +kernel

end Verdict

end DatasetCatalog.Governance
