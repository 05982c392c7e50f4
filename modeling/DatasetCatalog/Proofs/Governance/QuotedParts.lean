import DatasetCatalog.Governance.SqlText
import Mathlib.Data.List.DropRight

/-!
# Quoted parts of an SQL text

The parts of a text by the quoting rules of SQL, and what the blanking of literals leaves of them.
Where no single quote stands in a quoted name, every character outside quotes survives the
blanking, with the same character before it and the same text behind it.
-/

namespace DatasetCatalog.Governance

open Text

inductive Part where
  | plain
  | quoted (quote : Char)
deriving DecidableEq, Repr

/-- Each character with the part that it stands in. A quoted part ends at the next quote of its
kind that is not doubled, quotes of the other kind mean nothing in it, and its own quotes belong
to it. -/
def scan : Part → List Char → List (Char × Part)
  | _, [] => []
  | .plain, c :: rest =>
    if c = '\'' ∨ c = '"' then (c, .quoted c) :: scan (.quoted c) rest
    else (c, .plain) :: scan .plain rest
  | .quoted q, [c] => [(c, .quoted q)]
  | .quoted q, c :: d :: rest =>
    if c ≠ q then (c, .quoted q) :: scan (.quoted q) (d :: rest)
    else if d = q then (c, .quoted q) :: (d, .quoted q) :: scan (.quoted q) rest
    else (c, .quoted q) :: scan .plain (d :: rest)

/-- The characters of `cs` stand in a row outside quotes. -/
def StandsPlain (sql before cs after : List Char) : Prop :=
  ∃ b a : List (Char × Part), scan .plain sql = b ++ cs.map (·, .plain) ++ a ∧
    b.map Prod.fst = before ∧ a.map Prod.fst = after

/-- No single quote stands in a quoted name. -/
def NamesWithoutApostrophe (sql : List Char) : Prop := ('\'', .quoted '"') ∉ scan .plain sql

instance (sql : List Char) : Decidable (NamesWithoutApostrophe sql) :=
  inferInstanceAs (Decidable (_ ∉ _))

theorem map_fst_scan (part : Part) (cs : List Char) : (scan part cs).map Prod.fst = cs := by
  fun_induction scan part cs <;> simp_all

theorem not_quote_of_plain {part : Part} {cs : List Char} {c : Char}
    (h : (c, .plain) ∈ scan part cs) : c ≠ '\'' ∧ c ≠ '"' := by
  fun_induction scan part cs <;> simp_all
  case case3 c' rest hquote ih =>
    rcases h with rfl | h
    · exact hquote
    · exact ih h

section Blanking

theorem closeQuote?_eq_none {cs : List Char} (h : '\'' ∉ cs) : closeQuote? cs = none := by
  fun_induction closeQuote? cs <;> simp_all

theorem closeQuote?_append {cs t : List Char} (ht : '\'' ∉ t) :
    closeQuote? (cs ++ t) = (closeQuote? cs).map (· ++ t) := by
  fun_induction closeQuote? cs with
  | case1 rest ih =>
    rw [List.cons_append, List.cons_append, closeQuote?, ih]
    cases closeQuote? rest <;> rfl
  | case2 rest hnext =>
    have hnext' : ∀ r, rest ++ t = '\'' :: r → False := by
      intro r hr
      cases rest with
      | nil => exact ht (by rw [← List.nil_append t, hr]; exact List.mem_cons_self)
      | cons c rest =>
        rw [List.cons_append, List.cons.injEq] at hr
        exact hnext rest (by rw [hr.1])
    rw [List.cons_append, closeQuote?.eq_2 _ hnext']
    rfl
  | case3 c rest h₁ h₂ ih =>
    have hc : c ≠ '\'' := fun hc => h₂ hc
    rw [List.cons_append, closeQuote?.eq_3 _ _ (fun _ h _ => hc h) (fun h => hc h), ih]
  | case4 => simpa [closeQuote?] using closeQuote?_eq_none ht

theorem blankLiterals_cons {c : Char} (hc : c ≠ '\'') (rest : List Char) :
    blankLiterals (c :: rest) = c :: blankLiterals rest := by
  rw [blankLiterals, if_neg (by simpa using hc)]

theorem blankLiterals_quote (rest : List Char) :
    blankLiterals ('\'' :: rest) = match closeQuote? rest with
      | some after => '\'' :: '\'' :: blankLiterals after
      | none => '\'' :: blankLiterals rest := by
  rw [blankLiterals, if_pos (by simp)]
  split <;> simp_all

theorem blankLiterals_append {cs : List Char} (h : '\'' ∉ cs) (rest : List Char) :
    blankLiterals (cs ++ rest) = cs ++ blankLiterals rest := by
  induction cs with
  | nil => rfl
  | cons c cs ih =>
    rw [List.mem_cons, not_or] at h
    rw [List.cons_append, blankLiterals_cons (Ne.symm h.1), ih h.2, List.cons_append]

theorem head?_blankLiterals (cs : List Char) : (blankLiterals cs).head? = cs.head? := by
  cases cs with
  | nil => rw [blankLiterals]
  | cons c rest =>
    by_cases hc : c = '\''
    · subst hc
      rw [blankLiterals_quote]
      split <;> rfl
    · rw [blankLiterals_cons hc]
      rfl

theorem blankLiterals_append_end {t : List Char} (ht : '\'' ∉ t) (cs : List Char) :
    blankLiterals (cs ++ t) = blankLiterals cs ++ t := by
  fun_induction blankLiterals cs with
  | case1 => simpa [blankLiterals] using blankLiterals_append ht []
  | case2 c rest hc after hafter ih =>
    obtain rfl : c = '\'' := by simpa using hc
    rw [List.cons_append, blankLiterals_quote, closeQuote?_append ht, hafter]
    simp [ih]
  | case3 c rest hc hnone ih =>
    obtain rfl : c = '\'' := by simpa using hc
    rw [List.cons_append, blankLiterals_quote, closeQuote?_append ht, hnone]
    simp [ih]
  | case4 c rest hc ih =>
    rw [List.cons_append, blankLiterals_cons (by simpa using hc), ih, List.cons_append]

end Blanking

/-- What stands quoted is not the plain character looked for. -/
theorem exists_eq_cons_of_quoted {q c d : Char} {rest b a : List (Char × Part)}
    (h : (d, .quoted q) :: rest = b ++ (c, .plain) :: a) :
    ∃ b', b = (d, .quoted q) :: b' ∧ rest = b' ++ (c, .plain) :: a := by
  rcases List.cons_eq_append_iff.mp h with ⟨-, h⟩ | ⟨b', hb, h⟩
  · cases h
  · exact ⟨b', hb, h⟩

/-- A plain character behind an open quote stands behind the quote that closes it. For a literal
that is where the blanking goes on. -/
theorem exists_close_of_plain {q c : Char} {cs : List Char} {b a : List (Char × Part)}
    (h : scan (.quoted q) cs = b ++ (c, .plain) :: a) :
    ∃ inner after b', cs = inner ++ q :: after ∧
      b = (inner ++ [q]).map (·, .quoted q) ++ b' ∧
      scan .plain after = b' ++ (c, .plain) :: a ∧
      (q = '\'' → closeQuote? cs = some after) := by
  generalize hpart : Part.quoted q = part at h
  fun_induction scan part cs generalizing b with
  | case1 => simp at h
  | case2 | case3 => cases hpart
  | case4 q' d =>
    obtain ⟨b', -, hrest⟩ := exists_eq_cons_of_quoted h
    simp at hrest
  | case5 q' d e rest hd ih =>
    obtain rfl : q = q' := by simpa using hpart
    obtain ⟨b', rfl, hrest⟩ := exists_eq_cons_of_quoted h
    obtain ⟨inner, after, b₂, hcs, rfl, hafter, hclose⟩ := ih rfl hrest
    refine ⟨d :: inner, after, b₂, by rw [hcs, List.cons_append], rfl, hafter, fun hq => ?_⟩
    have hd' : d ≠ '\'' := hq ▸ hd
    rw [closeQuote?.eq_3 _ _ (fun _ h _ => hd' h) (fun h => hd' h), hclose hq]
  | case6 d q' rest hd ih =>
    obtain rfl : d = q' := Decidable.not_not.mp hd
    obtain rfl : q = d := by simpa using hpart
    obtain ⟨b', rfl, hrest⟩ := exists_eq_cons_of_quoted h
    obtain ⟨b₁, rfl, hbehind⟩ := exists_eq_cons_of_quoted hrest
    obtain ⟨inner, after, b₂, rfl, rfl, hafter, hclose⟩ := ih rfl hbehind
    refine ⟨q :: q :: inner, after, b₂, rfl, rfl, hafter, fun hq => ?_⟩
    subst hq
    rw [closeQuote?, hclose rfl, Option.some_or]
  | case7 q' d e rest hd he =>
    obtain rfl : d = q' := Decidable.not_not.mp hd
    obtain rfl : q = d := by simpa using hpart
    obtain ⟨b', rfl, hrest⟩ := exists_eq_cons_of_quoted h
    refine ⟨[], e :: rest, b', rfl, rfl, hrest, fun hq => ?_⟩
    subst hq
    exact closeQuote?.eq_2 _ fun _ h => he (List.cons.inj h).1

/-- What survives of a quoted part ends with its closing quote. -/
theorem exists_blankLiterals_quoted {q : Char} {inner after : List Char} (hq : q = '\'' ∨ q = '"')
    (literal : q = '\'' → closeQuote? (inner ++ q :: after) = some after)
    (name : q = '"' → '\'' ∉ inner) :
    ∃ shown, blankLiterals (q :: (inner ++ q :: after)) = shown ++ blankLiterals after ∧
      shown.getLast? = some q := by
  rcases hq with rfl | rfl
  · refine ⟨['\'', '\''], ?_, rfl⟩
    rw [blankLiterals_quote, literal rfl]
    rfl
  · have hname : '\'' ∉ '"' :: (inner ++ ['"']) := by simpa using name rfl
    refine ⟨'"' :: (inner ++ ['"']), ?_, ?_⟩
    · rw [← blankLiterals_append hname]
      simp
    · rw [← List.cons_append, List.getLast?_concat]

/-- A plain character survives the blanking of literals. What survives before it ends alike, and
what survives behind it is the blanked rest. -/
theorem exists_blankLiterals_eq {c : Char} {cs : List Char} {b a : List (Char × Part)}
    (names : NamesWithoutApostrophe cs) (h : scan .plain cs = b ++ (c, .plain) :: a) :
    ∃ shown, blankLiterals cs = shown ++ blankLiterals (c :: a.map Prod.fst) ∧
      shown.getLast? = (b.map Prod.fst).getLast? := by
  induction hn : cs.length using Nat.strong_induction_on generalizing cs b with
  | _ n ih =>
    subst hn
    cases cs with
    | nil => simp [scan] at h
    | cons d rest =>
      unfold NamesWithoutApostrophe at names
      rw [scan] at h names
      split_ifs at h names with hquote
      · obtain ⟨b₁, rfl, hrest⟩ := exists_eq_cons_of_quoted h
        obtain ⟨inner, after, b₂, rfl, rfl, hafter, hclose⟩ := exists_close_of_plain hrest
        rw [hrest] at names
        have hnames : NamesWithoutApostrophe after := by
          intro hmem
          rw [hafter] at hmem
          exact names (by simp_all)
        obtain ⟨shown, hshown, hlast⟩ := ih after.length (by simp; omega) hnames hafter rfl
        have hinner : d = '"' → '\'' ∉ inner := by
          rintro rfl hmem
          exact names (by simp_all)
        obtain ⟨before, hbefore, hd⟩ := exists_blankLiterals_quoted hquote hclose hinner
        refine ⟨before ++ shown, by rw [hbefore, hshown, List.append_assoc], ?_⟩
        simp [List.getLast?_append, List.getLast?_cons, hlast, hd]
      · rw [not_or] at hquote
        rcases List.cons_eq_append_iff.mp h with ⟨rfl, hhere⟩ | ⟨b₁, rfl, hrest⟩
        · refine ⟨[], ?_, rfl⟩
          simp only [List.cons.injEq, Prod.mk.injEq, and_true] at hhere
          rw [hhere.1, hhere.2, map_fst_scan]
          rfl
        · have hnames : NamesWithoutApostrophe rest := fun h => names (List.mem_cons_of_mem _ h)
          obtain ⟨shown, hshown, hlast⟩ := ih rest.length (by simp) hnames hrest rfl
          refine ⟨d :: shown, by rw [blankLiterals_cons hquote.1, hshown, List.cons_append], ?_⟩
          rw [List.map_cons, List.getLast?_cons, List.getLast?_cons, hlast]

/-- Characters that stand in a row outside quotes survive the blanking in a row. -/
theorem StandsPlain.exists_blankLiterals_eq {sql before cs after : List Char}
    (names : NamesWithoutApostrophe sql) (hcs : cs ≠ [])
    (h : StandsPlain sql before cs after) :
    ∃ shown, blankLiterals sql = shown ++ cs ++ blankLiterals after ∧
      shown.getLast? = before.getLast? := by
  obtain ⟨b, a, hscan, rfl, rfl⟩ := h
  have hquotes : '\'' ∉ cs := by
    intro hmem
    have hplain : ('\'', Part.plain) ∈ scan .plain sql := by
      rw [hscan]
      exact List.mem_append_left _ (List.mem_append_right _ (List.mem_map_of_mem hmem))
    exact (not_quote_of_plain hplain).1 rfl
  obtain ⟨c, rest, rfl⟩ := List.exists_cons_of_ne_nil hcs
  rw [List.map_cons, List.append_assoc, List.cons_append] at hscan
  obtain ⟨shown, hshown, hlast⟩ := Governance.exists_blankLiterals_eq names hscan
  refine ⟨shown, ?_, hlast⟩
  have hbehind : (rest.map (·, Part.plain) ++ a).map Prod.fst = rest ++ a.map Prod.fst := by
    simp [Function.comp_def]
  rw [hshown, hbehind, ← List.cons_append, blankLiterals_append hquotes, List.append_assoc]

end DatasetCatalog.Governance
