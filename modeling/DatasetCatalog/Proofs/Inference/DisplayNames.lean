import DatasetCatalog.Inference.DisplayName
import DatasetCatalog.Proofs.Text.Splitting

/-!
# Display names are titles

The display name of an ASCII name has the characters of the name in their order, but for blanks,
underscores, hyphens and case. Its words begin with capitals and stand between single blanks. No
word ends within one of its words, so it is a display name of its own.
-/

namespace DatasetCatalog

open Text

namespace Text

section Ascii
variable {c : Char} {cs : List Char}

theorem forall_ascii (p : Char → Prop) (h : ∀ n < 128, p (Char.ofNat n)) (hc : c.toNat < 128) :
    p c := by
  rw [← Char.ofNat_toNat c]
  exact h _ hc

theorem beq_false_of_ascii {d : Char} (hc : c.toNat < 128) (hd : 128 ≤ d.toNat) :
    (c == d) = false :=
  beq_false_of_ne fun heq => Nat.not_lt.mpr hd (heq ▸ hc)

theorem upperChar_of_ascii (hc : c.toNat < 128) : upperChar c = [c.toUpper] := if_pos hc

theorem lowerChar_of_ascii (hc : c.toNat < 128) : lowerChar c = c.toLower := if_pos hc

theorem toNat_toUpper_of_ascii (hc : c.toNat < 128) : c.toUpper.toNat < 128 :=
  forall_ascii (fun c => c.toUpper.toNat < 128) (by decide) hc

theorem toUpper_toUpper_of_ascii (hc : c.toNat < 128) : c.toUpper.toUpper = c.toUpper :=
  forall_ascii (fun c => c.toUpper.toUpper = c.toUpper) (by decide) hc

theorem toLower_toUpper_of_ascii (hc : c.toNat < 128) : c.toUpper.toLower = c.toLower :=
  forall_ascii (fun c => c.toUpper.toLower = c.toLower) (by decide) hc

theorem lowerAfter_of_ascii (before : List Char) (h : ∀ c ∈ cs, c.toNat < 128) :
    lowerAfter before cs = cs.map Char.toLower := by
  induction cs generalizing before with
  | nil => rfl
  | cons c rest ih =>
    obtain ⟨hc, hrest⟩ := List.forall_mem_cons.mp h
    -- The two letters that are treated apart are no ASCII characters.
    have hsigma : (c == 'Σ') = false := beq_false_of_ascii hc (by decide)
    have hdotted : (c == 'İ') = false := beq_false_of_ascii hc (by decide)
    rw [lowerAfter, ih _ hrest, hsigma, hdotted, lowerChar_of_ascii hc]
    rfl

theorem lower_of_ascii (h : ∀ c ∈ cs, c.toNat < 128) :
    lower (String.ofList cs) = String.ofList (cs.map Char.toLower) := by
  rw [lower, String.toList_ofList, lowerAfter_of_ascii [] h]

end Ascii

end Text

namespace Inference

/-- A word ends nowhere between neighbours, so there is nothing left to part. -/
def IsParted : List Char → Prop
  | a :: b :: rest => wordEndsBetween a b rest = false ∧ IsParted (b :: rest)
  | _ => True

/-- Words between single blanks. Their first characters are their own upper case, and no word ends
within one of them. -/
structure IsTitle (cs : List Char) : Prop where
  noUnderscore : '_' ∉ cs
  noHyphen : '-' ∉ cs
  spaced : IsSpaced isBlank cs
  capitals : ∀ word ∈ fieldsBy isBlank cs, ∃ c rest, word = c :: rest ∧ upperChar c = [c]
  parted : IsParted cs

section Parting
variable {a b : Char} {cs rest rest' word : List Char} {words : List (List Char)}

theorem wordEndsBetween_iff : wordEndsBetween a b rest = true ↔ b.isUpper = true ∧
    (isLowerOrDigit a = true ∨ a.isUpper = true ∧ ∃ c ∈ rest.head?, c.isLower = true) := by
  cases rest <;> simp [wordEndsBetween]

theorem wordEndsBetween_of_not_isUpper (hb : b.isUpper = false) :
    wordEndsBetween a b rest = false := by
  rw [wordEndsBetween, hb, Bool.false_and]

/-- A word ends no sooner where no other small letter follows. -/
theorem wordEndsBetween_anti (h : wordEndsBetween a b rest = false)
    (hrest : ∀ c ∈ rest'.head?, c.isLower = true → c ∈ rest.head?) :
    wordEndsBetween a b rest' = false := by
  rw [← Bool.not_eq_true, wordEndsBetween_iff] at h ⊢
  rintro ⟨hb, hsmall | ⟨ha, c, hc, hlower⟩⟩
  · exact h ⟨hb, .inl hsmall⟩
  · exact h ⟨hb, .inr ⟨ha, c, hrest c hc hlower, hlower⟩⟩

theorem IsParted.tail (h : IsParted (a :: cs)) : IsParted cs := by
  cases cs with
  | nil => trivial
  | cons b cs => exact h.2

theorem IsParted.cons_space (h : IsParted cs) : IsParted (' ' :: cs) := by
  cases cs with
  | nil => trivial
  | cons b cs =>
    have hspace : wordEndsBetween ' ' b cs = false := by
      rw [wordEndsBetween, Bool.and_eq_false_imp]
      exact fun _ => rfl
    exact ⟨hspace, h⟩

theorem IsParted.left (h : IsParted (cs ++ rest)) : IsParted cs := by
  induction cs with
  | nil => trivial
  | cons a cs ih =>
    cases cs with
    | nil => trivial
    | cons b cs =>
      refine ⟨wordEndsBetween_anti h.1 fun c hc _ => ?_, ih h.2⟩
      exact List.mem_head?_append_of_mem_head? hc

theorem IsParted.right (h : IsParted (cs ++ rest)) : IsParted rest := by
  induction cs with
  | nil => exact h
  | cons a cs ih => exact ih h.tail

theorem IsParted.within (h : IsParted cs) (hwithin : word <:+: cs) : IsParted word := by
  obtain ⟨before, behind, rfl⟩ := hwithin
  exact h.left.right

theorem IsParted.append_space (hcs : IsParted cs) (hrest : IsParted rest) :
    IsParted (cs ++ ' ' :: rest) := by
  induction cs with
  | nil => exact hrest.cons_space
  | cons a cs ih =>
    cases cs with
    | nil => exact ⟨wordEndsBetween_of_not_isUpper rfl, hrest.cons_space⟩
    | cons b cs =>
      refine ⟨wordEndsBetween_anti hcs.1 fun c hc hlower => ?_, ih hcs.2⟩
      cases cs with
      | nil =>
        cases hc
        cases hlower
      | cons d cs => exact hc

theorem isParted_intercalate (h : ∀ word ∈ words, IsParted word) :
    IsParted (List.intercalate [' '] words) := by
  induction words with
  | nil => trivial
  | cons word words ih =>
    obtain ⟨hword, hwords⟩ := List.forall_mem_cons.mp h
    rcases intercalate_cases ' ' word words with ⟨_, heq⟩ | ⟨_, heq⟩
    · rw [heq]
      exact hword
    · rw [heq]
      exact hword.append_space (ih hwords)

theorem spaceWords_of_isParted (h : IsParted cs) : spaceWords cs = cs := by
  fun_induction spaceWords cs with
  | case1 a b rest hends _ =>
    rw [h.1] at hends
    cases hends
  | case2 a b rest _ ih => rw [ih h.2]
  | case3 cs => rfl

/-- Parting puts at most a space behind each character. -/
theorem exists_spaceWords_cons (a : Char) (cs : List Char) :
    ∃ gap, spaceWords (a :: cs) = a :: (gap ++ spaceWords cs) ∧ (gap = [] ∨ gap = [' ']) := by
  cases cs with
  | nil => exact ⟨[], rfl, .inl rfl⟩
  | cons b cs =>
    rw [spaceWords]
    split
    · exact ⟨[' '], rfl, .inr rfl⟩
    · exact ⟨[], rfl, .inl rfl⟩

theorem filter_spaceWords (cs : List Char) :
    (spaceWords cs).filter (!isWordSeparator ·) = cs.filter (!isWordSeparator ·) := by
  induction cs with
  | nil => rfl
  | cons a cs ih =>
    obtain ⟨gap, heq, hgap⟩ := exists_spaceWords_cons a cs
    have hnone : gap.filter (!isWordSeparator ·) = [] := by
      rcases hgap with rfl | rfl <;> rfl
    rw [heq, List.filter_cons, List.filter_append, hnone, List.nil_append, ih, List.filter_cons]

/-- A space that is put in makes no place at which another word would end. -/
theorem isParted_spaceWords (cs : List Char) : IsParted (spaceWords cs) := by
  fun_induction spaceWords cs with
  | case1 a b rest _ ih => exact ⟨wordEndsBetween_of_not_isUpper rfl, ih.cons_space⟩
  | case2 a b rest hends ih =>
    obtain ⟨gap, heq, hgap⟩ := exists_spaceWords_cons b rest
    rw [heq] at ih ⊢
    -- Behind `b` stands what stood there before, or a space: no other small letter.
    refine ⟨wordEndsBetween_anti (Bool.not_eq_true _ ▸ hends) fun c hc hlower => ?_, ih⟩
    rcases hgap with rfl | rfl
    · cases rest with
      | nil => cases hc
      | cons d rest =>
        obtain ⟨gap', heq', -⟩ := exists_spaceWords_cons d rest
        rwa [List.nil_append, heq'] at hc
    · cases hc
      cases hlower
  | case3 cs hshort =>
    cases cs with
    | nil => trivial
    | cons a cs =>
      cases cs with
      | nil => trivial
      | cons b cs => exact absurd rfl (hshort a b cs)

end Parting

section Words
variable {c : Char} {cs word : List Char} {words : List (List Char)}

/-- The words that a name is parted into. -/
def wordsOf (cs : List Char) : List (List Char) := fieldsBy isWordSeparator (spaceWords cs)

structure IsWord (word : List Char) : Prop where
  field : IsField isWordSeparator word
  parted : IsParted word
  ascii : ∀ c ∈ word, c.toNat < 128

theorem flatten_wordsOf (cs : List Char) :
    (wordsOf cs).flatten = cs.filter (!isWordSeparator ·) := by
  rw [wordsOf, flatten_fieldsBy, filter_spaceWords]

theorem isWord_of_mem_wordsOf (hascii : ∀ c ∈ cs, c.toNat < 128) (h : word ∈ wordsOf cs) :
    IsWord word where
  field := isField_of_mem_fieldsBy h
  parted := (isParted_spaceWords cs).within (infix_of_mem_fieldsBy h)
  ascii c hc := by
    have hmem : c ∈ (wordsOf cs).flatten := List.mem_flatten.mpr ⟨word, h, hc⟩
    rw [flatten_wordsOf] at hmem
    exact hascii c (List.mem_of_mem_filter hmem)

/-- Words that spaces join are found again. -/
theorem wordsOf_intercalate (h : ∀ word ∈ words, IsWord word) :
    wordsOf (List.intercalate [' '] words) = words := by
  have hparted := isParted_intercalate fun word hword => (h word hword).parted
  rw [wordsOf, spaceWords_of_isParted hparted,
    fieldsBy_intercalate rfl fun word hword => (h word hword).field]

theorem isBlank_of_not_isWordSeparator (hc : isWordSeparator c = false) : isBlank c = false := by
  rw [isWordSeparator, Bool.or_eq_false_iff, Bool.or_eq_false_iff] at hc
  exact hc.1.1

theorem isWordSeparator_toUpper (hc : c.toNat < 128) :
    isWordSeparator c.toUpper = isWordSeparator c :=
  forall_ascii (fun c => isWordSeparator c.toUpper = isWordSeparator c) (by decide) hc

theorem toUpper_of_not_isLower (hc : c.toNat < 128) : c.isLower = false → c.toUpper = c :=
  forall_ascii (fun c => c.isLower = false → c.toUpper = c) (by decide) hc

theorem capitalise_of_ascii (hc : c.toNat < 128) (rest : List Char) :
    capitalise (c :: rest) = c.toUpper :: rest := by
  rw [capitalise, upperChar_of_ascii hc, List.singleton_append]

/-- A small letter that becomes a capital stands before no capital, for there a word would have
ended. -/
theorem IsParted.capitalise (h : IsParted word) (hascii : ∀ c ∈ word, c.toNat < 128) :
    IsParted (capitalise word) := by
  cases word with
  | nil => trivial
  | cons c rest =>
    have hc := hascii c List.mem_cons_self
    rw [capitalise_of_ascii hc]
    cases rest with
    | nil => trivial
    | cons b rest =>
      refine ⟨?_, h.2⟩
      cases hb : b.isUpper with
      | false => exact wordEndsBetween_of_not_isUpper hb
      | true =>
        have hsmall : c.isLower = false := by
          have hends := h.1
          rw [wordEndsBetween, hb, Bool.true_and, Bool.or_eq_false_iff, isLowerOrDigit,
            Bool.or_eq_false_iff] at hends
          exact hends.1.1
        rw [toUpper_of_not_isLower hc hsmall]
        exact h.1

theorem IsWord.exists_capitalise (h : IsWord word) :
    ∃ c rest, c.toNat < 128 ∧ word = c :: rest ∧ capitalise word = c.toUpper :: rest := by
  obtain ⟨c, rest, rfl⟩ := List.exists_cons_of_ne_nil h.field.ne_nil
  have hc := h.ascii c List.mem_cons_self
  exact ⟨c, rest, hc, rfl, capitalise_of_ascii hc rest⟩

theorem IsWord.capitalise (h : IsWord word) : IsWord (capitalise word) := by
  have hparted := h.parted.capitalise h.ascii
  obtain ⟨c, rest, hc, rfl, heq⟩ := h.exists_capitalise
  rw [heq] at hparted ⊢
  have hplain := List.forall_mem_cons.mp h.field.plain
  refine ⟨⟨List.cons_ne_nil _ _, ?_⟩, hparted, ?_⟩
  · exact List.forall_mem_cons.mpr ⟨(isWordSeparator_toUpper hc).trans hplain.1, hplain.2⟩
  · exact List.forall_mem_cons.mpr
      ⟨toNat_toUpper_of_ascii hc, fun d hd => h.ascii d (List.mem_cons_of_mem _ hd)⟩

theorem IsWord.capitalise_capitalise (h : IsWord word) :
    Inference.capitalise (Inference.capitalise word) = Inference.capitalise word := by
  obtain ⟨c, rest, hc, rfl, heq⟩ := h.exists_capitalise
  rw [heq, capitalise_of_ascii (toNat_toUpper_of_ascii hc), toUpper_toUpper_of_ascii hc]

theorem IsWord.map_toLower_capitalise (h : IsWord word) :
    (Inference.capitalise word).map Char.toLower = word.map Char.toLower := by
  obtain ⟨c, rest, hc, rfl, heq⟩ := h.exists_capitalise
  rw [heq, List.map_cons, List.map_cons, toLower_toUpper_of_ascii hc]

end Words

section Names
variable {cs : List Char} {name : String}

/-- The words that a name is shown as. -/
def titleWords (cs : List Char) : List (List Char) := (wordsOf cs).map capitalise

theorem displayChars_eq (cs : List Char) :
    displayChars cs = List.intercalate [' '] (titleWords cs) := rfl

theorem isWord_of_mem_titleWords (hascii : ∀ c ∈ cs, c.toNat < 128) {word : List Char}
    (h : word ∈ titleWords cs) : IsWord word := by
  obtain ⟨plain, hplain, rfl⟩ := List.mem_map.mp h
  exact (isWord_of_mem_wordsOf hascii hplain).capitalise

theorem isField_of_mem_titleWords (hascii : ∀ c ∈ cs, c.toNat < 128) {word : List Char}
    (h : word ∈ titleWords cs) : IsField isBlank word :=
  (isWord_of_mem_titleWords hascii h).field.imp fun _ => isBlank_of_not_isWordSeparator

theorem mem_displayChars (hascii : ∀ c ∈ cs, c.toNat < 128) {c : Char} (h : c ∈ displayChars cs) :
    c = ' ' ∨ isWordSeparator c = false ∧ c.toNat < 128 := by
  refine (mem_intercalate h).imp_right fun hmem => ?_
  obtain ⟨word, hword, hc⟩ := List.mem_flatten.mp hmem
  have hisWord := isWord_of_mem_titleWords hascii hword
  exact ⟨hisWord.field.plain c hc, hisWord.ascii c hc⟩

theorem not_mem_displayChars (hascii : ∀ c ∈ cs, c.toNat < 128) {c : Char}
    (hsep : isWordSeparator c = true) (hne : c ≠ ' ') : c ∉ displayChars cs := by
  intro hmem
  obtain ⟨hplain, -⟩ := (mem_displayChars hascii hmem).resolve_left hne
  rw [hsep] at hplain
  cases hplain

theorem isTitle_displayChars (hascii : ∀ c ∈ cs, c.toNat < 128) : IsTitle (displayChars cs) where
  noUnderscore := not_mem_displayChars hascii rfl (by decide)
  noHyphen := not_mem_displayChars hascii rfl (by decide)
  spaced := isSpaced_intercalate fun _ => isField_of_mem_titleWords hascii
  capitals word hmem := by
    rw [displayChars_eq, fieldsBy_intercalate rfl fun _ => isField_of_mem_titleWords hascii] at hmem
    obtain ⟨plain, hplain, rfl⟩ := List.mem_map.mp hmem
    obtain ⟨c, rest, hc, -, heq⟩ := (isWord_of_mem_wordsOf hascii hplain).exists_capitalise
    have hupper := upperChar_of_ascii (toNat_toUpper_of_ascii hc)
    exact ⟨c.toUpper, rest, heq, by rw [hupper, toUpper_toUpper_of_ascii hc]⟩
  parted := isParted_intercalate fun _ hword => (isWord_of_mem_titleWords hascii hword).parted

/-- But for case, blanks and the like, a name is shown character by character. -/
theorem map_toLower_displayChars (hascii : ∀ c ∈ cs, c.toNat < 128) :
    ((displayChars cs).filter (!isBlank ·)).map Char.toLower =
      (cs.filter (!isWordSeparator ·)).map Char.toLower := by
  have hfields : fieldsBy isBlank (displayChars cs) = titleWords cs :=
    fieldsBy_intercalate rfl fun _ => isField_of_mem_titleWords hascii
  rw [← flatten_fieldsBy, hfields, ← flatten_wordsOf, List.map_flatten, List.map_flatten,
    titleWords, List.map_map]
  congr 1
  exact List.map_congr_left fun word hword =>
    (isWord_of_mem_wordsOf hascii hword).map_toLower_capitalise

theorem displayChars_ne_nil (hascii : ∀ c ∈ cs, c.toNat < 128)
    (hplain : ∃ c ∈ cs, isWordSeparator c = false) : displayChars cs ≠ [] := by
  intro hnil
  obtain ⟨c, hc, hnot⟩ := hplain
  have hmem : c ∈ cs.filter (!isWordSeparator ·) :=
    List.mem_filter.mpr ⟨hc, by rw [hnot, Bool.not_false]⟩
  have hlower := map_toLower_displayChars hascii
  rw [hnil, List.filter_nil, List.map_nil, eq_comm, List.map_eq_nil_iff] at hlower
  exact List.ne_nil_of_mem hmem hlower

theorem displayChars_displayChars (hascii : ∀ c ∈ cs, c.toNat < 128) :
    displayChars (displayChars cs) = displayChars cs := by
  -- The words are found again, for none of them can be parted, and they begin with capitals.
  have hwords : wordsOf (displayChars cs) = titleWords cs :=
    wordsOf_intercalate fun _ => isWord_of_mem_titleWords hascii
  have htwice : titleWords (displayChars cs) = titleWords cs := by
    rw [titleWords, hwords, titleWords, List.map_map]
    exact List.map_congr_left fun word hword =>
      (isWord_of_mem_wordsOf hascii hword).capitalise_capitalise
  rw [displayChars_eq (displayChars cs), htwice, ← displayChars_eq]

theorem displayName_eq (h : displayChars name.toList ≠ []) :
    displayName name = String.ofList (displayChars name.toList) := by
  unfold displayName
  exact if_neg fun hempty => h (List.isEmpty_iff.mp hempty)

/-- The display name of an ASCII name with something to show is a title, has the characters of the
name in their order but for blanks, underscores, hyphens and case, and is its own display name. -/
theorem display_names_are_titles (hascii : ∀ c ∈ name.toList, c.toNat < 128)
    (hplain : ∃ c ∈ name.toList, isWordSeparator c = false) :
    IsTitle (displayName name).toList ∧
      lower (String.ofList ((displayName name).toList.filter (!isBlank ·))) =
        lower (String.ofList (name.toList.filter (!isWordSeparator ·))) ∧
      displayName (displayName name) = displayName name := by
  have hne := displayChars_ne_nil hascii hplain
  have hshown : ∀ c ∈ displayChars name.toList, c.toNat < 128 := fun c hc => by
    rcases mem_displayChars hascii hc with rfl | ⟨_, hc⟩
    · decide
    · exact hc
  rw [displayName_eq hne, String.toList_ofList]
  refine ⟨isTitle_displayChars hascii, ?_, ?_⟩
  · rw [lower_of_ascii fun c hc => hshown c (List.mem_of_mem_filter hc),
      lower_of_ascii fun c hc => hascii c (List.mem_of_mem_filter hc),
      map_toLower_displayChars hascii]
  · have htwice := displayChars_displayChars hascii
    rw [displayName_eq (by rwa [String.toList_ofList, htwice]), String.toList_ofList, htwice]

/-- Words that end at capitals, at digits and at the end of an acronym, beside all kinds of
separators. -/
theorem display_names_are_titles_of_mixed_case :
    displayName "\t__xmlHTTPRequest2-of  9Lives!aB-" = "Xml HTTP Request2 Of 9 Lives!a B" ∧
      IsTitle "Xml HTTP Request2 Of 9 Lives!a B".toList ∧
      lower (String.ofList ("Xml HTTP Request2 Of 9 Lives!a B".toList.filter (!isBlank ·))) =
        lower (String.ofList
          ("\t__xmlHTTPRequest2-of  9Lives!aB-".toList.filter (!isWordSeparator ·))) ∧
      displayName "Xml HTTP Request2 Of 9 Lives!a B" = "Xml HTTP Request2 Of 9 Lives!a B" := by
  have hshown : displayName "\t__xmlHTTPRequest2-of  9Lives!aB-" =
      "Xml HTTP Request2 Of 9 Lives!a B" := by decide +kernel
  have hascii : "\t__xmlHTTPRequest2-of  9Lives!aB-".toList.all (·.toNat < 128) = true := by
    decide +kernel
  have hletter : 'x' ∈ "\t__xmlHTTPRequest2-of  9Lives!aB-".toList := by decide +kernel
  have htitle := display_names_are_titles
    (fun c hc => of_decide_eq_true (List.all_eq_true.mp hascii c hc)) ⟨'x', hletter, rfl⟩
  rw [hshown] at htitle
  exact ⟨hshown, htitle⟩

/-- Other letters may become two capitals, of which the second then begins a word. -/
example : displayName "ßa" = "SSa" ∧ displayName "SSa" = "S Sa" := by decide +kernel

end Names

end Inference

end DatasetCatalog
