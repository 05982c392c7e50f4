import DatasetCatalog.Proofs.Query.NamesInUse
import Mathlib.Data.List.TakeWhile

/-!
# Words as names

A name that is accepted is a word, or for a table two words joined by a point. The tests look only
at the stem of a name, which is the name without a line feed at its end.
-/

namespace DatasetCatalog

open Text

/-- A name of word characters that does not start with a decimal digit. -/
structure IsWordName (name : String) : Prop where
  nonempty : name ≠ ""
  words : ∀ c ∈ name.toList, isWord c = true
  start : ∀ c ∈ name.toList.head?, isDecimal c = false

/-- A word, or the word of a schema, a point and a word. -/
def IsTableWord (name : String) : Prop :=
  IsWordName name ∨
    ∃ schema table, name = schema ++ "." ++ table ∧ IsWordName schema ∧ IsWordName table

/-- What a name for a use may be. -/
def NameUse.Allows : NameUse → String → Prop
  | .table => IsTableWord
  | .dimension | .measure | .filterField | .computedField | .schema => IsWordName

/-- No word has a point in it, so that the first point ends the first of two words. -/
theorem IsWordName.no_point {name : String} (h : IsWordName name) :
    ∀ c ∈ name.toList, (c != '.') = true := by
  intro c hc
  rw [bne_iff_ne]
  rintro rfl
  have hword := h.words '.' hc
  have hpoint : isWord '.' = false := by decide
  rw [hpoint] at hword
  cases hword

theorem IsTableWord.words {name : String} (h : IsTableWord name) :
    ∀ c ∈ name.toList, isWord c = true ∨ c = '.' := by
  intro c hc
  rcases h with h | ⟨schema, table, rfl, hschema, htable⟩
  · exact .inl (h.words c hc)
  · simp only [String.toList_append, List.mem_append] at hc
    rcases hc with (hc | hc) | hc
    · exact .inl (hschema.words c hc)
    · exact .inr (List.mem_singleton.mp hc)
    · exact .inl (htable.words c hc)

theorem NameUse.Allows.words {use : NameUse} {name : String} (h : use.Allows name) :
    ∀ c ∈ name.toList, isWord c = true ∨ c = '.' := by
  cases use with
  | table => exact IsTableWord.words h
  | _ => exact fun c hc => .inl (IsWordName.words h c hc)

namespace Query

/-- A name without a line feed at its end. -/
def stem (name : String) : String := String.ofList (dropFinalNewline name.toList)

theorem toList_stem (name : String) : (stem name).toList = dropFinalNewline name.toList :=
  String.toList_ofList

section Stems
variable {name : String}

theorem eq_stem_or_eq_stem_append (name : String) :
    name = stem name ∨ name = stem name ++ "\n" := by
  rw [← String.toList_inj, ← String.toList_inj, String.toList_append, toList_stem]
  unfold dropFinalNewline
  split
  · rename_i hlast
    exact .inr (List.dropLast_append_getLast? '\n' (beq_iff_eq.mp hlast)).symm
  · exact .inl rfl

theorem stem_append_newline (name : String) : stem (name ++ "\n") = name := by
  have hlast : (name.toList ++ ['\n']).getLast? = some '\n' := List.getLast?_concat
  rw [← String.toList_inj, toList_stem, String.toList_append]
  change dropFinalNewline (name.toList ++ ['\n']) = _
  rw [dropFinalNewline, hlast, if_pos (beq_self_eq_true _), List.dropLast_concat]

theorem stem_of_no_newline (h : '\n' ∉ name.toList) : stem name = name := by
  rw [← String.toList_inj, toList_stem, dropFinalNewline, if_neg]
  intro hlast
  exact h (List.mem_of_getLast? (beq_iff_eq.mp hlast))

end Stems

section Words
variable {name : String}

theorem isPlainName_iff : isPlainName name.toList = true ↔ IsWordName name := by
  cases hname : name.toList with
  | nil =>
    have hempty : name = "" := String.toList_eq_nil_iff.mp hname
    exact ⟨nofun, fun h => absurd hempty h.nonempty⟩
  | cons c rest =>
    rw [isPlainName, isNameStart, Bool.and_eq_true, Bool.and_eq_true, Bool.not_eq_true',
      List.all_eq_true]
    constructor
    · rintro ⟨⟨hword, hstart⟩, hrest⟩
      refine ⟨?_, hname ▸ List.forall_mem_cons.mpr ⟨hword, hrest⟩, ?_⟩
      · rintro rfl
        cases hname
      · rw [hname]
        rintro c' hc'
        cases Option.mem_some.mp hc'
        exact hstart
    · intro h
      obtain ⟨hword, hrest⟩ := List.forall_mem_cons.mp (hname ▸ h.words)
      exact ⟨⟨hword, h.start c (hname ▸ Option.mem_some_self c)⟩, hrest⟩

theorem isIdentifier_iff : isIdentifier name = true ↔ IsWordName (stem name) := by
  rw [← isPlainName_iff, toList_stem]
  rfl

theorem split_word (h : IsWordName name) :
    name.toList.takeWhile (· != '.') = name.toList ∧ name.toList.dropWhile (· != '.') = [] :=
  ⟨List.takeWhile_eq_self_iff.mpr h.no_point, List.dropWhile_eq_nil_iff.mpr h.no_point⟩

/-- Two words joined by a point are taken apart at that point. -/
theorem split_joined {schema : String} (h : IsWordName schema) (table : String) :
    (schema ++ "." ++ table).toList.takeWhile (· != '.') = schema.toList ∧
      (schema ++ "." ++ table).toList.dropWhile (· != '.') = '.' :: table.toList := by
  have hlist : (schema ++ "." ++ table).toList = schema.toList ++ '.' :: table.toList := by
    simp [String.toList_append]
  rw [hlist, List.takeWhile_append_of_pos h.no_point, List.dropWhile_append_of_pos h.no_point]
  simp

/-- A text is what stands in front of its first point, that point, and what is behind it. -/
theorem joined_of_split {c : Char} {second : List Char}
    (h : name.toList.dropWhile (· != '.') = c :: second) :
    name = String.ofList (name.toList.takeWhile (· != '.')) ++ "." ++ String.ofList second := by
  have hsplit := List.takeWhile_append_dropWhile (p := (· != '.')) (l := name.toList)
  have hpoint : c = '.' := by
    have hhead := List.head?_dropWhile_not (· != '.') name.toList
    rw [h] at hhead
    simpa using hhead
  rw [h, hpoint] at hsplit
  simpa [← String.toList_inj, String.toList_append] using hsplit.symm

theorem isTableName_iff : isTableName name = true ↔ IsTableWord (stem name) := by
  unfold isTableName
  simp only
  rw [← toList_stem]
  generalize stem name = t
  constructor
  · intro h
    split at h
    · rename_i hrest
      have hfirst : t.toList.takeWhile (· != '.') = t.toList :=
        List.takeWhile_eq_self_iff.mpr (List.dropWhile_eq_nil_iff.mp hrest)
      rw [hfirst] at h
      exact .inl (isPlainName_iff.mp h)
    · rename_i c second hrest
      obtain ⟨hfirst, hsecond⟩ := Bool.and_eq_true_iff.mp h
      exact .inr ⟨_, _, joined_of_split hrest, isPlainName_iff.mp (by rwa [String.toList_ofList]),
        isPlainName_iff.mp (by rwa [String.toList_ofList])⟩
  · rintro (h | ⟨schema, table, rfl, hschema, htable⟩)
    · obtain ⟨hfirst, hrest⟩ := split_word h
      rw [hrest, hfirst]
      exact isPlainName_iff.mpr h
    · obtain ⟨hfirst, hrest⟩ := split_joined hschema table
      rw [hrest, hfirst]
      exact Bool.and_eq_true_iff.mpr ⟨isPlainName_iff.mpr hschema, isPlainName_iff.mpr htable⟩

end Words

section Uses
variable {use : NameUse} {name : String}

theorem accepts_iff_allows_stem : use.accepts name = true ↔ use.Allows (stem name) := by
  cases use with
  | table => exact isTableName_iff
  | _ => exact isIdentifier_iff

/-- An accepted name is an allowed one, behind which one line feed is let pass. -/
theorem accepts_iff :
    use.accepts name = true ↔ ∃ t, use.Allows t ∧ (name = t ∨ name = t ++ "\n") := by
  rw [accepts_iff_allows_stem]
  constructor
  · exact fun h => ⟨stem name, h, eq_stem_or_eq_stem_append name⟩
  · rintro ⟨t, ht, rfl | rfl⟩
    · have hnewline : '\n' ∉ name.toList := by
        intro hmem
        have hword : isWord '\n' = false := by decide
        rcases ht.words '\n' hmem with h | h
        · rw [hword] at h
          cases h
        · cases h
      rwa [stem_of_no_newline hnewline]
    · rwa [stem_append_newline]

/-- Any character of an accepted name is a word character, or a point or a line feed. -/
theorem words_of_accepts (h : use.accepts name = true) :
    ∀ c ∈ name.toList, isWord c = true ∨ c = '.' ∨ c = '\n' := by
  intro c hc
  obtain ⟨t, ht, rfl | rfl⟩ := accepts_iff.mp h
  · exact (ht.words c hc).imp_right .inl
  · rw [String.toList_append, List.mem_append] at hc
    rcases hc with hc | hc
    · exact (ht.words c hc).imp_right .inl
    · exact .inr (.inr (List.mem_singleton.mp hc))

end Uses

end Query

end DatasetCatalog
