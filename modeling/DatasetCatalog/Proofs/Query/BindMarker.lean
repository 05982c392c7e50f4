import DatasetCatalog.Proofs.Query.Fragments

/-!
# Bind markers

A colon marks the word characters behind it as the name of a parameter, unless it stands behind
another colon, a backslash or a word character. What a text says about markers depends on the
characters at its ends, so it is read with the character before it and the text after it.
-/

namespace DatasetCatalog.Query

open Text

/-- No colon behind such a character marks a name. -/
def shields (c : Char) : Bool := c == ':' || c == '\\' || isWord c

/-- The names that are marked in a text behind `before`, from left to right. A name has no colon in
it, so it does not matter that its own characters are looked at again. -/
def bindMarkers (before : Option Char) : List Char → List (List Char)
  | [] => []
  | c :: rest =>
    let name := rest.takeWhile isWord
    if c == ':' && !before.any shields && !name.isEmpty then name :: bindMarkers (some c) rest
    else bindMarkers (some c) rest

/-- The last character of a text behind `before`. -/
def lastOf (before : Option Char) : List Char → Option Char
  | [] => before
  | c :: rest => lastOf (some c) rest

theorem isWord_colon : isWord ':' = false := by decide

theorem takeWhile_isWord_eq_nil {cs : List Char} (h : cs.head?.any isWord = false) :
    cs.takeWhile isWord = [] := by
  cases cs with
  | nil => rfl
  | cons c rest => exact List.takeWhile_cons_of_neg (by simpa using h)

theorem bindMarkers_cons_of_ne {c : Char} (h : c ≠ ':') (before : Option Char) (rest : List Char) :
    bindMarkers before (c :: rest) = bindMarkers (some c) rest := by
  simp [bindMarkers, h]

theorem bindMarkers_cons_of_shields {before : Option Char} (h : before.any shields = true)
    (c : Char) (rest : List Char) :
    bindMarkers before (c :: rest) = bindMarkers (some c) rest := by
  simp [bindMarkers, h]

theorem bindMarkers_cons_of_no_name {rest : List Char} (h : rest.head?.any isWord = false)
    (before : Option Char) (c : Char) :
    bindMarkers before (c :: rest) = bindMarkers (some c) rest := by
  simp [bindMarkers, takeWhile_isWord_eq_nil h]

/-- A text without colons marks nothing. -/
theorem bindMarkers_append_of_no_colon {cs : List Char} (h : ':' ∉ cs) (before : Option Char)
    (rest : List Char) : bindMarkers before (cs ++ rest) = bindMarkers (lastOf before cs) rest := by
  induction cs generalizing before with
  | nil => rfl
  | cons c cs ih =>
    have hc : c ≠ ':' := fun hc => h (hc ▸ List.mem_cons_self)
    rw [List.cons_append, bindMarkers_cons_of_ne hc,
      ih (fun hmem => h (List.mem_cons_of_mem _ hmem))]
    rfl

theorem bindMarkers_append_name {before : Option Char} (hb : before.any shields = false)
    {name rest : List Char} (hname : ∀ c ∈ name, isWord c = true) (hne : name ≠ [])
    (hrest : rest.head?.any isWord = false) :
    bindMarkers before (':' :: (name ++ rest)) =
      name :: bindMarkers (lastOf (some ':') name) rest := by
  have htake : (name ++ rest).takeWhile isWord = name := by
    rw [List.takeWhile_append_of_pos hname, takeWhile_isWord_eq_nil hrest, List.append_nil]
  have hcolon : ':' ∉ name := by
    intro hmem
    have hword := hname ':' hmem
    rw [isWord_colon] at hword
    cases hword
  have hmark : bindMarkers before (':' :: (name ++ rest)) =
      name :: bindMarkers (some ':') (name ++ rest) := by
    simp [bindMarkers, hb, htake, hne]
  rw [hmark, bindMarkers_append_of_no_colon hcolon]

/-- An escaped text begins as the text does, or with a backslash. -/
theorem head?_escapeMarks (before : Option Char) (c : Char) (cs : List Char) :
    (escapeMarks before (c :: cs)).head? = some c ∨
      (escapeMarks before (c :: cs)).head? = some '\\' := by
  unfold escapeMarks
  split
  · exact .inr rfl
  · exact .inl rfl

theorem no_name_in_escaped {cs rest : List Char} (hcs : cs.head?.any isWord = false)
    (hrest : rest.head?.any isWord = false) (before : Option Char) :
    (escapeMarks before cs ++ rest).head?.any isWord = false := by
  cases cs with
  | nil => exact hrest
  | cons c cs =>
    rw [List.head?_append]
    rcases head?_escapeMarks before c cs with h | h
    · rw [h]
      exact hcs
    · rw [h]
      exact (rfl : isWord '\\' = false)

/-- Escaped text marks nothing, wherever it stands, if no name begins right behind it. -/
theorem bindMarkers_append_escaped {rest : List Char} (hrest : rest.head?.any isWord = false)
    (cs : List Char) {known actual : Option Char}
    (h : known.any shields = true → actual.any shields = true) :
    bindMarkers actual (escapeMarks known cs ++ rest) =
      bindMarkers (lastOf actual (escapeMarks known cs)) rest := by
  induction cs generalizing known actual with
  | nil => rfl
  | cons c cs ih =>
    rw [escapeMarks]
    split
    · rename_i hmark
      have hc : c = ':' := by
        simp only [Bool.and_eq_true, beq_iff_eq] at hmark
        exact hmark.1
      subst hc
      have hslash : (some '\\').any shields = true := by decide
      simp only [List.cons_append, List.nil_append]
      rw [bindMarkers_cons_of_ne (by decide), bindMarkers_cons_of_shields hslash, ih id]
      rfl
    · rename_i hmark
      have hskip : bindMarkers actual (c :: (escapeMarks (some c) cs ++ rest)) =
          bindMarkers (some c) (escapeMarks (some c) cs ++ rest) := by
        by_cases hc : c = ':'
        · subst hc
          -- the colon was left alone: no name follows, or it is shielded
          cases hword : cs.head?.any isWord with
          | false =>
            exact bindMarkers_cons_of_no_name (no_name_in_escaped hword hrest _) actual ':'
          | true =>
            apply bindMarkers_cons_of_shields
            apply h
            have hshield : known.any (fun c => c == ':' || c == '\\' || isWord c) = true := by
              simpa [couldMarkName, hword] using hmark
            exact hshield
        · exact bindMarkers_cons_of_ne hc actual _
      rw [List.append_assoc, List.singleton_append, hskip, ih id]
      rfl

end DatasetCatalog.Query
