import DatasetCatalog.Text.Blank
import DatasetCatalog.Text.CaseMapping
import DatasetCatalog.Text.DecimalDigit
import DatasetCatalog.Text.WordCharacter

/-!
# Reading SQL text

Literals are blanked out, and words are looked for in any case at word boundaries. Three
characters beyond ASCII count as the letters i, s and k.
-/

namespace DatasetCatalog.Governance

open Text

/-- What follows the quote that closes a literal. A doubled quote belongs to the literal, unless
no single quote comes after it; then the last doubled quote's first half closes. -/
def closeQuote? : List Char → Option (List Char)
  | '\'' :: '\'' :: rest => (closeQuote? rest).or (some ('\'' :: rest))
  | '\'' :: rest => some rest
  | _ :: rest => closeQuote? rest
  | [] => none

theorem length_le_of_closeQuote? {cs rest : List Char} (h : closeQuote? cs = some rest) :
    rest.length ≤ cs.length := by
  fun_induction closeQuote? cs generalizing rest with
  | case1 r ih =>
    cases hr : closeQuote? r with
    | none => simp [hr] at h; subst h; simp
    | some x =>
      simp [hr] at h
      subst h
      have := ih hr
      simp only [List.length_cons]
      omega
  | case2 r => simp at h; subst h; simp
  | case3 c r _ _ ih =>
    have := ih h
    simp only [List.length_cons]
    omega
  | case4 => simp at h

def blankLiterals (cs : List Char) : List Char :=
  match cs with
  | [] => []
  | c :: rest =>
    if c == '\'' then
      match _h : closeQuote? rest with
      | some after => '\'' :: '\'' :: blankLiterals after
      | none => c :: blankLiterals rest
    else c :: blankLiterals rest
termination_by cs.length
decreasing_by
  · have := length_le_of_closeQuote? _h
    simp only [List.length_cons]
    omega
  · simp
  · simp

/-- The small ASCII letter that a character stands for. -/
def caseless (c : Char) : Char :=
  if c == 'İ' || c == 'ı' then 'i'
  else if c == 'ſ' then 's'
  else if c == '\u212A' then 'k'
  else c.toLower

/-- Split off a word given in small letters. -/
def splitWord? : List Char → List Char → Option (List Char × List Char)
  | [], cs => some ([], cs)
  | _ :: _, [] => none
  | w :: word, c :: cs =>
    if caseless c == w then (splitWord? word cs).map fun (read, rest) => (c :: read, rest)
    else none

def skipBlanks? (cs : List Char) : Option (List Char) :=
  if (cs.head?.map isBlank).getD false then some (cs.dropWhile isBlank) else none

/-- Split off words with blanks between them; the result is what stood for each word. -/
def splitWords? : List (List Char) → List Char → Option (List (List Char) × List Char)
  | [], cs => some ([], cs)
  | [word], cs => (splitWord? word cs).map fun (read, rest) => ([read], rest)
  | word :: more, cs => do
    let (read, rest) ← splitWord? word cs
    let (others, rest) ← splitWords? more (← skipBlanks? rest)
    return (read :: others, rest)

def beginsWithWord (cs : List Char) : Bool := (cs.head?.map isWord).getD false

/-- The places where a word may begin: the rest of the text behind no word character. -/
def wordStarts (afterWord : Bool) : List Char → List (List Char)
  | [] => []
  | c :: rest =>
    (if afterWord then [] else [c :: rest]) ++ wordStarts (isWord c) rest

end DatasetCatalog.Governance
