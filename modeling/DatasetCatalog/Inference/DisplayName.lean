import DatasetCatalog.Text.Blank
import DatasetCatalog.Text.CaseMapping

/-!
# Display names

A column's name as words: it is parted before capitals that begin a word, and at blanks,
underscores and hyphens; each word begins with a capital.
-/

namespace DatasetCatalog.Inference

open Text

def isLowerOrDigit (c : Char) : Bool := c.isLower || c.isDigit

/-- Whether a word ends between two characters, given what follows them: a capital begins a word
after a small letter or digit, and after a capital when a small letter follows. -/
def wordEndsBetween (a b : Char) (rest : List Char) : Bool :=
  b.isUpper && (isLowerOrDigit a || (a.isUpper && (rest.head?.map Char.isLower).getD false))

def spaceWords : List Char → List Char
  | a :: b :: rest =>
    if wordEndsBetween a b rest then a :: ' ' :: spaceWords (b :: rest)
    else a :: spaceWords (b :: rest)
  | cs => cs

def isWordSeparator (c : Char) : Bool := isBlank c || c == '_' || c == '-'

def capitalise : List Char → List Char
  | [] => []
  | c :: rest => upperChar c ++ rest

def displayChars (cs : List Char) : List Char :=
  let words := fieldsBy isWordSeparator (spaceWords cs)
  List.intercalate [' '] (words.map capitalise)

def displayName (name : String) : String :=
  let shown := displayChars name.toList
  if shown.isEmpty then name else String.ofList shown

end DatasetCatalog.Inference
