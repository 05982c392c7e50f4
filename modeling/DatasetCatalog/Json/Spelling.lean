import DatasetCatalog.Json.Reader

/-!
# Spelled texts

A document can escape half of a surrogate pair, which no text holds. What such a text was, is told by
the numbers of its characters and halves.
-/

namespace DatasetCatalog.Json

open Text

/-- What stands between the quotes of the texts of a document; `inside` is what was met of the one
that is open, in reverse. -/
def spellings (inside : Option (List Char)) : List Char → List (List Char)
  | [] => []
  | '"' :: rest =>
    match inside with
    | none => spellings (some []) rest
    | some met => met.reverse :: spellings none rest
  | '\\' :: mark :: rest => spellings (inside.map (mark :: '\\' :: ·)) rest
  | c :: rest => spellings (inside.map (c :: ·)) rest

/-- The units of a spelled text. -/
def spelledUnits : List Char → List Nat
  | [] => []
  | '\\' :: 'u' :: a :: b :: c :: d :: rest =>
    (hexNumber? [a, b, c, d]).getD 0 :: spelledUnits rest
  | '\\' :: mark :: rest => ((escapes.lookup mark).getD mark).toNat :: spelledUnits rest
  | c :: rest => c.toNat :: spelledUnits rest

/-- How a document spells a text that is read from one with halves of pairs. -/
def spelling? (document text : String) : Option (List Nat) :=
  ((spellings none document.toList).map fun cs => joinUnits (spelledUnits cs)).find? fun numbers =>
    numbers.any isSurrogate && String.ofList (numbers.map unitChar) == text

/-- A text between quotes, by numbers; halves of pairs are escaped. -/
def quotedNumbers (numbers : List Nat) : String :=
  let quote := quoteFor (numbers.map unitChar)
  let escape (n : Nat) : List Char :=
    if isSurrogate n then escapeNumber n else escapeQuoted quote (unitChar n)
  String.ofList (quote :: numbers.flatMap escape ++ [quote])

end DatasetCatalog.Json
