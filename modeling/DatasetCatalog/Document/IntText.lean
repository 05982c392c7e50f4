import DatasetCatalog.Document.Fault
import DatasetCatalog.Number.NumberText

/-!
# Whole numbers written in documents

A text writes a whole number in decimal digits. Beside the plain form a freer one is read: with
white space around it, a plus sign, zeros in front, a fraction of zeros and single underscores.
-/

namespace DatasetCatalog.Document

open Number Text

/-- The most characters of a whole number, its sign included. -/
def maxIntLength : Nat := 4300

/-- The number that digits without superfluous zeros write. Too many of them are a fault whatever
follows. -/
def plainInt? (cs : List Char) : Option (Checked Int) :=
  let (negative, digits) := match cs with
    | '-' :: rest => (true, rest)
    | rest => (false, rest)
  let run := digits.takeWhile Char.isDigit
  if run.isEmpty || (run.length != 1 && run.head? == some '0') then none
  else if maxIntLength < cs.length - digits.length + run.length then some (.fault .oversizedInt)
  else if run.length == digits.length then some (.ok (signed negative (digitsValue run)))
  else none

/-- Remove further zeros and underscores behind a zero, up to a digit, a minus sign or, with the
character in front of it, a point. -/
def skipZeros? (previous : Char) : List Char → Option (List Char)
  | [] => some [previous]
  | c :: rest =>
    if c == '0' || c == '_' then skipZeros? c rest
    else if c == '.' then some (previous :: c :: rest)
    else if c.isDigit || c == '-' then some (c :: rest)
    else none

def unpadded? : List Char → Option (List Char)
  | '0' :: rest => skipZeros? '0' rest
  | c :: rest => if c.isDigit then some (c :: rest) else none
  | [] => none

/-- Underscores have to stand singly inside the digits. -/
def dropSingleUnderscores (cs : List Char) : List Char :=
  let runs := cs.splitOn '_'
  if runs.any List.isEmpty then cs else runs.flatten

def dropZeroFraction (cs : List Char) : List Char :=
  let fraction := (cs.dropWhile (· != '.')).drop 1
  if fraction.isEmpty || !fraction.all (· == '0') then cs else cs.takeWhile (· != '.')

def cleanedInt? (cs : List Char) : Option (List Char) :=
  let cleaned := match trimWhite cs with
    | '+' :: '-' :: _ => none
    | '+' :: rest => unpadded? rest
    | '-' :: rest => (unpadded? rest).map ('-' :: ·)
    | rest => unpadded? rest
  cleaned.map fun cs => dropSingleUnderscores (dropZeroFraction cs)

def intOfText (s : String) : Checked Int :=
  let cs := s.toList
  ((plainInt? cs).or ((cleanedInt? cs).bind plainInt?)).getD (.fault .unreadableInt)

end DatasetCatalog.Document
