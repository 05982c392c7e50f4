import DatasetCatalog.Text.Blank
import DatasetCatalog.Text.DecimalDigit
import DatasetCatalog.Time.Calendar

/-!
# Date patterns

A pattern is a sequence of fixed characters, blanks and numbers of a date or time of day. Each
part may match in several ways, the preferred one first; the first way to match all parts counts,
and it has to use up the text.
-/

namespace DatasetCatalog.Time

open Text

inductive PatternPart where
  | literal (c : Char)
  | blanks
  | year
  | month
  | day
  | hour
  | minute
  | second
deriving DecidableEq, Repr

structure DateParts where
  year : Nat := 1900
  month : Nat := 1
  day : Nat := 1
  second : Nat := 0

/-- Two characters, the first as given and the second any decimal digit, as a number. -/
def twoDigits? (first : Char → Bool) : List Char → Option (Nat × List Char)
  | a :: b :: rest => if first a && isDecimal b then some (digitsValue [a, b], rest) else none
  | _ => none

/-- Two characters, the first as given and the second among ASCII digits `low` to `high`. -/
def twoWithin? (first low high : Char) : List Char → Option (Nat × List Char)
  | a :: b :: rest =>
    if a == first && low ≤ b && b ≤ high then some (digitsValue [a, b], rest) else none
  | _ => none

def oneWithin? (low high : Char) : List Char → Option (Nat × List Char)
  | a :: rest => if low ≤ a && a ≤ high then some (digitsValue [a], rest) else none
  | [] => none

def oneDigit? : List Char → Option (Nat × List Char)
  | a :: rest => if isDecimal a then some (digitsValue [a], rest) else none
  | [] => none

def between (low high c : Char) : Bool := low ≤ c && c ≤ high

/-- The ways to read a number, preferred first. -/
def PatternPart.numbers (part : PatternPart) (cs : List Char) : List (Nat × List Char) :=
  match part with
  | .year =>
    if 4 ≤ cs.length && (cs.take 4).all isDecimal then [(digitsValue (cs.take 4), cs.drop 4)]
    else []
  | .month => [twoWithin? '1' '0' '2' cs, twoWithin? '0' '1' '9' cs, oneWithin? '1' '9' cs].reduceOption
  | .day =>
    [twoWithin? '3' '0' '1' cs, twoDigits? (between '1' '2') cs, twoWithin? '0' '1' '9' cs,
      oneWithin? '1' '9' cs, twoWithin? ' ' '1' '9' cs].reduceOption
  | .hour =>
    [twoWithin? '2' '0' '3' cs, twoDigits? (between '0' '1') cs, oneDigit? cs].reduceOption
  | .minute => [twoDigits? (between '0' '5') cs, oneDigit? cs].reduceOption
  | .second =>
    [twoWithin? '6' '0' '1' cs, twoDigits? (between '0' '5') cs, oneDigit? cs].reduceOption
  | .literal _ | .blanks => []

def DateParts.set (parts : DateParts) (part : PatternPart) (n : Nat) : DateParts :=
  match part with
  | .year => { parts with year := n }
  | .month => { parts with month := n }
  | .day => { parts with day := n }
  | .second => { parts with second := n }
  | _ => parts

/-- The ways to read one part, preferred first; blanks give way from the longest run. -/
def PatternPart.read (part : PatternPart) (parts : DateParts) (cs : List Char) :
    List (DateParts × List Char) :=
  match part, cs with
  | .literal c, a :: rest => if a == c then [(parts, rest)] else []
  | .literal _, [] => []
  | .blanks, _ =>
    let count := (cs.takeWhile isBlank).length
    (List.range count).reverse.map fun k => (parts, cs.drop (k + 1))
  | _, _ => (part.numbers cs).map fun (n, rest) => (parts.set part n, rest)

def readPattern : List PatternPart → DateParts → List Char → List (DateParts × List Char)
  | [], parts, cs => [(parts, cs)]
  | part :: more, parts, cs =>
    (part.read parts cs).flatMap fun (parts, rest) => readPattern more parts rest

/-- Whether the text is an existing date in the pattern. -/
def matchesPattern (pattern : List PatternPart) (cs : List Char) : Bool :=
  match readPattern pattern {} cs with
  | (parts, []) :: _ =>
    parts.second < 60 && (Date.of? parts.year parts.month parts.day).isSome
  | _ => false

/-- Dates as year/month/day, alone or with a time, month/day/year and day.month.year, and the
fourteen digits of a date with a time. -/
def datePatterns : List (List PatternPart) :=
  [[.year, .literal '/', .month, .literal '/', .day],
   [.year, .literal '/', .month, .literal '/', .day, .blanks, .hour, .literal ':', .minute,
    .literal ':', .second],
   [.month, .literal '/', .day, .literal '/', .year],
   [.day, .literal '.', .month, .literal '.', .year],
   [.year, .month, .day, .hour, .minute, .second]]

end DatasetCatalog.Time
