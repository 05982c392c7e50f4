import DatasetCatalog.Text.DecimalDigit
import DatasetCatalog.Time.Moment

/-!
# Reading ISO 8601

A date by day or by week, in the extended form with hyphens or the basic form without, then
optionally any one character and a time of day with an offset. Seconds and minutes may be left
out, a fraction may have any number of digits, and `Z` stands for offset zero.
-/

namespace DatasetCatalog.Time

open Text

/-- The number written by exactly `count` ASCII digits, and the rest. -/
def readDigits? (count : Nat) (cs : List Char) : Option (Nat × List Char) :=
  let digits := cs.take count
  if digits.length == count && digits.all Char.isDigit then
    some (digitsValue digits, cs.drop count)
  else none

/-- How many characters the date takes. A basic week date has a weekday when an even number of
digits follows the mark; after an extended week a hyphen and a digit begin a time. -/
def dateLength (cs : List Char) : Option Nat :=
  let count := cs.length
  if count == 7 then some 7
  else if cs[4]? == some '-' then
    if cs[5]? == some 'W' then
      if 8 < count && cs[8]? == some '-' then
        if count == 9 then none
        else if (cs[10]?.map Char.isDigit).getD false then some 8 else some 10
      else some 8
    else some 10
  else if cs[4]? == some 'W' then
    let position := 7 + ((cs.drop 7).takeWhile Char.isDigit).length
    some (if position < 9 then position else if position % 2 == 0 then 7 else 8)
  else some 8

/-- The rest after one hyphen, where hyphens are in use. -/
def skipHyphen? (inUse : Bool) (cs : List Char) : Option (List Char) :=
  match inUse, cs with
  | false, _ => some cs
  | true, '-' :: rest => some rest
  | true, _ => none

def readDate? (length : Nat) (cs : List Char) : Option Date := do
  let (year, afterYear) ← readDigits? 4 cs
  let extended := afterYear.head? == some '-'
  match ← skipHyphen? extended afterYear with
  | 'W' :: rest =>
    let (week, afterWeek) ← readDigits? 2 rest
    if cs.length - afterWeek.length < length then
      let (day, _) ← readDigits? 1 (← skipHyphen? extended afterWeek)
      Date.ofWeek? year week day
    else Date.ofWeek? year week 1
  | rest =>
    let (month, afterMonth) ← readDigits? 2 rest
    let (day, _) ← readDigits? 2 (← skipHyphen? extended afterMonth)
    Date.of? year month day

/-- The date that an ISO text of seven, eight or ten characters writes. -/
def Date.ofIso? (s : String) : Option Date :=
  let cs := s.toList
  if [7, 8, 10].contains cs.length then readDate? cs.length cs else none

/-- Hours, minutes, seconds and microseconds, in this order. -/
structure Clock where
  parts : List Nat
  microsecond : Nat
  /-- Whether the reading ended before a character that belongs to no part. -/
  extra : Bool

/-- A fraction of a second; digits beyond the sixth are dropped. -/
def readFraction? (parts : List Nat) (followed : Bool) (cs : List Char) : Option Clock :=
  let count := min 6 cs.length
  (readDigits? count cs).map fun (n, rest) =>
    let rest := rest.dropWhile Char.isDigit
    ⟨parts.reverse, n * Nat.pow 10 (6 - count), !rest.isEmpty || followed⟩

/-- Read up to `left` more two-digit parts; `followed` tells whether an offset comes after. -/
def readParts? (followed colons : Bool) (parts : List Nat) : Nat → List Char → Option Clock
  | 0, cs => readFraction? parts followed cs
  | left + 1, cs => do
    let (n, rest) ← readDigits? 2 cs
    let parts := n :: parts
    let colons := if left == 2 then rest.head? == some ':' else colons
    match rest with
    | [] => some ⟨parts.reverse, 0, followed⟩
    | [c] => if c.toNat < 128 then some ⟨parts.reverse, 0, true⟩ else none
    | c :: more =>
      if colons && c == ':' then readParts? followed colons parts left more
      else if c == '.' || c == ',' then readFraction? parts followed more
      else if !colons then readParts? followed colons parts left rest
      else none

def readClock? (followed : Bool) (cs : List Char) : Option Clock :=
  readParts? followed true [] 3 cs

def Clock.part (c : Clock) (i : Nat) : Nat := c.parts[i]?.getD 0

/-- Microseconds ahead of universal time, less than a day. A fraction of a second counts only
beside whole seconds. -/
def readOffset? (negative : Bool) (cs : List Char) : Option Int := do
  let clock ← readClock? false cs
  let seconds := (clock.part 0 * 60 + clock.part 1) * 60 + clock.part 2
  let n := if seconds == 0 then 0 else seconds * 1000000 + clock.microsecond
  if clock.extra || 86400000000 ≤ n then none else some (if negative then -n else n)

def isOffsetSign (c : Char) : Bool := c == '+' || c == '-'

def readTime? (date : Date) (cs : List Char) : Option Moment := do
  let clockText := cs.takeWhile (!isOffsetSign ·)
  let rest := cs.dropWhile (!isOffsetSign ·)
  let clock ← readClock? (!rest.isEmpty) clockText
  let offset ← match rest with
    | [] => if clock.extra then none else some none
    | sign :: digits => (readOffset? (sign == '-') digits).map some
  if clock.part 0 < 24 && clock.part 1 < 60 && clock.part 2 < 60 then
    some ⟨date, clock.part 0, clock.part 1, clock.part 2, clock.microsecond, offset⟩
  else none

def spellZulu (cs : List Char) : List Char :=
  cs.flatMap fun c => if c == 'Z' then ['+', '0', '0', ':', '0', '0'] else [c]

/-- The moment that an ISO text writes; a date alone is its midnight. -/
def Moment.ofIso? (s : String) : Option Moment := do
  let cs := spellZulu s.toList
  let length ← dateLength cs
  let date ← readDate? length cs
  match cs.drop length with
  | [] => some (Moment.ofDate date)
  | _ :: time => readTime? date time

end DatasetCatalog.Time
