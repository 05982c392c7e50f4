import DatasetCatalog.Document.Scalar
import DatasetCatalog.Time.IsoText

/-!
# Reading moments

A moment of a document is written as a date, alone or with a time of day and an offset, or as a
number of seconds or, beyond twenty thousand million, milliseconds since 1970, universal time.
-/

namespace DatasetCatalog.Document

open Number Text Time

/-- Year, month and day as `yyyy-mm-dd`, and the rest. -/
def datePart? (cs : List Char) : Option (Date × List Char) := do
  let (year, rest) ← readDigits? 4 cs
  let (month, rest) ← readDigits? 2 (← skipHyphen? true rest)
  let (day, rest) ← readDigits? 2 (← skipHyphen? true rest)
  return (← Date.of? year month day, rest)

def secondPart? : List Char → Option (Nat × Nat × List Char)
  | ':' :: rest => do
    let (second, rest) ← readDigits? 2 rest
    match rest with
    | mark :: more =>
      if mark == '.' || mark == ',' then
        let digits := more.takeWhile Char.isDigit
        if digits.isEmpty then none
        else
          let kept := digits.take 6
          some (second, digitsValue kept * Nat.pow 10 (6 - kept.length), more.drop digits.length)
      else some (second, 0, rest)
    | [] => some (second, 0, [])
  | rest => some (0, 0, rest)

/-- An offset in microseconds, which takes up all of the text. -/
def offsetPart? : List Char → Option (Option Int)
  | [] => some none
  | ['Z'] | ['z'] => some (some 0)
  | sign :: rest => do
    guard (sign == '+' || sign == '-' || sign == '−')
    let (hour, rest) ← readDigits? 2 rest
    let (minute, rest) ← readDigits? 2 (if rest.head? == some ':' then rest.drop 1 else rest)
    guard (rest.isEmpty && minute < 60 && hour < 24)
    let n : Int := (hour * 3600 + minute * 60) * 1000000
    return some (if sign == '+' then n else -n)

def momentText? (cs : List Char) : Option Moment := do
  let (date, rest) ← datePart? cs
  match rest with
  | separator :: rest =>
    guard (separator == 'T' || separator == 't' || separator == ' ' || separator == '_')
    let (hour, rest) ← readDigits? 2 rest
    guard (rest.head? == some ':')
    let (minute, rest) ← readDigits? 2 (rest.drop 1)
    let (second, microsecond, rest) ← secondPart? rest
    let offset ← offsetPart? rest
    guard (hour < 24 && minute < 60 && second < 60)
    return ⟨date, hour, minute, second, microsecond, offset⟩
  | [] => none

/-- A moment by its distance from 1970. The fault tells whether the year is the one before the
first, or further out. -/
def momentAt (seconds microseconds : Int) : Checked Moment :=
  match Moment.ofLocal? (some 0) (seconds * 1000000 + microseconds) with
  | some m => .ok m
  | none =>
    if -62167219200 ≤ seconds && seconds < 0 then .fault .unreadableMoment
    else .fault .unreadableDate

/-- The greatest number that counts seconds. -/
def maxSeconds : Nat := 20000000000

def momentOfMilliseconds (n microseconds : Int) : Checked Moment :=
  let seconds := n.fdiv 1000
  momentAt seconds ((n - seconds * 1000) * 1000 + microseconds)

def momentOfInt (n : Int) : Checked Moment :=
  if n.natAbs ≤ maxSeconds then momentAt n 0 else momentOfMilliseconds n 0

/-- The fraction behind whole seconds or milliseconds is rounded to microseconds. -/
def momentOfFloat (x : Float) : Checked Moment :=
  let fraction (scale : Float) : Int := ((x - x.floor) * scale).round.toUInt64.toNat
  match (Binary64.ofFloat x.floor).toRat? with
  | some q =>
    if x.abs ≤ Float.ofNat maxSeconds then momentAt q.num (fraction 1000000.0)
    else momentOfMilliseconds q.num (fraction 1000.0)
  | none => .fault .unreadableDate

/-- A number in decimal digits with an optional sign; with a point it may have an exponent. -/
def momentNumber? (cs : List Char) : Option (Checked Moment) :=
  let (negative, digits) := readSign cs
  let whole := digits.takeWhile Char.isDigit
  match digits.dropWhile Char.isDigit with
  | [] =>
    if whole.isEmpty then none else some (momentOfInt (signed negative (digitsValue whole)))
  | '.' :: _ => (readPlain? cs).map momentOfFloat
  | _ => none

def momentOrDate? (cs : List Char) : Option Moment :=
  (momentText? cs).or <|
    match datePart? cs with
    | some (date, []) => some (Moment.ofDate date)
    | _ => none

/-- Of a year before the first it is told whether it would do but for that. -/
def momentOfText (s : String) : Checked Moment :=
  let cs := s.toList
  match momentOrDate? cs, momentNumber? cs, cs with
  | some m, _, _ => .ok m
  | none, some m, _ => m
  | none, none, '0' :: '0' :: '0' :: '0' :: rest =>
    .fault (if (momentOrDate? ('0' :: '4' :: '0' :: '0' :: rest)).isSome then .unreadableMoment
      else .unreadableDate)
  | none, none, _ => .fault .unreadableDate

/-- A moment from a number, for which all years out of range are alike. -/
def momentOfNumber (v : Value) : Checked Moment :=
  match v, floatOf? v with
  | _, none => .fault .notMoment
  | .int n, some _ => alike (momentOfInt n)
  | _, some x => alike (momentOfFloat x)
where
  alike : Checked Moment → Checked Moment
    | .ok m => .ok m
    | .faults _ => .fault .unreadableMoment

def moment : Reader Moment := fun v =>
  ((writing? .unreadableDate v).elim
    (match v with
    | .moment m => Checked.ok m
    | .date d => .ok (Moment.ofDate d)
    | .bool _ => .fault .notMoment
    | v => momentOfNumber v)
    (·.bind momentOfText)).map fun m => ⟨m, .moment m⟩

end DatasetCatalog.Document
