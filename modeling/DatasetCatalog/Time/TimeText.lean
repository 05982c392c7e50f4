import DatasetCatalog.Number.DoubleText
import DatasetCatalog.Time.Moment

/-!
# Text of dates, moments and durations

Dates are written year-month-day. A moment adds the time of day, microseconds only where there are
any, and the offset.
-/

namespace DatasetCatalog.Time

open Number

/-- `n` in decimal, with zeros in front up to `width` digits. -/
def padded (width n : Nat) : String :=
  let digits := natText n
  String.ofList (List.replicate (width - digits.length) '0' ++ digits)

def Date.text (d : Date) : String :=
  padded 4 d.year ++ "-" ++ padded 2 d.month ++ "-" ++ padded 2 d.day

def fractionText (microsecond : Nat) : String :=
  if microsecond == 0 then "" else "." ++ padded 6 microsecond

def offsetText (offset : Int) : String :=
  let n := offset.natAbs
  let seconds := n / 1000000
  let sub := n % 1000000
  (if offset < 0 then "-" else "+") ++ padded 2 (seconds / 3600) ++ ":" ++
    padded 2 (seconds / 60 % 60) ++
    (if seconds % 60 == 0 && sub == 0 then ""
      else ":" ++ padded 2 (seconds % 60) ++ fractionText sub)

def Moment.clockText (m : Moment) : String :=
  padded 2 m.hour ++ ":" ++ padded 2 m.minute ++ ":" ++ padded 2 m.second ++
    fractionText m.microsecond

/-- Date and time of day around a separator, then the offset. -/
def Moment.textWith (separator : String) (m : Moment) : String :=
  m.date.text ++ separator ++ m.clockText ++ (m.offset.map offsetText).getD ""

def Moment.text (m : Moment) : String := m.textWith "T"

/-- An offset without its seconds, the sign being that of the seconds rounded down; `Z` for none. -/
def shortOffsetText (offset : Int) : String :=
  let seconds := offset.fdiv 1000000
  let n := seconds.natAbs
  if seconds == 0 then "Z"
  else (if seconds < 0 then "-" else "+") ++ padded 2 (n / 3600) ++ ":" ++ padded 2 (n / 60 % 60)

/-- As `text`, with the offset short. -/
def Moment.jsonText (m : Moment) : String :=
  m.date.text ++ "T" ++ m.clockText ++ (m.offset.map shortOffsetText).getD ""

/-- Days in words unless there are none, then hours, minutes and seconds. -/
def Duration.text (d : Duration) : String :=
  (if d.days == 0 then ""
    else intText d.days ++ (if d.days.natAbs == 1 then " day, " else " days, ")) ++
    String.ofList (natText (d.seconds / 3600)) ++ ":" ++ padded 2 (d.seconds / 60 % 60) ++ ":" ++
    padded 2 (d.seconds % 60) ++ fractionText d.microseconds

end DatasetCatalog.Time
