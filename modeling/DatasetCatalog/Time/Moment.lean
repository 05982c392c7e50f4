import DatasetCatalog.Time.Calendar

/-!
# Moments and durations

A moment is a date with a time of day to the microsecond and, optionally, an offset from universal
time. Moments with an offset are the same when they fall on the same instant; one with an offset
is never the same as one without.
-/

namespace DatasetCatalog.Time

structure Moment where
  date : Date
  hour : Nat
  minute : Nat
  second : Nat
  microsecond : Nat
  offset : Option Int
deriving DecidableEq, Repr

def microsecondsPerDay : Int := 86400000000

/-- Microseconds from 1970-01-01T00:00:00, read on the moment's own clock. -/
def Moment.local (m : Moment) : Int :=
  m.date.toDays * microsecondsPerDay +
    (((m.hour * 60 + m.minute) * 60 + m.second) * 1000000 + m.microsecond : Nat)

/-- The instant of a moment that has an offset, its own clock's reading otherwise. -/
def Moment.instant (m : Moment) : Int := m.local - m.offset.getD 0

def Moment.ofLocal? (offset : Option Int) (microseconds : Int) : Option Moment :=
  let days := microseconds.fdiv microsecondsPerDay
  let inDay := (microseconds - days * microsecondsPerDay).toNat
  (Date.ofDays? days).map fun date =>
    { date
      hour := inDay / 3600000000
      minute := inDay / 60000000 % 60
      second := inDay / 1000000 % 60
      microsecond := inDay % 1000000
      offset }

def Moment.ofDate (date : Date) : Moment := ⟨date, 0, 0, 0, 0, none⟩

/-- The moment a number of seconds after `m`; `m` itself at the end of the calendar. -/
def Moment.addSeconds (m : Moment) (seconds : Nat) : Moment :=
  (Moment.ofLocal? m.offset (m.local + seconds * 1000000)).getD m

def Moment.start2024 : Moment := ⟨⟨2024, 1, 1⟩, 0, 0, 0, 0, some 0⟩

structure Duration where
  days : Int
  seconds : Nat
  microseconds : Nat
deriving DecidableEq, Repr

/-- Carry seconds and microseconds beyond their bounds over to the larger units. -/
def Duration.ofParts (days seconds microseconds : Int) : Duration :=
  let total := days * microsecondsPerDay + seconds * 1000000 + microseconds
  let whole := total.fdiv microsecondsPerDay
  let rest := (total - whole * microsecondsPerDay).toNat
  ⟨whole, rest / 1000000, rest % 1000000⟩

end DatasetCatalog.Time
