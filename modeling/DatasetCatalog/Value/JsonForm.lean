import DatasetCatalog.Text.Blank
import DatasetCatalog.Text.Utf8
import DatasetCatalog.Value.Display

/-!
# JSON form of a value

Values as a stored document can hold them: doubles that are no numbers become null, and dates,
durations, decimals and octets become texts. Octets that are no text have no such form, and neither
have values too deep within each other.
-/

namespace DatasetCatalog

open Number Time

/-- Digits after the point without zeros at the end. -/
def trimmedFraction (microsecond : Nat) : String :=
  if microsecond == 0 then ""
  else "." ++ String.ofList (Text.dropEndWhile (· == '0') (padded 6 microsecond).toList)

/-- A length of time by its parts: years of 365 days, days, hours, minutes and seconds. -/
def durationForm (d : Duration) : String :=
  let total := d.days * microsecondsPerDay + d.seconds * 1000000 + d.microseconds
  let n := total.natAbs
  let days := n / 86400000000
  let seconds := n / 1000000 % 86400
  let sub := n % 1000000
  let part (count : Nat) (mark : String) : String :=
    if count == 0 then "" else intText count ++ mark
  let clock := part (seconds / 3600) "H" ++ part (seconds / 60 % 60) "M" ++
    (if seconds % 60 == 0 && sub == 0 then ""
      else intText (seconds % 60 : Nat) ++ trimmedFraction sub ++ "S")
  (if total < 0 then "-P" else "P") ++ part (days / 365) "Y" ++ part (days % 365) "D" ++
    (if n == 0 then "T0S" else if clock.isEmpty then "" else "T" ++ clock)

/-- The JSON form of what is not a number. -/
def NotANumber.form : NotANumber → Value
  | .double => .null
  | n@(.decimal ..) => .text n.text

inductive Unwritable where
  | octets
  | depth
deriving DecidableEq, Repr

/-- How many free values may be within each other. -/
def maxFreeDepth : Nat := 255

namespace Value

mutual

/-- The JSON form with at most `room` values within each other. -/
def jsonFormIn : Nat → Value → Except Unwritable Value
  | 0, _ => .error .depth
  | room + 1, v =>
    match v with
    | .float x => .ok (if x.isFinite then .float x else .null)
    | .date d => .ok (.text d.text)
    | .moment m => .ok (.text m.jsonText)
    | .duration d => .ok (.text (durationForm d))
    | .decimal d => .ok (.text d.text)
    | .nan _ n => .ok n.form
    | .bytes octets =>
      match Text.decodeUtf8? octets with
      | some s => .ok (.text s)
      | none => .error .octets
    | .list items => (jsonFormsIn room items).map .list
    | .object entries => (jsonEntriesIn room entries).map .object
    | v => .ok v
termination_by structural _ v => v

def jsonFormsIn (room : Nat) : List Value → Except Unwritable (List Value)
  | [] => .ok []
  | v :: rest => do
    let form ← jsonFormIn room v
    return form :: (← jsonFormsIn room rest)
termination_by structural vs => vs

def jsonEntriesIn (room : Nat) : List (String × Value) → Except Unwritable (List (String × Value))
  | [] => .ok []
  | (k, v) :: rest => do
    let form ← jsonFormIn room v
    return (k, form) :: (← jsonEntriesIn room rest)
termination_by structural es => es

end

mutual

/-- How many lists and objects that are not empty a value has within each other. -/
def nesting : Value → Nat
  | .list (v :: rest) => max v.nesting (nestings rest) + 1
  | .object ((_, v) :: rest) => max v.nesting (nestingEntries rest) + 1
  | _ => 0
termination_by structural v => v

def nestings : List Value → Nat
  | [] => 0
  | v :: rest => max v.nesting (nestings rest)
termination_by structural vs => vs

def nestingEntries : List (String × Value) → Nat
  | [] => 0
  | (_, v) :: rest => max v.nesting (nestingEntries rest)
termination_by structural es => es

end

/-- The JSON form of a document whose free values stand within `frame` lists and objects of fixed
kind, which do not count. -/
def jsonForm (frame : Nat) (v : Value) : Except Unwritable Value := v.jsonFormIn (frame + maxFreeDepth)

end Value

end DatasetCatalog
