import DatasetCatalog.Text.Quoted
import DatasetCatalog.Value.Basic

/-!
# Text of a value

`literal` writes a value so that its kind shows, quoting texts and naming dates; `display` is for
reading, with texts, dates and decimals as they are. Inside a list or an object everything is
written as a literal. They are the texts of values whose whole numbers have no more digits than are
written; the others have none.
-/

namespace DatasetCatalog

open Number Time Text

def Date.literal (d : Date) : String :=
  "datetime.date(" ++ ", ".intercalate ([d.year, d.month, d.day].map toString) ++ ")"

/-- The parts of a duration that are not zero, by name. -/
def Duration.literal (d : Duration) : String :=
  let part (name : String) (n : Int) : List String :=
    if n == 0 then [] else [name ++ "=" ++ intText n]
  let parts := part "days" d.days ++ part "seconds" d.seconds ++ part "microseconds" d.microseconds
  "datetime.timedelta(" ++ (if parts.isEmpty then "0" else ", ".intercalate parts) ++ ")"

def zoneLiteral (offset : Int) : String :=
  if offset == 0 then "datetime.timezone.utc"
  else "datetime.timezone(" ++ Duration.literal (.ofParts 0 0 offset) ++ ")"

/-- Seconds are left out when they and the microseconds are zero. -/
def Moment.literal (m : Moment) : String :=
  let parts := [m.date.year, m.date.month, m.date.day, m.hour, m.minute] ++
    (if m.microsecond == 0 then (if m.second == 0 then [] else [m.second])
      else [m.second, m.microsecond])
  "datetime.datetime(" ++ ", ".intercalate (parts.map toString ++
    (m.offset.map fun o => "tzinfo=" ++ zoneLiteral o).toList) ++ ")"

namespace NotANumber

def text : NotANumber → String
  | .double => doubleText (0.0 / 0.0)
  | .decimal negative payload => (DecimalNumber.nan negative false payload).text

def literal : NotANumber → String
  | .double => NotANumber.double.text
  | n@(.decimal ..) => "Decimal('" ++ n.text ++ "')"

end NotANumber

namespace Value

mutual

def literal : Value → String
  | .null => "None"
  | .bool true => "True"
  | .bool false => "False"
  | .int n => intText n
  | .float x => doubleText x
  | .text s => quoted s
  | .date d => Date.literal d
  | .moment m => Moment.literal m
  | .duration d => Duration.literal d
  | .decimal d => "Decimal('" ++ d.text ++ "')"
  | .nan _ n => n.literal
  | .bytes octets => quotedOctets octets
  | .list items => "[" ++ literalItems items ++ "]"
  | .object entries => "\x7b" ++ literalEntries entries ++ "\x7d"
termination_by structural v => v

def literalItems : List Value → String
  | [] => ""
  | [v] => v.literal
  | v :: rest => v.literal ++ ", " ++ literalItems rest
termination_by structural vs => vs

def literalEntries : List (String × Value) → String
  | [] => ""
  | [(k, v)] => quoted k ++ ": " ++ v.literal
  | (k, v) :: rest => quoted k ++ ": " ++ v.literal ++ ", " ++ literalEntries rest
termination_by structural es => es

end

def display : Value → String
  | .text s => s
  | .date d => d.text
  | .moment m => m.textWith " "
  | .duration d => d.text
  | .decimal d => d.text
  | .nan _ n => n.text
  | v => v.literal

mutual

/-- The whole numbers in a value, at any depth. -/
def wholeNumbers : Value → List Int
  | .int n => [n]
  | .list items => wholeNumbersIn items
  | .object entries => wholeNumbersOf entries
  | _ => []
termination_by structural v => v

def wholeNumbersIn : List Value → List Int
  | [] => []
  | v :: rest => v.wholeNumbers ++ wholeNumbersIn rest
termination_by structural vs => vs

def wholeNumbersOf : List (String × Value) → List Int
  | [] => []
  | (_, v) :: rest => v.wholeNumbers ++ wholeNumbersOf rest
termination_by structural es => es

end

/-- Whether a value can be written at all: no whole number in it is too long for that. -/
def hasText (v : Value) : Bool := v.wholeNumbers.all isWritable

end Value

end DatasetCatalog
