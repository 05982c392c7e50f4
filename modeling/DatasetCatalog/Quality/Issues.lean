import DatasetCatalog.Inference.FieldInference
import DatasetCatalog.Model.Dataset

/-!
# Quality of data

Missing values are reported per field with their share of the rows, and repeated values of primary
keys as duplicates. The score starts at one hundred and loses a bounded penalty per issue.
-/

namespace DatasetCatalog.Quality

open Number Inference

def isMissing : Value → Bool
  | .null => true
  | .text s => s.isEmpty
  | _ => false

def percentage (count total : Nat) : Float := Float.ofNat count / Float.ofNat total * 100.0

def missingSeverity (percentage : Float) : Severity :=
  if 50.0 < percentage then .high else if 20.0 < percentage then .medium else .low

def missingIssue? (f : Field) (column : List Value) : Option QualityIssue :=
  let count := column.countP isMissing
  let share := percentage count column.length
  if count == 0 then none
  else some
    { type := .missingValues, field := f.name, count, percentage := share
      severity := missingSeverity share
      description := "Field '" ++ f.displayName ++ "' has " ++ intText count ++
        " missing values." }

def duplicateCount (column : List Value) : Nat :=
  let present := column.filter (!isMissing ·)
  present.length - distinctCount present

def duplicateIssue? (f : Field) (column : List Value) : Option QualityIssue :=
  let count := duplicateCount column
  if !f.isPrimaryKey || count == 0 then none
  else some
    { type := .duplicateRecords, field := f.name, count
      percentage := percentage count column.length
      severity := .high
      description := "Primary key '" ++ f.displayName ++ "' has " ++ intText count ++
        " duplicate values." }

def fieldIssues (rows : List Row) (f : Field) : List QualityIssue :=
  let column := rows.map (Row.cell · f.name)
  (missingIssue? f column).toList ++ (duplicateIssue? f column).toList

def issues (fields : List Field) (rows : List Row) : List QualityIssue :=
  fields.flatMap (fieldIssues rows)

/-- Whether the values of a field can be looked through: those of a primary key are compared. -/
def isCheckable (rows : List Row) (f : Field) : Bool :=
  !f.isPrimaryKey || rows.all fun row => (row.cell f.name).hasKey

/-- The issues of some fields, which can all be looked through. -/
def analyse (fields : List Field) (rows : List Row) : Except Breakdown (List QualityIssue) :=
  if fields.all (isCheckable rows) then .ok (issues fields rows) else .error .badValue

/-- The share of the percentage that is lost, and the most that can be. -/
def penaltyRule : Severity → Float × Float
  | .high => (0.8, 30.0)
  | .medium => (0.5, 20.0)
  | .low => (0.2, 10.0)

def penalty (severity : Severity) (percentage : Float) : Float :=
  let (share, most) := penaltyRule severity
  let lost := percentage * share
  if most < lost then most else lost

def floor? (x : Float) : Except Breakdown Int :=
  match Binary64.ofFloat x with
  | .nan => .error .badValue
  | .infinite _ => .error .overflow
  | .finite negative significand exponent =>
    let q := scaleByTwo (signed negative significand) exponent
    .ok (q.num.fdiv q.den)

/-- The score of some issues, a half rounded up. -/
def score (issues : List (Severity × Float)) : Except Breakdown Int :=
  if issues.isEmpty then .ok 100
  else
    let left := issues.foldl (fun s i => s - penalty i.1 i.2) 100.0
    (floor? (left + 0.5)).map (max 0)

def scoreOf (found : List QualityIssue) : Except Breakdown Int :=
  score (found.map fun i => (i.severity, i.percentage))

end DatasetCatalog.Quality
