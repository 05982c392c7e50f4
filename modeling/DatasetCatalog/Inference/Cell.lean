import DatasetCatalog.Error
import DatasetCatalog.Number.NumberText
import DatasetCatalog.Text.CaseMapping
import DatasetCatalog.Time.IsoText
import DatasetCatalog.Time.Pattern

/-!
# Kinds of cells

What a single cell looks like: a truth value, a finite number or a date, written out or not.
-/

namespace DatasetCatalog.Inference

open Number Text Time

def booleanWords : List String := ["true", "false", "0", "1"]

def looksBoolean : Value → Bool
  | .bool _ => true
  | .int n => n == 0 || n == 1
  | .float x => x == 0.0 || x == 1.0
  | .text s => booleanWords.contains (lower (strip s))
  | _ => false

/-- Whether a cell is a finite number; a whole number beyond the doubles has no answer. -/
def looksNumeric : Value → Except Breakdown Bool
  | .bool _ => .ok true
  | .int n => if (ofInt? n).isSome then .ok true else .error .overflow
  | .float x => .ok x.isFinite
  | .text s => .ok ((readLenient? (strip s)).any Float.isFinite)
  | _ => .ok false

def isDateText (s : String) : Bool :=
  let text := strip s
  8 < s.length && ((Moment.ofIso? text).isSome || datePatterns.any (matchesPattern · text.toList))

def looksDated : Value → Bool
  | .date _ | .moment _ => true
  | .text s => isDateText s
  | _ => false

end DatasetCatalog.Inference
