import DatasetCatalog.Inference.Cell
import DatasetCatalog.Inference.DisplayName
import DatasetCatalog.Model.Field
import DatasetCatalog.Text.Search
import DatasetCatalog.Value.Key

/-!
# Inferring fields

Type, role, aggregation and level of a column follow from its name and a sample of its cells. Each
is decided by rules in order; the first that applies wins.
-/

namespace DatasetCatalog.Inference

open Text

def sniffLimit : Nat := 100

def sampleLimit : Nat := 10

def measureKeywords : List String :=
  ["count", "sum", "total", "amount", "price", "cost", "revenue", "profit", "qty", "quantity",
    "rate", "percentage", "数量", "金额", "总额", "费用", "价格", "比率"]

def countKeywords : List String := ["count", "num", "数量"]

def sumKeywords : List String := ["total", "sum", "amount", "总"]

def averageKeywords : List String := ["avg", "average", "rate", "平均"]

def temporalKeywords : List String := ["date", "time", "year", "month", "day", "年", "月", "日"]

def ordinalKeywords : List String :=
  ["level", "grade", "rating", "priority", "rank", "等级", "级别", "评分"]

def nameHas (name : String) (keywords : List String) : Bool :=
  keywords.any (contains (lower name))

def isMajority (count total : Nat) : Bool := 4 * total < 5 * count

def isMostlyDistinct (distinct total : Nat) : Bool := total < 2 * distinct

/-- The type of the first cells: truth values if all are, otherwise numbers or dates if most are. -/
def dataType (cells : List Value) : Except Breakdown DataType := do
  let sniffed := cells.take sniffLimit
  if sniffed.isEmpty then return .string
  if sniffed.all looksBoolean then return .boolean
  let numeric ← sniffed.mapM looksNumeric
  if isMajority (numeric.count true) sniffed.length then return .number
  if isMajority (sniffed.countP looksDated) sniffed.length then return .date
  return .string

/-- Whether cells are a measure's; they are counted for that unless the name or the type tells. -/
def fieldType (name : String) (type : DataType) (cells : List Value) :
    Except Breakdown FieldType :=
  if nameHas name measureKeywords then .ok .measure
  else if type != .number then .ok .dimension
  else if !cells.all (·.hasKey) then .error .badValue
  else .ok (if isMostlyDistinct (distinctCount cells) cells.length then .measure else .dimension)

def aggregation (name : String) : AggregationType :=
  if nameHas name countKeywords then .count
  else if nameHas name sumKeywords then .sum
  else if nameHas name averageKeywords then .avg
  else .sum

def level (name : String) (type : DataType) : DimensionLevel :=
  if type == .date || nameHas name temporalKeywords then .temporal
  else if nameHas name ordinalKeywords then .ordinal
  else .categorical

/-- Add the first different cells to the samples, until there are enough. -/
def addSamples (samples : List Value) : List Value → Except Breakdown (List Value)
  | [] => .ok samples
  | v :: rest =>
    let samples := if samples.any (·.key.same v.key) then samples else samples ++ [v]
    if !v.hasKey then .error .badValue
    else if sampleLimit ≤ samples.length then .ok samples
    else addSamples samples rest

/-- The field of a column from all its cells, nulls included. -/
def inferField (name : String) (column : List Value) : Except Breakdown Field := do
  let cells := column.filter (!·.isNull)
  if cells.isEmpty then
    return { name, displayName := displayName name, level := some (level name .string) }
  let type ← dataType cells
  let role ← fieldType name type cells
  let sampleValues ← addSamples [] cells
  return {
    name, type
    displayName := displayName name
    fieldType := role
    aggregation := if role == .measure then some (aggregation name) else none
    level := if role == .dimension then some (level name type) else none
    isNullable := column.any (·.isNull)
    sampleValues }

abbrev Row := List (String × Value)

def Row.cell (row : Row) (column : String) : Value := (row.lookup column).getD .null

def inferFields (columns : List String) (rows : List Row) : Except Breakdown (List Field) :=
  columns.mapM fun column => inferField column (rows.map (Row.cell · column))

end DatasetCatalog.Inference
