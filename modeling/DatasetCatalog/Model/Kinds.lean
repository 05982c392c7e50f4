import DatasetCatalog.Document.Scalar

/-!
# Kinds

The closed sets of names that documents use. A name determines its member.
-/

namespace DatasetCatalog

/-- A finite type whose members are written by name. -/
class Named (α : Type) where
  all : List α
  name : α → String
  mem_all : ∀ a, a ∈ all
  name_injective : ∀ a b, name a = name b → a = b

inductive DataType where
  | string | number | date | boolean
deriving DecidableEq, Repr

inductive FieldType where
  | dimension | measure | calculated
deriving DecidableEq, Repr

inductive AggregationType where
  | sum | avg | count | max | min
deriving DecidableEq, Repr

inductive DimensionLevel where
  | categorical | ordinal | temporal
deriving DecidableEq, Repr

inductive DatasetType where
  | table | sql | view
deriving DecidableEq, Repr

inductive DatasetStatus where
  | processing | active | inactive | error
deriving DecidableEq, Repr

inductive Role where
  | viewer | editor | owner
deriving DecidableEq, Repr

inductive IssueType where
  | missingValues | duplicateRecords
deriving DecidableEq, Repr

inductive Severity where
  | low | medium | high
deriving DecidableEq, Repr

inductive DatasourceType where
  | postgresql | mysql | sqlite
deriving DecidableEq, Repr

inductive SortOrder where
  | asc | desc
deriving DecidableEq, Repr

instance : Named DataType where
  all := [.string, .number, .date, .boolean]
  name
    | .string => "string"
    | .number => "number"
    | .date => "date"
    | .boolean => "boolean"
  mem_all a := by cases a <;> simp
  name_injective a b := by cases a <;> cases b <;> simp

instance : Named FieldType where
  all := [.dimension, .measure, .calculated]
  name
    | .dimension => "dimension"
    | .measure => "measure"
    | .calculated => "calculated"
  mem_all a := by cases a <;> simp
  name_injective a b := by cases a <;> cases b <;> simp

instance : Named AggregationType where
  all := [.sum, .avg, .count, .max, .min]
  name
    | .sum => "SUM"
    | .avg => "AVG"
    | .count => "COUNT"
    | .max => "MAX"
    | .min => "MIN"
  mem_all a := by cases a <;> simp
  name_injective a b := by cases a <;> cases b <;> simp

instance : Named DimensionLevel where
  all := [.categorical, .ordinal, .temporal]
  name
    | .categorical => "categorical"
    | .ordinal => "ordinal"
    | .temporal => "temporal"
  mem_all a := by cases a <;> simp
  name_injective a b := by cases a <;> cases b <;> simp

instance : Named DatasetType where
  all := [.table, .sql, .view]
  name
    | .table => "table"
    | .sql => "sql"
    | .view => "view"
  mem_all a := by cases a <;> simp
  name_injective a b := by cases a <;> cases b <;> simp

instance : Named DatasetStatus where
  all := [.processing, .active, .inactive, .error]
  name
    | .processing => "processing"
    | .active => "active"
    | .inactive => "inactive"
    | .error => "error"
  mem_all a := by cases a <;> simp
  name_injective a b := by cases a <;> cases b <;> simp

instance : Named Role where
  all := [.viewer, .editor, .owner]
  name
    | .viewer => "viewer"
    | .editor => "editor"
    | .owner => "owner"
  mem_all a := by cases a <;> simp
  name_injective a b := by cases a <;> cases b <;> simp

instance : Named IssueType where
  all := [.missingValues, .duplicateRecords]
  name
    | .missingValues => "missing_values"
    | .duplicateRecords => "duplicate_records"
  mem_all a := by cases a <;> simp
  name_injective a b := by cases a <;> cases b <;> simp

instance : Named Severity where
  all := [.low, .medium, .high]
  name
    | .low => "low"
    | .medium => "medium"
    | .high => "high"
  mem_all a := by cases a <;> simp
  name_injective a b := by cases a <;> cases b <;> simp

instance : Named DatasourceType where
  all := [.postgresql, .mysql, .sqlite]
  name
    | .postgresql => "postgresql"
    | .mysql => "mysql"
    | .sqlite => "sqlite"
  mem_all a := by cases a <;> simp
  name_injective a b := by cases a <;> cases b <;> simp

instance : Named SortOrder where
  all := [.asc, .desc]
  name
    | .asc => "asc"
    | .desc => "desc"
  mem_all a := by cases a <;> simp
  name_injective a b := by cases a <;> cases b <;> simp

variable {α : Type} [Named α]

/-- Read a member by its exact name, which may be given in octets. -/
def named : Document.Reader α := fun v =>
  Document.member Named.all Named.name .notMember <|
    match v with
    | .bytes octets => ((Text.decodeUtf8? octets).map Value.text).getD v
    | v => v

def Value.named (a : α) : Value := .text (Named.name a)

def ofName? (s : String) : Option α := (Named.all : List α).find? fun a => Named.name a == s

theorem ofName?_name (a : α) : ofName? (Named.name a) = some a := by
  unfold ofName?
  cases h : (Named.all : List α).find? fun b => Named.name b == Named.name a with
  | none =>
    have := List.find?_eq_none.mp h a (Named.mem_all a)
    simp at this
  | some b =>
    have := List.find?_some h
    exact congrArg some (Named.name_injective b a (by simpa using this))

def Role.level : Role → Nat
  | .viewer => 1
  | .editor => 2
  | .owner => 3

end DatasetCatalog
