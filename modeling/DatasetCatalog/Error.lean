import DatasetCatalog.Document.Fault
import DatasetCatalog.Model.Kinds
import DatasetCatalog.Number.DoubleText
import DatasetCatalog.Text.Quoted

/-!
# Errors

Why an operation stops. Refusals concern what the caller asked for and are worded for the caller;
a breakdown is a computation that has no result on the data at hand.
-/

namespace DatasetCatalog

open Text Number

inductive SortField where
  | name | displayName | createdAt | updatedAt | qualityScore
deriving DecidableEq, Repr

instance : Named SortField where
  all := [.name, .displayName, .createdAt, .updatedAt, .qualityScore]
  name
    | .name => "name"
    | .displayName => "display_name"
    | .createdAt => "created_at"
    | .updatedAt => "updated_at"
    | .qualityScore => "quality_score"
  mem_all a := by cases a <;> simp
  name_injective a b := by cases a <;> cases b <;> simp

inductive NameUse where
  | dimension | measure | filterField | computedField | table | schema
deriving DecidableEq, Repr

def NameUse.text : NameUse → String
  | .dimension => "dimension"
  | .measure => "measure"
  | .filterField => "filter field"
  | .computedField => "computed field"
  | .table => "table"
  | .schema => "schema"

inductive Refusal where
  | invalidName (use : NameUse) (name : String)
  | inNeedsList (field : String)
  | betweenNeedsPair (field : String)
  | unsupportedOperator (operator : String) (supported : List String)
  | viewCycle (id : String)
  | noResolver
  | unsupportedType (type : DatasetType)
  | noDatasource (id : String)
  | unsortable (field : String)
  | noFacet (field : String)
  | datasetExists (id : String)
  | nameTaken (name : String)
  | limitNotPositive
  | unsafeSql (violations : List String)
  /-- A refusal in the words of a source. -/
  | worded (message : String)
deriving DecidableEq, Repr

/-- The refusal of a name, which is shown between quotes. -/
def NameUse.refusal (use : NameUse) (shown : String) : String :=
  "Invalid " ++ use.text ++ " name " ++ shown ++ "."

def Refusal.message : Refusal → String
  | .invalidName use name => use.refusal (quoted name)
  | .inNeedsList field => "Filter 'in' on '" ++ field ++ "' needs a list of values."
  | .betweenNeedsPair field => "Filter 'between' on '" ++ field ++ "' needs [low, high]."
  | .unsupportedOperator operator supported =>
    "Unsupported filter operator '" ++ operator ++ "'. Allowed: " ++ ", ".intercalate supported
  | .viewCycle id => "View cycle detected at dataset '" ++ id ++ "'."
  | .noResolver => "View datasets need a resolver for their base dataset."
  | .unsupportedType type => "Unsupported dataset type '" ++ Named.name type ++ "'."
  | .noDatasource id => "Dataset '" ++ id ++ "' has no datasource configured."
  | .unsortable field =>
    "Cannot sort by '" ++ field ++ "'. Allowed: " ++
      ", ".intercalate ((Named.all : List SortField).map Named.name)
  | .noFacet field => "Cannot facet on '" ++ field ++ "'."
  | .datasetExists id => "Dataset '" ++ id ++ "' already exists."
  | .nameTaken name => "A dataset named '" ++ name ++ "' already exists."
  | .limitNotPositive => "Limit must be a positive integer."
  | .unsafeSql violations => "; ".intercalate violations
  | .worded message => message

inductive Breakdown where
  /-- A whole number beyond the doubles, or an infinite one where a whole number is needed. -/
  | overflow
  | badValue
  | badType
  | noSuchPart
  | noSuchEntry
  | duplicateId
  | undecodable
  | unencodable
  | unwritable
  | badAddress
deriving DecidableEq, Repr

inductive Error where
  | permissionDenied (userId datasetId : String) (required : Role)
  | datasetNotFound (id : String)
  | datasourceNotFound (id : String)
  | refused (cause : Refusal)
  /-- Data that do not fit the model. -/
  | invalid (faults : List Document.Fault)
  /-- A request whose dataset would not fit the model. -/
  | unfit (faults : List Document.Fault)
  | sourceFailed (message : String)
  /-- A failure of a collaborator outside this library. -/
  | crashed (message : String)
  | broken (breakdown : Breakdown)
deriving DecidableEq, Repr

/-- The wording of an error; a breakdown has none. -/
def Error.message : Error → String
  | .permissionDenied userId datasetId required =>
    "User '" ++ userId ++ "' needs '" ++ Named.name required ++ "' access to dataset '" ++
      datasetId ++ "'."
  | .datasetNotFound id => "Dataset '" ++ id ++ "' not found."
  | .datasourceNotFound id => "Datasource '" ++ id ++ "' not found."
  | .refused cause => cause.message
  | .invalid _ => ""
  | .unfit _ => ""
  | .sourceFailed message => message
  | .crashed message => message
  | .broken _ => ""

end DatasetCatalog
