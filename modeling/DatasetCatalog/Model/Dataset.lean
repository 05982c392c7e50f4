import DatasetCatalog.Document.MomentText
import DatasetCatalog.Model.Field
import DatasetCatalog.Model.Source
import DatasetCatalog.Value.Display

/-!
# Datasets

A dataset names its source, describes its fields, and records who may use it and what the last
analysis found. Of the three configurations exactly the one of its type is present.
-/

namespace DatasetCatalog

open Document Time

structure QualityIssue where
  type : IssueType
  field : String
  count : Int
  percentage : Float
  severity : Severity
  description : String

structure Permission where
  userId : String
  role : Role
deriving DecidableEq, Repr

structure DatasetMetadata where
  recordCount : Int := 0
  columnCount : Int := 0
  lastRefreshed : Option Moment := none
  dataSize : Option Int := none
deriving DecidableEq, Repr

structure Dataset where
  id : String
  userId : String
  name : String
  displayName : String
  description : Option String := none
  type : DatasetType
  tableConfig : Option TableConfig := none
  sqlConfig : Option SqlConfig := none
  viewConfig : Option ViewConfig := none
  fields : List Field := []
  metadata : DatasetMetadata := {}
  category : String := "default"
  tags : List String := []
  permissions : List Permission := []
  qualityScore : Option Int := none
  qualityIssues : List QualityIssue := []
  status : DatasetStatus := .processing
  lastError : Option String := none
  version : Int := 1
  createdAt : Moment
  updatedAt : Moment

def QualityIssue.reader : EntriesReader QualityIssue :=
  QualityIssue.mk <$> required "type" named
    <*> required "field" text
    <*> required "count" int
    <*> required "percentage" float
    <*> required "severity" named
    <*> required "description" text

def QualityIssue.document (i : QualityIssue) : Value := .object
  [("type", .named i.type),
   ("field", .text i.field),
   ("count", .int i.count),
   ("percentage", .float i.percentage),
   ("severity", .named i.severity),
   ("description", .text i.description)]

def Permission.reader : EntriesReader Permission :=
  Permission.mk <$> required "user_id" text <*> required "role" named

def Permission.document (p : Permission) : Value := .object
  [("user_id", .text p.userId), ("role", .named p.role)]

def DatasetMetadata.reader : EntriesReader DatasetMetadata :=
  DatasetMetadata.mk <$> withDefault "record_count" 0 int
    <*> withDefault "column_count" 0 int
    <*> withDefault "last_refreshed" none (nullable moment)
    <*> withDefault "data_size" none (nullable int)

def DatasetMetadata.document (m : DatasetMetadata) : Value := .object
  [("record_count", .int m.recordCount),
   ("column_count", .int m.columnCount),
   ("last_refreshed", .ofOption .moment m.lastRefreshed),
   ("data_size", .ofOption .int m.dataSize)]

/-- An ASCII letter, then ASCII letters, digits and underscores; one final line feed is let pass. -/
def isDatasetName (name : String) : Bool :=
  let cs := name.toList
  let body := if cs.getLast? == some '\n' then cs.dropLast else cs
  match body with
  | [] => false
  | c :: rest => c.isAlpha && rest.all fun d => d.isAlphanum || d == '_'

def DatasetType.configKey : DatasetType → String
  | .table => "table_config"
  | .sql => "sql_config"
  | .view => "view_config"

def Dataset.configured (d : Dataset) : List DatasetType :=
  (if d.tableConfig.isSome then [.table] else []) ++
    (if d.sqlConfig.isSome then [.sql] else []) ++ (if d.viewConfig.isSome then [.view] else [])

def Dataset.complaint? (d : Dataset) : Option String :=
  if !isDatasetName d.name then
    some ("Dataset name must start with a letter and contain only letters, digits and " ++
      "underscores.")
  else if d.configured != [d.type] then
    let got := if d.configured.isEmpty then "none"
      else (Value.list (d.configured.map fun t => .text t.configKey)).display
    some ("Dataset of type '" ++ Named.name d.type ++ "' requires exactly '" ++ d.type.configKey ++
      "'; got " ++ got ++ ".")
  else none

theorem Dataset.complaint?_eq_none_iff {d : Dataset} :
    d.complaint? = none ↔ isDatasetName d.name = true ∧ d.configured = [d.type] := by
  unfold Dataset.complaint?
  by_cases hn : isDatasetName d.name = true <;> by_cases hc : d.configured = [d.type] <;>
    simp [hn, hc]

/-- What a dataset document without an id or times gets. -/
structure Defaults where
  id : String
  now : Moment

def listAtMost {α : Type} (high : Nat) (r : Reader α) : Reader (List α)
  | .list items => if high < items.length then .fault .listTooLong else listOf r (.list items)
  | v => listOf r v

def Dataset.reader (defaults : Defaults) : EntriesReader Dataset :=
  (Dataset.mk <$> withDefault "id" defaults.id text
    <*> required "user_id" text
    <*> required "name" (textAtMost 100)
    <*> required "display_name" (textBetween 1 200)
    <*> withDefault "description" none (nullable (textAtMost 1000))
    <*> required "type" named
    <*> withDefault "table_config" none (nullable (model TableConfig.reader))
    <*> withDefault "sql_config" none (nullable (model SqlConfig.reader))
    <*> withDefault "view_config" none (nullable (model ViewConfig.reader))
    <*> withDefault "fields" [] (listOf (model Field.reader))
    <*> withDefault "metadata" {} (model DatasetMetadata.reader)
    <*> withDefault "category" "default" text
    <*> withDefault "tags" [] (listAtMost 20 text)
    <*> withDefault "permissions" [] (listOf (model Permission.reader))
    <*> withDefault "quality_score" none (nullable (intBetween 0 100))
    <*> withDefault "quality_issues" [] (listOf (model QualityIssue.reader))
    <*> withDefault "status" .processing named
    <*> withDefault "last_error" none (nullable text)
    <*> withDefault "version" 1 int
    <*> withDefault "created_at" defaults.now moment
    <*> withDefault "updated_at" defaults.now moment).where? Dataset.complaint?

def Dataset.documentWith (schemaKey : String) (d : Dataset) : List (String × Value) :=
  [("id", .text d.id),
   ("user_id", .text d.userId),
   ("name", .text d.name),
   ("display_name", .text d.displayName),
   ("description", .ofOption .text d.description),
   ("type", .named d.type),
   ("table_config", .ofOption (TableConfig.documentWith schemaKey) d.tableConfig),
   ("sql_config", .ofOption SqlConfig.document d.sqlConfig),
   ("view_config", .ofOption ViewConfig.document d.viewConfig),
   ("fields", .list (d.fields.map Field.document)),
   ("metadata", d.metadata.document),
   ("category", .text d.category),
   ("tags", .list (d.tags.map .text)),
   ("permissions", .list (d.permissions.map Permission.document)),
   ("quality_score", .ofOption .int d.qualityScore),
   ("quality_issues", .list (d.qualityIssues.map QualityIssue.document)),
   ("status", .named d.status),
   ("last_error", .ofOption .text d.lastError),
   ("version", .int d.version),
   ("created_at", .moment d.createdAt),
   ("updated_at", .moment d.updatedAt)]

/-- The entries under which a dataset is kept. -/
def Dataset.document : Dataset → List (String × Value) := Dataset.documentWith "schema_name"

/-- The lists and objects of a dataset's document around its free values: samples of cells and
values of filters. -/
def Dataset.frame : Nat := 4

def Dataset.ofDocument (defaults : Defaults) (entries : List (String × Value)) :
    Except (List Fault) Dataset :=
  (model (Dataset.reader defaults)).value (.object entries)

def Dataset.datasourceId (d : Dataset) : Option String :=
  (d.tableConfig.map (·.datasourceId)).or (d.sqlConfig.map (·.datasourceId))

def Dataset.field? (d : Dataset) (name : String) : Option Field :=
  d.fields.find? (·.name == name)

def Dataset.visibleCount (d : Dataset) (role : FieldType) : Nat :=
  d.fields.countP fun f => f.fieldType == role && !f.hidden

def Dataset.dimensionCount (d : Dataset) : Nat := d.visibleCount .dimension

def Dataset.measureCount (d : Dataset) : Nat := d.visibleCount .measure

/-- Lay the entries of a patch over the dataset's document and read it again. -/
def Dataset.patched (d : Dataset) (patch : List (String × Value)) (now : Moment) :
    Except (List Fault) Dataset :=
  Dataset.ofDocument ⟨d.id, now⟩
    (Value.putEntry "updated_at" (.moment now) (Value.mergeEntries d.document patch))

end DatasetCatalog
