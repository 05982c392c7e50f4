import DatasetCatalog.Model.Kinds

/-!
# Sources of datasets

A dataset reads a table of a datasource, the result of stored SQL, or another dataset through
filters and computed fields.
-/

namespace DatasetCatalog

open Document

structure Filter where
  field : String
  operator : String
  value : Value := .null

structure ComputedField where
  name : String
  displayName : String
  expression : String
  type : DataType := .number
  description : Option String := none
deriving DecidableEq, Repr

structure TableConfig where
  datasourceId : String
  tableName : String
  schemaName : Option String := none
deriving DecidableEq, Repr

structure SqlConfig where
  datasourceId : String
  sql : String
deriving DecidableEq, Repr

structure ViewConfig where
  baseDatasetId : String
  filters : List Filter := []
  computedFields : List ComputedField := []

def Filter.reader : EntriesReader Filter :=
  Filter.mk <$> required "field" text <*> required "operator" text
    <*> withDefault "value" .null anyValue

def Filter.document (f : Filter) : Value := .object
  [("field", .text f.field), ("operator", .text f.operator), ("value", f.value)]

def ComputedField.reader : EntriesReader ComputedField :=
  ComputedField.mk <$> required "name" text
    <*> required "display_name" text
    <*> required "expression" text
    <*> withDefault "type" .number named
    <*> withDefault "description" none (nullable text)

def ComputedField.document (f : ComputedField) : Value := .object
  [("name", .text f.name),
   ("display_name", .text f.displayName),
   ("expression", .text f.expression),
   ("type", .named f.type),
   ("description", .ofOption .text f.description)]

/-- The schema may go by a short name, which is looked for first. -/
def TableConfig.reader : EntriesReader TableConfig :=
  TableConfig.mk <$> required "datasource_id" text
    <*> required "table_name" text
    <*> entry "schema_name" ["schema"] (.ok none) (nullable text)

/-- The document with the schema under the given name. -/
def TableConfig.documentWith (schemaKey : String) (c : TableConfig) : Value := .object
  [("datasource_id", .text c.datasourceId),
   ("table_name", .text c.tableName),
   (schemaKey, .ofOption .text c.schemaName)]

def TableConfig.document : TableConfig → Value := TableConfig.documentWith "schema_name"

def SqlConfig.reader : EntriesReader SqlConfig :=
  SqlConfig.mk <$> required "datasource_id" text <*> required "sql" (textAtLeast 1)

def SqlConfig.document (c : SqlConfig) : Value := .object
  [("datasource_id", .text c.datasourceId), ("sql", .text c.sql)]

def ViewConfig.reader : EntriesReader ViewConfig :=
  ViewConfig.mk <$> required "base_dataset_id" text
    <*> withDefault "filters" [] (listOf (model Filter.reader))
    <*> withDefault "computed_fields" [] (listOf (model ComputedField.reader))

def ViewConfig.document (c : ViewConfig) : Value := .object
  [("base_dataset_id", .text c.baseDatasetId),
   ("filters", .list (c.filters.map Filter.document)),
   ("computed_fields", .list (c.computedFields.map ComputedField.document))]

end DatasetCatalog
