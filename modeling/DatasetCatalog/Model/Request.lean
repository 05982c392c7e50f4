import DatasetCatalog.Model.Dataset

/-!
# Requests

What callers ask for: a new dataset, changes to one, a query, a search. Of the changes only the
entries that were given count, so a reading of them keeps what was given.
-/

namespace DatasetCatalog

open Document

structure CreateRequest where
  name : String
  displayName : String
  description : Option String := none
  type : DatasetType
  tableConfig : Option TableConfig := none
  sqlConfig : Option SqlConfig := none
  viewConfig : Option ViewConfig := none
  fields : List Field := []
  category : String := "default"
  tags : List String := []

/-- Changes to a dataset; an entry that is absent or null has no value here. -/
structure UpdateRequest where
  name : Option String := none
  displayName : Option String := none
  description : Option String := none
  type : Option DatasetType := none
  tableConfig : Option TableConfig := none
  sqlConfig : Option SqlConfig := none
  viewConfig : Option ViewConfig := none
  fields : Option (List Field) := none
  category : Option String := none
  tags : Option (List String) := none
  permissions : Option (List Permission) := none
  status : Option DatasetStatus := none

structure QueryRequest where
  measures : List String := []
  dimensions : List String := []
  filters : List Filter := []
  limit : Option Int := none

structure SearchParams where
  keyword : Option String := none
  category : Option String := none
  tags : List String := []
  type : Option DatasetType := none
  status : DatasetStatus := .active
  sortBy : String := "updated_at"
  sortOrder : SortOrder := .desc
  page : Int := 1
  limit : Int := 20

def CreateRequest.reader : EntriesReader CreateRequest :=
  CreateRequest.mk <$> required "name" text
    <*> required "display_name" text
    <*> withDefault "description" none (nullable text)
    <*> required "type" named
    <*> withDefault "table_config" none (nullable (model TableConfig.reader))
    <*> withDefault "sql_config" none (nullable (model SqlConfig.reader))
    <*> withDefault "view_config" none (nullable (model ViewConfig.reader))
    <*> withDefault "fields" [] (listOf (model Field.reader))
    <*> withDefault "category" "default" text
    <*> withDefault "tags" [] (listOf text)

def CreateRequest.document (r : CreateRequest) : Value := .object
  [("name", .text r.name),
   ("display_name", .text r.displayName),
   ("description", .ofOption .text r.description),
   ("type", .named r.type),
   ("table_config", .ofOption TableConfig.document r.tableConfig),
   ("sql_config", .ofOption SqlConfig.document r.sqlConfig),
   ("view_config", .ofOption ViewConfig.document r.viewConfig),
   ("fields", .list (r.fields.map Field.document)),
   ("category", .text r.category),
   ("tags", .list (r.tags.map .text))]

def UpdateRequest.reader : EntriesReader UpdateRequest :=
  UpdateRequest.mk <$> withDefault "name" none (nullable text)
    <*> withDefault "display_name" none (nullable text)
    <*> withDefault "description" none (nullable text)
    <*> withDefault "type" none (nullable named)
    <*> withDefault "table_config" none (nullable (model TableConfig.reader))
    <*> withDefault "sql_config" none (nullable (model SqlConfig.reader))
    <*> withDefault "view_config" none (nullable (model ViewConfig.reader))
    <*> withDefault "fields" none (nullable (listOf (model Field.reader)))
    <*> withDefault "category" none (nullable text)
    <*> withDefault "tags" none (nullable (listOf text))
    <*> withDefault "permissions" none (nullable (listOf (model Permission.reader)))
    <*> withDefault "status" none (nullable named)

def QueryRequest.reader : EntriesReader QueryRequest :=
  QueryRequest.mk <$> withDefault "measures" [] (listOf text)
    <*> withDefault "dimensions" [] (listOf text)
    <*> withDefault "filters" [] (listOf (model Filter.reader))
    <*> withDefault "limit" none (nullable (intAtLeast 1))

def QueryRequest.document (r : QueryRequest) : Value := .object
  [("measures", .list (r.measures.map .text)),
   ("dimensions", .list (r.dimensions.map .text)),
   ("filters", .list (r.filters.map Filter.document)),
   ("limit", .ofOption .int r.limit)]

def sortOrderReader : Reader SortOrder := member Named.all Named.name .notLiteral

def SearchParams.reader : EntriesReader SearchParams :=
  SearchParams.mk <$> withDefault "keyword" none (nullable text)
    <*> withDefault "category" none (nullable text)
    <*> withDefault "tags" [] (listOf text)
    <*> withDefault "type" none (nullable named)
    <*> withDefault "status" .active named
    <*> withDefault "sort_by" "updated_at" text
    <*> withDefault "sort_order" .desc sortOrderReader
    <*> withDefault "page" 1 (intAtLeast 1)
    <*> withDefault "limit" 20 (intBetween 1 200)

def SearchParams.document (p : SearchParams) : Value := .object
  [("keyword", .ofOption .text p.keyword),
   ("category", .ofOption .text p.category),
   ("tags", .list (p.tags.map .text)),
   ("type", .ofOption .named p.type),
   ("status", .named p.status),
   ("sort_by", .text p.sortBy),
   ("sort_order", .named p.sortOrder),
   ("page", .int p.page),
   ("limit", .int p.limit)]

end DatasetCatalog
