import DatasetCatalog.Inference.FieldInference
import DatasetCatalog.Model.Dataset
import DatasetCatalog.Value.JsonForm

/-!
# Results

What reading operations give back, and the documents that show it. Documents that come from
elsewhere also say how long the operation took, which is not kept.
-/

namespace DatasetCatalog.Service

open Document

structure Pagination where
  page : Int
  limit : Int
  total : Int
  totalPages : Int
deriving DecidableEq, Repr

structure Facets where
  categories : List String := []
  tags : List String := []
  types : List String := []
deriving DecidableEq, Repr

structure SearchResult where
  datasets : List Dataset
  pagination : Pagination
  facets : Facets

structure PreviewResult where
  columns : List Field
  rows : List Inference.Row
  totalCount : Int
  errors : List String := []

structure QueryResult where
  rows : List Inference.Row
  columns : List Inference.Row
  total : Int
  errors : List String := []
  sql : String := ""

def row : Reader Inference.Row
  | .object entries => .ok ⟨entries, .object entries⟩
  | _ => .fault .notEntries

def executionTime : EntriesReader Int := required "execution_time" int

def Pagination.reader : EntriesReader Pagination :=
  Pagination.mk <$> required "page" int
    <*> required "limit" int
    <*> required "total" int
    <*> required "total_pages" int

def Facets.reader : EntriesReader Facets :=
  Facets.mk <$> withDefault "categories" [] (listOf text)
    <*> withDefault "tags" [] (listOf text)
    <*> withDefault "types" [] (listOf text)

def SearchResult.reader (defaults : Defaults) : EntriesReader SearchResult :=
  SearchResult.mk <$> required "datasets" (listOf (model (Dataset.reader defaults)))
    <*> required "pagination" (model Pagination.reader)
    <*> required "filters" (model Facets.reader)

def PreviewResult.reader : EntriesReader PreviewResult :=
  (fun columns rows totalCount _ errors => ⟨columns, rows, totalCount, errors⟩) <$>
    required "columns" (listOf (model Field.reader))
    <*> required "rows" (listOf row)
    <*> required "total_count" int
    <*> executionTime
    <*> withDefault "errors" [] (listOf text)

def QueryResult.reader : EntriesReader QueryResult :=
  (fun rows columns total _ errors sql => ⟨rows, columns, total, errors, sql⟩) <$>
    required "data" (listOf row)
    <*> required "columns" (listOf row)
    <*> required "total" int
    <*> executionTime
    <*> withDefault "errors" [] (listOf text)
    <*> withDefault "sql" "" text

def Pagination.document (p : Pagination) : Value := .object
  [("page", .int p.page), ("limit", .int p.limit), ("total", .int p.total),
   ("total_pages", .int p.totalPages)]

def Facets.document (f : Facets) : Value := .object
  [("categories", .list (f.categories.map .text)),
   ("tags", .list (f.tags.map .text)),
   ("types", .list (f.types.map .text))]

def PreviewResult.document (r : PreviewResult) : Value := .object
  [("columns", .list (r.columns.map Field.document)),
   ("rows", .list (r.rows.map .object)),
   ("total_count", .int r.totalCount),
   ("errors", .list (r.errors.map .text))]

def QueryResult.document (r : QueryResult) : Value := .object
  [("data", .list (r.rows.map .object)),
   ("columns", .list (r.columns.map .object)),
   ("total", .int r.total),
   ("errors", .list (r.errors.map .text)),
   ("sql", .text r.sql)]

/-- The document of a search, with `form` for each dataset found. -/
def SearchResult.documentWith (form : Dataset → Value) (r : SearchResult) : Value := .object
  [("datasets", .list (r.datasets.map form)),
   ("pagination", r.pagination.document),
   ("filters", r.facets.document)]

/-- The JSON form; samples of cells stand deeper in it than cells of rows. -/
def PreviewResult.jsonForm (r : PreviewResult) : Except Unwritable Value := do
  return .object
    [("columns", ← (Value.list (r.columns.map Field.document)).jsonForm 3),
     ("rows", ← (Value.list (r.rows.map .object)).jsonForm 2),
     ("total_count", .int r.totalCount),
     ("errors", .list (r.errors.map .text))]

def QueryResult.jsonForm (r : QueryResult) : Except Unwritable Value := r.document.jsonForm 3

/-- The JSON form of a search, where datasets stand in a list of an object. -/
def SearchResult.jsonForm (r : SearchResult) (form : Dataset → Value) : Except Unwritable Value :=
  (r.documentWith form).jsonForm (Dataset.frame + 2)

end DatasetCatalog.Service
