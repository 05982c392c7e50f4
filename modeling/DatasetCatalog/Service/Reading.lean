import DatasetCatalog.Governance.SqlSafety
import DatasetCatalog.Model.Request
import DatasetCatalog.Query.Canonical
import DatasetCatalog.Service.Metadata

/-!
# Reading data

Searches see what their caller may read. Previews and queries go through the cache under keys that
tell their statements apart; a failure of the source becomes a result with errors, which is not
kept.
-/

namespace DatasetCatalog.Service

variable {ε : Type}

def pageCount (total : Nat) (limit : Int) : Int := (total + limit - 1) / limit

def search (userId : String) (p : SearchParams) : Run ε SearchResult := do
  let repository := (← get).repository
  let q : Store.DatasetQuery :=
    { accessibleTo := some userId, keyword := p.keyword, category := p.category, tags := p.tags
      type := p.type, status := some p.status }
  let facets : Store.DatasetQuery :=
    { accessibleTo := some userId, status := some .active }
  Run.ofExcept do
    let datasets ← repository.matching q ⟨p.sortBy, p.sortOrder == .desc⟩
      ((p.page - 1) * p.limit) (some p.limit)
    let total ← repository.count q
    return {
      datasets
      pagination :=
        { page := p.page, limit := p.limit, total, totalPages := pageCount total p.limit }
      facets :=
        { categories := ← repository.distinct (Named.name Store.FacetField.category) facets
          tags := ← repository.distinct (Named.name Store.FacetField.tags) facets
          types := ← repository.distinct (Named.name Store.FacetField.type) facets } }

def clampLimit (limit : Int) : Run ε Int := do
  if limit < 1 then throw (.refused .limitNotPositive)
  return min limit (← get).settings.maxQueryRows

def timeoutOr (timeoutMs : Option Int) : Run ε Int := do
  return (timeoutMs.filter (· != 0)).getD (← get).settings.queryTimeoutMs

def preview (h : Host ε) (userId id : String) (limit timeoutMs : Option Int) :
    Run ε PreviewResult := do
  let d ← getDataset userId id
  let settings := (← get).settings
  let limit ← clampLimit (limit.getD settings.previewDefaultLimit)
  let statement ← Query.compilePreview (some (getDataset userId)) (← chainBound) d limit
  let datasource ← datasourceFor (getDataset userId) d
  let compute : Run ε Cached := do
    let result ← h.execute datasource statement (← timeoutOr timeoutMs)
    return .preview { columns := d.fields, rows := result.rows, totalCount := result.total }
  let found ← (cached (Cache.previewKey id limit) settings.previewCacheTtl
    [Cache.datasetTag id, Cache.previewTag] compute).attempt
  match found with
  | .ok (.preview r) => return r
  | .ok _ => throw (.broken .noSuchPart)
  | .error (.sourceFailed message) =>
    return { columns := d.fields, rows := [], totalCount := 0, errors := [message] }
  | .error e => throw e

/-- Run a statement through the cache. -/
def runCached (h : Host ε) (id key : String) (datasource : Datasource)
    (statement : Query.Statement) (timeoutMs : Option Int) : Run ε QueryResult := do
  let compute : Run ε Cached := do
    let result ← h.execute datasource statement (← timeoutOr timeoutMs)
    return .query
      { rows := result.rows, columns := result.columns.map fun c => [("name", .text c)]
        total := result.total, sql := statement.sql }
  let found ← (cached key (← get).settings.queryCacheTtl
    [Cache.datasetTag id, Cache.queryTag] compute).attempt
  match found with
  | .ok (.query r) => return r
  | .ok _ => throw (.broken .noSuchPart)
  | .error (.sourceFailed message) =>
    return { rows := [], columns := [], total := 0, errors := [message], sql := statement.sql }
  | .error e => throw e

def query (h : Host ε) (userId id : String) (r : QueryRequest) (timeoutMs : Option Int) :
    Run ε QueryResult := do
  let d ← getDataset userId id
  let limit ← clampLimit (r.limit.getD (← get).settings.queryDefaultLimit)
  let r := { r with limit := some limit }
  let statement ← Query.compileQuery (some (getDataset userId)) (← chainBound) r d
  let datasource ← datasourceFor (getDataset userId) d
  let hash ← Run.ofExcept (Query.requestHash r)
  runCached h id (Cache.queryKey id hash) datasource statement timeoutMs

/-- What names free SQL in the cache: its digest without blanks at its ends. -/
def sqlHash (sql : String) : Except Breakdown String :=
  (Query.digest (.text (Text.strip sql))).map ("sql:" ++ ·)

def runSql (h : Host ε) (userId id sql : String) (timeoutMs : Option Int) :
    Run ε QueryResult := do
  let d ← getDataset userId id
  let violations ← Run.ofBreakdown (Governance.sqlViolations sql (← get).settings.maxQueryRows)
  if !violations.isEmpty then
    throw (.refused (.unsafeSql (violations.map Governance.Violation.message)))
  let datasource ← datasourceFor (getDataset userId) d
  let hash ← Run.ofBreakdown (sqlHash sql)
  runCached h id (Cache.queryKey id hash) datasource (.free sql) timeoutMs

end DatasetCatalog.Service
