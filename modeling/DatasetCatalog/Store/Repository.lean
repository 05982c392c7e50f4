import DatasetCatalog.Model.Datasource
import DatasetCatalog.Store.Query
import DatasetCatalog.Value.JsonForm

/-!
# Repositories

Datasets are kept as they are in memory, or as JSON documents in rows whose columns narrow a
lookup. A patch is laid over the whole document, which has to be in order again. Both keep the
order in which datasets came in.
-/

namespace DatasetCatalog.Store

open Document Time

/-- A stored document with the columns that lookups use. -/
structure DocumentRow where
  id : String
  userId : String
  name : String
  category : String
  type : String
  status : String
  document : Value

inductive DatasetStore where
  | memory (datasets : List (String × Dataset))
  | rows (kept : List DocumentRow)

structure Repository where
  datasets : DatasetStore
  datasources : List Datasource := []

def DatasetStore.emptyMemory : DatasetStore := .memory []

def DatasetStore.emptyRows : DatasetStore := .rows []

/-- The row of a dataset whose document can be written. -/
def DocumentRow.ofDataset (d : Dataset) : Except Error DocumentRow :=
  match (Value.object d.document).jsonForm Dataset.frame with
  | .ok document => .ok
    { id := d.id, userId := d.userId, name := d.name, category := d.category
      type := Named.name d.type, status := Named.name d.status
      document }
  | .error _ => .error (.broken .unwritable)

/-- How many lists and objects a written document may have within each other, to be read. -/
def maxNesting : Nat := 200

/-- The dataset of a row; a document always holds its id and times. -/
def DocumentRow.dataset (r : DocumentRow) : Except Error Dataset :=
  if maxNesting < r.document.nesting then .error (.invalid [⟨[], .malformedJson⟩])
  else (Dataset.ofDocument ⟨r.id, Moment.start2024⟩ r.document.entries).mapError .invalid

/-- Whether the columns agree with what the query sets. -/
def DocumentRow.isCandidate (q : DatasetQuery) (r : DocumentRow) : Bool :=
  constrains q.owner r.userId &&
  constrains q.name r.name &&
  constrains q.category r.category &&
  constrains (q.type.map Named.name) r.type &&
  constrains (q.status.map Named.name) r.status

def DatasetStore.size : DatasetStore → Nat
  | .memory datasets => datasets.length
  | .rows kept => kept.length

def DatasetStore.find? (s : DatasetStore) (id : String) : Except Error (Option Dataset) :=
  match s with
  | .memory datasets => .ok (datasets.lookup id)
  | .rows kept => (kept.find? (·.id == id)).mapM (·.dataset)

/-- The datasets that a query accepts, in the order of the store. -/
def DatasetStore.matching (s : DatasetStore) (q : DatasetQuery) : Except Error (List Dataset) :=
  match s with
  | .memory datasets => .ok ((datasets.map (·.2)).filter q.accepts)
  | .rows kept => do
    let candidates ← (kept.filter (·.isCandidate q)).mapM (·.dataset)
    return candidates.filter q.accepts

def DatasetStore.create (s : DatasetStore) (d : Dataset) : Except Error DatasetStore :=
  match s with
  | .memory datasets =>
    if (datasets.lookup d.id).isSome then .error (.refused (.datasetExists d.id))
    else .ok (.memory (datasets ++ [(d.id, d)]))
  | .rows kept => do
    let row ← DocumentRow.ofDataset d
    if kept.any (·.id == d.id) then throw (.broken .duplicateId)
    return .rows (kept ++ [row])

/-- Write a dataset over the one of an id; a row is found by the id that the dataset has now. -/
def DatasetStore.replace (s : DatasetStore) (id : String) (d : Dataset) :
    Except Error DatasetStore :=
  match s with
  | .memory datasets => .ok (.memory (Value.putEntry id d datasets))
  | .rows kept => do
    let row ← DocumentRow.ofDataset d
    return .rows (kept.map fun r => if r.id == d.id then row else r)

def DatasetStore.update (s : DatasetStore) (id : String) (patch : List (String × Value))
    (now : Moment) : Except Error (Option Dataset × DatasetStore) := do
  match ← s.find? id with
  | none => return (none, s)
  | some current =>
    let updated ← (current.patched patch now).mapError .invalid
    return (some updated, ← s.replace id updated)

def DatasetStore.delete (s : DatasetStore) (id : String) : Except Error (Bool × DatasetStore) :=
  match s with
  | .memory datasets => .ok ((datasets.lookup id).isSome, .memory (datasets.filter (·.1 != id)))
  | .rows kept => .ok (kept.any (·.id == id), .rows (kept.filter (·.id != id)))

namespace Repository

def find? (r : Repository) (id : String) : Except Error (Option Dataset) := r.datasets.find? id

def matching (r : Repository) (q : DatasetQuery) (sorting : Sorting) (skip : Int)
    (limit : Option Int) : Except Error (List Dataset) := do
  page sorting skip limit (← r.datasets.matching q)

def count (r : Repository) (q : DatasetQuery) : Except Error Nat :=
  (r.datasets.matching q).map List.length

def distinct (r : Repository) (field : String) (q : DatasetQuery) : Except Error (List String) := do
  facetByName field (← r.datasets.matching q)

def create (r : Repository) (d : Dataset) : Except Error Repository :=
  (r.datasets.create d).map fun datasets => { r with datasets }

def update (r : Repository) (id : String) (patch : List (String × Value)) (now : Moment) :
    Except Error (Option Dataset × Repository) :=
  (r.datasets.update id patch now).map fun (d, datasets) => (d, { r with datasets })

def delete (r : Repository) (id : String) : Except Error (Bool × Repository) :=
  (r.datasets.delete id).map fun (deleted, datasets) => (deleted, { r with datasets })

def datasource? (r : Repository) (id : String) : Except Error (Option Datasource) :=
  .ok (r.datasources.find? (·.id == id))

/-- Put a datasource in the place of the one with its id, or at the end. -/
def putDatasource (r : Repository) (d : Datasource) : Repository :=
  { r with
    datasources := if r.datasources.any (·.id == d.id) then
        r.datasources.map fun old => if old.id == d.id then d else old
      else r.datasources ++ [d] }

/-- Rows refuse a second datasource of one id; in memory it replaces the first. -/
def createDatasource (r : Repository) (d : Datasource) : Except Error Repository :=
  match r.datasets with
  | .rows _ =>
    if r.datasources.any (·.id == d.id) then .error (.broken .duplicateId)
    else .ok (r.putDatasource d)
  | .memory _ => .ok (r.putDatasource d)

def dropDatasource (r : Repository) (id : String) : Repository :=
  { r with datasources := r.datasources.filter (·.id != id) }

end Repository

end DatasetCatalog.Store
