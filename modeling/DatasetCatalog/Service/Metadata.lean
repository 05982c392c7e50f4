import DatasetCatalog.Governance.Permissions
import DatasetCatalog.Query.Compile
import DatasetCatalog.Service.World

/-!
# Reading metadata

A dataset is read through the cache, and the caller's role is checked on every call. Bases of views
are read the same way, so a view shows nothing that its caller could not read.
-/

namespace DatasetCatalog.Service

variable {ε : Type}

def load (id : String) : Run ε Dataset := do
  match ← Run.ofExcept ((← get).repository.find? id) with
  | some d => return d
  | none => throw (.datasetNotFound id)

def require (d : Dataset) (userId : String) (role : Role) : Run ε Unit :=
  Run.ofExcept (d.require userId role)

/-- The dataset for a user who may view it. -/
def getDataset (userId id : String) : Run ε Dataset := do
  let found ← cached (Cache.datasetKey id) (← get).settings.datasetCacheTtl
    [Cache.datasetTag id, Cache.userTag userId] (return .dataset (← load id))
  match found with
  | .dataset d =>
    require d userId .viewer
    return d
  | _ => throw (.broken .noSuchPart)

/-- More than the number of datasets that a chain of views can visit. -/
def chainBound : Run ε Nat := do
  let w ← get
  return w.repository.datasets.size + w.cache.entries.length + 2

/-- The datasource at the end of a dataset's chain of views. -/
def datasourceAlong (resolve : String → Run ε Dataset) (start : String) :
    Nat → List String → Dataset → Run ε Datasource
  | 0, _, d => throw (.refused (.viewCycle d.id))
  | fuel + 1, seen, d => do
    if seen.contains d.id then throw (.refused (.viewCycle d.id))
    match d.datasourceId with
    | some id =>
      match ← Run.ofExcept ((← get).repository.datasource? id) with
      | some source => return source
      | none => throw (.datasourceNotFound id)
    | none =>
      match d.type, d.viewConfig with
      | .view, some c =>
        let base ← resolve c.baseDatasetId
        datasourceAlong resolve start fuel (d.id :: seen) base
      | _, _ => throw (.refused (.noDatasource start))

def datasourceFor (resolve : String → Run ε Dataset) (d : Dataset) : Run ε Datasource := do
  datasourceAlong resolve d.id (← chainBound) [] d

/-- Refuse a source that the owner may not use or, of a view, the reader may not read. -/
def checkSource (ownerId readerId : String) (datasourceId : Option String)
    (view : Option ViewConfig) : Run ε Unit := do
  if let some id := datasourceId then
    let source ← Run.ofExcept ((← get).repository.datasource? id)
    if !source.any (·.userId == ownerId) then throw (.datasourceNotFound id)
  if let some c := view then
    let _ ← getDataset readerId c.baseDatasetId

def checkNameFree (ownerId name : String) : Run ε Unit := do
  let q : Store.DatasetQuery := { owner := some ownerId, name := some name }
  let n ← Run.ofExcept ((← get).repository.count q)
  if n != 0 then throw (.refused (.nameTaken name))

end DatasetCatalog.Service
