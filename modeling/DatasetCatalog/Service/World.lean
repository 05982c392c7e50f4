import DatasetCatalog.Cache.Flight
import DatasetCatalog.Cache.Keys
import DatasetCatalog.Service.Result
import DatasetCatalog.Service.Settings
import DatasetCatalog.Source.Execution
import DatasetCatalog.Store.Repository

/-!
# The state of the service

The service works on a repository and a cache, and has background jobs that analyse datasets. It
reaches its surroundings through a host, which runs statements and may let a write fail; what the
host remembers is part of the state. An operation that fails leaves the state as it was when it
failed.
-/

namespace DatasetCatalog.Service

inductive Cached where
  | dataset (d : Dataset)
  | preview (r : PreviewResult)
  | query (r : QueryResult)

/-- Whether analyses run when they are asked for, or wait in a queue. -/
inductive Background where
  | inline | queued
deriving DecidableEq, Repr

structure Job where
  number : Nat
  datasetId : String
deriving DecidableEq, Repr

structure World (ε : Type) where
  repository : Store.Repository
  cache : Cache.Store Float Cached
  clock : Float := 0.0
  settings : Settings := {}
  /-- The time that documents are stamped with. -/
  now : Time.Moment := Time.Moment.start2024
  freshId : String := ""
  background : Background := .inline
  queue : List Job := []
  pending : List (String × Nat) := []
  nextJob : Nat := 0
  surroundings : ε

def World.start {ε : Type} (repository : Store.Repository) (settings : Settings)
    (background : Background) (surroundings : ε) : World ε where
  repository := repository
  cache := { defaultTtl := settings.previewCacheTtl, maxEntries := settings.cacheMaxEntries }
  settings := settings
  background := background
  surroundings := surroundings

/-- Operations end with an error or a result, and in a new state either way. -/
abbrev Run (ε : Type) := ExceptT Error (StateM (World ε))

structure Host (ε : Type) where
  execute : Datasource → Query.Statement → Int → Run ε Source.ExecutionResult
  beforeUpdate : String → Run ε Unit

variable {ε : Type}

def Run.ofExcept {α : Type} (a : Except Error α) : Run ε α := ExceptT.mk (pure a)

def Run.ofBreakdown {α : Type} (a : Except Breakdown α) : Run ε α := .ofExcept (a.mapError .broken)

def Run.attempt {α : Type} (r : Run ε α) : Run ε (Except Error α) :=
  ExceptT.mk (r.run >>= fun a => pure (.ok a))

def setCache (cache : Cache.Store Float Cached) : Run ε Unit :=
  modify fun w => { w with cache }

def setRepository (repository : Store.Repository) : Run ε Unit :=
  modify fun w => { w with repository }

def invalidate (id : String) : Run ε Unit := do
  setCache ((← get).cache.removeByTags [Cache.datasetTag id]).2

/-- The live value of a key, or else the computed one, which is kept for `ttl` seconds. A call
that would have to wait for itself fails. -/
def cached (key : String) (ttl : Float) (tags : List String) (compute : Run ε Cached) :
    Run ε Cached := do
  let w ← get
  match w.cache.begin w.clock key (some ttl) tags with
  | (.hit v, cache) =>
    setCache cache
    return v
  | (.joined _, cache) =>
    setCache cache
    throw (.crashed "deadlock")
  | (.leads lead, cache) =>
    setCache cache
    match ← compute.attempt with
    | .ok v =>
      modify fun w => { w with cache := w.cache.finish w.clock lead v }
      return v
    | .error e =>
      modify fun w => { w with cache := w.cache.land lead }
      throw e

end DatasetCatalog.Service
