import DatasetCatalog.Error
import DatasetCatalog.Json.Compact
import DatasetCatalog.Model.Datasource

/-!
# Engines

An engine is a pool of connections to one database. Each datasource has at most one, which is used
again as long as its configuration stays the same, and disposed of when it changes. Configurations
are told apart by their JSON.
-/

namespace DatasetCatalog

def DatasourceConfig.json (c : DatasourceConfig) : List Char :=
  let text (part : Option String) : List Char := part.elim (Json.write .null) Json.compactText
  let entry (key : String) (part : List Char) : List Char := Json.writeText key ++ ':' :: part
  '\x7b' :: Json.separated
    [entry "host" (text c.host), entry "port" (Json.write (.ofOption .int c.port)),
      entry "database" (text c.database), entry "username" (text c.username),
      entry "password" (text c.password), entry "path" (text c.path)] ++ ['\x7d']

def DatasourceConfig.fingerprint (c : DatasourceConfig) : String := String.ofList c.json

namespace Source

structure Engine where
  number : Nat
  url : ConnectionUrl
deriving DecidableEq, Repr

structure PooledEngine where
  fingerprint : String
  engine : Engine
deriving DecidableEq, Repr

/-- The engines in use by the ids of their datasources, and all that were created and disposed
of. -/
structure EnginePool where
  pooled : List (String × PooledEngine) := []
  created : List Engine := []
  disposed : List Engine := []

/-- Put a new engine in the place of the one of an id, which is disposed of. -/
def EnginePool.replace (p : EnginePool) (id : String) (new : PooledEngine) : EnginePool where
  pooled := Value.putEntry id new p.pooled
  created := p.created ++ [new.engine]
  disposed := p.disposed ++ ((p.pooled.lookup id).map (·.engine)).toList

/-- The engine of a datasource, created if there is none for its present configuration. -/
def EnginePool.engineFor (p : EnginePool) (d : Datasource) : Engine × EnginePool :=
  match (p.pooled.lookup d.id).filter (·.fingerprint == d.config.fingerprint) with
  | some e => (e.engine, p)
  | none =>
    let engine : Engine := ⟨p.created.length, d.url⟩
    (engine, p.replace d.id ⟨d.config.fingerprint, engine⟩)

def EnginePool.disposeAll (p : EnginePool) : EnginePool :=
  { p with pooled := [], disposed := p.disposed ++ p.pooled.map (·.2.engine) }

end Source

end DatasetCatalog
