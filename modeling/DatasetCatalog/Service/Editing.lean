import DatasetCatalog.Model.Request
import DatasetCatalog.Service.Analysis

/-!
# Editing datasets

A new dataset is stored provisionally and then analysed. Changes are written as they are given,
after every check that could refuse them, and only then is the cache told.
-/

namespace DatasetCatalog.Service

open Document

variable {ε : Type}

def newDocument (ownerId : String) (r : CreateRequest) : List (String × Value) :=
  let fields := if r.fields.isEmpty then [Field.placeholder] else r.fields
  [("user_id", .text ownerId),
   ("name", .text r.name),
   ("display_name", .text r.displayName),
   ("description", .ofOption .text r.description),
   ("type", .named r.type),
   ("table_config", .ofOption TableConfig.document r.tableConfig),
   ("sql_config", .ofOption SqlConfig.document r.sqlConfig),
   ("view_config", .ofOption ViewConfig.document r.viewConfig),
   ("fields", .list (fields.map Field.document)),
   ("metadata", .object [("column_count", .ofNat fields.length)]),
   ("category", .text r.category),
   ("tags", .list (r.tags.map .text)),
   ("permissions", .list [(Permission.mk ownerId .owner).document])]

/-- The datasource that a table or SQL configuration names, the table's first. -/
def namedDatasource (table : Option TableConfig) (sql : Option SqlConfig) : Option String :=
  (table.map (·.datasourceId)).or (sql.map (·.datasourceId))

def create (h : Host ε) (ownerId : String) (r : CreateRequest) : Run ε Dataset := do
  checkSource ownerId ownerId (namedDatasource r.tableConfig r.sqlConfig) r.viewConfig
  checkNameFree ownerId r.name
  let w ← get
  let d ← Run.ofExcept
    ((Dataset.ofDocument ⟨w.freshId, w.now⟩ (newDocument ownerId r)).mapError .unfit)
  setRepository (← Run.ofExcept ((← get).repository.create d))
  let _ ← schedule h d.id
  return d

def configKeys : List String := ["table_config", "sql_config", "view_config"]

/-- Refuse changes that the user may not make, or that name what may not be used. -/
def checkChanges (userId : String) (current : Dataset) (changes : UpdateRequest)
    (patch : List (String × Value)) : Run ε Unit := do
  if (patch.lookup "permissions").isSome then require current userId .owner
  if let some name := changes.name then
    if name != current.name then checkNameFree current.userId name
  if configKeys.any fun k => (patch.lookup k).isSome then
    checkSource current.userId userId (namedDatasource changes.tableConfig changes.sqlConfig)
      changes.viewConfig

def update (h : Host ε) (userId id : String) (changes : Reading UpdateRequest) :
    Run ε Dataset := do
  let current ← load id
  require current userId .editor
  let patch := changes.given.entries
  if patch.isEmpty then return current
  checkChanges userId current changes.value patch
  let _ ← Run.ofExcept ((current.patched patch (← get).now).mapError .unfit)
  match ← updateStored h id patch with
  | none => throw (.datasetNotFound id)
  | some updated =>
    invalidate id
    return updated

def delete (userId id : String) : Run ε Unit := do
  let current ← load id
  require current userId .owner
  let (_, repository) ← Run.ofExcept ((← get).repository.delete id)
  setRepository repository
  invalidate id

end DatasetCatalog.Service
