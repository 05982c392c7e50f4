import DatasetCatalog.Inference.Merge
import DatasetCatalog.Json.Canonical
import DatasetCatalog.Quality.Issues
import DatasetCatalog.Service.Metadata

/-!
# Analysis

An analysis samples a dataset, infers its fields and judges its data. The findings are merged into
the dataset as it is after sampling, so edits made meanwhile survive. A failure is recorded on the
dataset and never raised; what the cache holds of the dataset is dropped in any case.
-/

namespace DatasetCatalog.Service

open Document

variable {ε : Type}

/-- The message of an error that a dataset operation foresees. -/
def foreseen? : Error → Option String
  | .crashed _ | .broken _ | .invalid _ => none
  | e => some e.message

/-- Update a dataset after the host has had its say; `none` if it is gone. -/
def updateStored (h : Host ε) (id : String) (patch : List (String × Value)) :
    Run ε (Option Dataset) := do
  h.beforeUpdate id
  let w ← get
  let (updated, repository) ← Run.ofExcept (w.repository.update id patch w.now)
  setRepository repository
  return updated

/-- The first rows of a dataset's source; views are followed without regard to roles. -/
def sample (h : Host ε) (d : Dataset) : Run ε Source.ExecutionResult := do
  let settings := (← get).settings
  let statement ← Query.compilePreview (some load) (← chainBound) d settings.inferenceSampleRows
  let datasource ← datasourceFor load d
  h.execute datasource statement settings.queryTimeoutMs

def findings (now : Time.Moment) (fields : List Field) (columns : List String)
    (rows : List Inference.Row) : Except Breakdown (List (String × Value)) := do
  let issues ← Quality.analyse (fields.filter fun f => columns.contains f.name) rows
  let text ← canonicalJson (.list (rows.map .object))
  let metadata : DatasetMetadata :=
    { recordCount := rows.length
      columnCount := columns.length
      lastRefreshed := some now
      dataSize := some text.length }
  return [("fields", .list (fields.map Field.document)),
    ("metadata", metadata.document),
    ("quality_issues", .list (issues.map QualityIssue.document)),
    ("quality_score", .int (← Quality.scoreOf issues)),
    ("status", .named DatasetStatus.active),
    ("last_error", .null)]

def markError (h : Host ε) (id message : String) : Run ε Unit := do
  let _ ← (updateStored h id
    [("status", .named DatasetStatus.error), ("last_error", .text message)]).attempt

inductive AnalysisFailure where
  | sampling (message : String)
  | unexpected

def AnalysisFailure.message : AnalysisFailure → String
  | .sampling message => message
  | .unexpected => "Field analysis failed unexpectedly."

/-- Sample the dataset and write the findings; nothing if it is gone before or after sampling. -/
def analyseStored (h : Host ε) (id : String) : Run ε (Option AnalysisFailure) := do
  match ← Run.ofExcept ((← get).repository.find? id) with
  | none => return none
  | some d =>
    match ← (sample h d).attempt with
    | .error e =>
      match foreseen? e with
      | some message => return some (.sampling message)
      | none => throw e
    | .ok result =>
      let inferred ← Run.ofBreakdown (Inference.inferFields result.columns result.rows)
      match ← Run.ofExcept ((← get).repository.find? id) with
      | none => return none
      | some latest =>
        let fields := Inference.mergeFields latest.fields inferred
        let patch ← Run.ofBreakdown (findings (← get).now fields result.columns result.rows)
        let _ ← updateStored h id patch
        return none

/-- Analyse a dataset; failures end up on the dataset. -/
def analyse (h : Host ε) (id : String) : Run ε Unit := do
  match ← (analyseStored h id).attempt with
  | .ok none => pure ()
  | .ok (some failure) => markError h id failure.message
  | .error _ => markError h id AnalysisFailure.unexpected.message
  invalidate id

/-- Have a dataset analysed; whether the analysis is done. -/
def schedule (h : Host ε) (id : String) : Run ε Bool := do
  match (← get).background with
  | .inline =>
    analyse h id
    return true
  | .queued =>
    modify fun w =>
      { w with
        queue := w.queue ++ [⟨w.nextJob, id⟩]
        pending := Value.putEntry id w.nextJob w.pending
        nextJob := w.nextJob + 1 }
    return false

def isPending (id : String) : Run ε Bool := do
  return ((← get).pending.lookup id).isSome

def runNextJob (h : Host ε) : Run ε Bool := do
  match (← get).queue with
  | [] => return false
  | job :: rest =>
    modify fun w => { w with queue := rest }
    analyse h job.datasetId
    modify fun w => { w with pending := w.pending.filter fun p => p != (job.datasetId, job.number) }
    return true

/-- Run jobs, at most `n`, until the queue is empty; how many were run. -/
def runJobs (h : Host ε) : Nat → Run ε Nat
  | 0 => return 0
  | n + 1 => do
    if ← runNextJob h then return (← runJobs h n) + 1 else return 0

def refresh (h : Host ε) (userId id : String) : Run ε Bool := do
  require (← load id) userId .editor
  schedule h id

end DatasetCatalog.Service
