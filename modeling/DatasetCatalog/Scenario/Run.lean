import DatasetCatalog.Number.NumberText
import DatasetCatalog.Scenario.Basic

/-!
# Running scenarios

The scripted source is a host of the service. Steps in the midst of an execution run with a host of
their own, which is as deep as the scripts that they can bring hold steps.
-/

namespace DatasetCatalog.Scenario

open Document Service

abbrev Play := Run Stage

def setStage (change : Stage → Stage) : Play Unit :=
  modify fun w => { w with surroundings := change w.surroundings }

def beforeUpdate (id : String) : Play Unit := do
  let stage := (← get).surroundings
  match stage.failingWrites with
  | n + 1 =>
    setStage fun s => { s with failingWrites := n }
    throw (.crashed "write failed")
  | 0 =>
    if stage.vanishes then
      setStage fun s => { s with vanishes := false }
      let (_, repository) ← Run.ofExcept ((← get).repository.delete id)
      setRepository repository

def takeStep (h : Host Stage) : Step → Play Answer
  | .call o => .service <$> perform h o
  | .exchange r => .response <$> Web.exchange h r
  | .analyse id => do
    analyse h id
    return .done
  | .isPending id => .flag <$> isPending id
  | .runJobs => do
    let w ← get
    .count <$> runJobs h (w.queue.length + weights w.surroundings.script.meanwhile + 1)
  | .peek id => do
    return .stored (← Run.ofExcept ((← get).repository.find? id))
  | .advance seconds => do
    modify fun w => { w with clock := w.clock + seconds }
    return .time (← get).clock
  | .cleanup => do
    let w ← get
    let (removed, cache) := w.cache.cleanup w.clock
    setCache cache
    return .count removed
  | .viewCache => return .cache (← get).cache
  | .source rows columns failure meanwhile => do
    setStage fun s => { s with script := { rows, columns, failure, meanwhile } }
    return .done
  | .addDatasource document => do
    let w ← get
    let d ← Run.ofExcept
      (((model (Datasource.reader w.freshId)).value document).mapError .invalid)
    setRepository (w.repository.putDatasource d)
    return .datasource d.id
  | .dropDatasource id => do
    setRepository ((← get).repository.dropDatasource id)
    return .done
  | .failWrites n => do
    setStage fun s => { s with failingWrites := n }
    return .done
  | .vanish => do
    setStage fun s => { s with vanishes := true }
    return .done
  | .unreadable e => throw e

def takeMeanwhile (h : Host Stage) (steps : List Step) : Play Unit :=
  steps.forM fun step => do
    let outcome ← (takeStep h step).attempt
    setStage fun s => { s with meanwhile := s.meanwhile ++ [outcome] }

/-- Execute by the script, with a host for the steps in the midst if there is one. -/
def executeWith (inner : Option (Host Stage)) (datasource : Datasource)
    (statement : Query.Statement) (timeoutMs : Int) : Play Source.ExecutionResult := do
  let script := (← get).surroundings.script
  setStage fun s =>
    { s with
      calls := s.calls ++ [⟨datasource, statement, timeoutMs⟩]
      script := { script with meanwhile := [] } }
  if let some h := inner then takeMeanwhile h script.meanwhile
  match script.failure with
  | some e => throw e
  | none => return ⟨script.rows, script.columns⟩

/-- The host of a scenario whose scripts hold at most `n` steps within each other. -/
def host : Nat → Host Stage
  | 0 => { execute := executeWith none, beforeUpdate }
  | n + 1 => { execute := executeWith (some (host n)), beforeUpdate }

/-- The world at a step: its time and the id of what it creates tell its number. -/
def atStep (n : Nat) (w : World Stage) : World Stage :=
  { w with
    now := Time.Moment.start2024.addSeconds n
    freshId := "d" ++ Number.intText n
    surroundings := { w.surroundings with calls := [], meanwhile := [] } }

def runFrom : Nat → World Stage → List Step → List Report
  | _, _, [] => []
  | n, w, step :: rest =>
    let w := atStep n w
    let (outcome, w) := (takeStep (host (weights w.surroundings.script.meanwhile)) step).run w
    ⟨outcome, w.surroundings.calls, w.surroundings.meanwhile⟩ :: runFrom (n + 1) w rest

def run (w : World Stage) (steps : List Step) : List Report := runFrom 0 w steps

end DatasetCatalog.Scenario
