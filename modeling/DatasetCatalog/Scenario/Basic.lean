import DatasetCatalog.Service.Operation
import DatasetCatalog.Web.Exchange

/-!
# Scenarios

A scenario puts the service to work on a scripted source, step by step. Steps are calls of the
service, looks at what it holds, and changes around it: another script, datasources that come and
go, writes that fail. A script may hold steps that run in the midst of its first execution, as
other users would.
-/

namespace DatasetCatalog.Scenario

open Service

inductive Step where
  | call (o : Service.Operation)
  | exchange (r : Web.Request)
  | analyse (id : String)
  | isPending (id : String)
  | runJobs
  | peek (id : String)
  | advance (seconds : Float)
  | cleanup
  | viewCache
  /-- From now on the source answers with these rows, or fails. -/
  | source (rows : List Inference.Row) (columns : List String) (failure : Option Error)
      (meanwhile : List Step)
  | addDatasource (document : Value)
  | dropDatasource (id : String)
  /-- Let updates of the repository fail, as many as are said. -/
  | failWrites (n : Nat)
  /-- Let the next dataset that is to be updated be gone. -/
  | vanish
  | unreadable (e : Error)
deriving Inhabited

inductive Answer where
  | service (a : Service.Answer)
  | response (r : Web.Response)
  | done
  | flag (b : Bool)
  | count (n : Nat)
  | time (seconds : Float)
  | stored (d : Option Dataset)
  | cache (store : Cache.Store Float Cached)
  | datasource (id : String)

structure Script where
  rows : List Inference.Row := []
  columns : List String := []
  failure : Option Error := none
  /-- The steps that have still to run in the midst of an execution. -/
  meanwhile : List Step := []

structure Call where
  datasource : Datasource
  statement : Query.Statement
  timeoutMs : Int

structure Stage where
  script : Script
  failingWrites : Nat := 0
  vanishes : Bool := false
  calls : List Call := []
  /-- What the steps in the midst of the current one came to. -/
  meanwhile : List (Except Error Answer) := []

structure Report where
  outcome : Except Error Answer
  calls : List Call
  meanwhile : List (Except Error Answer)

mutual

/-- The number of steps that a step holds, itself included. -/
def Step.weight : Step → Nat
  | .source _ _ _ meanwhile => weights meanwhile + 1
  | _ => 1
termination_by structural s => s

def weights : List Step → Nat
  | [] => 0
  | s :: rest => s.weight + weights rest
termination_by structural ss => ss

end

end DatasetCatalog.Scenario
