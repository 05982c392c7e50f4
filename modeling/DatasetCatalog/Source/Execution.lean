import DatasetCatalog.Inference.FieldInference
import DatasetCatalog.Query.Statement

/-!
# Executing statements

A statement is sent to its datasource in the named form, on a connection that is set to read only
and to a time limit where the database has such settings. Cells that JSON lacks are made into
numbers or texts.
-/

namespace DatasetCatalog.Source

open Text Inference

structure ExecutionResult where
  rows : List Row
  columns : List String

def ExecutionResult.total (r : ExecutionResult) : Nat := r.rows.length

/-- A cell as it is handed on: decimals as doubles, times as texts, octets in hexadecimal. -/
def serialiseCell : Value → Except Breakdown Value
  | .decimal d => d.toFloat?.elim (.error .badValue) fun x => .ok (.float x)
  | .nan _ (.decimal ..) => .ok (.float (0.0 / 0.0))
  | .date d => .ok (.text d.text)
  | .moment m => .ok (.text m.text)
  | .duration d => .ok (.text d.text)
  | .bytes octets => .ok (.text (hexText octets))
  | v => .ok v

/-- A row by column; of columns with one name the last counts, and a short row has fewer. -/
def rowOf (columns : List String) (cells : List Value) : Except Breakdown Row := do
  let entries ← (columns.zip cells).mapM fun (column, cell) => do
    return (column, ← serialiseCell cell)
  return Value.mergeEntries [] entries

/-- What a connection is told before the query. -/
def setupStatements (backend : DatasourceType) (timeoutMs : Int) : List String :=
  match backend with
  | .postgresql =>
    ["SET TRANSACTION READ ONLY", "SET LOCAL statement_timeout = " ++ Number.intText timeoutMs]
  | .mysql =>
    ["SET SESSION TRANSACTION READ ONLY",
      "SET SESSION MAX_EXECUTION_TIME = " ++ Number.intText timeoutMs]
  | .sqlite => []

inductive ConnectionEvent where
  | setup (sql : String)
  | query (sql : String) (params : List (String × Value))
  | closed
  | disposed

/-- What a database answers to a query: a table, or a failure that may stem from another one. -/
inductive DatabaseReply where
  | table (columns : List String) (rows : List (List Value))
  | failure (message : String) (origin : Option String)

/-- The words of a failure: those of its origin, unless there is none or it has none. -/
def failureText (message : String) (origin : Option String) : String :=
  (origin.filter (!·.isEmpty)).getD message

def execute (backend : DatasourceType) (s : Query.Statement) (timeoutMs : Int)
    (reply : DatabaseReply) : Except Error ExecutionResult × List ConnectionEvent :=
  let result := match reply with
    | .table columns rows => ((rows.mapM (rowOf columns)).map (⟨·, columns⟩)).mapError .broken
    | .failure message origin => .error (.sourceFailed (failureText message origin))
  (result,
    (setupStatements backend timeoutMs).map .setup ++
      [.query s.namedSql s.namedParams, .closed, .disposed])

end DatasetCatalog.Source
