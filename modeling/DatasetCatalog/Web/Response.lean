import DatasetCatalog.Error
import DatasetCatalog.Value.JsonForm

/-!
# Web responses

What a request is answered, and which status an error has. Errors that callers are not meant to
cause tell them nothing, and neither does an answer that cannot be written.
-/

namespace DatasetCatalog.Web

open Document Number

mutual

/-- What keeps a value from being sent as JSON, by the first such part: a double that is no number, a
whole number that is too long to be written, or a value of a kind that it lacks. -/
def obstacle? : Value → Option Breakdown
  | .int n => if isWritable n then none else some .badValue
  | .float x => if x.isFinite then none else some .badValue
  | .nan _ .double => some .badValue
  | .list items => anyObstacle? items
  | .object entries => anyEntryObstacle? entries
  | .date _ | .moment _ | .duration _ | .decimal _ | .nan .. | .bytes _ => some .badType
  | _ => none
termination_by structural v => v

def anyObstacle? : List Value → Option Breakdown
  | [] => none
  | v :: rest => (obstacle? v).or (anyObstacle? rest)
termination_by structural vs => vs

def anyEntryObstacle? : List (String × Value) → Option Breakdown
  | [] => none
  | (_, v) :: rest => (obstacle? v).or (anyEntryObstacle? rest)
termination_by structural es => es

end

inductive Detail where
  | message (text : String)
  | faults (found : List Fault)
  /-- A report of what is wrong with the dataset that was asked for. -/
  | report (found : List Fault)

inductive Content where
  | document (v : Value)
  | detail (d : Detail)
  | plain (text : String)

structure Response where
  status : Nat
  content : Content

def Response.silent : Response := ⟨500, .plain "Internal Server Error"⟩

def Response.refusal (status : Nat) (text : String) : Response := ⟨status, .detail (.message text)⟩

def Response.ofError (e : Error) : Response :=
  match e with
  | .permissionDenied .. => .refusal 403 e.message
  | .datasetNotFound _ | .datasourceNotFound _ => .refusal 404 e.message
  | .refused _ => .refusal 422 e.message
  | .unfit found => ⟨422, .detail (.report found)⟩
  | .invalid _ | .sourceFailed _ | .crashed _ | .broken _ => .silent

/-- The response with a document, if that has a form that can be written. -/
def Response.document (status : Nat) (form : Except Unwritable Value) : Response :=
  match form with
  | .ok v => ⟨status, .document v⟩
  | .error _ => .silent

/-- What a fault is about: the value at its place, or the object that lacks an entry. -/
def subject (document : Value) (f : Fault) : Value :=
  let path := f.path.drop 1
  (if f.kind == .missing then path.dropLast else path).foldl
    (fun v step => match step, v with
      | .key k, v => v.getD k
      | .index i, .list items => items[i]?.getD .null
      | .index _, _ => .null)
    document

/-- The response to faults, which quotes what they are about. -/
def Response.ofFaults (body : Option Value) (found : List Fault) : Response :=
  let isQuotable (f : Fault) : Bool :=
    f.path.head? != some (.key "body") || (obstacle? (subject (body.getD .null) f)).isNone
  if found.all isQuotable then ⟨422, .detail (.faults found)⟩ else .silent

end DatasetCatalog.Web
