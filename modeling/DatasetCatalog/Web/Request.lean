import DatasetCatalog.Json.Encoding
import DatasetCatalog.Json.Spelling
import DatasetCatalog.Document.Scalar
import DatasetCatalog.Web.Address
import DatasetCatalog.Web.Response

/-!
# Web requests

A request names its target and its caller, and may bring a document. Its parts are read like any
document, so all their faults are found together; of a body that is no JSON only that is said.
-/

namespace DatasetCatalog.Web

open Document

inductive Body where
  | empty
  | text (s : String)
  | document (v : Value)

structure Request where
  method : String
  target : String
  /-- Parameters that take the place of those in the target. -/
  params : Option (List (String × String)) := none
  body : Body := .empty
  userId : Option String

def Body.obstacle? : Body → Option Breakdown
  | .document v => Web.obstacle? v
  | .text _ | .empty => none

/-- Whether the caller can be written in a header. -/
def Request.isWritable (r : Request) : Bool :=
  r.userId.all (·.toList.all fun c => c.toNat < 128)

def Request.obstacle? (r : Request) : Option Breakdown :=
  if r.isWritable then r.body.obstacle? else some .unencodable

def Request.query (r : Request) (a : Address) : List (String × String) := r.params.getD a.params

/-- The parameters as entries. The last of a name counts, and for names in `lists` all do. -/
def queryEntries (params : List (String × String)) (lists : List String) : List (String × Value) :=
  params.foldl (fun entries (k, s) =>
    let v := if lists.contains k
      then Value.list ((params.filter (·.1 == k)).map fun p => .text p.2)
      else .text s
    Value.putEntry k v entries) []

variable {α β : Type}

/-- Read entries of one part of a request. -/
def readPart (part : String) (reader : EntriesReader α) (entries : List (String × Value)) :
    Checked α :=
  ((reader.read entries).map (·.1)).within (.key part)

def Request.caller (r : Request) : Checked String :=
  readPart "header" (required "x-user-id" (textAtLeast 1))
    (r.userId.toList.map fun id => ("x-user-id", .text id))

inductive Body.Fault where
  | malformed (position : Nat)
  | unreadable

def Body.document? : Body → Except Body.Fault (Option Value)
  | .empty => .ok none
  | .text s =>
    if s.isEmpty then .ok none
    else match (Json.decode? s).map Json.parse with
      | some (.ok v) => .ok (some v)
      | some (.error (.malformed position)) => .error (.malformed position)
      | some (.error .excessive) | none => .error .unreadable
  | .document v => .ok (some v)

/-- The response to an error; a refused name is shown as the body spells it. -/
def Body.refuse (b : Body) (e : Error) : Response :=
  match b, e with
  | .text s, .refused (.invalidName use name) =>
    match ((Json.decode? s).bind (Json.spelling? · name)).map Json.quotedNumbers with
    | some shown => .refusal 422 (use.refusal shown)
    | none => .ofError e
  | _, e => .ofError e

def readBody (reader : Reader α) : Option Value → Checked (Reading α)
  | none => .fault .missing
  | some v => reader v

/-- What was read, or the response to what is wrong with it. -/
def accepted (body : Option Value) : Checked α → Except Response α
  | .ok a => .ok a
  | .faults found => .error (.ofFaults body found)

def Request.fromCaller (r : Request) : Except Response String := accepted none r.caller

def Request.withQuery (r : Request) (params : List (String × Value)) (reader : EntriesReader α) :
    Checked (String × α) :=
  (r.caller.map Prod.mk).apply (readPart "query" reader params)

def Request.withBody (r : Request) (others : Checked β) (reader : Reader α) :
    Except Response (β × Reading α) :=
  match r.body.document? with
  | .error (.malformed position) =>
    .error (.ofFaults none [⟨[.key "body", .index position], .malformedJson⟩])
  | .error .unreadable => .error (.refusal 400 "There was an error parsing the body")
  | .ok document =>
    accepted document ((others.map Prod.mk).apply ((readBody reader document).within (.key "body")))

end DatasetCatalog.Web
