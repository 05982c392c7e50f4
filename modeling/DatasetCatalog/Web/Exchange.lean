import DatasetCatalog.Cache.Stats
import DatasetCatalog.Service.Editing
import DatasetCatalog.Service.Reading
import DatasetCatalog.Value.JsonForm
import DatasetCatalog.Web.Request
import DatasetCatalog.Web.Response

/-!
# Web exchanges

A path takes certain methods, and a request is answered by the operation of its path and method.
Slashes at the end of a path do not matter, unless the path means something with them.
-/

namespace DatasetCatalog.Web

open Document Service

inductive Action where
  | health | cacheStats | cacheCleanup | create | search
  | get (id : String)
  | update (id : String)
  | delete (id : String)
  | preview (id : String)
  | query (id : String)
  | refresh (id : String)
deriving DecidableEq, Repr

/-- The methods that a dataset's path takes. -/
def datasetActions (id : String) : List String → List (String × Action)
  | [] => [("GET", .get id), ("PATCH", .update id), ("DELETE", .delete id)]
  | ["preview"] => [("GET", .preview id)]
  | ["query"] => [("POST", .query id)]
  | ["refresh"] => [("POST", .refresh id)]
  | _ => []

/-- A part without one line feed at its end, which a fixed name lets pass. -/
def withoutLineFeed (part : String) : String :=
  if part.toList.getLast? == some '\n' then String.ofList part.toList.dropLast else part

/-- The last part without a line feed at its end. -/
def lenientEnd (parts : List String) : List String :=
  parts.dropLast ++ parts.getLast?.toList.map withoutLineFeed

/-- The methods that a path takes; none if there is no such path. -/
def actions (path : List Char) : List (String × Action) :=
  let parts := segments path
  match lenientEnd parts, parts with
  | ["", "health"], _ => [("GET", .health)]
  | ["", "cache", "stats"], _ => [("GET", .cacheStats)]
  | ["", "cache", "cleanup"], _ => [("POST", .cacheCleanup)]
  | ["", "datasets"], _ => [("POST", .create), ("GET", .search)]
  | "" :: "datasets" :: _ :: rest, _ :: _ :: id :: _ =>
    if id.isEmpty then [] else datasetActions id rest
  | _, _ => []

/-- The path that slashes at the end lead to, if it takes any methods. -/
def redirect? (path : List Char) : Option (List Char) :=
  match withoutSlashes? path with
  | some shorter => if (actions shorter).isEmpty then none else some (redirected shorter)
  | none => none

def maxRedirects : Nat := 20

def actionsAt : Nat → List Char → List (String × Action)
  | 0, path => actions path
  | n + 1, path =>
    match actions path, redirect? path with
    | [], some next => actionsAt n next
    | found, _ => found

variable {ε α : Type}

/-- Go on with what was read from a request, or answer as it was refused. -/
def answering (r : Request) (inputs : Except Response α) (go : α → Run ε Response) :
    Run ε Response := do
  match inputs with
  | .error response => return response
  | .ok a =>
    match ← (go a).attempt with
    | .ok response => return response
    | .error e => return r.body.refuse e

def datasetForm (d : Dataset) : Value := .object (d.documentWith "schema")

def datasetResponse (status : Nat) (d : Dataset) : Response :=
  .document status ((datasetForm d).jsonForm Dataset.frame)

def timeoutReader : EntriesReader (Option Int) :=
  withDefault "timeout_ms" none (nullable (intAtLeast 1))

def previewReader : EntriesReader (Option Int × Option Int) :=
  Prod.mk <$> withDefault "limit" none (nullable (intAtLeast 1)) <*> timeoutReader

def act (h : Host ε) (r : Request) (params : List (String × String)) : Action → Run ε Response
  | .health => return ⟨200, .document (.object [("status", .text "ok")])⟩
  | .cacheStats => do
    let stats := (← get).cache.stats
    return .document 200 ((stats.document (.float stats.defaultTtl)).jsonForm 0)
  | .cacheCleanup => do
    let w ← get
    let (removed, cache) := w.cache.cleanup w.clock
    setCache cache
    return ⟨200, .document (.object [("removed", .ofNat removed)])⟩
  | .create => answering r (r.withBody r.caller (model CreateRequest.reader))
      fun (userId, body) => do
    return datasetResponse 201 (← create h userId body.value)
  | .search =>
    answering r (accepted none (r.withQuery (queryEntries params ["tags"]) SearchParams.reader))
      fun (userId, wanted) => do
    return .document 200 ((← search userId wanted).jsonForm datasetForm)
  | .get id => answering r r.fromCaller fun userId => do
    return datasetResponse 200 (← getDataset userId id)
  | .update id => answering r (r.withBody r.caller (model UpdateRequest.reader))
      fun (userId, body) => do
    return datasetResponse 200 (← update h userId id body)
  | .delete id => answering r r.fromCaller fun userId => do
    delete userId id
    return ⟨204, .plain ""⟩
  | .preview id => answering r (accepted none (r.withQuery (queryEntries params []) previewReader))
      fun (userId, limit, timeoutMs) => do
    return .document 200 (← preview h userId id limit timeoutMs).jsonForm
  | .query id =>
    answering r (r.withBody (r.withQuery (queryEntries params []) timeoutReader)
      (model QueryRequest.reader)) fun ((userId, timeoutMs), body) => do
    return .document 200 (← query h userId id body.value timeoutMs).jsonForm
  | .refresh id => answering r r.fromCaller fun userId => do
    let _ ← refresh h userId id
    return .document 202 (.ok (.object [("id", .text id), ("scheduled", .bool true)]))

def refuseMethod (method : String) : Response :=
  if method == "HEAD" then ⟨405, .plain ""⟩ else .refusal 405 "Method Not Allowed"

def refusePath (method : String) : Response :=
  if method == "HEAD" then ⟨404, .plain ""⟩ else .refusal 404 "Not Found"

def exchange (h : Host ε) (r : Request) : Run ε Response := do
  match Address.ofText? r.target, r.obstacle? with
  | none, _ => throw (.broken .badAddress)
  | some _, some breakdown => throw (.broken breakdown)
  | some a, none =>
    match actionsAt maxRedirects a.path with
    | [] => return refusePath r.method
    | taken =>
      match taken.lookup r.method with
      | some action => act h r (r.query a) action
      | none => return refuseMethod r.method

end DatasetCatalog.Web
