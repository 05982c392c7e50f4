import DatasetCatalog.Model.FieldLookup
import DatasetCatalog.Number.NumberText
import DatasetCatalog.Service.World

/-!
# Intents

A question is turned into SQL outside this library, by way of an intent: free-form data that names
fields by label. What comes from outside is taken as it is, so every part of it may have the wrong
kind. Labels are replaced by column names before the intent is used.
-/

namespace DatasetCatalog.Service

open Number

structure Outcome where
  intent : Value
  confidence : Float := 0.0
  explanation : Value := .text ""
  suggestions : List Value := []
  sql : Value := .text ""
  result : Option QueryResult := none
  errors : List Value := []

def Outcome.success (o : Outcome) : Bool :=
  o.errors.isEmpty && o.result.any (·.errors.isEmpty)

def Outcome.document (o : Outcome) : Value := .object
  [("intent", o.intent),
   ("confidence", .float o.confidence),
   ("explanation", o.explanation),
   ("suggestions", .list o.suggestions),
   ("sql", o.sql),
   ("result", .ofOption QueryResult.document o.result),
   ("errors", .list o.errors),
   ("success", .bool o.success)]

/-- An entry of an answer, which has to be an object. -/
def part (answer : Value) (key : String) : Except Breakdown Value :=
  match answer with
  | .object _ => .ok (answer.getD key)
  | _ => .error .noSuchPart

/-- The value, or another one if it counts as not given. -/
def orElse (v default : Value) : Value := if v.truthy then v else default

def confidenceOf (v : Value) : Except Breakdown Float :=
  match orElse v (.float 0.0) with
  | .float x => .ok x
  | .bool b => .ok (if b then 1.0 else 0.0)
  | .int n => match ofInt? n with
    | some x => .ok x
    | none => .error .overflow
  | .decimal d => readable d.toFloat?
  | .nan .. => .ok (0.0 / 0.0)
  | .text s => readable (readLenient? s)
  | .bytes octets => readable ((Text.asciiText? octets).bind readLenient?)
  | _ => .error .badType
where
  readable (x : Option Float) : Except Breakdown Float := x.elim (.error .badValue) .ok

/-- What a value consists of: items, characters, keys or octets. -/
def elements (v : Value) : Except Breakdown (List Value) :=
  match v with
  | .list items => .ok items
  | .text s => .ok (s.toList.map fun c => .text (String.ofList [c]))
  | .object entries => .ok (entries.map fun e => .text e.1)
  | .bytes octets => .ok (octets.map fun b => .ofNat b.toNat)
  | _ => .error .badType

/-- The extracted intent with what was said about it. -/
def extraction (answer : Value) : Except Breakdown Outcome := do
  return {
    intent := ← part answer "intent"
    confidence := ← confidenceOf (← part answer "confidence")
    explanation := orElse (← part answer "explanation") (.text "")
    suggestions := ← elements (orElse (← part answer "suggestions") (.list [])) }

def isHashable : Value → Bool
  | .list _ | .object _ => false
  | .decimal d => !d.isSignaling
  | _ => true

/-- Whether a value could be an entry: two elements, of which the first can be a key. -/
def checkPair (v : Value) : Except Breakdown Unit := do
  match ← elements v with
  | [key, _] => if isHashable key then return else throw .badType
  | _ => throw .badValue

/-- The entries of an intent. Other data may be taken for entries, but not for an intent. -/
def intentEntries (intent : Value) : Except Breakdown (List (String × Value)) := do
  match intent with
  | .object entries => return entries
  | v =>
    let items ← elements v
    items.forM checkPair
    throw .noSuchPart

/-- The column of a label, which has to be a text. -/
def labelColumn? (fields : List Field) (label : Value) : Except Breakdown (Option String) :=
  match label with
  | .text s => .ok (resolveLabel? fields s)
  | v => .error (if isHashable v then .noSuchPart else .badType)

/-- A list with its labels replaced by columns, and the labels that are unknown. -/
structure Resolution where
  items : List Value := []
  unknown : List Value := []

def resolveItems (fields : List Field) (labels : List Value) : Except Breakdown Resolution :=
  labels.foldlM (fun r label => do
    match ← labelColumn? fields label with
    | some column => return { r with items := r.items ++ [.text column] }
    | none => return { r with unknown := r.unknown ++ [label] }) {}

/-- Filters without a field stay as they are; those with an unknown one are left out. -/
def resolveFilters (fields : List Field) (filters : List Value) : Except Breakdown Resolution :=
  filters.foldlM (fun r f => do
    match f.get? "field" with
    | none => return { r with items := r.items ++ [f] }
    | some label =>
      match ← labelColumn? fields label with
      | some column =>
        let f := Value.object (Value.putEntry "field" (.text column) f.entries)
        return { r with items := r.items ++ [f] }
      | none => return { r with unknown := r.unknown ++ [label] }) {}

/-- Resolve the list under a key; anything but a list stays. -/
def resolveEntry (resolve : List Value → Except Breakdown Resolution) (key : String)
    (intent : List (String × Value)) (source : List (String × Value)) :
    Except Breakdown (List (String × Value) × List Value) :=
  match source.lookup key with
  | some (.list items) => do
    let r ← resolve items
    return (Value.putEntry key (.list r.items) intent, r.unknown)
  | _ => .ok (intent, [])

/-- The intent with column names for labels, and the labels that are unknown. -/
def resolveIntent (fields : List Field) (intent : Value) :
    Except Breakdown (Value × List Value) := do
  let source ← intentEntries intent
  let (entries, measures) ← resolveEntry (resolveItems fields) "measures" source source
  let (entries, dimensions) ← resolveEntry (resolveItems fields) "dimensions" entries source
  let (entries, filters) ← resolveEntry (resolveFilters fields) "filters" entries source
  return (.object entries, measures ++ dimensions ++ filters)

def checkErrors (answer : Value) : Except Breakdown (List Value) := do
  if (← part answer "valid").truthy then return []
  elements (orElse (← part answer "errors") (.list [.text "Intent failed validation."]))

end DatasetCatalog.Service
