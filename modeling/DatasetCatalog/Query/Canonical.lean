import DatasetCatalog.Digest.Sha256
import DatasetCatalog.Error
import DatasetCatalog.Json.Canonical
import DatasetCatalog.Model.Request
import DatasetCatalog.Value.JsonForm

/-!
# Canonical requests

Two requests that differ only in the order of measures, dimensions and filters have one canonical
form, and its digest names the request in the cache.
-/

namespace DatasetCatalog.Query

open Text

/-- The digest of a text, or of the canonical JSON of any other value. -/
def digest : Value → Except Breakdown String
  | .text s => .ok (Digest.sha256Text s)
  | v => (canonicalJson v).map Digest.sha256Text

def sortTexts (texts : List String) : List String := texts.mergeSort fun a b => decide (a ≤ b)

/-- The JSON form of a document, without which it has no digest. -/
def formOf (frame : Nat) (document : Value) : Except Breakdown Value :=
  (document.jsonForm frame).mapError fun
    | .octets => .undecodable
    | .depth => .badValue

/-- The lists and objects around the value of a filter. -/
def filterFrame : Nat := 1

/-- The lists and objects around the values of a request's filters. -/
def requestFrame : Nat := 3

def filterText (f : Filter) : Except Breakdown String := do
  canonicalJson (← formOf filterFrame f.document)

def sortFilters (filters : List Filter) : Except Breakdown (List Filter) := do
  let keyed ← filters.mapM fun f => do return (← filterText f, f)
  return (keyed.mergeSort fun a b => decide (a.1 ≤ b.1)).map (·.2)

/-- The canonical form of a request, whose limit has to be in order. -/
def canonicalRequest (r : QueryRequest) : Except Error QueryRequest := do
  let filters ← (sortFilters r.filters).mapError .broken
  if r.limit.any (· < 1) then throw (.invalid [⟨[.key "limit"], .belowMinimum⟩])
  return { r with
    measures := sortTexts r.measures
    dimensions := sortTexts r.dimensions
    filters }

/-- The document of the canonical form of a request. -/
def canonicalDocument (r : QueryRequest) : Except Error Value := do
  (formOf requestFrame (← canonicalRequest r).document).mapError .broken

def requestHash (r : QueryRequest) : Except Error String := do
  (digest (← canonicalDocument r)).mapError .broken

end DatasetCatalog.Query
