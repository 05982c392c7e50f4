import DatasetCatalog.Error
import DatasetCatalog.Model.Dataset
import DatasetCatalog.Text.CaseMapping
import DatasetCatalog.Text.Search

/-!
# Searching datasets

A query constrains datasets by what is set in it. Results are sorted by one field, null first when
ascending and last when descending, with ties in the order of the store both ways, and a page is
cut out of them.
-/

namespace DatasetCatalog.Store

open Text

structure DatasetQuery where
  accessibleTo : Option String := none
  owner : Option String := none
  name : Option String := none
  keyword : Option String := none
  category : Option String := none
  tags : List String := []
  type : Option DatasetType := none
  status : Option DatasetStatus := none

/-- Whether an optional constraint holds of a value. -/
def constrains {α : Type} [BEq α] (constraint : Option α) (a : α) : Bool :=
  constraint.all (· == a)

def accessible (d : Dataset) (userId : String) : Bool :=
  d.userId == userId || d.permissions.any (·.userId == userId)

def searchText (d : Dataset) : String :=
  " ".intercalate ([d.name, d.displayName, d.description.getD ""].filter (!·.isEmpty))

def hasKeyword (d : Dataset) (keyword : String) : Bool :=
  contains (lower (searchText d)) (lower keyword)

def DatasetQuery.accepts (q : DatasetQuery) (d : Dataset) : Bool :=
  q.accessibleTo.all (accessible d) &&
  constrains q.owner d.userId &&
  constrains q.name d.name &&
  constrains q.category d.category &&
  constrains q.type d.type &&
  constrains q.status d.status &&
  (q.tags.isEmpty || q.tags.any d.tags.contains) &&
  q.keyword.all (fun k => k.isEmpty || hasKeyword d k)

inductive SortKey where
  | absent
  | text (s : String)
  | number (n : Int)
  | moment (m : Time.Moment)

def sortKey (field : SortField) (d : Dataset) : SortKey :=
  match field with
  | .name => .text d.name
  | .displayName => .text d.displayName
  | .createdAt => .moment d.createdAt
  | .updatedAt => .moment d.updatedAt
  | .qualityScore => (d.qualityScore.map .number).getD .absent

/-- Nothing comes before something; keys of one field are otherwise of one kind. -/
def SortKey.le : SortKey → SortKey → Bool
  | .absent, _ => true
  | _, .absent => false
  | .text a, .text b => decide (a ≤ b)
  | .number a, .number b => a ≤ b
  | .moment a, .moment b => a.instant ≤ b.instant
  | _, _ => true

def SortKey.hasOffset? : SortKey → Option Bool
  | .moment m => some m.offset.isSome
  | _ => none

/-- Moments with an offset and moments without have no order. -/
def comparable (keys : List SortKey) : Bool :=
  let offsets := keys.filterMap SortKey.hasOffset?
  !(offsets.contains true && offsets.contains false)

structure Sorting where
  field : String := Named.name SortField.updatedAt
  descending : Bool := true

def sortBy (field : SortField) (descending : Bool) (docs : List Dataset) : List Dataset :=
  docs.mergeSort fun a b =>
    if descending then (sortKey field b).le (sortKey field a)
    else (sortKey field a).le (sortKey field b)

def sortDocs (s : Sorting) (docs : List Dataset) : Except Error (List Dataset) :=
  match (ofName? s.field : Option SortField) with
  | none => .error (.refused (.unsortable s.field))
  | some field =>
    if comparable (docs.map (sortKey field)) then .ok (sortBy field s.descending docs)
    else .error (.broken .badType)

def position (length : Nat) (i : Int) : Nat :=
  if i < 0 then (i + length).toNat else min i.toNat length

def slice {α : Type} (start : Int) (stop : Option Int) (as : List α) : List α :=
  let first := position as.length start
  let last := (stop.map (position as.length)).getD as.length
  (as.take last).drop first

def page (s : Sorting) (skip : Int) (limit : Option Int) (docs : List Dataset) :
    Except Error (List Dataset) :=
  (sortDocs s docs).map (slice skip (limit.map (skip + ·)))

inductive FacetField where
  | category | tags | type
deriving DecidableEq, Repr

instance : Named FacetField where
  all := [.category, .tags, .type]
  name
    | .category => "category"
    | .tags => "tags"
    | .type => "type"
  mem_all a := by cases a <;> simp
  name_injective a b := by cases a <;> cases b <;> simp

def facetValues (field : FacetField) (d : Dataset) : List String :=
  match field with
  | .category => [d.category]
  | .tags => d.tags
  | .type => [Named.name d.type]

def facet (field : FacetField) (docs : List Dataset) : List String :=
  ((docs.flatMap (facetValues field)).eraseDups).mergeSort fun a b => decide (a ≤ b)

def facetByName (name : String) (docs : List Dataset) : Except Error (List String) :=
  match (ofName? name : Option FacetField) with
  | none => .error (.refused (.noFacet name))
  | some field => .ok (facet field docs)

end DatasetCatalog.Store
