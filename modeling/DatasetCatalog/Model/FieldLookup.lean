import DatasetCatalog.Model.Dataset
import DatasetCatalog.Text.CaseMapping

/-!
# Finding fields by label

A label is a column name, a display name, or either in another case. What labels stand for is
written down field by field, and the first field to claim a label keeps it. Column names come
first, then display names, then names in folded case.
-/

namespace DatasetCatalog

open Text

/-- Write an entry, unless there is one of its key. -/
def setDefault {α : Type} (key : String) (a : α) (entries : List (String × α)) :
    List (String × α) :=
  if (entries.lookup key).isSome then entries else entries ++ [(key, a)]

structure FieldLookup where
  columns : List String := []
  byDisplayName : List (String × String) := []
  byFoldedName : List (String × String) := []

def FieldLookup.add (t : FieldLookup) (f : Field) : FieldLookup where
  columns := t.columns ++ [f.name]
  byDisplayName := setDefault f.displayName f.name t.byDisplayName
  byFoldedName := setDefault (caseFold f.displayName) f.name
    (setDefault (caseFold f.name) f.name t.byFoldedName)

def FieldLookup.ofFields (fields : List Field) : FieldLookup := fields.foldl add {}

def FieldLookup.resolve? (t : FieldLookup) (label : String) : Option String :=
  if t.columns.contains label then some label
  else (t.byDisplayName.lookup label).or (t.byFoldedName.lookup (caseFold label))

/-- The column names of the labels that are known, and the labels that are not. -/
def FieldLookup.resolveAll (t : FieldLookup) (labels : List String) : List String × List String :=
  labels.foldl (fun (resolved, unknown) label =>
    match t.resolve? label with
    | some name => (resolved ++ [name], unknown)
    | none => (resolved, unknown ++ [label])) ([], [])

def resolveLabel? (fields : List Field) (label : String) : Option String :=
  (FieldLookup.ofFields fields).resolve? label

def resolveLabels (fields : List Field) (labels : List String) : List String × List String :=
  (FieldLookup.ofFields fields).resolveAll labels

def Field.summary (f : Field) : Value := .object
  [("name", .text f.name),
   ("display_name", .text f.displayName),
   ("type", .named f.type),
   ("field_type", .named f.fieldType),
   ("aggregation_type", .ofOption .named f.aggregation),
   ("sample_values", .list (f.sampleValues.take 5))]

def Dataset.summary (d : Dataset) : Value := .object
  [("name", .text d.name),
   ("display_name", .text d.displayName),
   ("dimension_count", .ofNat d.dimensionCount),
   ("measure_count", .ofNat d.measureCount),
   ("fields", .list ((d.fields.filter (!·.hidden)).map Field.summary))]

end DatasetCatalog
