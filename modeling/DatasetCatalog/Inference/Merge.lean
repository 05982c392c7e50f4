import DatasetCatalog.Inference.FieldInference

/-!
# Merging inferred fields

Re-analysis keeps what was set on a field and takes type, nullability and samples from the data.
Calculated fields survive although no column has their name.
-/

namespace DatasetCatalog.Inference

/-- The settings of `existing` with the findings of `inferred`, made to fit the role that wins. -/
def mergeField (existing inferred : Field) : Field :=
  { name := existing.name
    displayName := existing.displayName
    description := existing.description.or inferred.description
    fieldType := existing.fieldType
    aggregation :=
      if existing.fieldType == .measure then
        some (((existing.aggregation.or inferred.aggregation)).getD (aggregation existing.name))
      else none
    level :=
      if existing.fieldType == .dimension then
        some ((existing.level.or inferred.level).getD (level existing.name inferred.type))
      else none
    expression := existing.expression.or inferred.expression
    format := existing.format.or inferred.format
    hidden := existing.hidden
    isPrimaryKey := existing.isPrimaryKey
    type := inferred.type
    isNullable := inferred.isNullable
    sampleValues := inferred.sampleValues }

/-- Whether an existing field outlives the columns it was made for. -/
def survives (inferred : List Field) (f : Field) : Bool :=
  !inferred.any (·.name == f.name) && f.name != placeholderName && f.calculation?.isSome

def lastNamed? (fields : List Field) (name : String) : Option Field :=
  fields.reverse.find? (·.name == name)

def mergeFields (existing inferred : List Field) : List Field :=
  inferred.map (fun fresh =>
    match lastNamed? existing fresh.name with
    | some current => mergeField current fresh
    | none => fresh) ++ existing.filter (survives inferred)

end DatasetCatalog.Inference
