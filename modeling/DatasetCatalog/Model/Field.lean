import DatasetCatalog.Model.Kinds

/-!
# Fields

A field is a column of a dataset, or an expression calculated from columns. Only a measure has an
aggregation, and only a dimension has a level.
-/

namespace DatasetCatalog

open Document

structure FieldFormat where
  type : String := "number"
  pattern : Option String := none
  decimalPlaces : Option Int := none
  thousandsSeparator : Option Bool := none
deriving DecidableEq, Repr

structure Field where
  name : String
  displayName : String
  type : DataType := .string
  fieldType : FieldType := .dimension
  aggregation : Option AggregationType := none
  level : Option DimensionLevel := none
  isNullable : Bool := true
  isPrimaryKey : Bool := false
  sampleValues : List Value := []
  expression : Option String := none
  format : Option FieldFormat := none
  description : Option String := none
  hidden : Bool := false

def FieldFormat.reader : EntriesReader FieldFormat :=
  FieldFormat.mk <$> withDefault "type" "number" text
    <*> withDefault "pattern" none (nullable text)
    <*> withDefault "decimal_places" none (nullable int)
    <*> withDefault "thousands_separator" none (nullable bool)

def FieldFormat.document (f : FieldFormat) : Value := .object
  [("type", .text f.type),
   ("pattern", .ofOption .text f.pattern),
   ("decimal_places", .ofOption .int f.decimalPlaces),
   ("thousands_separator", .ofOption .bool f.thousandsSeparator)]

/-- What is wrong with a field whose settings do not go with its role. -/
def Field.complaint? (f : Field) : Option String :=
  if f.aggregation.isSome && f.fieldType != .measure then
    some ("Field '" ++ f.name ++ "': aggregation_type is only valid for measures.")
  else if f.level.isSome && f.fieldType != .dimension then
    some ("Field '" ++ f.name ++ "': dimension_level is only valid for dimensions.")
  else none

def Field.Valid (f : Field) : Prop :=
  (f.aggregation.isSome → f.fieldType = .measure) ∧ (f.level.isSome → f.fieldType = .dimension)

theorem Field.complaint?_eq_none_iff {f : Field} : f.complaint? = none ↔ f.Valid := by
  unfold Field.complaint? Field.Valid
  cases f.aggregation <;> cases f.level <;> cases f.fieldType <;> simp

def Field.reader : EntriesReader Field :=
  (Field.mk <$> required "name" text
    <*> required "display_name" text
    <*> withDefault "type" .string named
    <*> withDefault "field_type" .dimension named
    <*> withDefault "aggregation_type" none (nullable named)
    <*> withDefault "dimension_level" none (nullable named)
    <*> withDefault "is_nullable" true bool
    <*> withDefault "is_primary_key" false bool
    <*> withDefault "sample_values" [] (listOf anyValue)
    <*> withDefault "expression" none (nullable text)
    <*> withDefault "format" none (nullable (model FieldFormat.reader))
    <*> withDefault "description" none (nullable text)
    <*> withDefault "hidden" false bool).where? Field.complaint?

def Field.document (f : Field) : Value := .object
  [("name", .text f.name),
   ("display_name", .text f.displayName),
   ("type", .named f.type),
   ("field_type", .named f.fieldType),
   ("aggregation_type", .ofOption .named f.aggregation),
   ("dimension_level", .ofOption .named f.level),
   ("is_nullable", .bool f.isNullable),
   ("is_primary_key", .bool f.isPrimaryKey),
   ("sample_values", .list f.sampleValues),
   ("expression", .ofOption .text f.expression),
   ("format", .ofOption FieldFormat.document f.format),
   ("description", .ofOption .text f.description),
   ("hidden", .bool f.hidden)]

/-- A non-empty expression of a calculated field. -/
def Field.calculation? (f : Field) : Option String :=
  if f.fieldType == .calculated then f.expression.filter (!·.isEmpty) else none

/-- The name of the field that stands in until a dataset has been analysed. -/
def placeholderName : String := "__pending__"

def Field.placeholder : Field :=
  { name := placeholderName, displayName := "Pending analysis", level := some .categorical
    hidden := true }

end DatasetCatalog
