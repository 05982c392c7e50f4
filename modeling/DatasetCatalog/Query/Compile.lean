import DatasetCatalog.Model.Request
import DatasetCatalog.Query.Name
import DatasetCatalog.Query.Statement
import DatasetCatalog.Text.Blank

/-!
# Compiling queries

Requests become statements over a dataset's source. A view is compiled by way of its base, which a
resolver finds; a dataset that comes up twice along the way is a cycle.
-/

namespace DatasetCatalog.Query

open Text

def comparisonSigns : List (String × String) :=
  [("equals", "="), ("eq", "="), ("not_equals", "!="), ("ne", "!="), ("greater_than", ">"),
    ("gt", ">"), ("greater_than_or_equal", ">="), ("gte", ">="), ("less_than", "<"), ("lt", "<"),
    ("less_than_or_equal", "<="), ("lte", "<=")]

def supportedOperators : List String :=
  (comparisonSigns.map (·.1) ++ ["contains", "like", "in", "between", "is_null", "is_not_null"]).mergeSort
    fun a b => decide (a ≤ b)

/-- The condition of a filter; a choice from an empty list is no condition. -/
def compileFilter (f : Filter) : Except Error (Option Predicate) := do
  let column ← checkedName .filterField f.field
  match comparisonSigns.lookup f.operator with
  | some sign => return some (.comparison column sign f.value)
  | none =>
    match f.operator with
    | "contains" =>
      return some (.comparison column "LIKE" (.text ("%" ++ f.value.display ++ "%")))
    | "like" => return some (.comparison column "LIKE" f.value)
    | "in" =>
      match f.value with
      | .list [] => return none
      | .list values => return some (.inList column values)
      | _ => throw (.refused (.inNeedsList f.field))
    | "between" =>
      match f.value with
      | .list [low, high] => return some (.between column low high)
      | _ => throw (.refused (.betweenNeedsPair f.field))
    | "is_null" => return some (.nullCheck column false)
    | "is_not_null" => return some (.nullCheck column true)
    | operator => throw (.refused (.unsupportedOperator operator supportedOperators))

def compileFilters (filters : List Filter) : Except Error (List Predicate) :=
  (filters.mapM compileFilter).map List.reduceOption

def tableSource (c : TableConfig) : Except Error Source := do
  if !isTableName c.tableName then throw (.refused (.invalidName .table c.tableName))
  match c.schemaName.filter (!·.isEmpty) with
  | some s => return .table c.tableName (some (← checkedName .schema s))
  | none => return .table c.tableName c.schemaName

/-- Stored SQL without blanks at its ends and without semicolons behind it. -/
def storedSql (sql : String) : String :=
  String.ofList (dropEndWhile (· == ';') (stripBlanks sql.toList))

def computedExpression (f : ComputedField) : Except Error Expression := do
  return .aliased (.grouped (.trusted f.expression)) (← checkedName .computedField f.name)

def viewSource (c : ViewConfig) (base : Source) : Except Error Source := do
  let computed ← c.computedFields.mapM computedExpression
  return .view base computed (← compileFilters c.filters)

/-- Finds the dataset of an id; it may keep state. -/
abbrev Resolver (m : Type → Type) := String → ExceptT Error m Dataset

/-- The source of a dataset, following views through the resolver. `seen` are the datasets on the
way so far; the fuel bounds the length of the way. -/
def compileSource {m : Type → Type} [Monad m] (resolve : Option (Resolver m)) :
    Nat → List String → Dataset → ExceptT Error m Source
  | 0, _, d => throw (.refused (.viewCycle d.id))
  | fuel + 1, seen, d => do
    if seen.contains d.id then throw (.refused (.viewCycle d.id))
    match d.type, d.tableConfig, d.sqlConfig, d.viewConfig with
    | .table, some c, _, _ => liftExcept (tableSource c)
    | .sql, _, some c, _ => return .stored (storedSql c.sql)
    | .view, _, _, some c =>
      match resolve with
      | none => throw (.refused .noResolver)
      | some r =>
        let base ← r c.baseDatasetId
        let source ← compileSource resolve fuel (d.id :: seen) base
        liftExcept (viewSource c source)
    | type, _, _, _ => throw (.refused (.unsupportedType type))
where
  liftExcept {α : Type} (e : Except Error α) : ExceptT Error m α := ExceptT.mk (pure e)

/-- The measure under its own name, aggregated as its field says or summed. -/
def measureExpression (d : Dataset) (name : String) : Except Error Expression := do
  let column ← checkedName .measure name
  let f := d.field? name
  let function := (f.bind (·.aggregation)).getD .sum
  let argument := match f.bind Field.calculation? with
    | some sql => .grouped (.trusted sql)
    | none => .column column
  return .aliased (.aggregate function argument) column

def dimensionExpression (d : Dataset) (name : String) : Except Error Expression := do
  let column ← checkedName .dimension name
  match (d.field? name).bind Field.calculation? with
  | some sql => return .aliased (.grouped (.trusted sql)) column
  | none => return .column column

def defaultLimit : Int := 100

/-- By the first measure, largest first, or else by the first dimension. -/
def orderingOf (r : QueryRequest) : Option Ordering :=
  match r.measures, r.dimensions with
  | m :: _, _ => some ⟨m, true⟩
  | [], d :: _ => some ⟨d, false⟩
  | [], [] => none

def selectedColumns (r : QueryRequest) (d : Dataset) : Except Error (List Expression) := do
  let dimensions ← r.dimensions.mapM (dimensionExpression d)
  let measures ← r.measures.mapM (measureExpression d)
  return if (dimensions ++ measures).isEmpty then [.star] else dimensions ++ measures

variable {m : Type → Type} [Monad m]

def compileQuery (resolve : Option (Resolver m)) (fuel : Nat) (r : QueryRequest) (d : Dataset) :
    ExceptT Error m Statement := do
  let columns ← ExceptT.mk (pure (selectedColumns r d))
  let source ← compileSource resolve fuel [] d
  let conditions ← ExceptT.mk (pure (compileFilters r.filters))
  return .select
    { columns, source, conditions
      groupBy := r.dimensions
      orderBy := orderingOf r
      limit := .int ((r.limit.filter (· != 0)).getD defaultLimit) }

/-- The first rows of a dataset. -/
def compilePreview (resolve : Option (Resolver m)) (fuel : Nat) (d : Dataset) (limit : Int) :
    ExceptT Error m Statement := do
  let source ← compileSource resolve fuel [] d
  return .select { columns := [.star], source, limit := .int limit }

end DatasetCatalog.Query
