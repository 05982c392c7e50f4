import DatasetCatalog.Model.Dataset
import DatasetCatalog.Text.WordCharacter

/-!
# Statements

A statement is a tree of text of this library, trusted SQL of dataset definitions, and parameters.
Rendering it writes a placeholder for every parameter and binds the value; a value is never
written into a text. The two styles differ in their placeholders; where these are named, a colon in
trusted SQL that could be taken for the mark of a name is escaped.
-/

namespace DatasetCatalog.Query

open Text Number

inductive Expression where
  | column (name : String)
  | star
  | aliased (e : Expression) (name : String)
  | aggregate (function : AggregationType) (argument : Expression)
  | grouped (e : Expression)
  | trusted (sql : String)
deriving DecidableEq, Repr

inductive Predicate where
  | comparison (column sign : String) (value : Value)
  | inList (column : String) (values : List Value)
  | between (column : String) (low high : Value)
  | nullCheck (column : String) (negated : Bool)

/-- What a statement reads: a table, stored SQL, or a view of another source. -/
inductive Source where
  | table (name : String) (schemaName : Option String)
  | stored (sql : String)
  | view (base : Source) (computed : List Expression) (conditions : List Predicate)

structure Ordering where
  column : String
  descending : Bool
deriving DecidableEq, Repr

structure Select where
  columns : List Expression
  source : Source
  conditions : List Predicate := []
  groupBy : List String := []
  orderBy : Option Ordering := none
  limit : Value

inductive Statement where
  | select (s : Select)
  | free (sql : String)

/-- Whether a colon behind `before` and in front of `after` could mark a name. -/
def couldMarkName (before after : Option Char) : Bool :=
  after.any isWord && !before.any fun c => c == ':' || c == '\\' || isWord c

/-- Put a backslash before every colon that could mark a name. -/
def escapeMarks (before : Option Char) : List Char → List Char
  | [] => []
  | c :: rest =>
    (if c == ':' && couldMarkName before rest.head? then ['\\', ':'] else [c]) ++
      escapeMarks (some c) rest

def parameterName (i : Nat) : String := "p" ++ intText i

/-- How placeholders are written: a question mark each, or a colon and a name. -/
inductive Style where
  | qmark
  | named
deriving DecidableEq, Repr

def Style.placeholder : Style → Nat → String
  | .qmark, _ => "?"
  | .named, i => ":" ++ parameterName i

/-- A rendering binds values one after the other. -/
abbrev Rendering := StateM (List Value)

def Rendering.text (r : Rendering String) : String := (r []).1

def Rendering.bound (r : Rendering String) : List Value := (r []).2

/-- Bind a value; what is written is its placeholder. -/
def Style.bind (style : Style) (v : Value) : Rendering String := do
  let bound ← get
  set (bound ++ [v])
  return style.placeholder bound.length

def Style.trusted : Style → String → String
  | .qmark, sql => sql
  | .named, sql => String.ofList (escapeMarks none sql.toList)

def Expression.render (style : Style) : Expression → String
  | .column name => name
  | .star => "*"
  | .aliased e name => e.render style ++ " AS " ++ name
  | .aggregate function argument =>
    Named.name function ++ "(" ++ argument.render style ++ ")"
  | .grouped e => "(" ++ e.render style ++ ")"
  | .trusted sql => style.trusted sql

def Predicate.render (style : Style) : Predicate → Rendering String
  | .comparison column sign value => do
    let value ← style.bind value
    return column ++ " " ++ sign ++ " " ++ value
  | .inList column values => do
    let placeholders ← values.mapM style.bind
    return column ++ " IN (" ++ ", ".intercalate placeholders ++ ")"
  | .between column low high => do
    let low ← style.bind low
    let high ← style.bind high
    return column ++ " BETWEEN " ++ low ++ " AND " ++ high
  | .nullCheck column negated =>
    return column ++ " IS " ++ (if negated then "NOT " else "") ++ "NULL"

def Ordering.render (o : Ordering) : String :=
  o.column ++ (if o.descending then " DESC" else " ASC")

/-- A clause of a SELECT, left out where it says nothing. -/
def clause (keyword separator : String) (texts : List String) : List String :=
  if texts.isEmpty then [] else [keyword ++ separator.intercalate texts]

/-- A SELECT over a source that is rendered. -/
def renderSelect (style : Style) (columns : List Expression) (source : String)
    (conditions : List Predicate) (groupBy : List String) (orderBy : Option Ordering)
    (limit : Option Value) : Rendering String := do
  let conditions ← conditions.mapM (Predicate.render style)
  let limit ← limit.toList.mapM style.bind
  return " ".intercalate (
    ["SELECT " ++ ", ".intercalate (columns.map (Expression.render style)), "FROM " ++ source] ++
    clause "WHERE " " AND " conditions ++ clause "GROUP BY " ", " groupBy ++
    clause "ORDER BY " ", " (orderBy.toList.map Ordering.render) ++
    clause "LIMIT " ", " limit)

def Source.render (style : Style) : Source → Rendering String
  | .table name schemaName =>
    return match schemaName.filter (!·.isEmpty) with
      | some s => s ++ "." ++ name
      | none => name
  | .stored sql => return "(" ++ style.trusted sql ++ ") AS subquery"
  | .view base computed conditions => do
    let source ← base.render style
    let select ← renderSelect style (.star :: computed) source conditions [] none none
    return "(" ++ select ++ ") AS view_query"

def Select.render (style : Style) (s : Select) : Rendering String := do
  let source ← s.source.render style
  renderSelect style s.columns source s.conditions s.groupBy s.orderBy (some s.limit)

def Statement.render (style : Style) : Statement → Rendering String
  | .select s => s.render style
  | .free sql => return style.trusted sql

def namedParams (params : List Value) : List (String × Value) :=
  params.zipIdx.map fun (v, i) => (parameterName i, v)

/-- The text with a question mark for each parameter. -/
def Statement.sql (s : Statement) : String := (s.render .qmark).text

def Statement.params (s : Statement) : List Value := (s.render .qmark).bound

/-- The text with `:p0`, `:p1`, … for the parameters. -/
def Statement.namedSql (s : Statement) : String := (s.render .named).text

def Statement.namedParams (s : Statement) : List (String × Value) :=
  Query.namedParams (s.render .named).bound

def Predicate.sql (p : Predicate) : String := (p.render .qmark).text

def Predicate.namedSql (p : Predicate) : String := (p.render .named).text

def Predicate.params (p : Predicate) : List Value := (p.render .qmark).bound

end DatasetCatalog.Query
