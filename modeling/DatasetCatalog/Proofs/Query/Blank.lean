import DatasetCatalog.Proofs.Query.Fragments

/-!
# Statements without their values

Blanking a tree takes every parameter out of it and leaves all else. Both printed texts and the
names of the parameters of a statement are those of its blank, so none of them tells anything about
a value.
-/

namespace DatasetCatalog.Query

def Fragment.blank : Fragment → Fragment
  | .param _ => .param .null
  | f => f

def Predicate.blank : Predicate → Predicate
  | .comparison column sign _ => .comparison column sign .null
  | .inList column values => .inList column (values.map fun _ => .null)
  | .between column _ _ => .between column .null .null
  | p => p

def Source.blank : Source → Source
  | .view base computed conditions => .view base.blank computed (conditions.map Predicate.blank)
  | s => s

def Select.blank (s : Select) : Select :=
  { s with
    source := s.source.blank
    conditions := s.conditions.map Predicate.blank
    limit := .null }

def Statement.blank : Statement → Statement
  | .select s => .select s.blank
  | .free sql => .free sql

theorem joinFragments_map (separator : String) (parts : List (List Fragment)) :
    (joinFragments separator parts).map Fragment.blank =
      joinFragments separator (parts.map (List.map Fragment.blank)) := by
  induction parts with
  | nil => rfl
  | cons part rest ih =>
    cases rest with
    | nil => rfl
    | cons next rest =>
      simp only [joinFragments, List.map_append, List.map_cons, ih]
      rfl

theorem clauseFragments_map (keyword separator : String) (parts : List (List Fragment)) :
    (clauseFragments keyword separator parts).map (List.map Fragment.blank) =
      clauseFragments keyword separator (parts.map (List.map Fragment.blank)) := by
  unfold clauseFragments
  cases parts with
  | nil => rfl
  | cons part rest =>
    simp only [List.map_cons, List.isEmpty_cons, Bool.false_eq_true, if_false, List.map_nil,
      joinFragments_map]
    rfl

/-- Expressions have no parameters. -/
theorem Expression.fragments_blank (e : Expression) :
    e.fragments.map Fragment.blank = e.fragments := by
  induction e with
  | aliased e name ih => simp [Expression.fragments, Fragment.blank, ih]
  | aggregate function e ih => simp [Expression.fragments, Fragment.blank, ih]
  | grouped e ih => simp [Expression.fragments, Fragment.blank, ih]
  | _ => rfl

theorem Predicate.fragments_blank (p : Predicate) :
    p.blank.fragments = p.fragments.map Fragment.blank := by
  cases p with
  | inList column values =>
    simp only [Predicate.blank, Predicate.fragments, List.map_cons, List.map_append,
      joinFragments_map, List.map_map]
    rfl
  | _ => rfl

theorem conditions_blank (ps : List Predicate) :
    (ps.map Predicate.blank).map Predicate.fragments =
      (ps.map Predicate.fragments).map (List.map Fragment.blank) := by
  rw [List.map_map, List.map_map]
  exact List.map_congr_left fun p _ => p.fragments_blank

theorem columns_blank (es : List Expression) :
    (es.map Expression.fragments).map (List.map Fragment.blank) = es.map Expression.fragments := by
  rw [List.map_map]
  exact List.map_congr_left fun e _ => e.fragments_blank

theorem selectFragments_blank (columns : List Expression) (source : List Fragment)
    (conditions : List Predicate) (groupBy : List String) (orderBy : Option Ordering)
    (limit : Option Value) :
    selectFragments columns (source.map Fragment.blank) (conditions.map Predicate.blank) groupBy
        orderBy (limit.map fun _ => .null) =
      (selectFragments columns source conditions groupBy orderBy limit).map Fragment.blank := by
  have hgroup : (groupBy.map fun c => [Fragment.text c]).map (List.map Fragment.blank) =
      groupBy.map fun c => [.text c] := by
    rw [List.map_map]
    rfl
  have horder : (orderBy.toList.map Ordering.fragments).map (List.map Fragment.blank) =
      orderBy.toList.map Ordering.fragments := by
    rw [List.map_map]
    rfl
  have hlimit : (limit.toList.map fun v => [Fragment.param v]).map (List.map Fragment.blank) =
      (limit.map fun _ => Value.null).toList.map fun v => [.param v] := by
    cases limit <;> rfl
  simp only [selectFragments, joinFragments_map, List.map_append, List.map_cons, List.map_nil,
    clauseFragments_map, conditions_blank, columns_blank, hgroup, horder, hlimit]
  rfl

theorem Source.fragments_blank (s : Source) :
    s.blank.fragments = s.fragments.map Fragment.blank := by
  induction s with
  | table name schemaName => rfl
  | stored sql => rfl
  | view base computed conditions ih =>
    have hselect := selectFragments_blank (.star :: computed) base.fragments conditions [] none none
    simp only [Source.blank, Source.fragments, List.map_append, List.map_cons, ih, ← hselect]
    rfl

theorem Select.fragments_blank (s : Select) :
    s.blank.fragments = s.fragments.map Fragment.blank := by
  have hselect := selectFragments_blank s.columns s.source.fragments s.conditions s.groupBy
    s.orderBy (some s.limit)
  rw [← s.source.fragments_blank] at hselect
  exact hselect

theorem Statement.fragments_blank (s : Statement) :
    s.blank.fragments = s.fragments.map Fragment.blank := by
  cases s with
  | select s => exact s.fragments_blank
  | free sql => rfl

theorem printQmark_blank (fs : List Fragment) :
    printQmark (fs.map Fragment.blank) = printQmark fs := by
  induction fs with
  | nil => rfl
  | cons f rest ih => cases f <;> simp only [List.map_cons, Fragment.blank, printQmark, ih]

theorem printNamed_blank (next : Nat) (fs : List Fragment) :
    printNamed next (fs.map Fragment.blank) = printNamed next fs := by
  induction fs generalizing next with
  | nil => rfl
  | cons f rest ih => cases f <;> simp only [List.map_cons, Fragment.blank, printNamed, ih]

theorem length_paramsOf_blank (fs : List Fragment) :
    (paramsOf (fs.map Fragment.blank)).length = (paramsOf fs).length := by
  induction fs with
  | nil => rfl
  | cons f rest ih =>
    cases f <;> simp only [List.map_cons, Fragment.blank, paramsOf, List.length_cons, ih]

/-- The names of parameters depend on how many there are, and on nothing else. -/
theorem namedParams_keys (params : List Value) :
    (namedParams params).map (·.1) = (List.range params.length).map parameterName := by
  have hkeys : (namedParams params).map (·.1) = (params.zipIdx.map (·.2)).map parameterName := by
    rw [namedParams, List.map_map, List.map_map]
    rfl
  rw [hkeys, List.zipIdx_map_snd, List.range_eq_range']

namespace Statement
variable (s : Statement)

theorem sql_blank : s.blank.sql = s.sql := by
  rw [sql_eq, sql_eq, s.fragments_blank, printQmark_blank]

theorem namedSql_blank : s.blank.namedSql = s.namedSql := by
  rw [namedSql_eq, namedSql_eq, s.fragments_blank, printNamed_blank]

theorem keys_blank : s.blank.namedParams.map (·.1) = s.namedParams.map (·.1) := by
  rw [namedParams_eq, namedParams_eq, namedParams_keys, namedParams_keys, params_eq, params_eq,
    s.fragments_blank, length_paramsOf_blank]

end Statement

end DatasetCatalog.Query
