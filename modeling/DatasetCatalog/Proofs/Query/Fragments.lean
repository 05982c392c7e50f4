import DatasetCatalog.Query.Statement

/-!
# Fragments of statements

A statement is a sequence of fragments: text of the library, trusted SQL of dataset definitions,
and parameters. Rendering, which numbers parameters as it binds them and puts texts together in its
own order, prints that sequence: the placeholders stand in the order in which the values are bound.
-/

namespace DatasetCatalog.Query

inductive Fragment where
  | text (s : String)
  | trusted (sql : String)
  | param (v : Value)

def joinFragments (separator : String) : List (List Fragment) → List Fragment
  | [] => []
  | [part] => part
  | part :: rest => part ++ .text separator :: joinFragments separator rest

theorem joinFragments_cons_cons (separator : String) (first second : List Fragment)
    (rest : List (List Fragment)) :
    joinFragments separator (first :: second :: rest) =
      first ++ .text separator :: joinFragments separator (second :: rest) := rfl

def clauseFragments (keyword separator : String) (parts : List (List Fragment)) :
    List (List Fragment) :=
  if parts.isEmpty then [] else [.text keyword :: joinFragments separator parts]

def Expression.fragments : Expression → List Fragment
  | .column name => [.text name]
  | .star => [.text "*"]
  | .aliased e name => e.fragments ++ [.text (" AS " ++ name)]
  | .aggregate function argument =>
    .text (Named.name function ++ "(") :: argument.fragments ++ [.text ")"]
  | .grouped e => .text "(" :: e.fragments ++ [.text ")"]
  | .trusted sql => [.trusted sql]

def Predicate.fragments : Predicate → List Fragment
  | .comparison column sign value => [.text (column ++ " " ++ sign ++ " "), .param value]
  | .inList column values =>
    .text (column ++ " IN (") :: joinFragments ", " (values.map fun v => [.param v]) ++ [.text ")"]
  | .between column low high =>
    [.text (column ++ " BETWEEN "), .param low, .text " AND ", .param high]
  | .nullCheck column negated =>
    [.text (column ++ " IS " ++ (if negated then "NOT " else "") ++ "NULL")]

def Ordering.fragments (o : Ordering) : List Fragment :=
  [.text (o.column ++ (if o.descending then " DESC" else " ASC"))]

/-- The fragments of a SELECT over the fragments of its source. -/
def selectFragments (columns : List Expression) (source : List Fragment)
    (conditions : List Predicate) (groupBy : List String) (orderBy : Option Ordering)
    (limit : Option Value) : List Fragment :=
  joinFragments " " (
    [.text "SELECT " :: joinFragments ", " (columns.map Expression.fragments),
      .text "FROM " :: source] ++
    clauseFragments "WHERE " " AND " (conditions.map Predicate.fragments) ++
    clauseFragments "GROUP BY " ", " (groupBy.map fun c => [.text c]) ++
    clauseFragments "ORDER BY " ", " (orderBy.toList.map Ordering.fragments) ++
    clauseFragments "LIMIT " ", " (limit.toList.map fun v => [.param v]))

def Source.fragments : Source → List Fragment
  | .table name schemaName =>
    [.text (match schemaName.filter (!·.isEmpty) with
      | some s => s ++ "." ++ name
      | none => name)]
  | .stored sql => [.text "(", .trusted sql, .text ") AS subquery"]
  | .view base computed conditions =>
    .text "(" :: selectFragments (.star :: computed) base.fragments conditions [] none none ++
      [.text ") AS view_query"]

def Select.fragments (s : Select) : List Fragment :=
  selectFragments s.columns s.source.fragments s.conditions s.groupBy s.orderBy (some s.limit)

def Statement.fragments : Statement → List Fragment
  | .select s => s.fragments
  | .free sql => [.trusted sql]

def printQmark : List Fragment → List Char
  | [] => []
  | .text s :: rest => s.toList ++ printQmark rest
  | .trusted sql :: rest => sql.toList ++ printQmark rest
  | .param _ :: rest => '?' :: printQmark rest

/-- Parameters are numbered from `next` on. -/
def printNamed (next : Nat) : List Fragment → List Char
  | [] => []
  | .text s :: rest => s.toList ++ printNamed next rest
  | .trusted sql :: rest => escapeMarks none sql.toList ++ printNamed next rest
  | .param _ :: rest => ':' :: (parameterName next).toList ++ printNamed (next + 1) rest

def paramsOf : List Fragment → List Value
  | [] => []
  | .param v :: rest => v :: paramsOf rest
  | _ :: rest => paramsOf rest

theorem paramsOf_append (fs gs : List Fragment) : paramsOf (fs ++ gs) = paramsOf fs ++ paramsOf gs := by
  induction fs with
  | nil => rfl
  | cons f rest ih => cases f <;> simp [paramsOf, ih]

theorem paramsOf_flatten_map {α : Type} {fragments : α → List Fragment}
    (h : ∀ a, paramsOf (fragments a) = []) (l : List α) :
    paramsOf (l.map fragments).flatten = [] := by
  induction l with
  | nil => rfl
  | cons a rest ih => simp [paramsOf_append, h, ih]

theorem paramsOf_values (values : List Value) :
    paramsOf (values.map fun v => [Fragment.param v]).flatten = values := by
  induction values with
  | nil => rfl
  | cons v rest ih => simp [paramsOf, ih]

/-- A separator has no parameters. -/
theorem paramsOf_joinFragments (separator : String) (parts : List (List Fragment)) :
    paramsOf (joinFragments separator parts) = paramsOf parts.flatten := by
  induction parts with
  | nil => rfl
  | cons part rest ih =>
    cases rest with
    | nil => simp [joinFragments]
    | cons next rest => simp [joinFragments_cons_cons, paramsOf_append, paramsOf, ih]

theorem paramsOf_clauseFragments (keyword separator : String) (parts : List (List Fragment)) :
    paramsOf (clauseFragments keyword separator parts).flatten = paramsOf parts.flatten := by
  cases parts with
  | nil => rfl
  | cons part rest => simp [clauseFragments, paramsOf, paramsOf_joinFragments]

namespace Style

/-- The text of fragments, with parameters numbered from `next` on where they are named. -/
def print (style : Style) (next : Nat) : List Fragment → List Char :=
  match style with
  | .qmark => printQmark
  | .named => printNamed next

/-- The texts of parts, with parameters numbered from one part to the next. -/
def printEach (style : Style) (next : Nat) : List (List Fragment) → List String
  | [] => []
  | part :: rest =>
    String.ofList (style.print next part) ::
      printEach style (next + (paramsOf part).length) rest

variable {style : Style} {next : Nat} {fs : List Fragment}

@[simp] theorem print_nil : style.print next [] = [] := by
  cases style <;> rfl

@[simp] theorem print_text (s : String) :
    style.print next (.text s :: fs) = s.toList ++ style.print next fs := by
  cases style <;> rfl

@[simp] theorem print_trusted (sql : String) :
    style.print next (.trusted sql :: fs) = (style.trusted sql).toList ++ style.print next fs := by
  cases style with
  | qmark => rfl
  | named => simp [print, printNamed, trusted]

@[simp] theorem print_param (v : Value) :
    style.print next (.param v :: fs) =
      (style.placeholder next).toList ++ style.print (next + 1) fs := by
  cases style with
  | qmark => simp [print, printQmark, placeholder]
  | named => simp [print, printNamed, placeholder]

theorem print_append (gs : List Fragment) :
    style.print next (fs ++ gs) =
      style.print next fs ++ style.print (next + (paramsOf fs).length) gs := by
  induction fs generalizing next with
  | nil => simp [paramsOf]
  | cons f rest ih =>
    cases f with
    | text s => simp [ih, paramsOf]
    | trusted sql => simp [ih, paramsOf]
    | param v => simp [ih, paramsOf, Nat.add_assoc, Nat.add_comm 1]

theorem toList_intercalate_printEach (separator : String) (parts : List (List Fragment)) :
    (separator.intercalate (style.printEach next parts)).toList =
      style.print next (joinFragments separator parts) := by
  induction parts generalizing next with
  | nil => simp [printEach, joinFragments]
  | cons part rest ih =>
    cases rest with
    | nil => simp [printEach, joinFragments]
    | cons second rest =>
      have hrest := @ih (next + (paramsOf part).length)
      rw [printEach] at hrest
      rw [printEach, printEach, String.intercalate_cons_cons, joinFragments_cons_cons,
        print_append, print_text, ← hrest]
      simp

theorem ofList_print_joined (keyword separator : String) (parts : List (List Fragment)) :
    String.ofList (style.print next (.text keyword :: joinFragments separator parts)) =
      keyword ++ separator.intercalate (style.printEach next parts) := by
  rw [← String.toList_inj, String.toList_ofList, print_text, String.toList_append,
    toList_intercalate_printEach]

theorem printEach_append (ps qs : List (List Fragment)) :
    style.printEach next (ps ++ qs) =
      style.printEach next ps ++ style.printEach (next + (paramsOf ps.flatten).length) qs := by
  induction ps generalizing next with
  | nil => simp [printEach, paramsOf]
  | cons part rest ih => simp [printEach, paramsOf_append, ih, Nat.add_assoc]

theorem printEach_clauseFragments (keyword separator : String) (parts : List (List Fragment)) :
    style.printEach next (clauseFragments keyword separator parts) =
      clause keyword separator (style.printEach next parts) := by
  cases parts with
  | nil => rfl
  | cons part rest =>
    have hjoined := @ofList_print_joined style next keyword separator (part :: rest)
    rw [printEach] at hjoined
    simp only [printEach, clauseFragments, clause, List.isEmpty_cons, Bool.false_eq_true, if_false,
      hjoined]

/-- Parts without parameters are printed alike wherever they stand. -/
theorem printEach_map {α : Type} {render : α → String} {fragments : α → List Fragment}
    (hprint : ∀ a next, style.print next (fragments a) = (render a).toList)
    (hparams : ∀ a, paramsOf (fragments a) = []) (l : List α) :
    style.printEach next (l.map fragments) = l.map render := by
  induction l with
  | nil => rfl
  | cons a rest ih => simp [printEach, hprint, hparams, ih]

end Style

/-- What a rendering of fragments does: it writes their text, with parameters numbered from the
values that are bound already, and binds theirs. -/
def Renders (style : Style) (r : Rendering String) (fs : List Fragment) : Prop :=
  ∀ bound, r bound = (String.ofList (style.print bound.length fs), bound ++ paramsOf fs)

/-- The same for one part after the other. -/
def RendersEach (style : Style) (r : Rendering (List String)) (parts : List (List Fragment)) :
    Prop :=
  ∀ bound, r bound = (style.printEach bound.length parts, bound ++ paramsOf parts.flatten)

variable {style : Style}

/-- Two results of a rendering agree when their texts and the values bound do. -/
theorem rendered_eq {s t : String} {bound bound' : List Value} (ht : s.toList = t.toList)
    (hb : bound = bound') : (s, bound) = (t, bound') := by
  rw [String.toList_inj.mp ht, hb]

theorem Style.bind_renders (style : Style) (v : Value) : Renders style (style.bind v) [.param v] :=
  fun _ => rendered_eq (by simp) rfl

theorem renders_pure {s : String} {fs : List Fragment}
    (hprint : ∀ next, style.print next fs = s.toList) (hparams : paramsOf fs = []) :
    Renders style (pure s) fs := by
  intro bound
  exact rendered_eq (by simp [hprint]) (by simp [hparams])

theorem rendersEach_mapM {α : Type} {render : α → Rendering String} {fragments : α → List Fragment}
    (h : ∀ a, Renders style (render a) (fragments a)) (l : List α) :
    RendersEach style (l.mapM render) (l.map fragments) := by
  induction l with
  | nil =>
    intro bound
    exact congrArg (Prod.mk []) (List.append_nil bound).symm
  | cons a rest ih =>
    intro bound
    have hrest := ih (bound ++ paramsOf (fragments a))
    rw [List.mapM_cons]
    simp only [bind, StateT.bind, h a bound, hrest]
    refine Prod.ext ?_ ?_
    · change _ :: style.printEach (bound ++ paramsOf (fragments a)).length _ = _
      rw [List.length_append]
      rfl
    · change (bound ++ paramsOf (fragments a)) ++ paramsOf (rest.map fragments).flatten = _
      rw [List.map_cons, List.flatten_cons, paramsOf_append, List.append_assoc]

theorem Expression.paramsOf_fragments (e : Expression) : paramsOf e.fragments = [] := by
  induction e with
  | aliased e name ih => simp [fragments, paramsOf_append, paramsOf, ih]
  | aggregate function e ih => simp [fragments, paramsOf_append, paramsOf, ih]
  | grouped e ih => simp [fragments, paramsOf_append, paramsOf, ih]
  | _ => rfl

theorem Expression.print_fragments (e : Expression) (next : Nat) :
    style.print next e.fragments = (e.render style).toList := by
  induction e with
  | aliased e name ih => simp [fragments, render, Style.print_append, ih]
  | aggregate function e ih => simp [fragments, render, Style.print_append, ih]
  | grouped e ih => simp [fragments, render, Style.print_append, ih]
  | _ => simp [fragments, render]

theorem Predicate.renders (style : Style) (p : Predicate) : Renders style (p.render style) p.fragments := by
  intro bound
  cases p with
  | comparison column sign value =>
    simp only [render, bind, StateT.bind, style.bind_renders value bound]
    exact rendered_eq (by simp [fragments]) (by simp [fragments, paramsOf])
  | inList column values =>
    have hvalues := rendersEach_mapM style.bind_renders values bound
    simp only [render, bind, StateT.bind, hvalues]
    refine rendered_eq ?_ ?_
    · simp [fragments, Style.print_append, ← Style.toList_intercalate_printEach]
    · simp [fragments, paramsOf, paramsOf_append, paramsOf_joinFragments]
  | between column low high =>
    have hhigh := style.bind_renders high (bound ++ paramsOf [.param low])
    simp only [render, bind, StateT.bind, style.bind_renders low bound, hhigh]
    exact rendered_eq (by simp [fragments, paramsOf]) (by simp [fragments, paramsOf])
  | nullCheck column negated =>
    exact rendered_eq (by simp [fragments]) (by simp [fragments, paramsOf])

section Select
variable {columns : List Expression} {source : List Fragment} {conditions : List Predicate}
  {groupBy : List String} {orderBy : Option Ordering} {limit : Option Value}

theorem paramsOf_columns (columns : List Expression) :
    paramsOf (columns.map Expression.fragments).flatten = [] :=
  paramsOf_flatten_map Expression.paramsOf_fragments columns

theorem paramsOf_groupBy (groupBy : List String) :
    paramsOf (groupBy.map fun c => [Fragment.text c]).flatten = [] :=
  paramsOf_flatten_map (fun _ => rfl) groupBy

theorem paramsOf_orderBy (orderBy : List Ordering) :
    paramsOf (orderBy.map Ordering.fragments).flatten = [] :=
  paramsOf_flatten_map (fun _ => rfl) orderBy

/-- Only the source, the conditions and the limit have parameters. -/
theorem paramsOf_selectFragments :
    paramsOf (selectFragments columns source conditions groupBy orderBy limit) =
      paramsOf source ++ paramsOf (conditions.map Predicate.fragments).flatten ++ limit.toList := by
  simp only [selectFragments, paramsOf_joinFragments, List.flatten_append, List.flatten_cons,
    List.flatten_nil, paramsOf_append, paramsOf, paramsOf_clauseFragments, paramsOf_columns,
    paramsOf_groupBy, paramsOf_orderBy, paramsOf_values, List.append_nil, List.nil_append]

theorem Style.printEach_columns (next : Nat) :
    style.printEach next (columns.map Expression.fragments) =
      columns.map (Expression.render style) :=
  printEach_map (fun e next => e.print_fragments next) Expression.paramsOf_fragments columns

theorem Style.printEach_groupBy (next : Nat) :
    style.printEach next (groupBy.map fun c => [.text c]) = groupBy := by
  have hprint (c : String) (next : Nat) : style.print next [.text c] = (id c).toList := by simp
  simpa only [List.map_id] using printEach_map hprint (fun _ => rfl) groupBy

theorem Style.printEach_orderBy (orderBy : List Ordering) (next : Nat) :
    style.printEach next (orderBy.map Ordering.fragments) = orderBy.map Ordering.render :=
  printEach_map (by simp [Ordering.fragments, Ordering.render]) (fun _ => rfl) orderBy

/-- A SELECT is rendered after its source, which stands in the middle of its text. -/
theorem renders_select {r : Rendering String} (h : Renders style r source) :
    Renders style
      (do
        let text ← r
        renderSelect style columns text conditions groupBy orderBy limit)
      (selectFragments columns source conditions groupBy orderBy limit) := by
  intro bound
  have hconditions := rendersEach_mapM (Predicate.renders style) conditions
    (bound ++ paramsOf source)
  have hlimit := rendersEach_mapM style.bind_renders limit.toList
    (bound ++ paramsOf source ++ paramsOf (conditions.map Predicate.fragments).flatten)
  simp only [renderSelect, bind, StateT.bind, h bound, hconditions, hlimit]
  refine rendered_eq ?_ ?_
  · have hfrom : String.ofList (style.print bound.length (.text "FROM " :: source)) =
        "FROM " ++ String.ofList (style.print bound.length source) := by
      rw [Style.print_text, String.ofList_append, String.ofList_toList]
    rw [String.toList_ofList, selectFragments, ← Style.toList_intercalate_printEach]
    simp only [Style.printEach_append, Style.printEach_clauseFragments, Style.printEach,
      Style.printEach_columns, Style.printEach_groupBy, Style.printEach_orderBy,
      Style.ofList_print_joined, hfrom, paramsOf, paramsOf_append, paramsOf_joinFragments,
      paramsOf_clauseFragments, paramsOf_columns, paramsOf_groupBy, paramsOf_orderBy,
      List.flatten_append, List.flatten_cons, List.flatten_nil, List.append_nil, List.nil_append,
      List.length_nil, List.length_append, Nat.add_zero, Nat.add_assoc]
  · simp only [paramsOf_selectFragments, List.append_assoc, paramsOf_values]

end Select

theorem Source.renders (s : Source) : Renders style (s.render style) s.fragments := by
  induction s with
  | table name schemaName =>
    refine renders_pure (fun next => ?_) rfl
    rw [fragments, Style.print_text, Style.print_nil]
    exact List.append_nil _
  | stored sql =>
    intro bound
    exact rendered_eq (by simp [fragments]) (by simp [fragments, paramsOf])
  | view base computed conditions ih =>
    intro bound
    have hselect := @renders_select style (.star :: computed) _ conditions [] none none _ ih bound
    simp only [bind, StateT.bind, ih bound] at hselect
    simp only [render, bind, StateT.bind, ih bound, hselect]
    refine rendered_eq ?_ ?_
    · simp [fragments, Style.print_append]
    · simp [fragments, paramsOf, paramsOf_append]

theorem Statement.renders (s : Statement) : Renders style (s.render style) s.fragments := by
  cases s with
  | select s => exact renders_select s.source.renders
  | free sql =>
    intro bound
    exact rendered_eq (by simp [fragments]) (by simp [fragments, paramsOf])

namespace Statement
variable (s : Statement)

theorem sql_eq : s.sql = String.ofList (printQmark s.fragments) := by
  rw [sql, Rendering.text, s.renders]
  rfl

theorem namedSql_eq : s.namedSql = String.ofList (printNamed 0 s.fragments) := by
  rw [namedSql, Rendering.text, s.renders]
  rfl

theorem params_eq : s.params = paramsOf s.fragments := by
  rw [params, Rendering.bound, s.renders]
  rfl

/-- The values under the names are those without names. -/
theorem namedParams_eq : s.namedParams = Query.namedParams s.params := by
  rw [params_eq, namedParams, Rendering.bound, s.renders]
  rfl

end Statement

end DatasetCatalog.Query
