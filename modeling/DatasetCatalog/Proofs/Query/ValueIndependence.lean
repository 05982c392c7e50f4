import DatasetCatalog.Proofs.Query.FilterShape
import DatasetCatalog.Proofs.Query.ViewChain
import Mathlib.Data.Option.Basic

/-!
# Independence of values

Two queries that differ only in the values of filters, and in how many rows they ask for, have the
same text. The same goes for the values in the filters of the views below them.
-/

namespace DatasetCatalog

/-- Two filters differ at most in their values; choices are made from equally many. -/
structure Filter.SameShape (f g : Filter) : Prop where
  field : f.field = g.field
  operator : f.operator = g.operator
  choices : f.operator = "in" → f.choices = g.choices

structure ViewConfig.SameShape (c c' : ViewConfig) : Prop where
  baseDatasetId : c.baseDatasetId = c'.baseDatasetId
  filters : List.Forall₂ Filter.SameShape c.filters c'.filters
  computedFields : c.computedFields = c'.computedFields

/-- Two datasets read their data in the same way, but for the values of the filters of a view. -/
structure Dataset.SameShape (d d' : Dataset) : Prop where
  type : d.type = d'.type
  tableConfig : d.tableConfig = d'.tableConfig
  sqlConfig : d.sqlConfig = d'.sqlConfig
  viewConfig : Option.Rel ViewConfig.SameShape d.viewConfig d'.viewConfig
  fields : d.fields = d'.fields

structure QueryRequest.SameShape (r r' : QueryRequest) : Prop where
  measures : r.measures = r'.measures
  dimensions : r.dimensions = r'.dimensions
  filters : List.Forall₂ Filter.SameShape r.filters r'.filters

namespace Query

theorem conditionShapes_congr {fs gs : List Filter} (h : List.Forall₂ Filter.SameShape fs gs) :
    conditionShapes fs = conditionShapes gs := by
  have hmap : (fs.map fun f => conditionShape f.field f.operator f.choices) =
      gs.map fun g => conditionShape g.field g.operator g.choices := by
    induction h with
    | nil => rfl
    | cons hf _ ih =>
      rw [List.map_cons, List.map_cons, ih, hf.field, conditionShape_congr hf.choices, hf.operator]
  rw [conditionShapes, hmap, conditionShapes]

theorem viewSource_blank {c c' : ViewConfig} (h : c.SameShape c')
    {base base' source source' : Source} (hbase : base.blank = base'.blank)
    (hs : viewSource c base = .ok source) (hs' : viewSource c' base' = .ok source') :
    source.blank = source'.blank := by
  obtain ⟨computed, conditions, hcomputed, hconditions, rfl⟩ := viewSource_ok hs
  obtain ⟨computed', conditions', hcomputed', hconditions', rfl⟩ := viewSource_ok hs'
  rw [h.computedFields, hcomputed'] at hcomputed
  cases hcomputed
  rw [Source.blank, Source.blank, hbase, (compileFilters_shape hconditions).2,
    (compileFilters_shape hconditions').2, conditionShapes_congr h.filters]

/-- Sources over two chains of one shape have one blank. -/
theorem Compiles.blank_eq {d d' : Dataset} {chain chain' : List Dataset} {source source' : Source}
    (h : Compiles d chain source) (h' : Compiles d' chain' source') (hd : d.SameShape d')
    (hchain : List.Forall₂ Dataset.SameShape chain chain') : source.blank = source'.blank := by
  induction h generalizing d' chain' source' with
  | table ht hc hs =>
    cases h' with
    | table _ hc' hs' =>
      rw [hd.tableConfig, hc'] at hc
      cases hc
      rw [hs] at hs'
      cases hs'
      rfl
    | stored ht' => 
      rw [hd.type, ht'] at ht
      cases ht
    | view ht' => cases hchain
  | stored ht hc =>
    cases h' with
    | table ht' => 
      rw [hd.type, ht'] at ht
      cases ht
    | stored _ hc' =>
      rw [hd.sqlConfig, hc'] at hc
      cases hc
      rfl
    | view ht' => cases hchain
  | view ht hc _ hs ih =>
    cases h' with
    | table ht' => cases hchain
    | stored ht' => cases hchain
    | view _ hc' hbelow' hs' =>
      cases hchain with
      | cons hbase hrest =>
        have hview := hd.viewConfig
        rw [hc, hc'] at hview
        cases hview with
        | some hview => exact viewSource_blank hview (ih hbelow' hbase hrest) hs hs'

theorem selectedColumns_congr {r r' : QueryRequest} {d d' : Dataset} (hr : r.SameShape r')
    (hd : d.SameShape d') : selectedColumns r d = selectedColumns r' d' := by
  have hfield : d.field? = d'.field? := by
    funext name
    simp only [Dataset.field?, hd.fields]
  have hdimension : dimensionExpression d = dimensionExpression d' := by
    funext name
    simp only [dimensionExpression, hfield]
  have hmeasure : measureExpression d = measureExpression d' := by
    funext name
    simp only [measureExpression, hfield]
  simp only [selectedColumns, hr.measures, hr.dimensions, hdimension, hmeasure]

/-- Two queries of one shape over two chains of one shape have the same texts and the same names of
parameters, whatever the values of filters and the limits are. -/
theorem query_text_ignores_values {σ σ' : Type} {resolve : Option (Resolver (StateM σ))}
    {resolve' : Option (Resolver (StateM σ'))} {s t : σ} {s' t' : σ'} {fuel fuel' : Nat}
    {r r' : QueryRequest} {d d' : Dataset} {chain chain' : List Dataset} {q q' : Statement}
    (hr : r.SameShape r') (hd : d.SameShape d')
    (hc : ViewChain resolve s d chain) (hc' : ViewChain resolve' s' d' chain')
    (hchain : List.Forall₂ Dataset.SameShape chain chain')
    (hq : compileQuery resolve fuel r d s = (.ok q, t))
    (hq' : compileQuery resolve' fuel' r' d' s' = (.ok q', t')) :
    q.sql = q'.sql ∧ q.namedSql = q'.namedSql ∧
      q.namedParams.map (·.1) = q'.namedParams.map (·.1) := by
  have hblank : q.blank = q'.blank := by
    obtain ⟨columns, found, source, conditions, hcolumns, hfound, hsource, hconditions, rfl⟩ :=
      compileQuery_ok hq
    obtain ⟨columns', found', source', conditions', hcolumns', hfound', hsource', hconditions',
      rfl⟩ := compileQuery_ok hq'
    obtain rfl := hc.unique hfound
    obtain rfl := hc'.unique hfound'
    rw [selectedColumns_congr hr hd, hcolumns'] at hcolumns
    cases hcolumns
    have hordering : orderingOf r = orderingOf r' := by
      simp only [orderingOf, hr.measures, hr.dimensions]
    simp only [Statement.blank, Select.blank, hsource.blank_eq hsource' hd hchain,
      (compileFilters_shape hconditions).2, (compileFilters_shape hconditions').2,
      conditionShapes_congr hr.filters, hr.dimensions, hordering]
  rw [← q.sql_blank, ← q.namedSql_blank, ← q.keys_blank, hblank]
  exact ⟨q'.sql_blank, q'.namedSql_blank, q'.keys_blank⟩

theorem query_text_ignores_values_in_view :
    let base : Dataset :=
      { id := "b", userId := "u", name := "b", displayName := "b", type := .table
        tableConfig := some { datasourceId := "s", tableName := "sales" }
        createdAt := Time.Moment.start2024, updatedAt := Time.Moment.start2024 }
    let view (v : Value) : Dataset :=
      { base with
        id := "v", type := .view, tableConfig := none
        viewConfig := some { baseDatasetId := "b", filters := [⟨"year", "in", .list [v]⟩] } }
    let ask (v : Value) (limit : Option Int) : QueryRequest :=
      { measures := ["total"], filters := [⟨"city", "contains", v⟩], limit }
    let resolve : Option (Resolver (StateM Unit)) := some fun _ => pure base
    ∃ q q', compileQuery resolve 3 (ask (.text "Ulm") none) (view (.int 2024)) () = (.ok q, ()) ∧
      compileQuery resolve 3 (ask (.text "x OR 1=1 --") (some 5)) (view (.text ":p7")) () =
        (.ok q', ()) ∧
      q.params.length = 3 ∧ q.sql = q'.sql ∧ q.namedSql = q'.namedSql ∧
      q.namedParams.map (·.1) = q'.namedParams.map (·.1) := by
  intro base view ask resolve
  have hchain (v : Value) : ViewChain resolve () (view v) [base] :=
    .view rfl rfl rfl rfl (.ground (by decide))
  have hview (v w : Value) : (view v).SameShape (view w) :=
    ⟨rfl, rfl, rfl, .some ⟨rfl, .cons ⟨rfl, rfl, fun _ => rfl⟩ .nil, rfl⟩, rfl⟩
  have hbase : base.SameShape base := ⟨rfl, rfl, rfl, .none, rfl⟩
  have hask : (ask (.text "Ulm") none).SameShape (ask (.text "x OR 1=1 --") (some 5)) :=
    ⟨rfl, rfl, .cons ⟨rfl, rfl, fun _ => rfl⟩ .nil⟩
  have hq : ∃ q, compileQuery resolve 3 (ask (.text "Ulm") none) (view (.int 2024)) () =
      (.ok q, ()) ∧ q.params.length = 3 := ⟨_, rfl, rfl⟩
  have hq' : ∃ q, compileQuery resolve 3 (ask (.text "x OR 1=1 --") (some 5)) (view (.text ":p7"))
      () = (.ok q, ()) := ⟨_, rfl⟩
  obtain ⟨q, hq, hlength⟩ := hq
  obtain ⟨q', hq'⟩ := hq'
  exact ⟨q, q', hq, hq', hlength, query_text_ignores_values hask (hview _ _) (hchain _) (hchain _)
    (.cons hbase .nil) hq hq'⟩

end Query

end DatasetCatalog
