import DatasetCatalog.Proofs.Query.ViewChain

/-!
# Names in use

A compiled statement is made of names that the request or a dataset below it uses and of SQL that
these datasets define. Each of the names has passed the test for its use.
-/

namespace DatasetCatalog

/-- The test that a name has to pass for its use. -/
def NameUse.accepts : NameUse → String → Bool
  | .table => Query.isTableName
  | .dimension | .measure | .filterField | .computedField | .schema => Query.isIdentifier

inductive QueryRequest.Uses (r : QueryRequest) : NameUse → String → Prop
  | dimension {name : String} : name ∈ r.dimensions → Uses r .dimension name
  | measure {name : String} : name ∈ r.measures → Uses r .measure name
  | filterField {f : Filter} : f ∈ r.filters → Uses r .filterField f.field

/-- An empty schema is no name. -/
inductive TableConfig.Uses (c : TableConfig) : NameUse → String → Prop
  | table : Uses c .table c.tableName
  | schema {schema : String} : schema ∈ c.schemaName → schema ≠ "" → Uses c .schema schema

inductive ViewConfig.Uses (c : ViewConfig) : NameUse → String → Prop
  | computedField {f : ComputedField} : f ∈ c.computedFields → Uses c .computedField f.name
  | filterField {f : Filter} : f ∈ c.filters → Uses c .filterField f.field

/-- The names that a dataset uses, which depend on its type. Stored SQL uses none. -/
inductive Dataset.Uses (d : Dataset) (use : NameUse) (name : String) : Prop
  | table {c : TableConfig} : d.type = .table → d.tableConfig = some c → c.Uses use name →
      Uses d use name
  | view {c : ViewConfig} : d.type = .view → d.viewConfig = some c → c.Uses use name →
      Uses d use name

/-- The SQL that a dataset defines. -/
inductive Dataset.Defines (d : Dataset) : String → Prop
  | calculation {f : Field} {sql : String} : f ∈ d.fields → f.calculation? = some sql →
      Defines d sql
  | stored {c : SqlConfig} : d.type = .sql → d.sqlConfig = some c →
      Defines d (Query.storedSql c.sql)
  | computedField {c : ViewConfig} {f : ComputedField} : d.type = .view → d.viewConfig = some c →
      f ∈ c.computedFields → Defines d f.expression

theorem Dataset.Defines.of_field? {d : Dataset} {name sql : String}
    (h : (d.field? name).bind Field.calculation? = some sql) : d.Defines sql := by
  obtain ⟨f, hf, hsql⟩ := Option.bind_eq_some_iff.mp h
  exact .calculation (List.mem_of_find?_eq_some hf) hsql

/-- A name is used by a request or by one of the datasets that it is compiled over. -/
def InUse (r : QueryRequest) (ds : List Dataset) (use : NameUse) (name : String) : Prop :=
  r.Uses use name ∨ ∃ d ∈ ds, d.Uses use name

namespace Query

section Made
variable (P T : String → Prop)

/-- Every name that is written has the property `P`, and all trusted SQL has the property `T`. -/
def Expression.MadeOf : Expression → Prop
  | .column name => P name
  | .aliased e name => e.MadeOf ∧ P name
  | .aggregate _ e | .grouped e => e.MadeOf
  | .star => True
  | .trusted sql => T sql

/-- The signs of comparisons. -/
def signs : List String := "LIKE" :: comparisonSigns.map (·.2)

def Predicate.MadeOf : Predicate → Prop
  | .comparison column sign _ => P column ∧ sign ∈ signs
  | .inList column _ | .between column _ _ | .nullCheck column _ => P column

/-- An empty schema is not written. -/
def Source.MadeOf : Source → Prop
  | .table name schemaName => P name ∧ ∀ schema ∈ schemaName, schema ≠ "" → P schema
  | .stored sql => T sql
  | .view base computed conditions =>
    base.MadeOf ∧ (∀ e ∈ computed, e.MadeOf P T) ∧ ∀ p ∈ conditions, p.MadeOf P

structure Select.MadeOf (s : Select) : Prop where
  columns : ∀ e ∈ s.columns, e.MadeOf P T
  source : s.source.MadeOf P T
  conditions : ∀ p ∈ s.conditions, p.MadeOf P
  groupBy : ∀ name ∈ s.groupBy, P name
  orderBy : ∀ o ∈ s.orderBy, P o.column

def Statement.MadeOf : Statement → Prop
  | .select s => s.MadeOf P T
  | .free sql => T sql

end Made

section Compiled
variable {P T : String → Prop} {r : QueryRequest} {d : Dataset}

theorem mem_signs_of_lookup {operator sign : String}
    (h : comparisonSigns.lookup operator = some sign) : sign ∈ signs :=
  List.mem_cons_of_mem _ (List.mem_map_of_mem (mem_of_lookup h))

theorem ConditionOf.madeOf {field operator : String} {v : Value} {q : Predicate}
    (h : ConditionOf field operator v (some q)) (hfield : P field) : q.MadeOf P := by
  have hlike : "LIKE" ∈ signs := List.mem_cons_self
  cases h with
  | comparison _ hsign => exact ⟨hfield, mem_signs_of_lookup hsign⟩
  | contains => exact ⟨hfield, hlike⟩
  | like => exact ⟨hfield, hlike⟩
  | choice => exact hfield
  | range => exact hfield
  | null => exact hfield
  | notNull => exact hfield

theorem compileFilters_madeOf {fs : List Filter} {ps : List Predicate}
    (h : compileFilters fs = .ok ps) (hnames : ∀ f ∈ fs, P f.field) : ∀ p ∈ ps, p.MadeOf P := by
  intro p hp
  obtain ⟨f, hf, hcondition⟩ := exists_conditionOf_mem h hp
  exact hcondition.madeOf (hnames f hf)

theorem dimensionExpression_madeOf {name : String} {e : Expression}
    (h : dimensionExpression d name = .ok e) (hname : P name)
    (hdefined : ∀ sql, d.Defines sql → T sql) : e.MadeOf P T := by
  obtain ⟨_, rfl⟩ := dimensionExpression_ok h
  split
  · rename_i sql hsql
    exact ⟨hdefined sql (.of_field? hsql), hname⟩
  · exact hname

theorem measureExpression_madeOf {name : String} {e : Expression}
    (h : measureExpression d name = .ok e) (hname : P name)
    (hdefined : ∀ sql, d.Defines sql → T sql) : e.MadeOf P T := by
  obtain ⟨_, rfl⟩ := measureExpression_ok h
  refine ⟨?_, hname⟩
  split
  · rename_i sql hsql
    exact hdefined sql (.of_field? hsql)
  · exact hname

theorem selectedColumns_madeOf {columns : List Expression} (h : selectedColumns r d = .ok columns)
    (hnames : ∀ use name, r.Uses use name → P name) (hdefined : ∀ sql, d.Defines sql → T sql) :
    ∀ e ∈ columns, e.MadeOf P T := by
  obtain ⟨dimensions, measures, hdimensions, hmeasures, rfl⟩ := selectedColumns_ok h
  split
  · exact List.forall_mem_singleton.mpr trivial
  · refine List.forall_mem_append.mpr ⟨fun e he => ?_, fun e he => ?_⟩
    · obtain ⟨name, hname, hcompiled⟩ := exists_left_of_mem (forall₂_of_mapM hdimensions) he
      exact dimensionExpression_madeOf hcompiled (hnames _ name (.dimension hname)) hdefined
    · obtain ⟨name, hname, hcompiled⟩ := exists_left_of_mem (forall₂_of_mapM hmeasures) he
      exact measureExpression_madeOf hcompiled (hnames _ name (.measure hname)) hdefined

/-- The name that orders a query is not tested there: it was tested as a column. -/
theorem orderingOf_names (hnames : ∀ use name, r.Uses use name → P name) :
    ∀ o ∈ orderingOf r, P o.column := by
  intro o ho
  unfold orderingOf at ho
  split at ho
  · rename_i m rest hmeasures
    cases ho
    exact hnames _ m (.measure (hmeasures ▸ List.mem_cons_self))
  · rename_i d rest _ hdimensions
    cases ho
    exact hnames _ d (.dimension (hdimensions ▸ List.mem_cons_self))
  · cases ho

theorem tableSource_madeOf {c : TableConfig} {source : Source} (h : tableSource c = .ok source)
    (hnames : ∀ use name, c.Uses use name → P name) : source.MadeOf P T := by
  obtain ⟨rfl, _, _⟩ := tableSource_ok h
  exact ⟨hnames _ _ .table, fun _ hs hne => hnames _ _ (.schema hs hne)⟩

theorem viewSource_madeOf {c : ViewConfig} {base source : Source} (hbase : base.MadeOf P T)
    (h : viewSource c base = .ok source) (hnames : ∀ use name, c.Uses use name → P name)
    (hdefined : ∀ f ∈ c.computedFields, T f.expression) : source.MadeOf P T := by
  obtain ⟨computed, conditions, hcomputed, hconditions, rfl⟩ := viewSource_ok h
  refine ⟨hbase, fun e he => ?_, ?_⟩
  · obtain ⟨f, hf, hcompiled⟩ := exists_left_of_mem (forall₂_of_mapM hcomputed) he
    obtain ⟨rfl, _⟩ := computedExpression_ok hcompiled
    exact ⟨hdefined f hf, hnames _ _ (.computedField hf)⟩
  · exact compileFilters_madeOf hconditions fun f hf => hnames _ _ (.filterField hf)

/-- The source over a chain is made of the names and the SQL of the datasets of that chain. -/
theorem Compiles.madeOf {chain : List Dataset} {source : Source} (h : Compiles d chain source)
    (hnames : ∀ d' ∈ d :: chain, ∀ use name, d'.Uses use name → P name)
    (hdefined : ∀ d' ∈ d :: chain, ∀ sql, d'.Defines sql → T sql) : source.MadeOf P T := by
  induction h with
  | table ht hc hsource =>
    exact tableSource_madeOf hsource fun use name hname =>
      hnames _ List.mem_cons_self use name (.table ht hc hname)
  | stored ht hc => exact hdefined _ List.mem_cons_self _ (.stored ht hc)
  | view ht hc _ hsource ih =>
    obtain ⟨hown, hbelow⟩ := List.forall_mem_cons.mp hnames
    obtain ⟨hdefinedHere, hdefinedBelow⟩ := List.forall_mem_cons.mp hdefined
    exact viewSource_madeOf (ih hbelow hdefinedBelow) hsource
      (fun use name hname => hown use name (.view ht hc hname))
      fun _ hf => hdefinedHere _ (.computedField ht hc hf)

end Compiled

section Accepted
variable {r : QueryRequest} {d : Dataset} {use : NameUse} {name : String}

theorem selectedColumns_accepts {columns : List Expression}
    (h : selectedColumns r d = .ok columns) :
    (∀ name ∈ r.dimensions, isIdentifier name = true) ∧
      ∀ name ∈ r.measures, isIdentifier name = true := by
  obtain ⟨dimensions, measures, hdimensions, hmeasures, _⟩ := selectedColumns_ok h
  refine ⟨fun name hname => ?_, fun name hname => ?_⟩
  · obtain ⟨e, he⟩ := exists_of_mem_of_mapM hdimensions hname
    exact (dimensionExpression_ok he).1
  · obtain ⟨e, he⟩ := exists_of_mem_of_mapM hmeasures hname
    exact (measureExpression_ok he).1

theorem accepts_of_uses {columns : List Expression} {conditions : List Predicate}
    (hcolumns : selectedColumns r d = .ok columns)
    (hconditions : compileFilters r.filters = .ok conditions) (h : r.Uses use name) :
    use.accepts name = true := by
  obtain ⟨hdimensions, hmeasures⟩ := selectedColumns_accepts hcolumns
  cases h with
  | dimension hname => exact hdimensions _ hname
  | measure hname => exact hmeasures _ hname
  | filterField hf => exact isIdentifier_of_compileFilters hconditions _ hf

theorem tableSource_accepts {c : TableConfig} {source : Source}
    (hsource : tableSource c = .ok source) (h : c.Uses use name) : use.accepts name = true := by
  obtain ⟨_, htable, hschema⟩ := tableSource_ok hsource
  cases h with
  | table => exact htable
  | schema hs hne => exact hschema _ hs hne

theorem viewSource_accepts {c : ViewConfig} {base source : Source}
    (hsource : viewSource c base = .ok source) (h : c.Uses use name) :
    use.accepts name = true := by
  obtain ⟨computed, conditions, hcomputed, hconditions, _⟩ := viewSource_ok hsource
  cases h with
  | computedField hf =>
    obtain ⟨e, he⟩ := exists_of_mem_of_mapM hcomputed hf
    exact (computedExpression_ok he).2
  | filterField hf => exact isIdentifier_of_compileFilters hconditions _ hf

theorem Compiles.accepts {chain : List Dataset} {source : Source} (h : Compiles d chain source) :
    ∀ d' ∈ d :: chain, ∀ use name, d'.Uses use name → use.accepts name = true := by
  induction h with
  | table ht hc hsource =>
    refine List.forall_mem_singleton.mpr fun use name hname => ?_
    cases hname with
    | table _ hc' hname =>
      cases hc.symm.trans hc'
      exact tableSource_accepts hsource hname
    | view ht' _ _ => cases ht.symm.trans ht'
  | stored ht _ =>
    refine List.forall_mem_singleton.mpr fun use name hname => ?_
    cases hname with
    | table ht' _ _ => cases ht.symm.trans ht'
    | view ht' _ _ => cases ht.symm.trans ht'
  | view ht hc _ hsource ih =>
    refine List.forall_mem_cons.mpr ⟨fun use name hname => ?_, ih⟩
    cases hname with
    | table ht' _ _ => cases ht.symm.trans ht'
    | view _ hc' hname =>
      cases hc.symm.trans hc'
      exact viewSource_accepts hsource hname

end Accepted

section Statements
variable {σ : Type} {resolve : Option (Resolver (StateM σ))} {fuel : Nat} {d : Dataset} {s s' : σ}
  {q : Statement}

/-- The names in use are accepted if a query is compiled, and it is made of these names and of SQL
that the datasets define. -/
theorem compileQuery_madeOf {r : QueryRequest}
    (h : compileQuery resolve fuel r d s = (.ok q, s')) :
    ∃ chain, ViewChain resolve s d chain ∧
      (∀ use name, InUse r (d :: chain) use name → use.accepts name = true) ∧
      ∀ P T : String → Prop, (∀ use name, InUse r (d :: chain) use name → P name) →
        (∀ d' ∈ d :: chain, ∀ sql, d'.Defines sql → T sql) → q.MadeOf P T := by
  obtain ⟨columns, chain, source, conditions, hcolumns, hchain, hsource, hconditions, rfl⟩ :=
    compileQuery_ok h
  refine ⟨chain, hchain, ?_, fun P T hnames hdefined => ?_⟩
  · rintro use name (hname | ⟨d', hd', hname⟩)
    · exact accepts_of_uses hcolumns hconditions hname
    · exact hsource.accepts d' hd' use name hname
  · have hown : ∀ use name, r.Uses use name → P name := fun use name hname =>
      hnames use name (.inl hname)
    have hbelow : source.MadeOf P T :=
      hsource.madeOf (fun d' hd' use name hname => hnames use name (.inr ⟨d', hd', hname⟩)) hdefined
    exact
      { columns := selectedColumns_madeOf hcolumns hown (hdefined d List.mem_cons_self)
        source := hbelow
        conditions := compileFilters_madeOf hconditions fun f hf => hown _ _ (.filterField hf)
        groupBy := fun name hname => hown _ name (.dimension hname)
        orderBy := orderingOf_names hown }

/-- A preview is made of the names that the datasets use. -/
theorem compilePreview_madeOf {limit : Int}
    (h : compilePreview resolve fuel d limit s = (.ok q, s')) :
    ∃ chain, ViewChain resolve s d chain ∧
      (∀ d' ∈ d :: chain, ∀ use name, d'.Uses use name → use.accepts name = true) ∧
      ∀ P T : String → Prop, (∀ d' ∈ d :: chain, ∀ use name, d'.Uses use name → P name) →
        (∀ d' ∈ d :: chain, ∀ sql, d'.Defines sql → T sql) → q.MadeOf P T := by
  obtain ⟨chain, source, hchain, hsource, rfl⟩ := compilePreview_ok h
  refine ⟨chain, hchain, hsource.accepts, fun P T hnames hdefined => ?_⟩
  exact ⟨List.forall_mem_singleton.mpr trivial, hsource.madeOf hnames hdefined, nofun, nofun, nofun⟩

end Statements

end Query

end DatasetCatalog
