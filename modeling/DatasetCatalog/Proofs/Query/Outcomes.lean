import DatasetCatalog.Proofs.Success
import DatasetCatalog.Query.Compile
import Mathlib.Data.List.ReduceOption

/-!
# What compiling comes to

The parts of a definition or a request are compiled one by one. Each part either has a result, which
is told apart here by what it is made of, or a name or a filter of it is at fault.
-/

namespace DatasetCatalog

/-- The error finds fault with a name or a filter of a definition. -/
inductive Error.FaultsDefinition : Error → Prop
  | name (use : NameUse) (name : String) : FaultsDefinition (.refused (.invalidName use name))
  | choice (field : String) : FaultsDefinition (.refused (.inNeedsList field))
  | range (field : String) : FaultsDefinition (.refused (.betweenNeedsPair field))
  | operator (operator : String) (supported : List String) :
    FaultsDefinition (.refused (.unsupportedOperator operator supported))

theorem Error.FaultsDefinition.refused {e : Error} (h : e.FaultsDefinition) :
    ∃ cause, e = .refused cause := by
  cases h with
  | name use name => exact ⟨_, rfl⟩
  | choice field => exact ⟨_, rfl⟩
  | range field => exact ⟨_, rfl⟩
  | operator operator supported => exact ⟨_, rfl⟩

namespace Query

section Names
variable {use : NameUse} {name column : String} {e : Error}

theorem checkedName_ok (h : checkedName use name = .ok column) :
    column = name ∧ isIdentifier name = true := by
  unfold checkedName at h
  split at h
  · rename_i hname
    cases h
    exact ⟨rfl, hname⟩
  · cases h

theorem checkedName_faults (h : checkedName use name = .error e) : e.FaultsDefinition := by
  unfold checkedName at h
  split at h
  · cases h
  · cases h
    exact .name use name

end Names

section Filters

/-- The condition for a field, an operator and a value. A choice from nothing has none. -/
inductive ConditionOf (field : String) : String → Value → Option Predicate → Prop
  | comparison {operator sign : String} (v : Value) :
      comparisonSigns.lookup operator = some sign →
      ConditionOf field operator v (some (.comparison field sign v))
  | contains (v : Value) : ConditionOf field "contains" v
      (some (.comparison field "LIKE" (.text ("%" ++ v.display ++ "%"))))
  | like (v : Value) : ConditionOf field "like" v (some (.comparison field "LIKE" v))
  | noChoice : ConditionOf field "in" (.list []) none
  | choice (first : Value) (rest : List Value) :
      ConditionOf field "in" (.list (first :: rest)) (some (.inList field (first :: rest)))
  | range (low high : Value) :
      ConditionOf field "between" (.list [low, high]) (some (.between field low high))
  | null (v : Value) : ConditionOf field "is_null" v (some (.nullCheck field false))
  | notNull (v : Value) : ConditionOf field "is_not_null" v (some (.nullCheck field true))

variable {f : Filter} {p : Option Predicate} {filters : List Filter} {e : Error}

theorem compileFilter_ok (h : compileFilter f = .ok p) :
    isIdentifier f.field = true ∧ ConditionOf f.field f.operator f.value p := by
  obtain ⟨field, operator, v⟩ := f
  obtain ⟨column, hcolumn, hp⟩ := bind_eq_ok h
  obtain ⟨rfl, hname⟩ := checkedName_ok hcolumn
  refine ⟨hname, ?_⟩
  cases hsign : comparisonSigns.lookup operator with
  | some sign =>
    simp only [hsign] at hp
    cases hp
    exact .comparison v hsign
  | none =>
    simp only [hsign] at hp
    split at hp
    · cases hp
      exact .contains v
    · cases hp
      exact .like v
    · split at hp
      · cases hp
        exact .noChoice
      · rename_i values hne
        cases hp
        cases values with
        | nil => exact absurd rfl hne
        | cons first rest => exact .choice first rest
      · cases hp
    · split at hp
      · rename_i low high
        cases hp
        exact .range low high
      · cases hp
    · cases hp
      exact .null v
    · cases hp
      exact .notNull v
    · cases hp

theorem compileFilter_faults (h : compileFilter f = .error e) : e.FaultsDefinition := by
  rcases bind_eq_error h with h | ⟨column, _, h⟩
  · exact checkedName_faults h
  split at h
  · cases h
  · split at h
    · cases h
    · cases h
    · split at h
      · cases h
      · cases h
      · cases h
        exact .choice f.field
    · split at h
      · cases h
      · cases h
        exact .range f.field
    · cases h
    · cases h
    · cases h
      exact .operator _ _

theorem isIdentifier_of_compileFilters {ps : List Predicate} (h : compileFilters filters = .ok ps) :
    ∀ f ∈ filters, isIdentifier f.field = true := by
  obtain ⟨found, hfound, _⟩ := map_eq_ok h
  intro f hf
  obtain ⟨p, hp⟩ := exists_of_mem_of_mapM hfound hf
  exact (compileFilter_ok hp).1

/-- Every condition comes from one of the filters. -/
theorem exists_conditionOf_mem {ps : List Predicate} (h : compileFilters filters = .ok ps)
    {q : Predicate} (hq : q ∈ ps) :
    ∃ f ∈ filters, ConditionOf f.field f.operator f.value (some q) := by
  obtain ⟨found, hfound, rfl⟩ := map_eq_ok h
  obtain ⟨f, hf, hcompiled⟩ :=
    exists_left_of_mem (forall₂_of_mapM hfound) (List.reduceOption_mem_iff.mp hq)
  exact ⟨f, hf, (compileFilter_ok hcompiled).2⟩

theorem compileFilters_faults (h : compileFilters filters = .error e) : e.FaultsDefinition := by
  obtain ⟨f, _, h⟩ := exists_of_mapM_eq_error (map_eq_error h)
  exact compileFilter_faults h

end Filters

section Sources
variable {e : Error}

/-- The source of a table has the table's own names. An empty schema is left unchecked. -/
theorem tableSource_ok {c : TableConfig} {source : Source} (h : tableSource c = .ok source) :
    source = .table c.tableName c.schemaName ∧ isTableName c.tableName = true ∧
      ∀ schema ∈ c.schemaName, schema ≠ "" → isIdentifier schema = true := by
  cases hname : isTableName c.tableName with
  | false =>
    simp only [tableSource, hname, Bool.not_false, if_true] at h
    split at h <;> cases h
  | true =>
    simp only [tableSource, hname, Bool.not_true, Bool.false_eq_true, if_false] at h
    split at h
    · rename_i schema hschema
      obtain ⟨checked, hchecked, hsource⟩ := bind_eq_ok h
      obtain ⟨rfl, hidentifier⟩ := checkedName_ok hchecked
      have hgiven : c.schemaName = some checked := (Option.filter_eq_some_iff.mp hschema).1
      cases hsource
      refine ⟨by rw [hgiven], rfl, fun schema hs _ => ?_⟩
      cases Option.mem_some.mp (hgiven ▸ hs)
      exact hidentifier
    · rename_i hempty
      cases h
      refine ⟨rfl, rfl, fun schema hs hne => ?_⟩
      have hs : schema.isEmpty = true := by
        simpa using Option.filter_eq_none_iff.mp hempty schema hs
      exact absurd (String.isEmpty_iff.mp hs) hne

theorem tableSource_faults {c : TableConfig} (h : tableSource c = .error e) :
    e.FaultsDefinition := by
  cases hname : isTableName c.tableName with
  | false =>
    have hrefused : tableSource c = .error (.refused (.invalidName .table c.tableName)) := by
      simp only [tableSource, hname, Bool.not_false, if_true]
      split <;> rfl
    rw [hrefused] at h
    cases h
    exact .name .table c.tableName
  | true =>
    simp only [tableSource, hname, Bool.not_true, Bool.false_eq_true, if_false] at h
    split at h
    · rcases bind_eq_error h with h | ⟨_, _, h⟩
      · exact checkedName_faults h
      · cases h
    · cases h

theorem computedExpression_ok {f : ComputedField} {x : Expression}
    (h : computedExpression f = .ok x) :
    x = .aliased (.grouped (.trusted f.expression)) f.name ∧ isIdentifier f.name = true := by
  obtain ⟨name, hname, h⟩ := bind_eq_ok h
  obtain ⟨rfl, hidentifier⟩ := checkedName_ok hname
  cases h
  exact ⟨rfl, hidentifier⟩

theorem viewSource_ok {c : ViewConfig} {base source : Source}
    (h : viewSource c base = .ok source) :
    ∃ computed conditions, c.computedFields.mapM computedExpression = .ok computed ∧
      compileFilters c.filters = .ok conditions ∧ source = .view base computed conditions := by
  obtain ⟨computed, hcomputed, h⟩ := bind_eq_ok h
  obtain ⟨conditions, hconditions, h⟩ := bind_eq_ok h
  cases h
  exact ⟨computed, conditions, hcomputed, hconditions, rfl⟩

theorem viewSource_faults {c : ViewConfig} {base : Source} (h : viewSource c base = .error e) :
    e.FaultsDefinition := by
  rcases bind_eq_error h with h | ⟨computed, _, h⟩
  · obtain ⟨f, _, h⟩ := exists_of_mapM_eq_error h
    rcases bind_eq_error h with h | ⟨_, _, h⟩
    · exact checkedName_faults h
    · cases h
  rcases bind_eq_error h with h | ⟨conditions, _, h⟩
  · exact compileFilters_faults h
  · cases h

end Sources

section Columns
variable {r : QueryRequest} {d : Dataset} {columns : List Expression} {e : Error}

/-- The columns are those of the dimensions and the measures, or all there are without any. -/
theorem selectedColumns_ok (h : selectedColumns r d = .ok columns) :
    ∃ dimensions measures, r.dimensions.mapM (dimensionExpression d) = .ok dimensions ∧
      r.measures.mapM (measureExpression d) = .ok measures ∧
      columns = if (dimensions ++ measures).isEmpty then [.star] else dimensions ++ measures := by
  obtain ⟨dimensions, hdimensions, h⟩ := bind_eq_ok h
  obtain ⟨measures, hmeasures, h⟩ := bind_eq_ok h
  cases h
  exact ⟨dimensions, measures, hdimensions, hmeasures, rfl⟩

theorem dimensionExpression_ok {name : String} {x : Expression}
    (h : dimensionExpression d name = .ok x) :
    isIdentifier name = true ∧ x = match (d.field? name).bind Field.calculation? with
      | some sql => .aliased (.grouped (.trusted sql)) name
      | none => .column name := by
  obtain ⟨column, hname, h⟩ := bind_eq_ok h
  obtain ⟨rfl, hidentifier⟩ := checkedName_ok hname
  refine ⟨hidentifier, ?_⟩
  cases hsql : (d.field? column).bind Field.calculation? with
  | none =>
    simp only [hsql] at h
    cases h
    rfl
  | some sql =>
    simp only [hsql] at h
    cases h
    rfl

theorem measureExpression_ok {name : String} {x : Expression}
    (h : measureExpression d name = .ok x) :
    isIdentifier name = true ∧
      x = .aliased
        (.aggregate (((d.field? name).bind (·.aggregation)).getD .sum)
          (match (d.field? name).bind Field.calculation? with
            | some sql => .grouped (.trusted sql)
            | none => .column name))
        name := by
  obtain ⟨column, hname, h⟩ := bind_eq_ok h
  obtain ⟨rfl, hidentifier⟩ := checkedName_ok hname
  cases h
  exact ⟨hidentifier, rfl⟩

end Columns

end Query

end DatasetCatalog
