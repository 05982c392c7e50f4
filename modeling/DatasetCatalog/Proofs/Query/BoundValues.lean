import DatasetCatalog.Proofs.Query.Fragments
import DatasetCatalog.Proofs.Query.ViewChain

/-!
# Bound values

A filter binds the values that it compares with, and its condition stands where the filter does. A
query binds the values of the views below it, from the view next to the ground outwards, then those
of its own filters, and its limit last.
-/

namespace DatasetCatalog

/-- The values that a filter compares a column with, in the order in which they are bound. -/
def Filter.boundValues (f : Filter) : List Value :=
  match f.operator, f.value with
  | "contains", v => [.text ("%" ++ v.display ++ "%")]
  | "in", .list values => values
  | "between", .list [low, high] => [low, high]
  | "is_null", _ | "is_not_null", _ => []
  | _, v => [v]

/-- Whether a filter is a choice from nothing, which has no condition. -/
def Filter.isEmptyChoice (f : Filter) : Bool :=
  match f.operator, f.value with
  | "in", .list [] => true
  | _, _ => false

/-- The filters of a view. -/
def Dataset.viewFilters? (d : Dataset) : Option (List Filter) :=
  if d.type = .view then d.viewConfig.map (·.filters) else none

/-- The filters of the views among datasets, the last view first. -/
def viewLevels (ds : List Dataset) : List (List Filter) :=
  (ds.filterMap Dataset.viewFilters?).reverse

namespace Query

def Predicate.column : Predicate → String
  | .comparison column _ _ | .inList column _ | .between column _ _ | .nullCheck column _ => column

/-- A condition compares the column of a filter with the values of that filter. -/
structure Predicate.Tests (p : Predicate) (f : Filter) : Prop where
  column : p.column = f.field
  params : p.params = f.boundValues

/-- The conditions of a WHERE clause stand for filters, one for each that is no empty choice. -/
def Realizes (conditions : List Predicate) (filters : List Filter) : Prop :=
  List.Forall₂ Predicate.Tests conditions (filters.filter (!·.isEmptyChoice))

/-- The conditions of the views that a source is made of, the innermost first. -/
def Source.levels : Source → List (List Predicate)
  | .table _ _ | .stored _ => []
  | .view base _ conditions => base.levels ++ [conditions]

def Select.levels (s : Select) : List (List Predicate) := s.source.levels ++ [s.conditions]

theorem paramsOf_fragments_predicate (p : Predicate) : paramsOf p.fragments = p.params := by
  rw [Predicate.params, Rendering.bound, p.renders]
  rfl

theorem paramsOf_conditions (conditions : List Predicate) :
    paramsOf (conditions.map Predicate.fragments).flatten = conditions.flatMap Predicate.params := by
  induction conditions with
  | nil => rfl
  | cons p rest ih =>
    rw [List.map_cons, List.flatten_cons, paramsOf_append, ih, paramsOf_fragments_predicate]
    rfl

theorem params_inList (column : String) (values : List Value) :
    (Predicate.inList column values).params = values := by
  rw [← paramsOf_fragments_predicate]
  simp [Predicate.fragments, paramsOf, paramsOf_append, paramsOf_joinFragments, paramsOf_values]

section Filters
variable {f : Filter} {p : Option Predicate} {filters : List Filter} {conditions : List Predicate}

/-- A comparison binds the value of its filter as it is. -/
theorem boundValues_of_sign {sign : String} (h : comparisonSigns.lookup f.operator = some sign) :
    f.boundValues = [f.value] ∧ f.isEmptyChoice = false := by
  have hother : ∀ operator ∈ ["contains", "in", "between", "is_null", "is_not_null"],
      f.operator ≠ operator := by
    intro operator hmem heq
    have hnone : ∀ operator ∈ ["contains", "in", "between", "is_null", "is_not_null"],
        comparisonSigns.lookup operator = none := by decide
    rw [heq, hnone operator hmem] at h
    cases h
  simp only [List.forall_mem_cons] at hother
  obtain ⟨hcontains, hin, hbetween, hnull, hnotNull, _⟩ := hother
  constructor
  · unfold Filter.boundValues
    split
    · exact absurd ‹_› hcontains
    · exact absurd ‹_› hin
    · exact absurd ‹_› hbetween
    · exact absurd ‹_› hnull
    · exact absurd ‹_› hnotNull
    · rfl
  · unfold Filter.isEmptyChoice
    split
    · exact absurd ‹_› hin
    · rfl

/-- A filter is an empty choice, which has no condition, or it has one that tests what it says. -/
theorem ConditionOf.tests (h : ConditionOf f.field f.operator f.value p) :
    p = none ∧ f.isEmptyChoice = true ∨
      ∃ q, p = some q ∧ f.isEmptyChoice = false ∧ q.Tests f := by
  obtain ⟨field, operator, v⟩ := f
  cases h with
  | noChoice => exact .inl ⟨rfl, rfl⟩
  | comparison _ hsign =>
    obtain ⟨hvalues, hchoice⟩ := boundValues_of_sign (f := ⟨field, operator, v⟩) hsign
    exact .inr ⟨_, rfl, hchoice, rfl, hvalues.symm⟩
  | choice first rest => exact .inr ⟨_, rfl, rfl, rfl, params_inList field (first :: rest)⟩
  | contains => exact .inr ⟨_, rfl, rfl, rfl, rfl⟩
  | like => exact .inr ⟨_, rfl, rfl, rfl, rfl⟩
  | range => exact .inr ⟨_, rfl, rfl, rfl, rfl⟩
  | null => exact .inr ⟨_, rfl, rfl, rfl, rfl⟩
  | notNull => exact .inr ⟨_, rfl, rfl, rfl, rfl⟩

theorem realizes_of_compiled {found : List (Option Predicate)}
    (h : List.Forall₂ (fun f p => compileFilter f = .ok p) filters found) :
    Realizes found.reduceOption filters := by
  induction h with
  | nil => exact .nil
  | @cons f p fs ps hf _ ih =>
    unfold Realizes at ih ⊢
    rcases (compileFilter_ok hf).2.tests with ⟨rfl, hchoice⟩ | ⟨q, rfl, hchoice, htests⟩
    · rw [List.reduceOption_cons_of_none, List.filter_cons_of_neg (by simp [hchoice])]
      exact ih
    · rw [List.reduceOption_cons_of_some, List.filter_cons_of_pos (by simp [hchoice])]
      exact .cons htests ih

/-- The conditions of a WHERE clause stand for its filters, in their order. -/
theorem compileFilters_realizes (h : compileFilters filters = .ok conditions) :
    Realizes conditions filters := by
  obtain ⟨found, hfound, rfl⟩ := map_eq_ok h
  exact realizes_of_compiled (forall₂_of_mapM hfound)

theorem boundValues_of_isEmptyChoice (h : f.isEmptyChoice = true) : f.boundValues = [] := by
  unfold Filter.isEmptyChoice at h
  split at h
  · simp only [Filter.boundValues, *]
  · cases h

/-- An empty choice binds nothing, so nothing is lost with it. -/
theorem boundValues_of_filtered (filters : List Filter) :
    (filters.filter (!·.isEmptyChoice)).flatMap Filter.boundValues =
      filters.flatMap Filter.boundValues := by
  induction filters with
  | nil => rfl
  | cons f rest ih =>
    cases hchoice : f.isEmptyChoice with
    | true =>
      rw [List.filter_cons_of_neg (by simp [hchoice]), ih, List.flatMap_cons,
        boundValues_of_isEmptyChoice hchoice, List.nil_append]
    | false =>
      rw [List.filter_cons_of_pos (by simp [hchoice]), List.flatMap_cons, List.flatMap_cons, ih]

theorem params_of_tests (h : List.Forall₂ Predicate.Tests conditions filters) :
    conditions.flatMap Predicate.params = filters.flatMap Filter.boundValues := by
  induction h with
  | nil => rfl
  | cons htests _ ih => rw [List.flatMap_cons, List.flatMap_cons, htests.params, ih]

theorem Realizes.params (h : Realizes conditions filters) :
    paramsOf (conditions.map Predicate.fragments).flatten =
      filters.flatMap Filter.boundValues := by
  rw [paramsOf_conditions, params_of_tests h, boundValues_of_filtered]

end Filters

section Chains

theorem viewLevels_cons_of_ne_view {d : Dataset} (h : d.type ≠ .view) (ds : List Dataset) :
    viewLevels (d :: ds) = viewLevels ds := by
  rw [viewLevels, List.filterMap_cons_none (by rw [Dataset.viewFilters?, if_neg h])]
  rfl

theorem viewLevels_cons_of_view {d : Dataset} {c : ViewConfig} (ht : d.type = .view)
    (hc : d.viewConfig = some c) (ds : List Dataset) :
    viewLevels (d :: ds) = viewLevels ds ++ [c.filters] := by
  have hfilters : d.viewFilters? = some c.filters := by
    rw [Dataset.viewFilters?, if_pos ht, hc]
    rfl
  rw [viewLevels, List.filterMap_cons_some hfilters, List.reverse_cons]
  rfl

/-- The conditions of a source stand for the filters of the views that it is made of, level by
level, and it binds the values of these filters. The induction is on the chain of views. -/
theorem Compiles.binds {d : Dataset} {chain : List Dataset} {source : Source}
    (h : Compiles d chain source) :
    List.Forall₂ Realizes source.levels (viewLevels (d :: chain)) ∧
      paramsOf source.fragments = (viewLevels (d :: chain)).flatten.flatMap Filter.boundValues := by
  induction h with
  | table ht _ hsource =>
    obtain ⟨rfl, _, _⟩ := tableSource_ok hsource
    rw [viewLevels_cons_of_ne_view (by rw [ht]; decide)]
    exact ⟨.nil, rfl⟩
  | stored ht _ =>
    rw [viewLevels_cons_of_ne_view (by rw [ht]; decide)]
    exact ⟨.nil, rfl⟩
  | view ht hc _ hsource ih =>
    obtain ⟨computed, conditions, _, hconditions, rfl⟩ := viewSource_ok hsource
    have hrealizes := compileFilters_realizes hconditions
    rw [viewLevels_cons_of_view ht hc]
    constructor
    · exact List.rel_append ih.1 (.cons hrealizes .nil)
    · rw [List.flatten_append, List.flatMap_append, ← ih.2, List.flatten_singleton,
        ← hrealizes.params]
      simp [Source.fragments, paramsOf, paramsOf_append, paramsOf_selectFragments]

variable {σ : Type} {resolve : Option (Resolver (StateM σ))} {fuel : Nat} {d : Dataset} {s s' : σ}

/-- The source of a query has a preview too. -/
theorem compilePreview_of_compileQuery {r : QueryRequest} {q : Statement}
    (h : compileQuery resolve fuel r d s = (.ok q, s')) (limit : Int) :
    ∃ p, compilePreview resolve fuel d limit s = (.ok p, s') := by
  obtain ⟨columns, s₁, hcolumns, h⟩ := run_bind_eq_ok h
  obtain ⟨source, s₂, hsource, h⟩ := run_bind_eq_ok h
  obtain ⟨conditions, s₃, hconditions, h⟩ := run_bind_eq_ok h
  obtain ⟨_, rfl⟩ := Prod.mk.inj hcolumns
  obtain ⟨_, rfl⟩ := Prod.mk.inj hconditions
  obtain ⟨_, rfl⟩ := Prod.mk.inj h
  refine ⟨.select { columns := [.star], source, limit := .int limit }, ?_⟩
  rw [compilePreview, run_bind_of_ok hsource]
  rfl

theorem params_of_select (select : Select) :
    (Statement.select select).params = paramsOf select.source.fragments ++
      paramsOf (select.conditions.map Predicate.fragments).flatten ++ [select.limit] := by
  rw [Statement.params_eq, Statement.fragments, Select.fragments, paramsOf_selectFragments]
  rfl

/-- A query binds the values of the filters of the views below it, from the view next to the ground
outwards, then the values of its own filters, and last its limit, which is 100 if it has none. On
each level the conditions stand for the filters in their order, one for each that is no empty
choice. The preview of the dataset binds the same values of views, and its own limit. -/
theorem values_are_bound_from_ground_outwards {r : QueryRequest} {q : Statement}
    (h : compileQuery resolve fuel r d s = (.ok q, s')) :
    ∃ chain select limit, ViewChain resolve s d chain ∧ q = .select select ∧
      q.params = (viewLevels (d :: chain)).flatten.flatMap Filter.boundValues ++
        r.filters.flatMap Filter.boundValues ++ [.int limit] ∧
      (r.limit = none → limit = 100) ∧ (∀ n, r.limit = some n → n ≠ 0 → limit = n) ∧
      List.Forall₂ Realizes select.levels (viewLevels (d :: chain) ++ [r.filters]) ∧
      ∀ n, ∃ p, compilePreview resolve fuel d n s = (.ok p, s') ∧
        p.params =
          (viewLevels (d :: chain)).flatten.flatMap Filter.boundValues ++ [.int n] := by
  obtain ⟨columns, chain, source, conditions, _, hchain, hsource, hconditions, rfl⟩ :=
    compileQuery_ok h
  obtain ⟨hlevels, hparams⟩ := hsource.binds
  have hrealizes := compileFilters_realizes hconditions
  refine ⟨chain, _, (r.limit.filter (· != 0)).getD defaultLimit, hchain, rfl, ?_, ?_, ?_, ?_, ?_⟩
  · rw [params_of_select, hparams, hrealizes.params]
  · intro hlimit
    rw [hlimit]
    rfl
  · intro n hlimit hn
    rw [hlimit, Option.filter_some_pos (by simpa using hn), Option.getD_some]
  · exact List.rel_append hlevels (.cons hrealizes .nil)
  · intro n
    obtain ⟨p, hp⟩ := compilePreview_of_compileQuery h n
    obtain ⟨chain', source', hchain', hsource', rfl⟩ := compilePreview_ok hp
    obtain rfl := hchain.unique hchain'
    refine ⟨_, hp, ?_⟩
    rw [params_of_select, hsource'.binds.2]
    simp [paramsOf]

end Chains

theorem values_are_bound_from_ground_outwards_through_two_views :
    let table : Dataset :=
      { id := "t", userId := "u", name := "t", displayName := "t", type := .table
        tableConfig := some { datasourceId := "s", tableName := "sales" }
        createdAt := Time.Moment.start2024, updatedAt := Time.Moment.start2024 }
    let view (id base : String) (filters : List Filter) : Dataset :=
      { table with
        id, type := .view, tableConfig := none
        viewConfig := some { baseDatasetId := base, filters } }
    let inner := view "v" "t"
      [⟨"year", "between", .list [.int 2020, .int 2024]⟩, ⟨"kind", "in", .list []⟩]
    let outer := view "w" "v" [⟨"note", "is_null", .text "x"⟩, ⟨"city", "contains", .int 7⟩]
    let request : QueryRequest :=
      { measures := ["total"]
        filters := [⟨"region", "in", .list [.text "N", .text "S"]⟩, ⟨"price", "gt", .int 5⟩] }
    let resolve : Option (Resolver (StateM Unit)) :=
      some fun id => pure (if id = "v" then inner else table)
    ∃ q p, compileQuery resolve 4 request outer () = (.ok q, ()) ∧
      q.params = [.int 2020, .int 2024, .text "%7%", .text "N", .text "S", .int 5, .int 100] ∧
      compilePreview resolve 4 outer 20 () = (.ok p, ()) ∧
      p.params = [.int 2020, .int 2024, .text "%7%", .int 20] := by
  intro table view inner outer request resolve
  have hchain : ViewChain resolve () outer [inner, table] :=
    .view rfl rfl rfl rfl (.view rfl rfl rfl rfl (.ground (by decide)))
  have hq : ∃ q, compileQuery resolve 4 request outer () = (.ok q, ()) := ⟨_, rfl⟩
  obtain ⟨q, hq⟩ := hq
  obtain ⟨chain, select, limit, hchain', rfl, hparams, hlimit, _, _, hpreview⟩ :=
    values_are_bound_from_ground_outwards hq
  obtain rfl := hchain.unique hchain'
  obtain rfl := hlimit rfl
  obtain ⟨p, hp, hpreviewed⟩ := hpreview 20
  exact ⟨_, p, hq, hparams, hp, hpreviewed⟩

end Query

end DatasetCatalog
