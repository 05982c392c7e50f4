import DatasetCatalog.Proofs.Service.Authority

/-!
# Plans

What is demanded of a dataset has a plan: the datasource and the statement that the datasets tell as
they are stored. Following views through any resolver that finds what is stored gives that plan.
-/

namespace DatasetCatalog.Service

open Cache Query Store

variable {ε : Type}

/-- What rows are demanded: of which dataset, and which of them. -/
inductive Demand where
  | preview (id : String) (limit : Int)
  | query (id : String) (request : QueryRequest)
  | sql (id text : String)

namespace Demand

def id : Demand → String
  | .preview id _ | .query id _ | .sql id _ => id

/-- The tags under which the rows are kept. -/
def tags : Demand → List String
  | .preview id _ => [datasetTag id, previewTag]
  | .query id _ | .sql id _ => [datasetTag id, queryTag]

/-- The key under which the rows are kept. -/
def key : Demand → Except Error String
  | .preview id limit => .ok (previewKey id limit)
  | .query id r => (requestHash r).map (queryKey id)
  | .sql id text => ((sqlHash text).mapError .broken).map (queryKey id)

/-- The statement that gets the rows, over bases that the resolver finds. -/
def statement (demand : Demand) (resolve : String → Run ε Dataset) (fuel : Nat) (d : Dataset) :
    Run ε Statement :=
  match demand with
  | .preview _ limit => compilePreview (some resolve) fuel d limit
  | .query _ r => compileQuery (some resolve) fuel r d
  | .sql _ text => return .free text

/-- The datasource and the statement by which the rows are got, as the datasets are stored. -/
def plan (demand : Demand) : Run ε (Datasource × Statement) := do
  let d ← load demand.id
  let statement ← demand.statement load (← chainBound) d
  return (← datasourceFor load d, statement)

end Demand

/-- The dataset of the second id is one that the views of the first lead to. -/
inductive Below (r : Repository) (id : String) : String → Prop
  | base {d : Dataset} {c : ViewConfig} : r.find? id = .ok (some d) → d.type = .view →
    d.viewConfig = some c → Below r id c.baseDatasetId
  | next {other : String} {d : Dataset} {c : ViewConfig} : Below r id other →
    r.find? other = .ok (some d) → d.type = .view → d.viewConfig = some c →
    Below r id c.baseDatasetId

section Grounds
variable {d : Dataset} {seen : List String}

/-- The source of a dataset that is no view depends on nothing else. -/
theorem exists_compileSource_ground (h : d.id ∉ seen) (ht : d.type ≠ .view) :
    ∃ a, ∀ (resolve : String → Run ε Dataset) (fuel : Nat) (w : World ε),
      (compileSource (some resolve) (fuel + 1) seen d : Run ε Source) w = (a, w) := by
  have hseen : seen.contains d.id = false := by simpa using h
  cases htype : d.type with
  | table =>
    cases hc : d.tableConfig with
    | none =>
      refine ⟨.error (.refused (.unsupportedType .table)), fun resolve fuel w => ?_⟩
      simp only [compileSource, hseen, Bool.false_eq_true, if_false, htype, hc]
      rfl
    | some c =>
      refine ⟨tableSource c, fun resolve fuel w => ?_⟩
      simp only [compileSource, hseen, Bool.false_eq_true, if_false, htype, hc]
      rfl
  | sql =>
    cases hc : d.sqlConfig with
    | none =>
      refine ⟨.error (.refused (.unsupportedType .sql)), fun resolve fuel w => ?_⟩
      simp only [compileSource, hseen, Bool.false_eq_true, if_false, htype, hc]
      rfl
    | some c =>
      refine ⟨.ok (.stored (storedSql c.sql)), fun resolve fuel w => ?_⟩
      simp only [compileSource, hseen, Bool.false_eq_true, if_false, htype, hc]
      rfl
  | view => exact absurd htype ht

end Grounds

/-- What the resolver finds of the ids that are `reached`, the other world stores. -/
structure Mirrors (resolve : String → Run ε Dataset) (P : World ε → Prop) (reached : String → Prop)
    (v : World ε) : Prop where
  found : ∀ {id : String} {w w' : World ε} {d : Dataset}, P w → reached id →
    resolve id w = (.ok d, w') → P w' ∧ v.repository.find? id = .ok (some d)
  onward : ∀ {id : String} {d : Dataset} {c : ViewConfig}, reached id →
    v.repository.find? id = .ok (some d) → d.type = .view → d.viewConfig = some c →
    reached c.baseDatasetId
  datasources : ∀ {w : World ε}, P w → ∀ id,
    w.repository.datasource? id = v.repository.datasource? id

section Mirroring
variable {resolve : String → Run ε Dataset} {P : World ε → Prop} {reached : String → Prop}
  {v w w' : World ε} {fuel : Nat} {seen : List String} {d : Dataset}

theorem load_eq_ok {id : String} (h : v.repository.find? id = .ok (some d)) :
    load id v = (.ok d, v) := by
  rw [load_apply, readDataset_eq_ok.mpr h]

/-- The source that is found through the resolver is the one that is stored. -/
theorem compileSource_mirrored (hm : Mirrors resolve P reached v) (hw : P w)
    (hd : ∀ c, d.type = .view → d.viewConfig = some c → reached c.baseDatasetId) {source : Source}
    (h : (compileSource (some resolve) fuel seen d : Run ε Source) w = (.ok source, w')) :
    P w' ∧ (compileSource (some load) fuel seen d : Run ε Source) v = (.ok source, v) := by
  induction fuel generalizing seen d w source with
  | zero => cases h
  | succ fuel ih =>
    by_cases hmet : d.id ∈ seen
    · rw [compileSource_repeated hmet] at h
      cases h
    by_cases ht : d.type = .view
    · cases hc : d.viewConfig with
      | none =>
        have hseen : seen.contains d.id = false := by simpa using hmet
        simp only [compileSource, hseen, Bool.false_eq_true, if_false, ht, hc] at h
        cases h
      | some c =>
        have hreached := hd c ht hc
        rw [compileSource_view hmet ht hc] at h ⊢
        rcases hbase : resolve c.baseDatasetId w with ⟨_ | base, w₁⟩
        · rw [hbase] at h
          cases h
        obtain ⟨hw₁, hstored⟩ := hm.found hw hreached hbase
        rw [hbase] at h
        simp only at h
        rcases hrest :
          (compileSource (some resolve) fuel (d.id :: seen) base : Run ε Source) w₁ with
          ⟨_ | below, w₂⟩
        · rw [hrest] at h
          cases h
        rw [hrest] at h
        obtain ⟨hsource, rfl⟩ := Prod.mk.inj h
        obtain ⟨hw₂, hbelow⟩ := ih hw₁ (fun c' => hm.onward hreached hstored) hrest
        refine ⟨hw₂, ?_⟩
        rw [load_eq_ok hstored]
        simp only [hbelow, hsource]
    · obtain ⟨a, ha⟩ := exists_compileSource_ground (ε := ε) hmet ht
      obtain ⟨rfl, rfl⟩ := Prod.mk.inj ((ha resolve fuel w).symm.trans h)
      exact ⟨hw, ha load fuel v⟩

/-- The datasource that is found through the resolver is the one that is stored. -/
theorem datasourceAlong_mirrored (hm : Mirrors resolve P reached v) (hw : P w)
    (hd : ∀ c, d.type = .view → d.viewConfig = some c → reached c.baseDatasetId) {start : String}
    {datasource : Datasource}
    (h : datasourceAlong resolve start fuel seen d w = (.ok datasource, w')) :
    P w' ∧ datasourceAlong load start fuel seen d v = (.ok datasource, v) := by
  induction fuel generalizing seen d w with
  | zero => cases h
  | succ fuel ih =>
    by_cases hmet : d.id ∈ seen
    · rw [datasourceAlong_repeated hmet] at h
      cases h
    cases hid : d.datasourceId with
    | some id =>
      rw [datasourceAlong_ground hmet hid] at h ⊢
      obtain ⟨hread, rfl⟩ := Prod.mk.inj h
      have hsource := (hm.datasources hw id).symm.trans (readDatasource_eq_ok.mp hread)
      exact ⟨hw, by rw [readDatasource_eq_ok.mpr hsource]⟩
    | none =>
      have hseen : seen.contains d.id = false := by simpa using hmet
      cases ht : d.type with
      | view =>
        cases hc : d.viewConfig with
        | none =>
          simp only [datasourceAlong, hseen, Bool.false_eq_true, if_false, hid, ht, hc] at h
          cases h
        | some c =>
          have hreached := hd c ht hc
          rw [datasourceAlong_view hmet hid ht hc] at h ⊢
          rcases hbase : resolve c.baseDatasetId w with ⟨_ | base, w₁⟩
          · rw [hbase] at h
            cases h
          obtain ⟨hw₁, hstored⟩ := hm.found hw hreached hbase
          rw [hbase] at h
          rw [load_eq_ok hstored]
          exact ih hw₁ (fun c' => hm.onward hreached hstored) h
      | _ =>
        simp only [datasourceAlong, hseen, Bool.false_eq_true, if_false, hid, ht] at h
        cases h

end Mirroring

section Fuel
variable {resolve : String → Run ε Dataset} {w w' : World ε} {fuel fuel' : Nat}
  {seen : List String} {d g : Dataset} {visited : List Dataset} {ending : WalkEnd}

/-- As much fuel as the walk is long gives the source that any fuel gives. -/
theorem Walk.compileSource_eq (hwalk : Walk resolve seen w d visited ending w')
    (hend : ending = .ground g) (hfuel : visited.length ≤ fuel') {source : Source} {w'' : World ε}
    (h : (compileSource (some resolve) fuel seen d : Run ε Source) w = (.ok source, w'')) :
    (compileSource (some resolve) fuel' seen d : Run ε Source) w = (.ok source, w'') := by
  induction hwalk generalizing fuel fuel' source w'' with
  | repeated _ => cases hend
  | ground hnew ht =>
    obtain ⟨n, rfl⟩ := Nat.exists_eq_add_one.mpr hfuel
    cases fuel with
    | zero => cases h
    | succ fuel =>
      obtain ⟨a, ha⟩ := exists_compileSource_ground (ε := ε) hnew ht
      rw [ha] at h ⊢
      exact h
  | failed _ _ _ _ => cases hend
  | next hnew ht hc hbase _ ih =>
    obtain ⟨n, rfl⟩ := Nat.exists_eq_add_one.mpr (Nat.zero_lt_of_lt hfuel)
    cases fuel with
    | zero => cases h
    | succ fuel =>
      rw [compileSource_view hnew ht hc, hbase] at h ⊢
      simp only at h ⊢
      rcases hrest : (compileSource (some resolve) fuel _ _ : Run ε Source) _ with ⟨_ | below, w₂⟩
      · rw [hrest] at h
        cases h
      · rw [hrest] at h
        rw [ih hend (Nat.le_of_succ_le_succ hfuel) hrest]
        exact h

theorem Walk.datasourceAlong_eq (hwalk : Walk resolve seen w d visited ending w')
    (hvalid : ∀ v ∈ visited, v.Configured) (hend : ending = .ground g)
    (hfuel : visited.length ≤ fuel') {start : String} {datasource : Datasource} {w'' : World ε}
    (h : datasourceAlong resolve start fuel seen d w = (.ok datasource, w'')) :
    datasourceAlong resolve start fuel' seen d w = (.ok datasource, w'') := by
  induction hwalk generalizing fuel fuel' with
  | repeated _ => cases hend
  | ground hnew ht =>
    obtain ⟨n, rfl⟩ := Nat.exists_eq_add_one.mpr hfuel
    obtain ⟨id, hid⟩ := (hvalid _ List.mem_cons_self).datasourceId_of_ne_view ht
    cases fuel with
    | zero => cases h
    | succ fuel =>
      rw [datasourceAlong_ground hnew hid] at h ⊢
      exact h
  | failed _ _ _ _ => cases hend
  | next hnew ht hc hbase _ ih =>
    obtain ⟨n, rfl⟩ := Nat.exists_eq_add_one.mpr (Nat.zero_lt_of_lt hfuel)
    have hd := (hvalid _ List.mem_cons_self).datasourceId_of_view ht
    cases fuel with
    | zero => cases h
    | succ fuel =>
      rw [datasourceAlong_view hnew hd ht hc, hbase] at h ⊢
      exact ih (fun v hv => hvalid v (List.mem_cons_of_mem _ hv)) hend
        (Nat.le_of_succ_le_succ hfuel) h

end Fuel

/-- The bound on ways along views that a plan is made with. -/
def World.bound (w : World ε) : Nat := w.repository.datasets.size + w.cache.entries.length + 2

theorem length_visited_le {w w' : World ε} {d : Dataset} {visited : List Dataset}
    {ending : WalkEnd} (hwalk : Walk load [] w d visited ending w') :
    visited.length ≤ w.bound := by
  have hlength := hwalk.length_le (load_looksUp w.repository) rfl
  have hsize := w.repository.datasets.length_readable_le
  unfold World.bound
  omega

section Planning
variable {resolve : String → Run ε Dataset} {P : World ε → Prop} {reached : String → Prop}
  {v w w' : World ε} {fuel : Nat} {d : Dataset} {demand : Demand}

theorem compileSource_stored (hm : Mirrors resolve P reached v) (hv : v.Agrees) (hw : P w)
    (hd : d.Configured)
    (hbases : ∀ c, d.type = .view → d.viewConfig = some c → reached c.baseDatasetId)
    {source : Source}
    (h : (compileSource (some resolve) fuel [] d : Run ε Source) w = (.ok source, w')) :
    P w' ∧ (compileSource (some load) v.bound [] d : Run ε Source) v = (.ok source, v) := by
  obtain ⟨hw', hstored⟩ := compileSource_mirrored hm hw hbases h
  obtain ⟨visited, g, hwalk⟩ := Walk.of_compileSource
    (fun _ => DatasetStore.configured_of_mem_readable hv.inOrder) (load_looksUp v.repository) rfl
    hd hstored
  exact ⟨hw', hwalk.compileSource_eq rfl (length_visited_le hwalk) hstored⟩

theorem datasourceFor_stored (hm : Mirrors resolve P reached v) (hv : v.Agrees) (hw : P w)
    (hd : d.Configured)
    (hbases : ∀ c, d.type = .view → d.viewConfig = some c → reached c.baseDatasetId)
    {datasource : Datasource} (h : datasourceFor resolve d w = (.ok datasource, w')) :
    datasourceFor load d v = (.ok datasource, v) := by
  have halong : datasourceAlong resolve d.id _ [] d w = (.ok datasource, w') := h
  obtain ⟨_, hstored⟩ := datasourceAlong_mirrored hm hw hbases halong
  obtain ⟨visited, g, hwalk⟩ := Walk.of_datasourceAlong
    (fun _ => DatasetStore.configured_of_mem_readable hv.inOrder) (load_looksUp v.repository) rfl
    hd hstored
  have hvalid : ∀ u ∈ visited, u.Configured := by
    intro u hu
    rcases hwalk.mem_store (load_looksUp v.repository) rfl u hu with rfl | hu
    · exact hd
    · exact DatasetStore.configured_of_mem_readable hv.inOrder hu
  exact hwalk.datasourceAlong_eq hvalid rfl (length_visited_le hwalk) hstored

theorem statement_stored (hm : Mirrors resolve P reached v) (hv : v.Agrees) (hw : P w)
    (hd : d.Configured)
    (hbases : ∀ c, d.type = .view → d.viewConfig = some c → reached c.baseDatasetId)
    {statement : Statement} (h : demand.statement resolve fuel d w = (.ok statement, w')) :
    P w' ∧ demand.statement load v.bound d v = (.ok statement, v) := by
  cases demand with
  | preview id limit =>
    obtain ⟨source, w₁, hsource, h⟩ := run_bind_eq_ok h
    cases h
    obtain ⟨hw₁, hstored⟩ := compileSource_stored hm hv hw hd hbases hsource
    refine ⟨hw₁, ?_⟩
    rw [Demand.statement, compilePreview, Run.bind_apply, hstored]
    rfl
  | query id r =>
    obtain ⟨columns, w₁, hcolumns, h⟩ := run_bind_eq_ok h
    obtain ⟨hselected, rfl⟩ := Prod.mk.inj hcolumns
    obtain ⟨source, w₂, hsource, h⟩ := run_bind_eq_ok h
    obtain ⟨conditions, w₃, hconditions, h⟩ := run_bind_eq_ok h
    obtain ⟨hfilters, rfl⟩ := Prod.mk.inj hconditions
    cases h
    obtain ⟨hw₂, hstored⟩ := compileSource_stored hm hv hw hd hbases hsource
    refine ⟨hw₂, ?_⟩
    rw [Demand.statement, compileQuery, hselected, hfilters]
    change ((compileSource (some load) v.bound [] d : Run ε Source) >>= _) v = _
    rw [Run.bind_apply, hstored]
    rfl
  | sql id text =>
    cases h
    exact ⟨hw, rfl⟩

/-- What is compiled and chosen through the resolver is the plan. -/
theorem plan_stored (hm : Mirrors resolve P reached v) (hv : v.Agrees)
    (hfind : v.repository.find? demand.id = .ok (some d))
    (hbases : ∀ c, d.type = .view → d.viewConfig = some c → reached c.baseDatasetId) (hw : P w)
    {statement : Statement} (h : demand.statement resolve fuel d w = (.ok statement, w'))
    {datasource : Datasource} {w'' : World ε}
    (h' : datasourceFor resolve d w' = (.ok datasource, w'')) :
    demand.plan v = (.ok (datasource, statement), v) := by
  have hd := DatasetStore.configured_of_find? hv.inOrder hfind
  obtain ⟨hw', hstatement⟩ := statement_stored hm hv hw hd hbases h
  have hdatasource := datasourceFor_stored hm hv hw' hd hbases h'
  have hbound : (chainBound : Run ε Nat) v = (.ok v.bound, v) := rfl
  simp only [Demand.plan, Run.bind_apply, load_eq_ok hfind, hbound, hstatement, hdatasource,
    Run.pure_apply]

/-- A user's calls follow what is stored. -/
theorem getDataset_mirrors (userId : String) (v : World ε) :
    Mirrors (getDataset userId) v.AtRest (fun _ => True) v where
  found := by
    intro id w w' d hw _ hget
    obtain ⟨hrest, hfound⟩ := getDataset_cases userId id hw.agrees hget
    obtain ⟨hfind, _⟩ := hfound d rfl
    exact ⟨hw.trans hrest, hw.repository ▸ hfind⟩
  onward := fun _ _ _ _ => trivial
  datasources := fun hw id => by rw [hw.repository]

/-- Where a dataset and those below it are stored as before, its plan is as before. -/
theorem plan_unchanged (hv : v.Agrees)
    (hsame : ∀ id, id = demand.id ∨ Below v.repository demand.id id →
      w.repository.find? id = v.repository.find? id)
    (hsources : ∀ id, w.repository.datasource? id = v.repository.datasource? id)
    {p : Datasource × Statement} (h : demand.plan w = (.ok p, w)) :
    demand.plan v = (.ok p, v) := by
  have hm : Mirrors load (· = w) (Below v.repository demand.id) v :=
    { found := by
        rintro id _ w' d rfl hbelow hload
        rw [load_apply] at hload
        obtain ⟨hread, rfl⟩ := Prod.mk.inj hload
        exact ⟨rfl, hsame id (.inr hbelow) ▸ readDataset_eq_ok.mp hread⟩
      onward := fun hbelow hfind ht hc => .next hbelow hfind ht hc
      datasources := by
        rintro _ rfl
        exact hsources }
  obtain ⟨d, w₁, hload, h⟩ := run_bind_eq_ok h
  rw [load_apply] at hload
  obtain ⟨hread, rfl⟩ := Prod.mk.inj hload
  have hfind : v.repository.find? demand.id = .ok (some d) :=
    hsame demand.id (.inl rfl) ▸ readDataset_eq_ok.mp hread
  obtain ⟨bound, w₂, hbound, h⟩ := run_bind_eq_ok h
  obtain ⟨_, rfl⟩ := Prod.mk.inj hbound
  obtain ⟨statement, w₃, hstatement, h⟩ := run_bind_eq_ok h
  obtain ⟨datasource, w₄, hdatasource, h⟩ := run_bind_eq_ok h
  cases h
  exact plan_stored hm hv hfind (fun c ht hc => .base hfind ht hc) rfl hstatement hdatasource

end Planning

end DatasetCatalog.Service
