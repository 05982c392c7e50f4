import Mathlib.Data.List.Nodup
import DatasetCatalog.Proofs.Query.ViewChain
import DatasetCatalog.Proofs.Service.Confinement
import DatasetCatalog.Proofs.Store.Validity

/-!
# Walks along views

Compiling a source and finding a datasource follow the views of a dataset separately. Over datasets
that are in order both take one and the same walk, which ends because no dataset is met twice.
-/

namespace DatasetCatalog

namespace Query

/-- The table or stored SQL that a source reads in the end. -/
def Source.innermost : Source → Source
  | .view base _ _ => base.innermost
  | s => s

theorem innermost_of_viewSource {c : ViewConfig} {base source : Source}
    (h : viewSource c base = .ok source) : source.innermost = base.innermost := by
  obtain ⟨_, _, _, _, rfl⟩ := viewSource_ok h
  rfl

theorem innermost_of_tableSource {c : TableConfig} {source : Source}
    (h : tableSource c = .ok source) : source.innermost = source := by
  obtain ⟨rfl, _, _⟩ := tableSource_ok h
  rfl

end Query

namespace Service

open Query

variable {ε : Type}

/-- How a walk along views ends: with an id that came up before, with a look-up that fails, or at
a dataset that is no view. -/
inductive WalkEnd where
  | repeated (id : String)
  | failed (e : Error)
  | ground (d : Dataset)

/-- The walk from a dataset past those of the ids `seen`: the datasets that it visits, how it ends,
and what the resolver has made of the world by then. -/
inductive Walk (resolve : String → Run ε Dataset) :
    List String → World ε → Dataset → List Dataset → WalkEnd → World ε → Prop
  | repeated {seen : List String} {w : World ε} {d : Dataset} : d.id ∈ seen →
    Walk resolve seen w d [] (.repeated d.id) w
  | ground {seen : List String} {w : World ε} {d : Dataset} : d.id ∉ seen → d.type ≠ .view →
    Walk resolve seen w d [d] (.ground d) w
  | failed {seen : List String} {w w' : World ε} {d : Dataset} {c : ViewConfig} {e : Error} :
    d.id ∉ seen → d.type = .view → d.viewConfig = some c →
    resolve c.baseDatasetId w = (.error e, w') → Walk resolve seen w d [d] (.failed e) w'
  | next {seen : List String} {w w' w'' : World ε} {d base : Dataset} {c : ViewConfig}
      {visited : List Dataset} {ending : WalkEnd} :
    d.id ∉ seen → d.type = .view → d.viewConfig = some c →
    resolve c.baseDatasetId w = (.ok base, w') →
    Walk resolve (d.id :: seen) w' base visited ending w'' →
    Walk resolve seen w d (d :: visited) ending w''

/-- In these worlds the resolver finds nothing but datasets of the store, and it leaves such a
world behind. -/
structure LooksUp (resolve : String → Run ε Dataset) (store : List Dataset)
    (P : World ε → Prop) : Prop where
  found : ∀ {id : String} {w w' : World ε} {d : Dataset}, P w → resolve id w = (.ok d, w') →
    d ∈ store ∧ P w'

theorem load_looksUp (r : Store.Repository) :
    LooksUp (load (ε := ε)) r.datasets.readable fun w => w.repository = r where
  found := by
    rintro id w w' d rfl h
    rw [load_apply] at h
    obtain ⟨hread, rfl⟩ := Prod.mk.inj h
    exact ⟨Store.DatasetStore.mem_readable_of_find? (readDataset_eq_ok.mp hread), rfl⟩

namespace Walk
variable {resolve : String → Run ε Dataset} {seen : List String} {w w' : World ε} {d : Dataset}
  {visited : List Dataset} {ending : WalkEnd}

/-- No id is visited twice. -/
theorem nodup (h : Walk resolve seen w d visited ending w') :
    (visited.map (·.id)).Nodup ∧ ∀ v ∈ visited, v.id ∉ seen := by
  induction h with
  | repeated _ => exact ⟨List.nodup_nil, fun v hv => absurd hv List.not_mem_nil⟩
  | ground hnew _ => exact ⟨List.nodup_singleton _, by simpa using hnew⟩
  | failed hnew _ _ _ => exact ⟨List.nodup_singleton _, by simpa using hnew⟩
  | next hnew _ _ _ _ ih =>
    obtain ⟨hnodup, hfresh⟩ := ih
    constructor
    · rw [List.map_cons, List.nodup_cons]
      refine ⟨?_, hnodup⟩
      -- the id is among those seen from the next dataset on
      intro hmem
      obtain ⟨v, hv, hid⟩ := List.mem_map.mp hmem
      apply hfresh v hv
      rw [hid]
      exact List.mem_cons_self
    · intro v hv
      rcases List.mem_cons.mp hv with rfl | hv
      · exact hnew
      · exact fun hmem => hfresh v hv (List.mem_cons_of_mem _ hmem)

theorem mem_store {store : List Dataset} {P : World ε → Prop} (hresolve : LooksUp resolve store P)
    (hw : P w) (h : Walk resolve seen w d visited ending w') :
    ∀ v ∈ visited, v = d ∨ v ∈ store := by
  induction h with
  | repeated _ => exact fun v hv => absurd hv List.not_mem_nil
  | ground _ _ => exact fun v hv => .inl (List.mem_singleton.mp hv)
  | failed _ _ _ _ => exact fun v hv => .inl (List.mem_singleton.mp hv)
  | next _ _ _ hbase _ ih =>
    obtain ⟨hstore, hw'⟩ := hresolve.found hw hbase
    intro v hv
    rcases List.mem_cons.mp hv with rfl | hv
    · exact .inl rfl
    · rcases ih hw' v hv with rfl | hv
      · exact .inr hstore
      · exact .inr hv

/-- A walk visits its start and datasets of the store, each at most once. -/
theorem length_le {store : List Dataset} {P : World ε → Prop} (hresolve : LooksUp resolve store P)
    (hw : P w) (h : Walk resolve seen w d visited ending w') :
    visited.length ≤ store.length + 1 := by
  have hsub : visited.map (·.id) ⊆ d.id :: store.map (·.id) := by
    intro id hid
    obtain ⟨v, hv, rfl⟩ := List.mem_map.mp hid
    rcases h.mem_store hresolve hw v hv with rfl | hv
    · exact List.mem_cons_self
    · exact List.mem_cons_of_mem _ (List.mem_map_of_mem hv)
  have hle := List.Nodup.length_le_of_subset h.nodup.1 hsub
  simpa only [List.length_map, List.length_cons] using hle

theorem getLast?_of_ground {g : Dataset} (h : Walk resolve seen w d visited ending w')
    (hg : ending = .ground g) : visited.getLast? = some g := by
  induction h with
  | repeated _ => cases hg
  | ground _ _ =>
    cases hg
    rfl
  | failed _ _ _ _ => cases hg
  | next _ _ _ _ _ ih => rw [List.getLast?_cons, ih hg, Option.getD_some]

end Walk

section Existence
variable {resolve : String → Run ε Dataset} {store : List Dataset} {P : World ε → Prop}

/-- Over a finite store every walk ends. The induction is on the ids that are still to be met. -/
theorem exists_walk (hvalid : ∀ d ∈ store, d.Configured) (hresolve : LooksUp resolve store P)
    (start : String) (n : Nat) {seen : List String} {d : Dataset} {w : World ε} (hw : P w)
    (hd : d.Configured) (hid : d.id ∈ start :: store.map (·.id)) (hnodup : seen.Nodup)
    (hseen : seen ⊆ start :: store.map (·.id)) (hn : store.length + 2 ≤ seen.length + n) :
    ∃ visited ending w', Walk resolve seen w d visited ending w' := by
  induction n generalizing seen d w with
  | zero =>
    have hle := List.Nodup.length_le_of_subset hnodup hseen
    simp only [List.length_cons, List.length_map] at hle
    omega
  | succ n ih =>
    by_cases hmet : d.id ∈ seen
    · exact ⟨_, _, _, .repeated hmet⟩
    cases hd with
    | table ht _ _ => exact ⟨_, _, _, .ground hmet (by rw [ht]; decide)⟩
    | sql ht _ _ _ => exact ⟨_, _, _, .ground hmet (by rw [ht]; decide)⟩
    | @view c ht _ _ hc =>
      rcases hbase : resolve c.baseDatasetId w with ⟨_ | base, w'⟩
      · exact ⟨_, _, _, .failed hmet ht hc hbase⟩
      · obtain ⟨hstore, hw'⟩ := hresolve.found hw hbase
        have hnodup' : (d.id :: seen).Nodup := List.nodup_cons.mpr ⟨hmet, hnodup⟩
        obtain ⟨visited, ending, w'', hrest⟩ := ih hw' (hvalid base hstore)
          (List.mem_cons_of_mem _ (List.mem_map_of_mem hstore)) hnodup'
          (List.cons_subset.mpr ⟨hid, hseen⟩) (by rw [List.length_cons]; omega)
        exact ⟨_, _, _, .next hmet ht hc hbase hrest⟩

end Existence

/-- What compiling a source comes to at the end of the walk. At a ground either the source reads
that ground, or a definition on the way is at fault. -/
def WalkEnd.Compiled : WalkEnd → Except Error Source → Prop
  | .repeated id, a => a = .error (.refused (.viewCycle id))
  | .failed e, a => a = .error e
  | .ground _, .error e => e.FaultsDefinition
  | .ground g, .ok source => Compiles g [] source.innermost

/-- What looking a datasource up comes to. -/
def readDatasource (r : Store.Repository) (id : String) : Except Error Datasource :=
  match r.datasource? id with
  | .ok (some source) => .ok source
  | .ok none => .error (.datasourceNotFound id)
  | .error e => .error e

theorem readDatasource_eq_ok {r : Store.Repository} {id : String} {source : Datasource} :
    readDatasource r id = .ok source ↔ r.datasource? id = .ok (some source) := by
  unfold readDatasource
  split <;> rename_i h <;> simp [h]

/-- What finding a datasource comes to at the end of the walk; at a ground it is the ground's. -/
def WalkEnd.Chosen (r : Store.Repository) : WalkEnd → Except Error Datasource → Prop
  | .repeated id, b => b = .error (.refused (.viewCycle id))
  | .failed e, b => b = .error e
  | .ground g, b => ∃ id, g.datasourceId = some id ∧ b = readDatasource r id

section Following
variable {resolve : String → Run ε Dataset} {fuel : Nat} {seen : List String} {w w' : World ε}
  {d : Dataset} {c : ViewConfig} {start : String}

/-- A dataset that is no view has a source by itself, unless its definition is at fault. -/
theorem compileSource_ground (h : d.id ∉ seen) (hd : d.Configured) (ht : d.type ≠ .view) :
    ∃ a, (compileSource (some resolve) (fuel + 1) seen d : Run ε Source) w = (a, w) ∧
      (WalkEnd.ground d).Compiled a := by
  have hseen : seen.contains d.id = false := by simpa using h
  cases hd with
  | @table c ht' hc _ =>
    refine ⟨tableSource c, ?_, ?_⟩
    · simp only [compileSource, hseen, Bool.false_eq_true, if_false, ht', hc]
      rfl
    · cases hs : tableSource c with
      | error e => exact tableSource_faults hs
      | ok source =>
        have hcompiles : Compiles d [] source := .table ht' hc hs
        rwa [WalkEnd.Compiled, innermost_of_tableSource hs]
  | @sql c ht' _ hc _ =>
    refine ⟨.ok (.stored (storedSql c.sql)), ?_, .stored ht' hc⟩
    simp only [compileSource, hseen, Bool.false_eq_true, if_false, ht', hc]
    rfl
  | view ht' _ _ _ => exact absurd ht' ht

theorem datasourceAlong_repeated (h : d.id ∈ seen) :
    datasourceAlong resolve start (fuel + 1) seen d w =
      (.error (.refused (.viewCycle d.id)), w) := by
  have hseen : seen.contains d.id = true := List.contains_iff_mem.mpr h
  simp only [datasourceAlong, hseen, if_true]
  rfl

theorem datasourceAlong_view (h : d.id ∉ seen) (hd : d.datasourceId = none) (ht : d.type = .view)
    (hc : d.viewConfig = some c) :
    datasourceAlong resolve start (fuel + 1) seen d w =
      match resolve c.baseDatasetId w with
      | (.error e, w') => (.error e, w')
      | (.ok base, w') => datasourceAlong resolve start fuel (d.id :: seen) base w' := by
  have hseen : seen.contains d.id = false := by simpa using h
  simp only [datasourceAlong, hseen, Bool.false_eq_true, if_false, hd, ht, hc, Run.bind_apply]
  rcases resolve c.baseDatasetId w with ⟨_ | base, w'⟩ <;> rfl

theorem datasourceAlong_ground (h : d.id ∉ seen) {id : String} (hd : d.datasourceId = some id) :
    datasourceAlong resolve start (fuel + 1) seen d w = (readDatasource w.repository id, w) := by
  have hseen : seen.contains d.id = false := by simpa using h
  simp only [datasourceAlong, hseen, Bool.false_eq_true, if_false, hd, Run.bind_apply,
    Run.get_apply, Run.ofExcept_apply, readDatasource]
  rcases w.repository.datasource? id with e | _ | source <;> rfl

end Following

/-- A view over what compiles is compiled over it, or is at fault itself. -/
theorem WalkEnd.Compiled.view {ending : WalkEnd} {source : Source}
    (h : ending.Compiled (.ok source)) (c : ViewConfig) : ending.Compiled (viewSource c source) := by
  cases ending with
  | repeated id => cases h
  | failed e => cases h
  | ground g =>
    cases hs : viewSource c source with
    | error e => exact viewSource_faults hs
    | ok above =>
      change Compiles g [] above.innermost
      rw [innermost_of_viewSource hs]
      exact h

namespace Walk
variable {resolve : String → Run ε Dataset} {fuel : Nat} {seen : List String} {w w' : World ε}
  {d : Dataset} {visited : List Dataset} {ending : WalkEnd}

theorem compiled (h : Walk resolve seen w d visited ending w')
    (hvalid : ∀ v ∈ visited, v.Configured) (hfuel : visited.length < fuel) :
    ∃ a, (compileSource (some resolve) fuel seen d : Run ε Source) w = (a, w') ∧
      ending.Compiled a := by
  induction h generalizing fuel with
  | repeated hmet =>
    obtain ⟨n, rfl⟩ := Nat.exists_eq_add_one.mpr hfuel
    exact ⟨_, compileSource_repeated hmet, rfl⟩
  | ground hnew ht =>
    obtain ⟨n, rfl⟩ := Nat.exists_eq_add_one.mpr (Nat.zero_lt_of_lt hfuel)
    exact compileSource_ground hnew (hvalid _ List.mem_cons_self) ht
  | failed hnew ht hc hfailed =>
    obtain ⟨n, rfl⟩ := Nat.exists_eq_add_one.mpr (Nat.zero_lt_of_lt hfuel)
    refine ⟨_, ?_, rfl⟩
    rw [compileSource_view hnew ht hc, hfailed]
  | next hnew ht hc hbase _ ih =>
    obtain ⟨n, rfl⟩ := Nat.exists_eq_add_one.mpr (Nat.zero_lt_of_lt hfuel)
    obtain ⟨a, ha, hend⟩ := ih (fun v hv => hvalid v (List.mem_cons_of_mem _ hv))
      (Nat.lt_of_succ_lt_succ hfuel)
    rw [compileSource_view hnew ht hc, hbase]
    simp only [ha]
    cases a with
    | error e => exact ⟨_, rfl, hend⟩
    | ok source => exact ⟨_, rfl, hend.view _⟩

theorem chosen (h : Walk resolve seen w d visited ending w')
    (hvalid : ∀ v ∈ visited, v.Configured) (hfuel : visited.length < fuel) (start : String) :
    ∃ b, datasourceAlong resolve start fuel seen d w = (b, w') ∧
      ending.Chosen w'.repository b := by
  induction h generalizing fuel with
  | repeated hmet =>
    obtain ⟨n, rfl⟩ := Nat.exists_eq_add_one.mpr hfuel
    exact ⟨_, datasourceAlong_repeated hmet, rfl⟩
  | ground hnew ht =>
    obtain ⟨n, rfl⟩ := Nat.exists_eq_add_one.mpr (Nat.zero_lt_of_lt hfuel)
    obtain ⟨id, hid⟩ := (hvalid _ List.mem_cons_self).datasourceId_of_ne_view ht
    exact ⟨_, datasourceAlong_ground hnew hid, id, hid, rfl⟩
  | failed hnew ht hc hfailed =>
    obtain ⟨n, rfl⟩ := Nat.exists_eq_add_one.mpr (Nat.zero_lt_of_lt hfuel)
    have hd := (hvalid _ List.mem_cons_self).datasourceId_of_view ht
    refine ⟨_, ?_, rfl⟩
    rw [datasourceAlong_view hnew hd ht hc, hfailed]
  | next hnew ht hc hbase _ ih =>
    obtain ⟨n, rfl⟩ := Nat.exists_eq_add_one.mpr (Nat.zero_lt_of_lt hfuel)
    have hd := (hvalid _ List.mem_cons_self).datasourceId_of_view ht
    obtain ⟨b, hb, hend⟩ := ih (fun v hv => hvalid v (List.mem_cons_of_mem _ hv))
      (Nat.lt_of_succ_lt_succ hfuel)
    refine ⟨b, ?_, hend⟩
    rw [datasourceAlong_view hnew hd ht hc, hbase]
    exact hb

end Walk

section Succeeding
variable {resolve : String → Run ε Dataset} {store : List Dataset} {P : World ε → Prop}

/-- A source that is compiled has walked to a ground. -/
theorem Walk.of_compileSource (hvalid : ∀ v ∈ store, v.Configured)
    (hresolve : LooksUp resolve store P) {fuel : Nat} {seen : List String} {w w' : World ε}
    {d : Dataset} (hw : P w) (hd : d.Configured) {source : Source}
    (h : (compileSource (some resolve) fuel seen d : Run ε Source) w = (.ok source, w')) :
    ∃ visited g, Walk resolve seen w d visited (.ground g) w' := by
  induction fuel generalizing seen d w source with
  | zero => cases h
  | succ fuel ih =>
    by_cases hmet : d.id ∈ seen
    · rw [compileSource_repeated hmet] at h
      cases h
    by_cases ht : d.type = .view
    · obtain ⟨c, hc⟩ := hd.exists_viewConfig ht
      rw [compileSource_view hmet ht hc] at h
      rcases hbase : resolve c.baseDatasetId w with ⟨_ | base, w₁⟩
      · rw [hbase] at h
        cases h
      obtain ⟨hstore, hw₁⟩ := hresolve.found hw hbase
      rw [hbase] at h
      simp only at h
      rcases hrest : (compileSource (some resolve) fuel (d.id :: seen) base : Run ε Source) w₁ with
        ⟨_ | below, w₂⟩
      · rw [hrest] at h
        cases h
      rw [hrest] at h
      obtain ⟨_, rfl⟩ := Prod.mk.inj h
      obtain ⟨visited, g, hwalk⟩ := ih hw₁ (hvalid base hstore) hrest
      exact ⟨_, g, .next hmet ht hc hbase hwalk⟩
    · obtain ⟨a, ha, _⟩ := compileSource_ground hmet hd ht
      obtain ⟨_, rfl⟩ := Prod.mk.inj (ha.symm.trans h)
      exact ⟨_, d, .ground hmet ht⟩

/-- A datasource that is found was found at a ground. -/
theorem Walk.of_datasourceAlong (hvalid : ∀ v ∈ store, v.Configured)
    (hresolve : LooksUp resolve store P) {start : String} {fuel : Nat} {seen : List String}
    {w w' : World ε} {d : Dataset} (hw : P w) (hd : d.Configured) {datasource : Datasource}
    (h : datasourceAlong resolve start fuel seen d w = (.ok datasource, w')) :
    ∃ visited g, Walk resolve seen w d visited (.ground g) w' := by
  induction fuel generalizing seen d w with
  | zero => cases h
  | succ fuel ih =>
    by_cases hmet : d.id ∈ seen
    · rw [datasourceAlong_repeated hmet] at h
      cases h
    by_cases ht : d.type = .view
    · obtain ⟨c, hc⟩ := hd.exists_viewConfig ht
      rw [datasourceAlong_view hmet (hd.datasourceId_of_view ht) ht hc] at h
      rcases hbase : resolve c.baseDatasetId w with ⟨_ | base, w₁⟩
      · rw [hbase] at h
        cases h
      obtain ⟨hstore, hw₁⟩ := hresolve.found hw hbase
      rw [hbase] at h
      obtain ⟨visited, g, hwalk⟩ := ih hw₁ (hvalid base hstore) h
      exact ⟨_, g, .next hmet ht hc hbase hwalk⟩
    · obtain ⟨id, hid⟩ := hd.datasourceId_of_ne_view ht
      rw [datasourceAlong_ground hmet hid] at h
      obtain ⟨_, rfl⟩ := Prod.mk.inj h
      exact ⟨_, d, .ground hmet ht⟩

end Succeeding

/-- Over a finite store of datasets that are in order, compiling a source and finding a datasource
take one walk: the same datasets in the same order, none twice, so both come to an end. Both fail
alike at an id that comes up again and at a look-up that fails. Otherwise the walk ends at a dataset
that is no view; then the datasource is that dataset's, if it is there, and the source reads that
dataset in the end, if no name or filter on the way is at fault. -/
theorem source_and_datasource_take_one_walk {resolve : String → Run ε Dataset}
    {store : List Dataset} {P : World ε → Prop} (hvalid : ∀ v ∈ store, v.complaint? = none)
    (hresolve : LooksUp resolve store P) {d : Dataset} (hd : d.complaint? = none) {w : World ε}
    (hw : P w) (start : String) {fuel fuel' : Nat} (hfuel : store.length + 2 ≤ fuel)
    (hfuel' : store.length + 2 ≤ fuel') :
    ∃ visited ending w' a b, Walk resolve [] w d visited ending w' ∧
      (visited.map (·.id)).Nodup ∧
      (compileSource (some resolve) fuel [] d : Run ε Source) w = (a, w') ∧ ending.Compiled a ∧
      datasourceAlong resolve start fuel' [] d w = (b, w') ∧ ending.Chosen w'.repository b ∧
      ∀ source datasource, a = .ok source → b = .ok datasource →
        ∃ g id, visited.getLast? = some g ∧ Compiles g [] source.innermost ∧
          g.datasourceId = some id ∧ w'.repository.datasource? id = .ok (some datasource) := by
  have hconfigured : ∀ v ∈ store, v.Configured := fun v hv =>
    Dataset.configured_of_complaint? (hvalid v hv)
  have hstart := Dataset.configured_of_complaint? hd
  obtain ⟨visited, ending, w', hwalk⟩ := exists_walk hconfigured hresolve d.id (store.length + 2)
    hw hstart List.mem_cons_self List.nodup_nil (List.nil_subset _) (by simp)
  have hall : ∀ v ∈ visited, v.Configured := by
    intro v hv
    rcases hwalk.mem_store hresolve hw v hv with rfl | hv
    · exact hstart
    · exact hconfigured v hv
  have hlength := hwalk.length_le hresolve hw
  obtain ⟨a, ha, hcompiled⟩ := hwalk.compiled hall (by omega : visited.length < fuel)
  obtain ⟨b, hb, hchosen⟩ := hwalk.chosen hall (by omega : visited.length < fuel') start
  refine ⟨visited, ending, w', a, b, hwalk, hwalk.nodup.1, ha, hcompiled, hb, hchosen, ?_⟩
  rintro source datasource rfl rfl
  cases ending with
  | repeated id => cases hcompiled
  | failed e => cases hcompiled
  | ground g =>
    obtain ⟨id, hid, hread⟩ := hchosen
    exact ⟨g, id, hwalk.getLast?_of_ground rfl, hcompiled, hid, readDatasource_eq_ok.mp hread.symm⟩

theorem datasourceFor_apply (resolve : String → Run ε Dataset) (d : Dataset) (w : World ε) :
    datasourceFor resolve d w =
      datasourceAlong resolve d.id (w.repository.datasets.size + w.cache.entries.length + 2) [] d w :=
  rfl

/-- A view over a view over a table, as an analysis follows them within the service's own bound. -/
theorem source_and_datasource_take_one_walk_to_a_table :
    let table : Dataset :=
      { id := "t", userId := "u", name := "t", displayName := "t", type := .table
        tableConfig := some { datasourceId := "s", tableName := "sales" }
        createdAt := Time.Moment.start2024, updatedAt := Time.Moment.start2024 }
    let view (id base : String) : Dataset :=
      { table with
        id, type := .view, tableConfig := none, viewConfig := some { baseDatasetId := base } }
    let source : Datasource := { id := "s", userId := "u", name := "s", type := .sqlite }
    let w : World Unit := World.start
      ⟨.memory [("t", table), ("v", view "v" "t"), ("w", view "w" "v")], [source]⟩ {} .inline ()
    let bound := w.repository.datasets.size + w.cache.entries.length + 2
    ∃ read chosen g id,
      (compileSource (some load) bound [] (view "w" "v") : Run Unit Source) w = (.ok read, w) ∧
      datasourceFor load (view "w" "v") w = (.ok chosen, w) ∧ Compiles g [] read.innermost ∧
      g.datasourceId = some id ∧ w.repository.datasource? id = .ok (some chosen) := by
  intro table view source w bound
  have hname : isDatasetName "t" = true := by decide
  have htable : table.complaint? = none := Dataset.complaint?_eq_none_iff.mpr ⟨hname, rfl⟩
  have hview (id base : String) : (view id base).complaint? = none :=
    Dataset.complaint?_eq_none_iff.mpr ⟨hname, rfl⟩
  have hvalid : ∀ v ∈ [table, view "v" "t", view "w" "v"], v.complaint? = none := by
    simp only [List.forall_mem_cons, List.not_mem_nil, false_imp_iff, implies_true, and_true]
    exact ⟨htable, hview _ _, hview _ _⟩
  have hbound := w.repository.datasets.length_readable_le
  have hfuel : w.repository.datasets.readable.length + 2 ≤ bound := by omega
  have hread : ∃ read, (compileSource (some load) bound [] (view "w" "v") : Run Unit Source) w =
      (.ok read, w) := ⟨_, rfl⟩
  have hchosen : ∃ chosen, datasourceFor load (view "w" "v") w = (.ok chosen, w) := ⟨_, rfl⟩
  obtain ⟨read, hread⟩ := hread
  obtain ⟨chosen, hchosen⟩ := hchosen
  obtain ⟨_, _, _, _, _, _, _, ha, _, hb, _, hboth⟩ := source_and_datasource_take_one_walk hvalid
    (load_looksUp w.repository) (hview "w" "v") (w := w) rfl "w" hfuel hfuel
  obtain ⟨rfl, rfl⟩ := Prod.mk.inj (ha.symm.trans hread)
  obtain ⟨rfl, _⟩ :=
    Prod.mk.inj (hb.symm.trans ((datasourceFor_apply load _ w).symm.trans hchosen))
  obtain ⟨g, id, _, hg, hid, hfound⟩ := hboth read chosen rfl rfl
  exact ⟨read, chosen, g, id, hread, hchosen, hg, hid, hfound⟩

end Service

end DatasetCatalog
