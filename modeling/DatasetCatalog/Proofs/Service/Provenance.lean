import DatasetCatalog.Proofs.Service.Demands
import DatasetCatalog.Proofs.Service.Fetching

/-!
# Where rows come from

Rows that are held were computed by a call that came before, and the dataset that they were
demanded of has not changed since. So rows that are served from the cache answer the demand for
which they are served; and they are what its plan would get, unless a base below the dataset has
changed.
-/

namespace DatasetCatalog.Service

open Cache Query Store

variable {ε : Type}

/-- The operations that were performed on the way to a world, each with the world before it. Between
them jobs are run, datasets are analysed, the cache is swept, and time passes. -/
inductive History (h : Host ε) :
    List (World (ε × List Execution) × Operation) → World (ε × List Execution) → Prop
  | start {r : Repository} (empty : r.datasets = .emptyMemory ∨ r.datasets = .emptyRows)
      (settings : Settings) (background : Background) (surroundings : ε) :
    History h [] (World.start r settings background (surroundings, []))
  | perform {past w} {o : Operation} : History h past w → o.WasRead →
    History h (past ++ [(w, o)]) (perform h.recorded o w).2
  | analyse {past w} (id : String) : History h past w → History h past (analyse h.recorded id w).2
  | runNextJob {past w} : History h past w → History h past (runNextJob h.recorded w).2
  | cleanup {past w} : History h past w →
    History h past { w with cache := (w.cache.cleanup w.clock).2 }
  | passes {past w} (clock : Float) (now : Time.Moment) (freshId : String) (surroundings : ε) :
    History h past w →
    History h past { w with clock, now, freshId, surroundings := (surroundings, w.surroundings.2) }

theorem History.reachable {h : Host ε} {past : List (World (ε × List Execution) × Operation)}
    {w : World (ε × List Execution)} (hw : History h past w) : w.Reachable h.recorded := by
  induction hw with
  | start empty settings background surroundings => exact .start empty _ _ _
  | perform _ ho ih => exact .perform ih ho
  | analyse id _ ih => exact .analyse id ih
  | runNextJob _ ih => exact .runNextJob ih
  | cleanup _ ih => exact .cleanup ih
  | @passes _ w clock now freshId surroundings _ ih =>
    exact .passes clock now freshId w.repository.datasources (surroundings, w.surroundings.2) ih

/-- Performed in the world `before`, the operation answers with the rows `v`, which it gets without
fault by the plan of its demand, as the result of the one execution `e`. -/
structure Computes (h : Host ε) (before : World (ε × List Execution)) (o : Operation)
    (demand : Demand) (e : Execution) (v : Cached) : Prop where
  demanded : o.demand? before.settings = some demand
  planned : demand.plan before = (.ok (e.source, e.statement), before)
  executed : (perform h.recorded o before).2.surroundings.2 = before.surroundings.2 ++ [e]
  returned : ∃ result, h.Returns e result ∧ v.rows = result.rows
  answered : given Answer.rows? (perform h.recorded o before).1 = some v
  faultless : v.errors = []

/-- The dataset of the id is stored as it was, and the datasources are the same. -/
structure World.Alike (id : String) (w w' : World ε) : Prop where
  dataset : ∃ d, w.repository.find? id = .ok (some d) ∧ w'.repository.find? id = .ok (some d)
  datasources : ∀ other, w'.repository.datasource? other = w.repository.datasource? other

/-- An earlier call computed the rows that are held under a key, and kept them under its tags. -/
def Origin (h : Host ε) (past : List (World (ε × List Execution) × Operation))
    (w : World (ε × List Execution)) (key : String) (v : Cached) (tags : List String) : Prop :=
  ∃ before o demand e, (before, o) ∈ past ∧ Computes h before o demand e v ∧
    demand.key = .ok key ∧ tags = demand.tags ∧ before.Alike demand.id w

theorem Demand.datasetTag_mem_tags (demand : Demand) : datasetTag demand.id ∈ demand.tags := by
  cases demand <;> exact List.mem_cons_self

/-- What has a plan is stored. -/
theorem Demand.stored_of_plan {demand : Demand} {w w' : World ε} {p : Datasource × Statement}
    (h : demand.plan w = (.ok p, w')) : ∃ d, w.repository.find? demand.id = .ok (some d) := by
  obtain ⟨d, w₁, hload, _⟩ := run_bind_eq_ok h
  rw [load_apply] at hload
  exact ⟨d, readDataset_eq_ok.mp (Prod.mk.inj hload).1⟩

theorem Operation.isUpkeep_or_reads (o : Operation) :
    o.IsUpkeep ∨ ∃ userId id, o.Reads userId id := by
  cases o with
  | preview userId id limit timeoutMs => exact .inr ⟨userId, id, .preview limit timeoutMs⟩
  | query userId id request timeoutMs => exact .inr ⟨userId, id, .query request timeoutMs⟩
  | runSql userId id sql timeoutMs => exact .inr ⟨userId, id, .runSql sql timeoutMs⟩
  | ask userId id question pipeline => exact .inr ⟨userId, id, .ask question pipeline⟩
  | _ => exact .inl trivial

theorem Operation.reads_of_demand? {o : Operation} {settings : Settings} {demand : Demand}
    (h : o.demand? settings = some demand) : ∃ userId id, o.Reads userId id := by
  rcases o.isUpkeep_or_reads with hupkeep | hreads
  · cases o with
    | create | update | delete | get | refresh | search => cases h
    | _ => exact hupkeep.elim
  · exact hreads

theorem isRows_of_given {a : Except Error Answer} {v : Cached}
    (h : given Answer.rows? a = some v) : v.IsRows := by
  rintro d rfl
  rcases a with e | answer
  · cases h
  change answer.rows? = _ at h
  unfold Answer.rows? at h
  split at h
  · cases h
  · cases h
  · obtain ⟨_, _, h⟩ := Option.map_eq_some_iff.mp h
    cases h
  · cases h

section Origins
variable {h : Host ε} {past past' : List (World (ε × List Execution) × Operation)}
  {w w' : World (ε × List Execution)} {key : String} {v : Cached} {tags : List String}

/-- Rows keep their origin as long as their dataset is as it was. -/
theorem Origin.mono (ho : Origin h past w key v tags) (hpast : ∀ call ∈ past, call ∈ past')
    (hsources : ∀ id, w'.repository.datasource? id = w.repository.datasource? id)
    (hsame : ∀ id d, datasetTag id ∈ tags → w.repository.find? id = .ok (some d) →
      w'.repository.find? id = .ok (some d)) : Origin h past' w' key v tags := by
  obtain ⟨before, o, demand, e, hmem, hcomputes, hkey, rfl, ⟨d, hd, hd'⟩, hds⟩ := ho
  refine ⟨before, o, demand, e, hpast _ hmem, hcomputes, hkey, rfl, ⟨d, hd, ?_⟩, ?_⟩
  · exact hsame _ d demand.datasetTag_mem_tags hd'
  · exact fun id => (hsources id).trans (hds id)

theorem Origin.same_repository (ho : Origin h past w key v tags)
    (hpast : ∀ call ∈ past, call ∈ past') (hr : w'.repository = w.repository) :
    Origin h past' w' key v tags :=
  ho.mono hpast (fun _ => by rw [hr]) fun _ _ _ hfind => hr ▸ hfind

/-- All rows that are held have an origin. -/
def Traced (h : Host ε) (past : List (World (ε × List Execution) × Operation))
    (w : World (ε × List Execution)) : Prop :=
  ∀ key v tags, v.IsRows → w.cache.Holds key v tags → Origin h past w key v tags

theorem Traced.carried (ht : Traced h past w) (hpast : ∀ call ∈ past, call ∈ past')
    (hw : w.Carried w') : Traced h past' w' := by
  intro key v tags hv held
  obtain ⟨held', hsame⟩ := hw.rows hv held
  exact (ht key v tags hv held').mono hpast hw.datasources hsame

/-- Rows that are fetched have the call that fetches them for their origin. -/
theorem Traced.fetched (ht : Traced h past w) {o : Operation}
    (hf : (perform h.recorded o).Fetches h (o.demand? w.settings) Answer.rows? w w) :
    Traced h (past ++ [(w, o)]) (perform h.recorded o w).2 := by
  have hpast : ∀ call ∈ past, call ∈ past ++ [(w, o)] := fun _ => List.mem_append_left _
  unfold Run.Fetches at hf
  generalize hgiven : given Answer.rows? (perform h.recorded o w).1 = rows at hf
  cases hf with
  | nothing hrest => exact ht.carried hpast hrest.carried
  | kept _ _ _ hrest _ => exact ht.carried hpast hrest.carried
  | failed hran _ =>
    intro key v tags hv held
    rcases hran.rows hv held with held | hnone
    · exact (ht key v tags hv held).same_repository hpast hran.repository
    · exact hnone.elim
  | got hdemand hkey hplan hreturns hrows hran =>
    intro key v tags hv held
    rcases hran.rows hv held with held | ⟨rfl, rfl, rfl⟩
    · exact (ht key v tags hv held).same_repository hpast hran.repository
    obtain ⟨d, hd⟩ := Demand.stored_of_plan hplan
    refine ⟨w, o, _, _, List.mem_append_right _ (List.mem_singleton_self _),
      ⟨hdemand, hplan, hran.log, ⟨_, hreturns, hrows.2⟩, hgiven, hrows.1⟩, hkey, rfl,
      ⟨d, hd, ?_⟩, ?_⟩
    · rw [hran.repository]
      exact hd
    · intro other
      rw [hran.repository]

end Origins

section Histories
variable {h : Host ε} (hh : h.Confined)
  {past : List (World (ε × List Execution) × Operation)} {w : World (ε × List Execution)}
include hh

theorem History.agrees (hw : History h past w) : w.Agrees := hw.reachable.agrees hh.recorded

/-- In every world that is reached, the rows that are held have an origin. -/
theorem History.traced (hw : History h past w) : Traced h past w := by
  induction hw with
  | start empty settings background surroundings =>
    rintro key v tags _ ⟨e, he, _⟩
    cases he
  | @perform past w o hw ho ih =>
    have hagrees := hw.agrees hh
    rcases o.isUpkeep_or_reads with hupkeep | ⟨userId, id, hreads⟩
    · exact ih.carried (fun _ => List.mem_append_left _)
        (perform_carries hh.recorded ho hupkeep w hagrees)
    · exact ih.fetched (perform_fetches hh userId id hagrees hreads)
  | analyse id hw ih =>
    exact ih.carried (fun _ hm => hm) (analyse_carries hh.recorded id _ (hw.agrees hh))
  | runNextJob hw ih =>
    exact ih.carried (fun _ hm => hm) (runNextJob_carries hh.recorded _ (hw.agrees hh))
  | @cleanup _ w hw ih =>
    exact ih.carried (fun _ hm => hm)
      ((hw.agrees hh).atRest (Store.fades_cleanup w.cache w.clock).holds).carried
  | passes clock now freshId surroundings hw ih =>
    exact fun key v tags hv held => (ih key v tags hv held).same_repository (fun _ hm => hm) rfl

/-- Rows that a call gives, it gets in an execution by its plan, or they were held and have an
origin. -/
theorem rows_cases (hw : History h past w) {o : Operation} {demand : Demand} {v : Cached}
    (hdemand : o.demand? w.settings = some demand)
    (hgiven : given Answer.rows? (perform h.recorded o w).1 = some v) :
    (∃ e, (perform h.recorded o w).2.surroundings.2 = w.surroundings.2 ++ [e] ∧
      (v.errors = [] → Computes h w o demand e v)) ∨
    ∃ key tags, demand.key = .ok key ∧ (∃ p, demand.plan w = (.ok p, w)) ∧
      Origin h past w key v tags := by
  obtain ⟨userId, id, hreads⟩ := Operation.reads_of_demand? hdemand
  have hf := perform_fetches hh userId id (hw.agrees hh) hreads
  unfold Run.Fetches at hf
  rw [hgiven, hdemand] at hf
  cases hf with
  | kept hd hkey hplan _ hheld =>
    cases hd
    have horigin := hw.traced hh _ v _ (isRows_of_given hgiven) hheld
    exact .inr ⟨_, _, hkey, ⟨_, hplan⟩, horigin⟩
  | failed hran hfaulty => exact .inl ⟨_, hran.log, fun hv => absurd hv (hfaulty v rfl)⟩
  | got hd _ hplan hreturns hrows hran =>
    cases hd
    exact .inl ⟨_, hran.log, fun hv =>
      ⟨hdemand, hplan, hran.log, ⟨_, hreturns, hrows.2⟩, hgiven, hv⟩⟩

/-- Rows without errors are those of an execution for a demand of the same key, made when the
dataset was what it is now. Where the demand was this very one, and all bases below the dataset were
what they are now, the execution was of what is the plan now. -/
theorem rows_come_of_current_definitions (hw : History h past w) {o : Operation} {demand : Demand}
    (hdemand : o.demand? w.settings = some demand) {a : Except Error Answer}
    {w' : World (ε × List Execution)} (hrun : perform h.recorded o w = (a, w')) {v : Cached}
    (hgiven : given Answer.rows? a = some v) (hv : v.errors = []) :
    ∃ before o₀ demand₀ e, (before, o₀) ∈ past ++ [(w, o)] ∧ Computes h before o₀ demand₀ e v ∧
      demand₀.key = demand.key ∧ before.Alike demand₀.id w ∧
      (∀ id limit, demand = .preview id limit → demand₀ = demand) ∧
      (demand₀ = demand →
        (∀ id, Below w.repository demand.id id →
          before.repository.find? id = w.repository.find? id) →
        demand.plan w = (.ok (e.source, e.statement), w)) := by
  have hcases := rows_cases hh hw hdemand (v := v) (by rw [hrun]; exact hgiven)
  rcases hcases with ⟨e, _, hcomputes⟩ | ⟨key, tags, hkey, _, horigin⟩
  · have hcomputed := hcomputes hv
    obtain ⟨d, hd⟩ := demand.stored_of_plan hcomputed.planned
    exact ⟨w, o, demand, e, List.mem_append_right _ (List.mem_singleton_self _), hcomputed, rfl,
      ⟨⟨d, hd, hd⟩, fun _ => rfl⟩, fun _ _ _ => rfl, fun _ _ => hcomputed.planned⟩
  · obtain ⟨before, o₀, demand₀, e, hmem, hcomputed, hkey₀, _, halike⟩ := horigin
    refine ⟨before, o₀, demand₀, e, List.mem_append_left _ hmem, hcomputed, hkey₀.trans hkey.symm,
      halike, ?_, ?_⟩
    · rintro id limit rfl
      exact eq_of_key_preview (hkey₀.trans hkey.symm)
    · rintro rfl hbelow
      refine plan_unchanged (hw.agrees hh) ?_ (fun id => (halike.datasources id).symm)
        hcomputed.planned
      rintro id (rfl | hid)
      · obtain ⟨d, hd, hd'⟩ := halike.dataset
        exact hd.trans hd'.symm
      · exact hbelow id hid

end Histories

/-- The rows of a view that is read twice are got once, by what is its plan both times. -/
theorem rows_come_of_current_definitions_for_view :
    let source : Datasource := { id := "s", userId := "u", name := "s", type := .sqlite }
    let h : Host Unit :=
      { execute := fun _ _ _ => pure { columns := ["a"], rows := [[("a", .int 1)]] }
        beforeUpdate := fun _ => pure () }
    let table : CreateRequest :=
      { name := "sales", displayName := "Sales", type := .table
        tableConfig := some { datasourceId := "s", tableName := "sales" } }
    let view : CreateRequest :=
      { name := "view", displayName := "View", type := .view
        viewConfig := some { baseDatasetId := "t" } }
    let start : World (Unit × List Execution) :=
      World.start ⟨.emptyMemory, [source]⟩ {} .queued ((), [])
    let made := (perform h.recorded (.create "u" table) { start with freshId := "t" }).2
    let viewed := (perform h.recorded (.create "u" view) { made with freshId := "v" }).2
    let reading : Operation := .preview "u" "v" (some 5) none
    let read := (perform h.recorded reading viewed).2
    let again := perform h.recorded reading read
    again.2.surroundings.2.length = 1 ∧ ∃ v before e, given Answer.rows? again.1 = some v ∧
      Computes h before reading (.preview "v" 5) e v ∧
      (Demand.preview "v" 5).plan read = (.ok (e.source, e.statement), read) := by
  intro source h table view start made viewed reading read again
  have hh : h.Confined := ⟨fun _ _ _ => World.Keeps.refl, fun _ => World.Keeps.refl⟩
  have hmade : History h [({ start with freshId := "t" }, .create "u" table)] made :=
    .perform (.passes start.clock start.now "t" () (.start (.inl rfl) _ _ _)) trivial
  have hviewed : History h [({ start with freshId := "t" }, .create "u" table),
      ({ made with freshId := "v" }, .create "u" view)] viewed :=
    .perform (.passes made.clock made.now "v" () hmade) trivial
  have hread : History h [({ start with freshId := "t" }, .create "u" table),
      ({ made with freshId := "v" }, .create "u" view), (viewed, reading)] read :=
    .perform hviewed trivial
  have hfetches := perform_fetches hh "u" "v" (hviewed.agrees hh) (.preview (some 5) none)
  have hfirst : (perform h.recorded reading viewed).2 = read := rfl
  have hrun : perform h.recorded reading read = (again.1, again.2) :=
    (Prod.mk.eta (p := again)).symm
  have hran : again.2.surroundings.2.length = 1 ∧
      (given Answer.rows? again.1).map Cached.errors = some [] ∧
      min 5 read.settings.maxQueryRows = 5 := by
    decide +kernel
  clear_value again read viewed made
  unfold Run.Fetches at hfetches
  rw [hfirst] at hfetches
  obtain ⟨hone, hfaultless, hlimit⟩ := hran
  obtain ⟨v, hgiven, hv⟩ := Option.map_eq_some_iff.mp hfaultless
  have hdemand : reading.demand? read.settings = some (.preview "v" 5) :=
    congrArg (fun limit => some (Demand.preview "v" limit)) hlimit
  obtain ⟨before, o, demand, e, hmem, hcomputes, _, _, hsame, hplan⟩ :=
    rows_come_of_current_definitions hh hread hdemand hrun hgiven hv
  cases hsame "v" 5 rfl
  simp only [List.mem_append, List.mem_cons, List.not_mem_nil, or_false, Prod.mk.injEq] at hmem
  rcases hmem with (⟨rfl, rfl⟩ | ⟨rfl, rfl⟩ | ⟨rfl, rfl⟩) | ⟨rfl, rfl⟩
  · cases hcomputes.demanded
  · cases hcomputes.demanded
  · exact ⟨hone, v, _, e, hgiven, hcomputes, hplan rfl fun _ _ => hfetches.repository ▸ rfl⟩
  · exact ⟨hone, v, _, e, hgiven, hcomputes, hplan rfl fun _ _ => rfl⟩

/-- The tag that is dropped behind a change is that of the changed dataset. So the rows of a view
are served as before when its base has been changed to another table. -/
theorem served_rows_may_outlive_base_of_view :
    let source : Datasource := { id := "s", userId := "u", name := "s", type := .sqlite }
    let h : Host Unit :=
      { execute := fun _ _ _ => pure { columns := ["a"], rows := [[("a", .int 1)]] }
        beforeUpdate := fun _ => pure () }
    let table : CreateRequest :=
      { name := "sales", displayName := "Sales", type := .table
        tableConfig := some { datasourceId := "s", tableName := "sales" } }
    let view : CreateRequest :=
      { name := "view", displayName := "View", type := .view
        viewConfig := some { baseDatasetId := "t" } }
    let changes : Document.Reading UpdateRequest :=
      ⟨{ tableConfig := some { datasourceId := "s", tableName := "orders" } },
        .object [("table_config",
          .object [("datasource_id", .text "s"), ("table_name", .text "orders")])]⟩
    let start : World (Unit × List Execution) :=
      World.start ⟨.emptyMemory, [source]⟩ {} .queued ((), [])
    let made := (perform h.recorded (.create "u" table) { start with freshId := "t" }).2
    let viewed := (perform h.recorded (.create "u" view) { made with freshId := "v" }).2
    let reading : Operation := .preview "u" "v" (some 5) none
    let read := (perform h.recorded reading viewed).2
    let changed := (perform h.recorded (.update "u" "t" changes) read).2
    let again := perform h.recorded reading changed
    (∃ past, History h past changed) ∧
      (given Answer.rows? again.1).map Cached.errors = some [] ∧
      ¬ ∃ e ∈ again.2.surroundings.2,
        (Demand.preview "v" 5).plan changed = (.ok (e.source, e.statement), changed) := by
  intro source h table view changes start made viewed reading read changed again
  have hmade : History h _ made :=
    .perform (.passes start.clock start.now "t" () (.start (.inl rfl) _ _ _)) trivial
  have hviewed : History h _ viewed :=
    .perform (.passes made.clock made.now "v" () hmade) trivial
  have hread : History h _ read := .perform hviewed trivial
  have hchanged : History h _ changed := .perform hread ⟨changes.given, rfl⟩
  have hfaultless : (given Answer.rows? again.1).map Cached.errors = some [] := by decide +kernel
  have hrecord : again.2.surroundings.2.map (·.statement.sql) =
      ["SELECT * FROM (SELECT * FROM sales) AS view_query LIMIT ?"] := by
    decide +kernel
  have hplan : ((Demand.preview "v" 5).plan changed).1.toOption.map (·.2.sql) =
      some "SELECT * FROM (SELECT * FROM orders) AS view_query LIMIT ?" := by
    decide +kernel
  refine ⟨⟨_, hchanged⟩, hfaultless, ?_⟩
  clear_value again changed
  rintro ⟨e, he, hnow⟩
  have hsales := List.mem_map_of_mem (f := fun e : Execution => e.statement.sql) he
  rw [hrecord, List.mem_singleton] at hsales
  rw [hnow] at hplan
  have horders := Option.some.inj hplan
  simp only at horders hsales
  rw [hsales] at horders
  exact absurd horders (by decide)

/-- What the calls demand. -/
def Demanded (calls : List (World (ε × List Execution) × Operation)) (demand : Demand) : Prop :=
  ∃ w o, (w, o) ∈ calls ∧ o.demand? w.settings = some demand

/-- No result with errors is held. Rows that are served without an execution were computed by an
earlier call for the same demand, if stored ids have no colon, filters have finite JSON values, and
no two texts that were digested for keys have one digest. -/
theorem served_rows_answer_their_demand {h : Host ε} (hh : h.Confined)
    {past : List (World (ε × List Execution) × Operation)} {w : World (ε × List Execution)}
    (hw : History h past w) :
    (∀ key v tags, w.cache.Holds key v tags → v.errors = []) ∧
    ∀ o demand a w' v, o.demand? w.settings = some demand → perform h.recorded o w = (a, w') →
      given Answer.rows? a = some v → w'.surroundings.2 = w.surroundings.2 →
      (∀ before o', (before, o') ∈ past ++ [(w, o)] →
        ∀ id d, before.repository.find? id = .ok (some d) → ':' ∉ id.toList) →
      (∀ demand', Demanded (past ++ [(w, o)]) demand' → demand'.IsFiniteJson) →
      Set.InjOn Digest.sha256Text
        {text | ∃ demand', Demanded (past ++ [(w, o)]) demand' ∧ demand'.Hashes text} →
      ∃ before o₀ demand₀ e, (before, o₀) ∈ past ∧ Computes h before o₀ demand₀ e v ∧
        demand₀.Same demand := by
  constructor
  · intro key v tags held
    cases v with
    | dataset d => rfl
    | preview r =>
      obtain ⟨_, _, _, _, _, hcomputes, _⟩ :=
        hw.traced hh key (.preview r) tags (fun _ hd => by cases hd) held
      exact hcomputes.faultless
    | query r =>
      obtain ⟨_, _, _, _, _, hcomputes, _⟩ :=
        hw.traced hh key (.query r) tags (fun _ hd => by cases hd) held
      exact hcomputes.faultless
  · intro o demand a w' v hdemand hrun hgiven hserved hids hfinite hdigest
    have hcases := rows_cases hh hw hdemand (v := v) (by rw [hrun]; exact hgiven)
    rcases hcases with ⟨e, hlog, _⟩ | ⟨key, tags, hkey, ⟨p, hplan⟩, horigin⟩
    · -- an execution would have been recorded
      rw [hrun] at hlog
      rw [hserved] at hlog
      exact absurd (List.self_eq_append_right.mp hlog) (List.cons_ne_nil _ _)
    obtain ⟨before, o₀, demand₀, e, hmem, hcomputed, hkey₀, _, ⟨d, hd, _⟩, _⟩ := horigin
    obtain ⟨d', hd'⟩ := demand.stored_of_plan hplan
    have hmem₀ : (before, o₀) ∈ past ++ [(w, o)] := List.mem_append_left _ hmem
    have hmem' : (w, o) ∈ past ++ [(w, o)] :=
      List.mem_append_right _ (List.mem_singleton_self _)
    have hdemanded₀ : Demanded (past ++ [(w, o)]) demand₀ := ⟨before, o₀, hmem₀, hcomputed.demanded⟩
    have hdemanded : Demanded (past ++ [(w, o)]) demand := ⟨w, o, hmem', hdemand⟩
    refine ⟨before, o₀, demand₀, e, hmem, hcomputed, ?_⟩
    exact Demand.same_of_key hkey₀ hkey (hids before o₀ hmem₀ _ d hd) (hids w o hmem' _ d' hd')
      (hfinite _ hdemanded₀) (hfinite _ hdemanded) fun text text' htext htext' hsame =>
        hdigest ⟨demand₀, hdemanded₀, htext⟩ ⟨demand, hdemanded, htext'⟩ hsame

/-- What free SQL is run as: its key holds its digest without blanks at its ends. -/
theorem runSql_eq (h : Host ε) (userId id sql : String) (timeoutMs : Option Int) :
    runSql h userId id sql timeoutMs = (do
      let d ← getDataset userId id
      let violations ← Run.ofBreakdown (Governance.sqlViolations sql (← get).settings.maxQueryRows)
      if !violations.isEmpty then
        throw (.refused (.unsafeSql (violations.map Governance.Violation.message)))
      let datasource ← datasourceFor (getDataset userId) d
      runCached h id (queryKey id ("sql:" ++ Digest.sha256Text (Text.strip sql))) datasource
        (.free sql) timeoutMs) :=
  rfl

/-- SQL with other blanks around it is served with the rows that the SQL was executed for. -/
theorem served_rows_answer_their_demand_with_other_blanks :
    let source : Datasource := { id := "s", userId := "u", name := "s", type := .sqlite }
    let h : Host Unit :=
      { execute := fun _ _ _ => pure { columns := ["a"], rows := [[("a", .int 1)]] }
        beforeUpdate := fun _ => pure () }
    let request : CreateRequest :=
      { name := "sales", displayName := "Sales", type := .table
        tableConfig := some { datasourceId := "s", tableName := "sales" } }
    let start : World (Unit × List Execution) :=
      World.start ⟨.emptyMemory, [source]⟩ {} .queued ((), [])
    let first : Operation := .runSql "u" "t" "SELECT 1 LIMIT 5" none
    let made := (perform h.recorded (.create "u" request) { start with freshId := "t" }).2
    let read := (perform h.recorded first made).2
    let again := perform h.recorded (.runSql "u" "t" " SELECT 1 LIMIT 5 " none) read
    again.2.surroundings.2.length = 1 ∧ ∃ v e, given Answer.rows? again.1 = some v ∧
      Computes h made first (.sql "t" "SELECT 1 LIMIT 5") e v := by
  intro source h request start first made read again
  have hh : h.Confined := ⟨fun _ _ _ => World.Keeps.refl, fun _ => World.Keeps.refl⟩
  have hmade : History h [({ start with freshId := "t" }, .create "u" request)] made :=
    .perform (.passes start.clock start.now "t" () (.start (.inl rfl) _ _ _)) trivial
  have hread : History h [({ start with freshId := "t" }, .create "u" request), (made, first)]
      read :=
    .perform hmade trivial
  have hfetches := perform_fetches hh "u" "t" (hmade.agrees hh) (.runSql "SELECT 1 LIMIT 5" none)
  have hfirst : (perform h.recorded first made).2 = read := rfl
  have hrun : perform h.recorded (.runSql "u" "t" " SELECT 1 LIMIT 5 " none) read = again := rfl
  have hstrip : Text.strip " SELECT 1 LIMIT 5 " = Text.strip "SELECT 1 LIMIT 5" := by decide +kernel
  -- the two runs have one digest, which is computed once
  have hdigested : Digest.sha256Text (Text.strip "SELECT 1 LIMIT 5") =
      "0e6a8bb1638fb419a0240e749a5fe15ac82fea666a376f676313c16474c47371" := by
    decide +kernel
  have hstored : made.repository.datasets.readable.map Dataset.id = ["t"] := by decide +kernel
  have hcreated : (perform h.recorded (.create "u" request) { start with freshId := "t" }).2 =
      made := rfl
  clear_value again read made
  have hran : again.2.surroundings.2.length = 1 ∧ read.surroundings.2.length = 1 ∧
      (given Answer.rows? again.1).isSome := by
    rw [← hrun, ← hfirst, ← hcreated]
    simp only [first, perform, runSql_eq, hstrip, hdigested]
    decide +kernel
  unfold Run.Fetches at hfetches
  rw [hfirst] at hfetches
  obtain ⟨hone, hone', hsome⟩ := hran
  obtain ⟨v, hv⟩ := Option.isSome_iff_exists.mp hsome
  have hserved : again.2.surroundings.2 = read.surroundings.2 := by
    have hf := perform_fetches hh "u" "t" (hread.agrees hh) (.runSql " SELECT 1 LIMIT 5 " none)
    unfold Run.Fetches at hf
    rw [hrun] at hf
    exact hf.log_eq (hone.trans hone'.symm)
  have hids : ∀ id d, made.repository.find? id = .ok (some d) → ':' ∉ id.toList := by
    intro id d hfind
    have hid := DatasetStore.id_of_find? (hmade.agrees hh).keepsIds hfind
    have hmem := List.mem_map_of_mem (f := Dataset.id) (DatasetStore.mem_readable_of_find? hfind)
    rw [hstored, List.mem_singleton, hid] at hmem
    rw [hmem]
    decide
  let calls : List (World (Unit × List Execution) × Operation) :=
    [({ start with freshId := "t" }, .create "u" request), (made, first),
      (read, .runSql "u" "t" " SELECT 1 LIMIT 5 " none)]
  have hdemanded : ∀ demand, Demanded calls demand →
      demand = .sql "t" "SELECT 1 LIMIT 5" ∨ demand = .sql "t" " SELECT 1 LIMIT 5 " := by
    rintro demand ⟨before, o, hmem, hdemand⟩
    simp only [calls, List.mem_cons, List.not_mem_nil, or_false, Prod.mk.injEq] at hmem
    rcases hmem with ⟨rfl, rfl⟩ | ⟨rfl, rfl⟩ | ⟨rfl, rfl⟩ <;> cases hdemand
    · exact .inl rfl
    · exact .inr rfl
  have hplain : ∀ before o, (before, o) ∈ calls →
      ∀ id d, before.repository.find? id = .ok (some d) → ':' ∉ id.toList := by
    intro before o hmem id d hfind
    simp only [calls, List.mem_cons, List.not_mem_nil, or_false, Prod.mk.injEq] at hmem
    rcases hmem with ⟨rfl, rfl⟩ | ⟨rfl, rfl⟩ | ⟨rfl, rfl⟩
    · cases hfind
    · exact hids id d hfind
    · exact hids id d (hfetches.repository ▸ hfind)
  have hfinite : ∀ demand, Demanded calls demand → demand.IsFiniteJson := by
    intro demand hdemand
    rcases hdemanded demand hdemand with rfl | rfl <;> trivial
  have hdigest : Set.InjOn Digest.sha256Text
      {text | ∃ demand, Demanded calls demand ∧ demand.Hashes text} := by
    rintro text ⟨demand, hdemand, htext⟩ text' ⟨demand', hdemand', htext'⟩ _
    rcases hdemanded demand hdemand with rfl | rfl <;>
      rcases hdemanded demand' hdemand' with rfl | rfl <;>
      cases htext <;> cases htext'
    · rfl
    · exact hstrip.symm
    · exact hstrip
    · rfl
  obtain ⟨_, hsource⟩ := served_rows_answer_their_demand hh hread
  obtain ⟨before, o, demand, e, hmem, hcomputes, _⟩ :=
    hsource _ (.sql "t" " SELECT 1 LIMIT 5 ") _ _ v rfl (hrun.trans (Prod.mk.eta (p := again)).symm)
      hv hserved hplain hfinite hdigest
  simp only [List.mem_cons, List.not_mem_nil, or_false, Prod.mk.injEq] at hmem
  rcases hmem with ⟨rfl, rfl⟩ | ⟨rfl, rfl⟩ <;> cases hcomputes.demanded
  exact ⟨hone, v, e, hv, hcomputes⟩

end DatasetCatalog.Service
