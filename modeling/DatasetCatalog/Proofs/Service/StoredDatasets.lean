import Mathlib.Logic.Relation
import DatasetCatalog.Proofs.Model.Encoding
import DatasetCatalog.Proofs.Service.Interruptions
import DatasetCatalog.Proofs.Service.ViewWalk
import DatasetCatalog.Proofs.Store.Readability

/-!
# Stored datasets are valid

Whoever writes into a repository, the service or someone past it, what comes to be kept was read
from a document as a whole. So every stored dataset is valid, and following its views ends at a
source and a datasource, or for a reason that has nothing to do with its configuration.
-/

namespace DatasetCatalog

/-- The configuration is the one of the type, the settings of fields go with their roles, and tags
and score are within their bounds. -/
structure Dataset.Valid (d : Dataset) : Prop where
  table : d.tableConfig.isSome ↔ d.type = .table
  sql : d.sqlConfig.isSome ↔ d.type = .sql
  view : d.viewConfig.isSome ↔ d.type = .view
  fields : ∀ f ∈ d.fields, f.Valid
  tags : d.tags.length ≤ 20
  qualityScore : ∀ score, d.qualityScore = some score → 0 ≤ score ∧ score ≤ 100

/-- The only configuration that is there is the one of the type. -/
theorem Dataset.isSome_iff_of_configured {d : Dataset} (h : d.configured = [d.type]) :
    (d.tableConfig.isSome ↔ d.type = .table) ∧ (d.sqlConfig.isSome ↔ d.type = .sql) ∧
      (d.viewConfig.isSome ↔ d.type = .view) := by
  unfold Dataset.configured at h
  cases ht : d.tableConfig <;> cases hs : d.sqlConfig <;> cases hv : d.viewConfig <;>
    cases hd : d.type <;> simp [ht, hs, hv, hd] at h ⊢

theorem Dataset.InOrder.valid {d : Dataset} (hd : d.InOrder) : d.Valid := by
  have hparts := hd.parts
  simp only [Dataset.parts, List.forall_mem_cons, List.not_mem_nil, false_imp_iff,
    implies_true, and_true] at hparts
  obtain ⟨-, -, -, -, -, -, -, -, -, hfields, -, -, htags, -, hscore, -, -, -, -, -, -⟩ := hparts
  obtain ⟨htable, hsql, hview⟩ :=
    Dataset.isSome_iff_of_configured (Dataset.complaint?_eq_none_iff.mp hd.complaint?).2
  refine ⟨htable, hsql, hview, fun f hf => Field.complaint?_eq_none_iff.mp (hfields f hf),
    htags.2, fun score h => ?_⟩
  obtain ⟨⟨_, hlow⟩, hhigh⟩ := hscore score h
  exact ⟨Int.not_lt.mp (of_decide_eq_false hlow), Int.not_lt.mp (of_decide_eq_false hhigh)⟩

namespace Store.DatasetStore
variable {s : DatasetStore} {d : Dataset} {P : Dataset → Prop}

theorem stores_of_mem_readable (h : d ∈ s.readable) : Stores d s := by
  cases s with
  | memory datasets =>
    obtain ⟨e, he, rfl⟩ := List.mem_map.mp h
    exact .memory he
  | rows kept =>
    obtain ⟨row, hrow, hread⟩ := List.mem_filterMap.mp h
    cases hdataset : row.dataset with
    | error e =>
      rw [hdataset] at hread
      cases hread
    | ok found =>
      rw [hdataset] at hread
      cases hread
      exact .read hrow hdataset

theorem All.valid (hs : s.All P) : s.All Dataset.Valid := by
  cases s with
  | memory datasets => exact fun e he => ⟨(hs e he).1, (hs e he).1.valid⟩
  | rows kept =>
    intro row hrow
    obtain ⟨d, hmirrors, hd, _⟩ := hs row hrow
    exact ⟨d, hmirrors, hd, hd.valid⟩

end Store.DatasetStore

namespace Service

open Query Store

variable {ε : Type}

/-- One step of a world: an operation of the service, an analysis, a job, the upkeep of the cache,
or a write into the repository past the service. Between them time passes, and datasources come and
go. What is created has been read from a document; a patch may state whatever it likes. -/
inductive World.Moves (h : Host ε) : World ε → World ε → Prop
  | perform {w : World ε} {o : Operation} : o.WasRead → Moves h w (perform h o w).2
  | analyse (w : World ε) (id : String) : Moves h w (analyse h id w).2
  | runNextJob (w : World ε) : Moves h w (runNextJob h w).2
  | cleanup (w : World ε) : Moves h w { w with cache := (w.cache.cleanup w.clock).2 }
  | passes (w : World ε) (clock : Float) (now : Time.Moment) (freshId : String)
      (datasources : List Datasource) (surroundings : ε) :
    Moves h w
      { w with clock, now, freshId, surroundings, repository := { w.repository with datasources } }
  | creates {w : World ε} {defaults : Defaults} {entries : List (String × Value)} {d : Dataset}
      {r : Repository} : Dataset.ofDocument defaults entries = .ok d →
    w.repository.create d = .ok r → Moves h w { w with repository := r }
  | patches {w : World ε} {id : String} {patch : List (String × Value)} {now : Time.Moment}
      {updated : Option Dataset} {r : Repository} :
    w.repository.update id patch now = .ok (updated, r) → Moves h w { w with repository := r }
  | deletes {w : World ε} {id : String} {deleted : Bool} {r : Repository} :
    w.repository.delete id = .ok (deleted, r) → Moves h w { w with repository := r }

/-- While a statement runs, the host is at its surroundings, or the world goes on moving, with
hosts for which the same holds. -/
inductive Host.Interleaved : Host ε → Prop
  | confined {h : Host ε} : h.Confined → Interleaved h
  | moving {h h' : Host ε} : Interleaved h' →
    (∀ source statement timeoutMs,
      (h.execute source statement timeoutMs).Within (Relation.ReflTransGen (World.Moves h'))) →
    (∀ id, (h.beforeUpdate id).Confined) → Interleaved h

/-- The worlds to which moves lead from one with an empty repository. -/
def World.Arises (h : Host ε) (w : World ε) : Prop :=
  ∃ r settings background surroundings, (r.datasets = .emptyMemory ∨ r.datasets = .emptyRows) ∧
    Relation.ReflTransGen (World.Moves h) (World.start r settings background surroundings) w

theorem preserved_valid : Preserved Repository.Valid := fun _ _ hwritten => hwritten.valid

section Moving
variable {h : Host ε} {w w' : World ε}

/-- Every single move leaves the datasets in order. -/
theorem World.Moves.valid (hh : h.Leaves Repository.Valid) (hmove : World.Moves h w w') :
    w.Stays Repository.Valid w' := by
  cases hmove with
  | perform ho => exact (works_stays preserved_valid hh).perform ho w
  | analyse id => exact (works_stays preserved_valid hh).analyse id w
  | runNextJob => exact (works_stays preserved_valid hh).runNextJob w
  | cleanup => exact fun hw => hw
  | passes clock now freshId datasources surroundings => exact fun hw => hw
  | creates hd hcreate => exact fun hw => hw.create (Dataset.inOrder_of_ofDocument hd) hcreate
  | patches hupdate => exact fun hw => hw.update hupdate
  | deletes hdelete => exact fun hw => hw.delete hdelete

theorem World.Moves.valid_of_steps (hh : h.Leaves Repository.Valid)
    (hmoves : Relation.ReflTransGen (World.Moves h) w w') : w.Stays Repository.Valid w' := by
  induction hmoves with
  | refl => exact fun hw => hw
  | tail _ hmove ih => exact fun hw => hmove.valid hh (ih hw)

theorem Host.Interleaved.leaves (hh : h.Interleaved) : h.Leaves Repository.Valid := by
  induction hh with
  | confined hconfined => exact hconfined.leaves
  | moving _ hexecute hbefore ih =>
    exact ⟨fun source statement timeoutMs =>
      (hexecute source statement timeoutMs).mono (World.Moves.valid_of_steps ih), hbefore⟩

theorem World.Arises.valid (hh : h.Interleaved) (hw : w.Arises h) : w.repository.Valid := by
  obtain ⟨r, settings, background, surroundings, hempty, hmoves⟩ := hw
  exact World.Moves.valid_of_steps hh.leaves hmoves (.of_empty hempty)

end Moving

/-- Within these worlds the resolver fails with the error. -/
def Raises (resolve : String → Run ε Dataset) (P : World ε → Prop) (e : Error) : Prop :=
  ∃ id w w', P w ∧ resolve id w = (.error e, w')

section Failing
variable {resolve : String → Run ε Dataset} {store : List Dataset} {P : World ε → Prop}
  {fuel : Nat} {seen : List String} {w : World ε} {d : Dataset} {e : Error}

/-- Compiling a source fails at a cycle, at a definition, or with the resolver. -/
theorem error_of_compileSource (hvalid : ∀ v ∈ store, v.Configured)
    (hresolve : LooksUp resolve store P) (hw : P w) (hd : d.Configured)
    (h : ((compileSource (some resolve) fuel seen d : Run ε Source) w).1 = .error e) :
    (∃ id, e = .refused (.viewCycle id)) ∨ e.FaultsDefinition ∨ Raises resolve P e := by
  induction fuel generalizing seen d w with
  | zero =>
    cases h
    exact .inl ⟨d.id, rfl⟩
  | succ fuel ih =>
    by_cases hmet : d.id ∈ seen
    · rw [compileSource_repeated hmet] at h
      cases h
      exact .inl ⟨d.id, rfl⟩
    by_cases ht : d.type = .view
    · obtain ⟨c, hc⟩ := hd.exists_viewConfig ht
      rw [compileSource_view hmet ht hc] at h
      rcases hbase : resolve c.baseDatasetId w with ⟨e' | base, w₁⟩
      · rw [hbase] at h
        cases h
        exact .inr (.inr ⟨_, w, w₁, hw, hbase⟩)
      obtain ⟨hstore, hw₁⟩ := hresolve.found hw hbase
      rw [hbase] at h
      rcases hrest : (compileSource (some resolve) fuel (d.id :: seen) base : Run ε Source) w₁ with
        ⟨e' | source, w₂⟩
      · simp only [hrest] at h
        cases h
        exact ih hw₁ (hvalid base hstore) (congrArg Prod.fst hrest)
      · simp only [hrest] at h
        exact .inr (.inl (viewSource_faults h))
    · obtain ⟨a, ha, hfaults⟩ := compileSource_ground hmet hd ht
      rw [ha] at h
      cases h
      exact .inr (.inl hfaults)

/-- Finding a datasource fails at a cycle, with the repository, or with the resolver. -/
theorem error_of_datasourceAlong (hvalid : ∀ v ∈ store, v.Configured)
    (hresolve : LooksUp resolve store P) (hw : P w) (hd : d.Configured) {start : String}
    (h : (datasourceAlong resolve start fuel seen d w).1 = .error e) :
    (∃ id, e = .refused (.viewCycle id)) ∨ (∃ r id, readDatasource r id = .error e) ∨
      Raises resolve P e := by
  induction fuel generalizing seen d w with
  | zero =>
    cases h
    exact .inl ⟨d.id, rfl⟩
  | succ fuel ih =>
    by_cases hmet : d.id ∈ seen
    · rw [datasourceAlong_repeated hmet] at h
      cases h
      exact .inl ⟨d.id, rfl⟩
    by_cases ht : d.type = .view
    · obtain ⟨c, hc⟩ := hd.exists_viewConfig ht
      rw [datasourceAlong_view hmet (hd.datasourceId_of_view ht) ht hc] at h
      rcases hbase : resolve c.baseDatasetId w with ⟨e' | base, w₁⟩
      · rw [hbase] at h
        cases h
        exact .inr (.inr ⟨_, w, w₁, hw, hbase⟩)
      obtain ⟨hstore, hw₁⟩ := hresolve.found hw hbase
      rw [hbase] at h
      exact ih hw₁ (hvalid base hstore) h
    · obtain ⟨id, hid⟩ := hd.datasourceId_of_ne_view ht
      rw [datasourceAlong_ground hmet hid] at h
      exact .inr (.inl ⟨_, id, h⟩)

theorem readDatasource_ne_refused {r : Repository} {id : String} {cause : Refusal} :
    readDatasource r id ≠ .error (.refused cause) := by
  unfold readDatasource
  split
  · nofun
  · nofun
  · rename_i herror
    intro h
    cases h
    exact Repository.datasource?_ne_refused herror

end Failing

/-- In every world that arises, each stored dataset is valid, be it kept as it is or in a row, and
be it read from the row or what the row was made of. So with whatever finds datasets of that
store, no source is refused for a dataset's type and no datasource for want of one. -/
theorem stored_datasets_are_valid {h : Host ε} (hh : h.Interleaved) {w : World ε}
    (hw : w.Arises h) :
    w.repository.datasets.All Dataset.Valid ∧
      ∀ d ∈ w.repository.datasets.readable, d.Valid ∧
        ∀ {resolve : String → Run ε Dataset} {P : World ε → Prop},
          LooksUp resolve w.repository.datasets.readable P → ∀ v, P v → ∀ fuel seen,
            (∀ type, ((compileSource (some resolve) fuel seen d : Run ε Source) v).1 =
                .error (.refused (.unsupportedType type)) →
              Raises resolve P (.refused (.unsupportedType type))) ∧
            ∀ start id, (datasourceAlong resolve start fuel seen d v).1 =
                .error (.refused (.noDatasource id)) →
              Raises resolve P (.refused (.noDatasource id)) := by
  have hrepository := hw.valid hh
  have hinOrder : ∀ d ∈ w.repository.datasets.readable, d.InOrder := fun d hd =>
    (hrepository.of_stores (DatasetStore.stores_of_mem_readable hd)).1
  have hconfigured : ∀ d ∈ w.repository.datasets.readable, d.Configured := fun d hd =>
    Dataset.configured_of_complaint? (hinOrder d hd).complaint?
  refine ⟨hrepository.valid, fun d hd => ⟨(hinOrder d hd).valid, ?_⟩⟩
  intro resolve P hresolve v hv fuel seen
  constructor
  · intro type herror
    rcases error_of_compileSource hconfigured hresolve hv (hconfigured d hd) herror with
      ⟨id, hcycle⟩ | hfaults | hraises
    · cases hcycle
    · cases hfaults
    · exact hraises
  · intro start id herror
    rcases error_of_datasourceAlong hconfigured hresolve hv (hconfigured d hd) herror with
      ⟨_, hcycle⟩ | ⟨r, source, hread⟩ | hraises
    · cases hcycle
    · exact absurd hread readDatasource_ne_refused
    · exact hraises

/-- Reading a dataset refuses nothing. -/
theorem not_raises_load {P : World ε → Prop} {cause : Refusal} :
    ¬Raises load P (.refused cause) := by
  rintro ⟨id, w, w', _, h⟩
  rw [load_apply] at h
  have hread : readDataset w.repository id = .error (.refused cause) := congrArg Prod.fst h
  unfold readDataset at hread
  split at hread
  · cases hread
  · cases hread
  · rename_i herror
    cases hread
    exact DatasetStore.find?_ne_refused herror

/-- Two tables are created past the service, and a patch makes the second a view of the first. -/
theorem stored_view_is_valid :
    let table (id : String) : Dataset :=
      { id, userId := "u", name := id, displayName := id, type := .table
        tableConfig := some { datasourceId := "s", tableName := "sales" }
        createdAt := Time.Moment.start2024, updatedAt := Time.Moment.start2024 }
    let patch : List (String × Value) :=
      [("type", .text "view"), ("table_config", .null),
        ("view_config", .object [("base_dataset_id", .text "t")])]
    let h : Host Unit :=
      { execute := fun _ _ _ => pure { columns := [], rows := [] }
        beforeUpdate := fun _ => pure () }
    let start : World Unit := World.start ⟨.emptyMemory, []⟩ {} .inline ()
    let filled : Repository := ⟨.memory [("t", table "t"), ("v", table "v")], []⟩
    ∃ updated r, filled.update "v" patch Time.Moment.start2024 = .ok (updated, r) ∧
      World.Arises h { start with repository := r } ∧ ∃ d ∈ r.datasets.readable,
        d.id = "v" ∧ d.type = .view ∧ d.Valid ∧ ∀ fuel type,
          ((compileSource (some load) fuel [] d : Run Unit Source)
              { start with repository := r }).1 ≠ .error (.refused (.unsupportedType type)) := by
  intro table patch h start filled
  have hh : h.Interleaved :=
    .confined ⟨fun _ _ _ => World.Keeps.refl, fun _ => World.Keeps.refl⟩
  let defaults : Defaults := ⟨"", Time.Moment.start2024⟩
  have hread (id : String) (hid : id ∈ ["t", "v"]) :
      Dataset.ofDocument defaults (table id).document = .ok (table id) := by
    have hdocument : ∀ id ∈ ["t", "v"],
        (Dataset.ofDocument defaults (table id).document).toOption.isSome = true := by
      unfold table defaults
      decide +kernel
    exact (Dataset.inOrder_of_isSome (hdocument id hid)).ofDocument_documentWith (.inl rfl)
  let first : Repository := ⟨.memory [("t", table "t")], []⟩
  have hfirst : start.repository.create (table "t") = .ok first := rfl
  have hfilled : first.create (table "v") = .ok filled := rfl
  have htest : ((filled.update "v" patch Time.Moment.start2024).toOption.any fun result =>
      result.2.datasets.readable.any fun d => d.id == "v" && d.type == .view) = true := by
    unfold filled patch table
    decide +kernel
  obtain ⟨⟨updated, r⟩, hupdate, htest⟩ := exists_ok_of_any htest
  obtain ⟨d, hd, htest⟩ := List.any_eq_true.mp htest
  obtain ⟨hid, htype⟩ := Bool.and_eq_true_iff.mp htest
  have harises : World.Arises h { start with repository := r } :=
    ⟨_, _, _, _, .inl rfl, .head (.creates (hread "t" (by decide)) hfirst) <|
      .head (.creates (hread "v" (by decide)) hfilled) (.single (.patches hupdate))⟩
  obtain ⟨hvalid, hsources⟩ := (stored_datasets_are_valid hh harises).2 d hd
  refine ⟨updated, r, hupdate, harises, d, hd, beq_iff_eq.mp hid, beq_iff_eq.mp htype, hvalid, ?_⟩
  intro fuel type herror
  exact not_raises_load ((hsources (load_looksUp r) _ rfl fuel []).1 type herror)

end Service

end DatasetCatalog
