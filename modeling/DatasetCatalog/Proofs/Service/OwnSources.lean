import DatasetCatalog.Proofs.Model.Changes
import DatasetCatalog.Proofs.Service.Effects

/-!
# Datasets read datasources of their owners

Before a write the service checks the datasource that the request names. What is stored comes of
laying the request over the old document, but the configuration that it ends up with is either the
checked one or the one that stood there before.
-/

namespace DatasetCatalog

open Document

/-- A dataset in order has no two configurations that name datasources. -/
theorem Dataset.InOrder.tableConfig_or_sqlConfig {d : Dataset} (h : d.InOrder) :
    d.tableConfig = none ∨ d.sqlConfig = none := by
  have hkinds := (Dataset.complaint?_eq_none_iff.mp h.complaint?).2
  cases ht : d.tableConfig with
  | none => exact .inl rfl
  | some c =>
    cases hs : d.sqlConfig with
    | none => exact .inr rfl
    | some c' =>
      simp [Dataset.configured, ht, hs] at hkinds

section Changed
variable {v : Value} {changes : Reading UpdateRequest} {current d : Dataset} {now : Time.Moment}
  (hread : model UpdateRequest.reader v = .ok changes)
  (h : current.patched changes.given.entries now = .ok d)
include hread h

/-- The configurations after a change are those that the request gave, or that stood there. -/
theorem Dataset.configs_of_patched :
    ((changes.given.entries.lookup "table_config").isSome = true ∧
        d.tableConfig = changes.value.tableConfig ∨
      changes.value.tableConfig = none ∧ d.tableConfig = current.tableConfig) ∧
    ((changes.given.entries.lookup "sql_config").isSome = true ∧
        d.sqlConfig = changes.value.sqlConfig ∨
      changes.value.sqlConfig = none ∧ d.sqlConfig = current.sqlConfig) := by
  have hrequest := UpdateRequest.readFrom_given hread
  have hedited := Dataset.editedBy_of_patched hread h
  exact ⟨UpdateRequest.asked_or_kept hread (by decide) hrequest.tableConfig hedited.tableConfig,
    UpdateRequest.asked_or_kept hread (by decide) hrequest.sqlConfig hedited.sqlConfig⟩

/-- The datasource after a change, if there is one, was checked or stood there before. -/
theorem Dataset.datasourceId_of_patched (hcurrent : current.InOrder) :
    ((Service.configKeys.any fun k => (changes.given.entries.lookup k).isSome) = true ∧
      d.datasourceId =
        Service.namedDatasource changes.value.tableConfig changes.value.sqlConfig) ∨
    d.datasourceId = current.datasourceId ∨ d.datasourceId = none := by
  have hd := Dataset.inOrder_of_ofDocument h
  have hany {key : String} (hkey : key ∈ Service.configKeys)
      (hgiven : (changes.given.entries.lookup key).isSome = true) :
      (Service.configKeys.any fun k => (changes.given.entries.lookup k).isSome) = true :=
    List.any_eq_true.mpr ⟨key, hkey, hgiven⟩
  obtain ⟨htable, hsql⟩ := Dataset.configs_of_patched hread h
  unfold Dataset.datasourceId Service.namedDatasource
  rcases htable with ⟨hgiven, htable⟩ | ⟨habsent, htable⟩
  · have hchecked := hany (by decide) hgiven
    rcases hsql with ⟨_, hsql⟩ | ⟨habsent', hsql⟩
    · exact .inl ⟨hchecked, by rw [htable, hsql]⟩
    · -- the old SQL stays, so the new table is none if there is SQL
      rcases hd.tableConfig_or_sqlConfig with hnone | hnone
      · rcases hcurrent.tableConfig_or_sqlConfig with hnone' | hnone'
        · exact .inr (.inl (by rw [hnone, hnone', hsql]))
        · exact .inr (.inr (by rw [hnone, hsql, hnone']; rfl))
      · exact .inl ⟨hchecked, by rw [htable, hnone, habsent']⟩
  · rcases hsql with ⟨hgiven, hsql⟩ | ⟨_, hsql⟩
    · rcases hd.tableConfig_or_sqlConfig with hnone | hnone
      · exact .inl ⟨hany (by decide) hgiven, by rw [hnone, habsent, hsql]⟩
      · rcases hcurrent.tableConfig_or_sqlConfig with hnone' | hnone'
        · exact .inr (.inr (by rw [htable, hnone', hnone]; rfl))
        · exact .inr (.inl (by rw [htable, hnone, hnone']))
    · exact .inr (.inl (by rw [htable, hsql]))

end Changed

/-- Two datasets belong to one user and read one datasource. -/
def Dataset.SameSource (d d' : Dataset) : Prop :=
  d'.userId = d.userId ∧ d'.datasourceId = d.datasourceId

/-- What lasts of a dataset includes whom it belongs to and what it reads. -/
theorem Dataset.SameWhereLasting.sameSource {d d' : Dataset} (h : d.SameWhereLasting d') :
    d.SameSource d' := by
  simp only [Dataset.SameWhereLasting, Dataset.parts, List.forall_mem_cons] at h
  obtain ⟨_, huser, _, _, _, _, htable, hsql, _⟩ := h
  have hlasting {α : Type} (o : Option α) : ∀ a, o = some a → True := fun _ _ => trivial
  refine ⟨huser trivial trivial, ?_⟩
  have htable := htable (hlasting _) (hlasting _)
  have hsql := hsql (hlasting _) (hlasting _)
  unfold Dataset.datasourceId
  rw [htable, hsql]

namespace Service

open Store

variable {ε : Type}

/-- The datasource that a dataset of a table or of SQL reads is there, and belongs to the owner of
the dataset. -/
def ReadsOwn (r : Repository) (d : Dataset) : Prop :=
  d.type = .table ∨ d.type = .sql → ∃ id source, d.datasourceId = some id ∧
    r.datasource? id = .ok (some source) ∧ source.userId = d.userId

/-- The worlds that are reached from an empty repository while its datasources stay. -/
inductive World.ReachedOver (h : Host ε) (r : Repository) : World ε → Prop
  | start (empty : r.datasets = .emptyMemory ∨ r.datasets = .emptyRows) (settings : Settings)
      (background : Background) (surroundings : ε) :
    ReachedOver h r (World.start r settings background surroundings)
  | perform {w : World ε} {o : Operation} : ReachedOver h r w → o.WasRead →
    ReachedOver h r (perform h o w).2
  | analyse {w : World ε} (id : String) : ReachedOver h r w → ReachedOver h r (analyse h id w).2
  | runNextJob {w : World ε} : ReachedOver h r w → ReachedOver h r (runNextJob h w).2
  | cleanup {w : World ε} : ReachedOver h r w →
    ReachedOver h r { w with cache := (w.cache.cleanup w.clock).2 }
  | passes {w : World ε} (clock : Float) (now : Time.Moment) (freshId : String)
      (surroundings : ε) : ReachedOver h r w →
    ReachedOver h r { w with clock, now, freshId, surroundings }

section Datasources
variable {r r' : Repository} {id : String}

theorem Analysed.datasource? (h : Analysed id r r') (other : String) :
    r'.datasource? other = r.datasource? other := by
  cases h with
  | unwritten => rfl
  | written hupdate => exact Repository.update_datasource? hupdate other

theorem Effect.datasource? {o : Operation} {a : Except Error Answer} (h : Effect r o a r')
    (other : String) : r'.datasource? other = r.datasource? other := by
  cases h with
  | unwritten => rfl
  | created _ _ hcreate hanalysis =>
    exact (hanalysis.datasource? other).trans (Repository.create_datasource? hcreate other)
  | updated _ _ _ _ hupdate => exact Repository.update_datasource? hupdate other
  | deleted _ _ hdelete => exact Repository.delete_datasource? hdelete other
  | refreshed _ _ hanalysis => exact hanalysis.datasource? other

end Datasources

/-- If a dataset reads a datasource, the repository has it for the dataset's owner. -/
def OwnSource (r : Repository) (d : Dataset) : Prop := OwnsDatasource r d.userId d.datasourceId

theorem OwnSource.of_same {r : Repository} {d d' : Dataset} (h : OwnSource r d)
    (hsame : d.SameSource d') : OwnSource r d' := by
  unfold OwnSource
  rw [hsame.1, hsame.2]
  exact h

/-- An analysis has nothing to do with what a dataset reads. -/
theorem sameSource_of_analysis {p : AnalysisPatch} {current d : Dataset} {now : Time.Moment}
    (h : current.patched p.entries now = .ok d) : current.SameSource d := by
  have hsame := (Dataset.agree_of_patched h).mono p.keys
  refine ⟨hsame.userId (by decide), ?_⟩
  unfold Dataset.datasourceId
  rw [hsame.tableConfig (by decide), hsame.sqlConfig (by decide)]

section Kept
variable {r₀ : Repository} {s : DatasetStore} (hs : s.All (OwnSource r₀)) {id : String}
  {current d : Dataset} {now : Time.Moment}
include hs

theorem ownSource_of_stores (hd : DatasetStore.Stores d s) : d.InOrder ∧ OwnSource r₀ d := by
  obtain ⟨hin, d₀, howns, hsame⟩ := hs.of_stores hd
  exact ⟨hin, howns.of_same hsame.sameSource⟩

theorem ownSource_of_analysis {p : AnalysisPatch} (hfind : s.find? id = .ok (some current))
    (hd : current.patched p.entries now = .ok d) : OwnSource r₀ d := by
  obtain ⟨_, howns⟩ := ownSource_of_stores hs (DatasetStore.stores_of_find? hfind)
  exact howns.of_same (sameSource_of_analysis hd)

theorem ownSource_of_change {v : Value} {changes : Reading UpdateRequest}
    (hread : model UpdateRequest.reader v = .ok changes) (hfind : s.find? id = .ok (some current))
    (hchecked : (configKeys.any fun k => (changes.given.entries.lookup k).isSome) = true →
      OwnsDatasource r₀ current.userId
        (namedDatasource changes.value.tableConfig changes.value.sqlConfig))
    (hd : current.patched changes.given.entries now = .ok d) : OwnSource r₀ d := by
  obtain ⟨hcurrent, howns⟩ := ownSource_of_stores hs (DatasetStore.stores_of_find? hfind)
  have huser := Dataset.userId_of_patched hread hd
  rcases Dataset.datasourceId_of_patched hread hd hcurrent with
    ⟨hgiven, hsource⟩ | hsource | hsource
  · unfold OwnSource
    rw [huser, hsource]
    exact hchecked hgiven
  · exact howns.of_same ⟨huser, hsource⟩
  · unfold OwnSource
    rw [hsource]
    exact nofun

end Kept

/-- A repository has the datasources of another, and its datasets read their owners' ones. -/
structure KeepsOwn (r₀ r : Repository) : Prop where
  datasource? : ∀ id, r.datasource? id = r₀.datasource? id
  all : r.datasets.All (OwnSource r₀)

namespace KeepsOwn
variable {r₀ r r' : Repository}

theorem owns (h : KeepsOwn r₀ r) {ownerId : String} {named : Option String}
    (hr : OwnsDatasource r ownerId named) : OwnsDatasource r₀ ownerId named := by
  intro id hid
  obtain ⟨source, hfound, howner⟩ := hr id hid
  exact ⟨source, (h.datasource? id).symm.trans hfound, howner⟩

theorem analysed (h : KeepsOwn r₀ r) {id : String} (hr : Analysed id r r') : KeepsOwn r₀ r' where
  datasource? other := (hr.datasource? other).trans (h.datasource? other)
  all := hr.all h.all fun _ _ _ _ hfind hd => ownSource_of_analysis h.all hfind hd

theorem effect (h : KeepsOwn r₀ r) {o : Operation} {a : Except Error Answer} (ho : o.WasRead)
    (hr : Effect r o a r') : KeepsOwn r₀ r' where
  datasource? other := (hr.datasource? other).trans (h.datasource? other)
  all := by
    refine hr.all h.all ?_ ?_ fun _ _ _ _ _ _ hall => ownSource_of_analysis hall
    · rintro userId request defaults d rfl hchecked hd
      have hmade := madeFor_of_newDocument hd
      have hsource : d.datasourceId = namedDatasource request.tableConfig request.sqlConfig := by
        rw [Dataset.datasourceId, hmade.tableConfig, hmade.sqlConfig]
        rfl
      unfold OwnSource
      rw [hmade.userId, hsource]
      exact h.owns hchecked
    · rintro userId id changes current d now rfl hfind hchecked hd
      obtain ⟨v, hread⟩ := ho
      exact ownSource_of_change h.all hread hfind (fun hgiven => h.owns (hchecked hgiven)) hd

end KeepsOwn

/-- While the datasources stay, every dataset keeps to those of its owner. -/
theorem World.ReachedOver.keepsOwn {h : Host ε} (hh : h.Confined) {r : Repository} {w : World ε}
    (hw : w.ReachedOver h r) : KeepsOwn r w.repository := by
  induction hw with
  | start empty settings background surroundings =>
    exact ⟨fun _ => rfl, DatasetStore.all_of_empty empty⟩
  | @perform w o _ ho ih => exact ih.effect ho (perform_effect hh ho w)
  | @analyse w id _ ih => exact ih.analysed (analyse_analysed hh id w).2
  | @runNextJob w _ ih =>
    obtain ⟨id, hanalysed⟩ := runNextJob_analysed hh w
    exact ih.analysed hanalysed
  | cleanup _ ih => exact ih
  | passes clock now freshId surroundings _ ih => exact ih

/-- As long as the datasources stay, each dataset of a table or of SQL that is ever stored reads a
datasource that is there and is its owner's. -/
theorem datasets_read_own_sources {h : Host ε} (hh : h.Confined) {r : Repository} {w : World ε}
    (hw : w.ReachedOver h r) {d : Dataset} (hd : DatasetStore.Stores d w.repository.datasets) :
    ReadsOwn w.repository d := by
  have hkeeps := hw.keepsOwn hh
  obtain ⟨hin, howns⟩ := ownSource_of_stores hkeeps.all hd
  intro htype
  have hne : d.type ≠ .view := by
    rintro hview
    rw [hview] at htype
    rcases htype with htype | htype <;> cases htype
  have hconfigured := Dataset.configured_of_complaint? hin.complaint?
  obtain ⟨id, hid⟩ := hconfigured.datasourceId_of_ne_view hne
  obtain ⟨source, hsource, howner⟩ := howns id hid
  exact ⟨id, source, hid, (hkeeps.datasource? id).trans hsource, howner⟩

/-- A dataset of a table becomes one of SQL, over another datasource of its owner. -/
theorem datasets_read_own_sources_after_switch :
    let table : Datasource := { id := "s", userId := "u", name := "s", type := .sqlite }
    let sql : Datasource := { id := "q", userId := "u", name := "q", type := .sqlite }
    let h : Host Unit :=
      { execute := fun _ _ _ => throw (.sourceFailed "gone"), beforeUpdate := fun _ => pure () }
    let request : CreateRequest :=
      { name := "sales", displayName := "Sales", type := .table
        tableConfig := some { datasourceId := "s", tableName := "sales" } }
    let sent : Value := .object [("type", .text "sql"), ("table_config", .null),
      ("sql_config", .object [("datasource_id", .text "q"), ("sql", .text "SELECT 1")])]
    let changes : Reading UpdateRequest :=
      ⟨{ type := some .sql, sqlConfig := some { datasourceId := "q", sql := "SELECT 1" } }, sent⟩
    let start : World Unit := World.start ⟨.emptyMemory, [table, sql]⟩ {} .queued ()
    let made := (perform h (.create "u" request) { start with freshId := "t" }).2
    let switched := (perform h (.update "u" "t" changes) made).2
    ∃ d, switched.repository.find? "t" = .ok (some d) ∧ d.type = .sql ∧
      d.datasourceId = some "q" ∧ ReadsOwn switched.repository d := by
  intro table sql h request sent changes start made switched
  have hh : h.Confined := ⟨fun _ _ _ => World.Keeps.refl, fun _ => World.Keeps.refl⟩
  have hread : model UpdateRequest.reader sent = .ok changes := rfl
  have hstart : start.ReachedOver h ⟨.emptyMemory, [table, sql]⟩ := .start (.inl rfl) _ _ _
  have hmade : made.ReachedOver h ⟨.emptyMemory, [table, sql]⟩ :=
    .perform (.passes start.clock start.now "t" () hstart) trivial
  have hswitched : switched.ReachedOver h ⟨.emptyMemory, [table, sql]⟩ :=
    .perform hmade ⟨sent, hread⟩
  have hfound : ∃ d, switched.repository.find? "t" = .ok (some d) ∧ d.type = .sql ∧
      d.datasourceId = some "q" := by
    unfold switched made start request h table sql changes sent
    exact ⟨_, rfl, rfl, rfl⟩
  obtain ⟨d, hd, htype, hsource⟩ := hfound
  have hstored : DatasetStore.Stores d switched.repository.datasets :=
    DatasetStore.stores_of_find? hd
  exact ⟨d, hd, htype, hsource, datasets_read_own_sources hh hswitched hstored⟩

end Service

end DatasetCatalog
