import DatasetCatalog.Proofs.Governance.Roles
import DatasetCatalog.Proofs.Service.Upkeep
import DatasetCatalog.Proofs.Store.Rows

/-!
# What an operation does to the repository

An operation that fails has written nothing, and operations that read never write. What the others
write, they write behind every check: a new dataset, a patch, a deletion, or what an analysis
finds.
-/

namespace DatasetCatalog.Service

open Store

variable {ε α : Type}

section Unwritten

/-- The repository is as it was. -/
def World.SameData (w w' : World ε) : Prop := w'.repository = w.repository

instance : World.Sequential (World.SameData (ε := ε)) := ⟨fun _ => rfl, fun h h' => h'.trans h⟩

theorem World.Keeps.sameData {w w' : World ε} (h : w.Keeps w') : w.SameData w' := by
  obtain ⟨e, rfl⟩ := h
  rfl

theorem load_sameData (id : String) : (load id : Run ε Dataset).Within World.SameData := .load id

theorem getDataset_sameData (userId id : String) :
    (getDataset userId id : Run ε Dataset).Within World.SameData :=
  .getDataset (fun _ _ => rfl) userId id

theorem reads_sameData {h : Host ε} (hh : h.Confined) : h.Reads World.SameData where
  getDataset := getDataset_sameData
  execute source statement timeoutMs f _ key ttl tags _ := by
    refine .cached (fun _ _ => rfl) (.bind (.timeoutOr _) fun ms => ?_) key ttl tags
    exact .bind ((hh.execute source statement ms).mono World.Keeps.sameData) fun _ => .pure _

theorem checkSource_sameData (ownerId readerId : String) (datasourceId : Option String)
    (view : Option ViewConfig) :
    (checkSource ownerId readerId datasourceId view : Run ε Unit).Within World.SameData :=
  .checkSource getDataset_sameData ownerId readerId datasourceId view

end Unwritten

/-- If a datasource is named, the repository has it for that owner. -/
def OwnsDatasource (r : Repository) (ownerId : String) (datasourceId : Option String) : Prop :=
  ∀ id, datasourceId = some id →
    ∃ source, r.datasource? id = .ok (some source) ∧ source.userId = ownerId

/-- A dataset that was made for a user is as the request asked for it. -/
structure MadeFor (ownerId : String) (request : CreateRequest) (d : Dataset) : Prop where
  userId : d.userId = ownerId
  name : d.name = request.name
  tableConfig : d.tableConfig = request.tableConfig
  sqlConfig : d.sqlConfig = request.sqlConfig
  viewConfig : d.viewConfig = request.viewConfig

theorem madeFor_of_newDocument {ownerId : String} {request : CreateRequest} {defaults : Defaults}
    {d : Dataset} (h : Dataset.ofDocument defaults (newDocument ownerId request) = .ok d) :
    MadeFor ownerId request d := by
  have hparts := (Dataset.ofDocument_eq_ok_iff.mp h).1
  simp only [Dataset.parts, List.forall_mem_cons] at hparts
  obtain ⟨_, huser, hname, _, _, _, htable, hsql, hview, _⟩ := hparts
  have htable := Dataset.Part.eq_of_lookup rfl htable
  have hsql := Dataset.Part.eq_of_lookup rfl hsql
  have hview := Dataset.Part.eq_of_lookup rfl hview
  exact ⟨Dataset.Part.eq_of_lookup rfl huser, Dataset.Part.eq_of_lookup rfl hname, htable, hsql,
    hview⟩

/-- What an analysis of a dataset makes of the repository: one patch is written at most. -/
inductive Analysed (id : String) (r : Repository) : Repository → Prop
  | unwritten : Analysed id r r
  | written {p : AnalysisPatch} {now : Time.Moment} {d : Dataset} {r' : Repository} :
    r.update id p.entries now = .ok (some d, r') → Analysed id r r'

/-- The answer to an operation and the repository that it leaves. -/
inductive Effect (r : Repository) : Operation → Except Error Answer → Repository → Prop
  | unwritten {o : Operation} {a : Except Error Answer} : Effect r o a r
  | created {userId : String} {request : CreateRequest} {defaults : Defaults} {d : Dataset}
      {r₁ r' : Repository} :
    OwnsDatasource r userId (namedDatasource request.tableConfig request.sqlConfig) →
    Dataset.ofDocument defaults (newDocument userId request) = .ok d →
    r.create d = .ok r₁ → Analysed d.id r₁ r' →
    Effect r (.create userId request) (.ok (.dataset d)) r'
  | updated {userId id : String} {changes : Document.Reading UpdateRequest} {current d : Dataset}
      {now : Time.Moment} {r' : Repository} :
    r.find? id = .ok (some current) → current.permits userId .editor = true →
    ((changes.given.entries.lookup "permissions").isSome = true →
      current.permits userId .owner = true) →
    ((configKeys.any fun k => (changes.given.entries.lookup k).isSome) = true →
      OwnsDatasource r current.userId
        (namedDatasource changes.value.tableConfig changes.value.sqlConfig)) →
    r.update id changes.given.entries now = .ok (some d, r') →
    Effect r (.update userId id changes) (.ok (.dataset d)) r'
  | deleted {userId id : String} {current : Dataset} {r' : Repository} :
    r.find? id = .ok (some current) → current.permits userId .owner = true →
    r.delete id = .ok (true, r') → Effect r (.delete userId id) (.ok .done) r'
  | refreshed {userId id : String} {current : Dataset} {isOver : Bool} {r' : Repository} :
    r.find? id = .ok (some current) → current.permits userId .editor = true →
    Analysed id r r' → Effect r (.refresh userId id) (.ok (.scheduled isOver)) r'

section Checks
variable {w w' : World ε}

/-- A step that is only taken under a condition comes before the rest. -/
theorem run_whenFirst_eq_ok {β : Type} {c : Prop} {_ : Decidable c} {x : Run ε Unit}
    {next : Unit → Run ε β} {b : β} (h : (if c then x >>= next else next ()) w = (.ok b, w')) :
    ∃ w₁, (c → x w = (.ok (), w₁)) ∧ (¬c → w₁ = w) ∧ next () w₁ = (.ok b, w') := by
  by_cases hc : c
  · rw [if_pos hc] at h
    obtain ⟨_, w₁, hx, h⟩ := run_bind_eq_ok h
    exact ⟨w₁, fun _ => hx, fun hnot => absurd hc hnot, h⟩
  · rw [if_neg hc] at h
    exact ⟨w, fun hpos => absurd hpos hc, fun _ => rfl, h⟩

theorem ownsDatasource_of_checkSource {ownerId readerId : String} {datasourceId : Option String}
    {view : Option ViewConfig}
    (h : checkSource ownerId readerId datasourceId view w = (.ok (), w')) :
    OwnsDatasource w.repository ownerId datasourceId := by
  rintro id rfl
  obtain ⟨w₁, _, hget, h⟩ := run_bind_eq_ok h
  obtain ⟨hw, rfl⟩ := Prod.mk.inj hget
  cases hw
  obtain ⟨source, _, hsource, h⟩ := run_bind_eq_ok h
  obtain ⟨hfound, rfl⟩ := Prod.mk.inj hsource
  cases source with
  | none => cases h
  | some source =>
    by_cases howner : source.userId = ownerId
    · exact ⟨source, hfound, howner⟩
    · simp only [Option.any_some, beq_false_of_ne howner, Bool.not_false, if_true] at h
      cases h

/-- Changes that pass the checks are made by those who may make them. -/
theorem allowed_of_checkChanges {userId : String} {current : Dataset} {changes : UpdateRequest}
    {patch : List (String × Value)}
    (h : checkChanges userId current changes patch w = (.ok (), w')) :
    ((patch.lookup "permissions").isSome = true → current.permits userId .owner = true) ∧
      ((configKeys.any fun k => (patch.lookup k).isSome) = true →
        OwnsDatasource w.repository current.userId
          (namedDatasource changes.tableConfig changes.sqlConfig)) := by
  unfold checkChanges at h
  obtain ⟨w₁, hrole, hkept, h⟩ := run_whenFirst_eq_ok h
  have hnamed : ∃ w₂, w₁.SameData w₂ ∧
      (if (configKeys.any fun k => (patch.lookup k).isSome) = true then
        checkSource current.userId userId (namedDatasource changes.tableConfig changes.sqlConfig)
          changes.viewConfig
        else pure ()) w₂ = (.ok (), w') := by
    cases hname : changes.name with
    | none =>
      rw [hname] at h
      exact ⟨w₁, rfl, h⟩
    | some name =>
      rw [hname] at h
      obtain ⟨w₂, hfree, hkept, h⟩ := run_whenFirst_eq_ok h
      refine ⟨w₂, ?_, h⟩
      by_cases hne : (name != current.name) = true
      · have hcheck : Run.Within World.SameData (checkNameFree current.userId name : Run ε Unit) :=
          .checkNameFree _ _
        have hsame := hcheck w₁
        rw [hfree hne] at hsame
        exact hsame
      · rw [hkept hne]
        rfl
  obtain ⟨w₂, hsame, hsource⟩ := hnamed
  constructor
  · intro hgiven
    exact Dataset.require_eq_ok_iff.mp (Prod.mk.inj (hrole hgiven)).1
  · intro hconfig
    rw [if_pos hconfig] at hsource
    have hfirst : w₁ = w := by
      by_cases hgiven : (patch.lookup "permissions").isSome = true
      · exact (Prod.mk.inj (hrole hgiven)).2.symm
      · exact hkept hgiven
    have howns := ownsDatasource_of_checkSource hsource
    rw [hsame, hfirst] at howns
    exact howns

end Checks

/-- A run is what an operation does to a repository. -/
def Does (r : Repository) (o : Operation) (answer : α → Answer) (x : Run ε α) (w : World ε) :
    Prop :=
  Effect r o ((x w).1.map answer) (x w).2.repository

namespace Does
variable {β : Type} {r : Repository} {o : Operation} {answer : α → Answer} {w : World ε}

theorem unwritten {x : Run ε α} (hx : x.Within World.SameData) (hw : w.repository = r) :
    Does r o answer x w := by
  unfold Does
  rw [(hx w).trans hw]
  exact .unwritten

/-- What is read before is no effect. -/
theorem after {x : Run ε β} {f : β → Run ε α} (hx : x.Within World.SameData)
    (hw : w.repository = r)
    (hf : ∀ b w', x w = (.ok b, w') → w'.repository = r → Does r o answer (f b) w') :
    Does r o answer (x >>= f) w := by
  have hsame := (hx w).trans hw
  unfold Does
  rw [Run.bind_apply]
  rcases hrun : x w with ⟨e | b, w'⟩
  · rw [hrun] at hsame
    simp only at hsame ⊢
    rw [hsame]
    exact .unwritten
  · rw [hrun] at hsame
    exact hf b w' hrun hsame

/-- So is loading a dataset and asking for a role on it. -/
theorem afterLoad {userId id : String} {role : Role} {f : Dataset → Run ε α}
    (hf : ∀ current w', w.repository.find? id = .ok (some current) →
      current.permits userId role = true → w'.repository = w.repository →
      Does w.repository o answer (f current) w') :
    Does w.repository o answer
      (load id >>= fun current => require current userId role >>= fun _ => f current) w := by
  refine .after (load_sameData id) rfl fun current w₁ hload h₁ => ?_
  refine .after (.ofExcept _) h₁ fun _ w₂ hrole h₂ => ?_
  have hfound := readDataset_eq_ok.mp (Prod.mk.inj ((load_apply id w).symm.trans hload)).1
  exact hf current w₂ hfound (Dataset.require_eq_ok_iff.mp (Prod.mk.inj hrole).1) h₂

end Does

section Operations
variable {h : Host ε} (hh : h.Confined)
include hh

theorem analyse_analysed (id : String) (w : World ε) : (analyse h id w).1 = .ok () ∧
    Analysed id w.repository (analyse h id w).2.repository := by
  obtain ⟨w', hrun, hkeeps | ⟨p, d, r, e, hr, rfl⟩⟩ := analyse_invalidates hh id w
  · rw [hrun]
    refine ⟨rfl, ?_⟩
    have hsame : (invalidate id w').2.repository = w.repository := hkeeps.sameData
    rw [hsame]
    exact .unwritten
  · rw [hrun]
    exact ⟨rfl, .written hr⟩

/-- A request for an analysis is never refused. -/
theorem schedule_analysed (id : String) (w : World ε) : ∃ isOver,
    (schedule h id w).1 = .ok isOver ∧
      Analysed id w.repository (schedule h id w).2.repository := by
  simp only [schedule, Run.bind_apply, Run.get_apply]
  cases w.background with
  | inline =>
    obtain ⟨hok, hanalysed⟩ := analyse_analysed hh id w
    rcases hrun : analyse h id w with ⟨a, w'⟩
    rw [hrun] at hok hanalysed
    simp only at hok
    subst hok
    simp only [Run.bind_apply, hrun]
    exact ⟨true, rfl, hanalysed⟩
  | queued => exact ⟨false, rfl, .unwritten⟩

theorem create_effect (userId : String) (request : CreateRequest) (w : World ε) :
    Does w.repository (.create userId request) .dataset (create h userId request) w := by
  refine .after (checkSource_sameData _ _ _ _) rfl fun _ w₁ hsource h₁ => ?_
  refine .after (.checkNameFree _ _) h₁ fun _ w₂ _ h₂ => ?_
  refine .after .get h₂ fun _ w₃ _ h₃ => .after (.ofExcept _) h₃ fun d w₄ hd h₄ => ?_
  refine .after .get h₄ fun v w₅ hget h₅ => .after (.ofExcept _) h₅ fun r w₆ hr h₆ => ?_
  obtain ⟨hv, rfl⟩ := Prod.mk.inj hget
  cases hv
  have hcreate : w.repository.create d = .ok r := h₄ ▸ (Prod.mk.inj hr).1
  obtain ⟨isOver, hok, hanalysed⟩ := schedule_analysed hh d.id { w₆ with repository := r }
  have hrun : (setRepository r >>= fun _ => schedule h d.id >>= fun _ => pure d : Run ε Dataset)
      w₆ = (.ok d, (schedule h d.id { w₆ with repository := r }).2) := by
    simp only [setRepository, Run.bind_apply, Run.modify_apply]
    rcases hs : schedule h d.id { w₆ with repository := r } with ⟨a, w₇⟩
    rw [hs] at hok
    simp only at hok
    subst hok
    rfl
  unfold Does
  rw [hrun]
  exact .created (ownsDatasource_of_checkSource hsource) (mapError_eq_ok (Prod.mk.inj hd).1)
    hcreate hanalysed

theorem update_effect (userId id : String) {v : Value} {changes : Document.Reading UpdateRequest}
    (hread : Document.model UpdateRequest.reader v = .ok changes) (w : World ε) :
    Does w.repository (.update userId id changes) .dataset (update h userId id changes) w := by
  refine .afterLoad fun current w₁ hcurrent hpermits h₁ => ?_
  simp only
  split
  · exact .unwritten (.pure _) h₁
  refine .after (.checkChanges getDataset_sameData _ _ _ _) h₁ fun _ w₂ hchecks h₂ => ?_
  refine .after .get h₂ fun _ w₃ _ h₃ => .after (.ofExcept _) h₃ fun _ w₄ _ h₄ => ?_
  obtain ⟨howner, hsource⟩ := allowed_of_checkChanges hchecks
  rw [h₁] at hsource
  let p : Patch := ⟨changes.given.entries, UpdateRequest.lookup_id_given hread⟩
  unfold Does
  rw [Run.bind_apply]
  rcases hu : updateStored h id changes.given.entries w₄ with ⟨a, w₅⟩
  rcases updateStored_cases (p := p) hh.beforeUpdate hu with ⟨hkeeps, hnone⟩ | ⟨d, rfl, r, e, hr, rfl⟩
  · have hsame := hkeeps.sameData.trans h₄
    rcases a with e | _ | d
    · simp only
      rw [hsame]
      exact .unwritten
    · simp only
      change Effect _ _ _ w₅.repository
      rw [hsame]
      exact .unwritten
    · exact absurd rfl (hnone d)
  · rw [h₄] at hr
    exact .updated hcurrent hpermits howner hsource hr

omit hh in
theorem delete_effect (userId id : String) (w : World ε) :
    Does w.repository (.delete userId id) (fun _ => .done) (delete userId id) w := by
  refine .afterLoad fun current w₁ hcurrent hpermits h₁ => ?_
  refine .after .get h₁ fun v w₂ hget h₂ => .after (.ofExcept _) h₂ fun result w₃ hr h₃ => ?_
  obtain ⟨hv, rfl⟩ := Prod.mk.inj hget
  cases hv
  have hdelete : w.repository.delete id = .ok result := h₁ ▸ (Prod.mk.inj hr).1
  obtain ⟨deleted, r⟩ := result
  obtain rfl := Repository.deleted_of_find? hcurrent hdelete
  exact .deleted hcurrent hpermits hdelete

theorem refresh_effect (userId id : String) (w : World ε) :
    Does w.repository (.refresh userId id) .scheduled (refresh h userId id) w := by
  refine .afterLoad fun current w₁ hcurrent hpermits h₁ => ?_
  obtain ⟨isOver, hok, hanalysed⟩ := schedule_analysed hh id w₁
  unfold Does
  rw [hok]
  rw [h₁] at hanalysed
  exact .refreshed hcurrent hpermits hanalysed

theorem perform_sameData {o : Operation} (ho : o.OnlyReads) :
    (perform h o).Within World.SameData :=
  (reads_sameData hh).perform ho

omit hh in
theorem map_apply (f : α → Answer) (x : Run ε α) (w : World ε) :
    (f <$> x : Run ε Answer) w = ((x w).1.map f, (x w).2) := by
  change (x >>= fun a => pure (f a)) w = _
  rw [Run.bind_apply]
  rcases x w with ⟨_ | _, _⟩ <;> rfl

theorem perform_effect {o : Operation} (ho : o.WasRead) (w : World ε) :
    Effect w.repository o (perform h o w).1 (perform h o w).2.repository := by
  by_cases hreads : o.OnlyReads
  · rw [perform_sameData hh hreads w]
    exact .unwritten
  cases o with
  | create userId request =>
    rw [perform, map_apply]
    exact create_effect hh userId request w
  | update userId id changes =>
    obtain ⟨v, hread⟩ := ho
    rw [perform, map_apply]
    exact update_effect hh userId id hread w
  | delete userId id =>
    have hrun : perform h (.delete userId id) = (fun _ => Answer.done) <$> delete userId id := rfl
    rw [hrun, map_apply]
    exact delete_effect userId id w
  | refresh userId id =>
    rw [perform, map_apply]
    exact refresh_effect hh userId id w
  | _ => exact absurd trivial hreads

end Operations

section Kept
variable {P : Dataset → Prop} {r r' : Repository}

theorem updated_all {id : String} {patch : List (String × Value)} {now : Time.Moment}
    {updated : Option Dataset} (hs : r.datasets.All P)
    (hp : ∀ current d, r.find? id = .ok (some current) → current.patched patch now = .ok d → P d)
    (h : r.update id patch now = .ok (updated, r')) : r'.datasets.All P := by
  obtain ⟨result, hupdate, hr⟩ := map_eq_ok h
  cases hr
  exact DatasetStore.update_all hs hp hupdate

theorem Analysed.all {id : String} (h : Analysed id r r') (hs : r.datasets.All P)
    (hp : ∀ (p : AnalysisPatch) current d now, r.find? id = .ok (some current) →
      current.patched p.entries now = .ok d → P d) : r'.datasets.All P := by
  cases h with
  | unwritten => exact hs
  | written hupdate => exact updated_all hs (fun current d => hp _ current d _) hupdate

/-- A property of all kept datasets stays, if new ones have it and patches do not take it away. -/
theorem Effect.all {o : Operation} {a : Except Error Answer} (h : Effect r o a r')
    (hs : r.datasets.All P)
    (hnew : ∀ userId request defaults d, o = .create userId request →
      OwnsDatasource r userId (namedDatasource request.tableConfig request.sqlConfig) →
      Dataset.ofDocument defaults (newDocument userId request) = .ok d → P d)
    (hchanged : ∀ userId id changes current d now, o = .update userId id changes →
      r.find? id = .ok (some current) →
      ((configKeys.any fun k => (changes.given.entries.lookup k).isSome) = true →
        OwnsDatasource r current.userId
          (namedDatasource changes.value.tableConfig changes.value.sqlConfig)) →
      current.patched changes.given.entries now = .ok d → P d)
    (hanalysed : ∀ (r₁ : Repository) id (p : AnalysisPatch) current d now, r₁.datasets.All P →
      r₁.find? id = .ok (some current) → current.patched p.entries now = .ok d → P d) :
    r'.datasets.All P := by
  cases h with
  | unwritten => exact hs
  | created howns hdocument hcreate hanalysis =>
    obtain ⟨datasets, hstored, rfl⟩ := map_eq_ok hcreate
    have hmade := DatasetStore.create_all hs (Dataset.inOrder_of_ofDocument hdocument)
      (hnew _ _ _ _ rfl howns hdocument) hstored
    exact hanalysis.all hmade fun p current d now => hanalysed _ _ p current d now hmade
  | updated hfind _ _ howns hupdate =>
    refine updated_all hs (fun current d hcurrent hd => ?_) hupdate
    cases hfind.symm.trans hcurrent
    exact hchanged _ _ _ _ _ _ rfl hfind howns hd
  | deleted _ _ hdelete =>
    obtain ⟨⟨deleted, datasets⟩, hdeleted, hr⟩ := map_eq_ok hdelete
    cases hr
    exact DatasetStore.delete_all hs hdeleted
  | refreshed _ _ hanalysis =>
    exact hanalysis.all hs fun p current d now => hanalysed _ _ p current d now hs

end Kept

section Jobs
variable {h : Host ε} (hh : h.Confined)
include hh

/-- A job that is run analyses one dataset. -/
theorem runNextJob_analysed (w : World ε) :
    ∃ id, Analysed id w.repository (runNextJob h w).2.repository := by
  simp only [runNextJob, Run.bind_apply, Run.get_apply]
  cases w.queue with
  | nil => exact ⟨"", .unwritten⟩
  | cons job rest =>
    obtain ⟨hok, hanalysed⟩ := analyse_analysed hh job.datasetId { w with queue := rest }
    refine ⟨job.datasetId, ?_⟩
    rcases hrun : analyse h job.datasetId { w with queue := rest } with ⟨a, w'⟩
    rw [hrun] at hok hanalysed
    simp only at hok
    subst hok
    simp only [Run.bind_apply, Run.modify_apply, hrun]
    exact hanalysed

end Jobs

end DatasetCatalog.Service
