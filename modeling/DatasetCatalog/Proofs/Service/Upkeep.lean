import DatasetCatalog.Proofs.Service.Agreement
import DatasetCatalog.Proofs.Service.Readings

/-!
# Upkeep of the agreement

Every operation keeps the agreement of cache and repository, whether it fails or not. So the two
agree in every world that comes of an empty repository by operations one after another, with
analyses, sweeps of the cache and changes around the service between them. Rows stay in the cache
only as long as the dataset that they are tagged with is as it was.
-/

namespace DatasetCatalog.Service

open Cache Store

variable {ε α β : Type}

/-- The world agrees still, knows the same datasources, and holds no rows but those that it held
before, whose datasets are as they were. -/
structure World.Carried (w w' : World ε) : Prop where
  agrees : w'.Agrees
  datasources : ∀ id, w'.repository.datasource? id = w.repository.datasource? id
  rows : ∀ {key v tags}, v.IsRows → w'.cache.Holds key v tags →
    w.cache.Holds key v tags ∧ ∀ id d, datasetTag id ∈ tags →
      w.repository.find? id = .ok (some d) → w'.repository.find? id = .ok (some d)

/-- What a world that agrees holds is carried over. -/
def World.Carries (w w' : World ε) : Prop := w.Agrees → w.Carried w'

theorem World.AtRest.carried {w w' : World ε} (h : w.AtRest w') : w.Carried w' where
  agrees := h.agrees
  datasources := fun id => by rw [h.repository]
  rows := fun hv held => ⟨h.rows hv held, fun _ _ _ hfind => h.repository ▸ hfind⟩

theorem World.Carried.trans {w w' w'' : World ε} (h : w.Carried w') (h' : w'.Carried w'') :
    w.Carried w'' where
  agrees := h'.agrees
  datasources := fun id => (h'.datasources id).trans (h.datasources id)
  rows := by
    intro key v tags hv held
    obtain ⟨held', hsame'⟩ := h'.rows hv held
    obtain ⟨held'', hsame⟩ := h.rows hv held'
    exact ⟨held'', fun id d htag hfind => hsame' id d htag (hsame id d htag hfind)⟩

instance : World.Sequential (World.Carries (ε := ε)) where
  refl _ hw := (World.AtRest.refl hw).carried
  trans h h' hw := (h hw).trans (h' (h hw).agrees)

theorem Run.Within.carries {x : Run ε α} (hx : x.Within World.Rests) : x.Within World.Carries :=
  hx.mono fun h hw => (h hw).carried

theorem Run.Within.agreesStill {x : Run ε α} (hx : x.Within World.Carries) :
    x.Within World.StillAgrees :=
  hx.mono fun h hw => (h hw).agrees

section Changes
variable {w w' : World ε}

theorem World.Agrees.carried_of_keeps (hw : w.Agrees) (h : w.Keeps w') : w.Carried w' := by
  have hagrees := hw.keeps h
  obtain ⟨e, rfl⟩ := h
  exact ⟨hagrees, fun _ => rfl, fun _ held => ⟨held, fun _ _ _ hfind => hfind⟩⟩

theorem World.Agrees.carried_of_create (hw : w.Agrees) {d : Dataset} (hd : d.Configured)
    {r : Repository} (h : w.repository.create d = .ok r) :
    w.Carried { w with repository := r } := by
  have hagrees := hw.create hd h
  obtain ⟨_, hframe⟩ := Repository.create_frame hw.keepsIds h
  exact ⟨hagrees, Repository.create_datasource? h,
    fun _ held => ⟨held, fun id d _ hfind => hframe id d hfind⟩⟩

theorem Change.written?_datasource? {x : Change} {r r' : Repository} {id : String}
    (h : x.written? r id = some r') (other : String) :
    r'.datasource? other = r.datasource? other := by
  cases x with
  | patch p now =>
    simp only [written?] at h
    split at h
    · rename_i hu
      cases h
      exact Repository.update_datasource? hu other
    · cases h
  | delete =>
    simp only [written?] at h
    split at h
    · rename_i hd
      cases h
      exact Repository.delete_datasource? hd other
    · cases h

/-- The rows of a dataset are dropped behind a change of it; others are carried over. -/
theorem World.Agrees.carried_of_invalidate {id : String} (hw : w.Agrees)
    (h : w.Keeps w' ∨ w.Writes id w') : w.Carried (Service.invalidate id w').2 := by
  have hagrees := hw.invalidate h
  rcases h with ⟨e, rfl⟩ | ⟨x, r, e, hr, rfl⟩
  · exact ⟨hagrees, fun _ => rfl, fun _ held =>
      ⟨(Store.holds_of_removeByTags held).1, fun _ _ _ hfind => hfind⟩⟩
  obtain ⟨_, hframe⟩ := x.written?_frame hw.keepsIds hr
  refine ⟨hagrees, x.written?_datasource? hr, ?_⟩
  intro key v tags _ held
  obtain ⟨hold, hshare⟩ := Store.holds_of_removeByTags held
  refine ⟨hold, fun other d htag hfind => ?_⟩
  have hne : other ≠ id := by
    rintro rfl
    rw [sharesTag_iff.mpr ⟨_, htag, List.mem_singleton_self _⟩] at hshare
    cases hshare
  exact (hframe other hne).trans hfind

end Changes

theorem load_carries (id : String) : (load id : Run ε Dataset).Within World.Carries :=
  (load_confined id).mono fun h hw => hw.carried_of_keeps h

theorem getDataset_carries (userId id : String) :
    (getDataset userId id : Run ε Dataset).Within World.Carries :=
  (getDataset_rests userId id).carries

theorem getDataset_stillAgrees (userId id : String) :
    (getDataset userId id : Run ε Dataset).Within World.StillAgrees :=
  (getDataset_rests userId id).stillAgrees

section Operations
variable {h : Host ε} (hh : h.Confined)
include hh

theorem analyse_carries (id : String) : (analyse h id).Within World.Carries := by
  intro w hw
  obtain ⟨w', hrun, hchange⟩ := analyse_invalidates hh id w
  rw [hrun]
  exact hw.carried_of_invalidate (hchange.imp_right World.Analyses.writes)

omit hh in
/-- Work for later does not touch what is held. -/
theorem modify_queue_carries (f : World ε → World ε)
    (hf : ∀ w, (f w).repository = w.repository ∧ (f w).cache = w.cache) :
    (modify f : Run ε Unit).Within World.Carries := by
  intro w hw
  obtain ⟨hrepository, hcache⟩ := hf w
  refine ⟨⟨?_, ?_, ?_⟩, ?_, ?_⟩
  · exact hrepository ▸ hw.keepsIds
  · exact hrepository ▸ hw.inOrder
  · exact hrepository ▸ hcache ▸ hw.cached
  · exact fun _ => hrepository ▸ rfl
  · intro key v tags _ held
    exact ⟨hcache ▸ held, fun _ _ _ hfind => hrepository ▸ hfind⟩

theorem schedule_carries (id : String) : (schedule h id).Within World.Carries := by
  refine .bind .get fun w => ?_
  cases w.background with
  | inline => exact .bind (analyse_carries hh id) fun _ => .pure _
  | queued => exact .bind (modify_queue_carries _ fun _ => ⟨rfl, rfl⟩) fun _ => .pure _

theorem create_carries (ownerId : String) (r : CreateRequest) :
    (create h ownerId r).Within World.Carries := by
  refine .bind (.checkSource getDataset_carries _ _ _ _) fun _ => ?_
  refine .bind (.checkNameFree _ _) fun _ => .bind .get fun w => ?_
  refine .afterExcept fun d hd => ?_
  have hconfigured := Dataset.configured_of_ofDocument (mapError_eq_ok hd)
  intro w hw
  simp only [Run.bind_apply, Run.get_apply, Run.ofExcept_apply, setRepository, Run.modify_apply]
  cases hcreate : w.repository.create d with
  | error e => exact (World.AtRest.refl hw).carried
  | ok r =>
    have hcreated := hw.carried_of_create hconfigured hcreate
    have hschedule := hcreated.trans (schedule_carries hh d.id _ hcreated.agrees)
    simp only
    rcases hs : schedule h d.id { w with repository := r } with ⟨_ | _, w'⟩ <;>
      rw [hs] at hschedule <;> exact hschedule

theorem update_carries (userId id : String) {v : Value}
    {changes : Document.Reading UpdateRequest}
    (hread : Document.model UpdateRequest.reader v = .ok changes) :
    (update h userId id changes).Within World.Carries := by
  refine .bind (load_carries id) fun current => ?_
  refine .bind (.ofExcept _) fun _ => ?_
  simp only
  split
  · exact .pure _
  refine .bind (.checkChanges getDataset_carries _ _ _ _) fun _ => .bind .get fun w => ?_
  refine .bind (.ofExcept _) fun _ => ?_
  let p : Patch := ⟨changes.given.entries, UpdateRequest.lookup_id_given hread⟩
  intro w hw
  rw [Run.bind_apply]
  rcases hu : updateStored h id changes.given.entries w with ⟨a, w'⟩
  rcases updateStored_cases (p := p) hh.beforeUpdate hu with ⟨hkeeps, hnone⟩ | ⟨d, rfl, hpatches⟩
  · rcases a with e | _ | d
    · exact hw.carried_of_keeps hkeeps
    · exact hw.carried_of_keeps hkeeps
    · exact absurd rfl (hnone d)
  · exact hw.carried_of_invalidate (.inr hpatches.writes)

omit hh in
theorem delete_carries (userId id : String) :
    (delete userId id : Run ε Unit).Within World.Carries := by
  intro w hw
  simp only [delete, Run.bind_apply, load_apply, require_apply, Run.get_apply, Run.ofExcept_apply,
    setRepository, Run.modify_apply]
  cases hload : readDataset w.repository id with
  | error e => exact (World.AtRest.refl hw).carried
  | ok current =>
    simp only
    cases current.require userId .owner with
    | error e => exact (World.AtRest.refl hw).carried
    | ok u =>
      simp only
      cases hdelete : w.repository.delete id with
      | error e => exact (World.AtRest.refl hw).carried
      | ok result =>
        obtain ⟨deleted, r⟩ := result
        obtain rfl := Repository.deleted_of_find? (readDataset_eq_ok.mp hload) hdelete
        have hwritten : Change.delete.written? w.repository id = some r := by
          simp only [Change.written?, hdelete]
        exact hw.carried_of_invalidate (.inr ⟨.delete, r, w.surroundings, hwritten, rfl⟩)

theorem refresh_carries (userId id : String) : (refresh h userId id).Within World.Carries := by
  refine .bind (load_carries id) fun d => ?_
  exact .bind (.ofExcept _) fun _ => schedule_carries hh id

omit hh in
theorem search_carries (userId : String) (params : SearchParams) :
    (search userId params : Run ε SearchResult).Within World.Carries :=
  .bind .get fun _ => .ofExcept _

/-- Rows that are computed are no dataset. -/
theorem execute_stillAgrees (source : Datasource) (statement : Query.Statement)
    (timeoutMs : Option Int) {f : Source.ExecutionResult → Cached}
    (hf : ∀ result d, f result ≠ .dataset d) {key : String} {ttl : Float} {tags : List String} :
    (cached key ttl tags (do
      return f (← h.execute source statement (← timeoutOr timeoutMs)))).Within
        World.StillAgrees := by
  refine cached_stillAgrees key ttl tags ?_ ?_
  · refine .bind (.timeoutOr _) fun ms => ?_
    exact .bind (hh.execute source statement ms).stillAgrees fun _ => .pure _
  · intro w d hok
    have hrun : _ = (Except.ok (Cached.dataset d), _) := Prod.ext hok rfl
    obtain ⟨ms, _, _, hrun⟩ := run_bind_eq_ok hrun
    obtain ⟨result, _, _, hrun⟩ := run_bind_eq_ok hrun
    exact hf result d (Except.ok.inj (Prod.mk.inj hrun).1)

theorem reads_stillAgrees : h.Reads World.StillAgrees :=
  ⟨getDataset_stillAgrees, fun source statement timeoutMs _ hf _ _ _ _ =>
    execute_stillAgrees hh source statement timeoutMs hf⟩

/-- A request to change a dataset has been read from what was sent. -/
def Operation.WasRead : Operation → Prop
  | .update _ _ changes => ∃ v, Document.model UpdateRequest.reader v = .ok changes
  | _ => True

/-- The operations that read no rows. -/
def Operation.IsUpkeep : Operation → Prop
  | .create .. | .update .. | .delete .. | .get .. | .refresh .. | .search .. => True
  | _ => False

theorem perform_carries {o : Operation} (ho : o.WasRead) (hupkeep : o.IsUpkeep) :
    (perform h o).Within World.Carries := by
  cases o with
  | create userId request => exact .map (create_carries hh userId request) _
  | update userId id changes =>
    obtain ⟨v, hread⟩ := ho
    exact .map (update_carries hh userId id hread) _
  | delete userId id => exact .bind (delete_carries userId id) fun _ => .pure _
  | get userId id => exact .map (getDataset_carries userId id) _
  | refresh userId id => exact .map (refresh_carries hh userId id) _
  | search userId params => exact .map (search_carries userId params) _
  | _ => exact hupkeep.elim

theorem perform_stillAgrees {o : Operation} (ho : o.WasRead) :
    (perform h o).Within World.StillAgrees := by
  by_cases hreads : o.OnlyReads
  · exact (reads_stillAgrees hh).perform hreads
  · cases o with
    | create | update | delete | refresh => exact (perform_carries hh ho trivial).agreesStill
    | _ => exact absurd trivial hreads

theorem runNextJob_carries : (runNextJob h).Within World.Carries := by
  refine .bind .get fun w => ?_
  cases w.queue with
  | nil => exact .pure _
  | cons job rest =>
    refine .bind (modify_queue_carries _ fun _ => ⟨rfl, rfl⟩) fun _ => ?_
    refine .bind (analyse_carries hh _) fun _ => ?_
    exact .bind (modify_queue_carries _ fun _ => ⟨rfl, rfl⟩) fun _ => .pure _

end Operations

/-- The worlds that operations make of an empty repository, one after another. Between them jobs
are run, the cache is swept, time passes, and datasources come and go. -/
inductive World.Reachable (h : Host ε) : World ε → Prop
  | start {r : Repository} (empty : r.datasets = .emptyMemory ∨ r.datasets = .emptyRows)
      (settings : Settings) (background : Background) (surroundings : ε) :
    Reachable h (World.start r settings background surroundings)
  | perform {w : World ε} {o : Operation} : Reachable h w → o.WasRead →
    Reachable h (perform h o w).2
  | analyse {w : World ε} (id : String) : Reachable h w → Reachable h (analyse h id w).2
  | runNextJob {w : World ε} : Reachable h w → Reachable h (runNextJob h w).2
  | cleanup {w : World ε} : Reachable h w →
    Reachable h { w with cache := (w.cache.cleanup w.clock).2 }
  | passes {w : World ε} (clock : Float) (now : Time.Moment) (freshId : String)
      (datasources : List Datasource) (surroundings : ε) : Reachable h w →
    Reachable h
      { w with clock, now, freshId, surroundings, repository := { w.repository with datasources } }

/-- In every world that is reached, the cache agrees with the repository. -/
theorem World.Reachable.agrees {h : Host ε} (hh : h.Confined) {w : World ε}
    (hw : World.Reachable h w) : w.Agrees := by
  induction hw with
  | start empty settings background surroundings =>
    refine ⟨DatasetStore.keepsIds_of_empty empty, DatasetStore.inOrder_of_empty empty, ?_⟩
    rintro id d tags ⟨e, he, _⟩
    cases he
  | perform _ ho ih => exact perform_stillAgrees hh ho _ ih
  | analyse id _ ih => exact (analyse_carries hh id _ ih).agrees
  | runNextJob _ ih => exact (runNextJob_carries hh _ ih).agrees
  | cleanup _ ih => exact ih.loses (Store.fades_cleanup _ _).holds
  | passes clock now freshId datasources surroundings _ ih =>
    exact ⟨ih.keepsIds, ih.inOrder, ih.cached⟩

end DatasetCatalog.Service
