import DatasetCatalog.Proofs.Service.Confinement
import DatasetCatalog.Proofs.Service.Interplay
import DatasetCatalog.Proofs.Success
import DatasetCatalog.Service.Editing

/-!
# Operations by their parts

An operation that nothing interrupts leaves the repository and the cache as its parts do, one after
the other.
-/

namespace DatasetCatalog.Service

variable {ε : Type}

/-- A service with no calls under way. -/
def World.interplay (w : World ε) : Interplay Float where
  repository := w.repository
  cache := { store := w.cache, now := w.clock }

/-- The parts have left the repository and the cache as the operation has. -/
def World.Matches (w : World ε) (c : Interplay Float) : Prop :=
  w.repository = c.repository ∧ w.cache = c.cache.store

theorem require_apply (d : Dataset) (userId : String) (role : Role) (w : World ε) :
    require d userId role w = (d.require userId role, w) := rfl

/-- The check of the caller's role leaves the world as it is. -/
theorem state_require (d : Dataset) (userId : String) (role : Role) (w : World ε) :
    ((require d userId role >>= fun _ => pure d : Run ε Dataset) w).2 = w := by
  rw [Run.bind_apply, require_apply]
  cases d.require userId role <;> rfl

section Get
variable (userId id : String) (w : World ε)

/-- What becomes of the world does not depend on what the caller may see. -/
theorem state_getDataset : (getDataset userId id w).2 =
    (cached (Cache.datasetKey id) w.settings.datasetCacheTtl
      [Cache.datasetTag id, Cache.userTag userId] (return .dataset (← load id)) w).2 := by
  simp only [getDataset, Run.bind_apply, Run.get_apply]
  rcases cached (Cache.datasetKey id) w.settings.datasetCacheTtl
    [Cache.datasetTag id, Cache.userTag userId] (return .dataset (← load id)) w with ⟨_ | v, w'⟩
  · rfl
  · cases v with
    | dataset d => exact state_require d userId .viewer w'
    | preview r => rfl
    | query r => rfl

theorem interplay_after_get {b : Cache.Begun Float Cached} {store : Cache.Store Float Cached}
    (hb : w.cache.begin w.clock (Cache.datasetKey id) (some w.settings.datasetCacheTtl)
      [Cache.datasetTag id, Cache.userTag userId] = (b, store)) :
    w.interplay.after (.get userId id w.settings.datasetCacheTtl) =
      { repository := w.repository
        gets := [(0, id)]
        cache := match b with
          | .hit v => { store, now := w.clock, time := 1, returns := [⟨0, .value v⟩] }
          | .joined ticket => { store, now := w.clock, time := 1, waiting := [(0, ticket)] }
          | .leads lead => { store, now := w.clock, time := 1, leading := [(0, lead)] } } := by
  have hbegin : w.interplay.cache.store.begin w.interplay.cache.now (Cache.datasetKey id)
      (some w.settings.datasetCacheTtl) [Cache.datasetTag id, Cache.userTag userId] =
      (b, store) := hb
  simp only [Interplay.after, Interplay.traffic, Cache.Traffic.after, Cache.Traffic.take, hbegin]
  cases b <;> rfl

theorem getDataset_matches : (getDataset userId id w).2.Matches
    (w.interplay.run [.get userId id w.settings.datasetCacheTtl, .load 0, .finish 0]) := by
  rw [state_getDataset, cached_apply, Interplay.run, List.foldl_cons]
  simp only [Run.bind_apply, load_apply, Run.pure_apply]
  rcases hb : w.cache.begin w.clock (Cache.datasetKey id) (some w.settings.datasetCacheTtl)
    [Cache.datasetTag id, Cache.userTag userId] with ⟨b, store⟩
  rw [interplay_after_get userId id w hb]
  cases b with
  | hit v => exact ⟨rfl, rfl⟩
  | joined ticket => exact ⟨rfl, rfl⟩
  | leads lead =>
    have hload : Interplay.after
        { repository := w.repository, gets := [(0, id)]
          cache := { store, now := w.clock, time := 1, leading := [(0, lead)] } } (.load 0) =
        { repository := w.repository, gets := [(0, id)]
          found := [(0, readDataset w.repository id)]
          cache := { store, now := w.clock, time := 2, leading := [(0, lead)] } } := rfl
    rw [List.foldl_cons, hload]
    cases readDataset w.repository id with
    | ok d => exact ⟨rfl, rfl⟩
    | error e => exact ⟨rfl, rfl⟩

end Get

/-- What an analysis may write of a dataset. -/
def analysisKeys : List String :=
  ["fields", "metadata", "quality_issues", "quality_score", "status", "last_error"]

/-- A patch that states nothing but what an analysis may write. -/
structure AnalysisPatch extends Patch where
  keys : ∀ key, key ∉ analysisKeys → entries.lookup key = none

/-- The findings as a patch. -/
theorem exists_patch_of_findings {now : Time.Moment} {fields : List Field} {columns : List String}
    {rows : List Inference.Row} {entries : List (String × Value)}
    (h : findings now fields columns rows = .ok entries) :
    ∃ p : AnalysisPatch, p.entries = entries := by
  have hkeys : entries.map Prod.fst = analysisKeys := by
    obtain ⟨issues, _, h⟩ := bind_eq_ok h
    obtain ⟨text, _, h⟩ := bind_eq_ok h
    obtain ⟨score, _, h⟩ := bind_eq_ok h
    cases h
    rfl
  have hnone (key : String) (hkey : key ∉ analysisKeys) : entries.lookup key = none := by
    apply Document.EntriesReader.lookup_eq_none_of_not_mem
    rw [hkeys]
    exact hkey
  exact ⟨⟨⟨entries, hnone "id" (by decide)⟩, hnone⟩, rfl⟩

/-- One change of the dataset has been written; besides, at most the surroundings have changed. -/
def World.Writes (id : String) (w w' : World ε) : Prop :=
  ∃ (x : Change) (r : Store.Repository) (e : ε), x.written? w.repository id = some r ∧
    w' = { w with surroundings := e, repository := r }

/-- A patch of the dataset has been written; besides, at most the surroundings have changed. -/
def World.Patches (p : Patch) (id : String) (d : Dataset) (w w' : World ε) : Prop :=
  ∃ (r : Store.Repository) (e : ε), w.repository.update id p.entries w.now = .ok (some d, r) ∧
    w' = { w with surroundings := e, repository := r }

theorem World.Patches.writes {p : Patch} {id : String} {d : Dataset} {w w' : World ε}
    (h : w.Patches p id d w') : w.Writes id w' := by
  obtain ⟨r, e, hr, rfl⟩ := h
  refine ⟨.patch p w.now, r, e, ?_, rfl⟩
  simp only [Change.written?, hr]

theorem World.Keeps.patches {p : Patch} {id : String} {d : Dataset} {w w' w'' : World ε}
    (h : w.Keeps w') (h' : w'.Patches p id d w'') : w.Patches p id d w'' := by
  obtain ⟨e, rfl⟩ := h
  obtain ⟨r, e', hr, rfl⟩ := h'
  exact ⟨r, e', hr, rfl⟩

/-- The outcome of an analysis has been written, be it its findings or its failure. -/
def World.Analyses (id : String) (w w' : World ε) : Prop :=
  ∃ (p : AnalysisPatch) (d : Dataset), w.Patches p.toPatch id d w'

theorem World.Analyses.writes {id : String} {w w' : World ε} (h : w.Analyses id w') :
    w.Writes id w' := by
  obtain ⟨p, d, h⟩ := h
  exact h.writes

theorem World.Keeps.analyses {id : String} {w w' w'' : World ε} (h : w.Keeps w')
    (h' : w'.Analyses id w'') : w.Analyses id w'' := by
  obtain ⟨p, d, h'⟩ := h'
  exact ⟨p, d, h.patches h'⟩

section Dropping
variable {id : String} {w w' : World ε}

theorem matches_of_keeps (h : w.Keeps w') :
    (invalidate id w').2.Matches (w.interplay.run [.drop id]) := by
  obtain ⟨e, rfl⟩ := h
  exact ⟨rfl, rfl⟩

/-- A write and the dropping of the tag are two parts, the second known by the first. -/
theorem matches_of_written {x : Change} {r : Store.Repository}
    (hr : x.written? w.repository id = some r) (e : ε) :
    (invalidate id { w with surroundings := e, repository := r }).2.Matches
      (w.interplay.run [.write id x, .invalidate 0]) := by
  have hwrite : w.interplay.after (.write id x) =
      { repository := r, writers := [(0, id)]
        cache := { store := w.cache, now := w.clock, time := 1 } } := by
    have hr' : x.written? w.interplay.repository id = some r := hr
    simp only [Interplay.after, Interplay.take, hr']
    rfl
  rw [Interplay.run, List.foldl_cons, hwrite]
  exact ⟨rfl, rfl⟩

theorem matches_of_writes (h : w.Writes id w') :
    ∃ x, (invalidate id w').2.Matches (w.interplay.run [.write id x, .invalidate 0]) := by
  obtain ⟨x, r, e, hr, rfl⟩ := h
  exact ⟨x, matches_of_written hr e⟩

end Dropping

section Writing
variable {h : Host ε} (hb : ∀ id, (h.beforeUpdate id).Confined) {id : String} {w w' : World ε}
include hb

/-- A write that does not come about leaves everything as it is. -/
theorem updateStored_cases {p : Patch} {a : Except Error (Option Dataset)}
    (hu : updateStored h id p.entries w = (a, w')) :
    (w.Keeps w' ∧ ∀ d, a ≠ .ok (some d)) ∨ ∃ d, a = .ok (some d) ∧ w.Patches p id d w' := by
  simp only [updateStored, Run.bind_apply, Run.get_apply, Run.ofExcept_apply, setRepository,
    Run.modify_apply, Run.pure_apply] at hu
  have hbefore := hb id w
  rcases hb : h.beforeUpdate id w with ⟨_ | _, w₁⟩
  · rw [hb] at hu hbefore
    obtain ⟨rfl, rfl⟩ := Prod.mk.inj hu
    exact .inl ⟨hbefore, fun d hd => by cases hd⟩
  · rw [hb] at hu hbefore
    simp only at hu
    cases hr : w₁.repository.update id p.entries w₁.now with
    | error e =>
      rw [hr] at hu
      obtain ⟨rfl, rfl⟩ := Prod.mk.inj hu
      exact .inl ⟨hbefore, fun d hd => by cases hd⟩
    | ok result =>
      obtain ⟨updated, r⟩ := result
      rw [hr] at hu
      obtain ⟨rfl, rfl⟩ := Prod.mk.inj hu
      cases updated with
      | none =>
        rw [Store.Repository.eq_of_update_none hr]
        exact .inl ⟨hbefore, fun d hd => by cases hd⟩
      | some d => exact .inr ⟨d, rfl, hbefore.patches ⟨r, w₁.surroundings, hr, rfl⟩⟩

/-- The patch that records the failure of an analysis. -/
def failurePatch (message : String) : AnalysisPatch where
  entries := [("status", .named DatasetStatus.error), ("last_error", .text message)]
  keepsId := rfl
  keys key hkey := by
    apply Document.EntriesReader.lookup_eq_none_of_not_mem
    intro hmem
    exact hkey
      (List.mem_append_right ["fields", "metadata", "quality_issues", "quality_score"] hmem)

theorem markError_cases {message : String} {a : Except Error Unit}
    (hm : markError h id message w = (a, w')) :
    a = .ok () ∧ (w.Keeps w' ∨ w.Analyses id w') := by
  let p := failurePatch message
  have hmark : markError h id message w = (.ok (), (updateStored h id p.entries w).2) := rfl
  rw [hmark] at hm
  cases hm
  refine ⟨rfl, ?_⟩
  rcases updateStored_cases hb rfl with ⟨hkeeps, _⟩ | ⟨d, _, hpatches⟩
  · exact .inl hkeeps
  · exact .inr ⟨p, d, hpatches⟩

/-- A computation that writes last: it has written nothing, or it has come to its end. -/
def Run.WritesLast {α : Type} (id : String) (x : Run ε (Option α)) : Prop :=
  ∀ w : World ε, w.Keeps (x w).2 ∨ (x w).1 = .ok none ∧ w.Analyses id (x w).2

omit hb in
theorem Run.Confined.writesLast {α : Type} {x : Run ε (Option α)} (hx : x.Confined) :
    x.WritesLast id := fun w => .inl (hx w)

omit hb in
theorem Run.WritesLast.after {α β : Type} {x : Run ε α} {f : α → Run ε (Option β)}
    (hx : x.Confined) (hf : ∀ a, (f a).WritesLast id) : (x >>= f).WritesLast id := by
  intro w
  have hkeeps := hx w
  rw [bind_apply]
  rcases hxw : x w with ⟨_ | a, w'⟩
  · rw [hxw] at hkeeps
    exact .inl hkeeps
  · rw [hxw] at hkeeps
    rcases hf a w' with h' | ⟨hend, h'⟩
    · exact .inl (hkeeps.trans h')
    · exact .inr ⟨hend, hkeeps.analyses h'⟩

omit hb in
theorem Run.WritesLast.afterExcept {α β : Type} {a : Except Error α} {f : α → Run ε (Option β)}
    (hf : ∀ b, a = .ok b → (f b).WritesLast id) : (Run.ofExcept a >>= f).WritesLast id := by
  intro w
  rw [bind_apply]
  cases a with
  | error e => exact .inl (.refl w)
  | ok b => exact hf b rfl w

theorem updateStored_writesLast {α : Type} (id : String) (p : AnalysisPatch) :
    (updateStored h id p.entries >>= fun _ => pure none : Run ε (Option α)).WritesLast id := by
  intro w
  rw [Run.bind_apply]
  rcases hu : updateStored h id p.entries w with ⟨a, w'⟩
  rcases updateStored_cases hb hu with ⟨hkeeps, _⟩ | ⟨d, rfl, hpatches⟩
  · cases a <;> exact .inl hkeeps
  · exact .inr ⟨rfl, p, d, hpatches⟩

/-- What an analysis does when the sample is there, or could not be taken. -/
def concludeAnalysis (h : Host ε) (id : String) :
    Except Error Source.ExecutionResult → Run ε (Option AnalysisFailure)
  | .error e =>
    match foreseen? e with
    | some message => return some (.sampling message)
    | none => throw e
  | .ok result => do
    let inferred ← Run.ofBreakdown (Inference.inferFields result.columns result.rows)
    match ← Run.ofExcept ((← get).repository.find? id) with
    | none => return none
    | some latest =>
      let fields := Inference.mergeFields latest.fields inferred
      let patch ← Run.ofBreakdown (findings (← get).now fields result.columns result.rows)
      let _ ← updateStored h id patch
      return none

/-- The findings are the last thing that an analysis writes, and the only one. -/
theorem concludeAnalysis_writesLast (id : String) (sampled : Except Error Source.ExecutionResult) :
    (concludeAnalysis h id sampled).WritesLast id := by
  unfold concludeAnalysis
  split
  · split
    · exact Run.Confined.writesLast (.pure _)
    · exact Run.Confined.writesLast (.throw _)
  rename_i result
  refine .after (.ofExcept _) fun inferred => .after .get fun w' => .after (.ofExcept _) ?_
  rintro (_ | latest)
  · exact Run.Confined.writesLast (.pure _)
  refine .after .get fun w'' => .afterExcept fun entries hentries => ?_
  cases hfindings : findings w''.now (Inference.mergeFields latest.fields inferred)
      result.columns result.rows with
  | error b =>
    rw [hfindings] at hentries
    cases hentries
  | ok found =>
    rw [hfindings] at hentries
    obtain rfl : found = entries := Except.ok.inj hentries
    obtain ⟨p, rfl⟩ := exists_patch_of_findings hfindings
    exact updateStored_writesLast hb id p

/-- What is dropped after a failure was recorded, is dropped after one change at most. -/
theorem markError_invalidate (message : String) (hkeeps : w.Keeps w') : ∃ w'',
    (markError h id message >>= fun _ => invalidate id) w' = invalidate id w'' ∧
      (w.Keeps w'' ∨ w.Analyses id w'') := by
  rw [Run.bind_apply]
  rcases hm : markError h id message w' with ⟨a, w''⟩
  obtain ⟨rfl, hcases⟩ := markError_cases hb hm
  exact ⟨w'', rfl, hcases.imp hkeeps.trans hkeeps.analyses⟩

/-- What is left to do of an analysis after the sample. -/
def settle (h : Host ε) (id : String) (sampled : Except Error Source.ExecutionResult) :
    Run ε Unit := do
  match ← (concludeAnalysis h id sampled).attempt with
  | .ok none => pure ()
  | .ok (some failure) => markError h id failure.message
  | .error _ => markError h id AnalysisFailure.unexpected.message
  invalidate id

/-- The tag is dropped last, behind one change at most. -/
theorem settle_invalidates (id : String) (sampled : Except Error Source.ExecutionResult)
    (w : World ε) :
    ∃ w', settle h id sampled w = invalidate id w' ∧ (w.Keeps w' ∨ w.Analyses id w') := by
  have hstored := concludeAnalysis_writesLast hb id sampled w
  simp only [settle, Run.bind_apply, Run.attempt_apply]
  rcases hs : concludeAnalysis h id sampled w with ⟨_ | _ | failure, w₁⟩ <;> rw [hs] at hstored
  · rcases hstored with hkeeps | ⟨hend, _⟩
    · exact markError_invalidate hb _ hkeeps
    · cases hend
  · exact ⟨w₁, rfl, hstored.imp_right And.right⟩
  · rcases hstored with hkeeps | ⟨hend, _⟩
    · exact markError_invalidate hb _ hkeeps
    · cases hend

/-- The world in which an analysis goes on after the sample; there is none of a dataset that is not
found. -/
def World.afterSample (h : Host ε) (id : String) (w : World ε) : World ε :=
  match w.repository.find? id with
  | .ok (some d) => (sample h d w).2
  | _ => w

omit hb in
/-- An analysis by its sample. -/
theorem analyse_apply (h : Host ε) (id : String) (w : World ε) : analyse h id w =
    match w.repository.find? id with
    | .ok none => invalidate id w
    | .error _ => (markError h id AnalysisFailure.unexpected.message >>= fun _ => invalidate id) w
    | .ok (some d) => settle h id (sample h d w).1 (sample h d w).2 := by
  have hstored : analyseStored h id w = match w.repository.find? id with
      | .ok none => (.ok none, w)
      | .error e => (.error e, w)
      | .ok (some d) => concludeAnalysis h id (sample h d w).1 (sample h d w).2 := by
    simp only [analyseStored, Run.bind_apply, Run.get_apply, Run.ofExcept_apply]
    rcases w.repository.find? id with e | _ | d
    · rfl
    · rfl
    · simp only [Run.bind_apply, Run.attempt_apply]
      rcases sample h d w with ⟨_ | result, w'⟩ <;> rfl
  simp only [analyse, settle, Run.bind_apply, Run.attempt_apply, hstored]
  rcases w.repository.find? id with e | _ | d <;> rfl

/-- An analysis never fails. It drops the tag last, behind one change at most of what the sample has
left. -/
theorem analyse_invalidates_afterSample (id : String) (w : World ε) :
    ∃ w', analyse h id w = invalidate id w' ∧
      ((w.afterSample h id).Keeps w' ∨ (w.afterSample h id).Analyses id w') := by
  rw [analyse_apply]
  unfold World.afterSample
  rcases w.repository.find? id with e | _ | d
  · exact markError_invalidate hb _ (.refl w)
  · exact ⟨w, rfl, .inl (.refl w)⟩
  · exact settle_invalidates hb id _ _

end Writing

section Confined
variable {h : Host ε} (hh : h.Confined) {id : String} {w w' : World ε}
include hh

theorem analyse_invalidates (id : String) (w : World ε) :
    ∃ w', analyse h id w = invalidate id w' ∧ (w.Keeps w' ∨ w.Analyses id w') := by
  have hkeeps : w.Keeps (w.afterSample h id) := by
    unfold World.afterSample
    split
    · exact sample_confined hh _ w
    · exact .refl w
  obtain ⟨w', hrun, hchange⟩ := analyse_invalidates_afterSample hh.beforeUpdate id w
  exact ⟨w', hrun, hchange.imp hkeeps.trans hkeeps.analyses⟩

/-- The parts of an analysis are a write and the dropping of the tag, or the latter alone. -/
theorem analyse_matches (id : String) (w : World ε) : (analyse h id w).1 = .ok () ∧
    ((analyse h id w).2.Matches (w.interplay.run [.drop id]) ∨
      ∃ x, (analyse h id w).2.Matches (w.interplay.run [.write id x, .invalidate 0])) := by
  obtain ⟨w', hw', h' | h'⟩ := analyse_invalidates hh id w
  · rw [hw']
    exact ⟨rfl, .inl (matches_of_keeps h')⟩
  · rw [hw']
    exact ⟨rfl, .inr (matches_of_writes h'.writes)⟩

/-- The parts of an update, behind the checks that precede it, are a write and the dropping of the
tag. -/
theorem update_matches {v : Value} {changes : Document.Reading UpdateRequest}
    (hread : Document.model UpdateRequest.reader v = .ok changes)
    (hgiven : changes.given.entries.isEmpty = false) {userId : String} {d : Dataset}
    (hu : update h userId id changes w = (.ok d, w')) :
    ∃ current w₁ x, checkChanges userId current changes.value changes.given.entries w =
        (.ok (), w₁) ∧
      w'.Matches (w₁.interplay.run [.write id x, .invalidate 0]) := by
  obtain ⟨current, _, hload, hu⟩ := run_bind_eq_ok hu
  obtain ⟨_, rfl⟩ := Prod.mk.inj ((load_apply id w).symm.trans hload)
  obtain ⟨_, _, hrole, hu⟩ := run_bind_eq_ok hu
  obtain ⟨_, rfl⟩ := Prod.mk.inj hrole
  simp only [hgiven, Bool.false_eq_true, if_false] at hu
  obtain ⟨_, w₁, hchecks, hu⟩ := run_bind_eq_ok hu
  obtain ⟨_, _, hnow, hu⟩ := run_bind_eq_ok hu
  obtain ⟨_, rfl⟩ := Prod.mk.inj hnow
  obtain ⟨_, _, hfits, hu⟩ := run_bind_eq_ok hu
  obtain ⟨_, rfl⟩ := Prod.mk.inj hfits
  obtain ⟨updated, w₂, hstored, hu⟩ := run_bind_eq_ok hu
  let p : Patch := ⟨changes.given.entries, UpdateRequest.lookup_id_given hread⟩
  rcases updateStored_cases (p := p) hh.beforeUpdate hstored with ⟨_, hnone⟩ | ⟨_, hsome, hpatches⟩
  · cases updated with
    | none => cases hu
    | some d' => exact absurd rfl (hnone d')
  · cases hsome
    cases hu
    obtain ⟨x, hx⟩ := matches_of_writes hpatches.writes
    exact ⟨current, w₁, x, hchecks, hx⟩

end Confined

theorem delete_matches {userId id : String} {w w' : World ε}
    (h : delete userId id w = (.ok (), w')) :
    w'.Matches (w.interplay.run [.write id .delete, .invalidate 0]) := by
  obtain ⟨d, _, hload, h⟩ := run_bind_eq_ok h
  obtain ⟨hd, rfl⟩ := Prod.mk.inj ((load_apply id w).symm.trans hload)
  obtain ⟨_, _, hrole, h⟩ := run_bind_eq_ok h
  obtain ⟨_, rfl⟩ := Prod.mk.inj hrole
  obtain ⟨_, _, hget, h⟩ := run_bind_eq_ok h
  obtain ⟨hsame, rfl⟩ := Prod.mk.inj hget
  cases hsame
  obtain ⟨⟨deleted, r⟩, _, hrun, h⟩ := run_bind_eq_ok h
  obtain ⟨hdeleted, rfl⟩ := Prod.mk.inj hrun
  cases h
  obtain rfl := Store.Repository.deleted_of_find? (readDataset_eq_ok.mp hd) hdeleted
  have hwritten : Change.delete.written? w.repository id = some r := by
    simp only [Change.written?, hdeleted]
  exact matches_of_written hwritten w.surroundings

end DatasetCatalog.Service
