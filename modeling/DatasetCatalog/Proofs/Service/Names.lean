import DatasetCatalog.Proofs.Model.Changes
import DatasetCatalog.Proofs.Service.AllowedChanges
import DatasetCatalog.Proofs.Service.Failures
import DatasetCatalog.Proofs.Store.Labels
import DatasetCatalog.Proofs.Store.Readability

/-!
# Names are unique among the datasets of an owner

A dataset is created or renamed only behind a count that found its name free, and the count asks
for the owner of the dataset and not for the caller. So labels stay apart whatever is done, and a
permitted renaming is refused for its name exactly when another dataset of the owner has it.
-/

namespace DatasetCatalog.Service

open Document Store

variable {ε α β : Type}

/-- No label of the owner has the name. -/
def IsFree (r : Repository) (owner name : String) : Prop :=
  ∀ l ∈ r.datasets.labels, ¬ (l.owner = owner ∧ l.name = name)

theorem run_whenFirst_of_ok {c : Prop} {_ : Decidable c} {x : Run ε Unit}
    {next : Unit → Run ε β} {w : World ε} (hx : c → x w = (.ok (), w)) :
    (if c then x >>= next else next ()) w = next () w := by
  split
  · rename_i hc
    exact run_bind_of_ok (hx hc)
  · rfl

section Checks
variable {w w' : World ε} {ownerId name : String}

theorem checkNameFree_apply (w : World ε) : checkNameFree ownerId name w =
    match w.repository.datasets.matching (.titled ownerId name) with
    | .error e => (.error e, w)
    | .ok [] => (.ok (), w)
    | .ok (_ :: _) => (.error (.refused (.nameTaken name)), w) := by
  have hquery : ({ owner := some ownerId, name := some name } : DatasetQuery) =
    .titled ownerId name := rfl
  simp only [checkNameFree, Run.bind_apply, Run.get_apply, Run.ofExcept_apply, Repository.count,
    hquery]
  rcases w.repository.datasets.matching (.titled ownerId name) with e | _ | ⟨d, rest⟩ <;> rfl

variable (hall : w.repository.datasets.All fun _ => True)
include hall

theorem isFree_of_checkNameFree (h : checkNameFree ownerId name w = (.ok (), w')) :
    IsFree w.repository ownerId name := by
  rw [checkNameFree_apply] at h
  split at h
  · cases h
  · rename_i hnone
    exact DatasetStore.free_of_matching_nil hall rfl hnone
  · cases h

/-- A dataset that is created has a name that was free. -/
theorem isFree_of_create {h : Host ε} {request : CreateRequest} {d : Dataset}
    (hrun : create h ownerId request w = (.ok d, w')) :
    IsFree w.repository ownerId request.name := by
  obtain ⟨_, w₁, hsource, hrun⟩ := run_bind_eq_ok hrun
  have hsame := checkSource_sameData ownerId ownerId
    (namedDatasource request.tableConfig request.sqlConfig) request.viewConfig w
  rw [hsource] at hsame
  obtain ⟨_, w₂, hfree, _⟩ := run_bind_eq_ok hrun
  have hrepository : w₁.repository = w.repository := hsame
  rw [← hrepository] at hall ⊢
  exact isFree_of_checkNameFree hall hfree

/-- So has a dataset that is renamed. -/
theorem isFree_of_checkChanges {userId : String} {current : Dataset} {changes : UpdateRequest}
    {patch : List (String × Value)} (hname : changes.name = some name) (hne : name ≠ current.name)
    (hrun : checkChanges userId current changes patch w = (.ok (), w')) :
    IsFree w.repository current.userId name := by
  unfold checkChanges at hrun
  obtain ⟨w₁, hrole, hkept, hrest⟩ := run_whenFirst_eq_ok hrun
  have hfirst : w₁ = w := by
    by_cases hgiven : (patch.lookup "permissions").isSome = true
    · exact (Prod.mk.inj (hrole hgiven)).2.symm
    · exact hkept hgiven
  subst hfirst
  rw [hname] at hrest
  obtain ⟨w₂, hfree, _, _⟩ := run_whenFirst_eq_ok hrest
  exact isFree_of_checkNameFree hall (hfree (bne_iff_ne.mpr hne))

theorem isFree_of_update {h : Host ε} {userId id : String} {changes : Reading UpdateRequest}
    {current d : Dataset} (hfind : w.repository.find? id = .ok (some current))
    (hgiven : changes.given.entries.isEmpty = false) (hname : changes.value.name = some name)
    (hne : name ≠ current.name) (hrun : update h userId id changes w = (.ok d, w')) :
    IsFree w.repository current.userId name := by
  obtain ⟨loaded, _, hload, hrun⟩ := run_bind_eq_ok hrun
  obtain ⟨hloaded, rfl⟩ := Prod.mk.inj ((load_apply id w).symm.trans hload)
  obtain rfl : current = loaded :=
    Option.some.inj (Except.ok.inj (hfind.symm.trans (readDataset_eq_ok.mp hloaded)))
  obtain ⟨_, _, hrole, hrun⟩ := run_bind_eq_ok hrun
  obtain ⟨_, rfl⟩ := Prod.mk.inj hrole
  simp only [hgiven, Bool.false_eq_true, if_false] at hrun
  obtain ⟨_, _, hchecks, _⟩ := run_bind_eq_ok hrun
  exact isFree_of_checkChanges hall hname hne hchecks

/-- A dataset that is changed keeps its label, or takes a name that was free. -/
theorem keepsLabel_or_isFree_of_update {h : Host ε} {userId id : String} {v : Value}
    {changes : Reading UpdateRequest} {current changed d : Dataset} {now : Time.Moment}
    (hread : model UpdateRequest.reader v = .ok changes)
    (hfind : w.repository.find? id = .ok (some current))
    (hd : current.patched changes.given.entries now = .ok changed)
    (hrun : update h userId id changes w = (.ok d, w')) :
    changed.userId = current.userId ∧ changed.name = current.name ∨
      IsFree w.repository changed.userId changed.name := by
  have howner : changed.userId = current.userId := Dataset.userId_of_patched hread hd
  have hname := UpdateRequest.name_of_changed hread hd
  rw [howner, hname]
  by_cases hsame : changes.value.name.getD current.name = current.name
  · exact .inl ⟨rfl, hsame⟩
  · cases hgiven : changes.value.name with
    | none =>
      rw [hgiven] at hsame
      exact absurd rfl hsame
    | some name =>
      rw [hgiven] at hsame
      have hnonempty := UpdateRequest.given_nonempty hread hgiven
      exact .inr (isFree_of_update hall hfind hnonempty hgiven hsame hrun)

end Checks

section Invariant

theorem Analysed.labelsApart {id : String} {r r' : Repository} (h : Analysed id r r')
    (hall : r.datasets.All fun _ => True) (hids : r.KeepsIds) (hapart : r.datasets.LabelsApart) :
    r'.datasets.LabelsApart := by
  cases h with
  | unwritten => exact hapart
  | @written p now d _ hupdate =>
    obtain ⟨⟨updated, datasets⟩, hstored, hr⟩ := map_eq_ok hupdate
    cases hr
    refine hapart.update hall hids p.keepsId hstored fun current d _ hd => .inl ?_
    have hsame := (Dataset.agree_of_patched hd).mono p.keys
    exact ⟨hsame.userId (by decide), hsame.name (by decide)⟩

variable {h : Host ε} (hh : h.Confined) {w : World ε}
include hh

theorem perform_labelsApart {o : Operation} (ho : o.WasRead)
    (hall : w.repository.datasets.All fun _ => True) (hids : w.repository.KeepsIds)
    (hapart : w.repository.datasets.LabelsApart) :
    (perform h o w).2.repository.datasets.LabelsApart := by
  have heffect := perform_effect hh ho w
  rcases hrun : perform h o w with ⟨a, w'⟩
  rw [hrun] at heffect
  simp only at heffect ⊢
  generalize hr : w'.repository = r' at heffect ⊢
  cases heffect with
  | unwritten => exact hapart
  | @created userId request defaults d r₁ _ _ hdocument hcreate hanalysis =>
    rw [perform, map_apply] at hrun
    obtain ⟨d', hcreated, _⟩ := map_eq_ok (Prod.mk.inj hrun).1
    have hfree := isFree_of_create hall (Prod.ext hcreated rfl)
    have hmade := madeFor_of_newDocument hdocument
    rw [← hmade.userId, ← hmade.name] at hfree
    obtain ⟨hids₁, _⟩ := Repository.create_frame hids hcreate
    obtain ⟨datasets, hstored, rfl⟩ := map_eq_ok hcreate
    have hall₁ : datasets.All fun _ => True :=
      DatasetStore.create_all hall (Dataset.inOrder_of_ofDocument hdocument) trivial hstored
    exact hanalysis.labelsApart hall₁ hids₁ (hapart.create hstored hfree)
  | @updated userId id changes _ d now _ _ _ _ _ hupdate =>
    obtain ⟨v, hread⟩ := ho
    rw [perform, map_apply] at hrun
    obtain ⟨d', hupdated, _⟩ := map_eq_ok (Prod.mk.inj hrun).1
    obtain ⟨⟨updated, datasets⟩, hstored, hr'⟩ := map_eq_ok hupdate
    cases hr'
    refine hapart.update hall hids (UpdateRequest.lookup_id_given hread) hstored ?_
    intro found changed hfound hd
    exact keepsLabel_or_isFree_of_update hall hread hfound hd (Prod.ext hupdated rfl)
  | deleted _ _ hdelete =>
    obtain ⟨⟨deleted, datasets⟩, hdeleted, hr'⟩ := map_eq_ok hdelete
    cases hr'
    exact hapart.delete hdeleted
  | refreshed _ _ hanalysis => exact hanalysis.labelsApart hall hids hapart

theorem World.Reachable.labelsApart (hw : w.Reachable h) :
    w.repository.datasets.LabelsApart := by
  induction hw with
  | start empty settings background surroundings =>
    exact DatasetStore.labelsApart_of_empty empty
  | @perform w o hw ho ih =>
    exact perform_labelsApart hh ho (hw.keepsInOrder hh) (hw.agrees hh).keepsIds ih
  | @analyse w id hw ih =>
    exact (analyse_analysed hh id w).2.labelsApart (hw.keepsInOrder hh) (hw.agrees hh).keepsIds ih
  | @runNextJob w hw ih =>
    obtain ⟨id, hanalysed⟩ := runNextJob_analysed hh w
    exact hanalysed.labelsApart (hw.keepsInOrder hh) (hw.agrees hh).keepsIds ih
  | cleanup _ ih => exact ih
  | passes clock now freshId datasources surroundings _ ih => exact ih

end Invariant

/-- The run never refuses a name as taken. -/
def Run.SparesNames (x : Run ε α) : Prop :=
  ∀ w name, (x w).1 ≠ .error (.refused (.nameTaken name))

namespace Run.SparesNames

theorem pure (a : α) : SparesNames (Pure.pure a : Run ε α) := by
  intro w name h
  rw [Run.pure_apply] at h
  cases h

theorem get : SparesNames (get : Run ε (World ε)) := by
  intro w name h
  rw [Run.get_apply] at h
  cases h

theorem modify (f : World ε → World ε) : SparesNames (modify f : Run ε Unit) := by
  intro w name h
  rw [Run.modify_apply] at h
  cases h

theorem throw {e : Error} (he : ∀ name, e ≠ .refused (.nameTaken name)) :
    SparesNames (MonadExcept.throw e : Run ε α) := fun _ name h => he name (Except.error.inj h)

theorem ofExcept {a : Except Error α}
    (ha : ∀ name, a ≠ .error (.refused (.nameTaken name))) :
    SparesNames (Run.ofExcept a : Run ε α) := fun _ => ha

theorem bind {x : Run ε α} {f : α → Run ε β} (hx : x.SparesNames) (hf : ∀ a, (f a).SparesNames) :
    (x >>= f).SparesNames := by
  intro w name
  rw [Run.bind_apply]
  rcases hrun : x w with ⟨e | a, w'⟩
  · intro h
    refine hx w name ?_
    rw [hrun]
    exact congrArg Except.error (Except.error.inj h)
  · exact hf a w' name

theorem refuseIf {c : Prop} [Decidable c] {e : Error} {next : PUnit → Run ε α}
    (he : ∀ name, e ≠ .refused (.nameTaken name)) (h : ∀ u, (next u).SparesNames) :
    SparesNames (if c then MonadExcept.throw e >>= next else next ⟨⟩) := by
  split
  · exact bind (throw he) h
  · exact h ⟨⟩

end Run.SparesNames

section Refusals
variable {r : Repository} {id name : String}

theorem matching_spares (s : DatasetStore) (q : DatasetQuery) :
    s.matching q ≠ .error (.refused (.nameTaken name)) := by
  intro h
  cases s with
  | memory datasets => cases h
  | rows kept =>
    rcases bind_eq_error h with h | ⟨_, _, h⟩
    · obtain ⟨row, _, h⟩ := exists_of_mapM_eq_error h
      exact DocumentRow.dataset_ne_refused h
    · cases h

theorem update_spares (id : String) (patch : List (String × Value)) (now : Time.Moment) :
    r.update id patch now ≠ .error (.refused (.nameTaken name)) := by
  intro h
  rcases bind_eq_error (map_eq_error h) with h | ⟨found, _, h⟩
  · exact DatasetStore.find?_ne_refused h
  cases found with
  | none => cases h
  | some current =>
    rcases bind_eq_error h with h | ⟨d, _, h⟩
    · cases hp : current.patched patch now <;> rw [hp] at h <;> cases h
    rcases bind_eq_error h with h | ⟨_, _, h⟩
    · cases hs : r.datasets with
      | memory datasets =>
        rw [hs] at h
        cases h
      | rows kept =>
        rw [hs] at h
        rcases bind_eq_error h with h | ⟨_, _, h⟩
        · cases DocumentRow.eq_of_ofDataset_error h
        · cases h
    · cases h

theorem require_spares (d : Dataset) (userId : String) (role : Role) :
    Run.SparesNames (require d userId role : Run ε Unit) := by
  refine .ofExcept fun name => ?_
  unfold Dataset.require
  split <;> nofun

theorem load_spares (id : String) : Run.SparesNames (load id : Run ε Dataset) := by
  refine .bind .get fun w => .bind (.ofExcept fun _ => DatasetStore.find?_ne_refused) fun found => ?_
  cases found with
  | none => exact .throw nofun
  | some d => exact .pure d

theorem cached_spares {compute : Run ε Cached} (hcompute : compute.SparesNames) (key : String)
    (ttl : Float) (tags : List String) : (cached key ttl tags compute).SparesNames := by
  intro w name
  rw [cached_apply]
  rcases w.cache.begin w.clock key (some ttl) tags with ⟨v | ticket | lead, cache⟩
  · nofun
  · nofun
  · have hspares := hcompute { w with cache } name
    rcases hrun : compute { w with cache } with ⟨e | v, w'⟩
    · simp only [hrun] at hspares ⊢
      exact hspares
    · simp only [hrun]
      nofun

theorem getDataset_spares (userId id : String) :
    Run.SparesNames (getDataset userId id : Run ε Dataset) := by
  refine .bind .get fun w => .bind ?_ fun found => ?_
  · exact cached_spares (.bind (load_spares id) fun d => .pure _) _ _ _
  · cases found with
    | dataset d => exact .bind (require_spares _ _ _) fun _ => .pure _
    | preview r => exact .throw nofun
    | query r => exact .throw nofun

theorem checkSource_spares (ownerId readerId : String) (datasourceId : Option String)
    (view : Option ViewConfig) :
    Run.SparesNames (checkSource ownerId readerId datasourceId view : Run ε Unit) := by
  have hbase : Run.SparesNames (match view with
      | some c => getDataset readerId c.baseDatasetId >>= fun _ => pure ()
      | none => pure () : Run ε Unit) := by
    cases view with
    | none => exact .pure ()
    | some c => exact .bind (getDataset_spares _ _) fun _ => .pure ()
  unfold checkSource
  cases datasourceId with
  | none => cases view <;> exact hbase
  | some id =>
    refine .bind .get fun w => .bind (.ofExcept fun _ => Repository.datasource?_ne_refused) fun source => ?_
    refine .refuseIf nofun fun _ => ?_
    cases view <;> exact hbase

theorem updateStored_spares {h : Host ε} (hbefore : ∀ id, (h.beforeUpdate id).SparesNames)
    (id : String) (patch : List (String × Value)) : (updateStored h id patch).SparesNames := by
  refine .bind (hbefore id) fun _ => .bind .get fun w => ?_
  refine .bind (.ofExcept fun name => update_spares id patch w.now) fun _ => ?_
  exact .bind (.modify _) fun _ => .pure _

end Refusals

/-- The user may make the changes: an editor any, and only an owner those of the permissions. -/
structure PermitsChanges (d : Dataset) (userId : String) (changes : Reading UpdateRequest) :
    Prop where
  editor : d.permits userId .editor = true
  owner : (changes.given.entries.lookup "permissions").isSome = true →
    d.permits userId .owner = true

section Renaming
variable {userId id name : String} {current : Dataset} {w : World ε}

theorem checkChanges_refuses_iff {changes : Reading UpdateRequest}
    (hpermits : PermitsChanges current userId changes) (hname : changes.value.name = some name) :
    (checkChanges userId current changes.value changes.given.entries w).1 =
        .error (.refused (.nameTaken name)) ↔
      name ≠ current.name ∧ (checkNameFree current.userId name w).1 =
        .error (.refused (.nameTaken name)) := by
  have hrole : (changes.given.entries.lookup "permissions").isSome = true →
      require current userId .owner w = (.ok (), w) := by
    intro hgiven
    rw [require_apply, Dataset.require, if_pos (hpermits.owner hgiven)]
  unfold checkChanges
  rw [run_whenFirst_of_ok hrole, hname]
  by_cases hne : name = current.name
  · have hsource := checkSource_spares (ε := ε) current.userId userId
      (namedDatasource changes.value.tableConfig changes.value.sqlConfig) changes.value.viewConfig
    simp only [hne, bne_self_eq_false, Bool.false_eq_true, if_false, ne_eq, not_true_eq_false,
      false_and, iff_false]
    split
    · exact hsource w _
    · exact Run.SparesNames.pure () w _
  · have hsource := checkSource_spares (ε := ε) current.userId userId
      (namedDatasource changes.value.tableConfig changes.value.sqlConfig) changes.value.viewConfig
    simp only [bne_iff_ne.mpr hne, if_true, Run.bind_apply, ne_eq, hne, not_false_eq_true,
      true_and]
    rcases hfree : checkNameFree current.userId name w with ⟨e | _, w'⟩
    · exact Iff.rfl
    · refine iff_of_false ?_ (by simp)
      simp only
      split
      · exact hsource w' name
      · exact Run.SparesNames.pure () w' name

/-- What an update does behind its checks. -/
def writeChanges (h : Host ε) (id : String) (current : Dataset) (changes : Reading UpdateRequest) :
    Run ε Dataset := do
  let _ ← Run.ofExcept ((current.patched changes.given.entries (← get).now).mapError .unfit)
  match ← updateStored h id changes.given.entries with
  | none => throw (.datasetNotFound id)
  | some updated =>
    invalidate id
    return updated

theorem writeChanges_spares {h : Host ε} (hbefore : ∀ id, (h.beforeUpdate id).SparesNames)
    (id : String) (current : Dataset) (changes : Reading UpdateRequest) :
    (writeChanges h id current changes).SparesNames := by
  refine .bind .get fun v => .bind (.ofExcept fun name => ?_) fun _ => ?_
  · cases current.patched changes.given.entries v.now <;> nofun
  refine .bind (updateStored_spares hbefore _ _) fun updated => ?_
  cases updated with
  | none => exact .throw nofun
  | some d => exact .bind (.bind .get fun _ => .modify _) fun _ => .pure _

theorem update_refuses_iff {h : Host ε} (hbefore : ∀ id, (h.beforeUpdate id).SparesNames)
    {changes : Reading UpdateRequest} (hfind : w.repository.find? id = .ok (some current))
    (hpermits : PermitsChanges current userId changes)
    (hgiven : changes.given.entries.isEmpty = false) :
    (update h userId id changes w).1 = .error (.refused (.nameTaken name)) ↔
      (checkChanges userId current changes.value changes.given.entries w).1 =
        .error (.refused (.nameTaken name)) := by
  have hload : load id w = (.ok current, w) := by
    rw [load_apply, readDataset_eq_ok.mpr hfind]
  have hrole : require current userId .editor w = (.ok (), w) := by
    rw [require_apply, Dataset.require, if_pos hpermits.editor]
  have hrun : update h userId id changes w =
      (checkChanges userId current changes.value changes.given.entries >>= fun _ =>
        writeChanges h id current changes) w := by
    refine (run_bind_of_ok hload).trans ((run_bind_of_ok hrole).trans ?_)
    exact congrFun (if_neg (Bool.eq_false_iff.mp hgiven)) w
  rw [hrun, Run.bind_apply]
  rcases checkChanges userId current changes.value changes.given.entries w with ⟨e | _, w'⟩
  · simp only [Except.error.injEq]
  · exact iff_of_false (writeChanges_spares hbefore id current changes w' name) (by simp)

/-- The count is for the owner of the dataset: it finds the name taken if another of the owner's
datasets is found under it. -/
theorem checkNameFree_refuses_iff (hall : w.repository.datasets.All fun _ => True)
    (hapart : w.repository.datasets.LabelsApart) {owner : String} :
    (checkNameFree owner name w).1 = .error (.refused (.nameTaken name)) ↔
      ∃ id d, w.repository.find? id = .ok (some d) ∧ d.userId = owner ∧ d.name = name := by
  rw [checkNameFree_apply]
  constructor
  · intro hrefused
    split at hrefused
    · rename_i e herror
      obtain rfl : e = .refused (.nameTaken name) := Except.error.inj hrefused
      exact absurd herror (matching_spares _ _)
    · cases hrefused
    · rename_i d rest hfound
      obtain ⟨haccepts, id, hid⟩ :=
        DatasetStore.find?_of_mem_matching hall hapart hfound List.mem_cons_self
      obtain ⟨howner, hname⟩ := accepts_titled.mp haccepts
      exact ⟨id, d, hid, howner.symm, hname.symm⟩
  · rintro ⟨id, d, hid, rfl, rfl⟩
    obtain ⟨found, hfound, hd⟩ := DatasetStore.mem_matching_of_find? hall hapart hid
    rw [hfound]
    cases found with
    | nil => cases hd
    | cons d' rest => rfl

end Renaming

/-- Whatever came before, no two datasets have the owner and the name in common. A renaming by who
may change the dataset is refused as taken exactly when another dataset of its owner is found under
the new name. -/
theorem names_are_unique {h : Host ε} (hh : h.Confined)
    (hbefore : ∀ id, (h.beforeUpdate id).SparesNames) {w : World ε} (hw : w.Reachable h) :
    w.repository.datasets.labels.Pairwise Label.Apart ∧
    (∀ id id' d d', w.repository.find? id = .ok (some d) →
      w.repository.find? id' = .ok (some d') → d.userId = d'.userId → d.name = d'.name →
      id = id') ∧
    ∀ userId id sent changes name current,
      model UpdateRequest.reader sent = .ok changes → changes.value.name = some name →
      w.repository.find? id = .ok (some current) → PermitsChanges current userId changes →
      ((perform h (.update userId id changes) w).1 = .error (.refused (.nameTaken name)) ↔
        ∃ other d, other ≠ id ∧ w.repository.find? other = .ok (some d) ∧
          d.userId = current.userId ∧ d.name = name) := by
  have hall := hw.keepsInOrder hh
  have hapart := hw.labelsApart hh
  refine ⟨hapart, fun id id' d d' hd hd' howner hname =>
    DatasetStore.id_eq_of_same_name hall hapart hd hd' howner hname, ?_⟩
  intro userId id sent changes name current hread hname hfind hpermits
  have hperform : (perform h (.update userId id changes) w).1 =
      .error (.refused (.nameTaken name)) ↔
        (update h userId id changes w).1 = .error (.refused (.nameTaken name)) := by
    rw [perform, map_apply]
    cases (update h userId id changes w).1 with
    | error e => simp only [Except.map, Except.error.injEq]
    | ok d => simp only [Except.map, reduceCtorEq]
  rw [hperform, update_refuses_iff hbefore hfind hpermits
    (UpdateRequest.given_nonempty hread hname), checkChanges_refuses_iff hpermits hname,
    checkNameFree_refuses_iff hall hapart]
  constructor
  · rintro ⟨hne, other, d, hd, howner, rfl⟩
    refine ⟨other, d, ?_, hd, howner, rfl⟩
    rintro rfl
    exact hne (congrArg Dataset.name (Option.some.inj (Except.ok.inj (hd.symm.trans hfind))))
  · rintro ⟨other, d, hne, hd, howner, rfl⟩
    refine ⟨fun hsame => hne ?_, other, d, hd, howner, rfl⟩
    exact DatasetStore.id_eq_of_same_name hall hapart hd hfind howner hsame

/-- A second dataset of an owner cannot take the name of the first. -/
theorem names_are_unique_of_two :
    let source : Datasource := { id := "s", userId := "u", name := "s", type := .sqlite }
    let h : Host Unit :=
      { execute := fun _ _ _ => throw (.sourceFailed "gone"), beforeUpdate := fun _ => pure () }
    let request (name : String) : CreateRequest :=
      { name, displayName := "Sales", type := .table
        tableConfig := some { datasourceId := "s", tableName := "sales" } }
    let taking : Reading UpdateRequest :=
      ⟨{ name := some "sales" }, .object [("name", .text "sales")]⟩
    let start : World Unit := World.start ⟨.emptyMemory, [source]⟩ {} .queued ()
    let first := (perform h (.create "u" (request "sales")) { start with freshId := "t" }).2
    let both := (perform h (.create "u" (request "orders")) { first with freshId := "v" }).2
    both.Reachable h ∧
      (perform h (.update "u" "v" taking) both).1 = .error (.refused (.nameTaken "sales")) := by
  intro source h request taking start first both
  have hh : h.Confined := ⟨fun _ _ _ => World.Keeps.refl, fun _ => World.Keeps.refl⟩
  have hstart : start.Reachable h := .start (.inl rfl) _ _ _
  have hfirst : first.Reachable h :=
    .perform (.passes start.clock start.now "t" [source] () hstart) trivial
  have hboth : both.Reachable h :=
    .perform (.passes first.clock first.now "v" first.repository.datasources () hfirst) trivial
  have hread : model UpdateRequest.reader (.object [("name", .text "sales")]) = .ok taking := rfl
  have hfound : ∃ current d, both.repository.find? "v" = .ok (some current) ∧
      PermitsChanges current "u" taking ∧ both.repository.find? "t" = .ok (some d) ∧
      d.userId = current.userId ∧ d.name = "sales" := by
    unfold both first start request h source taking
    exact ⟨_, _, rfl, ⟨rfl, by rintro ⟨⟩⟩, rfl, rfl, rfl⟩
  obtain ⟨current, d, hcurrent, hpermits, hd, howner, hname⟩ := hfound
  obtain ⟨_, _, hrefused⟩ :=
    names_are_unique hh (fun _ => Run.SparesNames.pure ()) hboth
  refine ⟨hboth, ?_⟩
  exact (hrefused "u" "v" _ taking "sales" current hread rfl hcurrent hpermits).mpr
    ⟨"t", d, by decide, hd, howner, hname⟩

/-- A row that was written but is too deep to be read has its name, and who takes it is not told. -/
theorem renaming_may_meet_unreadable_row :
    let source : Datasource := { id := "s", userId := "u", name := "s", type := .sqlite }
    let h : Host Unit :=
      { execute := fun _ _ _ => throw (.sourceFailed "gone"), beforeUpdate := fun _ => pure () }
    let request (name : String) : CreateRequest :=
      { name, displayName := "Sales", type := .table
        tableConfig := some { datasourceId := "s", tableName := "sales" } }
    let sent : Value := .object [("fields", .list [.object [("name", .text "a"),
      ("display_name", .text "A"), ("sample_values", .list [Value.nested 200])]])]
    let deepening : Reading UpdateRequest :=
      ⟨{ fields := some [
        { name := "a", displayName := "A", sampleValues := [Value.nested 200] }] }, sent⟩
    let taking : Reading UpdateRequest :=
      ⟨{ name := some "sales" }, .object [("name", .text "sales")]⟩
    let start : World Unit := World.start ⟨.emptyRows, [source]⟩ {} .queued ()
    let first := (perform h (.create "u" (request "sales")) { start with freshId := "t" }).2
    let both := (perform h (.create "u" (request "orders")) { first with freshId := "v" }).2
    let deep := (perform h (.update "u" "t" deepening) both).2
    deep.Reachable h ∧
      model UpdateRequest.reader (.object [("name", .text "sales")]) = .ok taking ∧
      ⟨"t", "u", "sales"⟩ ∈ deep.repository.datasets.labels ∧
      (∃ current, deep.repository.find? "v" = .ok (some current) ∧ current.userId = "u" ∧
        PermitsChanges current "u" taking) ∧
      (perform h (.update "u" "v" taking) deep).1 ≠ .error (.refused (.nameTaken "sales")) := by
  intro source h request sent deepening taking start first both deep
  have hstart : start.Reachable h := .start (.inr rfl) _ _ _
  have hfirst : first.Reachable h :=
    .perform (.passes start.clock start.now "t" [source] () hstart) trivial
  have hboth : both.Reachable h :=
    .perform (.passes first.clock first.now "v" first.repository.datasources () hfirst) trivial
  have hread : model UpdateRequest.reader sent = .ok deepening := rfl
  have hdeep : deep.Reachable h := .perform hboth ⟨sent, hread⟩
  have hlabel : ⟨"t", "u", "sales"⟩ ∈ deep.repository.datasets.labels := by
    unfold deep both first start request h source deepening sent
    decide +kernel
  have hfound : ((deep.repository.find? "v").toOption.join.any fun d =>
      d.userId == "u" && d.permits "u" .editor) = true := by
    unfold deep both first start request h source deepening sent
    decide +kernel
  have hrun : (perform h (.update "u" "v" taking) deep).1.map (fun _ => ()) ≠
      .error (.refused (.nameTaken "sales")) := by
    unfold deep both first start request h source deepening sent taking
    decide +kernel
  refine ⟨hdeep, rfl, hlabel, ?_, ?_⟩
  · obtain ⟨current, hcurrent, hfound⟩ := exists_found_of_any hfound
    obtain ⟨howner, hpermits⟩ := Bool.and_eq_true_iff.mp hfound
    exact ⟨current, hcurrent, beq_iff_eq.mp howner, hpermits, by rintro ⟨⟩⟩
  · intro hrefused
    rw [hrefused] at hrun
    exact hrun rfl

end DatasetCatalog.Service
