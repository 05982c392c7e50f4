import DatasetCatalog.Proofs.Cache.Flights
import DatasetCatalog.Proofs.Service.Workings

/-!
# What is kept under which key

Whatever the service does, and whatever it does while its statements run, datasets are kept under
the keys of their own ids and rows under keys of rows. Where operations run one after another, no
call is under way between them either. So a user gets a dataset just as the repository holds it, as
if there were no cache.
-/

namespace DatasetCatalog.Service

open Cache Store

variable {ε α : Type}

/-- The value is of the kind that the key names: a dataset of this id, or rows. -/
def Cached.Fits (key : String) : Cached → Prop
  | .dataset d => key = datasetKey d.id
  | .preview _ | .query _ => IsRowKey key

theorem Cached.fits_of_isRows {v : Cached} {key : String} (hv : v.IsRows) (hkey : IsRowKey key) :
    v.Fits key := by
  cases v with
  | dataset d => exact absurd rfl (hv d)
  | preview r => exact hkey
  | query r => exact hkey

/-- Every dataset is stored under its own id, and every key keeps what it names. -/
structure World.Labelled (w : World ε) : Prop where
  keepsIds : w.repository.KeepsIds
  fits : ∀ {key v tags}, w.cache.Holds key v tags → v.Fits key

/-- Besides, no call is under way. -/
structure World.Settled (w : World ε) : Prop extends w.Labelled where
  flights : w.cache.flights = []

/-- Keys keep what they name, and no call is left under way. -/
structure World.KeepsLabels (w w' : World ε) : Prop where
  labelled : w.Labelled → w'.Labelled
  flights : w'.cache.flights ⊆ w.cache.flights

instance : World.Sequential (World.KeepsLabels (ε := ε)) where
  refl _ := ⟨id, List.Subset.refl _⟩
  trans h h' := ⟨fun hw => h'.labelled (h.labelled hw), List.Subset.trans h'.flights h.flights⟩

section Steps
variable {w w' : World ε}

theorem World.KeepsLabels.settled (h : w.KeepsLabels w') (hw : w.Settled) : w'.Settled :=
  ⟨h.labelled hw.toLabelled, List.eq_nil_of_subset_nil (hw.flights ▸ h.flights)⟩

theorem World.keepsLabels_of_fades {cache : Cache.Store Float Cached} (h : w.cache.Fades cache) :
    w.KeepsLabels { w with cache } :=
  ⟨fun hw => ⟨hw.keepsIds, fun held => hw.fits (h.holds held)⟩, h.flights ▸ List.Subset.refl _⟩

theorem World.keepsLabels_of_cache (hcache : w'.cache = w.cache)
    (hids : w.repository.KeepsIds → w'.repository.KeepsIds) : w.KeepsLabels w' :=
  ⟨fun hw => ⟨hids hw.keepsIds, fun held => hw.fits (hcache ▸ held)⟩,
    hcache ▸ List.Subset.refl _⟩

theorem World.Keeps.keepsLabels (h : w.Keeps w') : w.KeepsLabels w' := by
  obtain ⟨e, rfl⟩ := h
  exact World.keepsLabels_of_cache rfl id

theorem invalidate_keepsLabels (id : String) :
    (invalidate id : Run ε Unit).Within World.KeepsLabels := fun _ =>
  ⟨fun hw => ⟨hw.keepsIds, fun held => hw.fits (Store.holds_of_removeByTags held).1⟩,
    List.filter_subset_self _⟩

/-- A computation whose value is of the kind that the key names is over when the call is. -/
theorem cached_keepsLabels (key : String) (ttl : Float) (tags : List String)
    {compute : Run ε Cached} (hcompute : compute.Within World.KeepsLabels)
    (hfits : ∀ w v, w.Labelled → (compute w).1 = .ok v → v.Fits key) :
    (cached key ttl tags compute).Within World.KeepsLabels := by
  intro w
  rw [cached_apply]
  rcases w.cache.begin_cases w.clock key (some ttl) tags with
    ⟨v, held, cache, hb, _, hfades⟩ | ⟨f, cache, hb, _, _, hfades⟩ | ⟨cache, hb, hfades⟩
  · rw [hb]
    exact World.keepsLabels_of_fades hfades
  · rw [hb]
    exact World.keepsLabels_of_fades hfades
  rw [hb]
  simp only
  let led : Cache.Store Float Cached :=
    { cache with
      nextTicket := w.cache.nextTicket + 1
      flights := w.cache.flights ++ [⟨key, w.cache.nextTicket, tags⟩] }
  let lead : Lead Float :=
    ⟨key, w.cache.nextTicket, some ttl, tags, tags.map w.cache.epoch, w.cache.generation⟩
  have hled : w.Labelled → World.Labelled { w with cache := led } := fun hw =>
    ⟨hw.keepsIds, fun held => hw.fits (hfades.holds held)⟩
  have hdone := hcompute { w with cache := led }
  have hvalue := hfits { w with cache := led }
  rcases hrun : compute { w with cache := led } with ⟨a, w'⟩
  rw [hrun] at hdone hvalue
  -- the flight of the call itself, which alone may be new, is taken away
  have hland : (w'.cache.land lead).flights ⊆ w.cache.flights := by
    intro f hf
    obtain ⟨hleft, hticket⟩ := List.mem_filter.mp hf
    rcases List.mem_append.mp (hdone.flights hleft) with hold | hown
    · exact hold
    · rw [List.mem_singleton.mp hown] at hticket
      exact absurd rfl (bne_iff_ne.mp hticket)
  cases a with
  | error failure =>
    exact ⟨fun hw => ⟨(hdone.labelled (hled hw)).keepsIds, (hdone.labelled (hled hw)).fits⟩, hland⟩
  | ok v =>
    refine ⟨fun hw => ⟨(hdone.labelled (hled hw)).keepsIds, fun held => ?_⟩, ?_⟩
    · rcases Store.holds_of_finish held with ⟨rfl, rfl, _⟩ | held
      · exact hvalue _ (hled hw) rfl
      · exact (hdone.labelled (hled hw)).fits held
    · change (w'.cache.finish w'.clock lead v).flights ⊆ w.cache.flights
      rw [Store.flights_finish]
      exact hland

/-- What is read under an id has this id. -/
theorem World.Labelled.fits_of_load (hw : w.Labelled) {id : String} {v : Cached}
    (h : ((return .dataset (← load id) : Run ε Cached) w).1 = .ok v) : v.Fits (datasetKey id) := by
  rw [load_dataset_apply] at h
  obtain ⟨d, hd, rfl⟩ := map_eq_ok h
  rw [Cached.Fits, DatasetStore.id_of_find? hw.keepsIds (readDataset_eq_ok.mp hd)]

end Steps

theorem getDataset_keepsLabels (userId id : String) :
    (getDataset userId id : Run ε Dataset).Within World.KeepsLabels := by
  refine .bind .get fun w => .bind ?_ fun found => ?_
  · exact cached_keepsLabels _ _ _ (.bind (.load id) fun d => .pure _)
      fun _ _ hw hv => hw.fits_of_load hv
  · cases found with
    | dataset d => exact .bind (.ofExcept _) fun _ => .pure _
    | preview r => exact .throw _
    | query r => exact .throw _

/-- Where statements and the host keep to the labels, all that the service does keeps to them. -/
theorem works_keepsLabels {h : Host ε}
    (hexecute : ∀ source statement timeoutMs,
      (h.execute source statement timeoutMs).Within World.KeepsLabels)
    (hbefore : ∀ id, (h.beforeUpdate id).Confined) : h.Works World.KeepsLabels where
  getDataset := getDataset_keepsLabels
  execute source statement timeoutMs f hf key ttl tags hkey := by
    refine cached_keepsLabels key ttl tags (.bind (.timeoutOr _) fun ms => ?_) fun w v _ hv => ?_
    · exact .bind (hexecute source statement ms) fun _ => .pure _
    · have hrun : _ = (Except.ok v, _) := Prod.ext hv rfl
      obtain ⟨ms, _, _, hrun⟩ := run_bind_eq_ok hrun
      obtain ⟨result, _, _, hrun⟩ := run_bind_eq_ok hrun
      cases hrun
      exact Cached.fits_of_isRows (hf result) hkey
  runs := hexecute
  beforeUpdate id := (hbefore id).mono World.Keeps.keepsLabels
  invalidate := invalidate_keepsLabels
  writes hwritten := World.keepsLabels_of_cache rfl hwritten.keepsIds
  queues _ _ _ _ := World.keepsLabels_of_cache rfl id

theorem Host.Confined.works_keepsLabels {h : Host ε} (hh : h.Confined) :
    h.Works World.KeepsLabels :=
  Service.works_keepsLabels
    (fun source statement timeoutMs =>
      (hh.execute source statement timeoutMs).mono World.Keeps.keepsLabels) hh.beforeUpdate

theorem World.settled_start {r : Repository} (hr : r.datasets = .emptyMemory ∨
    r.datasets = .emptyRows) (settings : Settings) (background : Background) (surroundings : ε) :
    (World.start r settings background surroundings).Settled := by
  refine ⟨⟨DatasetStore.keepsIds_of_empty hr, ?_⟩, rfl⟩
  rintro key v tags ⟨e, he, _⟩
  cases he

/-- In every world that is reached, the cache is settled. -/
theorem World.Reachable.settled {h : Host ε} (hh : h.Confined) {w : World ε}
    (hw : w.Reachable h) : w.Settled := by
  have hworks := hh.works_keepsLabels
  induction hw with
  | start empty settings background surroundings => exact World.settled_start empty _ _ _
  | perform _ ho ih => exact (hworks.perform ho _).settled ih
  | analyse id _ ih => exact (hworks.analyse id _).settled ih
  | runNextJob _ ih => exact (hworks.runNextJob _).settled ih
  | cleanup _ ih => exact (World.keepsLabels_of_fades (Store.fades_cleanup _ _)).settled ih
  | passes clock now freshId datasources surroundings _ ih =>
    exact ⟨⟨ih.keepsIds, ih.fits⟩, ih.flights⟩

/-- What a user gets of what the cache gives. -/
def Cached.shownTo (userId : String) : Cached → Except Error Dataset
  | .dataset d => do
    d.require userId .viewer
    return d
  | _ => .error (.broken .noSuchPart)

theorem getDataset_result (userId id : String) (w : World ε) : (getDataset userId id w).1 =
    (cached (datasetKey id) w.settings.datasetCacheTtl [datasetTag id, userTag userId]
      (return .dataset (← load id)) w).1.bind (Cached.shownTo userId) := by
  simp only [getDataset, Run.bind_apply (x := get), Run.get_apply]
  rw [Run.bind_apply]
  rcases cached (datasetKey id) w.settings.datasetCacheTtl
    [datasetTag id, userTag userId] (return .dataset (← load id)) w with ⟨_ | v, w'⟩
  · rfl
  · cases v with
    | dataset d =>
      change ((require d userId .viewer >>= fun _ => pure d : Run ε Dataset) w').1 =
        (d.require userId .viewer).bind fun _ => .ok d
      rw [Run.bind_apply, require_apply]
      cases d.require userId .viewer <;> rfl
    | preview r => rfl
    | query r => rfl

/-- A call for a dataset is answered with a value that is kept, or waits for a call under way, or
gets what it reads. -/
theorem cached_load_cases (id : String) (ttl : Float) (tags : List String) (w : World ε) :
    (∃ v held, w.cache.Holds (datasetKey id) v held ∧
      (cached (datasetKey id) ttl tags (return .dataset (← load id)) w).1 = .ok v) ∨
    (∃ f ∈ w.cache.flights, f.key = datasetKey id) ∨
    (cached (datasetKey id) ttl tags (return .dataset (← load id)) w).1 =
      (readDataset w.repository id).map .dataset := by
  rw [cached_apply]
  rcases w.cache.begin_cases w.clock (datasetKey id) (some ttl) tags with
    ⟨v, held, cache, hb, hheld, _⟩ | ⟨f, cache, hb, hf, hkey, _⟩ | ⟨cache, hb, _⟩
  · rw [hb]
    exact .inl ⟨v, held, hheld, rfl⟩
  · exact .inr (.inl ⟨f, hf, hkey⟩)
  · rw [hb]
    simp only [load_dataset_apply]
    cases readDataset w.repository id <;> exact .inr (.inr rfl)

/-- Where the cache is settled and agrees, a user gets a dataset as if there were no cache. -/
theorem getDataset_of_settled {w : World ε} (hw : w.Agrees) (hsettled : w.Settled) {id : String}
    (hid : ':' ∉ id.toList) (userId : String) : (getDataset userId id w).1 = (do
      let d ← readDataset w.repository id
      d.require userId .viewer
      return d) := by
  rw [getDataset_result]
  rcases cached_load_cases id w.settings.datasetCacheTtl [datasetTag id, userTag userId] w with
    ⟨v, held, hheld, hv⟩ | ⟨f, hf, _⟩ | hread
  · have hfits := hsettled.fits hheld
    cases v with
    | dataset d =>
      rw [hv, readDataset_eq_ok.mpr (hw.cached hheld).2]
      rfl
    | preview r => exact absurd rfl (hfits.ne hid)
    | query r => exact absurd rfl (hfits.ne hid)
  · rw [hsettled.flights] at hf
    cases hf
  · rw [hread]
    cases readDataset w.repository id <;> rfl

end DatasetCatalog.Service
