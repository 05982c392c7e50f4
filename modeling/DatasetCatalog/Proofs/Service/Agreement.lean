import DatasetCatalog.Proofs.Cache.Contents
import DatasetCatalog.Proofs.Cache.Keys
import DatasetCatalog.Proofs.Service.Parts
import DatasetCatalog.Proofs.Store.Validity
import DatasetCatalog.Service.Operation

/-!
# Agreement of cache and repository

Where operations run one after another, what the cache holds of a dataset is what the repository
holds: an operation that writes a dataset drops its tag before it ends, and only what the
repository holds is put into the cache.
-/

namespace DatasetCatalog.Cache

variable {T α : Type} [LT T] [DecidableLT T] [Add T]

/-- A computation that ends adds its value at most. -/
theorem Store.holds_of_finish {s : Store T α} {now : T} {lead : Lead T} {value : α} {k : String}
    {v : α} {t : List String} (h : (s.finish now lead value).Holds k v t) :
    (k = lead.key ∧ v = value ∧ t = lead.tags) ∨ s.Holds k v t := by
  unfold Store.finish at h
  split at h
  · exact .inr h
  · exact (Store.holds_of_put h).imp_right And.right

end DatasetCatalog.Cache

namespace DatasetCatalog.Service

open Cache Store

variable {ε α β : Type}

theorem Change.written?_inOrder {x : Change} {r r' : Repository} {id : String}
    (hr : r.datasets.InOrder) (h : x.written? r id = some r') : r'.datasets.InOrder := by
  cases x with
  | patch p now =>
    simp only [written?] at h
    split at h
    · rename_i hu
      cases h
      obtain ⟨⟨updated, datasets⟩, hupdate, hresult⟩ := map_eq_ok hu
      cases hresult
      exact DatasetStore.update_inOrder hr hupdate
    · cases h
  | delete =>
    simp only [written?] at h
    split at h
    · rename_i hd
      cases h
      obtain ⟨⟨deleted, datasets⟩, hdelete, hresult⟩ := map_eq_ok hd
      cases hresult
      exact DatasetStore.delete_inOrder hr hdelete
    · cases h

/-- The datasets of the repository are in order under their own ids, and the cache holds a dataset
only with its tag and as the repository holds it. -/
structure World.Agrees (w : World ε) : Prop where
  keepsIds : w.repository.KeepsIds
  inOrder : w.repository.datasets.InOrder
  cached : ∀ {id d tags}, w.cache.Holds (datasetKey id) (.dataset d) tags →
    datasetTag id ∈ tags ∧ w.repository.find? id = .ok (some d)

namespace World.Agrees
variable {w w' : World ε}

theorem keeps (hw : w.Agrees) (h : w.Keeps w') : w'.Agrees := by
  obtain ⟨e, rfl⟩ := h
  exact ⟨hw.keepsIds, hw.inOrder, hw.cached⟩

/-- The cache may lose values. -/
theorem loses (hw : w.Agrees) {cache : Cache.Store Float Cached}
    (h : ∀ {key v tags}, cache.Holds key v tags → w.cache.Holds key v tags) :
    World.Agrees { w with cache } :=
  ⟨hw.keepsIds, hw.inOrder, fun held => hw.cached (h held)⟩

/-- The cache may gain what the repository holds. -/
theorem finish (hw : w.Agrees) {lead : Lead Float} {v : Cached}
    (hv : ∀ id d, lead.key = datasetKey id → v = .dataset d →
      datasetTag id ∈ lead.tags ∧ w.repository.find? id = .ok (some d)) :
    World.Agrees { w with cache := w.cache.finish w.clock lead v } := by
  refine ⟨hw.keepsIds, hw.inOrder, ?_⟩
  intro id d tags held
  rcases Store.holds_of_finish held with ⟨hkey, hvalue, rfl⟩ | hold
  · exact hv id d hkey.symm hvalue.symm
  · exact hw.cached hold

theorem create (hw : w.Agrees) {d : Dataset} (hd : d.Configured) {r : Repository}
    (h : w.repository.create d = .ok r) : World.Agrees { w with repository := r } := by
  obtain ⟨hids, hframe⟩ := Repository.create_frame hw.keepsIds h
  obtain ⟨datasets, hcreate, rfl⟩ := map_eq_ok h
  refine ⟨hids, DatasetStore.create_inOrder hw.inOrder hd hcreate, ?_⟩
  intro id d' tags held
  obtain ⟨htag, hfind⟩ := hw.cached held
  exact ⟨htag, hframe id d' hfind⟩

/-- Dropping the tag of a dataset behind a change of it restores the agreement. -/
theorem invalidate {id : String} (hw : w.Agrees) (h : w.Keeps w' ∨ w.Writes id w') :
    (invalidate id w').2.Agrees := by
  rcases h with h | ⟨x, r, e, hr, rfl⟩
  · exact (hw.keeps h).loses fun held => (Store.holds_of_removeByTags held).1
  obtain ⟨hids, hframe⟩ := x.written?_frame hw.keepsIds hr
  refine ⟨hids, x.written?_inOrder hw.inOrder hr, ?_⟩
  intro other d tags held
  obtain ⟨hold, hshare⟩ := Store.holds_of_removeByTags held
  obtain ⟨htag, hfind⟩ := hw.cached hold
  -- what was held of the changed dataset itself had its tag, so it is gone
  have hne : other ≠ id := by
    rintro rfl
    rw [sharesTag_iff.mpr ⟨_, htag, List.mem_singleton_self _⟩] at hshare
    cases hshare
  exact ⟨htag, (hframe other hne).trans hfind⟩

end World.Agrees

/-- An agreement that was there is there still. -/
def World.StillAgrees (w w' : World ε) : Prop := w.Agrees → w'.Agrees

instance : World.Sequential (World.StillAgrees (ε := ε)) :=
  ⟨fun _ => id, fun h h' hw => h' (h hw)⟩

/-- Rows of a preview or of a query, not a dataset. -/
def Cached.IsRows (v : Cached) : Prop := ∀ d, v ≠ .dataset d

/-- Nothing but the cache has changed. It agrees still, and the rows it holds it held before. -/
structure World.AtRest (w w' : World ε) : Prop where
  agrees : w'.Agrees
  repository : w'.repository = w.repository
  surroundings : w'.surroundings = w.surroundings
  settings : w'.settings = w.settings
  rows : ∀ {key v tags}, v.IsRows → w'.cache.Holds key v tags → w.cache.Holds key v tags

/-- A world that agrees stays at rest. -/
def World.Rests (w w' : World ε) : Prop := w.Agrees → w.AtRest w'

theorem World.AtRest.refl {w : World ε} (hw : w.Agrees) : w.AtRest w :=
  ⟨hw, rfl, rfl, rfl, fun _ held => held⟩

theorem World.AtRest.trans {w w' w'' : World ε} (h : w.AtRest w') (h' : w'.AtRest w'') :
    w.AtRest w'' where
  agrees := h'.agrees
  repository := h'.repository.trans h.repository
  surroundings := h'.surroundings.trans h.surroundings
  settings := h'.settings.trans h.settings
  rows := fun hv held => h.rows hv (h'.rows hv held)

instance : World.Sequential (World.Rests (ε := ε)) where
  refl _ := .refl
  trans h h' hw := (h hw).trans (h' (h hw).agrees)

theorem Run.Confined.stillAgrees {x : Run ε α} (hx : x.Confined) : x.Within World.StillAgrees :=
  hx.mono fun h hw => hw.keeps h

theorem Run.Within.stillAgrees {x : Run ε α} (hx : x.Within World.Rests) :
    x.Within World.StillAgrees :=
  hx.mono fun h hw => (h hw).agrees

/-- A cache that loses values at most leaves the world at rest. -/
theorem World.Agrees.atRest {w : World ε} (hw : w.Agrees) {cache : Cache.Store Float Cached}
    (h : ∀ {key v tags}, cache.Holds key v tags → w.cache.Holds key v tags) :
    w.AtRest { w with cache } :=
  ⟨hw.loses h, rfl, rfl, rfl, fun _ held => h held⟩

section Caching
variable (key : String) (ttl : Float) (tags : List String) (compute : Run ε Cached) (w : World ε)

/-- A call finds a value, or would wait for itself, or computes the value; by then the cache has
lost values at most. -/
theorem cached_cases : ∃ cache : Cache.Store Float Cached,
    (∀ {k v t}, cache.Holds k v t → w.cache.Holds k v t) ∧
    ((∃ v held, w.cache.Holds key v held ∧
        cached key ttl tags compute w = (.ok v, { w with cache })) ∨
      cached key ttl tags compute w = (.error (.crashed "deadlock"), { w with cache }) ∨
      ∃ lead : Lead Float, lead.key = key ∧ lead.tags = tags ∧
        cached key ttl tags compute w = match compute { w with cache } with
          | (.ok v, w) => (.ok v, { w with cache := w.cache.finish w.clock lead v })
          | (.error e, w) => (.error e, { w with cache := w.cache.land lead })) := by
  rcases w.cache.begin_cases w.clock key (some ttl) tags with
    ⟨v, held, cache, hb, hheld, hfades⟩ | ⟨f, cache, hb, _, _, hfades⟩ | ⟨cache, hb, hfades⟩
  · refine ⟨cache, hfades.holds, .inl ⟨v, held, hheld, ?_⟩⟩
    rw [cached_apply, hb]
  · refine ⟨cache, hfades.holds, .inr (.inl ?_)⟩
    rw [cached_apply, hb]
  · let lead : Lead Float :=
      ⟨key, w.cache.nextTicket, some ttl, tags, tags.map w.cache.epoch, w.cache.generation⟩
    let led : Cache.Store Float Cached :=
      { cache with
        nextTicket := w.cache.nextTicket + 1
        flights := w.cache.flights ++ [⟨key, w.cache.nextTicket, tags⟩] }
    have hbegun := cached_apply key ttl tags compute w
    rw [hb] at hbegun
    exact ⟨led, hfades.holds, .inr (.inr ⟨lead, rfl, rfl, hbegun⟩)⟩

variable {compute} in
/-- What is computed under the key of no dataset does not disturb the agreement. -/
theorem cached_stillAgrees (hcompute : compute.Within World.StillAgrees)
    (hrows : ∀ w d, (compute w).1 ≠ .ok (.dataset d)) :
    (cached key ttl tags compute).Within World.StillAgrees := by
  intro w hw
  obtain ⟨cache, hcache, ⟨v, held, _, h⟩ | h | ⟨lead, _, _, h⟩⟩ :=
    cached_cases key ttl tags compute w
  · rw [h]
    exact hw.loses hcache
  · rw [h]
    exact hw.loses hcache
  · rw [h]
    have hbegun := hw.loses hcache
    have hdone := hcompute _ hbegun
    have hnone := hrows { w with cache }
    rcases hrun : compute { w with cache } with ⟨e | v, w'⟩
    · rw [hrun] at hdone
      exact hdone.loses fun held => held
    · rw [hrun] at hdone hnone
      exact hdone.finish fun id d _ hv => absurd (congrArg Except.ok hv) (hnone d)

end Caching

section Reading

theorem load_dataset_apply (id : String) (w : World ε) :
    (return .dataset (← load id) : Run ε Cached) w =
      ((readDataset w.repository id).map .dataset, w) := by
  rw [Run.bind_apply, load_apply]
  cases readDataset w.repository id <;> rfl

/-- What the cache gives of a dataset is what the repository holds. -/
theorem cached_dataset_cases {ttl : Float} {tags : List String} {id : String} {w : World ε}
    (htag : datasetTag id ∈ tags) (hw : w.Agrees) {a : Except Error Cached} {w' : World ε}
    (h : cached (datasetKey id) ttl tags (return .dataset (← load id)) w = (a, w')) :
    w.AtRest w' ∧ ∀ d, a = .ok (.dataset d) → w.repository.find? id = .ok (some d) := by
  obtain ⟨cache, hcache, ⟨v, held, hheld, hrun⟩ | hrun | ⟨lead, hkey, htags, hrun⟩⟩ :=
    cached_cases (datasetKey id) ttl tags (return .dataset (← load id)) w
  · obtain ⟨rfl, rfl⟩ := Prod.mk.inj (hrun.symm.trans h)
    refine ⟨hw.atRest hcache, fun d hd => ?_⟩
    cases hd
    exact (hw.cached hheld).2
  · obtain ⟨rfl, rfl⟩ := Prod.mk.inj (hrun.symm.trans h)
    exact ⟨hw.atRest hcache, fun d hd => by cases hd⟩
  · rw [h, load_dataset_apply] at hrun
    have hbegun := hw.atRest hcache
    cases hread : readDataset w.repository id with
    | error e =>
      simp only [hread, Except.map] at hrun
      obtain ⟨rfl, rfl⟩ := Prod.mk.inj hrun
      exact ⟨hbegun.trans (hbegun.agrees.atRest fun held => held), fun d hd => by cases hd⟩
    | ok d =>
      simp only [hread, Except.map] at hrun
      obtain ⟨rfl, rfl⟩ := Prod.mk.inj hrun
      have hfind := readDataset_eq_ok.mp hread
      refine ⟨⟨hbegun.agrees.finish fun id' d' hid hd => ?_, rfl, rfl, rfl, ?_⟩, fun d' hd => ?_⟩
      · obtain rfl := datasetKey_injective (hkey.symm.trans hid)
        cases hd
        exact ⟨htags ▸ htag, hfind⟩
      · intro key v t hv held
        rcases Store.holds_of_finish held with ⟨_, hvalue, _⟩ | held
        · exact absurd hvalue (hv d)
        · exact hcache held
      · cases hd
        exact hfind

/-- A user who gets a dataset gets it as the repository holds it, and may view it. -/
theorem getDataset_cases (userId id : String) {w w' : World ε} {a : Except Error Dataset}
    (hw : w.Agrees) (h : getDataset userId id w = (a, w')) :
    w.AtRest w' ∧
      ∀ d, a = .ok d → w.repository.find? id = .ok (some d) ∧ d.permits userId .viewer = true := by
  simp only [getDataset, Run.bind_apply (x := get), Run.get_apply] at h
  rw [Run.bind_apply] at h
  rcases hc : cached (datasetKey id) w.settings.datasetCacheTtl
    [datasetTag id, userTag userId] (return .dataset (← load id)) w with ⟨found, w₁⟩
  obtain ⟨hrests, hfound⟩ := cached_dataset_cases List.mem_cons_self hw hc
  rw [hc] at h
  cases found with
  | error e =>
    obtain ⟨rfl, rfl⟩ := Prod.mk.inj h
    exact ⟨hrests, fun d hd => by cases hd⟩
  | ok v =>
    cases v with
    | dataset d =>
      simp only [Run.bind_apply, require_apply] at h
      cases hrole : d.require userId .viewer with
      | error e =>
        rw [hrole] at h
        obtain ⟨rfl, rfl⟩ := Prod.mk.inj h
        exact ⟨hrests, fun d hd => by cases hd⟩
      | ok u =>
        rw [hrole] at h
        obtain ⟨rfl, rfl⟩ := Prod.mk.inj h
        refine ⟨hrests, fun d' hd => ?_⟩
        cases hd
        refine ⟨hfound d rfl, ?_⟩
        unfold Dataset.require at hrole
        split at hrole
        · assumption
        · cases hrole
    | preview r =>
      obtain ⟨rfl, rfl⟩ := Prod.mk.inj h
      exact ⟨hrests, fun d hd => by cases hd⟩
    | query r =>
      obtain ⟨rfl, rfl⟩ := Prod.mk.inj h
      exact ⟨hrests, fun d hd => by cases hd⟩

theorem getDataset_rests (userId id : String) :
    (getDataset userId id : Run ε Dataset).Within World.Rests :=
  fun _ hw => (getDataset_cases userId id hw rfl).1

end Reading

end DatasetCatalog.Service
