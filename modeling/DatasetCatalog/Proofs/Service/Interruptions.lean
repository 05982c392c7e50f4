import DatasetCatalog.Proofs.Service.Effects
import DatasetCatalog.Proofs.Service.Workings

/-!
# Operations while a statement runs

A statement takes its time, and the service goes on meanwhile. Whatever it does then, it keeps what
every single write of it keeps, even if the statements of those operations are interrupted likewise:
the datasets stay in order and are kept under their own ids.
-/

namespace DatasetCatalog.Service

open Store

variable {ε α : Type}

/-- A property of repositories that no write of the service takes away. -/
def Preserved (P : Repository → Prop) : Prop := ∀ ⦃r r' : Repository⦄, r.Written r' → P r → P r'

/-- The repository has the property still. -/
def World.Stays (P : Repository → Prop) (w w' : World ε) : Prop := P w.repository → P w'.repository

instance {P : Repository → Prop} : World.Sequential (World.Stays (ε := ε) P) :=
  ⟨fun _ => id, fun h h' hw => h' (h hw)⟩

/-- While a statement runs, the host may do whatever keeps the property. Before an update it touches
at most the surroundings. -/
structure Host.Leaves (P : Repository → Prop) (h : Host ε) : Prop where
  execute : ∀ source statement timeoutMs,
    (h.execute source statement timeoutMs).Within (World.Stays P)
  beforeUpdate : ∀ id, (h.beforeUpdate id).Confined

/-- The host with something else done before each of its statements comes to its end. -/
def Host.interrupted (h : Host ε) (meanwhile : Run ε Unit) : Host ε where
  execute source statement timeoutMs := do
    meanwhile
    h.execute source statement timeoutMs
  beforeUpdate := h.beforeUpdate

/-- Perform operations one after another, whether they fail or not. -/
def performAll (h : Host ε) : List Operation → Run ε Unit
  | [] => pure ()
  | o :: rest => do
    let _ ← (perform h o).attempt
    performAll h rest

section Unwritten
variable {P : Repository → Prop}

theorem World.SameData.stays {w w' : World ε} (h : w.SameData w') : w.Stays P w' :=
  fun hw => h ▸ hw

theorem Run.Within.stays {x : Run ε α} (hx : x.Within World.SameData) :
    x.Within (World.Stays P) :=
  hx.mono World.SameData.stays

theorem cached_stays {compute : Run ε Cached} (hcompute : compute.Within (World.Stays P))
    (key : String) (ttl : Float) (tags : List String) :
    (cached key ttl tags compute).Within (World.Stays P) := by
  intro w hw
  rw [cached_apply]
  rcases w.cache.begin w.clock key (some ttl) tags with ⟨v | ticket | lead, cache⟩
  · exact hw
  · exact hw
  · have hdone := hcompute { w with cache } hw
    rcases hrun : compute { w with cache } with ⟨e | v, w'⟩
    · simp only [hrun] at hdone ⊢
      exact hdone
    · simp only [hrun] at hdone ⊢
      exact hdone

theorem invalidate_sameData (id : String) : (invalidate id : Run ε Unit).Within World.SameData :=
  .bind .get fun _ => .modify fun _ => rfl

end Unwritten

section Operations
variable {P : Repository → Prop} (hP : Preserved P) {h : Host ε} (hh : h.Leaves P)

include hh in
theorem World.stays_afterSample (id : String) (w : World ε) : w.Stays P (w.afterSample h id) := by
  unfold World.afterSample
  split
  · exact Run.Within.sample hh.execute _ w
  · exact fun hw => hw

include hP hh

/-- Whatever is asked of the service, and whatever happens while its statements run, the property
stays. -/
theorem works_stays : h.Works (World.Stays P) where
  getDataset _ _ := (getDataset_sameData _ _).stays
  execute source statement timeoutMs f _ key ttl tags _ := by
    refine cached_stays (.bind (.timeoutOr _) fun ms => ?_) key ttl tags
    exact .bind (hh.execute source statement ms) fun _ => .pure _
  runs := hh.execute
  beforeUpdate id := (hh.beforeUpdate id).mono fun hkeeps => hkeeps.sameData.stays
  invalidate id := (invalidate_sameData id).stays
  writes hwritten := hP hwritten
  queues _ _ _ _ := id

theorem performAll_stays {operations : List Operation} (ho : ∀ o ∈ operations, o.WasRead) :
    (performAll h operations).Within (World.Stays P) := by
  induction operations with
  | nil => exact .pure _
  | cons o rest ih =>
    obtain ⟨ho, hrest⟩ := List.forall_mem_cons.mp ho
    exact .bind (.attempt ((works_stays hP hh).perform ho)) fun _ => ih hrest

omit hP in
/-- So a host may be interrupted by what the service does, and by what it does meanwhile. -/
theorem Host.Leaves.interrupted {meanwhile : Run ε Unit}
    (hmeanwhile : meanwhile.Within (World.Stays P)) : (h.interrupted meanwhile).Leaves P where
  execute source statement _ := .bind hmeanwhile fun _ => hh.execute source statement _
  beforeUpdate := hh.beforeUpdate

end Operations

theorem Host.Confined.leaves {P : Repository → Prop} {h : Host ε} (hh : h.Confined) :
    h.Leaves P where
  execute _ _ _ := (hh.execute _ _ _).mono fun hkeeps => hkeeps.sameData.stays
  beforeUpdate := hh.beforeUpdate

/-- The datasets are in order, and kept under their own ids. -/
structure World.Sound (w : World ε) : Prop where
  keepsIds : w.repository.KeepsIds
  inOrder : w.repository.datasets.All fun _ => True

def World.StaysSound (w w' : World ε) : Prop := w.Sound → w'.Sound

/-- While a statement runs, the host may do whatever leaves the datasets in order. Before an update
it touches at most the surroundings. -/
structure Host.Orderly (h : Host ε) : Prop where
  execute : ∀ source statement timeoutMs,
    (h.execute source statement timeoutMs).Within World.StaysSound
  beforeUpdate : ∀ id, (h.beforeUpdate id).Confined

section Sound
variable {h : Host ε} {w w' : World ε}

/-- What is sound of a world is so of its repository. -/
def SoundRepository (r : Repository) : Prop := r.KeepsIds ∧ r.Valid

theorem World.sound_iff : w.Sound ↔ SoundRepository w.repository :=
  ⟨fun hw => ⟨hw.keepsIds, hw.inOrder⟩, fun hw => ⟨hw.1, hw.2⟩⟩

theorem World.staysSound_iff : w.StaysSound w' ↔ w.Stays SoundRepository w' := by
  rw [World.StaysSound, World.Stays, World.sound_iff, World.sound_iff]

theorem preserved_sound : Preserved SoundRepository := fun _ _ hwritten hr =>
  ⟨hwritten.keepsIds hr.1, hwritten.valid hr.2⟩

theorem Host.orderly_iff : h.Orderly ↔ h.Leaves SoundRepository := by
  constructor
  · exact fun hh => ⟨fun source statement timeoutMs =>
      (hh.execute source statement timeoutMs).mono World.staysSound_iff.mp, hh.beforeUpdate⟩
  · exact fun hh => ⟨fun source statement timeoutMs =>
      (hh.execute source statement timeoutMs).mono World.staysSound_iff.mpr, hh.beforeUpdate⟩

theorem Host.Confined.orderly (hh : h.Confined) : h.Orderly := Host.orderly_iff.mpr hh.leaves

variable (hh : h.Orderly)
include hh

theorem World.Sound.afterSample (hw : w.Sound) (id : String) : (w.afterSample h id).Sound :=
  World.sound_iff.mpr (w.stays_afterSample (Host.orderly_iff.mp hh) id (World.sound_iff.mp hw))

theorem performAll_staysSound {operations : List Operation} (ho : ∀ o ∈ operations, o.WasRead) :
    (performAll h operations).Within World.StaysSound :=
  (performAll_stays preserved_sound (Host.orderly_iff.mp hh) ho).mono World.staysSound_iff.mpr

theorem Host.Orderly.interrupted {meanwhile : Run ε Unit}
    (hmeanwhile : meanwhile.Within World.StaysSound) : (h.interrupted meanwhile).Orderly :=
  Host.orderly_iff.mpr
    ((Host.orderly_iff.mp hh).interrupted (hmeanwhile.mono World.staysSound_iff.mp))

/-- In every world that is reached, the datasets are in order. -/
theorem World.Reachable.sound (hw : w.Reachable h) : w.Sound := by
  have hleaves := Host.orderly_iff.mp hh
  rw [World.sound_iff]
  induction hw with
  | start empty settings background surroundings =>
    exact ⟨DatasetStore.keepsIds_of_empty empty, .of_empty empty⟩
  | perform _ ho ih => exact (works_stays preserved_sound hleaves).perform ho _ ih
  | analyse id _ ih => exact (works_stays preserved_sound hleaves).analyse id _ ih
  | runNextJob _ ih => exact (works_stays preserved_sound hleaves).runNextJob _ ih
  | cleanup _ ih => exact ih
  | passes clock now freshId datasources surroundings _ ih => exact ⟨ih.1, ih.2⟩

end Sound

end DatasetCatalog.Service
