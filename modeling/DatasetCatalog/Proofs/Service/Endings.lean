import Mathlib.Logic.Relation
import DatasetCatalog.Proofs.Service.Interruptions
import DatasetCatalog.Proofs.Service.Settled
import DatasetCatalog.Proofs.Store.Readability

/-!
# How getting a dataset ends

Metadata, previews and results of queries are kept in one cache, under keys that are put together
from texts. Whoever asks for a dataset gets the one of that id, or learns that there is none or that
it is not for him, unless the row of the dataset cannot be read or the id itself makes a key of
rows.
-/

namespace DatasetCatalog

namespace Service

open Cache Store

variable {ε : Type}

/-- One step of the service: an operation, an analysis, a job, or the upkeep of the cache. Between
them time passes, and datasources come and go. -/
inductive World.Serves (h : Host ε) : World ε → World ε → Prop
  | perform {w : World ε} {o : Operation} : o.WasRead → Serves h w (perform h o w).2
  | analyse (w : World ε) (id : String) : Serves h w (analyse h id w).2
  | runNextJob (w : World ε) : Serves h w (runNextJob h w).2
  | cleanup (w : World ε) : Serves h w { w with cache := (w.cache.cleanup w.clock).2 }
  | passes (w : World ε) (clock : Float) (now : Time.Moment) (freshId : String)
      (datasources : List Datasource) (surroundings : ε) :
    Serves h w
      { w with clock, now, freshId, surroundings, repository := { w.repository with datasources } }

/-- While a statement runs, the host is at its surroundings, or the service goes on, with hosts for
which the same holds. -/
inductive Host.Overlapping : Host ε → Prop
  | confined {h : Host ε} : h.Confined → Overlapping h
  | serving {h h' : Host ε} : Overlapping h' →
    (∀ source statement timeoutMs,
      (h.execute source statement timeoutMs).Within (Relation.ReflTransGen (World.Serves h'))) →
    (∀ id, (h.beforeUpdate id).Confined) → Overlapping h

/-- The worlds to which the service comes from an empty repository and an empty cache. -/
def World.Served (h : Host ε) (w : World ε) : Prop :=
  ∃ r settings background surroundings, (r.datasets = .emptyMemory ∨ r.datasets = .emptyRows) ∧
    Relation.ReflTransGen (World.Serves h) (World.start r settings background surroundings) w

section Serving
variable {h : Host ε} {w w' : World ε}

theorem World.Serves.keepsLabels (hworks : h.Works World.KeepsLabels)
    (hstep : World.Serves h w w') : w.KeepsLabels w' := by
  cases hstep with
  | perform ho => exact hworks.perform ho w
  | analyse id => exact hworks.analyse id w
  | runNextJob => exact hworks.runNextJob w
  | cleanup => exact World.keepsLabels_of_fades (Store.fades_cleanup _ _)
  | passes clock now freshId datasources surroundings => exact World.keepsLabels_of_cache rfl id

theorem World.keepsLabels_of_steps (hworks : h.Works World.KeepsLabels)
    (hsteps : Relation.ReflTransGen (World.Serves h) w w') : w.KeepsLabels w' := by
  induction hsteps with
  | refl => exact World.Sequential.refl w
  | tail _ hstep ih => exact World.Sequential.trans ih (hstep.keepsLabels hworks)

theorem Host.Overlapping.works_keepsLabels (hh : h.Overlapping) : h.Works World.KeepsLabels := by
  induction hh with
  | confined hconfined => exact hconfined.works_keepsLabels
  | serving _ hexecute hbefore ih =>
    exact Service.works_keepsLabels
      (fun source statement timeoutMs =>
        (hexecute source statement timeoutMs).mono (World.keepsLabels_of_steps ih)) hbefore

/-- Between operations, keys keep what they name and no call is under way. -/
theorem World.Served.settled (hh : h.Overlapping) (hw : w.Served h) : w.Settled := by
  obtain ⟨r, settings, background, surroundings, hempty, hsteps⟩ := hw
  exact (World.keepsLabels_of_steps hh.works_keepsLabels hsteps).settled
    (World.settled_start hempty settings background surroundings)

theorem World.Keeps.serves (h' : Host ε) (hkeeps : w.Keeps w') : World.Serves h' w w' := by
  obtain ⟨e, rfl⟩ := hkeeps
  exact .passes w w.clock w.now w.freshId w.repository.datasources e

instance : World.Sequential (Relation.ReflTransGen (World.Serves h)) :=
  ⟨fun _ => .refl, .trans⟩

theorem performAll_serves {operations : List Operation} (ho : ∀ o ∈ operations, o.WasRead) :
    (performAll h operations).Within (Relation.ReflTransGen (World.Serves h)) := by
  induction operations with
  | nil => exact .pure _
  | cons o rest ih =>
    obtain ⟨ho, hrest⟩ := List.forall_mem_cons.mp ho
    exact .bind (.attempt fun w => .single (.perform ho)) fun _ => ih hrest

/-- So operations may be performed before each of the statements comes to its end. -/
theorem Host.Confined.overlapping (hh : h.Confined) {operations : List Operation}
    (ho : ∀ o ∈ operations, o.WasRead) :
    (h.interrupted (performAll h operations)).Overlapping := by
  refine .serving (.confined hh) (fun source statement timeoutMs => ?_) hh.beforeUpdate
  refine .bind (performAll_serves ho) fun _ => ?_
  exact (hh.execute source statement timeoutMs).mono fun hkeeps => .single (hkeeps.serves h)

end Serving

/-- The three ways in which getting a dataset ends: the user gets it and may view it, there is none,
or the user may not view it. -/
inductive GetEnds (r : Repository) (userId id : String) : Except Error Dataset → Prop
  | got {d : Dataset} : d.id = id → d.permits userId .viewer = true → GetEnds r userId id (.ok d)
  | notFound : r.find? id = .ok none → GetEnds r userId id (.error (.datasetNotFound id))
  | denied {d : Dataset} : d.id = id → d.permits userId .viewer = false →
    GetEnds r userId id (.error (.permissionDenied userId id .viewer))

theorem getEnds_of_dataset {r : Repository} {userId id : String} {d : Dataset} (hid : d.id = id) :
    GetEnds r userId id (Cached.shownTo userId (.dataset d)) := by
  cases hpermits : d.permits userId .viewer with
  | true =>
    have hshown : Cached.shownTo userId (.dataset d) = .ok d := by
      rw [Cached.shownTo, Dataset.require, if_pos hpermits]
      rfl
    rw [hshown]
    exact .got hid hpermits
  | false =>
    have hshown : Cached.shownTo userId (.dataset d) =
        .error (.permissionDenied userId id .viewer) := by
      rw [Cached.shownTo, Dataset.require, hpermits, hid]
      rfl
    rw [hshown]
    exact .denied hid hpermits

/-- Wherever the service comes, and whatever it does while its statements run, getting a dataset
ends in one of the three ways for every user and every id, unless the repository cannot read the
dataset, or the id makes a key of rows under which rows are kept. Rows are never taken for a
dataset, but the user learns nothing of the id then. -/
theorem gets_end_in_three_ways {h : Host ε} (hh : h.Overlapping) {w : World ε} (hw : w.Served h)
    (userId id : String) :
    GetEnds w.repository userId id (getDataset userId id w).1 ∨
      (∃ e, w.repository.find? id = .error e ∧ w.repository.datasets.Unreadable id e ∧
        (getDataset userId id w).1 = .error e) ∨
      IsRowKey (datasetKey id) ∧ (∃ v tags, v.IsRows ∧ w.cache.Holds (datasetKey id) v tags) ∧
        (getDataset userId id w).1 = .error (.broken .noSuchPart) := by
  have hsettled := hw.settled hh
  rw [getDataset_result]
  rcases cached_load_cases id w.settings.datasetCacheTtl [datasetTag id, userTag userId] w with
    ⟨v, held, hheld, hv⟩ | ⟨f, hf, _⟩ | hread
  · have hfits := hsettled.fits hheld
    rw [hv]
    cases v with
    | dataset d => exact .inl (getEnds_of_dataset (datasetKey_injective hfits).symm)
    | preview r => exact .inr (.inr ⟨hfits, ⟨_, held, fun d hd => (by cases hd), hheld⟩, rfl⟩)
    | query r => exact .inr (.inr ⟨hfits, ⟨_, held, fun d hd => (by cases hd), hheld⟩, rfl⟩)
  · rw [hsettled.flights] at hf
    cases hf
  · rw [hread]
    cases hfind : w.repository.find? id with
    | error e =>
      refine .inr (.inl ⟨e, rfl, DatasetStore.unreadable_of_find? hfind, ?_⟩)
      rw [readDataset, hfind]
      rfl
    | ok found =>
      cases found with
      | none =>
        rw [readDataset, hfind]
        exact .inl (.notFound hfind)
      | some d =>
        rw [readDataset_eq_ok.mpr hfind]
        exact .inl (getEnds_of_dataset (DatasetStore.id_of_find? hsettled.keepsIds hfind))

/-- The dataset is deleted while its preview runs. -/
theorem gets_end_in_three_ways_after_deletion :
    let source : Datasource := { id := "s", userId := "u", name := "s", type := .sqlite }
    let quiet : Host Unit :=
      { execute := fun _ _ _ => pure { columns := ["a"], rows := [[("a", .int 1)]] }
        beforeUpdate := fun _ => pure () }
    let h : Host Unit := quiet.interrupted (performAll quiet [.delete "u" "t"])
    let table : CreateRequest :=
      { name := "sales", displayName := "Sales", type := .table
        tableConfig := some { datasourceId := "s", tableName := "sales" } }
    let start : World Unit := World.start ⟨.emptyMemory, [source]⟩ {} .queued ()
    let made := (perform h (.create "u" table) { start with freshId := "t" }).2
    let read := (perform h (.preview "u" "t" (some 5) none) made).2
    (made.repository.find? "t").map Option.isSome = .ok true ∧
      (read.repository.find? "t").map Option.isSome = .ok false ∧
      GetEnds read.repository "u" "t" (getDataset "u" "t" read).1 := by
  intro source quiet h table start made read
  have hquiet : quiet.Confined := ⟨fun _ _ _ => World.Keeps.refl, fun _ => World.Keeps.refl⟩
  have hh : h.Overlapping := hquiet.overlapping fun o ho => by
    rw [List.mem_singleton.mp ho]
    trivial
  have hnamed : World.Serves h start { start with freshId := "t" } :=
    .passes start start.clock start.now "t" [source] ()
  have hmade : World.Serves h _ made := .perform trivial
  have hread : World.Serves h made read := .perform trivial
  have hserved : read.Served h :=
    ⟨⟨.emptyMemory, [source]⟩, {}, .queued, (), .inl rfl,
      .head hnamed (.head hmade (.single hread))⟩
  have hfound : (made.repository.find? "t").map Option.isSome = .ok true ∧
      (read.repository.find? "t").map Option.isSome = .ok false := by
    decide +kernel
  obtain ⟨hfound, hgone⟩ := hfound
  refine ⟨hfound, hgone, ?_⟩
  clear_value read made
  rcases gets_end_in_three_ways hh hserved "u" "t" with hends | ⟨e, hfind, _⟩ | ⟨hkey, _⟩
  · exact hends
  · rw [hfind] at hgone
    cases hgone
  · exact absurd rfl (hkey.ne (by decide))

/-- An id may make the key of a preview. Once there is one, whoever asks for it learns neither that
there is no such dataset nor that it is not for him. -/
theorem get_may_meet_rows :
    let source : Datasource := { id := "s", userId := "u", name := "s", type := .sqlite }
    let h : Host Unit :=
      { execute := fun _ _ _ => pure { columns := ["a"], rows := [[("a", .int 1)]] }
        beforeUpdate := fun _ => pure () }
    let table : CreateRequest :=
      { name := "sales", displayName := "Sales", type := .table
        tableConfig := some { datasourceId := "s", tableName := "sales" } }
    let start : World Unit := World.start ⟨.emptyMemory, [source]⟩ {} .queued ()
    let made := (perform h (.create "u" table) { start with freshId := "t" }).2
    let read := (perform h (.preview "u" "t" (some 5) none) made).2
    read.Served h ∧ (getDataset "v" "preview:t:5" read).1 = .error (.broken .noSuchPart) ∧
      ¬ GetEnds read.repository "v" "preview:t:5" (getDataset "v" "preview:t:5" read).1 := by
  intro source h table start made read
  have hnamed : World.Serves h start { start with freshId := "t" } :=
    .passes start start.clock start.now "t" [source] ()
  have hmade : World.Serves h _ made := .perform trivial
  have hread : World.Serves h made read := .perform trivial
  have hserved : read.Served h :=
    ⟨⟨.emptyMemory, [source]⟩, {}, .queued, (), .inl rfl,
      .head hnamed (.head hmade (.single hread))⟩
  have hend : ((getDataset "v" "preview:t:5" read).1.map fun _ => ()) =
      .error (.broken .noSuchPart) := by
    decide +kernel
  have hbroken := map_eq_error hend
  refine ⟨hserved, hbroken, ?_⟩
  rw [hbroken]
  nofun

end Service

end DatasetCatalog
