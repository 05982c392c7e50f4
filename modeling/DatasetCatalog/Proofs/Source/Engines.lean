import Mathlib.Data.List.Induction
import DatasetCatalog.Proofs.Document.Entries
import DatasetCatalog.Proofs.Source.Fingerprints
import DatasetCatalog.Proofs.Success

/-!
# Engines over a history of calls

Of the engines that were ever created, those in use and those disposed of are told apart in one
ledger. What a call can do is said once; what every history leaves follows by induction.
-/

namespace DatasetCatalog

theorem Datasource.driver_url (d : Datasource) : d.url.driver = d.type.driver := by
  unfold Datasource.url
  split <;> rfl

/-- Of one configuration, it is the type that makes the URL. -/
theorem Datasource.url_eq_iff {d d' : Datasource} (h : d.config = d'.config) :
    d.url = d'.url ↔ d.type = d'.type := by
  constructor
  · intro hurl
    have hdriver := congrArg ConnectionUrl.driver hurl
    rw [d.driver_url, d'.driver_url] at hdriver
    revert hdriver
    cases d.type <;> cases d'.type <;> simp [DatasourceType.driver]
  · intro htype
    simp only [Datasource.url, h, htype]

namespace Source

/-- What a pool is asked for. -/
inductive PoolCall where
  | engineFor (d : Datasource)
  | disposeAll
deriving DecidableEq

/-- A call leaves the engine of a datasource in its place: it does not dispose of all, and asks for
none of the same id with another configuration. -/
def PoolCall.Spares (d : Datasource) : PoolCall → Prop
  | .engineFor d' => d'.id = d.id → d'.config = d.config
  | .disposeAll => False

namespace EnginePool

def after (p : EnginePool) : PoolCall → EnginePool
  | .engineFor d => (p.engineFor d).2
  | .disposeAll => p.disposeAll

def run (p : EnginePool) (calls : List PoolCall) : EnginePool := calls.foldl after p

/-- The engines in use. -/
def held (p : EnginePool) : List Engine := (p.pooled.map Prod.snd).map (·.engine)

def Holds (p : EnginePool) (id : String) (e : Engine) : Prop :=
  ∃ fingerprint, (id, ⟨fingerprint, e⟩) ∈ p.pooled

/-- How a datasource gets its engine: the one in use fits its configuration, or a new one is put in
its place. -/
inductive Serves (p : EnginePool) (d : Datasource) : Engine → EnginePool → Prop
  | again {x : PooledEngine} : p.pooled.lookup d.id = some x →
    d.config.fingerprint = x.fingerprint → p.Serves d x.engine p
  | anew : (∀ x, p.pooled.lookup d.id = some x → x.fingerprint ≠ d.config.fingerprint) →
    p.Serves d ⟨p.created.length, d.url⟩
      (p.replace d.id ⟨d.config.fingerprint, ⟨p.created.length, d.url⟩⟩)

variable {p p' : EnginePool} {d : Datasource} {e : Engine} {id : String} {calls : List PoolCall}

theorem engineFor_eq_iff : p.engineFor d = (e, p') ↔ p.Serves d e p' := by
  rw [engineFor]
  cases hx : (p.pooled.lookup d.id).filter (·.fingerprint == d.config.fingerprint) with
  | some x =>
    obtain ⟨hlookup, hfits⟩ := Option.filter_eq_some_iff.mp hx
    have hf : x.fingerprint = d.config.fingerprint := eq_of_beq hfits
    constructor
    · intro h
      cases h
      exact .again hlookup hf.symm
    · intro h
      cases h with
      | again hlookup' _ =>
        cases hlookup.symm.trans hlookup'
        rfl
      | anew hnone => exact absurd hf (hnone x hlookup)
  | none =>
    have hnone := Option.filter_eq_none_iff.mp hx
    constructor
    · intro h
      cases h
      exact .anew fun x hlookup heq => hnone x hlookup (beq_iff_eq.mpr heq)
    · intro h
      cases h with
      | again hlookup hf => exact absurd (beq_iff_eq.mpr hf.symm) (hnone _ hlookup)
      | anew _ => rfl

/-- The engine that a datasource gets is in use for it from then on. -/
theorem Serves.lookup (h : p.Serves d e p') :
    p'.pooled.lookup d.id = some ⟨d.config.fingerprint, e⟩ := by
  cases h with
  | again hlookup hf => rw [hlookup, hf]
  | anew _ => exact Value.lookup_putEntry_self _ _ _

theorem Serves.disposed_subset (h : p.Serves d e p') : p.disposed ⊆ p'.disposed := by
  cases h with
  | again _ _ => exact List.Subset.refl _
  | anew _ => exact List.subset_append_left _ _

theorem Serves.holds (h : p.Serves d e p') : p'.Holds d.id e :=
  ⟨d.config.fingerprint, mem_of_lookup h.lookup⟩

theorem after_of_engineFor (h : p.engineFor d = (e, p')) : p.after (.engineFor d) = p' := by
  rw [after, h]

/-- What a call does to the pool. -/
inductive Follows (p : EnginePool) : PoolCall → EnginePool → Prop
  | served {d : Datasource} {e : Engine} {p' : EnginePool} : p.Serves d e p' →
    p.Follows (.engineFor d) p'
  | disposed : p.Follows .disposeAll p.disposeAll

theorem follows_after (p : EnginePool) (c : PoolCall) : p.Follows c (p.after c) := by
  cases c with
  | disposeAll => exact .disposed
  | engineFor d => exact .served (engineFor_eq_iff.mp rfl)

theorem run_snoc (p : EnginePool) (calls : List PoolCall) (c : PoolCall) :
    p.run (calls ++ [c]) = (p.run calls).after c := List.foldl_concat ..

/-! ## The ledger -/

open scoped List

/-- No id stands twice, engines are numbered as they are created, and what is in use or disposed of
is what was created, each once. -/
structure Accounted (p : EnginePool) : Prop where
  ids : (p.pooled.map Prod.fst).Nodup
  numbers : p.created.map (·.number) = List.range p.created.length
  once : (p.held ++ p.disposed).Perm p.created

theorem accounted_empty : Accounted {} := ⟨.nil, rfl, .refl _⟩

theorem Accounted.replace (h : p.Accounted) (id : String) {new : PooledEngine}
    (hnew : new.engine.number = p.created.length) : (p.replace id new).Accounted where
  ids := Value.nodup_keys_putEntry h.ids id new
  numbers := by
    simp only [EnginePool.replace, List.map_append, List.map_cons, List.map_nil, h.numbers, hnew,
      List.length_append, List.length_singleton, List.range_succ]
  once := by
    have hput : ((p.replace id new).held ++ ((p.pooled.lookup id).map (·.engine)).toList).Perm
        (new.engine :: p.held) := by
      have hperm := (Value.perm_putEntry id new p.pooled).map (·.engine)
      rw [List.map_append, ← Option.toList_map] at hperm
      exact hperm
    calc (p.replace id new).held ++ (p.disposed ++ ((p.pooled.lookup id).map (·.engine)).toList)
      _ ~ (p.replace id new).held ++
          (((p.pooled.lookup id).map (·.engine)).toList ++ p.disposed) :=
        List.perm_append_comm.append_left _
      _ = (p.replace id new).held ++ ((p.pooled.lookup id).map (·.engine)).toList ++ p.disposed :=
        (List.append_assoc ..).symm
      _ ~ new.engine :: (p.held ++ p.disposed) := hput.append_right _
      _ ~ new.engine :: p.created := h.once.cons _
      _ ~ p.created ++ [new.engine] := (List.perm_append_singleton _ _).symm

theorem Accounted.disposeAll (h : p.Accounted) : p.disposeAll.Accounted where
  ids := .nil
  numbers := h.numbers
  once := by
    have honce := h.once
    rw [held, List.map_map] at honce
    have hcomm : (p.disposed ++ p.pooled.map (·.2.engine)).Perm
        (p.pooled.map (·.2.engine) ++ p.disposed) := List.perm_append_comm
    exact hcomm.trans honce

theorem Accounted.follows (h : p.Accounted) {c : PoolCall} (hp : p.Follows c p') :
    p'.Accounted := by
  cases hp with
  | disposed => exact h.disposeAll
  | @served d e _ hserves =>
    cases hserves with
    | again _ _ => exact h
    | anew _ => exact h.replace d.id rfl

theorem accounted_run (calls : List PoolCall) : (run {} calls).Accounted := by
  induction calls using List.reverseRecOn with
  | nil => exact accounted_empty
  | append_singleton calls c ih =>
    rw [run_snoc]
    exact ih.follows (follows_after _ c)

theorem mem_held_iff : e ∈ p.held ↔ ∃ id, p.Holds id e := by
  simp only [held, List.map_map, List.mem_map, Function.comp_apply, Holds]
  constructor
  · rintro ⟨⟨id, x⟩, hmem, rfl⟩
    exact ⟨id, x.fingerprint, hmem⟩
  · rintro ⟨id, fingerprint, hmem⟩
    exact ⟨_, hmem, rfl⟩

namespace Accounted

theorem nodup (h : p.Accounted) : (p.held ++ p.disposed).Nodup := by
  rw [h.once.nodup_iff]
  apply List.Nodup.of_map (·.number)
  rw [h.numbers]
  exact List.nodup_range

theorem mem_created (h : p.Accounted) (hid : p.Holds id e) : e ∈ p.created :=
  h.once.mem_iff.mp (List.mem_append_left _ (mem_held_iff.mpr ⟨id, hid⟩))

/-- An id has one engine at most. -/
theorem engine_eq (h : p.Accounted) {e' : Engine} (hid : p.Holds id e) (hid' : p.Holds id e') :
    e' = e := by
  obtain ⟨f, hf⟩ := hid
  obtain ⟨f', hf'⟩ := hid'
  cases List.inj_on_of_nodup_map h.ids hf hf' rfl
  rfl

/-- An engine is in use under one id at most. -/
theorem id_eq (h : p.Accounted) {id' : String} (hid : p.Holds id e) (hid' : p.Holds id' e) :
    id' = id := by
  obtain ⟨f, hf⟩ := hid
  obtain ⟨f', hf'⟩ := hid'
  have hheld : (p.pooled.map (·.2.engine)).Nodup := by
    have hnodup := (List.nodup_append.mp h.nodup).1
    rwa [held, List.map_map] at hnodup
  exact congrArg Prod.fst (List.inj_on_of_nodup_map hheld hf' hf rfl)

theorem not_mem_disposed (h : p.Accounted) (hid : p.Holds id e) : e ∉ p.disposed := fun hmem =>
  (List.nodup_append.mp h.nodup).2.2 e (mem_held_iff.mpr ⟨id, hid⟩) e hmem rfl

theorem held_or_disposed (h : p.Accounted) (he : e ∈ p.created) :
    (∃ id, p.Holds id e ∧ (∀ id', p.Holds id' e → id' = id) ∧ e ∉ p.disposed) ∨
      (∀ id, ¬p.Holds id e) ∧ p.disposed.count e = 1 := by
  rcases List.mem_append.mp (h.once.mem_iff.mpr he) with hheld | hdisposed
  · obtain ⟨id, hid⟩ := mem_held_iff.mp hheld
    exact .inl ⟨id, hid, fun _ hid' => h.id_eq hid hid', h.not_mem_disposed hid⟩
  · have hnodup := (List.nodup_append.mp h.nodup).2.1
    exact .inr ⟨fun _ hid => h.not_mem_disposed hid hdisposed,
      List.count_eq_one_of_mem hnodup hdisposed⟩

end Accounted

/-! ## Staying in place -/

/-- A datasource whose engine is in use gets it again, and the pool stays as it is. -/
theorem engineFor_of_lookup (h : p.pooled.lookup d.id = some ⟨d.config.fingerprint, e⟩) :
    p.engineFor d = (e, p) :=
  engineFor_eq_iff.mpr (.again h rfl)

theorem Follows.lookup {c : PoolCall} (hp : p.Follows c p')
    (h : p.pooled.lookup d.id = some ⟨d.config.fingerprint, e⟩) (hc : c.Spares d) :
    p'.pooled.lookup d.id = some ⟨d.config.fingerprint, e⟩ := by
  cases hp with
  | disposed => exact hc.elim
  | @served d' e' _ hserves =>
    cases hserves with
    | again _ _ => exact h
    | anew hother =>
      have hid : d.id ≠ d'.id := by
        intro hid
        exact hother _ (hid ▸ h) (by rw [hc hid.symm])
      rw [← h]
      exact Value.lookup_putEntry_of_ne hid _ _

theorem lookup_run (h : p.pooled.lookup d.id = some ⟨d.config.fingerprint, e⟩)
    (hcalls : ∀ c ∈ calls, c.Spares d) :
    (p.run calls).pooled.lookup d.id = some ⟨d.config.fingerprint, e⟩ := by
  induction calls generalizing p with
  | nil => exact h
  | cons c rest ih =>
    exact ih ((follows_after p c).lookup h (hcalls c List.mem_cons_self))
      fun c' hc' => hcalls c' (List.mem_cons_of_mem c hc')

/-- Along every history of calls, each engine that was created is in use under one id or was
disposed of once, and an id has one engine at most. An engine that is given for a datasource was
not disposed of, is in use for it, and is given for it again until all are disposed of or its id
comes with another configuration. -/
theorem engines_are_held_or_disposed_once (calls : List PoolCall) :
    (∀ e ∈ (run {} calls).created,
      (∃ id, (run {} calls).Holds id e ∧ (∀ id', (run {} calls).Holds id' e → id' = id) ∧
        e ∉ (run {} calls).disposed) ∨
      (∀ id, ¬(run {} calls).Holds id e) ∧ (run {} calls).disposed.count e = 1) ∧
    (∀ id e, (run {} calls).Holds id e →
      e ∈ (run {} calls).created ∧ ∀ e', (run {} calls).Holds id e' → e' = e) ∧
    ∀ d e p', (run {} calls).engineFor d = (e, p') →
      e ∉ (run {} calls).disposed ∧ p'.Holds d.id e ∧
      ∀ later : List PoolCall, (∀ c ∈ later, c.Spares d) →
        (p'.run later).engineFor d = (e, p'.run later) := by
  have haccounted := accounted_run calls
  refine ⟨fun e he => haccounted.held_or_disposed he,
    fun id e hid => ⟨haccounted.mem_created hid, fun e' => haccounted.engine_eq hid⟩,
    fun d e p' he => ?_⟩
  have hserves := engineFor_eq_iff.mp he
  refine ⟨fun hmem => ?_, hserves.holds, fun later hlater =>
    engineFor_of_lookup (lookup_run hserves.lookup hlater)⟩
  exact (haccounted.follows (.served hserves)).not_mem_disposed hserves.holds
    (hserves.disposed_subset hmem)

/-- A database file that is moved, and moved back after its engine was disposed of with all. -/
theorem engines_are_held_or_disposed_once_of_moved_file :
    ∃ (file : String → Datasource) (calls : List PoolCall) (p' : EnginePool),
      calls = [.engineFor (file "x"), .engineFor (file "y"), .disposeAll] ∧
      (run {} calls).engineFor (file "x") = (⟨2, (file "x").url⟩, p') ∧
      ⟨2, (file "x").url⟩ ∉ (run {} calls).disposed ∧ p'.Holds "a" ⟨2, (file "x").url⟩ ∧
      (p'.run [.engineFor { file "y" with id := "b" }]).engineFor (file "x") =
        (⟨2, (file "x").url⟩, p'.run [.engineFor { file "y" with id := "b" }]) := by
  let file (path : String) : Datasource := ⟨"a", "u", "n", .sqlite, { path := some path }⟩
  let calls : List PoolCall := [.engineFor (file "x"), .engineFor (file "y"), .disposeAll]
  have hnew : (run {} calls).engineFor (file "x") = (⟨2, (file "x").url⟩, _) := rfl
  obtain ⟨_, _, h⟩ := engines_are_held_or_disposed_once calls
  obtain ⟨hdisposed, hholds, hagain⟩ := h _ _ _ hnew
  refine ⟨file, calls, _, rfl, hnew, hdisposed, hholds, hagain _ fun c hc => ?_⟩
  rw [List.mem_singleton.mp hc]
  exact fun hid => absurd hid (by decide)

/-! ## Where an engine stems from -/

/-- The engine that is in use under an id was created by one of the calls, for a datasource of this
id and configuration, and the calls since have left it in its place. -/
def StemsFrom (calls : List PoolCall) (id : String) (x : PooledEngine) : Prop :=
  ∃ before d since, calls = before ++ .engineFor d :: since ∧ (∀ c ∈ since, c.Spares d) ∧
    d.id = id ∧ d.config.fingerprint = x.fingerprint ∧
    x.engine = ⟨(run {} before).created.length, d.url⟩

theorem StemsFrom.snoc {x : PooledEngine} (h : StemsFrom calls id x) {c : PoolCall}
    (hc : ∀ d, d.id = id → d.config.fingerprint = x.fingerprint → c.Spares d) :
    StemsFrom (calls ++ [c]) id x := by
  obtain ⟨before, d, since, rfl, hsince, hid, hf, hx⟩ := h
  refine ⟨before, d, since ++ [c], List.append_assoc .., ?_, hid, hf, hx⟩
  intro c' hc'
  rcases List.mem_append.mp hc' with hold | hnew
  · exact hsince c' hold
  · rw [List.mem_singleton.mp hnew]
    exact hc d hid hf

theorem stemsFrom_run {x : PooledEngine} (h : (run {} calls).pooled.lookup id = some x) :
    StemsFrom calls id x := by
  induction calls using List.reverseRecOn generalizing id x with
  | nil => cases h
  | append_singleton calls c ih =>
    rw [run_snoc] at h
    have hp := follows_after (run {} calls) c
    generalize (run {} calls).after c = p' at h hp
    cases hp with
    | disposed => cases h
    | @served d e _ hserves =>
      cases hserves with
      | again hlookup hf =>
        refine (ih h).snoc fun d' hid' hf' hid => ?_
        rw [hid, hid', h] at hlookup
        cases hlookup
        exact DatasourceConfig.eq_of_fingerprint (hf.trans hf'.symm)
      | anew _ =>
        by_cases hid : id = d.id
        · rw [hid] at h
          cases (Value.lookup_putEntry_self ..).symm.trans h
          exact ⟨calls, d, [], rfl, nofun, hid.symm, rfl, rfl⟩
        · have hold := (Value.lookup_putEntry_of_ne hid _ _).symm.trans h
          exact (ih hold).snoc fun d' hid' _ hd => absurd (hid'.symm.trans hd.symm) hid

end EnginePool

/-- A datasource gets an engine that was created for one of its id and configuration, by one of the
calls; all calls since have left the engine in its place. It was created for the URL of the
datasource itself if their types are the same. -/
theorem engines_are_of_their_configuration (calls : List PoolCall) {d : Datasource} {e : Engine}
    {p' : EnginePool} (h : (EnginePool.run {} calls).engineFor d = (e, p')) :
    ∃ before d₀ since, calls ++ [.engineFor d] = before ++ .engineFor d₀ :: since ∧
      (∀ c ∈ since, c.Spares d) ∧ d₀.id = d.id ∧ d₀.config = d.config ∧
      e = ⟨(EnginePool.run {} before).created.length, d₀.url⟩ ∧
      (e.url = d.url ↔ d₀.type = d.type) := by
  have hlookup := (EnginePool.engineFor_eq_iff.mp h).lookup
  rw [← EnginePool.after_of_engineFor h, ← EnginePool.run_snoc] at hlookup
  obtain ⟨before, d₀, since, hcalls, hsince, hid, hf₀, he⟩ := EnginePool.stemsFrom_run hlookup
  have hconfig := DatasourceConfig.eq_of_fingerprint hf₀
  refine ⟨before, d₀, since, hcalls, ?_, hid, hconfig, he, ?_⟩
  · intro c hc
    have hspares := hsince c hc
    cases c with
    | disposeAll => exact hspares
    | engineFor d' => exact fun hid' => (hspares (hid'.trans hid.symm)).trans hconfig
  · cases he
    exact Datasource.url_eq_iff hconfig

/-- The engine of the second call is that of the first. -/
theorem engines_are_of_their_configuration_asked_again :
    ∃ (d : Datasource) (p' : EnginePool),
      (EnginePool.run {} [.engineFor d]).engineFor d = (⟨0, d.url⟩, p') ∧
      ∃ before d₀ since, [.engineFor d, .engineFor d] = before ++ PoolCall.engineFor d₀ :: since ∧
        (∀ c ∈ since, c.Spares d) ∧ d₀.id = d.id ∧ d₀.config = d.config ∧
        (⟨0, d.url⟩ : Engine) = ⟨(EnginePool.run {} before).created.length, d₀.url⟩ ∧
        (d.url = d.url ↔ d₀.type = d.type) := by
  let d : Datasource := ⟨"a", "u", "n", .mysql, { host := some "h", port := some 3306 }⟩
  have hagain : (EnginePool.run {} [.engineFor d]).engineFor d = (⟨0, d.url⟩, _) := rfl
  exact ⟨d, _, hagain, engines_are_of_their_configuration [.engineFor d] hagain⟩

/-- The type of a datasource is no part of its configuration: one that turns from a file into a
server gets the engine of the file. -/
theorem engine_may_be_of_another_type :
    ∃ (file server : Datasource) (e : Engine) (p' : EnginePool),
      file.id = server.id ∧ file.config = server.config ∧
      (EnginePool.run {} [.engineFor file]).engineFor server = (e, p') ∧
      e.url = file.url ∧ e.url.driver = "sqlite" ∧ server.url.driver = "postgresql+psycopg2" ∧
      e.url ≠ server.url :=
  ⟨⟨"a", "u", "n", .sqlite, {}⟩, ⟨"a", "u", "n", .postgresql, {}⟩, _, _, rfl, rfl, rfl, rfl, rfl,
    rfl, by decide⟩

end Source
end DatasetCatalog
