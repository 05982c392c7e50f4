import Mathlib.Data.List.ReduceOption
import DatasetCatalog.Proofs.Cache.PlainMap
import DatasetCatalog.Proofs.Number.FloatOrder

/-!
# Sweeps in between

A cache that is swept in between has lost nothing but what has expired. While neither cache evicts
anything, its calls are answered as if it had not been swept; and where there may be entries at all,
sweeping makes room but never calls for any.
-/

namespace DatasetCatalog.Cache

variable {T α ε : Type}

namespace Store

/-- The cache with other entries in the place of its own. -/
def withEntries (s : Store T α) (entries : List (Entry T α)) : Store T α := { s with entries }

variable {s : Store T α} {entries : List (Entry T α)} {key : String}

theorem exists_lookup_withEntries [LE T] [DecidableLE T] {now : T}
    (h : ((s.withEntries entries).lookup now key).1 = (s.lookup now key).1) :
    ∃ entries', (s.withEntries entries).lookup now key =
      ((s.lookup now key).1, (s.lookup now key).2.withEntries entries') := by
  refine ⟨((s.withEntries entries).lookup now key).2.entries, Prod.ext h ?_⟩
  unfold lookup at h ⊢
  rcases hd : Store.entry? (s.withEntries entries) key with _ | e <;>
    rcases hc : s.entry? key with _ | e' <;> simp only [hd, hc] at h ⊢
  · rfl
  · cases he' : e'.isExpired now
    · simp [he'] at h
    · rfl
  · cases he : e.isExpired now
    · simp [he] at h
    · rfl
  · cases he : e.isExpired now <;> cases he' : e'.isExpired now
    · rfl
    · simp [he, he'] at h
    · simp [he, he'] at h
    · rfl

theorem exists_put_withEntries [LT T] [DecidableLT T] [Add T] (h : s.makeRoom key = s)
    (h' : (s.withEntries entries).makeRoom key = s.withEntries entries) (now : T) (v : α)
    (ttl : Option T) (tags : List String) : ∃ entries', (s.withEntries entries).put now key v ttl tags =
      (s.put now key v ttl tags).withEntries entries' := by
  unfold put
  rw [h, h']
  exact ⟨_, rfl⟩

end Store

namespace Traffic

/-- The traffic with other entries in the cache. -/
def withEntries (c : Traffic T α ε) (entries : List (Entry T α)) : Traffic T α ε :=
  { c with store := c.store.withEntries entries }

section Sweeping
variable [LE T] [DecidableLE T] [LT T] [DecidableLT T]

/-- The cache is swept, and no call takes note. -/
def sweep (c : Traffic T α ε) : Traffic T α ε :=
  { c with store := (c.store.cleanup c.now).2 }

/-- The steps with sweeps in between, which count as no steps. -/
def runSwept [Add T] (c : Traffic T α ε) (xs : List (Option (Step T α ε))) : Traffic T α ε :=
  xs.foldl (fun c x => x.elim c.sweep c.after) c

end Sweeping

section Thinning
variable {c d : Traffic T α ε} {key : String}

/-- The second cache is the first, but for entries that have expired and are gone. -/
structure Thins [LE T] (c d : Traffic T α ε) : Prop where
  rest : ∃ entries, d = c.withEntries entries
  distinct : c.store.Distinct
  distinct' : d.store.Distinct
  has : ∀ key r, d.store.Has key r → c.store.Has key r
  live : ∀ key r, c.store.Has key r → d.store.Has key r ∨ r.expiresAt ≤ c.now

namespace Thins
variable [LE T]

theorem refl (hc : c.store.Distinct) : c.Thins c :=
  ⟨⟨c.store.entries, rfl⟩, hc, hc, fun _ _ => id, fun _ _ => .inl⟩

theorem length_le (h : c.Thins d) : d.store.entries.length ≤ c.store.entries.length :=
  Store.length_le_of_has h.distinct' fun key r hhas => ⟨r, h.has key r hhas⟩

theorem now (h : c.Thins d) : d.now = c.now := by
  obtain ⟨entries, rfl⟩ := h.rest
  rfl

theorem maxEntries (h : c.Thins d) : d.store.maxEntries = c.store.maxEntries := by
  obtain ⟨entries, rfl⟩ := h.rest
  rfl

/-- Where the first cache has room, so has the second. -/
theorem hasRoom (h : c.Thins d) (hlength : c.store.entries.length ≤ c.store.maxEntries)
    (hroom : c.store.HasRoom key) : d.store.HasRoom key := by
  by_cases hthere : (d.store.entry? key).isSome
  · exact .inl hthere
  refine .inr ?_
  rw [h.maxEntries]
  have hle := h.length_le
  rcases hroom with hsome | hroom
  · -- the key is gone from the second cache, and its entry with it
    obtain ⟨e, he⟩ := Option.isSome_iff_exists.mp hsome
    obtain ⟨hmem, hkey⟩ := Store.mem_of_entry?_eq_some he
    have hfewer : (c.store.without key).entries.length < c.store.entries.length :=
      List.length_filter_lt_length_iff_exists.mpr ⟨e, hmem, by simp [hkey]⟩
    have hsub : d.store.entries.length ≤ (c.store.without key).entries.length := by
      refine Store.length_le_of_has h.distinct' fun k r hhas => ⟨r, ?_⟩
      refine Store.has_without_iff.mpr ⟨?_, h.has k r hhas⟩
      rintro rfl
      exact hthere (Store.exists_has_iff.mp ⟨r, hhas⟩)
    omega
  · omega

variable [DecidableLE T]

theorem lookup (h : c.Thins d) (key : String) :
    (d.store.lookup c.now key).1 = (c.store.lookup c.now key).1 := by
  ext v
  rw [Store.lookup_eq_some_iff h.distinct', Store.lookup_eq_some_iff h.distinct]
  constructor
  · rintro ⟨r, hhas, hv, hlive⟩
    exact ⟨r, h.has key r hhas, hv, hlive⟩
  · rintro ⟨r, hhas, hv, hlive⟩
    exact ⟨r, (h.live key r hhas).resolve_right hlive, hv, hlive⟩

variable [LT T] [DecidableLT T]

theorem sweep (h : c.Thins d) (hevictions : d.sweep.store.evictions = d.store.evictions) :
    c.Thins d.sweep := by
  have hstore : d.sweep.store = d.store.live c.now := h.now ▸ Store.cleanup_eq_live hevictions
  refine ⟨?_, h.distinct, ?_, ?_, ?_⟩
  · obtain ⟨entries, rfl⟩ := h.rest
    refine ⟨((c.withEntries entries).store.live c.now).entries, ?_⟩
    rw [Traffic.sweep] at hstore ⊢
    simp only at hstore
    rw [hstore]
    rfl
  · rw [hstore]
    exact Store.distinct_of_sublist h.distinct' List.filter_sublist
  · intro key r hhas
    rw [hstore, Store.has_live_iff] at hhas
    exact h.has key r hhas.1
  · intro key r hhas
    rw [hstore, Store.has_live_iff]
    by_cases hexpired : r.expiresAt ≤ c.now
    · exact .inr hexpired
    · exact .inl ⟨(h.live key r hhas).resolve_right hexpired, hexpired⟩

end Thins

theorem evictions_le_sweep [LE T] [DecidableLE T] [LT T] [DecidableLT T] (c : Traffic T α ε) :
    c.store.evictions ≤ c.sweep.store.evictions :=
  (c.store.evicts_cleanup c.now).evictions_le

end Thinning

section Writing
variable [Add T] {c : Traffic T α ε} {entries : List (Entry T α)} {x : Step T α ε} {key : String}

/-- What is written does not depend on the entries that are there. -/
theorem writes_withEntries {r : Record T α} :
    (c.withEntries entries).Writes x key r ↔ c.Writes x key r := by
  constructor <;> intro h <;> cases h
  · exact .set
  · exact .stored ‹_› ‹_›
  · exact .set
  · exact .stored ‹_› ‹_›

theorem spares_withEntries {tags : List String} :
    (c.withEntries entries).Spares x key tags ↔ c.Spares x key tags := by
  simp only [Spares, writes_withEntries]

end Writing

variable [LE T] [DecidableLE T] [LT T] [DecidableLT T] [Add T]

section Steps
variable {c d : Traffic T α ε} {entries : List (Entry T α)} {x : Step T α ε} {key : String}

/-- A step that finds the same in both caches, and evicts from neither, tells them apart by their
entries only. -/
theorem exists_after_withEntries
    (hlookup : ∀ key, x.Asks key →
      ((c.store.withEntries entries).lookup c.now key).1 = (c.store.lookup c.now key).1)
    (hc : (c.after x).store.evictions = c.store.evictions)
    (hd : ((c.withEntries entries).after x).store.evictions = c.store.evictions) :
    ∃ entries', (c.withEntries entries).after x = (c.after x).withEntries entries' := by
  cases x with
  | getOrSet key ttl tags =>
    obtain ⟨entries', h⟩ := Store.exists_lookup_withEntries (hlookup key rfl)
    simp only [after, take, withEntries, Store.begin, h]
    rcases c.store.lookup c.now key with ⟨_ | v, s⟩
    · have hflight : (s.withEntries entries').flight? key = s.flight? key := rfl
      simp only [hflight]
      cases s.flight? key <;> exact ⟨_, rfl⟩
    · exact ⟨_, rfl⟩
  | finish call v =>
    cases hlead : c.leading.lookup call with
    | none =>
      refine ⟨entries, ?_⟩
      simp only [after, take, withEntries, hlead]
    | some lead =>
      have hstale : (c.store.withEntries entries).isStale lead = c.store.isStale lead := rfl
      simp only [after, take, withEntries, hlead, Store.finish, hstale] at hc hd ⊢
      cases h : c.store.isStale lead with
      | true => exact ⟨_, rfl⟩
      | false =>
        simp only [h] at hc hd
        obtain ⟨entries', hput⟩ := Store.exists_put_withEntries (Store.makeRoom_eq hc)
          (Store.makeRoom_eq hd) c.now v lead.ttl lead.tags
        refine ⟨entries', ?_⟩
        simp only [Bool.false_eq_true, if_false, hput]
        rfl
  | fail call e =>
    simp only [after, take, withEntries]
    cases c.leading.lookup call <;> exact ⟨_, rfl⟩
  | get key =>
    obtain ⟨entries', h⟩ := Store.exists_lookup_withEntries (hlookup key rfl)
    refine ⟨entries', ?_⟩
    simp only [after, take, withEntries, h]
    rfl
  | set key v ttl tags =>
    obtain ⟨entries', hput⟩ := Store.exists_put_withEntries (Store.makeRoom_eq hc)
      (Store.makeRoom_eq hd) c.now v ttl tags
    refine ⟨entries', ?_⟩
    simp only [after, take, withEntries, hput]
  | cleanup =>
    have hc := Store.cleanup_eq_live hc
    have hd := Store.cleanup_eq_live hd
    exact ⟨_, by simp only [after, take, withEntries] at hc hd ⊢; rw [hc, hd]; rfl⟩
  | _ => exact ⟨_, rfl⟩

/-- A step that evicts nothing has room for what it writes. -/
theorem Writes.hasRoom {r : Record T α} (h : c.Writes x key r) (hmax : 0 < c.store.maxEntries)
    (hevictions : (c.after x).store.evictions = c.store.evictions) : c.store.HasRoom key := by
  cases h with
  | set => exact Store.hasRoom_of_evictions hmax hevictions
  | stored hlead hstale =>
    simp only [after, take, hlead, Store.finish, hstale] at hevictions
    exact Store.hasRoom_of_evictions hmax hevictions

/-- With room for what it writes, a step evicts nothing. -/
theorem evictions_after_of_room (hlength : c.store.entries.length ≤ c.store.maxEntries)
    (hroom : ∀ key r, c.Writes x key r → c.store.HasRoom key) :
    (c.after x).store.evictions = c.store.evictions := by
  obtain ⟨s, halters, _, hcount, _⟩ := c.exists_alters x
  rw [hcount]
  cases halters with
  | looks _ => exact (Store.lookup_room _ _ _).1
  | @writes _ key _ _ _ hwrites =>
    have hcount : (c.store.makeRoom key).evictions = c.store.evictions :=
      congrArg Store.evictions (hroom _ _ hwrites).makeRoom_eq
    exact hcount
  | sweeps =>
    rw [Store.cleanup_eq_live_of_le hlength]
    rfl
  | _ => rfl

namespace Thins

/-- A step that evicts nothing from either cache leaves it so. -/
theorem after (htrans : ∀ {a b d : T}, a ≤ b → b ≤ d → a ≤ d) (h : c.Thins d)
    (htime : c.now ≤ (c.after x).now)
    (hc : (c.after x).store.evictions = c.store.evictions)
    (hd : (d.after x).store.evictions = d.store.evictions) :
    (c.after x).Thins (d.after x) := by
  obtain ⟨entries, rfl⟩ := h.rest
  refine ⟨?_, distinct_after h.distinct, distinct_after h.distinct', ?_, ?_⟩
  · exact exists_after_withEntries (fun key _ => h.lookup key) hc hd
  · intro key r hhas
    rw [has_after_iff h.distinct' hd, writes_withEntries, spares_withEntries] at hhas
    rw [has_after_iff h.distinct hc]
    rcases hhas with hwrites | ⟨hspares, hhas, hlive⟩
    · exact .inl hwrites
    · exact .inr ⟨hspares, h.has key r hhas, hlive⟩
  · intro key r hhas
    rw [has_after_iff h.distinct hc] at hhas
    rw [has_after_iff h.distinct' hd, writes_withEntries, spares_withEntries]
    rcases hhas with hwrites | ⟨hspares, hhas, hlive⟩
    · exact .inl (.inl hwrites)
    by_cases hexpired : r.expiresAt ≤ c.now
    · exact .inr (htrans hexpired htime)
    · exact .inl (.inr ⟨hspares, (h.live key r hhas).resolve_right hexpired, hlive⟩)

end Thins

end Steps

section Runs
variable {c d : Traffic T α ε} {xs : List (Step T α ε)} {x : Step T α ε}

theorem KeepsTime.of_cons (h : c.KeepsTime (x :: xs)) :
    c.now ≤ (c.after x).now ∧ (c.after x).KeepsTime xs :=
  ⟨h 0 1 (Nat.zero_le 1), fun i j hij => h (i + 1) (j + 1) (Nat.succ_le_succ hij)⟩

theorem evictions_le_runSwept (c : Traffic T α ε) (xs : List (Option (Step T α ε))) :
    c.store.evictions ≤ (c.runSwept xs).store.evictions := by
  induction xs generalizing c with
  | nil => exact Nat.le_refl _
  | cons x rest ih =>
    cases x with
    | none => exact Nat.le_trans c.evictions_le_sweep (ih c.sweep)
    | some x => exact Nat.le_trans (c.evictions_le_after x) (ih (c.after x))

/-- Either the cache keeps within a bound that lets there be entries, or the swept run is known to
evict nothing. -/
def Roomy (c d : Traffic T α ε) (xs : List (Option (Step T α ε))) : Prop :=
  0 < c.store.maxEntries ∧ c.store.entries.length ≤ c.store.maxEntries ∨
    (d.runSwept xs).store.evictions = d.store.evictions

theorem Thins.of_runSwept (htrans : ∀ {a b d : T}, a ≤ b → b ≤ d → a ≤ d) (h : c.Thins d)
    {xs : List (Option (Step T α ε))} (htime : c.KeepsTime xs.reduceOption)
    (hevictions : c.EvictsNothing xs.reduceOption)
    (hroom : c.Roomy d xs) : (c.run xs.reduceOption).Thins (d.runSwept xs) := by
  unfold EvictsNothing at hevictions
  induction xs generalizing c d with
  | nil => exact h
  | cons x rest ih =>
    have hmax := h.maxEntries
    have hle := h.length_le
    cases x with
    | none =>
      rw [List.reduceOption_cons_of_none] at htime hevictions ⊢
      have hfirst := d.evictions_le_sweep
      have hlater := d.sweep.evictions_le_runSwept rest
      have hsweep : d.sweep.store.evictions = d.store.evictions := by
        rcases hroom with ⟨_, hlength⟩ | hnone
        · rw [Traffic.sweep, Store.cleanup_eq_live_of_le (by omega)]
          rfl
        · change (d.sweep.runSwept rest).store.evictions = _ at hnone
          omega
      exact ih (h.sweep hsweep) htime hevictions (hroom.imp_right fun hnone => hnone.trans hsweep.symm)
    | some x =>
      rw [List.reduceOption_cons_of_some] at htime hevictions ⊢
      obtain ⟨hstep, htime⟩ := htime.of_cons
      change ((c.after x).run rest.reduceOption).store.evictions = _ at hevictions
      have hfirst := c.evictions_le_after x
      have hlater := (c.after x).evictions_le_run rest.reduceOption
      have hc : (c.after x).store.evictions = c.store.evictions := by omega
      have hd : (d.after x).store.evictions = d.store.evictions := by
        rcases hroom with ⟨hpositive, hlength⟩ | hnone
        · refine evictions_after_of_room (by omega) fun key r hwrites => ?_
          obtain ⟨entries, rfl⟩ := h.rest
          exact h.hasRoom hlength ((writes_withEntries.mp hwrites).hasRoom hpositive hc)
        · have hfirst := d.evictions_le_after x
          have hlater := (d.after x).evictions_le_runSwept rest
          change ((d.after x).runSwept rest).store.evictions = _ at hnone
          omega
      refine ih (h.after htrans hstep hc hd) htime (by omega) ?_
      rcases hroom with ⟨hpositive, hlength⟩ | hnone
      · have hbound := c.maxEntries_after x
        have hlength := length_after_le (x := x) h.distinct (by omega)
        exact .inl ⟨by omega, by omega⟩
      · exact .inr (hnone.trans hd.symm)

theorem KeepsTime.nil (h : c.now ≤ c.now) : c.KeepsTime [] := by
  intro i j _
  rwa [List.take_nil, List.take_nil]

theorem KeepsTime.cons (htrans : ∀ {a b d : T}, a ≤ b → b ≤ d → a ≤ d) (h : c.now ≤ c.now)
    (hstep : c.now ≤ (c.after x).now) (htime : (c.after x).KeepsTime xs) :
    c.KeepsTime (x :: xs) := by
  intro i j hij
  match i, j with
  | 0, 0 => exact h
  | 0, j + 1 => exact htrans hstep (htime 0 j (Nat.zero_le j))
  | i + 1, j + 1 => exact htime i j (Nat.le_of_succ_le_succ hij)

end Runs

end Traffic

/-- While the clock is not set back and nothing is evicted to make room, a cache is a plain map with
expiry. A call for a key hits a value if the last write of the key wrote it, nothing has discarded
it since, and its expiry is not reached: it is later than now, or it is no number. Sweeps in between
change no answer; they evict nothing either, if there may be entries at all. -/
theorem cache_is_plain_map_with_expiry (defaultTtl : Float) (maxEntries : Int) (now : Float)
    (xs : List (Step Float α ε)) :
    let empty : Traffic Float α ε := .start defaultTtl maxEntries now
    let c := empty.run xs
    empty.KeepsTime xs → empty.EvictsNothing xs →
      (∀ x key v, x.Asks key → (c.Hits x v ↔ ∃ r, empty.Stands xs key r ∧ r.value = v ∧
        (c.now < r.expiresAt ∨ r.expiresAt.isNaN = true))) ∧
      ∀ swept : List (Option (Step Float α ε)), swept.reduceOption = xs →
        0 < maxEntries ∨ (empty.runSwept swept).store.evictions = 0 →
        (empty.runSwept swept).returns = c.returns := by
  intro empty c htime hevictions
  have htrans {a b d : Float} : a ≤ b → b ≤ d → a ≤ d := Number.float_le_trans
  have hnow : c.now ≤ c.now := by
    have hlast := htime xs.length xs.length (Nat.le_refl _)
    rwa [List.take_length] at hlast
  have hlive (r : Record Float α) : ¬r.expiresAt ≤ c.now ↔
      c.now < r.expiresAt ∨ r.expiresAt.isNaN = true := Number.float_not_le_iff hnow
  constructor
  · intro x key v hasks
    simp only [← hlive]
    exact Traffic.hits_iff_stands htrans rfl htime hevictions hasks v
  · rintro swept rfl hroom
    have hdistinct : empty.store.Distinct := List.nodup_nil
    have hroomy : empty.Roomy empty swept :=
      hroom.imp (fun hmax => ⟨hmax, Int.le_of_lt hmax⟩) id
    obtain ⟨entries, hthins⟩ :=
      ((Traffic.Thins.refl hdistinct).of_runSwept htrans htime hevictions hroomy).rest
    rw [hthins]
    rfl

/-- A value is found until it expires, with or without sweeps in between. -/
theorem swept_cache_is_plain_map_with_expiry :
    let xs : List (Step Float Nat Unit) :=
      [.set "k" 7 (some 10) ["a"], .clock 1005, .get "k", .removeByTags ["b"]]
    let swept := [none, some (.set "k" 7 (some 10) ["a"]), some (.clock 1005), none,
      some (.get "k"), none, some (.removeByTags ["b"])]
    let empty : Traffic Float Nat Unit := .start 300 1024 1000
    empty.KeepsTime xs ∧ empty.EvictsNothing xs ∧
      (∃ r, empty.Stands xs "k" r ∧ r.value = 7 ∧
        ((empty.run xs).now < r.expiresAt ∨ r.expiresAt.isNaN = true)) ∧
      swept.reduceOption = xs ∧ (empty.runSwept swept).returns = (empty.run xs).returns := by
  intro xs swept empty
  have htrans {a b d : Float} : a ≤ b → b ≤ d → a ≤ d := Number.float_le_trans
  have htime : empty.KeepsTime xs := by
    have hnow : (1000 : Float) ≤ 1000 ∧ (1000 : Float) ≤ 1005 ∧ (1005 : Float) ≤ 1005 := by
      decide +kernel
    obtain ⟨hfirst, hstep, hlast⟩ := hnow
    exact .cons htrans hfirst hfirst <| .cons htrans hfirst hstep <|
      .cons htrans hlast hlast <| .cons htrans hlast hlast (.nil hlast)
  have hevictions : empty.EvictsNothing xs := by decide +kernel
  have hfound : ((empty.run xs).store.lookup (empty.run xs).now "k").1 = some 7 := by
    decide +kernel
  obtain ⟨hhits, hswept⟩ := cache_is_plain_map_with_expiry 300 1024 1000 xs htime hevictions
  have hasks : (Step.get "k" : Step Float Nat Unit).Asks "k" := rfl
  exact ⟨htime, hevictions, (hhits _ "k" 7 hasks).mp ((Traffic.hits_iff_lookup _ hasks 7).mpr hfound),
    rfl, hswept swept rfl (.inl (by decide))⟩

/-- An expiry that is no number is not later than now, and yet never reached. And where there may be
no entries, there is one until a sweep. -/
theorem plain_map_meets_nan_and_no_room :
    (let xs : List (Step Float Nat Unit) := [.set "k" 1 (some (0 / 0)) []]
      let empty : Traffic Float Nat Unit := .start 300 1024 1000
      empty.KeepsTime xs ∧ empty.EvictsNothing xs ∧ (empty.run xs).Hits (.get "k") 1 ∧
        ¬∃ r, empty.Stands xs "k" r ∧ r.value = 1 ∧ (empty.run xs).now < r.expiresAt) ∧
    (let xs : List (Step Float Nat Unit) := [.set "k" 1 none []]
      let swept := [some (.set "k" 1 none []), none]
      let empty : Traffic Float Nat Unit := .start 300 0 1000
      empty.KeepsTime xs ∧ empty.EvictsNothing xs ∧ swept.reduceOption = xs ∧
        (empty.run xs).Hits (.get "k") 1 ∧ ¬(empty.runSwept swept).Hits (.get "k") 1) := by
  have htrans {a b d : Float} : a ≤ b → b ≤ d → a ≤ d := Number.float_le_trans
  have hnow : (1000 : Float) ≤ 1000 := by decide +kernel
  have hasks : (Step.get "k" : Step Float Nat Unit).Asks "k" := rfl
  constructor
  · intro xs empty
    refine ⟨.cons htrans hnow hnow (.nil hnow), by decide +kernel, ?_, ?_⟩
    · rw [Traffic.hits_iff_lookup _ hasks]
      decide +kernel
    · rintro ⟨r, ⟨i, x, hx, hwrites, _⟩, _, hlater⟩
      obtain rfl : Step.set "k" 1 (some (0 / 0)) [] = x := by
        have hmem := List.mem_of_getElem? hx
        exact (List.mem_singleton.mp hmem).symm
      cases hwrites
      have htake : xs.take i = [] ∨ xs.take i = xs := by
        cases i <;> simp [xs]
      have hnever : ¬(1000 : Float) < 1000 + 0 / 0 := by decide +kernel
      rcases htake with h | h <;> rw [h] at hlater <;> exact hnever hlater
  · intro xs swept empty
    refine ⟨.cons htrans hnow hnow (.nil hnow), by decide +kernel, rfl, ?_, ?_⟩ <;>
      rw [Traffic.hits_iff_lookup _ hasks] <;> decide +kernel

end DatasetCatalog.Cache
