import Mathlib
import DatasetCatalog.Proofs.Cache.Keys
import DatasetCatalog.Proofs.Service.Records

/-!
# Coherence

What the cache holds of a dataset is what the repository holds, unless a writer of the dataset has
still to drop its tag. So a call that begins after a writer has dropped the tag gets a dataset that
was read after the write.
-/

namespace DatasetCatalog.Service.Interplay

open Cache Store

section Traffic
variable {T : Type} {c : Interplay T} {x : Act T}

theorem traffic_ne_set {key : String} {v : Cached} {ttl : Option T} {tags : List String} :
    c.traffic x ≠ .set key v ttl tags := by
  intro h
  cases x with
  | finish call => simp only [traffic] at h; split at h <;> cases h
  | invalidate writer => simp only [traffic] at h; split at h <;> cases h
  | deliver call outcome => simp only [traffic] at h; split at h <;> cases h
  | _ => cases h

/-- Only a call for a dataset asks the cache for the key of one. -/
theorem get_of_traffic {id : String} (hid : ':' ∉ id.toList) {ttl : Option T} {tags : List String}
    (h : c.traffic x = .getOrSet (datasetKey id) ttl tags) :
    datasetTag id ∈ tags ∧ ∃ userId ttl, x = .get userId id ttl := by
  cases x with
  | get userId id' ttl' =>
    simp only [traffic, Step.getOrSet.injEq] at h
    obtain ⟨hkey, _, rfl⟩ := h
    obtain rfl := datasetKey_injective hkey
    exact ⟨List.mem_cons_self, userId, ttl', rfl⟩
  | preview id' limit ttl' =>
    simp only [traffic, Step.getOrSet.injEq] at h
    exact absurd h.1 (previewKey_ne hid id' limit)
  | query id' hash ttl' =>
    simp only [traffic, Step.getOrSet.injEq] at h
    exact absurd h.1 (queryKey_ne hid id' hash)
  | finish call => simp only [traffic] at h; split at h <;> cases h
  | invalidate writer => simp only [traffic] at h; split at h <;> cases h
  | deliver call outcome => simp only [traffic] at h; split at h <;> cases h
  | _ => cases h

/-- A call for a dataset ends with what it has read. -/
theorem found_of_traffic {call : Nat} {v : Cached} (h : c.traffic x = .finish call v)
    (hget : ∃ id, (call, id) ∈ c.gets) : ∃ d, v = .dataset d ∧ (call, .ok d) ∈ c.found := by
  cases x with
  | finish call' =>
    simp only [traffic] at h
    split at h
    · rename_i d hd
      cases h
      exact ⟨d, rfl, mem_of_lookup hd⟩
    · cases h
    · cases h
  | deliver call' outcome =>
    simp only [traffic] at h
    split at h
    · rename_i hnone
      cases h
      obtain ⟨id, hid⟩ := hget
      have hne := List.lookup_eq_none_iff.mp hnone (call, id) hid
      simp at hne
    · cases h
    · cases h
  | invalidate writer => simp only [traffic] at h; split at h <;> cases h
  | _ => cases h

end Traffic

variable {T : Type} [LE T] [DecidableLE T] [LT T] [DecidableLT T] [Add T]
  {s c : Interplay T} {xs : List (Act T)} {x : Act T} {id : String} {d : Dataset}
  {tags : List String}

/-- The repository holds a dataset, or a writer of the id has still to drop its tag. -/
def Current (c : Interplay T) (id : String) (d : Dataset) : Prop :=
  c.repository.find? id = .ok (some d) ∨ ∃ w, (w, id) ∈ c.writers

/-- A writer that drops the tag of its dataset drops what is held of the dataset. -/
theorem Recorded.drops_of_invalidate (hc : Recorded s xs c) {w : Nat} (hw : (w, id) ∈ c.writers)
    (ht : datasetTag id ∈ tags) : (c.traffic (.invalidate w)).Drops tags := by
  have hone : ∀ id', (w, id') ∈ c.writers → id' = id := by
    intro id' hw'
    obtain ⟨⟨_, _, hx, _⟩, _⟩ := hc.writers.mp hw
    obtain ⟨⟨_, _, hx', _⟩, _⟩ := hc.writers.mp hw'
    rw [hx] at hx'
    cases hx'
    rfl
  simp only [traffic, lookup_of_mem hw hone]
  exact ⟨_, ht, List.mem_singleton.mpr rfl⟩

theorem Current.after (h : c.Current id d) (hc : Recorded s xs c)
    (hx : ¬ (c.traffic x).Drops tags) (ht : datasetTag id ∈ tags) : (c.after x).Current id d := by
  rcases h with hfind | ⟨w, hw⟩
  · cases x with
    | write id' change =>
      cases hwritten : change.written? c.repository id' with
      | none =>
        refine .inl ?_
        simpa only [Interplay.after, take, hwritten] using hfind
      | some r =>
        by_cases hid : id' = id
        · subst hid
          exact .inr ⟨_, (mem_writers_take c _).mpr (.inr ⟨rfl, change, r, rfl, hwritten⟩)⟩
        · refine .inl ?_
          simp only [Interplay.after, take, hwritten]
          rw [(Change.written?_frame hc.ids hwritten).2 id (Ne.symm hid)]
          exact hfind
    | create d' =>
      refine .inl ?_
      simp only [Interplay.after, take]
      split
      · rename_i hcreate
        exact (Repository.create_frame hc.ids hcreate).2 id d hfind
      · exact hfind
    | load call =>
      refine .inl ?_
      simp only [Interplay.after, take]
      split <;> exact hfind
    | _ => exact .inl hfind
  · have hne : x ≠ .invalidate w := by
      rintro rfl
      exact hx (hc.drops_of_invalidate hw ht)
    exact .inr ⟨w, (mem_writers_take c x).mpr (.inl ⟨hw, hne⟩)⟩

/-- What was read is current until the tag of its dataset is dropped. -/
theorem current_of_reads (hs : Recorded s [] s) {q call : Nat}
    (hread : s.Reads xs q call id (.ok d))
    (hquiet : ∀ i y, q ≤ i → (s.log xs)[i]? = some y → ¬ y.Drops tags)
    (ht : datasetTag id ∈ tags) : (s.run xs).Current id d := by
  obtain ⟨hq, _, hfind⟩ := hread
  have hle := (List.getElem?_eq_some_iff.mp hq).1
  clear hq
  induction xs using List.reverseRecOn with
  | nil => cases hle
  | append_singleton xs x ih =>
    rw [run_concat]
    have hlog : ∀ i y, q ≤ i → (s.log xs)[i]? = some y → ¬ y.Drops tags := by
      intro i y hqi hy
      apply hquiet i y hqi
      rw [log_append]
      exact getElem?_append_of_some hy
    have hx : ¬ ((s.run xs).traffic x).Drops tags := by
      have hlast : q ≤ xs.length := by
        simp only [List.length_append, List.length_singleton] at hle
        omega
      apply hquiet xs.length _ hlast
      rw [getElem?_log, List.getElem?_concat_length, List.take_left]
      rfl
    have hcur : (s.run xs).Current id d := by
      rcases Nat.lt_or_ge q xs.length with hlt | hge
      · rw [List.take_append_of_le_length (Nat.le_of_lt hlt)] at hfind
        exact ih hlog hfind hlt
      · have hq : q = xs.length := by
          simp only [List.length_append, List.length_singleton] at hle
          omega
        rw [hq, List.take_left] at hfind
        exact .inl (readDataset_eq_ok.mp hfind)
    exact hcur.after (hs.run xs) hx ht

/-- A value that the cache gives for a dataset was read from the repository by a leading call since
whose start nothing has dropped the tag of the dataset. -/
theorem reads_of_origin (hs : Recorded s [] s) (hid : ':' ∉ id.toList) {v : Cached} {stop : Nat}
    (ho : Origin (s.log xs) (datasetKey id) v tags stop) :
    ∃ p q d, v = .dataset d ∧ datasetTag id ∈ tags ∧ p ≤ stop ∧
      Undisturbed (s.log xs) p stop tags ∧ s.Reads xs q p id (.ok d) := by
  cases ho with
  | set hi =>
    rw [getElem?_log] at hi
    obtain ⟨y, _, hy⟩ := Option.map_eq_some_iff.mp hi
    exact absurd hy traffic_ne_set
  | @computed p i ttl hp hi hlt hle hu =>
    rw [getElem?_log] at hp hi
    obtain ⟨x, hx, htraffic⟩ := Option.map_eq_some_iff.mp hp
    obtain ⟨y, hy, hend⟩ := Option.map_eq_some_iff.mp hi
    obtain ⟨ht, userId, ttl', rfl⟩ := get_of_traffic hid htraffic
    -- the state in which the leading call ends
    have hrec := hs.run (xs.take i)
    have hcall : (p, id) ∈ (s.run (xs.take i)).gets := by
      apply hrec.gets.mpr
      refine ⟨userId, ttl', ?_⟩
      rwa [List.getElem?_take_of_lt hlt]
    obtain ⟨d, rfl, hfound⟩ := found_of_traffic hend ⟨id, hcall⟩
    obtain ⟨q, id', hcall', hread⟩ := hrec.found hfound
    have hsame : id' = id := by
      obtain ⟨_, _, hx'⟩ := hrec.gets.mp hcall'
      rw [List.getElem?_take_of_lt hlt, hx] at hx'
      cases hx'
      rfl
    subst hsame
    have hall := hread.append (xs.drop i)
    rw [List.take_append_drop] at hall
    exact ⟨p, q, d, rfl, ht, hle, hu, hall⟩

/-- In a run on any repository with nothing cached, for an id without a colon: if the cache holds
anything but the dataset that the repository holds, then some writer of the id has still to drop
its tag; and a call that begins after a writer has dropped the tag gets a dataset that was read
after the write. -/
theorem cached_dataset_is_current {repository : Repository} (hr : repository.Reachable)
    (defaultTtl : T) (maxEntries : Int) (now : T) (xs : List (Act T)) (id : String)
    (hid : ':' ∉ id.toList) :
    let s := start repository defaultTtl maxEntries now
    (∀ e, (s.run xs).cache.store.entry? (datasetKey id) = some e →
      (∃ d, e.value = .dataset d ∧ (s.run xs).repository.find? id = .ok (some d)) ∨
      ∃ w, s.Pending xs w id) ∧
    (∀ w i t userId ttl v, s.Pending (xs.take i) w id → xs[i]? = some (.invalidate w) → i < t →
      xs[t]? = some (.get userId id ttl) → ⟨t, .value v⟩ ∈ (s.run xs).cache.returns →
      ∃ d p q, v = .dataset d ∧ w < q ∧ s.Reads xs q p id (.ok d)) := by
  intro s
  have hs : Recorded s [] s := .start hr.keepsIds defaultTtl maxEntries now
  have hsound : (s.run xs).cache.Sound (s.log xs) := by
    rw [cache_run]
    exact (Traffic.Sound.start defaultTtl maxEntries now).run (s.log xs)
  constructor
  · intro e he
    obtain ⟨p, q, d, hv, ht, _, hu, hread⟩ :=
      reads_of_origin hs hid (hsound.holds (Store.holds_of_entry? he))
    have hcur : (s.run xs).Current id d := by
      refine current_of_reads hs hread (fun i y hqi hy => ?_) ht
      have hi := (List.getElem?_eq_some_iff.mp hy).1
      exact hu i y (Nat.lt_of_lt_of_le hread.2.1 hqi) hi hy
    rcases hcur with hfind | ⟨w, hw⟩
    · exact .inl ⟨d, hv, hfind⟩
    · exact .inr ⟨w, (hs.run xs).writers.mp hw⟩
  · intro w i t userId ttl v hpending hinv hit hget hret
    obtain ⟨y, key, tags, hy, hasks, ho⟩ := hsound.returns hret
    rw [getElem?_log, hget] at hy
    cases hy
    obtain rfl : datasetKey id = key := hasks
    obtain ⟨p, q, d, hv, ht, _, hu, hread⟩ := reads_of_origin hs hid ho
    refine ⟨d, p, q, hv, ?_, hread⟩
    -- the leading call began after the tag was dropped
    have hdrops := (hs.run (xs.take i)).drops_of_invalidate
      ((hs.run (xs.take i)).writers.mpr hpending) ht
    have hlog : (s.log xs)[i]? = some ((s.run (xs.take i)).traffic (.invalidate w)) := by
      rw [getElem?_log, hinv]
      rfl
    have hip : i ≤ p := by
      rcases Nat.lt_or_ge p i with hpi | hip
      · exact absurd hdrops (hu i _ hpi hit hlog)
      · exact hip
    have hwi := hpending.1.lt
    have hpq := hread.2.1
    rw [List.length_take] at hwi
    omega

/-- A dataset is deleted and made anew while it is read: what was read before goes into the cache
and out of it, and the next call gets the new dataset. -/
theorem cached_dataset_is_current_when_made_anew :
    let dataset (name : String) : Dataset :=
      { id := "a", userId := "u", name, displayName := name, type := .table
        createdAt := Time.Moment.start2024, updatedAt := Time.Moment.start2024 }
    let xs : List (Act Nat) :=
      [.create (dataset "old"), .get "u" "a" 60, .load 1, .write "a" .delete, .finish 1,
        .invalidate 3, .create (dataset "new"), .get "v" "a" 60, .load 7, .finish 7]
    let s := start { datasets := .emptyMemory } 60 8 0
    ((s.run (xs.take 5)).cache.store.entry? (datasetKey "a")).map Entry.value =
        some (.dataset (dataset "old")) ∧
      (s.run (xs.take 5)).repository.find? "a" = .ok none ∧
      (∃ w, s.Pending (xs.take 5) w "a") ∧
      ⟨7, .value (.dataset (dataset "new"))⟩ ∈ (s.run xs).cache.returns ∧
      ∃ p q, 3 < q ∧ s.Reads xs q p "a" (.ok (dataset "new")) := by
  intro dataset xs s
  have hcolon : ':' ∉ "a".toList := by simp
  have hheld : ((s.run (xs.take 5)).cache.store.entry? (datasetKey "a")).map Entry.value =
      some (.dataset (dataset "old")) := by rfl
  have hfind : (s.run (xs.take 5)).repository.find? "a" = .ok none := by rfl
  have hreturns : (s.run xs).cache.returns =
      [⟨1, .value (.dataset (dataset "old"))⟩, ⟨7, .value (.dataset (dataset "new"))⟩] := by cbv
  have hreturn : ⟨7, .value (.dataset (dataset "new"))⟩ ∈ (s.run xs).cache.returns := by
    rw [hreturns]
    exact List.mem_cons_of_mem _ List.mem_cons_self
  have hpending : s.Pending (xs.take 5) 3 "a" := by
    refine ⟨⟨.delete, _, rfl, rfl⟩, fun i hi hi' => ?_⟩
    have hlt : i < 5 := (List.getElem?_eq_some_iff.mp hi').1
    obtain rfl : i = 4 := by omega
    cases hi'
  obtain ⟨hcurrent, _⟩ := cached_dataset_is_current (.memory []) 60 8 0 (xs.take 5) "a" hcolon
  obtain ⟨_, hfresh⟩ := cached_dataset_is_current (.memory []) 60 8 0 xs "a" hcolon
  refine ⟨hheld, hfind, ?_, hreturn, ?_⟩
  · obtain ⟨e, he, hv⟩ := Option.map_eq_some_iff.mp hheld
    rcases hcurrent e he with ⟨d, _, hd⟩ | hw
    · change (s.run (xs.take 5)).repository.find? "a" = .ok (some d) at hd
      rw [hfind] at hd
      cases hd
    · exact hw
  · obtain ⟨d, p, q, hd, hlt, hread⟩ :=
      hfresh 3 5 7 "v" 60 _ hpending rfl (by omega) rfl hreturn
    cases hd
    exact ⟨p, q, hlt, hread⟩

end DatasetCatalog.Service.Interplay
