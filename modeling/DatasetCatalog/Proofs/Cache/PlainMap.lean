import Mathlib.Data.List.Induction
import DatasetCatalog.Proofs.Cache.Records
import DatasetCatalog.Proofs.Cache.Traffic

/-!
# A cache as a plain map with expiry

While nothing is evicted to make room, a look-up finds what was written last under its key, unless
that has expired or was discarded since. A step is described by the records that are there after
it; what a run leaves follows by induction.
-/

namespace DatasetCatalog.Cache

variable {T α ε : Type}

/-- Whether a step discards what stands under the key with these tags. -/
def Step.Discards : Step T α ε → String → List String → Prop
  | .remove k, key, _ => k = key
  | x, _, tags => x.Drops tags

/-- Whether a step looks if what stands under the key has expired. -/
def Step.Checks : Step T α ε → String → Prop
  | .cleanup, _ => True
  | x, key => x.Asks key

namespace Traffic

section Writing
variable [Add T]

/-- A step writes a record under a key: it sets it, or a computation ends whose value is stored. -/
inductive Writes (c : Traffic T α ε) : Step T α ε → String → Record T α → Prop
  | set {key : String} {v : α} {ttl : Option T} {tags : List String} :
    Writes c (.set key v ttl tags) key ⟨v, c.now + ttl.getD c.store.defaultTtl, tags⟩
  | stored {call : Nat} {v : α} {lead : Lead T} : c.leading.lookup call = some lead →
    c.store.isStale lead = false →
    Writes c (.finish call v) lead.key ⟨v, c.now + lead.ttl.getD c.store.defaultTtl, lead.tags⟩

/-- A step leaves what stands under the key with these tags. -/
def Spares (c : Traffic T α ε) (x : Step T α ε) (key : String) (tags : List String) : Prop :=
  ¬x.Discards key tags ∧ ∀ r, ¬c.Writes x key r

variable {c : Traffic T α ε} {x : Step T α ε} {key k : String} {r : Record T α}

/-- A step writes one record at most. -/
theorem Writes.unique (h : c.Writes x key r) {r' : Record T α} (h' : c.Writes x k r') :
    k = key ∧ r' = r := by
  cases h with
  | set =>
    cases h'
    exact ⟨rfl, rfl⟩
  | stored hlead _ =>
    cases h' with
    | stored hlead' _ =>
      cases hlead.symm.trans hlead'
      exact ⟨rfl, rfl⟩

/-- A write discards nothing, and checks nothing. -/
theorem Writes.not_discards (h : c.Writes x key r) (k : String) (tags : List String) :
    ¬x.Discards k tags ∧ ¬x.Checks k := by
  cases h with
  | set => exact ⟨id, id⟩
  | stored _ _ => exact ⟨id, id⟩

/-- A step that asks for a key writes and discards nothing, and checks that key alone. -/
theorem spares_of_asks (h : x.Asks key) (k : String) (tags : List String) :
    c.Spares x k tags ∧ (x.Checks k ↔ key = k) := by
  cases x with
  | getOrSet _ _ _ => exact ⟨⟨id, nofun⟩, by rw [← h]; exact Iff.rfl⟩
  | get _ => exact ⟨⟨id, nofun⟩, by rw [← h]; exact Iff.rfl⟩
  | _ => cases h

end Writing

variable [LE T] [DecidableLE T] [LT T] [DecidableLT T] [Add T]

/-- Of the steps, the last that wrote under the key wrote this record, and none since has discarded
it. -/
def Stands (c : Traffic T α ε) (xs : List (Step T α ε)) (key : String) (r : Record T α) : Prop :=
  ∃ i x, xs[i]? = some x ∧ (c.run (xs.take i)).Writes x key r ∧
    ∀ j y, i < j → xs[j]? = some y → (c.run (xs.take j)).Spares y key r.tags

/-- The clock is never set back along the steps. -/
def KeepsTime (c : Traffic T α ε) (xs : List (Step T α ε)) : Prop :=
  ∀ i j, i ≤ j → (c.run (xs.take i)).now ≤ (c.run (xs.take j)).now

/-- Along the steps no entry is evicted to make room. -/
def EvictsNothing (c : Traffic T α ε) (xs : List (Step T α ε)) : Prop :=
  (c.run xs).store.evictions = c.store.evictions

instance (c : Traffic T α ε) (xs : List (Step T α ε)) : Decidable (c.EvictsNothing xs) :=
  inferInstanceAs (Decidable (_ = _))

/-- The call is answered at once, with the value. -/
def Hits (c : Traffic T α ε) (x : Step T α ε) (v : α) : Prop :=
  (c.after x).returns = c.returns ++ [⟨c.time, .value v⟩]

section Runs
variable {c : Traffic T α ε} {xs : List (Step T α ε)} {x : Step T α ε}

theorem run_append (c : Traffic T α ε) (xs ys : List (Step T α ε)) :
    c.run (xs ++ ys) = (c.run xs).run ys := List.foldl_append

theorem run_snoc (c : Traffic T α ε) (xs : List (Step T α ε)) (x : Step T α ε) :
    c.run (xs ++ [x]) = (c.run xs).after x := c.run_append xs [x]

/-- What stands after one step more was just written, or stood and is spared. -/
theorem stands_snoc {key : String} {r : Record T α} : c.Stands (xs ++ [x]) key r ↔
    (c.run xs).Writes x key r ∨ c.Stands xs key r ∧ (c.run xs).Spares x key r.tags := by
  have htake {i : Nat} (hi : i ≤ xs.length) : (xs ++ [x]).take i = xs.take i :=
    List.take_append_of_le_length hi
  have hold {i : Nat} (hi : i < xs.length) : (xs ++ [x])[i]? = xs[i]? :=
    List.getElem?_append_left hi
  have hlast {i : Nat} {y : Step T α ε} (hy : (xs ++ [x])[i]? = some y) :
      i < xs.length ∨ i = xs.length ∧ y = x := by
    have hi := (List.getElem?_eq_some_iff.mp hy).1
    rw [List.length_append, List.length_singleton] at hi
    rcases Nat.lt_succ_iff_lt_or_eq.mp hi with hlt | rfl
    · exact .inl hlt
    · rw [List.getElem?_concat_length] at hy
      exact .inr ⟨rfl, (Option.some.inj hy).symm⟩
  constructor
  · rintro ⟨i, y, hy, hwrites, hspared⟩
    rcases hlast hy with hi | ⟨rfl, rfl⟩
    · refine .inr ⟨⟨i, y, hold hi ▸ hy, htake (Nat.le_of_lt hi) ▸ hwrites, ?_⟩, ?_⟩
      · intro j z hij hz
        have hj := (List.getElem?_eq_some_iff.mp hz).1
        rw [← htake (Nat.le_of_lt hj)]
        exact hspared j z hij (hold hj ▸ hz)
      · have hx := hspared xs.length x hi List.getElem?_concat_length
        rwa [htake (Nat.le_refl _), List.take_length] at hx
    · rw [htake (Nat.le_refl _), List.take_length] at hwrites
      exact .inl hwrites
  · rintro (hwrites | ⟨⟨i, y, hy, hwrites, hspared⟩, hx⟩)
    · refine ⟨xs.length, x, List.getElem?_concat_length, ?_, ?_⟩
      · rwa [htake (Nat.le_refl _), List.take_length]
      · intro j z hj hz
        rcases hlast hz with hlt | ⟨rfl, _⟩
        · omega
        · exact absurd hj (Nat.lt_irrefl _)
    · have hi := (List.getElem?_eq_some_iff.mp hy).1
      refine ⟨i, y, (hold hi).trans hy, ?_, ?_⟩
      · rwa [htake (Nat.le_of_lt hi)]
      · intro j z hij hz
        rcases hlast hz with hj | ⟨rfl, rfl⟩
        · rw [htake (Nat.le_of_lt hj)]
          exact hspared j z hij (hold hj ▸ hz)
        · rwa [htake (Nat.le_refl _), List.take_length]

end Runs

section Steps
variable {c : Traffic T α ε} {x : Step T α ε} {key k : String} {r : Record T α}

/-- What a step makes of the store, as far as entries and counts go. -/
inductive Alters (c : Traffic T α ε) : Step T α ε → Store T α → Prop
  | looks {x : Step T α ε} {key : String} : x.Asks key → Alters c x (c.store.lookup c.now key).2
  | writes {x : Step T α ε} {key : String} {v : α} {ttl : Option T} {tags : List String} :
    c.Writes x key ⟨v, c.now + ttl.getD c.store.defaultTtl, tags⟩ →
    Alters c x (c.store.put c.now key v ttl tags)
  | removes {key : String} : Alters c (.remove key) (c.store.without key)
  | drops {tags : List String} : Alters c (.removeByTags tags) (c.store.removeByTags tags).2
  | clears : Alters c .clear c.store.clear.2
  | sweeps : Alters c .cleanup (c.store.cleanup c.now).2
  | rests {x : Step T α ε} : (∀ key tags, c.Spares x key tags) → (∀ key, ¬x.Checks key) →
    Alters c x c.store

omit [LT T] [DecidableLT T] [Add T] in
theorem begin_of_lookup (s : Store T α) (now : T) (key : String) (ttl : Option T)
    (tags : List String) :
    (s.begin now key ttl tags).2.entries = (s.lookup now key).2.entries ∧
      (s.begin now key ttl tags).2.evictions = (s.lookup now key).2.evictions ∧
      (s.begin now key ttl tags).2.calls = (s.lookup now key).2.calls ∧
      (s.begin now key ttl tags).2.maxEntries = (s.lookup now key).2.maxEntries ∧
      ∀ v, (s.begin now key ttl tags).1 = .hit v ↔ (s.lookup now key).1 = some v := by
  unfold Store.begin
  rcases s.lookup now key with ⟨_ | v, s'⟩
  · cases hflight : s'.flight? key <;> simp [hflight, Store.calls]
  · simp

theorem exists_alters (c : Traffic T α ε) (x : Step T α ε) : ∃ s, c.Alters x s ∧
    (c.after x).store.entries = s.entries ∧ (c.after x).store.evictions = s.evictions ∧
      (c.after x).store.calls = s.calls ∧ (c.after x).store.maxEntries = s.maxEntries := by
  cases x with
  | getOrSet key ttl tags =>
    obtain ⟨hentries, hevictions, hcalls, hmax, _⟩ := begin_of_lookup c.store c.now key ttl tags
    refine ⟨_, .looks rfl, ?_⟩
    rw [← hentries, ← hevictions, ← hcalls, ← hmax]
    simp only [after, take]
    rcases c.store.begin c.now key ttl tags with ⟨_ | _ | _, _⟩ <;> exact ⟨rfl, rfl, rfl, rfl⟩
  | finish call v =>
    cases hlead : c.leading.lookup call with
    | none =>
      refine ⟨_, .rests (fun key tags => ⟨id, fun r h => ?_⟩) (fun _ => id), ?_⟩
      · cases h with
        | stored hsome _ => cases hlead.symm.trans hsome
      · simp only [after, take, hlead, and_self]
    | some lead =>
      simp only [after, take, hlead, settle, Store.finish]
      cases hstale : c.store.isStale lead with
      | true =>
        refine ⟨_, .rests (fun key tags => ⟨id, fun r h => ?_⟩) (fun _ => id), rfl, rfl, rfl, rfl⟩
        cases h with
        | stored hsome hfresh =>
          cases hlead.symm.trans hsome
          cases hstale.symm.trans hfresh
      | false => exact ⟨_, .writes (.stored hlead hstale), rfl, rfl, rfl, rfl⟩
  | fail call e =>
    refine ⟨_, .rests (fun key tags => ⟨id, nofun⟩) (fun _ => id), ?_⟩
    simp only [after, take]
    cases c.leading.lookup call <;> exact ⟨rfl, rfl, rfl, rfl⟩
  | get key => exact ⟨_, .looks rfl, rfl, rfl, rfl, rfl⟩
  | set key v ttl tags => exact ⟨_, .writes .set, rfl, rfl, rfl, rfl⟩
  | remove key => exact ⟨_, .removes, rfl, rfl, rfl, rfl⟩
  | removeByTags tags => exact ⟨_, .drops, rfl, rfl, rfl, rfl⟩
  | clear => exact ⟨_, .clears, rfl, rfl, rfl, rfl⟩
  | cleanup => exact ⟨_, .sweeps, rfl, rfl, rfl, rfl⟩
  | clock now => exact ⟨_, .rests (fun key tags => ⟨id, nofun⟩) (fun _ => id), rfl, rfl, rfl, rfl⟩

/-- What a step leaves: what it writes, and what it spares unless it checks that and finds it
expired. -/
theorem has_after_iff (hc : c.store.Distinct)
    (hevictions : (c.after x).store.evictions = c.store.evictions) :
    (c.after x).store.Has k r ↔ c.Writes x k r ∨
      c.Spares x k r.tags ∧ c.store.Has k r ∧ (x.Checks k → ¬r.expiresAt ≤ c.now) := by
  obtain ⟨s, halters, hentries, hcount, _⟩ := c.exists_alters x
  rw [Store.has_congr hentries]
  rw [hcount] at hevictions
  cases halters with
  | looks hasks =>
    obtain ⟨hspares, hchecks⟩ := spares_of_asks (c := c) hasks k r.tags
    rw [Store.has_lookup_iff hc, hchecks]
    constructor
    · exact fun h => .inr ⟨hspares, h⟩
    · rintro (hwrites | ⟨_, h⟩)
      · exact absurd hwrites (hspares.2 r)
      · exact h
  | writes hwrites =>
    rw [Store.has_put_iff (Store.makeRoom_eq hevictions)]
    obtain ⟨hdiscards, hchecks⟩ := hwrites.not_discards k r.tags
    constructor
    · rintro (⟨rfl, rfl⟩ | ⟨hne, h⟩)
      · exact .inl hwrites
      · refine .inr ⟨⟨hdiscards, fun r' h' => hne (hwrites.unique h').1⟩, h, ?_⟩
        exact fun h' => absurd h' hchecks
    · rintro (h | ⟨hspares, h, _⟩)
      · exact .inl (hwrites.unique h)
      · refine .inr ⟨?_, h⟩
        rintro rfl
        exact hspares.2 _ hwrites
  | removes =>
    rw [Store.has_without_iff]
    constructor
    · rintro ⟨hne, h⟩
      exact .inr ⟨⟨fun hkey => hne hkey.symm, nofun⟩, h, nofun⟩
    · rintro (h | ⟨hspares, h, _⟩)
      · cases h
      · exact ⟨fun hkey => hspares.1 hkey.symm, h⟩
  | drops =>
    rw [Store.has_removeByTags_iff]
    constructor
    · rintro ⟨hkept, h⟩
      exact .inr ⟨⟨hkept, nofun⟩, h, nofun⟩
    · rintro (h | ⟨hspares, h, _⟩)
      · cases h
      · exact ⟨hspares.1, h⟩
  | clears =>
    constructor
    · exact fun h => absurd h Store.not_has_clear
    · rintro (h | ⟨hspares, _, _⟩)
      · cases h
      · exact absurd trivial hspares.1
  | sweeps =>
    rw [Store.cleanup_eq_live hevictions, Store.has_live_iff]
    constructor
    · rintro ⟨h, hlive⟩
      exact .inr ⟨⟨id, nofun⟩, h, fun _ => hlive⟩
    · rintro (h | ⟨_, h, hlive⟩)
      · cases h
      · exact ⟨h, hlive trivial⟩
  | rests hspares hchecks =>
    constructor
    · exact fun h => .inr ⟨hspares k r.tags, h, fun h' => absurd h' (hchecks k)⟩
    · rintro (h | ⟨_, h, _⟩)
      · exact absurd h ((hspares k r.tags).2 r)
      · exact h

theorem distinct_after (hc : c.store.Distinct) : (c.after x).store.Distinct := by
  obtain ⟨s, halters, hentries, _⟩ := c.exists_alters x
  rw [Store.Distinct, hentries]
  cases halters with
  | looks _ => exact Store.distinct_lookup hc _ _
  | writes _ => exact Store.distinct_put hc
  | removes => exact Store.distinct_without hc _
  | drops => exact Store.distinct_of_sublist hc List.filter_sublist
  | clears => exact List.nodup_nil
  | sweeps => exact Store.distinct_of_sublist hc (c.store.sublist_cleanup c.now)
  | rests _ _ => exact hc

theorem evictions_le_after (c : Traffic T α ε) (x : Step T α ε) :
    c.store.evictions ≤ (c.after x).store.evictions := by
  obtain ⟨s, halters, _, hcount, _⟩ := c.exists_alters x
  rw [hcount]
  cases halters with
  | looks _ => exact Nat.le_of_eq (Store.lookup_room _ _ _).1.symm
  | writes _ => exact (c.store.evicts_makeRoom _).evictions_le
  | sweeps => exact (c.store.evicts_cleanup c.now).evictions_le
  | _ => exact Nat.le_refl _

theorem maxEntries_after (c : Traffic T α ε) (x : Step T α ε) :
    (c.after x).store.maxEntries = c.store.maxEntries := by
  obtain ⟨s, halters, _, _, _, hbound⟩ := c.exists_alters x
  rw [hbound]
  cases halters with
  | looks _ => exact (Store.lookup_room _ _ _).2
  | writes _ => exact (c.store.evicts_makeRoom _).maxEntries
  | sweeps => exact (c.store.evicts_cleanup c.now).maxEntries
  | _ => rfl

/-- Along a step the number of entries stays within its bound. -/
theorem length_after_le (hc : c.store.Distinct)
    (hlength : c.store.entries.length ≤ max 1 c.store.maxEntries) :
    (c.after x).store.entries.length ≤ max 1 c.store.maxEntries := by
  have hsub {es : List (Entry T α)} (h : es.Sublist c.store.entries) :
      (es.length : Int) ≤ max 1 c.store.maxEntries :=
    Int.le_trans (Int.ofNat_le.mpr h.length_le) hlength
  obtain ⟨s, halters, hentries, _⟩ := c.exists_alters x
  rw [hentries]
  cases halters with
  | @looks _ key _ =>
    have hlookup := Store.length_lookup hc c.now key
    omega
  | writes _ => exact Store.length_put_le hc hlength
  | removes => exact hsub List.filter_sublist
  | drops => exact hsub List.filter_sublist
  | clears => exact hsub (List.nil_sublist _)
  | sweeps => exact hsub (c.store.sublist_cleanup c.now)
  | rests _ _ => exact hlength

end Steps

theorem evictions_le_run (c : Traffic T α ε) (xs : List (Step T α ε)) :
    c.store.evictions ≤ (c.run xs).store.evictions := by
  induction xs generalizing c with
  | nil => exact Nat.le_refl _
  | cons x rest ih => exact Nat.le_trans (c.evictions_le_after x) (ih (c.after x))

section Plain
variable {c : Traffic T α ε} {xs : List (Step T α ε)} {x : Step T α ε} {key : String}

theorem KeepsTime.of_snoc (h : c.KeepsTime (xs ++ [x])) :
    c.KeepsTime xs ∧ (c.run xs).now ≤ (c.run (xs ++ [x])).now := by
  have htake (i : Nat) : xs.take i = (xs ++ [x]).take (min i xs.length) := by
    rw [List.take_append_of_le_length (Nat.min_le_right _ _), ← List.take_eq_take_min]
  constructor
  · intro i j hij
    rw [htake i, htake j]
    exact h _ _ (by omega)
  · have hlast := h xs.length (xs ++ [x]).length (by simp)
    rwa [List.take_left, List.take_length] at hlast

/-- What the cache has after a run is what stands, but for what has expired. -/
structure Reflects (c : Traffic T α ε) (xs : List (Step T α ε)) : Prop where
  distinct : (c.run xs).store.Distinct
  stands : ∀ key r, (c.run xs).store.Has key r → c.Stands xs key r
  has : ∀ key r, c.Stands xs key r →
    (c.run xs).store.Has key r ∨ r.expiresAt ≤ (c.run xs).now

/-- A step that evicts nothing leaves what stands after it. -/
theorem Reflects.snoc (htrans : ∀ {a b d : T}, a ≤ b → b ≤ d → a ≤ d) (h : c.Reflects xs)
    (htime : (c.run xs).now ≤ (c.run (xs ++ [x])).now)
    (hevictions : ((c.run xs).after x).store.evictions = (c.run xs).store.evictions) :
    c.Reflects (xs ++ [x]) where
  distinct := by
    rw [run_snoc]
    exact distinct_after h.distinct
  stands key r hhas := by
    rw [run_snoc, has_after_iff h.distinct hevictions] at hhas
    rw [stands_snoc]
    rcases hhas with hwrites | ⟨hspares, hhas, _⟩
    · exact .inl hwrites
    · exact .inr ⟨h.stands key r hhas, hspares⟩
  has key r hstands := by
    rw [run_snoc, has_after_iff h.distinct hevictions, ← run_snoc]
    rcases stands_snoc.mp hstands with hwrites | ⟨hstands, hspares⟩
    · exact .inl (.inl hwrites)
    by_cases hexpired : r.expiresAt ≤ (c.run xs).now
    · exact .inr (htrans hexpired htime)
    · have hhas := (h.has key r hstands).resolve_right hexpired
      exact .inl (.inr ⟨hspares, hhas, fun _ => hexpired⟩)

/-- So does a run that evicts nothing, from an empty cache. -/
theorem reflects_run (htrans : ∀ {a b d : T}, a ≤ b → b ≤ d → a ≤ d)
    (hempty : c.store.entries = []) (htime : c.KeepsTime xs)
    (hevictions : c.EvictsNothing xs) : c.Reflects xs := by
  unfold EvictsNothing at hevictions
  induction xs using List.reverseRecOn with
  | nil =>
    refine ⟨?_, ?_, ?_⟩
    · rw [Store.Distinct, run, List.foldl_nil, hempty]
      exact List.nodup_nil
    · rintro key r ⟨e, he, _⟩
      rw [run, List.foldl_nil, hempty] at he
      cases he
    · rintro key r ⟨i, x, hx, _⟩
      cases hx
  | append_singleton xs x ih =>
    obtain ⟨htime, hlast⟩ := htime.of_snoc
    rw [run_snoc] at hevictions
    have hfirst := c.evictions_le_run xs
    have hstep := (c.run xs).evictions_le_after x
    exact (ih htime (by omega)).snoc htrans hlast (by omega)

/-- A call hits what it finds. -/
theorem hits_iff_lookup (c : Traffic T α ε) (hasks : x.Asks key) (v : α) :
    c.Hits x v ↔ (c.store.lookup c.now key).1 = some v := by
  have hreturns (o : Outcome α ε) :
      c.returns ++ [⟨c.time, o⟩] = c.returns ++ [⟨c.time, .value v⟩] ↔ o = .value v := by
    simp
  have hlonger : c.returns ≠ c.returns ++ [⟨c.time, .value v⟩] := by simp
  cases x with
  | getOrSet k ttl tags =>
    obtain rfl : k = key := hasks
    obtain ⟨-, -, -, -, hhit⟩ := begin_of_lookup c.store c.now k ttl tags
    rw [← hhit v, Hits]
    simp only [after, take]
    rcases c.store.begin c.now k ttl tags with ⟨v' | ticket | lead, s⟩
    · simp only [answer, hreturns, Outcome.value.injEq, Begun.hit.injEq]
    · simp only [hlonger, reduceCtorEq]
    · simp only [hlonger, reduceCtorEq]
  | get k =>
    obtain rfl : k = key := hasks
    rw [Hits]
    simp only [after, take, answer, hreturns]
    cases (c.store.lookup c.now k).1 <;> simp
  | _ => cases hasks

/-- A call hits a value if that was written last, stands still, and has not expired. -/
theorem hits_iff_stands (htrans : ∀ {a b d : T}, a ≤ b → b ≤ d → a ≤ d)
    (hempty : c.store.entries = []) (htime : c.KeepsTime xs)
    (hevictions : c.EvictsNothing xs) (hasks : x.Asks key) (v : α) :
    (c.run xs).Hits x v ↔
      ∃ r, c.Stands xs key r ∧ r.value = v ∧ ¬r.expiresAt ≤ (c.run xs).now := by
  have hreflects := reflects_run htrans hempty htime hevictions
  rw [hits_iff_lookup _ hasks, Store.lookup_eq_some_iff hreflects.distinct]
  constructor
  · rintro ⟨r, hhas, hv, hlive⟩
    exact ⟨r, hreflects.stands key r hhas, hv, hlive⟩
  · rintro ⟨r, hstands, hv, hlive⟩
    exact ⟨r, (hreflects.has key r hstands).resolve_right hlive, hv, hlive⟩

end Plain

end Traffic

end DatasetCatalog.Cache
