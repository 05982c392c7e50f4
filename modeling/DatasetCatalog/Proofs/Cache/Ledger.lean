import DatasetCatalog.Proofs.Cache.PlainMap
import DatasetCatalog.Proofs.Number.FloatOrder

/-!
# The ledger of a cache

What was ever added to a cache is there still, was evicted to make room, or was lost: removed,
dropped with a tag or with everything, or found expired. The counts of a cache say so after any run.
-/

namespace DatasetCatalog.Cache

variable {T α ε : Type}

section Oldest

/-- Among the entries that stand before and after it, an entry is the first of the oldest. -/
structure IsOldest (before : List (Entry Float α)) (e : Entry Float α)
    (after : List (Entry Float α)) : Prop where
  before : ∀ b ∈ before, ¬b.createdAt ≤ e.createdAt
  after : ∀ a ∈ after, ¬a.createdAt < e.createdAt

/-- One entry more is passed over, or it is older than all before it. -/
theorem IsOldest.snoc {before between : List (Entry Float α)} {e : Entry Float α}
    (h : IsOldest before e between) (next : Entry Float α) :
    if next.createdAt < e.createdAt then IsOldest (before ++ e :: between) next []
    else IsOldest before e (between ++ [next]) := by
  split
  · rename_i hlt
    refine ⟨fun b hb => ?_, nofun⟩
    rcases List.mem_append.mp hb with hb | hb
    · intro hle
      exact h.before b hb (Number.float_le_trans hle (Number.float_le_of_lt hlt))
    · rcases List.mem_cons.mp hb with rfl | hb
      · exact Number.float_not_le_of_lt hlt
      · intro hle
        exact h.after b hb (Number.float_lt_of_le_of_lt hle hlt)
  · rename_i hnot
    refine ⟨h.before, fun a ha => ?_⟩
    rcases List.mem_append.mp ha with ha | ha
    · exact h.after a ha
    · obtain rfl := List.mem_singleton.mp ha
      exact hnot

theorem IsOldest.foldl {before between : List (Entry Float α)} {e : Entry Float α}
    (h : IsOldest before e between) (rest : List (Entry Float α)) :
    ∃ before' e' after', before ++ e :: between ++ rest = before' ++ e' :: after' ∧
      rest.foldl (fun o e => if e.createdAt < o.createdAt then e else o) e = e' ∧
      IsOldest before' e' after' := by
  induction rest generalizing before e between with
  | nil => exact ⟨before, e, between, List.append_nil _, rfl, h⟩
  | cons next rest ih =>
    have hnext := h.snoc next
    rw [List.foldl_cons]
    split at hnext
    · rename_i hlt
      obtain ⟨before', e', after', hsplit, hfold, holdest⟩ := ih hnext
      rw [if_pos hlt]
      refine ⟨before', e', after', ?_, hfold, holdest⟩
      rw [← hsplit, List.append_assoc _ [next], List.singleton_append]
    · rename_i hnot
      obtain ⟨before', e', after', hsplit, hfold, holdest⟩ := ih hnext
      rw [if_neg hnot]
      refine ⟨before', e', after', ?_, hfold, holdest⟩
      rw [← hsplit, List.append_assoc, List.append_assoc, List.cons_append, List.cons_append,
        List.append_assoc, List.singleton_append]

theorem exists_oldest {es : List (Entry Float α)} {e : Entry Float α} (h : oldest? es = some e) :
    ∃ before after, es = before ++ e :: after ∧ IsOldest before e after := by
  cases es with
  | nil => cases h
  | cons first rest =>
    have hfirst : IsOldest [] first [] := ⟨nofun, nofun⟩
    obtain ⟨before, e', after, hsplit, hfold, holdest⟩ := hfirst.foldl rest
    obtain rfl : e' = e := hfold.symm.trans (Option.some.inj h)
    exact ⟨before, after, hsplit, holdest⟩

end Oldest

/-- The entry that holds the record from now on. -/
def Record.entry (r : Record T α) (key : String) (now : T) : Entry T α :=
  { key, value := r.value, createdAt := now, expiresAt := r.expiresAt, tags := r.tags }

namespace Store

/-- The cache holds as many entries as it may; this is one where there may be none. -/
def IsFull (s : Store T α) : Prop := max 1 s.maxEntries ≤ s.entries.length

/-- The second cache is the first with the entry written. If the key was there, it is written in its
place. A full cache gives up the first of its oldest entries. -/
structure Admits (s s' : Store Float α) (w : Entry Float α) : Prop where
  present : (s.entry? w.key).isSome →
    s'.entries = s.entries.map (fun e => if e.key == w.key then w else e) ∧
      s'.evictions = s.evictions
  room : s.entry? w.key = none → ¬s.IsFull →
    s'.entries = s.entries ++ [w] ∧ s'.evictions = s.evictions
  full : s.entry? w.key = none → s.IsFull → ∃ before e after,
    s.entries = before ++ e :: after ∧ IsOldest before e after ∧
      s'.entries = before ++ after ++ [w] ∧ s'.evictions = s.evictions + 1

/-- The second cache is the first one swept: nothing in it has expired, and there are no more entries
than allowed. What went is what had expired and what was evicted. -/
structure Sweeps [LE T] [DecidableLE T] (s s' : Store T α) (now : T) (n : Nat) : Prop where
  live : ∀ e ∈ s'.entries, ¬e.expiresAt ≤ now
  length_le : s'.entries.length ≤ s.maxEntries
  kept : s'.entries.Sublist s.entries
  gone : n + s'.entries.length = s.entries.length
  counted : s.evictions + n = s.entries.countP (·.isExpired now) + s'.evictions

variable {s : Store Float α} {key : String}

/-- Where there is room for a new key, or no entry to give up, none is evicted. -/
theorem makeRoom_of_not_isFull (hroom : ¬s.IsFull) (key : String) : s.makeRoom key = s := by
  rcases s.makeRoom_cases key with ⟨_, hsame⟩ | ⟨hnone, hevicted⟩
  · exact hsame
  have hmany : ¬s.entries.length < s.maxEntries := fun hfew => hnone (.inr hfew)
  have hnil : s.entries = [] := by
    unfold IsFull at hroom
    rw [← List.length_eq_zero_iff]
    omega
  rcases s.evictOldest_cases with ⟨_, hsame⟩ | ⟨e, he, _⟩
  · exact hevicted.trans hsame
  · rw [hnil] at he
    cases he

/-- A full cache makes room for a new key by giving up the first of its oldest entries. -/
theorem exists_makeRoom_of_isFull (hs : s.Distinct) (hnew : s.entry? key = none)
    (hfull : s.IsFull) : ∃ before e after, s.entries = before ++ e :: after ∧
      IsOldest before e after ∧ (s.makeRoom key).entries = before ++ after ∧
      (s.makeRoom key).evictions = s.evictions + 1 := by
  unfold IsFull at hfull
  have hroom : ¬s.HasRoom key := by
    rintro (hsome | hfew)
    · rw [hnew] at hsome
      cases hsome
    · omega
  have hevicted : s.makeRoom key = s.evictOldest := by
    rcases s.makeRoom_cases key with ⟨hthere, _⟩ | ⟨_, h⟩
    · exact absurd hthere hroom
    · exact h
  rw [hevicted]
  rcases s.evictOldest_cases with ⟨hnil, _⟩ | ⟨e, _, holdest, h⟩
  · rw [hnil, List.length_nil] at hfull
    omega
  · obtain ⟨before, after, hsplit, hfirst⟩ := exists_oldest holdest
    have hleft : s.evictOldest.entries = before ++ after :=
      (congrArg entries h).trans (without_eq_append hs hsplit)
    exact ⟨before, e, after, hsplit, hfirst, hleft, congrArg evictions h⟩

theorem admits_put (hs : s.Distinct) (now : Float) (key : String) (v : α) (ttl : Option Float)
    (tags : List String) : s.Admits (s.put now key v ttl tags)
      (Record.entry ⟨v, now + ttl.getD s.defaultTtl, tags⟩ key now) := by
  let w : Entry Float α := Record.entry ⟨v, now + ttl.getD s.defaultTtl, tags⟩ key now
  have hentries : (s.put now key v ttl tags).entries =
      if (s.entry? key).isSome then s.entries.map fun e => if e.key == key then w else e
      else (s.makeRoom key).entries ++ [w] := s.entries_put now key v ttl tags
  have hevictions : (s.put now key v ttl tags).evictions = (s.makeRoom key).evictions := rfl
  have hadds (hnew : s.entry? key = none) :
      (s.put now key v ttl tags).entries = (s.makeRoom key).entries ++ [w] := by
    rw [hentries, hnew]
    rfl
  refine ⟨fun hthere => ?_, fun hnew hroom => ?_, fun hnew hfull => ?_⟩
  · have hsame : s.makeRoom key = s := HasRoom.makeRoom_eq (.inl hthere)
    rw [hevictions, hsame]
    exact ⟨hentries.trans (if_pos hthere), rfl⟩
  · rw [hadds hnew, hevictions, makeRoom_of_not_isFull hroom]
    exact ⟨rfl, rfl⟩
  · obtain ⟨before, e, after, hsplit, holdest, hleft, hcount⟩ :=
      exists_makeRoom_of_isFull hs hnew hfull
    refine ⟨before, e, after, hsplit, holdest, ?_, hevictions.trans hcount⟩
    exact (hadds hnew).trans (congrArg (· ++ [w]) hleft)

theorem sweeps_cleanup [LE T] [DecidableLE T] [LT T] [DecidableLT T] {s : Store T α}
    (hs : s.Distinct) (hmax : 0 ≤ s.maxEntries) (now : T) :
    s.Sweeps (s.cleanup now).2 now (s.cleanup now).1 := by
  have hevicts := s.evicts_cleanup now
  have hkept := s.sublist_cleanup now
  have hgone := cleanup_counted hs hmax now
  refine ⟨fun e he => ?_, length_cleanup_le hs hmax now, hkept, hgone, ?_⟩
  · have hlive := (List.mem_filter.mp (hevicts.sublist.subset he)).2
    simpa [Entry.isExpired] using hlive
  · have hcounted := hevicts.counted (distinct_of_sublist hs List.filter_sublist)
    have hsplit := List.length_eq_length_filter_add (·.isExpired now) (l := s.entries)
    rw [List.countP_eq_length_filter]
    change _ = (s.live now).entries.length + s.evictions at hcounted
    change _ = _ + (s.live now).entries.length at hsplit
    omega

end Store

/-- The step is a call that looks a key up. -/
def Step.isCall : Step T α ε → Bool
  | .getOrSet .. | .get _ => true
  | _ => false

/-- Only a call asks for a key. -/
theorem Step.isCall_of_asks {x : Step T α ε} {key : String} (h : x.Asks key) :
    x.isCall = true := by
  cases x with
  | getOrSet _ _ _ => rfl
  | get _ => rfl
  | _ => cases h

namespace Traffic

section Additions

/-- The key that a step writes. -/
def writtenKey? (c : Traffic T α ε) : Step T α ε → Option String
  | .set key .. => some key
  | .finish call _ => ((c.leading.lookup call).filter (!c.store.isStale ·)).map (·.key)
  | _ => none

/-- One, if the step writes a key that is not there. -/
def added (c : Traffic T α ε) (x : Step T α ε) : Nat :=
  if (c.writtenKey? x).any fun key => (c.store.entry? key).isNone then 1 else 0

variable [Add T] {c : Traffic T α ε} {x : Step T α ε} {key : String} {r : Record T α}

theorem writtenKey?_eq_some_iff : c.writtenKey? x = some key ↔ ∃ r, c.Writes x key r := by
  cases x with
  | set k v ttl tags =>
    constructor
    · rintro ⟨⟩
      exact ⟨_, .set⟩
    · rintro ⟨r, ⟨⟩⟩
      rfl
  | finish call v =>
    simp only [writtenKey?, Option.map_eq_some_iff, Option.filter_eq_some_iff]
    constructor
    · rintro ⟨lead, ⟨hlead, hfresh⟩, rfl⟩
      exact ⟨_, .stored hlead (by simpa using hfresh)⟩
    · rintro ⟨r, hwrites⟩
      cases hwrites with
      | stored hlead hfresh => exact ⟨_, ⟨hlead, by simpa using hfresh⟩, rfl⟩
  | _ =>
    constructor
    · nofun
    · rintro ⟨r, ⟨⟩⟩

theorem added_of_writes (h : c.Writes x key r) :
    c.added x = if (c.store.entry? key).isNone then 1 else 0 := by
  rw [added, writtenKey?_eq_some_iff.mpr ⟨r, h⟩, Option.any_some]

theorem added_of_not_writes (h : ∀ key r, ¬c.Writes x key r) : c.added x = 0 := by
  have hnone : c.writtenKey? x = none := by
    rw [Option.eq_none_iff_forall_ne_some]
    intro key hkey
    obtain ⟨r, hwrites⟩ := writtenKey?_eq_some_iff.mp hkey
    exact h key r hwrites
  rw [added, hnone]
  rfl

theorem Writes.isCall (h : c.Writes x key r) : x.isCall = false := by
  cases h <;> rfl

end Additions

section Counts
variable [LE T]

instance (x : Step T α ε) (key : String) (tags : List String) : Decidable (x.Discards key tags) :=
  match x with
  | .remove k => inferInstanceAs (Decidable (k = key))
  | .removeByTags dropped => inferInstanceAs (Decidable (∃ t ∈ tags, t ∈ dropped))
  | .clear => .isTrue trivial
  | .getOrSet .. | .finish .. | .fail .. | .get _ | .set .. | .cleanup | .clock _ => .isFalse id

instance (x : Step T α ε) (key : String) : Decidable (x.Checks key) :=
  match x with
  | .getOrSet k .. | .get k => inferInstanceAs (Decidable (k = key))
  | .cleanup => .isTrue trivial
  | .remove _ | .removeByTags _ | .clear | .finish .. | .fail .. | .set .. | .clock _ => .isFalse id

/-- The entry is lost in the step: discarded, or looked at and found expired. -/
def Loses (c : Traffic T α ε) (x : Step T α ε) (e : Entry T α) : Prop :=
  x.Discards e.key e.tags ∨ x.Checks e.key ∧ e.expiresAt ≤ c.now

instance [DecidableLE T] (c : Traffic T α ε) (x : Step T α ε) (e : Entry T α) :
    Decidable (c.Loses x e) := inferInstanceAs (Decidable (_ ∨ _))

/-- The number of entries that are lost in a step. -/
def lost [DecidableLE T] (c : Traffic T α ε) (x : Step T α ε) : Nat :=
  c.store.entries.countP fun e => c.Loses x e

variable [DecidableLE T] [LT T] [DecidableLT T] [Add T]

/-- What is counted at each step of a run, in total. -/
def tally (count : Traffic T α ε → Step T α ε → Nat) (c : Traffic T α ε) :
    List (Step T α ε) → Nat
  | [] => 0
  | x :: rest => count c x + tally count (c.after x) rest

variable {c : Traffic T α ε} {x : Step T α ε} {xs : List (Step T α ε)}

omit [LT T] [DecidableLT T] [Add T] in
theorem lost_of_not_loses (h : ∀ e, ¬c.Loses x e) : c.lost x = 0 :=
  List.countP_eq_zero.mpr fun e _ => by simpa using h e

omit [LT T] [DecidableLT T] [Add T] in
/-- What is lost is what is filtered out. -/
theorem length_filter_add_lost {p : Entry T α → Bool} (h : ∀ e, c.Loses x e ↔ p e = false) :
    (c.store.entries.filter p).length + c.lost x = c.store.entries.length := by
  have hlost : c.lost x = c.store.entries.countP (fun e => ¬p e = true) := by
    refine List.countP_congr fun e _ => ?_
    rw [decide_eq_true_eq, decide_eq_true_eq, h e, Bool.not_eq_true]
  rw [hlost, ← List.countP_eq_length_filter]
  exact (List.length_eq_countP_add_countP _).symm

/-- A step accounts for each entry: what was there or is added is there, is evicted, or is lost. -/
theorem balance_after (hc : c.store.Distinct) (x : Step T α ε) :
    (c.after x).store.entries.length + (c.after x).store.evictions + c.lost x =
      c.store.entries.length + c.store.evictions + c.added x := by
  obtain ⟨s, halters, hentries, hevictions, _⟩ := c.exists_alters x
  rw [hentries, hevictions]
  cases halters with
  | @looks _ key hasks =>
    have hspares (k : String) (tags : List String) := spares_of_asks (c := c) hasks k tags
    have hadded : c.added x = 0 := added_of_not_writes fun k => (hspares k []).1.2
    have hlost : c.lost x =
        c.store.entries.countP (fun e => key = e.key ∧ e.expiresAt ≤ c.now) := by
      refine List.countP_congr fun e _ => ?_
      obtain ⟨⟨hdiscards, _⟩, hchecks⟩ := hspares e.key e.tags
      rw [decide_eq_true_eq, decide_eq_true_eq, Loses, hchecks]
      exact or_iff_right hdiscards
    have hlength := Store.length_lookup hc c.now key
    have hcount := (Store.lookup_room c.store c.now key).1
    omega
  | writes hwrites =>
    have hlost : c.lost x = 0 := by
      refine lost_of_not_loses fun e => ?_
      obtain ⟨hdiscards, hchecks⟩ := hwrites.not_discards e.key e.tags
      exact not_or.mpr ⟨hdiscards, fun h => hchecks h.1⟩
    rw [hlost, added_of_writes hwrites]
    exact Store.length_put hc
  | @removes key =>
    have hadded : c.added (.remove key) = 0 := rfl
    have hlength := c.length_filter_add_lost (x := .remove key) (p := (·.key != key))
      fun e => by
        rw [bne_eq_false_iff_eq, eq_comm]
        exact or_iff_left fun h => h.1
    change (c.store.entries.filter (·.key != key)).length + c.store.evictions + _ = _
    omega
  | @drops tags =>
    have hadded : c.added (.removeByTags tags) = 0 := rfl
    have hlength := c.length_filter_add_lost (x := .removeByTags tags)
      (p := fun e => !sharesTag e.tags tags)
      fun e => by simp [Loses, Step.Discards, Step.Drops, Step.Checks, Step.Asks, sharesTag_iff]
    change (c.store.entries.filter _).length + c.store.evictions + _ = _
    omega
  | clears =>
    have hlost : c.lost .clear = c.store.entries.length :=
      List.countP_eq_length.mpr fun e _ => decide_eq_true (.inl trivial)
    have hadded : c.added .clear = 0 := rfl
    change 0 + c.store.evictions + _ = _
    omega
  | sweeps =>
    have hadded : c.added .cleanup = 0 := rfl
    have hlength := c.length_filter_add_lost (x := .cleanup) (p := (!·.isExpired c.now))
      fun e => by simp [Loses, Step.Discards, Step.Drops, Step.Checks, Entry.isExpired]
    have hlive : (c.store.live c.now).Distinct := Store.distinct_of_sublist hc List.filter_sublist
    have hcounted := (c.store.evicts_cleanup c.now).counted hlive
    change _ = (c.store.entries.filter _).length + c.store.evictions at hcounted
    omega
  | rests hspares hchecks =>
    have hadded : c.added x = 0 := added_of_not_writes fun key => (hspares key []).2
    have hlost : c.lost x = 0 :=
      lost_of_not_loses fun e => not_or.mpr ⟨(hspares e.key e.tags).1, fun h => hchecks e.key h.1⟩
    omega

/-- A step that is a call counts as one look-up, and no other does. -/
theorem calls_after (c : Traffic T α ε) (x : Step T α ε) :
    (c.after x).store.calls = c.store.calls + if x.isCall then 1 else 0 := by
  obtain ⟨s, halters, _, _, hcalls, _⟩ := c.exists_alters x
  rw [hcalls]
  cases halters with
  | @looks _ key hasks =>
    rw [Step.isCall_of_asks hasks]
    exact c.store.calls_lookup c.now key
  | @writes _ key _ _ _ hwrites =>
    rw [hwrites.isCall]
    exact (c.store.evicts_makeRoom key).calls
  | sweeps => exact (c.store.evicts_cleanup c.now).calls
  | rests _ hchecks =>
    have hcall : x.isCall = false := by
      cases x <;> first | rfl | exact absurd rfl (hchecks _)
    rw [hcall]
    rfl
  | _ => rfl

section Runs

theorem distinct_run (hc : c.store.Distinct) (xs : List (Step T α ε)) :
    (c.run xs).store.Distinct := by
  induction xs generalizing c with
  | nil => exact hc
  | cons x rest ih => exact ih (distinct_after hc)

theorem maxEntries_run (c : Traffic T α ε) (xs : List (Step T α ε)) :
    (c.run xs).store.maxEntries = c.store.maxEntries := by
  induction xs generalizing c with
  | nil => rfl
  | cons x rest ih => exact (ih (c.after x)).trans (c.maxEntries_after x)

theorem length_run_le (hc : c.store.Distinct)
    (hlength : c.store.entries.length ≤ max 1 c.store.maxEntries) (xs : List (Step T α ε)) :
    (c.run xs).store.entries.length ≤ max 1 c.store.maxEntries := by
  induction xs generalizing c with
  | nil => exact hlength
  | cons x rest ih =>
    rw [← c.maxEntries_after x]
    apply ih (distinct_after hc)
    rw [c.maxEntries_after x]
    exact length_after_le hc hlength

theorem calls_run (c : Traffic T α ε) (xs : List (Step T α ε)) :
    (c.run xs).store.calls = c.store.calls + xs.countP Step.isCall := by
  induction xs generalizing c with
  | nil => rfl
  | cons x rest ih =>
    have hfirst := c.calls_after x
    have hrest : ((c.after x).run rest).store.calls = _ := ih (c.after x)
    rw [List.countP_cons]
    change ((c.after x).run rest).store.calls = _
    omega

/-- Over a run the ledger is balanced. -/
theorem balance_run (hc : c.store.Distinct) (xs : List (Step T α ε)) :
    (c.run xs).store.entries.length + (c.run xs).store.evictions + tally lost c xs =
      c.store.entries.length + c.store.evictions + tally added c xs := by
  induction xs generalizing c with
  | nil => rfl
  | cons x rest ih =>
    have hfirst := balance_after hc x
    have hrest := ih (distinct_after (x := x) hc)
    change ((c.after x).run rest).store.entries.length +
      ((c.after x).run rest).store.evictions + (c.lost x + tally lost (c.after x) rest) =
        _ + (c.added x + tally added (c.after x) rest)
    omega

end Runs

end Counts

/-- A write puts its record into the cache. -/
theorem admits_after {c : Traffic Float α ε} (hc : c.store.Distinct) {x : Step Float α ε}
    {key : String} {r : Record Float α} (h : c.Writes x key r) :
    c.store.Admits (c.after x).store (r.entry key c.now) := by
  cases h with
  | set => exact Store.admits_put hc c.now key _ _ _
  | @stored call v lead hlead hstale =>
    have hput := Store.admits_put hc c.now lead.key v lead.ttl lead.tags
    simp only [after, take, hlead, settle, Store.finish, hstale]
    exact ⟨hput.present, hput.room, hput.full⟩

end Traffic

/-- The books of a cache are right after any run: it holds no more than it may, a write evicts one
entry if it is of a new key into a full cache, and none otherwise, a sweep leaves nothing expired
and counts what went, each call is a hit or a miss, and what was added is there, evicted or lost. -/
theorem cache_keeps_its_books (defaultTtl : Float) (maxEntries : Int) (now : Float)
    (xs : List (Step Float α ε)) (hmax : 0 ≤ maxEntries) :
    let empty : Traffic Float α ε := .start defaultTtl maxEntries now
    let c := empty.run xs
    c.store.entries.length ≤ max 1 maxEntries ∧
      (∀ x key r, c.Writes x key r → c.store.Admits (c.after x).store (r.entry key c.now)) ∧
      c.store.Sweeps (c.after .cleanup).store c.now (c.store.cleanup c.now).1 ∧
      c.store.hits + c.store.misses = xs.countP Step.isCall ∧
      Traffic.tally Traffic.added empty xs =
        c.store.entries.length + c.store.evictions + Traffic.tally Traffic.lost empty xs := by
  intro empty c
  have hempty : empty.store.Distinct := List.nodup_nil
  have hc : c.store.Distinct := Traffic.distinct_run hempty xs
  have hbound : c.store.maxEntries = maxEntries := empty.maxEntries_run xs
  refine ⟨?_, fun x key r => Traffic.admits_after hc, ?_, ?_, ?_⟩
  · have hnone : (empty.store.entries.length : Int) ≤ max 1 empty.store.maxEntries :=
      Int.le_trans Int.one_nonneg (Int.le_max_left 1 _)
    exact Traffic.length_run_le hempty hnone xs
  · exact Store.sweeps_cleanup hc (by omega) c.now
  · exact (empty.calls_run xs).trans (Nat.zero_add _)
  · have hbalance := Traffic.balance_run hempty xs
    change c.store.entries.length + c.store.evictions + _ =
      0 + 0 + Traffic.tally Traffic.added empty xs at hbalance
    omega

/-- In a cache for one entry the second of two keys evicts the first. -/
theorem cache_of_one_entry_keeps_its_books :
    let xs : List (Step Float Nat Unit) :=
      [.set "k" 7 (some 10) [], .set "l" 8 none ["a"], .get "k", .removeByTags ["a"]]
    let empty : Traffic Float Nat Unit := .start 300 1 1000
    let c := empty.run xs
    (0 : Int) ≤ 1 ∧ c.store.entries.length ≤ max 1 (1 : Int) ∧
      c.store.hits + c.store.misses = xs.countP Step.isCall ∧ c.store.evictions = 1 ∧
      Traffic.tally Traffic.lost empty xs = 1 ∧
      Traffic.tally Traffic.added empty xs = c.store.entries.length + 1 + 1 := by
  intro xs empty c
  have hmax : (0 : Int) ≤ 1 := by decide
  have hevictions : c.store.evictions = 1 := by decide +kernel
  have hlost : Traffic.tally Traffic.lost empty xs = 1 := by decide +kernel
  obtain ⟨hlength, _, _, hcalls, hadded⟩ := cache_keeps_its_books 300 1 1000 xs hmax
  refine ⟨hmax, hlength, hcalls, hevictions, hlost, ?_⟩
  exact hadded.trans (by rw [hevictions, hlost])

end DatasetCatalog.Cache
