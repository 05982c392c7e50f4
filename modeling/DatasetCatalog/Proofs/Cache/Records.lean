import Mathlib.Data.List.Nodup
import DatasetCatalog.Proofs.Cache.Contents

/-!
# Records of a cache

What the entries of a cache stand for: under each key a value, when it expires, and its tags. Each
operation is described by the records that are there after it. While the cache evicts nothing to
make room, its operations do to the records what those of a plain map do, and sweeping drops what
has expired and nothing else.
-/

namespace DatasetCatalog.Cache

variable {T α : Type}

structure Record (T α : Type) where
  value : α
  expiresAt : T
  tags : List String

def Entry.record (e : Entry T α) : Record T α := ⟨e.value, e.expiresAt, e.tags⟩

namespace Store

/-- The cache has the record under the key, expired or not. -/
def Has (s : Store T α) (key : String) (r : Record T α) : Prop :=
  ∃ e ∈ s.entries, e.key = key ∧ e.record = r

/-- No two entries have the same key. -/
def Distinct (s : Store T α) : Prop := (s.entries.map (·.key)).Nodup

/-- The number of look-ups so far. -/
def calls (s : Store T α) : Nat := s.hits + s.misses

variable {s : Store T α} {key k : String} {r : Record T α} {e : Entry T α}

theorem mem_of_entry?_eq_some (h : s.entry? key = some e) : e ∈ s.entries ∧ e.key = key := by
  unfold entry? at h
  have hkey := List.find?_some h
  exact ⟨List.mem_of_find?_eq_some h, beq_iff_eq.mp hkey⟩

theorem entry?_eq_some_iff (hs : s.Distinct) :
    s.entry? key = some e ↔ e ∈ s.entries ∧ e.key = key := by
  refine ⟨mem_of_entry?_eq_some, ?_⟩
  rintro ⟨he, hkey⟩
  have hfound : (s.entry? key).isSome := by
    rw [Store.entry?, List.find?_isSome]
    exact ⟨e, he, beq_iff_eq.mpr hkey⟩
  obtain ⟨e', he'⟩ := Option.isSome_iff_exists.mp hfound
  obtain ⟨hmem, hkey'⟩ := mem_of_entry?_eq_some he'
  rw [he', List.inj_on_of_nodup_map hs hmem he (hkey'.trans hkey.symm)]

theorem exists_has_iff : (∃ r, s.Has key r) ↔ (s.entry? key).isSome := by
  rw [Store.entry?, List.find?_isSome]
  constructor
  · rintro ⟨_, e, he, hkey, _⟩
    exact ⟨e, he, beq_iff_eq.mpr hkey⟩
  · rintro ⟨e, he, hkey⟩
    exact ⟨_, e, he, beq_iff_eq.mp hkey, rfl⟩

theorem has_congr {s' : Store T α} (h : s'.entries = s.entries) : s'.Has k r ↔ s.Has k r := by
  rw [Has, h]
  rfl

theorem has_without_iff : (s.without key).Has k r ↔ k ≠ key ∧ s.Has k r := by
  constructor
  · rintro ⟨e, he, rfl, rfl⟩
    obtain ⟨he, hne⟩ := List.mem_filter.mp he
    exact ⟨bne_iff_ne.mp hne, e, he, rfl, rfl⟩
  · rintro ⟨hne, e, he, rfl, rfl⟩
    exact ⟨e, List.mem_filter.mpr ⟨he, bne_iff_ne.mpr hne⟩, rfl, rfl⟩

theorem distinct_of_sublist {s' : Store T α} (hs : s.Distinct)
    (h : s'.entries.Sublist s.entries) : s'.Distinct :=
  hs.sublist (h.map _)

theorem distinct_without (hs : s.Distinct) (key : String) : (s.without key).Distinct :=
  distinct_of_sublist hs List.filter_sublist

/-- To drop a key is to drop the one entry that has it. -/
theorem without_eq_append (hs : s.Distinct) {before after : List (Entry T α)}
    (h : s.entries = before ++ e :: after) : (s.without e.key).entries = before ++ after := by
  unfold Distinct at hs
  rw [h, List.map_append, List.map_cons, List.nodup_middle, List.nodup_cons, List.mem_append] at hs
  obtain ⟨hbefore, hafter⟩ := not_or.mp hs.1
  have hkept {es : List (Entry T α)} (hes : e.key ∉ es.map (·.key)) :
      es.filter (·.key != e.key) = es := by
    refine List.filter_eq_self.mpr fun e' he' => bne_iff_ne.mpr ?_
    intro hkey
    exact hes (List.mem_map.mpr ⟨e', he', hkey⟩)
  rw [without, h, List.filter_append, List.filter_cons_of_neg (by simp), hkept hbefore,
    hkept hafter]

theorem has_removeByTags_iff {dropped : List String} :
    (s.removeByTags dropped).2.Has k r ↔ (¬∃ t ∈ r.tags, t ∈ dropped) ∧ s.Has k r := by
  constructor
  · rintro ⟨e, he, rfl, rfl⟩
    obtain ⟨he, hshare⟩ := List.mem_filter.mp he
    refine ⟨fun h => ?_, e, he, rfl, rfl⟩
    have hshares : sharesTag e.tags dropped = true := sharesTag_iff.mpr h
    rw [hshares] at hshare
    cases hshare
  · rintro ⟨hshare, e, he, rfl, rfl⟩
    refine ⟨e, List.mem_filter.mpr ⟨he, ?_⟩, rfl, rfl⟩
    rw [Bool.not_eq_true', Bool.eq_false_iff]
    exact fun h => hshare (sharesTag_iff.mp h)

/-- The number of entries that had one of the tags is what goes off the size. -/
theorem removeByTags_counted (s : Store T α) (dropped : List String) :
    (s.removeByTags dropped).1 + (s.removeByTags dropped).2.entries.length = s.entries.length := by
  rw [removeByTags, List.countP_eq_length_filter]
  exact (List.length_eq_length_filter_add _).symm

theorem not_has_clear : ¬s.clear.2.Has k r := by
  rintro ⟨e, he, _⟩
  cases he

/-- A cache that has at most the keys of another, and no key twice, has at most as many entries. -/
theorem length_le_of_has {s' : Store T α} (hs : s.Distinct)
    (h : ∀ k r, s.Has k r → ∃ r', s'.Has k r') : s.entries.length ≤ s'.entries.length := by
  have hsub : s.entries.map (·.key) ⊆ s'.entries.map (·.key) := by
    intro k hk
    obtain ⟨e, he, rfl⟩ := List.mem_map.mp hk
    obtain ⟨_, e', he', hkey, _⟩ := h e.key e.record ⟨e, he, rfl, rfl⟩
    exact List.mem_map.mpr ⟨e', he', hkey⟩
  simpa only [List.length_map] using List.Nodup.length_le_of_subset hs hsub

/-- The second cache is the first, but for entries that were evicted and are counted. -/
structure Evicts (s s' : Store T α) : Prop where
  sublist : s'.entries.Sublist s.entries
  evictions_le : s.evictions ≤ s'.evictions
  counted : s.Distinct →
    s'.entries.length + s'.evictions = s.entries.length + s.evictions
  maxEntries : s'.maxEntries = s.maxEntries
  calls : s'.calls = s.calls

theorem Evicts.refl (s : Store T α) : s.Evicts s :=
  ⟨List.Sublist.refl _, Nat.le_refl _, fun _ => rfl, rfl, rfl⟩

theorem Evicts.trans {s' s'' : Store T α} (h : s.Evicts s') (h' : s'.Evicts s'') :
    s.Evicts s'' where
  sublist := h'.sublist.trans h.sublist
  evictions_le := Nat.le_trans h.evictions_le h'.evictions_le
  counted hs := (h'.counted (distinct_of_sublist hs h.sublist)).trans (h.counted hs)
  maxEntries := h'.maxEntries.trans h.maxEntries
  calls := h'.calls.trans h.calls

section Lookup
variable [LE T] [DecidableLE T] {now : T}

/-- A look-up leaves the room that there is as it is. -/
theorem lookup_room (s : Store T α) (now : T) (key : String) :
    (s.lookup now key).2.evictions = s.evictions ∧
      (s.lookup now key).2.maxEntries = s.maxEntries := by
  unfold lookup
  split
  · exact ⟨rfl, rfl⟩
  · split <;> exact ⟨rfl, rfl⟩

theorem calls_lookup (s : Store T α) (now : T) (key : String) :
    (s.lookup now key).2.calls = s.calls + 1 := by
  unfold lookup calls
  split
  · exact (Nat.add_assoc _ _ _).symm
  · split
    · exact (Nat.add_assoc _ _ _).symm
    · exact Nat.add_right_comm _ _ _

/-- A look-up that finds nothing leaves no record of the key. Another changes no record. -/
theorem lookup_cases (s : Store T α) (now : T) (key : String) :
    (s.lookup now key).1 = none ∧
        (∀ e, s.entry? key = some e → e.expiresAt ≤ now) ∧
        (s.lookup now key).2.entries = (s.without key).entries ∨
      ∃ e, s.entry? key = some e ∧ ¬e.expiresAt ≤ now ∧ (s.lookup now key).1 = some e.value ∧
        (s.lookup now key).2.entries =
          s.entries.map fun e => if e.key == key then { e with hitCount := e.hitCount + 1 } else e := by
  unfold lookup
  cases hfound : s.entry? key with
  | none =>
    refine .inl ⟨rfl, nofun, (List.filter_eq_self.mpr fun e he => ?_).symm⟩
    have hkey := List.find?_eq_none.mp hfound e he
    simpa using hkey
  | some e =>
    by_cases hexpired : e.expiresAt ≤ now
    · refine .inl ?_
      simp only [Entry.isExpired, hexpired, decide_true, if_true]
      refine ⟨trivial, ?_, trivial⟩
      rintro _ ⟨⟩
      exact hexpired
    · refine .inr ⟨e, rfl, hexpired, ?_⟩
      simp [Entry.isExpired, hexpired]

/-- A value is found if it is there and has not expired. -/
theorem lookup_eq_some_iff (hs : s.Distinct) {v : α} : (s.lookup now key).1 = some v ↔
    ∃ r, s.Has key r ∧ r.value = v ∧ ¬r.expiresAt ≤ now := by
  have hentry (e : Entry T α) : s.entry? key = some e ↔ e ∈ s.entries ∧ e.key = key :=
    entry?_eq_some_iff hs
  rcases s.lookup_cases now key with ⟨hnone, hexpired, _⟩ | ⟨e, hfound, hlive, hsome, _⟩
  · rw [hnone]
    constructor
    · nofun
    · rintro ⟨r, ⟨e, he, hkey, rfl⟩, _, hlive⟩
      exact absurd (hexpired e ((hentry e).mpr ⟨he, hkey⟩)) hlive
  · obtain ⟨he, hkey⟩ := (hentry e).mp hfound
    rw [hsome]
    constructor
    · rintro ⟨⟩
      exact ⟨e.record, ⟨e, he, hkey, rfl⟩, rfl, hlive⟩
    · rintro ⟨r, ⟨e', he', hkey', rfl⟩, rfl, _⟩
      rw [Option.some.inj (hfound.symm.trans ((hentry e').mpr ⟨he', hkey'⟩))]
      rfl

/-- A look-up drops what has expired under its key, and nothing else. -/
theorem has_lookup_iff (hs : s.Distinct) : (s.lookup now key).2.Has k r ↔
    s.Has k r ∧ (key = k → ¬r.expiresAt ≤ now) := by
  have hentry (e : Entry T α) : s.entry? key = some e ↔ e ∈ s.entries ∧ e.key = key :=
    entry?_eq_some_iff hs
  rcases s.lookup_cases now key with ⟨_, hexpired, hleft⟩ | ⟨e, hfound, hlive, _, hleft⟩
  · rw [has_congr hleft, has_without_iff]
    constructor
    · rintro ⟨hne, h⟩
      exact ⟨h, fun hkey => absurd hkey.symm hne⟩
    · rintro ⟨⟨e, he, rfl, rfl⟩, hlive⟩
      refine ⟨fun hkey => ?_, e, he, rfl, rfl⟩
      exact hlive hkey.symm (hexpired e ((hentry e).mpr ⟨he, hkey⟩))
  · have hcounted : (s.lookup now key).2.Has k r ↔ s.Has k r := by
      rw [Has, hleft]
      constructor
      · rintro ⟨_, he, hk, hr⟩
        obtain ⟨old, hold, rfl⟩ := List.mem_map.mp he
        refine ⟨old, hold, ?_⟩
        split at hk <;> split at hr <;> exact ⟨hk, hr⟩
      · rintro ⟨old, hold, hk, hr⟩
        refine ⟨_, List.mem_map_of_mem hold, ?_⟩
        split <;> exact ⟨hk, hr⟩
    rw [hcounted]
    constructor
    · rintro ⟨e', he', rfl, rfl⟩
      refine ⟨⟨e', he', rfl, rfl⟩, fun hkey => ?_⟩
      obtain rfl : e = e' :=
        Option.some.inj (hfound.symm.trans ((hentry e').mpr ⟨he', hkey.symm⟩))
      exact hlive
    · exact fun h => h.1

theorem distinct_lookup (hs : s.Distinct) (now : T) (key : String) :
    (s.lookup now key).2.Distinct := by
  rcases s.lookup_cases now key with ⟨_, _, hleft⟩ | ⟨_, _, _, _, hleft⟩
  · rw [Distinct, hleft]
    exact distinct_without hs key
  · rw [Distinct, hleft, List.map_map]
    have hkeys : ((·.key) ∘ fun e : Entry T α =>
        if e.key == key then { e with hitCount := e.hitCount + 1 } else e) = (·.key) := by
      funext e
      simp only [Function.comp_apply]
      split <;> rfl
    rwa [hkeys]

/-- What a look-up drops. -/
theorem length_lookup (hs : s.Distinct) (now : T) (key : String) :
    (s.lookup now key).2.entries.length +
        s.entries.countP (fun e => key = e.key ∧ e.expiresAt ≤ now) = s.entries.length := by
  have hentry (e : Entry T α) : s.entry? key = some e ↔ e ∈ s.entries ∧ e.key = key :=
    entry?_eq_some_iff hs
  rcases s.lookup_cases now key with ⟨_, hexpired, hleft⟩ | ⟨e, hfound, hlive, _, hleft⟩
  · have hdropped : s.entries.countP (fun e => decide (key = e.key ∧ e.expiresAt ≤ now)) =
        s.entries.countP (fun e => ¬(e.key != key) = true) := by
      refine List.countP_congr fun e he => ?_
      rw [decide_eq_true_eq, decide_eq_true_eq, bne_iff_ne, not_not]
      constructor
      · exact fun h => h.1.symm
      · exact fun hkey => ⟨hkey.symm, hexpired e ((hentry e).mpr ⟨he, hkey⟩)⟩
    rw [hleft, hdropped, without, ← List.countP_eq_length_filter]
    exact (List.length_eq_countP_add_countP _).symm
  · have hdropped : s.entries.countP (fun e => decide (key = e.key ∧ e.expiresAt ≤ now)) = 0 := by
      refine List.countP_eq_zero.mpr fun e' he' => ?_
      rw [decide_eq_true_eq]
      rintro ⟨hkey, hexpired⟩
      have hsame := (hentry e').mpr ⟨he', hkey.symm⟩
      obtain rfl := Option.some.inj (hfound.symm.trans hsame)
      exact hlive hexpired
    rw [hleft, hdropped, List.length_map, Nat.add_zero]

/-- The entries that have not expired. -/
def live (s : Store T α) (now : T) : Store T α :=
  { s with entries := s.entries.filter (!·.isExpired now) }

theorem has_live_iff : (s.live now).Has k r ↔ s.Has k r ∧ ¬r.expiresAt ≤ now := by
  constructor
  · rintro ⟨e, he, rfl, rfl⟩
    obtain ⟨he, hlive⟩ := List.mem_filter.mp he
    refine ⟨⟨e, he, rfl, rfl⟩, fun hexpired => ?_⟩
    have hexpired : e.isExpired now = true := decide_eq_true hexpired
    rw [hexpired] at hlive
    cases hlive
  · rintro ⟨⟨e, he, rfl, rfl⟩, hlive⟩
    refine ⟨e, List.mem_filter.mpr ⟨he, ?_⟩, rfl, rfl⟩
    rw [Entry.isExpired, Bool.not_eq_true', decide_eq_false_iff_not]
    exact hlive

end Lookup

section Eviction
variable [LT T] [DecidableLT T] {now : T} {v : α} {ttl : Option T} {tags : List String}

theorem mem_of_oldest? {es : List (Entry T α)} (h : oldest? es = some e) : e ∈ es := by
  cases es with
  | nil => cases h
  | cons first rest =>
    obtain rfl := Option.some.inj h
    clear h
    induction rest generalizing first with
    | nil => exact List.mem_cons_self
    | cons next rest ih =>
      rw [List.foldl_cons]
      split
      · exact List.mem_cons_of_mem _ (ih next)
      · rcases List.mem_cons.mp (ih first) with hfirst | hrest
        · rw [hfirst]
          exact List.mem_cons_self
        · exact List.mem_cons_of_mem _ (List.mem_cons_of_mem _ hrest)

/-- One entry goes, and is counted, unless there is none. -/
theorem evictOldest_cases (s : Store T α) :
    s.entries = [] ∧ s.evictOldest = s ∨
      ∃ e ∈ s.entries, oldest? s.entries = some e ∧
        s.evictOldest = { s.without e.key with evictions := s.evictions + 1 } := by
  unfold evictOldest
  cases hentries : s.entries with
  | nil => exact .inl ⟨rfl, rfl⟩
  | cons first rest => exact .inr ⟨_, mem_of_oldest? rfl, rfl, rfl⟩

theorem evictions_evictOldest (s : Store T α) :
    s.evictOldest = s ∨ s.evictOldest.evictions = s.evictions + 1 := by
  rcases s.evictOldest_cases with ⟨_, h⟩ | ⟨e, _, _, h⟩
  · exact .inl h
  · exact .inr (congrArg evictions h)

theorem evicts_evictOldest (s : Store T α) : s.Evicts s.evictOldest := by
  rcases s.evictOldest_cases with ⟨_, h⟩ | ⟨e, he, _, h⟩
  · rw [h]
    exact .refl s
  rw [h]
  refine ⟨List.filter_sublist, Nat.le_succ _, fun hs => ?_, rfl, rfl⟩
  obtain ⟨before, after, hsplit⟩ := List.append_of_mem he
  have hleft := without_eq_append hs hsplit
  change (s.without e.key).entries.length + (s.evictions + 1) = _
  rw [hleft, hsplit, List.length_append, List.length_append, List.length_cons]
  omega

theorem length_evictOldest_of_ne_nil (hs : s.Distinct) (hne : s.entries ≠ []) :
    s.evictOldest.entries.length + 1 = s.entries.length := by
  have hlength := s.evicts_evictOldest.counted hs
  rcases s.evictOldest_cases with ⟨hnil, _⟩ | ⟨e, _, _, h⟩
  · exact absurd hnil hne
  · have hcount : s.evictOldest.evictions = s.evictions + 1 := congrArg evictions h
    omega

theorem length_evictOldest_of_lt (hs : s.Distinct) (hmax : 0 ≤ s.maxEntries)
    (hmany : s.maxEntries < s.entries.length) :
    s.evictOldest.entries.length + 1 = s.entries.length := by
  apply length_evictOldest_of_ne_nil hs
  intro hnil
  rw [hnil] at hmany
  exact absurd hmany (Int.not_lt.mpr hmax)

/-- There is room for the key: it is there already, or there may be one entry more. -/
def HasRoom (s : Store T α) (key : String) : Prop :=
  (s.entry? key).isSome ∨ s.entries.length < s.maxEntries

/-- Room is made where there is none. -/
theorem makeRoom_cases (s : Store T α) (key : String) :
    s.HasRoom key ∧ s.makeRoom key = s ∨ ¬s.HasRoom key ∧ s.makeRoom key = s.evictOldest := by
  have hroom : s.HasRoom key ↔ ¬((s.entry? key).isNone && s.maxEntries ≤ s.entries.length) = true := by
    rw [HasRoom, Bool.and_eq_true, decide_eq_true_eq, not_and_or, Option.isNone_iff_eq_none,
      Option.isSome_iff_ne_none, Int.not_le]
  unfold makeRoom
  by_cases h : s.HasRoom key
  · exact .inl ⟨h, if_neg (hroom.mp h)⟩
  · exact .inr ⟨h, if_pos (not_not.mp (mt hroom.mpr h))⟩

theorem HasRoom.makeRoom_eq (h : s.HasRoom key) : s.makeRoom key = s := by
  rcases s.makeRoom_cases key with ⟨_, hsame⟩ | ⟨hfull, _⟩
  · exact hsame
  · exact absurd h hfull

theorem evicts_makeRoom (s : Store T α) (key : String) : s.Evicts (s.makeRoom key) := by
  rcases s.makeRoom_cases key with ⟨_, h⟩ | ⟨_, h⟩
  · rw [h]
    exact .refl s
  · exact h ▸ s.evicts_evictOldest

/-- A cache that counts no eviction has made no room. -/
theorem makeRoom_eq (h : (s.makeRoom key).evictions = s.evictions) : s.makeRoom key = s := by
  rcases s.makeRoom_cases key with ⟨_, hroom⟩ | ⟨_, hroom⟩
  · exact hroom
  · rw [hroom] at h ⊢
    rcases s.evictions_evictOldest with hsame | hmore
    · exact hsame
    · omega

/-- A cache that may hold entries at all has room wherever it makes none. -/
theorem hasRoom_of_evictions (hmax : 0 < s.maxEntries)
    (h : (s.makeRoom key).evictions = s.evictions) : s.HasRoom key := by
  rcases s.makeRoom_cases key with ⟨hroom, _⟩ | ⟨hfull, hevicted⟩
  · exact hroom
  · rw [hevicted] at h
    rcases s.evictOldest_cases with ⟨hnil, _⟩ | ⟨e, _, _, hmore⟩
    · exact .inr (by rwa [hnil])
    · rw [hmore] at h
      exact absurd h (Nat.succ_ne_self _)

theorem evicts_shrink (n removed : Nat) (s : Store T α) : s.Evicts (s.shrink n removed).2 := by
  induction n generalizing removed s with
  | zero => exact .refl s
  | succ n ih =>
    unfold shrink
    split
    · exact s.evicts_evictOldest.trans (ih (removed + 1) s.evictOldest)
    · exact .refl s

theorem shrink_eq {n removed : Nat} (h : (s.shrink n removed).2.evictions = s.evictions) :
    (s.shrink n removed).2 = s := by
  induction n generalizing removed with
  | zero => rfl
  | succ n ih =>
    unfold shrink at h ⊢
    split
    · rename_i hfull
      rw [if_pos hfull] at h
      have hrest := (evicts_shrink n (removed + 1) s.evictOldest).evictions_le
      rcases s.evictions_evictOldest with hsame | hmore
      · rw [hsame] at h ⊢
        exact ih h
      · omega
    · rfl

theorem shrink_eq_of_le (h : s.entries.length ≤ s.maxEntries) (n removed : Nat) :
    s.shrink n removed = (removed, s) := by
  cases n with
  | zero => rfl
  | succ n =>
    unfold shrink
    rw [if_neg (Int.not_lt.mpr h)]

/-- Evicting goes on until there are no more entries than allowed. -/
theorem length_shrink_le (hs : s.Distinct) (hmax : 0 ≤ s.maxEntries) {n removed : Nat}
    (hn : s.entries.length ≤ s.maxEntries + n) :
    (s.shrink n removed).2.entries.length ≤ s.maxEntries := by
  induction n generalizing s removed with
  | zero => exact Int.le_trans hn (Int.le_of_eq (Int.add_zero _))
  | succ n ih =>
    unfold shrink
    split
    · rename_i hmany
      have hfewer := length_evictOldest_of_lt hs hmax hmany
      have hevicts := s.evicts_evictOldest
      rw [← hevicts.maxEntries] at hmax ⊢
      apply ih (distinct_of_sublist hs hevicts.sublist) hmax
      rw [hevicts.maxEntries]
      omega
    · rename_i hfew
      exact Int.not_lt.mp hfew

/-- What is counted while the cache shrinks is what goes. -/
theorem shrink_counted (hs : s.Distinct) (hmax : 0 ≤ s.maxEntries) (n removed : Nat) :
    (s.shrink n removed).1 + (s.shrink n removed).2.entries.length =
      removed + s.entries.length := by
  induction n generalizing s removed with
  | zero => rfl
  | succ n ih =>
    unfold shrink
    split
    · rename_i hmany
      have hfewer := length_evictOldest_of_lt hs hmax hmany
      have hevicts := s.evicts_evictOldest
      rw [ih (distinct_of_sublist hs hevicts.sublist) (hevicts.maxEntries ▸ hmax)]
      omega
    · rfl

section Put
variable [Add T]

/-- A write to a key that is there leaves its place to it; another makes room, and comes last. -/
theorem entries_put (s : Store T α) (now : T) (key : String) (v : α) (ttl : Option T)
    (tags : List String) : (s.put now key v ttl tags).entries =
      let e : Entry T α :=
        { key, value := v, tags, createdAt := now, expiresAt := now + ttl.getD s.defaultTtl }
      if (s.entry? key).isSome then s.entries.map fun old => if old.key == key then e else old
      else (s.makeRoom key).entries ++ [e] := by
  have hmissing (h : s.entry? key = none) : Store.entry? (s.makeRoom key) key = none := by
    unfold Store.entry? at h ⊢
    rw [List.find?_eq_none] at h ⊢
    intro e he
    exact h e ((s.evicts_makeRoom key).sublist.subset he)
  unfold put
  cases hentry : s.entry? key with
  | some e =>
    have hsame : s.makeRoom key = s := HasRoom.makeRoom_eq (.inl (by rw [hentry]; rfl))
    simp only [hsame, hentry]
  | none => simp [hmissing hentry]

/-- A write without eviction changes the record of its key, and no other. -/
theorem has_put_iff (h : s.makeRoom key = s) : (s.put now key v ttl tags).Has k r ↔
    (k = key ∧ r = ⟨v, now + ttl.getD s.defaultTtl, tags⟩) ∨ (k ≠ key ∧ s.Has k r) := by
  rw [Has, entries_put, h]
  simp only
  split
  · rename_i hthere
    obtain ⟨e₀, he₀, hkey₀⟩ : ∃ e ∈ s.entries, e.key = key := by
      obtain ⟨e, he⟩ := Option.isSome_iff_exists.mp hthere
      exact ⟨e, mem_of_entry?_eq_some he⟩
    constructor
    · rintro ⟨_, he, rfl, rfl⟩
      obtain ⟨old, hold, rfl⟩ := List.mem_map.mp he
      by_cases hkey : old.key = key
      · rw [if_pos (beq_iff_eq.mpr hkey)]
        exact .inl ⟨rfl, rfl⟩
      · rw [if_neg (fun h => hkey (beq_iff_eq.mp h))]
        exact .inr ⟨hkey, old, hold, rfl, rfl⟩
    · rintro (⟨rfl, rfl⟩ | ⟨hkey, old, hold, rfl, rfl⟩)
      · refine ⟨_, List.mem_map_of_mem he₀, ?_⟩
        rw [if_pos (beq_iff_eq.mpr hkey₀)]
        exact ⟨rfl, rfl⟩
      · refine ⟨_, List.mem_map_of_mem hold, ?_⟩
        rw [if_neg (fun h => hkey (beq_iff_eq.mp h))]
        exact ⟨rfl, rfl⟩
  · rename_i hmissing
    constructor
    · rintro ⟨e, he, rfl, rfl⟩
      rcases List.mem_append.mp he with he | he
      · refine .inr ⟨fun hkey => hmissing ?_, e, he, rfl, rfl⟩
        exact exists_has_iff.mp ⟨e.record, e, he, hkey, rfl⟩
      · cases List.mem_singleton.mp he
        exact .inl ⟨rfl, rfl⟩
    · rintro (⟨rfl, rfl⟩ | ⟨_, e, he, rfl, rfl⟩)
      · exact ⟨_, List.mem_append_right _ List.mem_cons_self, rfl, rfl⟩
      · exact ⟨e, List.mem_append_left _ he, rfl, rfl⟩

theorem distinct_put (hs : s.Distinct) : (s.put now key v ttl tags).Distinct := by
  rw [Distinct, entries_put]
  simp only
  split
  · rw [List.map_map]
    have hkeys (e : Entry T α) (he : e.key = key) :
        ((·.key) ∘ fun old : Entry T α => if old.key == key then e else old) = (·.key) := by
      funext old
      simp only [Function.comp_apply]
      split
      · rename_i hkey
        exact he.trans (beq_iff_eq.mp hkey).symm
      · rfl
    rw [hkeys _ rfl]
    exact hs
  · rename_i hmissing
    rw [List.map_append, List.nodup_append]
    refine ⟨distinct_of_sublist hs (s.evicts_makeRoom key).sublist, List.nodup_singleton _, ?_⟩
    intro k hk _ hkey
    obtain ⟨e, he, rfl⟩ := List.mem_map.mp hk
    cases List.mem_singleton.mp hkey
    intro hkey
    have he := (s.evicts_makeRoom key).sublist.subset he
    exact hmissing (exists_has_iff.mp ⟨e.record, e, he, hkey, rfl⟩)

/-- A write adds an entry if its key is new; what it evicts is counted. -/
theorem length_put (hs : s.Distinct) :
    (s.put now key v ttl tags).entries.length + (s.put now key v ttl tags).evictions =
      s.entries.length + s.evictions + if (s.entry? key).isNone then 1 else 0 := by
  have hevictions : (s.put now key v ttl tags).evictions = (s.makeRoom key).evictions := rfl
  have hroom := (s.evicts_makeRoom key).counted hs
  rw [entries_put, hevictions]
  cases hentry : s.entry? key with
  | some e =>
    have hsame : s.makeRoom key = s := HasRoom.makeRoom_eq (.inl (by rw [hentry]; rfl))
    simp [hsame]
  | none =>
    simp
    omega

/-- No write leaves more entries than allowed; but there is always the one that it wrote. -/
theorem length_put_le (hs : s.Distinct) (h : s.entries.length ≤ max 1 s.maxEntries) :
    (s.put now key v ttl tags).entries.length ≤ max 1 s.maxEntries := by
  rw [entries_put]
  simp only
  split
  · rwa [List.length_map]
  · rename_i hmissing
    rw [List.length_append, List.length_singleton]
    rcases s.makeRoom_cases key with ⟨hroom, hsame⟩ | ⟨_, hevicted⟩
    · have hfew := hroom.resolve_left hmissing
      rw [hsame]
      omega
    · rw [hevicted]
      by_cases hnil : s.entries = []
      · have hnone : s.evictOldest.entries.length ≤ s.entries.length :=
          s.evicts_evictOldest.sublist.length_le
        rw [hnil, List.length_nil] at hnone
        omega
      · have hfewer := length_evictOldest_of_ne_nil hs hnil
        omega

end Put

end Eviction

section Cleanup
variable [LE T] [DecidableLE T] [LT T] [DecidableLT T] {now : T}

/-- Sweeping drops what has expired, and then evicts. -/
theorem evicts_cleanup (s : Store T α) (now : T) : (s.live now).Evicts (s.cleanup now).2 :=
  evicts_shrink _ _ _

theorem sublist_cleanup (s : Store T α) (now : T) :
    (s.cleanup now).2.entries.Sublist s.entries :=
  (s.evicts_cleanup now).sublist.trans List.filter_sublist

theorem length_cleanup_le (hs : s.Distinct) (hmax : 0 ≤ s.maxEntries) (now : T) :
    (s.cleanup now).2.entries.length ≤ s.maxEntries := by
  have hlive : (s.live now).Distinct := distinct_of_sublist hs List.filter_sublist
  exact length_shrink_le hlive hmax (Int.le_add_of_nonneg_left hmax)

/-- The number of entries that a sweep removes is what it takes off the size. -/
theorem cleanup_counted (hs : s.Distinct) (hmax : 0 ≤ s.maxEntries) (now : T) :
    (s.cleanup now).1 + (s.cleanup now).2.entries.length = s.entries.length := by
  have hlive : (s.live now).Distinct := distinct_of_sublist hs List.filter_sublist
  have hcounted : (s.cleanup now).1 + (s.cleanup now).2.entries.length =
      s.entries.countP (·.isExpired now) + (s.live now).entries.length :=
    shrink_counted hlive hmax _ _
  rw [hcounted, List.countP_eq_length_filter]
  exact (List.length_eq_length_filter_add _).symm

/-- Sweeping without eviction leaves what has not expired. -/
theorem cleanup_eq_live (h : (s.cleanup now).2.evictions = s.evictions) :
    (s.cleanup now).2 = s.live now :=
  shrink_eq h

theorem cleanup_eq_live_of_le (h : s.entries.length ≤ s.maxEntries) :
    (s.cleanup now).2 = s.live now := by
  have hle : (s.live now).entries.length ≤ s.entries.length := List.length_filter_le _ _
  refine congrArg Prod.snd (shrink_eq_of_le ?_ _ _)
  change ((s.live now).entries.length : Int) ≤ s.maxEntries
  omega

end Cleanup

end Store

end DatasetCatalog.Cache
