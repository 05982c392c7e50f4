import DatasetCatalog.Cache.Flight

/-!
# What the cache holds

The effect of each operation on the values that the cache holds, on its flights, and on its counts
of what was dropped. Most operations can only lose values; only `put` adds one.
-/

namespace DatasetCatalog.Cache

variable {T α : Type}

/-- The cache holds a value under a key and with tags, expired or not. -/
def Store.Holds (s : Store T α) (key : String) (value : α) (tags : List String) : Prop :=
  ∃ e ∈ s.entries, e.key = key ∧ e.value = value ∧ e.tags = tags

/-- Two caches differ at most in their entries and statistics. -/
structure Store.SameRecords (s s' : Store T α) : Prop where
  flights : s'.flights = s.flights
  epochs : s'.epochs = s.epochs
  generation : s'.generation = s.generation
  nextTicket : s'.nextTicket = s.nextTicket

/-- The second cache may have lost values of the first. -/
structure Store.Fades (s s' : Store T α) : Prop extends s.SameRecords s' where
  holds : ∀ {key value tags}, s'.Holds key value tags → s.Holds key value tags

theorem Store.holds_of_entry? {s : Store T α} {key : String} {e : Entry T α}
    (h : s.entry? key = some e) : s.Holds key e.value e.tags := by
  unfold Store.entry? at h
  have hkey := List.find?_some h
  exact ⟨e, List.mem_of_find?_eq_some h, by simpa using hkey, rfl, rfl⟩

namespace Store.SameRecords
variable {s s' s'' : Store T α}

theorem trans (h : s.SameRecords s') (h' : s'.SameRecords s'') : s.SameRecords s'' where
  flights := h'.flights.trans h.flights
  epochs := h'.epochs.trans h.epochs
  generation := h'.generation.trans h.generation
  nextTicket := h'.nextTicket.trans h.nextTicket

theorem epoch (h : s.SameRecords s') : s'.epoch = s.epoch := by
  funext t
  simp only [Store.epoch, h.epochs]

theorem isStale (h : s.SameRecords s') (lead : Lead T) : s'.isStale lead = s.isStale lead := by
  simp only [Store.isStale, h.generation, h.epoch]

end Store.SameRecords

namespace Store.Fades
variable {s s' s'' : Store T α}

theorem refl (s : Store T α) : s.Fades s := ⟨⟨rfl, rfl, rfl, rfl⟩, id⟩

theorem trans (h : s.Fades s') (h' : s'.Fades s'') : s.Fades s'' :=
  ⟨h.toSameRecords.trans h'.toSameRecords, fun hh => h.holds (h'.holds hh)⟩

end Store.Fades

theorem Store.fades_of_subset {s s' : Store T α} (entries : s'.entries ⊆ s.entries)
    (records : s.SameRecords s') : s.Fades s' := by
  refine ⟨records, ?_⟩
  rintro key value tags ⟨e, he, hh⟩
  exact ⟨e, entries he, hh⟩

theorem Store.fades_without (s : Store T α) (key : String) : s.Fades (s.without key) :=
  Store.fades_of_subset (fun _ he => (List.mem_filter.mp he).1) ⟨rfl, rfl, rfl, rfl⟩

theorem Store.fades_remove (s : Store T α) (key : String) : s.Fades (s.remove key).2 :=
  s.fades_without key

section Eviction
variable [LT T] [DecidableLT T]

theorem Store.fades_evictOldest (s : Store T α) : s.Fades s.evictOldest := by
  unfold Store.evictOldest
  split
  · exact .refl s
  · exact Store.fades_of_subset (fun _ he => (List.mem_filter.mp he).1) ⟨rfl, rfl, rfl, rfl⟩

theorem Store.fades_makeRoom (s : Store T α) (key : String) : s.Fades (s.makeRoom key) := by
  unfold Store.makeRoom
  split
  · exact s.fades_evictOldest
  · exact .refl s

theorem Store.fades_shrink (n removed : Nat) (s : Store T α) :
    s.Fades (s.shrink n removed).2 := by
  induction n generalizing removed s with
  | zero => exact .refl s
  | succ n ih =>
    unfold Store.shrink
    split
    · exact s.fades_evictOldest.trans (ih (removed + 1) s.evictOldest)
    · exact .refl s

end Eviction

section Expiry
variable [LE T] [DecidableLE T]

theorem Store.fades_cleanup [LT T] [DecidableLT T] (s : Store T α) (now : T) : s.Fades (s.cleanup now).2 := by
  let live : Store T α := { s with entries := s.entries.filter (!·.isExpired now) }
  have hlive : s.Fades live :=
    Store.fades_of_subset (fun _ he => (List.mem_filter.mp he).1) ⟨rfl, rfl, rfl, rfl⟩
  exact hlive.trans (Store.fades_shrink live.entries.length _ live)

theorem Store.fades_lookup (s : Store T α) (now : T) (key : String) :
    s.Fades (s.lookup now key).2 := by
  unfold Store.lookup
  split
  · exact Store.fades_of_subset (fun _ he => he) ⟨rfl, rfl, rfl, rfl⟩
  · split
    · exact Store.fades_of_subset (fun _ he => (List.mem_filter.mp he).1) ⟨rfl, rfl, rfl, rfl⟩
    · refine ⟨⟨rfl, rfl, rfl, rfl⟩, ?_⟩
      rintro k v t ⟨e, he, hk, hv, ht⟩
      -- only the count of hits tells the entry from the one it came from
      obtain ⟨old, hold, rfl⟩ := List.mem_map.mp he
      refine ⟨old, hold, ?_⟩
      split at hk <;> split at hv <;> split at ht <;> exact ⟨hk, hv, ht⟩

theorem Store.holds_of_lookup {s : Store T α} {now : T} {key : String} {value : α}
    (h : (s.lookup now key).1 = some value) : ∃ tags, s.Holds key value tags := by
  unfold Store.lookup at h
  split at h
  · simp at h
  · rename_i e he
    split at h
    · simp at h
    · have hv : e.value = value := by simpa using h
      exact ⟨e.tags, hv ▸ Store.holds_of_entry? he⟩

end Expiry

theorem Store.not_holds_clear (s : Store T α) {key : String} {value : α} {tags : List String} :
    ¬ s.clear.2.Holds key value tags := by
  rintro ⟨e, he, _⟩
  simp [Store.clear] at he

theorem Store.holds_of_removeByTags {s : Store T α} {dropped : List String} {key : String}
    {value : α} {tags : List String} (h : (s.removeByTags dropped).2.Holds key value tags) :
    s.Holds key value tags ∧ sharesTag tags dropped = false := by
  obtain ⟨e, he, hk, hv, rfl⟩ := h
  obtain ⟨hmem, hshare⟩ := List.mem_filter.mp he
  exact ⟨⟨e, hmem, hk, hv, rfl⟩, by simpa using hshare⟩

theorem sharesTag_iff {a b : List String} : sharesTag a b = true ↔ ∃ t ∈ a, t ∈ b := by
  simp [sharesTag]

/-- Each tag's count goes up by the number of times it is dropped. -/
theorem epoch_foldl (tags : List String) (epochs : List (String × Nat)) (t : String) :
    ((tags.foldl (fun es t => Value.putEntry t ((es.lookup t).getD 0 + 1) es) epochs).lookup
      t).getD 0 = (epochs.lookup t).getD 0 + tags.count t := by
  induction tags generalizing epochs with
  | nil => simp
  | cons u rest ih =>
    rw [List.foldl_cons, ih]
    by_cases h : t = u
    · subst h
      rw [Value.lookup_putEntry_self, List.count_cons_self, Option.getD_some]
      omega
    · rw [Value.lookup_putEntry_of_ne h, List.count_cons_of_ne (Ne.symm h)]

theorem Store.epoch_removeByTags (s : Store T α) (dropped : List String) (t : String) :
    (s.removeByTags dropped).2.epoch t = s.epoch t + dropped.eraseDups.count t :=
  epoch_foldl dropped.eraseDups s.epochs t

theorem Store.epoch_lt_of_mem (s : Store T α) {dropped : List String} {t : String}
    (h : t ∈ dropped) : s.epoch t < (s.removeByTags dropped).2.epoch t := by
  have hc : 0 < dropped.eraseDups.count t := List.count_pos_iff.mpr (List.mem_eraseDups.mpr h)
  rw [s.epoch_removeByTags]
  omega

theorem Store.epoch_eq_of_not_mem (s : Store T α) {dropped : List String} {t : String}
    (h : t ∉ dropped) : (s.removeByTags dropped).2.epoch t = s.epoch t := by
  have hc : dropped.eraseDups.count t = 0 :=
    List.count_eq_zero.mpr fun hm => h (List.mem_eraseDups.mp hm)
  rw [s.epoch_removeByTags, hc, Nat.add_zero]

section Writing
variable [LT T] [DecidableLT T] [Add T]

/-- After a write the key has the new value alone. -/
theorem Store.holds_of_put {s : Store T α} {now : T} {key : String} {value : α}
    {ttl : Option T} {tags : List String} {k : String} {v : α} {t : List String}
    (h : (s.put now key value ttl tags).Holds k v t) :
    (k = key ∧ v = value ∧ t = tags) ∨ (k ≠ key ∧ s.Holds k v t) := by
  obtain ⟨e, he, rfl, rfl, rfl⟩ := h
  have hroom := s.fades_makeRoom key
  simp only [Store.put] at he
  split at he
  · obtain ⟨old, hold, rfl⟩ := List.mem_map.mp he
    by_cases hk : old.key = key
    · simp [hk]
    · simp only [hk, beq_iff_eq, if_false]
      exact .inr ⟨hk, hroom.holds ⟨old, hold, rfl, rfl, rfl⟩⟩
  · rename_i hnone
    rcases List.mem_append.mp he with he | he
    · refine .inr ⟨?_, hroom.holds ⟨e, he, rfl, rfl, rfl⟩⟩
      intro hk
      apply hnone
      rw [Store.entry?, List.find?_isSome]
      exact ⟨e, he, by simp [hk]⟩
    · simp only [List.mem_singleton] at he
      subst he
      exact .inl ⟨rfl, rfl, rfl⟩

theorem Store.sameRecords_put (s : Store T α) (now : T) (key : String) (value : α)
    (ttl : Option T) (tags : List String) : s.SameRecords (s.put now key value ttl tags) := by
  have hroom := s.fades_makeRoom key
  exact ⟨hroom.flights, hroom.epochs, hroom.generation, hroom.nextTicket⟩

end Writing

/-- The cache has dropped at least what it had dropped when the lead began. -/
structure Store.Since (s : Store T α) (lead : Lead T) : Prop where
  ticket : lead.ticket < s.nextTicket
  generation : lead.generation ≤ s.generation
  epochs : ∃ before : String → Nat,
    lead.epochs = lead.tags.map before ∧ ∀ t, before t ≤ s.epoch t

namespace Store.Since
variable {s s' : Store T α} {lead : Lead T}

theorem sameRecords (h : s.Since lead) (hf : s.SameRecords s') : s'.Since lead where
  ticket := hf.nextTicket ▸ h.ticket
  generation := hf.generation ▸ h.generation
  epochs := hf.epoch ▸ h.epochs

theorem clear (h : s.Since lead) : s.clear.2.Since lead where
  ticket := h.ticket
  generation := Nat.le_succ_of_le h.generation
  epochs := h.epochs

theorem removeByTags (h : s.Since lead) (dropped : List String) :
    (s.removeByTags dropped).2.Since lead where
  ticket := h.ticket
  generation := h.generation
  epochs := by
    obtain ⟨before, heq, hle⟩ := h.epochs
    refine ⟨before, heq, fun t => Nat.le_trans (hle t) ?_⟩
    rw [s.epoch_removeByTags]
    exact Nat.le_add_right _ _

theorem isStale_clear (h : s.Since lead) : s.clear.2.isStale lead = true := by
  have hg := h.generation
  have hne : s.generation + 1 ≠ lead.generation := by omega
  simp [Store.isStale, Store.clear, hne]

theorem isStale_removeByTags (h : s.Since lead) {dropped : List String}
    (hshare : ∃ t ∈ lead.tags, t ∈ dropped) :
    (s.removeByTags dropped).2.isStale lead = true := by
  obtain ⟨t, ht, hd⟩ := hshare
  obtain ⟨before, heq, hle⟩ := h.epochs
  have hlt := s.epoch_lt_of_mem hd
  have hne : lead.tags.map (s.removeByTags dropped).2.epoch ≠ lead.epochs := by
    intro he
    rw [heq, List.map_inj_left] at he
    have hsame := he t ht
    have hold := hle t
    omega
  simp [Store.isStale, hne]

end Store.Since

theorem Store.isStale_of_removeByTags {s : Store T α} {lead : Lead T} {dropped : List String}
    (h : (s.removeByTags dropped).2.isStale lead = false)
    (hshare : ¬ ∃ t ∈ lead.tags, t ∈ dropped) : s.isStale lead = false := by
  have hsame : lead.tags.map (s.removeByTags dropped).2.epoch = lead.tags.map s.epoch := by
    apply List.map_congr_left
    intro t ht
    exact s.epoch_eq_of_not_mem fun hd => hshare ⟨t, ht, hd⟩
  have hgen : (s.removeByTags dropped).2.generation = s.generation := rfl
  rwa [Store.isStale, hgen, hsame] at h

section Calls
variable [LE T] [DecidableLE T]

/-- What a call for a key comes to at first: a held value, a flight of its key, or a lead with the
next ticket. -/
theorem Store.begin_cases (s : Store T α) (now : T) (key : String) (ttl : Option T)
    (tags : List String) :
    (∃ v held s', s.begin now key ttl tags = (.hit v, s') ∧ s.Holds key v held ∧ s.Fades s') ∨
    (∃ f s', s.begin now key ttl tags = (.joined f.ticket, s') ∧ f ∈ s.flights ∧ f.key = key ∧
      s.Fades s') ∨
    (∃ s', s.begin now key ttl tags =
      (.leads ⟨key, s.nextTicket, ttl, tags, tags.map s.epoch, s.generation⟩,
        { s' with
          nextTicket := s.nextTicket + 1
          flights := s.flights ++ [⟨key, s.nextTicket, tags⟩] }) ∧ s.Fades s') := by
  have hf := s.fades_lookup now key
  unfold Store.begin
  rcases hl : s.lookup now key with ⟨found, s'⟩
  rw [hl] at hf
  cases found with
  | some v =>
    have hfound : (s.lookup now key).1 = some v := by rw [hl]
    obtain ⟨held, hh⟩ := Store.holds_of_lookup hfound
    exact .inl ⟨v, held, s', rfl, hh, hf⟩
  | none =>
    cases hfl : s'.flight? key with
    | some f =>
      unfold Store.flight? at hfl
      have hkey := List.find?_some hfl
      refine .inr (.inl ⟨f, { s' with coalesced := s'.coalesced + 1 }, by simp [Store.flight?, hfl], ?_,
        by simpa using hkey, ?_⟩)
      · exact hf.flights ▸ List.mem_of_find?_eq_some hfl
      · exact ⟨⟨hf.flights, hf.epochs, hf.generation, hf.nextTicket⟩, hf.holds⟩
    | none =>
      refine .inr (.inr ⟨s', ?_, hf⟩)
      simp only [hfl]
      rw [hf.nextTicket, hf.epoch, hf.generation, hf.flights]

end Calls

end DatasetCatalog.Cache
