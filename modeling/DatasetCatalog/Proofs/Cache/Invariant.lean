import DatasetCatalog.Proofs.Cache.Traffic
import DatasetCatalog.Proofs.Success

/-!
# What every step keeps

Three mechanisms see to it that no dropped value is given out: the counts that a lead remembers,
the tags on the entries, and the detaching of flights. The invariant says of all three, and of
every call that waits or has ended, how they go back to the steps that were taken.
-/

namespace DatasetCatalog.Cache

variable {T α ε : Type}

section History
variable {xs : List (Step T α ε)} {x : Step T α ε} {start stop : Nat} {tags : List String}

theorem Undisturbed.append (h : Undisturbed xs start stop tags) (hstop : stop ≤ xs.length)
    (ys : List (Step T α ε)) : Undisturbed (xs ++ ys) start stop tags := by
  intro i y hstart hi hy
  rw [List.getElem?_append_left (by omega)] at hy
  exact h i y hstart hi hy

theorem Undisturbed.snoc (h : Undisturbed xs start xs.length tags) (hx : ¬ x.Drops tags) :
    Undisturbed (xs ++ [x]) start (xs ++ [x]).length tags := by
  intro i y hstart hi hy
  rcases Nat.lt_or_ge i xs.length with hlt | hge
  · exact (h.append (Nat.le_refl _) [x]) i y hstart hlt hy
  · have hi' : i = xs.length := by
      simp only [List.length_append, List.length_singleton] at hi
      omega
    subst hi'
    rw [List.getElem?_concat_length] at hy
    cases hy
    exact hx

/-- Nothing has happened yet since the latest step. -/
theorem undisturbed_last : Undisturbed (xs ++ [x]) xs.length (xs ++ [x]).length tags := by
  intro i y hstart hi
  simp only [List.length_append, List.length_singleton] at hi
  omega

theorem Undisturbed.mono (h : Undisturbed xs start stop tags) {earlier : Nat}
    (hle : earlier ≤ stop) : Undisturbed xs start earlier tags := by
  intro i y hstart hi hy
  exact h i y hstart (by omega) hy

theorem getElem?_append_of_some {ys : List (Step T α ε)} {i : Nat} (h : xs[i]? = some x) :
    (xs ++ ys)[i]? = some x := by
  rw [List.getElem?_append_left (List.getElem?_eq_some_iff.mp h).1]
  exact h

end History

namespace Origin
variable {xs : List (Step T α ε)} {x : Step T α ε} {key : String} {v : α} {tags : List String}
  {stop : Nat}

theorem append (h : Origin xs key v tags stop) (hstop : stop ≤ xs.length)
    (ys : List (Step T α ε)) : Origin (xs ++ ys) key v tags stop := by
  cases h with
  | set hi => exact .set (getElem?_append_of_some hi)
  | computed hp hi hlt hle hu =>
    exact .computed (getElem?_append_of_some hp) (getElem?_append_of_some hi) hlt hle
      (hu.append hstop ys)

theorem snoc (h : Origin xs key v tags xs.length) (hx : ¬ x.Drops tags) :
    Origin (xs ++ [x]) key v tags (xs ++ [x]).length := by
  cases h with
  | set hi => exact .set (getElem?_append_of_some hi)
  | computed hp hi hlt hle hu =>
    refine .computed (getElem?_append_of_some hp) (getElem?_append_of_some hi) hlt ?_
      (hu.snoc hx)
    rw [List.length_append]
    omega

end Origin

/-- A call for some key has got a value that the cache could give when the call started. -/
def Answered (xs : List (Step T α ε)) (call : Nat) (v : α) : Prop :=
  ∃ x key tags, xs[call]? = some x ∧ x.Asks key ∧ Origin xs key v tags call

/-- The state after the steps `xs`, as far as freshness depends on it. -/
structure Traffic.Sound (xs : List (Step T α ε)) (c : Traffic T α ε) : Prop where
  time : c.time = xs.length
  holds : ∀ {key v tags}, c.store.Holds key v tags → Origin xs key v tags xs.length
  started : ∀ {p l}, (p, l) ∈ c.leading → xs[p]? = some (.getOrSet l.key l.ttl l.tags)
  since : ∀ {p l}, (p, l) ∈ c.leading → c.store.Since l
  fresh : ∀ {p l}, (p, l) ∈ c.leading → c.store.isStale l = false →
    Undisturbed xs p xs.length l.tags
  unique : ∀ {p l q m}, (p, l) ∈ c.leading → (q, m) ∈ c.leading → p = q ∨ l.ticket = m.ticket →
    p = q ∧ l = m
  flights : ∀ f ∈ c.store.flights, ∃ p l, (p, l) ∈ c.leading ∧ l.key = f.key ∧
    l.ticket = f.ticket ∧ l.tags = f.tags ∧ Undisturbed xs p xs.length l.tags
  waiting : ∀ {w k}, (w, k) ∈ c.waiting → ∃ p l x, (p, l) ∈ c.leading ∧ l.ticket = k ∧ p ≤ w ∧
    xs[w]? = some x ∧ x.Asks l.key ∧ Undisturbed xs p w l.tags
  returns : ∀ {call v}, ⟨call, .value v⟩ ∈ c.returns → Answered xs call v

theorem Answered.append {xs : List (Step T α ε)} {call : Nat} {v : α} (h : Answered xs call v)
    (ys : List (Step T α ε)) : Answered (xs ++ ys) call v := by
  obtain ⟨x, key, tags, hx, hasks, ho⟩ := h
  have hlt := (List.getElem?_eq_some_iff.mp hx).1
  exact ⟨x, key, tags, getElem?_append_of_some hx, hasks, ho.append (by omega) ys⟩

namespace Traffic.Sound
variable {xs : List (Step T α ε)} {c : Traffic T α ε} {x : Step T α ε} {s' : Store T α}

theorem start (defaultTtl : T) (maxEntries : Int) (now : T) :
    Sound ([] : List (Step T α ε)) (Traffic.start defaultTtl maxEntries now) where
  time := rfl
  holds := by
    rintro _ _ _ ⟨e, he, _⟩
    cases he
  started h := by cases h
  since h := by cases h
  fresh h := by cases h
  unique h := by cases h
  flights _ h := by cases h
  waiting h := by cases h
  returns h := by cases h

/-- A step that drops nothing of what there is, apart from its effect. -/
theorem pass (h : Sound xs c)
    (hholds : ∀ {key v tags}, c.store.Holds key v tags → ¬ x.Drops tags)
    (hflights : ∀ f ∈ c.store.flights, ¬ x.Drops f.tags)
    (hleading : ∀ {p l}, (p, l) ∈ c.leading → c.store.isStale l = false → ¬ x.Drops l.tags) :
    Sound (xs ++ [x]) { c with time := c.time + 1 } where
  time := by simp [h.time]
  holds hh := (h.holds hh).snoc (hholds hh)
  started hl := getElem?_append_of_some (h.started hl)
  since := h.since
  fresh hl hs := (h.fresh hl hs).snoc (hleading hl hs)
  unique := h.unique
  flights f hf := by
    obtain ⟨p, l, hl, hk, ht, htags, hu⟩ := h.flights f hf
    exact ⟨p, l, hl, hk, ht, htags, hu.snoc (htags ▸ hflights f hf)⟩
  waiting hw := by
    obtain ⟨p, l, y, hl, ht, hle, hy, hasks, hu⟩ := h.waiting hw
    have hlt := (List.getElem?_eq_some_iff.mp hy).1
    exact ⟨p, l, y, hl, ht, hle, getElem?_append_of_some hy, hasks, hu.append (by omega) [x]⟩
  returns hr := (h.returns hr).append [x]

/-- Most steps drop nothing at all. -/
theorem pass_of_drops_nothing (h : Sound xs c) (hx : ∀ tags, ¬ x.Drops tags) :
    Sound (xs ++ [x]) { c with time := c.time + 1 } :=
  h.pass (fun _ => hx _) (fun _ _ => hx _) (fun _ _ => hx _)

theorem sameRecords (h : Sound xs c) (hr : c.store.SameRecords s')
    (hh : ∀ {key v tags}, s'.Holds key v tags → Origin xs key v tags xs.length) :
    Sound xs { c with store := s' } where
  time := h.time
  holds := hh
  started := h.started
  since hl := (h.since hl).sameRecords hr
  fresh hl hs := h.fresh hl (hr.isStale _ ▸ hs)
  unique := h.unique
  flights f hm := h.flights f (hr.flights ▸ hm)
  waiting := h.waiting
  returns := h.returns

theorem fades (h : Sound xs c) (hf : c.store.Fades s') : Sound xs { c with store := s' } :=
  h.sameRecords hf.toSameRecords fun hh => h.holds (hf.holds hh)

theorem put [LT T] [DecidableLT T] [Add T] (h : Sound xs c) {key : String} {v : α}
    {tags : List String} (now : T) (ttl : Option T) (ho : Origin xs key v tags xs.length) :
    Sound xs { c with store := c.store.put now key v ttl tags } := by
  refine h.sameRecords (c.store.sameRecords_put now key v ttl tags) ?_
  intro k v' t hh
  rcases Store.holds_of_put hh with ⟨rfl, rfl, rfl⟩ | ⟨_, hold⟩
  · exact ho
  · exact h.holds hold

theorem answer (h : Sound xs c) (call : Nat) {o : Outcome α ε}
    (ho : ∀ v, o = .value v → Answered xs call v) :
    Sound xs { c with returns := c.returns ++ [⟨call, o⟩] } :=
  { h with
    returns := by
      intro call' v hr
      rcases List.mem_append.mp hr with hr | hr
      · exact h.returns hr
      · cases List.mem_singleton.mp hr
        exact ho v rfl }

theorem join (h : Sound (xs ++ [x]) c) {f : Flight} (hf : f ∈ c.store.flights)
    (hx : x.Asks f.key) : Sound (xs ++ [x]) { c with
      waiting := c.waiting ++ [(xs.length, f.ticket)] } :=
  { h with
    waiting := by
      intro w k hw
      rcases List.mem_append.mp hw with hw | hw
      · exact h.waiting hw
      · cases List.mem_singleton.mp hw
        obtain ⟨p, l, hl, hk, ht, _, hu⟩ := h.flights f hf
        have hp := (List.getElem?_eq_some_iff.mp (h.started hl)).1
        simp only [List.length_append, List.length_singleton] at hp hu
        exact ⟨p, l, x, hl, ht, by omega, List.getElem?_concat_length, hk ▸ hx,
          hu.mono (by omega)⟩ }

/-- The latest step made its call a leader. -/
theorem lead {key : String} {ttl : Option T} {tags : List String}
    (h : Sound (xs ++ [.getOrSet key ttl tags]) c)
    (hnew : ∀ {p l}, (p, l) ∈ c.leading → p < xs.length) :
    Sound (xs ++ [.getOrSet key ttl tags]) { c with
      store := { c.store with
        nextTicket := c.store.nextTicket + 1
        flights := c.store.flights ++ [⟨key, c.store.nextTicket, tags⟩] }
      leading := c.leading ++ [(xs.length,
        ⟨key, c.store.nextTicket, ttl, tags, tags.map c.store.epoch, c.store.generation⟩)] } where
  time := h.time
  holds := h.holds
  started := by
    intro p l hl
    rcases List.mem_append.mp hl with hl | hl
    · exact h.started hl
    · cases List.mem_singleton.mp hl
      exact List.getElem?_concat_length
  since := by
    intro p l hl
    rcases List.mem_append.mp hl with hl | hl
    · have hs := h.since hl
      exact ⟨Nat.lt_succ_of_lt hs.ticket, hs.generation, hs.epochs⟩
    · cases List.mem_singleton.mp hl
      exact ⟨Nat.lt_succ_self _, Nat.le_refl _, _, rfl, fun _ => Nat.le_refl _⟩
  fresh := by
    intro p l hl hs
    rcases List.mem_append.mp hl with hl | hl
    · exact h.fresh hl hs
    · cases List.mem_singleton.mp hl
      exact undisturbed_last
  unique := by
    intro p l q m hl hm hsame
    rcases List.mem_append.mp hl with hl | hl <;> rcases List.mem_append.mp hm with hm | hm
    · exact h.unique hl hm hsame
    · cases List.mem_singleton.mp hm
      have hp := hnew hl
      have ht := (h.since hl).ticket
      simp only at hsame
      omega
    · cases List.mem_singleton.mp hl
      have hq := hnew hm
      have ht := (h.since hm).ticket
      simp only at hsame
      omega
    · cases List.mem_singleton.mp hl
      cases List.mem_singleton.mp hm
      exact ⟨rfl, rfl⟩
  flights := by
    intro f hf
    rcases List.mem_append.mp hf with hf | hf
    · obtain ⟨p, l, hl, hrest⟩ := h.flights f hf
      exact ⟨p, l, List.mem_append_left _ hl, hrest⟩
    · cases List.mem_singleton.mp hf
      exact ⟨_, _, List.mem_append_right _ (List.mem_singleton.mpr rfl), rfl, rfl, rfl,
        undisturbed_last⟩
  waiting hw := by
    obtain ⟨p, l, y, hl, hrest⟩ := h.waiting hw
    exact ⟨p, l, y, List.mem_append_left _ hl, hrest⟩
  returns := h.returns

theorem settle (h : Sound xs c) {call : Nat} {l : Lead T} {o : Outcome α ε}
    (hl : (call, l) ∈ c.leading)
    (ho : ∀ v, o = .value v → ∃ i, call < i ∧ xs[i]? = some (.finish call v)) :
    Sound xs ({ c with store := c.store.land l }.settle call l o) where
  time := h.time
  holds := h.holds
  started hm := h.started (List.mem_filter.mp hm).1
  since hm := by
    have hs := h.since (List.mem_filter.mp hm).1
    exact ⟨hs.ticket, hs.generation, hs.epochs⟩
  fresh hm := h.fresh (List.mem_filter.mp hm).1
  unique hm hm' := h.unique (List.mem_filter.mp hm).1 (List.mem_filter.mp hm').1
  flights := by
    intro f hf
    obtain ⟨hmem, hne⟩ := List.mem_filter.mp hf
    obtain ⟨p, m, hm, hk, ht, hrest⟩ := h.flights f hmem
    refine ⟨p, m, List.mem_filter.mpr ⟨hm, ?_⟩, hk, ht, hrest⟩
    -- the flight is another one, so another call leads it
    simp only [bne_iff_ne, ne_eq] at hne ⊢
    rintro rfl
    exact hne (ht ▸ congrArg Lead.ticket (h.unique hm hl (.inl rfl)).2)
  waiting := by
    intro w k hw
    obtain ⟨hmem, hne⟩ := List.mem_filter.mp hw
    obtain ⟨p, m, x, hm, ht, hrest⟩ := h.waiting hmem
    refine ⟨p, m, x, List.mem_filter.mpr ⟨hm, ?_⟩, ht, hrest⟩
    simp only [bne_iff_ne, ne_eq] at hne ⊢
    rintro rfl
    exact hne (ht ▸ congrArg Lead.ticket (h.unique hm hl (.inl rfl)).2)
  returns := by
    intro w v hr
    rcases List.mem_append.mp hr with hr | hr
    · exact h.returns hr
    · rcases List.mem_cons.mp hr with he | hr
      · cases he
        obtain ⟨i, hlt, hi⟩ := ho v rfl
        exact ⟨_, l.key, l.tags, h.started hl, rfl, .computed (h.started hl) hi hlt (Nat.le_refl _)
          fun j _ hj hj' => absurd (Nat.lt_trans hj hj') (Nat.lt_irrefl _)⟩
      · obtain ⟨⟨w', k⟩, hw, he⟩ := List.mem_map.mp hr
        cases he
        obtain ⟨hmem, hk⟩ := List.mem_filter.mp hw
        obtain ⟨p, m, x, hm, ht, hle, hx, hasks, hu⟩ := h.waiting hmem
        have hsame := h.unique hm hl (.inr (ht.trans (by simpa using hk)))
        obtain ⟨rfl, rfl⟩ := hsame
        obtain ⟨i, hlt, hi⟩ := ho v rfl
        exact ⟨x, m.key, m.tags, hx, hasks, .computed (h.started hm) hi hlt hle hu⟩

theorem clear (h : Sound xs c) : Sound xs { c with store := c.store.clear.2 } :=
  { h with
    holds := fun hh => absurd hh (Store.not_holds_clear _)
    since := fun hl => (h.since hl).clear
    fresh := fun hl hs => by
      have ht := (h.since hl).isStale_clear
      simp only [ht, Bool.true_eq_false] at hs
    flights := fun _ hf => nomatch hf }

theorem removeByTags (h : Sound xs c) (dropped : List String) :
    Sound xs { c with store := (c.store.removeByTags dropped).2 } :=
  { h with
    holds := fun hh => h.holds (Store.holds_of_removeByTags hh).1
    since := fun hl => (h.since hl).removeByTags dropped
    fresh := by
      intro p l hl hs
      apply h.fresh hl
      apply Store.isStale_of_removeByTags hs
      intro hshare
      have ht := (h.since hl).isStale_removeByTags hshare
      simp only [ht, Bool.true_eq_false] at hs
    flights := fun f hf => h.flights f (List.mem_filter.mp hf).1 }

theorem after_clear (h : Sound xs c) :
    Sound (xs ++ [.clear]) { c with store := c.store.clear.2, time := c.time + 1 } := by
  refine h.clear.pass ?_ ?_ ?_
  · exact fun hh => absurd hh (Store.not_holds_clear _)
  · exact fun _ hf => nomatch hf
  · intro p l hl hs
    have ht := (h.since hl).isStale_clear
    simp only [ht, Bool.true_eq_false] at hs

theorem after_removeByTags (h : Sound xs c) (dropped : List String) :
    Sound (xs ++ [.removeByTags dropped])
      { c with store := (c.store.removeByTags dropped).2, time := c.time + 1 } := by
  -- what is left shares no tag with what was dropped
  have kept : ∀ {tags}, sharesTag tags dropped = false →
      ¬ Step.Drops (.removeByTags dropped : Step T α ε) tags := by
    intro tags hshare hdrop
    rw [sharesTag_iff.mpr hdrop] at hshare
    exact Bool.noConfusion hshare
  refine (h.removeByTags dropped).pass ?_ ?_ ?_
  · exact fun hh => kept (Store.holds_of_removeByTags hh).2
  · exact fun f hf => kept (by simpa using (List.mem_filter.mp hf).2)
  · intro p l hl hs hdrop
    have ht := (h.since hl).isStale_removeByTags hdrop
    simp only [ht, Bool.true_eq_false] at hs

section Steps
variable [LE T] [DecidableLE T] [LT T] [DecidableLT T] [Add T]

theorem after_getOrSet (h : Sound xs c) (key : String) (ttl : Option T) (tags : List String) :
    Sound (xs ++ [.getOrSet key ttl tags]) (c.after (.getOrSet key ttl tags)) := by
  have hp : Sound (xs ++ [.getOrSet key ttl tags]) { c with time := c.time + 1 } :=
    h.pass_of_drops_nothing fun _ => id
  have htime := h.time
  rcases c.store.begin_cases c.now key ttl tags with
    ⟨v, held, s', hb, hh, hf⟩ | ⟨f, s', hb, hmem, hk, hf⟩ | ⟨s', hb, hf⟩
  · simp only [Traffic.after, Traffic.take, hb]
    refine (hp.fades hf).answer c.time ?_
    intro v' hv
    cases hv
    rw [htime]
    exact ⟨_, key, held, List.getElem?_concat_length, rfl,
      (h.holds hh).append (Nat.le_refl _) _⟩
  · simp only [Traffic.after, Traffic.take, hb, htime]
    simpa only [htime] using (hp.fades hf).join (hf.flights ▸ hmem) hk.symm
  · simp only [Traffic.after, Traffic.take, hb, htime]
    have hnew : ∀ {p l}, (p, l) ∈ c.leading → p < xs.length := fun hl =>
      (List.getElem?_eq_some_iff.mp (h.started hl)).1
    have hl := (hp.fades hf).lead hnew
    simpa only [htime, hf.nextTicket, hf.flights, hf.epoch, hf.generation] using hl

theorem after_finish (h : Sound xs c) (call : Nat) (v : α) :
    Sound (xs ++ [.finish call v]) (c.after (.finish call v)) := by
  have hp : Sound (xs ++ [.finish call v]) { c with time := c.time + 1 } :=
    h.pass_of_drops_nothing fun _ => id
  have hlast : (xs ++ [Step.finish call v])[xs.length]? = some (.finish call v) :=
    List.getElem?_concat_length
  cases hl : c.leading.lookup call with
  | none => simpa only [Traffic.after, Traffic.take, hl] using hp
  | some l =>
    have hmem := mem_of_lookup hl
    have hlt := (List.getElem?_eq_some_iff.mp (h.started hmem)).1
    have ended : ∀ v', Outcome.value v = (.value v' : Outcome α ε) →
        ∃ i, call < i ∧ (xs ++ [Step.finish call v])[i]? = some (.finish call v') := by
      intro v' hv
      cases hv
      exact ⟨xs.length, hlt, hlast⟩
    simp only [Traffic.after, Traffic.take, hl]
    cases hs : c.store.isStale l with
    | true =>
      have hkeep : c.store.finish c.now l v = c.store.land l := by
        rw [Store.finish, hs, if_pos rfl]
      rw [hkeep]
      exact hp.settle hmem ended
    | false =>
      have hput : c.store.finish c.now l v = (c.store.put c.now l.key v l.ttl l.tags).land l := by
        rw [Store.finish, hs, if_neg Bool.false_ne_true]
      rw [hput]
      have hle := (List.getElem?_eq_some_iff.mp (hp.started hmem)).1
      have ho : Origin (xs ++ [.finish call v]) l.key v l.tags
          (xs ++ [Step.finish call v]).length :=
        .computed (hp.started hmem) hlast hlt (Nat.le_of_lt hle) (hp.fresh hmem hs)
      exact (hp.put c.now l.ttl ho).settle hmem ended

theorem after_fail (h : Sound xs c) (call : Nat) (e : ε) :
    Sound (xs ++ [.fail call e]) (c.after (.fail call e)) := by
  have hp : Sound (xs ++ [.fail call e]) { c with time := c.time + 1 } :=
    h.pass_of_drops_nothing fun _ => id
  cases hl : c.leading.lookup call with
  | none => simpa only [Traffic.after, Traffic.take, hl] using hp
  | some l =>
    simp only [Traffic.after, Traffic.take, hl]
    exact hp.settle (mem_of_lookup hl) fun v hv => nomatch hv

theorem after_get (h : Sound xs c) (key : String) :
    Sound (xs ++ [.get key]) (c.after (.get key)) := by
  have hp : Sound (xs ++ [.get key]) { c with time := c.time + 1 } :=
    h.pass_of_drops_nothing fun _ => id
  have htime := h.time
  have hf := c.store.fades_lookup c.now key
  rcases hl : c.store.lookup c.now key with ⟨found, s'⟩
  rw [hl] at hf
  simp only [Traffic.after, Traffic.take, hl]
  refine (hp.fades hf).answer c.time ?_
  intro v hv
  cases found with
  | none => cases hv
  | some v' =>
    cases hv
    have hfound : (c.store.lookup c.now key).1 = some v := by rw [hl]
    obtain ⟨held, hh⟩ := Store.holds_of_lookup hfound
    rw [htime]
    exact ⟨_, key, held, List.getElem?_concat_length, rfl,
      (h.holds hh).append (Nat.le_refl _) _⟩

/-- Every step keeps the invariant. -/
theorem after (h : Sound xs c) (x : Step T α ε) : Sound (xs ++ [x]) (c.after x) := by
  cases x with
  | getOrSet key ttl tags => exact h.after_getOrSet key ttl tags
  | finish call v => exact h.after_finish call v
  | fail call e => exact h.after_fail call e
  | get key => exact h.after_get key
  | set key v ttl tags =>
    exact (h.pass_of_drops_nothing fun _ => id).put c.now ttl (.set List.getElem?_concat_length)
  | remove key => exact (h.pass_of_drops_nothing fun _ => id).fades (c.store.fades_remove key)
  | removeByTags dropped => exact h.after_removeByTags dropped
  | clear => exact h.after_clear
  | cleanup => exact (h.pass_of_drops_nothing fun _ => id).fades (c.store.fades_cleanup c.now)
  | clock now => exact { h.pass_of_drops_nothing (x := .clock now) fun _ => id with }

theorem run (h : Sound xs c) (ys : List (Step T α ε)) : Sound (xs ++ ys) (c.run ys) := by
  induction ys generalizing xs c with
  | nil =>
    rw [List.append_nil]
    exact h
  | cons y rest ih =>
    have hrest := ih (h.after y)
    rwa [List.append_assoc, List.singleton_append] at hrest

end Steps

end Traffic.Sound

end DatasetCatalog.Cache
