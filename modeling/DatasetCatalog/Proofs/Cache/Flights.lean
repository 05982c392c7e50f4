import Mathlib.Data.List.Nodup
import DatasetCatalog.Proofs.Cache.Invariant

/-!
# Leaders and those who join them

A key can have several leaders at a time, since dropping a tag detaches a flight that still goes on.
What is shown here keeps them apart: only a drop lets a later leader start beside an earlier one, a
call that joined gets what its own leader gets, and the end of a leader concerns its own flight
alone.
-/

namespace DatasetCatalog.Cache

variable {T α ε : Type}

/-- The step ends the computation of a call, with an outcome. -/
inductive Step.Ends : Step T α ε → Nat → Outcome α ε → Prop
  | finish (call : Nat) (v : α) : Ends (.finish call v) call (.value v)
  | fail (call : Nat) (e : ε) : Ends (.fail call e) call (.raised e)

/-- The flight is the one that a leading call has registered. -/
def Traffic.Registered (c : Traffic T α ε) (call : Nat) (f : Flight) : Prop :=
  f ∈ c.store.flights ∧ ∃ lead, (call, lead) ∈ c.leading ∧ lead.ticket = f.ticket

section History
variable {xs : List (Step T α ε)} {x : Step T α ε} {start stop : Nat} {tags : List String}

theorem Undisturbed.of_append {ys : List (Step T α ε)}
    (h : Undisturbed (xs ++ ys) start stop tags) :
    Undisturbed xs start stop tags := by
  intro i y hstart hi hy
  exact h i y hstart hi (getElem?_append_of_some hy)

/-- What is not disturbed by the latest step either was not disturbed before it. -/
theorem Undisturbed.of_snoc (hstart : start < xs.length)
    (h : Undisturbed (xs ++ [x]) start (xs ++ [x]).length tags) :
    Undisturbed xs start xs.length tags ∧ ¬ x.Drops tags := by
  have hlast : xs.length < (xs ++ [x]).length := by simp
  constructor
  · exact h.of_append.mono (Nat.le_of_lt hlast)
  · exact h xs.length x hstart hlast List.getElem?_concat_length

theorem exists_drop_of_not_undisturbed (h : ¬ Undisturbed xs start stop tags) :
    ∃ i x, start < i ∧ i < stop ∧ xs[i]? = some x ∧ x.Drops tags := by
  unfold Undisturbed at h
  push Not at h
  exact h

end History

/-- A call leads only where no flight of its key is registered. -/
theorem Store.no_flight_of_leads [LE T] [DecidableLE T] {s s' : Store T α} {now : T}
    {key : String} {ttl : Option T} {tags : List String} {lead : Lead T}
    (h : s.begin now key ttl tags = (.leads lead, s')) :
    ∀ f ∈ s.flights, f.key ≠ key := by
  have hfades := s.fades_lookup now key
  unfold Store.begin at h
  rcases hl : s.lookup now key with ⟨found, s₁⟩
  rw [hl] at h hfades
  cases found with
  | some v => cases h
  | none =>
    cases hf : s₁.flight? key with
    | some f =>
      simp only [hf] at h
      cases h
    | none =>
      intro f hmem hkey
      have hnone := List.find?_eq_none.mp hf f (hfades.flights ▸ hmem)
      exact hnone (by simpa using hkey)

theorem Store.flights_finish [LT T] [DecidableLT T] [Add T] (s : Store T α) (now : T)
    (lead : Lead T) (v : α) :
    (s.finish now lead v).flights = (s.land lead).flights := by
  unfold Store.finish
  split
  · rfl
  · have hput := (s.sameRecords_put now lead.key v lead.ttl lead.tags).flights
    simp only [Store.land, hput]

/-- A leader whose tags nothing has dropped is registered, and of two leaders of one key the tags of
the earlier were dropped before the later started. -/
structure Traffic.Apart (xs : List (Step T α ε)) (c : Traffic T α ε) : Prop where
  registered : ∀ {p l}, (p, l) ∈ c.leading → Undisturbed xs p xs.length l.tags →
    ⟨l.key, l.ticket, l.tags⟩ ∈ c.store.flights
  dropped : ∀ {p l q m}, (p, l) ∈ c.leading → (q, m) ∈ c.leading → l.key = m.key → p < q →
    ¬ Undisturbed xs p q l.tags

namespace Traffic.Apart
variable {xs : List (Step T α ε)} {c c' : Traffic T α ε} {x : Step T α ε}

/-- A step that adds no leader, and takes no flight away but those of leaders that end and those
whose tags it drops. -/
theorem pass (h : Apart xs c) (hc : c.Sound xs) (hleading : c'.leading ⊆ c.leading)
    (hflights : ∀ {p l}, (p, l) ∈ c'.leading → ⟨l.key, l.ticket, l.tags⟩ ∈ c.store.flights →
      ¬ x.Drops l.tags → ⟨l.key, l.ticket, l.tags⟩ ∈ c'.store.flights) : Apart (xs ++ [x]) c' where
  registered := by
    intro p l hl hu
    have hp := (List.getElem?_eq_some_iff.mp (hc.started (hleading hl))).1
    obtain ⟨hbefore, hx⟩ := hu.of_snoc hp
    exact hflights hl (h.registered (hleading hl) hbefore) hx
  dropped := by
    intro p l q m hl hm hkey hlt hu
    exact h.dropped (hleading hl) (hleading hm) hkey hlt hu.of_append

/-- A step that leaves leaders and flights alone. -/
theorem pass_of_same (h : Apart xs c) (hc : c.Sound xs) (hleading : c'.leading = c.leading)
    (hflights : c'.store.flights = c.store.flights) : Apart (xs ++ [x]) c' :=
  h.pass hc (fun _ hl => hleading ▸ hl) fun _ hf _ => hflights ▸ hf

/-- A call that starts to lead joins the leaders. -/
theorem lead (h : Apart xs c) (hc : c.Sound xs) {l : Lead T}
    (hnone : ∀ f ∈ c.store.flights, f.key ≠ l.key)
    (hleading : c'.leading = c.leading ++ [(xs.length, l)])
    (hflights : c'.store.flights = c.store.flights ++ [⟨l.key, l.ticket, l.tags⟩]) :
    Apart (xs ++ [x]) c' := by
  have hstarted : ∀ {p m}, (p, m) ∈ c.leading → p < xs.length := fun hm =>
    (List.getElem?_eq_some_iff.mp (hc.started hm)).1
  constructor
  · intro p m hm hu
    rw [hflights, List.mem_append]
    rw [hleading] at hm
    rcases List.mem_append.mp hm with hm | hm
    · exact .inl (h.registered hm (hu.of_snoc (hstarted hm)).1)
    · cases List.mem_singleton.mp hm
      exact .inr (List.mem_singleton.mpr rfl)
  · intro p m q n hm hn hkey hlt hu
    rw [hleading] at hm hn
    rcases List.mem_append.mp hn with hn | hn
    · rcases List.mem_append.mp hm with hm | hm
      · exact h.dropped hm hn hkey hlt hu.of_append
      · cases List.mem_singleton.mp hm
        have hq := hstarted hn
        omega
    · cases List.mem_singleton.mp hn
      rcases List.mem_append.mp hm with hm | hm
      · -- an earlier leader whose tags were never dropped would have been joined
        have hfound := h.registered hm hu.of_append
        exact hnone _ hfound hkey
      · cases List.mem_singleton.mp hm
        omega

/-- A leader that ends takes its own flight away. -/
theorem settle (h : Apart xs c) (hc : c.Sound xs) {call : Nat} {l : Lead T}
    (hl : (call, l) ∈ c.leading) (hleading : c'.leading = c.leading.filter (·.1 != call))
    (hflights : c'.store.flights = (c.store.land l).flights) : Apart (xs ++ [x]) c' := by
  refine h.pass hc (fun _ hm => (List.mem_filter.mp (hleading ▸ hm)).1) ?_
  intro p m hm hf _
  obtain ⟨hold, hne⟩ := List.mem_filter.mp (hleading ▸ hm)
  rw [hflights]
  refine List.mem_filter.mpr ⟨hf, ?_⟩
  -- another call has another ticket
  simp only [bne_iff_ne, ne_eq] at hne ⊢
  intro ht
  exact hne (hc.unique hold hl (.inr ht)).1

variable [LE T] [DecidableLE T] [LT T] [DecidableLT T] [Add T]

/-- Every step keeps the leaders apart. -/
theorem after (h : Apart xs c) (hc : c.Sound xs) (x : Step T α ε) :
    Apart (xs ++ [x]) (c.after x) := by
  cases x with
  | getOrSet key ttl tags =>
    rcases c.store.begin_cases c.now key ttl tags with
      ⟨v, held, s', hb, _, hf⟩ | ⟨f, s', hb, _, _, hf⟩ | ⟨s', hb, hf⟩
    · simp only [Traffic.after, Traffic.take, hb]
      exact h.pass_of_same hc rfl hf.flights
    · simp only [Traffic.after, Traffic.take, hb]
      exact h.pass_of_same hc rfl hf.flights
    · have hnone := Store.no_flight_of_leads hb
      simp only [Traffic.after, Traffic.take, hb]
      refine h.lead hc (l := ⟨key, c.store.nextTicket, ttl, tags, tags.map c.store.epoch,
        c.store.generation⟩) hnone ?_ rfl
      rw [hc.time]
  | finish call v =>
    simp only [Traffic.after, Traffic.take]
    split
    · rename_i l hl
      exact h.settle hc (mem_of_lookup hl) rfl (c.store.flights_finish c.now l v)
    · exact h.pass_of_same hc rfl rfl
  | fail call e =>
    simp only [Traffic.after, Traffic.take]
    split
    · rename_i l hl
      exact h.settle hc (mem_of_lookup hl) rfl rfl
    · exact h.pass_of_same hc rfl rfl
  | get key => exact h.pass_of_same hc rfl (c.store.fades_lookup c.now key).flights
  | set key v ttl tags =>
    exact h.pass_of_same hc rfl (c.store.sameRecords_put c.now key v ttl tags).flights
  | remove key => exact h.pass_of_same hc rfl (c.store.fades_remove key).flights
  | removeByTags dropped =>
    refine h.pass hc (List.Subset.refl _) ?_
    intro p l _ hf hx
    refine List.mem_filter.mpr ⟨hf, ?_⟩
    have hshare : sharesTag l.tags dropped = false := by
      rw [← Bool.not_eq_true, sharesTag_iff]
      exact hx
    rw [hshare]
    rfl
  | clear => exact h.pass hc (List.Subset.refl _) fun _ _ hx => absurd trivial hx
  | cleanup => exact h.pass_of_same hc rfl (c.store.fades_cleanup c.now).flights
  | clock now => exact h.pass_of_same hc rfl rfl

omit [LE T] [DecidableLE T] [LT T] [DecidableLT T] [Add T] in
theorem start (defaultTtl : T) (maxEntries : Int) (now : T) :
    Apart ([] : List (Step T α ε)) (Traffic.start defaultTtl maxEntries now) where
  registered hl := by cases hl
  dropped hl := by cases hl

theorem run (h : Apart xs c) (hc : c.Sound xs) (ys : List (Step T α ε)) :
    Apart (xs ++ ys) (c.run ys) := by
  induction ys generalizing xs c with
  | nil =>
    rw [List.append_nil]
    exact h
  | cons y rest ih =>
    have hrest := ih (h.after hc y) (hc.after y)
    rwa [List.append_assoc, List.singleton_append] at hrest

end Traffic.Apart

namespace Traffic

/-- The calls that have started: those that have ended, those that compute and those that wait. -/
def calls (c : Traffic T α ε) : List Nat :=
  c.returns.map Return.call ++ (c.leading.map Prod.fst ++ c.waiting.map Prod.fst)

/-- Every call is counted once, under the number of a step that was taken. -/
structure Tallied (c : Traffic T α ε) : Prop where
  nodup : c.calls.Nodup
  started : ∀ n ∈ c.calls, n < c.time

end Traffic

theorem perm_cons_filter_fst {β : Type} {l : List (Nat × β)} {n : Nat} {b : β} (hmem : (n, b) ∈ l)
    (hnodup : (l.map Prod.fst).Nodup) :
    (l.map Prod.fst).Perm (n :: (l.filter (·.1 != n)).map Prod.fst) := by
  induction l with
  | nil => cases hmem
  | cons a rest ih =>
    rw [List.map_cons, List.nodup_cons] at hnodup
    obtain ⟨hnew, hrest⟩ := hnodup
    by_cases ha : a.1 = n
    · have hkept : rest.filter (·.1 != n) = rest := by
        rw [List.filter_eq_self]
        intro e he
        rw [bne_iff_ne]
        intro heq
        exact hnew (ha ▸ heq ▸ List.mem_map_of_mem he)
      rw [List.map_cons, List.filter_cons_of_neg (by simp [ha]), hkept, ha]
    · have hmem' : (n, b) ∈ rest := by
        rcases List.mem_cons.mp hmem with rfl | hmem
        · exact absurd rfl ha
        · exact hmem
      rw [List.map_cons, List.filter_cons_of_pos (by simp [ha]), List.map_cons]
      exact ((ih hmem' hrest).cons a.1).trans (.swap n a.1 _)

namespace Traffic.Tallied
variable {c c' : Traffic T α ε}

theorem start (defaultTtl : T) (maxEntries : Int) (now : T) :
    Tallied (Traffic.start defaultTtl maxEntries now : Traffic T α ε) where
  nodup := List.nodup_nil
  started _ hn := by cases hn

/-- No call starts and the calls are the same, some of which may have ended. -/
theorem of_perm (h : c.Tallied) (hcalls : c'.calls.Perm c.calls) (htime : c.time ≤ c'.time) :
    c'.Tallied where
  nodup := hcalls.nodup_iff.mpr h.nodup
  started n hn := Nat.lt_of_lt_of_le (h.started n (hcalls.subset hn)) htime

/-- The step starts a call. -/
theorem of_perm_cons (h : c.Tallied) (hcalls : c'.calls.Perm (c.time :: c.calls))
    (htime : c'.time = c.time + 1) : c'.Tallied where
  nodup := by
    rw [hcalls.nodup_iff, List.nodup_cons]
    refine ⟨?_, h.nodup⟩
    intro hmem
    exact Nat.lt_irrefl _ (h.started _ hmem)
  started := by
    intro n hn
    rw [htime]
    rcases List.mem_cons.mp (hcalls.subset hn) with rfl | hn
    · exact Nat.lt_succ_self _
    · exact Nat.lt_succ_of_lt (h.started n hn)

/-- Calls that end are counted among those that have ended. -/
theorem calls_settle (h : c.Tallied) {call : Nat} {l : Lead T} (hl : (call, l) ∈ c.leading)
    (o : Outcome α ε) : (c.settle call l o).calls.Perm c.calls := by
  have hleading : (c.leading.map Prod.fst).Nodup :=
    h.nodup.of_append_right.of_append_left
  have hends := perm_cons_filter_fst hl hleading
  let joined := c.waiting.filter (·.2 == l.ticket)
  let others := c.waiting.filter (·.2 != l.ticket)
  let going := (c.leading.filter (·.1 != call)).map Prod.fst
  have hwaiting : (joined.map Prod.fst ++ others.map Prod.fst).Perm (c.waiting.map Prod.fst) := by
    rw [← List.map_append]
    exact (List.filter_append_perm _ c.waiting).map Prod.fst
  have hreturned : (joined.map fun w => (⟨w.1, o⟩ : Return α ε)).map Return.call =
      joined.map Prod.fst := by
    rw [List.map_map]
    rfl
  unfold Traffic.calls Traffic.settle
  rw [List.map_append, List.map_cons, hreturned, List.append_assoc]
  refine List.Perm.append_left _ ?_
  calc call :: joined.map Prod.fst ++ (going ++ others.map Prod.fst)
      = call :: (joined.map Prod.fst ++ going ++ others.map Prod.fst) := by simp
    _ |>.Perm (call :: (going ++ joined.map Prod.fst ++ others.map Prod.fst)) :=
      (List.perm_append_comm.append_right _).cons _
    _ = (call :: going) ++ (joined.map Prod.fst ++ others.map Prod.fst) := by simp
    _ |>.Perm (c.leading.map Prod.fst ++ c.waiting.map Prod.fst) := hends.symm.append hwaiting

/-- A call that is answered at once is one more call. -/
theorem calls_answer (c : Traffic T α ε) (o : Outcome α ε) :
    (c.answer o).calls.Perm (c.time :: c.calls) := by
  simp only [Traffic.calls, Traffic.answer, List.map_append, List.map_cons, List.map_nil,
    List.append_assoc, List.singleton_append]
  exact List.perm_middle

/-- A call that has ended neither computes nor waits. -/
theorem disjoint (h : c.Tallied) {n : Nat} {o : Outcome α ε} (hr : ⟨n, o⟩ ∈ c.returns) :
    (∀ l, (n, l) ∉ c.leading) ∧ ∀ k, (n, k) ∉ c.waiting := by
  have hn : n ∈ c.returns.map Return.call := List.mem_map_of_mem hr
  have hapart := List.disjoint_of_nodup_append h.nodup
  constructor
  · intro l hl
    exact hapart hn (List.mem_append_left _ (List.mem_map_of_mem hl))
  · intro k hk
    exact hapart hn (List.mem_append_right _ (List.mem_map_of_mem hk))

theorem outcome_unique (h : c.Tallied) {n : Nat} {o o' : Outcome α ε} (ho : ⟨n, o⟩ ∈ c.returns)
    (ho' : ⟨n, o'⟩ ∈ c.returns) : o = o' := by
  have hsame := List.inj_on_of_nodup_map h.nodup.of_append_left ho ho' rfl
  cases hsame
  rfl

variable [LE T] [DecidableLE T] [LT T] [DecidableLT T] [Add T]

theorem after (h : c.Tallied) (x : Step T α ε) : (c.after x).Tallied := by
  cases x with
  | getOrSet key ttl tags =>
    simp only [Traffic.after, Traffic.take]
    split
    · exact h.of_perm_cons (calls_answer { c with store := _ } _) rfl
    · refine h.of_perm_cons ?_ rfl
      simp only [Traffic.calls, List.map_append, List.map_cons, List.map_nil, ← List.append_assoc]
      exact List.perm_append_singleton _ _
    · refine h.of_perm_cons ?_ rfl
      simp only [Traffic.calls, List.map_append, List.map_cons, List.map_nil]
      have hnew := List.perm_append_singleton c.time (c.leading.map Prod.fst)
      exact ((hnew.append_right _).append_left _).trans List.perm_middle
  | finish call v =>
    simp only [Traffic.after, Traffic.take]
    split
    · rename_i l hl
      exact h.of_perm (h.calls_settle (mem_of_lookup hl) (.value v)) (Nat.le_succ _)
    · exact h.of_perm (.refl _) (Nat.le_succ _)
  | fail call e =>
    simp only [Traffic.after, Traffic.take]
    split
    · rename_i l hl
      exact h.of_perm (h.calls_settle (mem_of_lookup hl) (.raised e)) (Nat.le_succ _)
    · exact h.of_perm (.refl _) (Nat.le_succ _)
  | get key => exact h.of_perm_cons (calls_answer { c with store := _ } _) rfl
  | _ => exact h.of_perm (.refl _) (Nat.le_succ _)

theorem run (h : c.Tallied) (xs : List (Step T α ε)) : (c.run xs).Tallied := by
  induction xs generalizing c with
  | nil => exact h
  | cons x rest ih => exact ih (h.after x)

end Traffic.Tallied

section Joining
variable [LE T] [DecidableLE T] [LT T] [DecidableLT T] [Add T]

theorem Traffic.returns_subset_after (c : Traffic T α ε) (x : Step T α ε) :
    c.returns ⊆ (c.after x).returns := by
  cases x with
  | getOrSet key ttl tags =>
    simp only [Traffic.after, Traffic.take]
    split
    · exact List.subset_append_left _ _
    · exact List.Subset.refl _
    · exact List.Subset.refl _
  | finish call v =>
    simp only [Traffic.after, Traffic.take]
    split
    · exact List.subset_append_left _ _
    · exact List.Subset.refl _
  | fail call e =>
    simp only [Traffic.after, Traffic.take]
    split
    · exact List.subset_append_left _ _
    · exact List.Subset.refl _
  | get key => exact List.subset_append_left _ _
  | _ => exact List.Subset.refl _

theorem Traffic.returns_subset_run (c : Traffic T α ε) (xs : List (Step T α ε)) :
    c.returns ⊆ (c.run xs).returns := by
  induction xs generalizing c with
  | nil => exact List.Subset.refl _
  | cons x rest ih => exact List.Subset.trans (c.returns_subset_after x) (ih (c.after x))

namespace Traffic.Sound
variable {xs : List (Step T α ε)} {c : Traffic T α ε} {p s : Nat}

/-- The end of a computation, with a value or without, is the end of those who wait for it. -/
theorem returns_of_end (h : Sound xs c) {x : Step T α ε} {o : Outcome α ε} (hx : x.Ends p o)
    (hp : c.Leads p) (hs : s = p ∨ c.Awaits s p) : ⟨s, o⟩ ∈ (c.after x).returns := by
  obtain ⟨l, hl⟩ := hp
  obtain ⟨m, hlook⟩ : ∃ m, c.leading.lookup p = some m := by
    cases hlook : c.leading.lookup p with
    | some m => exact ⟨m, rfl⟩
    | none =>
      have hne := List.lookup_eq_none_iff.mp hlook (p, l) hl
      simp at hne
  have hm := mem_of_lookup hlook
  have hends : ∀ s', ⟨s, o⟩ ∈ ({ c with store := s' }.settle p m o).returns := by
    intro s'
    apply List.mem_append_right
    rcases hs with rfl | ⟨n, hn, hw⟩
    · exact List.mem_cons_self
    · obtain rfl := (h.unique hn hm (.inl rfl)).2
      refine List.mem_cons_of_mem _ (List.mem_map.mpr ⟨(s, n.ticket), ?_, rfl⟩)
      exact List.mem_filter.mpr ⟨hw, by simp⟩
  cases hx with
  | finish call v =>
    simp only [Traffic.after, Traffic.take, hlook]
    exact hends _
  | fail call e =>
    simp only [Traffic.after, Traffic.take, hlook]
    exact hends _

omit [LE T] [DecidableLE T] [LT T] [DecidableLT T] [Add T] in
/-- A step that ends another call leaves a leader and those who wait for it as they are. -/
theorem awaits_settle (h : Sound xs c) {call : Nat} {l : Lead T} (hl : (call, l) ∈ c.leading)
    (hne : p ≠ call) (hs : c.Awaits s p) (o : Outcome α ε) (s' : Store T α) :
    ({ c with store := s' }.settle call l o).Awaits s p := by
  obtain ⟨m, hm, hw⟩ := hs
  have ht : m.ticket ≠ l.ticket := by
    intro ht
    exact hne (h.unique hm hl (.inr ht)).1
  exact ⟨m, List.mem_filter.mpr ⟨hm, by simpa using hne⟩,
    List.mem_filter.mpr ⟨hw, by simpa using ht⟩⟩

/-- A call that waits goes on waiting for the same leader until that one ends. -/
theorem awaits_after (h : Sound xs c) (hs : c.Awaits s p) (x : Step T α ε) :
    (c.after x).Awaits s p ∨ ∃ o, x.Ends p o := by
  obtain ⟨m, hm, hw⟩ := hs
  cases x with
  | getOrSet key ttl tags =>
    left
    simp only [Traffic.after, Traffic.take]
    split
    · exact ⟨m, hm, hw⟩
    · exact ⟨m, hm, List.mem_append_left _ hw⟩
    · exact ⟨m, List.mem_append_left _ hm, hw⟩
  | finish call v =>
    by_cases hp : p = call
    · exact .inr ⟨.value v, hp ▸ .finish call v⟩
    left
    simp only [Traffic.after, Traffic.take]
    split
    · rename_i l hl
      exact h.awaits_settle (mem_of_lookup hl) hp ⟨m, hm, hw⟩ (.value v) _
    · exact ⟨m, hm, hw⟩
  | fail call e =>
    by_cases hp : p = call
    · exact .inr ⟨.raised e, hp ▸ .fail call e⟩
    left
    simp only [Traffic.after, Traffic.take]
    split
    · rename_i l hl
      exact h.awaits_settle (mem_of_lookup hl) hp ⟨m, hm, hw⟩ (.raised e) _
    · exact ⟨m, hm, hw⟩
  | _ => exact .inl ⟨m, hm, hw⟩

/-- Along any steps that follow, a call that waits goes on waiting, or its leader has ended and
both have got one outcome. -/
theorem awaits_run (h : Sound xs c) (hs : c.Awaits s p) (ys : List (Step T α ε)) :
    (c.run ys).Awaits s p ∨ ∃ x ∈ ys, ∃ o, x.Ends p o ∧ ⟨p, o⟩ ∈ (c.run ys).returns ∧
      ⟨s, o⟩ ∈ (c.run ys).returns := by
  induction ys generalizing xs c with
  | nil => exact .inl hs
  | cons y rest ih =>
    rcases h.awaits_after hs y with hs' | ⟨o, hend⟩
    · rcases ih (h.after y) hs' with hwait | ⟨x, hx, o, hrest⟩
      · exact .inl hwait
      · exact .inr ⟨x, List.mem_cons_of_mem _ hx, o, hrest⟩
    · have hlater := (c.after y).returns_subset_run rest
      obtain ⟨m, hm, hw⟩ := hs
      refine .inr ⟨y, List.mem_cons_self, o, hend, ?_, ?_⟩
      · exact hlater (h.returns_of_end hend ⟨m, hm⟩ (.inl rfl))
      · exact hlater (h.returns_of_end hend ⟨m, hm⟩ (.inr ⟨m, hm, hw⟩))

/-- A call that joins a flight waits for the leader of that flight, which leads the same key. -/
theorem awaits_of_joined (h : Sound xs c) {key : String} {ttl : Option T} {tags : List String}
    {ticket : Nat} {s' : Store T α} (hb : c.store.begin c.now key ttl tags = (.joined ticket, s')) :
    ∃ p l, (p, l) ∈ c.leading ∧ l.key = key ∧
      (c.after (.getOrSet key ttl tags)).Awaits xs.length p := by
  rcases c.store.begin_cases c.now key ttl tags with
    ⟨v, held, _, hb', _⟩ | ⟨f, _, hb', hf, hkey, _⟩ | ⟨_, hb', _⟩
  · cases hb.symm.trans hb'
  · have hticket : f.ticket = ticket := by
      cases hb.symm.trans hb'
      rfl
    obtain ⟨p, l, hl, hk, ht, _⟩ := h.flights f hf
    refine ⟨p, l, hl, hk.trans hkey, l, ?_, ?_⟩
    · simp only [Traffic.after, Traffic.take, hb]
      exact hl
    · simp only [Traffic.after, Traffic.take, hb]
      rw [ht, hticket, h.time]
      exact List.mem_append_right _ (List.mem_singleton_self _)
  · cases hb.symm.trans hb'

end Traffic.Sound

end Joining

namespace Traffic
variable {xs : List (Step T α ε)} {c : Traffic T α ε}

variable [LE T] [DecidableLE T] [LT T] [DecidableLT T] [Add T]

/-- The end of a leader leaves the flights of the others registered. -/
theorem Registered.after_end (hc : c.Sound xs) {p q : Nat} {f : Flight} (h : c.Registered q f)
    (hne : q ≠ p) {x : Step T α ε} {o : Outcome α ε} (hx : x.Ends p o) :
    (c.after x).Registered q f := by
  obtain ⟨hf, m, hm, ht⟩ := h
  have hsettled : ∀ {l : Lead T} {s' : Store T α}, (p, l) ∈ c.leading →
      s'.flights = (c.store.land l).flights →
      Registered ({ c with store := s' }.settle p l o) q f := by
    intro l s' hl hflights
    have hticket : f.ticket ≠ l.ticket := by
      intro heq
      exact hne (hc.unique hm hl (.inr (ht.trans heq))).1
    refine ⟨?_, m, List.mem_filter.mpr ⟨hm, by simpa using hne⟩, ht⟩
    change f ∈ s'.flights
    rw [hflights]
    exact List.mem_filter.mpr ⟨hf, by simpa using hticket⟩
  cases hx with
  | finish call v =>
    simp only [Traffic.after, Traffic.take]
    split
    · rename_i l hl
      exact hsettled (mem_of_lookup hl) (c.store.flights_finish c.now l v)
    · exact ⟨hf, m, hm, ht⟩
  | fail call e =>
    simp only [Traffic.after, Traffic.take]
    split
    · rename_i l hl
      exact hsettled (mem_of_lookup hl) rfl
    · exact ⟨hf, m, hm, ht⟩

theorem entries_after_fail (c : Traffic T α ε) (call : Nat) (e : ε) :
    (c.after (.fail call e)).store.entries = c.store.entries := by
  simp only [Traffic.after, Traffic.take]
  split <;> rfl

end Traffic

variable [LE T] [DecidableLE T] [LT T] [DecidableLT T] [Add T]

/-- At any moment of a run from an empty cache: if two calls lead one key, something dropped the
tags of the earlier one before the later one started; a call that joined a flight waits for the
leader of that flight, or both have got the one outcome with which the leader ended, and no other;
the end of a leader leaves the flights of all others registered, and without a value it adds nothing
to the cache. -/
theorem leaders_end_for_their_own (defaultTtl : T) (maxEntries : Int) (now : T)
    (xs : List (Step T α ε)) :
    let moment (n : Nat) : Traffic T α ε :=
      (Traffic.start defaultTtl maxEntries now).run (xs.take n)
    let c := (Traffic.start defaultTtl maxEntries now).run xs
    (∀ p l q m, (p, l) ∈ c.leading → (q, m) ∈ c.leading → l.key = m.key → p < q →
      ∃ i x, p < i ∧ i < q ∧ xs[i]? = some x ∧ x.Drops l.tags) ∧
    (∀ s key ttl tags ticket store, xs[s]? = some (.getOrSet key ttl tags) →
      (moment s).store.begin (moment s).now key ttl tags = (.joined ticket, store) →
      ∃ p l, (p, l) ∈ (moment s).leading ∧ l.key = key ∧ (moment (s + 1)).Awaits s p) ∧
    (∀ n s p, (moment n).Awaits s p →
      (c.Awaits s p ∧ ∀ o, ⟨s, o⟩ ∉ c.returns ∧ ⟨p, o⟩ ∉ c.returns) ∨
      ∃ x ∈ xs.drop n, ∃ o, x.Ends p o ∧
        ∀ o', (⟨s, o'⟩ ∈ c.returns ↔ o' = o) ∧ (⟨p, o'⟩ ∈ c.returns ↔ o' = o)) ∧
    (c.returns.map Return.call).Nodup ∧
    (∀ p q f x o, c.Registered q f → q ≠ p → x.Ends p o → (c.after x).Registered q f) ∧
    (∀ p e, (c.after (.fail p e)).store.entries = c.store.entries) := by
  intro moment c
  have hstart : (Traffic.start defaultTtl maxEntries now : Traffic T α ε).Sound [] :=
    Traffic.Sound.start defaultTtl maxEntries now
  have hmoment : ∀ n, (moment n).Sound (xs.take n) := fun n => hstart.run (xs.take n)
  have hsound : c.Sound xs := hstart.run xs
  have hapart : c.Apart xs := (Traffic.Apart.start defaultTtl maxEntries now).run hstart xs
  have htallied : c.Tallied := (Traffic.Tallied.start defaultTtl maxEntries now).run xs
  refine ⟨?_, ?_, ?_, htallied.nodup.of_append_left, ?_, c.entries_after_fail⟩
  · intro p l q m hl hm hkey hlt
    exact exists_drop_of_not_undisturbed (hapart.dropped hl hm hkey hlt)
  · intro s key ttl tags ticket store hs hb
    obtain ⟨p, l, hl, hkey, hawaits⟩ := (hmoment s).awaits_of_joined hb
    have hlength : (xs.take s).length = s :=
      List.length_take_of_le (Nat.le_of_lt (List.getElem?_eq_some_iff.mp hs).1)
    have hnext : moment (s + 1) = (moment s).after (.getOrSet key ttl tags) := by
      unfold moment Traffic.run
      rw [List.take_add_one, hs, Option.toList_some, List.foldl_append, List.foldl_cons,
        List.foldl_nil]
    rw [hlength] at hawaits
    exact ⟨p, l, hl, hkey, hnext ▸ hawaits⟩
  · intro n s p hwait
    have hrest : (moment n).run (xs.drop n) = c := by
      unfold moment c Traffic.run
      rw [← List.foldl_append, List.take_append_drop]
    rcases (hmoment n).awaits_run hwait (xs.drop n) with hstill | ⟨x, hx, o, hend, hp, hs⟩
    · left
      rw [hrest] at hstill
      obtain ⟨l, hl, hw⟩ := hstill
      refine ⟨⟨l, hl, hw⟩, fun o => ⟨?_, ?_⟩⟩
      · intro hr
        exact (htallied.disjoint hr).2 _ hw
      · intro hr
        exact (htallied.disjoint hr).1 _ hl
    · right
      rw [hrest] at hp hs
      refine ⟨x, hx, o, hend, fun o' => ⟨⟨?_, ?_⟩, ⟨?_, ?_⟩⟩⟩
      · exact fun hs' => htallied.outcome_unique hs' hs
      · rintro rfl
        exact hs
      · exact fun hp' => htallied.outcome_unique hp' hp
      · rintro rfl
        exact hp
  · intro p q f x o hreg hne hend
    exact hreg.after_end hsound hne hend

/-- The tag of a leader is dropped, a second one starts beside it and is joined, and then the first
fails: its own caller and the call that joined it get the failure, and the second goes on. -/
theorem leaders_end_for_their_own_when_one_is_detached :
    let xs : List (Step Nat Nat String) :=
      [.getOrSet "k" none ["a"], .getOrSet "k" none [], .removeByTags ["a"],
        .getOrSet "k" none ["a"], .getOrSet "k" none []]
    let c := (Traffic.start 300 8 0).run xs
    let failed := (Traffic.start 300 8 0).run (xs ++ [.fail 0 "no"])
    c.leading.map Prod.fst = [0, 3] ∧
      (∃ i x, 0 < i ∧ i < 3 ∧ xs[i]? = some x ∧ x.Drops ["a"]) ∧
      failed.Awaits 4 3 ∧ failed.Registered 3 ⟨"k", 1, ["a"]⟩ ∧ failed.store.entries = [] ∧
      ∀ o, (⟨1, o⟩ ∈ failed.returns ↔ o = .raised "no") ∧
        (⟨0, o⟩ ∈ failed.returns ↔ o = .raised "no") := by
  intro xs c failed
  obtain ⟨hdropped, _, _, _, hregistered, hentries⟩ := leaders_end_for_their_own 300 8 0 xs
  obtain ⟨_, _, houtcome, _⟩ := leaders_end_for_their_own 300 8 0 (xs ++ [.fail 0 "no"])
  have hwaits : failed.Awaits 4 3 :=
    ⟨⟨"k", 1, none, ["a"], [1], 0⟩, List.mem_singleton.mpr rfl, List.mem_singleton.mpr rfl⟩
  refine ⟨rfl, ?_, hwaits, ?_, hentries 0 "no", ?_⟩
  · exact hdropped 0 ⟨"k", 0, none, ["a"], [0], 0⟩ 3 ⟨"k", 1, none, ["a"], [1], 0⟩
      List.mem_cons_self (List.mem_cons_of_mem _ List.mem_cons_self) rfl (by decide)
  · exact hregistered 0 3 ⟨"k", 1, ["a"]⟩ (.fail 0 "no") (.raised "no")
      ⟨List.mem_singleton.mpr rfl, _, List.mem_cons_of_mem _ List.mem_cons_self, rfl⟩ (by decide)
      (.fail 0 "no")
  · rcases houtcome 2 1 0 ⟨_, List.mem_cons_self, List.mem_cons_self⟩ with
      ⟨_, hnone⟩ | ⟨x, hx, o, hend, hboth⟩
    · exact absurd (List.mem_cons_self) (hnone (.raised "no")).2
    · have hraised := ((hboth (.raised "no")).2).mp List.mem_cons_self
      rw [← hraised] at hboth
      exact hboth

end DatasetCatalog.Cache
