import DatasetCatalog.Proofs.Cache.Flights
import DatasetCatalog.Proofs.Cache.Relabel

/-!
# Freshness

Whatever the order of the steps, a computed value that the cache gives to a call was computed by a
leader since whose start nothing has dropped its tags. A leader whose tags are dropped still
answers its own call and those that joined it.
-/

namespace DatasetCatalog.Cache

variable {T α ε : Type}

namespace Traffic.Accounts
variable {xs : List (Step T α ε)} {c d : Traffic T α ε} {w : Nat}

theorem mono (h : c.Accounts w) (hreturns : c.returns ⊆ d.returns)
    (hleading : c.leading ⊆ d.leading) (hwaiting : c.waiting ⊆ d.waiting) : d.Accounts w := by
  rcases h with ⟨o, ho⟩ | ⟨l, hl⟩ | ⟨p, l, hl, hw⟩
  · exact .inl ⟨o, hreturns ho⟩
  · exact .inr (.inl ⟨l, hleading hl⟩)
  · exact .inr (.inr ⟨p, l, hleading hl, hwaiting hw⟩)

/-- Calls that end are returned to, and those that wait for another leader go on waiting. -/
theorem settle (h : c.Accounts w) (hc : c.Sound xs) {call : Nat} {l : Lead T}
    (hl : (call, l) ∈ c.leading) (o : Outcome α ε) (s' : Store T α) :
    ({ c with store := s' }.settle call l o).Accounts w := by
  rcases h with ⟨o', ho⟩ | ⟨m, hm⟩ | ⟨p, m, hm, hw⟩
  · exact .inl ⟨o', List.mem_append_left _ ho⟩
  · by_cases hcall : w = call
    · subst hcall
      exact .inl ⟨o, List.mem_append_right _ List.mem_cons_self⟩
    · exact .inr (.inl ⟨m, List.mem_filter.mpr ⟨hm, by simpa using hcall⟩⟩)
  · by_cases ht : m.ticket = l.ticket
    · refine .inl ⟨o, List.mem_append_right _ (List.mem_cons_of_mem _ (List.mem_map.mpr ?_))⟩
      exact ⟨(w, m.ticket), List.mem_filter.mpr ⟨hw, by simpa using ht⟩, rfl⟩
    · have hp : p ≠ call := by
        rintro rfl
        exact ht (congrArg Lead.ticket (hc.unique hm hl (.inl rfl)).2)
      exact .inr (.inr ⟨p, m, List.mem_filter.mpr ⟨hm, by simpa using hp⟩,
        List.mem_filter.mpr ⟨hw, by simpa using ht⟩⟩)

variable [LE T] [DecidableLE T] [LT T] [DecidableLT T] [Add T]

theorem after (h : c.Accounts w) (hc : c.Sound xs) (x : Step T α ε) :
    (c.after x).Accounts w := by
  cases x with
  | getOrSet key ttl tags =>
    simp only [Traffic.after, Traffic.take]
    split
    · exact h.mono (List.subset_append_left _ _) (List.Subset.refl _) (List.Subset.refl _)
    · exact h.mono (List.Subset.refl _) (List.Subset.refl _) (List.subset_append_left _ _)
    · exact h.mono (List.Subset.refl _) (List.subset_append_left _ _) (List.Subset.refl _)
  | finish call v =>
    simp only [Traffic.after, Traffic.take]
    split
    · rename_i l hl
      exact h.settle hc (mem_of_lookup hl) (.value v) _
    · exact h
  | fail call e =>
    simp only [Traffic.after, Traffic.take]
    split
    · rename_i l hl
      exact h.settle hc (mem_of_lookup hl) (.raised e) _
    · exact h
  | get key =>
    exact h.mono (List.subset_append_left _ _) (List.Subset.refl _) (List.Subset.refl _)
  | _ => exact h

theorem first (hc : c.Sound xs) (key : String) (ttl : Option T) (tags : List String) :
    (c.after (.getOrSet key ttl tags)).Accounts c.time := by
  rcases c.store.begin_cases c.now key ttl tags with
    ⟨v, held, s', hb, _⟩ | ⟨f, s', hb, hf, _⟩ | ⟨s', hb, _⟩
  · simp only [Traffic.after, Traffic.take, hb]
    exact .inl ⟨.value v, List.mem_append_right _ (List.mem_singleton.mpr rfl)⟩
  · simp only [Traffic.after, Traffic.take, hb]
    obtain ⟨p, l, hl, _, ht, _⟩ := hc.flights f hf
    refine .inr (.inr ⟨p, l, hl, List.mem_append_right _ (List.mem_singleton.mpr ?_)⟩)
    rw [ht]
  · simp only [Traffic.after, Traffic.take, hb]
    exact .inr (.inl ⟨_, List.mem_append_right _ (List.mem_singleton.mpr rfl)⟩)

/-- No call is lost in a run. -/
theorem run (hc : c.Sound xs)
    (h : ∀ {call key ttl tags}, xs[call]? = some (.getOrSet key ttl tags) → c.Accounts call)
    (ys : List (Step T α ε)) {call : Nat} {key : String} {ttl : Option T} {tags : List String}
    (hcall : (xs ++ ys)[call]? = some (.getOrSet key ttl tags)) : (c.run ys).Accounts call := by
  induction ys generalizing xs c with
  | nil => exact h (by rwa [List.append_nil] at hcall)
  | cons y rest ih =>
    refine ih (hc.after y) ?_ (by rwa [List.append_assoc])
    intro call' key' ttl' tags' hcall'
    rcases Nat.lt_or_ge call' xs.length with hlt | hge
    · rw [List.getElem?_append_left hlt] at hcall'
      exact (h hcall').after hc y
    · have hlt := (List.getElem?_eq_some_iff.mp hcall').1
      have hnew : call' = xs.length := by
        simp only [List.length_append, List.length_singleton] at hlt
        omega
      subst hnew
      rw [List.getElem?_concat_length] at hcall'
      cases hcall'
      exact hc.time ▸ first hc key' ttl' tags'

end Traffic.Accounts

namespace Traffic.Sound
variable {xs : List (Step T α ε)} {c : Traffic T α ε}

/-- A computation that ends with a value gives it to its own call and to all that wait for it,
whether or not the value may be kept. -/
theorem returns_of_finish [LE T] [DecidableLE T] [LT T] [DecidableLT T] [Add T]
    (h : Sound xs c) {p s : Nat} (v : α) (hp : c.Leads p) (hs : s = p ∨ c.Awaits s p) :
    ⟨s, .value v⟩ ∈ (c.after (.finish p v)).returns :=
  h.returns_of_end (.finish p v) hp hs

end Traffic.Sound

section Marks
variable {xs : List (Step T α ε)}

theorem getElem?_marked {i : Nat} {y : Step T (Marked α) ε}
    (h : (xs.map Step.marked)[i]? = some y) : ∃ x, xs[i]? = some x ∧ x.marked = y := by
  rw [List.getElem?_map] at h
  exact Option.map_eq_some_iff.mp h

theorem undisturbed_of_marked {start stop : Nat} {tags : List String}
    (h : Undisturbed (xs.map Step.marked) start stop tags) : Undisturbed xs start stop tags := by
  intro i x hstart hi hx hdrop
  apply h i x.marked hstart hi
  · rw [List.getElem?_map, hx]
    rfl
  · exact (x.drops_marked tags).mpr hdrop

/-- The mark of a value names the leader that it comes from. -/
theorem Origin.of_marked {key : String} {v : Marked α} {tags : List String} {stop p : Nat}
    (h : Origin (xs.map Step.marked) key v tags stop) (hv : v.leader = some p) :
    p ≤ stop ∧ (∃ ttl, xs[p]? = some (.getOrSet key ttl tags)) ∧
      Undisturbed xs p stop tags := by
  cases h with
  | set hi =>
    obtain ⟨x, _, hx⟩ := getElem?_marked hi
    cases x <;> cases hx
    cases hv
  | computed hp hi _ hle hu =>
    obtain ⟨x, _, hx⟩ := getElem?_marked hi
    cases x <;> cases hx
    cases hv
    obtain ⟨y, hy, hy'⟩ := getElem?_marked hp
    cases y <;> cases hy'
    exact ⟨hle, ⟨_, hy⟩, undisturbed_of_marked hu⟩

end Marks

variable [LE T] [DecidableLE T] [LT T] [DecidableLT T] [Add T]

/-- In a run from an empty cache, with each value marked by the call that computed it: a call that
starts at step `s` and gets a value of the leader that started at step `p` sees nothing dropped
that has the leader's tags between the two; what is held of a leader has seen nothing dropped
since; no call is lost, and a computation that ends gives its value to its own call and to those
that wait for it. -/
theorem computed_values_are_fresh (defaultTtl : T) (maxEntries : Int) (now : T)
    (xs : List (Step T α ε)) :
    let plain := (Traffic.start defaultTtl maxEntries now : Traffic T α ε).run xs
    let marked := (Traffic.start defaultTtl maxEntries now : Traffic T (Marked α) ε).run
      (xs.map Step.marked)
    plain = marked.map Marked.value ∧
    (∀ s v p, ⟨s, .value ⟨v, some p⟩⟩ ∈ marked.returns →
      ∃ x key ttl tags, xs[s]? = some x ∧ x.Asks key ∧ p ≤ s ∧
        xs[p]? = some (.getOrSet key ttl tags) ∧ Undisturbed xs p s tags) ∧
    (∀ e ∈ marked.store.entries, ∀ p, e.value.leader = some p →
      (∃ ttl, xs[p]? = some (.getOrSet e.key ttl e.tags)) ∧
        Undisturbed xs p xs.length e.tags) ∧
    (∀ s key ttl tags, xs[s]? = some (.getOrSet key ttl tags) → plain.Accounts s) ∧
    (∀ p s v, plain.Leads p → s = p ∨ plain.Awaits s p →
      ⟨s, .value v⟩ ∈ (plain.after (.finish p v)).returns) := by
  intro plain marked
  have hplain : plain.Sound xs := (Traffic.Sound.start defaultTtl maxEntries now).run xs
  have hmarked : marked.Sound (xs.map Step.marked) :=
    (Traffic.Sound.start defaultTtl maxEntries now).run (xs.map Step.marked)
  refine ⟨?_, ?_, ?_, ?_, ?_⟩
  · exact (Traffic.map_run_marked (Traffic.start defaultTtl maxEntries now) xs).symm
  · intro s v p hr
    obtain ⟨y, key, tags, hy, hasks, ho⟩ := hmarked.returns hr
    obtain ⟨hle, ⟨ttl, hp⟩, hu⟩ := ho.of_marked rfl
    obtain ⟨x, hx, rfl⟩ := getElem?_marked hy
    refine ⟨x, key, ttl, tags, hx, ?_, hle, hp, hu⟩
    cases x <;> exact hasks
  · intro e he p hp
    obtain ⟨_, hstart, hu⟩ := (hmarked.holds ⟨e, he, rfl, rfl, rfl⟩).of_marked hp
    rw [List.length_map] at hu
    exact ⟨hstart, hu⟩
  · intro s key ttl tags hs
    exact Traffic.Accounts.run (Traffic.Sound.start defaultTtl maxEntries now)
      (fun hcall => by simp at hcall) xs hs
  · intro p s v hp hs
    exact hplain.returns_of_finish v hp hs

/-- The tag of a leader is dropped while it computes: its call and the one that joined it get the
value all the same, and the next call finds nothing. -/
theorem computed_values_are_fresh_when_dropped :
    let xs : List (Step Nat Nat Unit) :=
      [.getOrSet "k" none ["a"], .getOrSet "k" none [], .removeByTags ["a"], .finish 0 7, .get "k"]
    let plain := (Traffic.start 300 8 0).run xs
    let marked := (Traffic.start 300 8 0).run (xs.map Step.marked)
    marked.returns = [⟨0, .value ⟨7, some 0⟩⟩, ⟨1, .value ⟨7, some 0⟩⟩, ⟨4, .missing⟩] ∧
      plain = marked.map Marked.value ∧
      ∃ x key ttl tags, xs[1]? = some x ∧ x.Asks key ∧ 0 ≤ 1 ∧
        xs[0]? = some (.getOrSet key ttl tags) ∧ Undisturbed xs 0 1 tags := by
  intro xs plain marked
  have hreturns : marked.returns =
      [⟨0, .value ⟨7, some 0⟩⟩, ⟨1, .value ⟨7, some 0⟩⟩, ⟨4, .missing⟩] := by rfl
  obtain ⟨hplain, hfresh, _⟩ := computed_values_are_fresh 300 8 0 xs
  refine ⟨hreturns, hplain, hfresh 1 7 0 ?_⟩
  change _ ∈ marked.returns
  rw [hreturns]
  simp
end DatasetCatalog.Cache
