import DatasetCatalog.Proofs.Cache.Traffic

/-!
# Renaming values

No operation of the cache looks at the values, so a function on values goes through every one of
them and through any traffic. Marks may therefore be put on values without a change to what
happens.
-/

namespace DatasetCatalog.Cache

variable {T α β ε : Type} (f : α → β)

def Entry.map (e : Entry T α) : Entry T β := { e with value := f e.value }

def Store.map (s : Store T α) : Store T β := { s with entries := s.entries.map (Entry.map f) }

def Begun.map : Begun T α → Begun T β
  | .hit v => .hit (f v)
  | .joined ticket => .joined ticket
  | .leads lead => .leads lead

def Outcome.map : Outcome α ε → Outcome β ε
  | .value v => .value (f v)
  | .missing => .missing
  | .raised e => .raised e

def Return.map (r : Return α ε) : Return β ε := ⟨r.call, r.outcome.map f⟩

def Step.map : Step T α ε → Step T β ε
  | .getOrSet key ttl tags => .getOrSet key ttl tags
  | .finish call v => .finish call (f v)
  | .fail call e => .fail call e
  | .get key => .get key
  | .set key v ttl tags => .set key (f v) ttl tags
  | .remove key => .remove key
  | .removeByTags tags => .removeByTags tags
  | .clear => .clear
  | .cleanup => .cleanup
  | .clock now => .clock now

def Traffic.map (c : Traffic T α ε) : Traffic T β ε :=
  { c with store := c.store.map f, returns := c.returns.map (Return.map f) }

theorem Store.entry?_map (s : Store T α) (key : String) :
    Store.entry? (s.map f) key = (s.entry? key).map (Entry.map f) := by
  simp only [Store.entry?, Store.map, List.find?_map]
  rfl

theorem Store.without_map (s : Store T α) (key : String) :
    (s.map f).without key = (s.without key).map f := by
  simp only [Store.without, Store.map, List.filter_map]
  rfl

/-- The same holds of what is done to the entries of one key. -/
theorem map_atKey (key : String) {g : Entry T α → Entry T α} {g' : Entry T β → Entry T β}
    (hg : ∀ e : Entry T α, g' (e.map f) = (g e).map f) (es : List (Entry T α)) :
    ((es.map (Entry.map f)).map fun e => if e.key == key then g' e else e) =
      (es.map fun e => if e.key == key then g e else e).map (Entry.map f) := by
  rw [List.map_map, List.map_map]
  apply List.map_congr_left
  intro e _
  change (if e.key == key then g' (e.map f) else e.map f) =
    (if e.key == key then g e else e).map f
  split
  · exact hg e
  · rfl

section Eviction
variable [LT T] [DecidableLT T]

theorem oldest?_map (es : List (Entry T α)) :
    oldest? (es.map (Entry.map f)) = (oldest? es).map (Entry.map f) := by
  cases es with
  | nil => rfl
  | cons e rest =>
    simp only [List.map_cons, oldest?, Option.map_some, Option.some.injEq]
    induction rest generalizing e with
    | nil => rfl
    | cons d rest ih =>
      have hpick : (if (d.map f).createdAt < (e.map f).createdAt then d.map f else e.map f) =
          (if d.createdAt < e.createdAt then d else e).map f := by
        split <;> split <;> first | rfl | contradiction
      rw [List.map_cons, List.foldl_cons, List.foldl_cons, hpick, ih]

theorem Store.evictOldest_map (s : Store T α) :
    (s.map f).evictOldest = s.evictOldest.map f := by
  have ho : oldest? (s.map f).entries = (oldest? s.entries).map (Entry.map f) :=
    oldest?_map f s.entries
  unfold Store.evictOldest
  rw [ho]
  cases oldest? s.entries with
  | none => rfl
  | some e =>
    change { (s.map f).without e.key with evictions := s.evictions + 1 } = _
    rw [Store.without_map]
    rfl

theorem Store.makeRoom_map (s : Store T α) (key : String) :
    (s.map f).makeRoom key = (s.makeRoom key).map f := by
  unfold Store.makeRoom
  rw [Store.entry?_map, Option.isNone_map, Store.evictOldest_map]
  simp only [Store.map, List.length_map]
  split <;> rfl

theorem Store.shrink_map (n removed : Nat) (s : Store T α) :
    (s.map f).shrink n removed = ((s.shrink n removed).1, (s.shrink n removed).2.map f) := by
  induction n generalizing removed s with
  | zero => rfl
  | succ n ih =>
    have hlen : (s.map f).entries.length = s.entries.length := List.length_map _
    unfold Store.shrink
    rw [hlen, Store.evictOldest_map, ih]
    change (if s.maxEntries < s.entries.length then _ else _) = _
    split <;> rfl

theorem Store.put_map [Add T] (s : Store T α) (now : T) (key : String) (v : α) (ttl : Option T)
    (tags : List String) :
    (s.map f).put now key (f v) ttl tags = (s.put now key v ttl tags).map f := by
  simp only [Store.put]
  rw [Store.makeRoom_map, Store.entry?_map, Option.isSome_map]
  simp only [Store.map]
  congr 1
  split
  · exact map_atKey f key (fun _ => rfl) (s.makeRoom key).entries
  · rw [List.map_append]
    rfl

theorem Store.finish_map [Add T] (s : Store T α) (now : T)
    (lead : Lead T) (v : α) :
    (s.map f).finish now lead (f v) = (s.finish now lead v).map f := by
  have hstale : (s.map f).isStale lead = s.isStale lead := rfl
  unfold Store.finish
  rw [Store.put_map, hstale]
  split <;> rfl

end Eviction

section Expiry
variable [LE T] [DecidableLE T]

theorem Store.cleanup_map [LT T] [DecidableLT T] (s : Store T α) (now : T) :
    ((s.map f).cleanup now).2 = (s.cleanup now).2.map f := by
  let live : Store T α := { s with entries := s.entries.filter (!·.isExpired now) }
  let mapped : Store T β := { s.map f with entries := (s.map f).entries.filter (!·.isExpired now) }
  have hlive : mapped = live.map f := by
    simp only [Store.map, List.filter_map, live, mapped]
    rfl
  have hlen : (live.map f).entries.length = live.entries.length := List.length_map _
  have hexpired : (s.map f).entries.countP (·.isExpired now) =
      s.entries.countP (·.isExpired now) := List.countP_map
  change (mapped.shrink mapped.entries.length _).2 = (live.shrink live.entries.length _).2.map f
  rw [hlive, hlen, Store.shrink_map, hexpired]

theorem Store.lookup_map (s : Store T α) (now : T) (key : String) :
    (s.map f).lookup now key =
      ((s.lookup now key).1.map f, (s.lookup now key).2.map f) := by
  unfold Store.lookup
  rw [Store.entry?_map, Store.without_map]
  cases s.entry? key with
  | none => rfl
  | some e =>
    have hexp : (e.map f).isExpired now = e.isExpired now := rfl
    simp only [Option.map_some, hexp]
    cases e.isExpired now with
    | true => rfl
    | false =>
      simp only [Bool.false_eq_true, if_false, Option.map_some, Store.map, Prod.mk.injEq]
      refine ⟨rfl, ?_⟩
      congr 1
      exact map_atKey f key (fun _ => rfl) s.entries

theorem Store.begin_map (s : Store T α) (now : T) (key : String) (ttl : Option T)
    (tags : List String) :
    (s.map f).begin now key ttl tags =
      ((s.begin now key ttl tags).1.map f, (s.begin now key ttl tags).2.map f) := by
  unfold Store.begin
  rw [Store.lookup_map]
  rcases s.lookup now key with ⟨found, s'⟩
  cases found with
  | some v => rfl
  | none =>
    have hflight : (s'.map f).flight? key = s'.flight? key := rfl
    simp only [Option.map_none, hflight]
    cases s'.flight? key <;> rfl

end Expiry

theorem Store.removeByTags_map (s : Store T α) (tags : List String) :
    ((s.map f).removeByTags tags).2 = (s.removeByTags tags).2.map f := by
  simp only [Store.removeByTags, Store.map, List.filter_map]
  rfl

namespace Traffic

theorem settle_map (c : Traffic T α ε) (call : Nat) (lead : Lead T) (o : Outcome α ε) :
    (c.map f).settle call lead (o.map f) = (c.settle call lead o).map f := by
  simp only [settle, map, List.map_append, List.map_cons, List.map_map]
  rfl

theorem answer_map (c : Traffic T α ε) (o : Outcome α ε) :
    (c.map f).answer (o.map f) = (c.answer o).map f := by
  simp only [answer, map, List.map_append, List.map_cons, List.map_nil]
  rfl

variable [LE T] [DecidableLE T] [LT T] [DecidableLT T] [Add T]

theorem take_map (c : Traffic T α ε) (x : Step T α ε) :
    (c.map f).take (x.map f) = (c.take x).map f := by
  cases x with
  | getOrSet key ttl tags =>
    have hb : (c.map f).store.begin (c.map f).now key ttl tags = _ :=
      Store.begin_map f c.store c.now key ttl tags
    simp only [Step.map, take, hb]
    rcases c.store.begin c.now key ttl tags with ⟨b, s'⟩
    cases b with
    | hit v => exact answer_map f { c with store := s' } (.value v)
    | joined ticket => rfl
    | leads lead => rfl
  | finish call v =>
    have hl : (c.map f).leading = c.leading := rfl
    simp only [Step.map, take, hl]
    cases c.leading.lookup call with
    | none => rfl
    | some lead =>
      have hs : (c.map f).store.finish (c.map f).now lead (f v) = _ :=
        Store.finish_map f c.store c.now lead v
      simp only [hs]
      exact settle_map f { c with store := c.store.finish c.now lead v } call lead (.value v)
  | fail call e =>
    have hl : (c.map f).leading = c.leading := rfl
    simp only [Step.map, take, hl]
    cases c.leading.lookup call with
    | none => rfl
    | some lead => exact settle_map f { c with store := c.store.land lead } call lead (.raised e)
  | get key =>
    have hl : (c.map f).store.lookup (c.map f).now key = _ :=
      Store.lookup_map f c.store c.now key
    simp only [Step.map, take, hl]
    rcases c.store.lookup c.now key with ⟨found, s'⟩
    cases found with
    | none => exact answer_map f { c with store := s' } .missing
    | some v => exact answer_map f { c with store := s' } (.value v)
  | set key v ttl tags =>
    have hs : (c.map f).store.put (c.map f).now key (f v) ttl tags = _ :=
      Store.put_map f c.store c.now key v ttl tags
    simp only [Step.map, take, hs]
    rfl
  | remove key =>
    have hs : (c.map f).store.without key = _ := Store.without_map f c.store key
    simp only [Step.map, take, Store.remove, hs]
    rfl
  | removeByTags tags =>
    have hs : ((c.map f).store.removeByTags tags).2 = _ := Store.removeByTags_map f c.store tags
    simp only [Step.map, take, hs]
    rfl
  | clear => rfl
  | cleanup =>
    have hs : ((c.map f).store.cleanup (c.map f).now).2 = _ :=
      Store.cleanup_map f c.store c.now
    simp only [Step.map, take, hs]
    rfl
  | clock now => rfl

theorem run_map (c : Traffic T α ε) (xs : List (Step T α ε)) :
    (c.map f).run (xs.map (Step.map f)) = (c.run xs).map f := by
  induction xs generalizing c with
  | nil => rfl
  | cons x rest ih =>
    have hx : (c.map f).after (x.map f) = (c.after x).map f := by
      simp only [after, take_map]
      rfl
    change ((c.map f).after (x.map f)).run (rest.map (Step.map f)) = ((c.after x).run rest).map f
    rw [hx, ih]

end Traffic

/-- A value with the call that computed it, if one did. -/
structure Marked (α : Type) where
  value : α
  leader : Option Nat
deriving DecidableEq, Repr

/-- The same step with the values it brings marked. -/
def Step.marked : Step T α ε → Step T (Marked α) ε
  | .getOrSet key ttl tags => .getOrSet key ttl tags
  | .finish call v => .finish call ⟨v, some call⟩
  | .fail call e => .fail call e
  | .get key => .get key
  | .set key v ttl tags => .set key ⟨v, none⟩ ttl tags
  | .remove key => .remove key
  | .removeByTags tags => .removeByTags tags
  | .clear => .clear
  | .cleanup => .cleanup
  | .clock now => .clock now

theorem Step.map_marked (x : Step T α ε) : x.marked.map Marked.value = x := by
  cases x <;> rfl

theorem Step.drops_marked (x : Step T α ε) (tags : List String) :
    x.marked.Drops tags ↔ x.Drops tags := by
  cases x <;> exact Iff.rfl

/-- Without its marks a marked traffic is the plain one. -/
theorem Traffic.map_run_marked [LE T] [DecidableLE T] [LT T] [DecidableLT T] [Add T]
    (c : Traffic T (Marked α) ε) (xs : List (Step T α ε)) :
    (c.run (xs.map Step.marked)).map Marked.value = (c.map Marked.value).run xs := by
  have hid : Step.map Marked.value ∘ Step.marked = (id : Step T α ε → Step T α ε) :=
    funext Step.map_marked
  rw [← Traffic.run_map, List.map_map, hid, List.map_id]

end DatasetCatalog.Cache
