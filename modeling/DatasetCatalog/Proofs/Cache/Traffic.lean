import DatasetCatalog.Proofs.Cache.Contents

/-!
# Traffic of a cache

Any number of calls on one cache, in any order of their atomic steps. A call for a value that may
have to be computed starts with a hit, by joining a flight or as a leader; the computation of a
leader ends later, in a step of its own, and settles the calls that joined it. A call is known by
the number of the step at which it starts.
-/

namespace DatasetCatalog.Cache

variable {T α β ε : Type}

inductive Step (T α ε : Type) where
  | getOrSet (key : String) (ttl : Option T) (tags : List String)
  | finish (call : Nat) (value : α)
  | fail (call : Nat) (e : ε)
  | get (key : String)
  | set (key : String) (value : α) (ttl : Option T) (tags : List String)
  | remove (key : String)
  | removeByTags (tags : List String)
  | clear
  | cleanup
  | clock (now : T)

inductive Outcome (α ε : Type) where
  | value (v : α)
  | missing
  | raised (e : ε)

structure Return (α ε : Type) where
  call : Nat
  outcome : Outcome α ε

structure Traffic (T α ε : Type) where
  store : Store T α
  now : T
  time : Nat := 0
  /-- The calls that compute. -/
  leading : List (Nat × Lead T) := []
  /-- The calls that wait, with the tickets of their flights. -/
  waiting : List (Nat × Nat) := []
  returns : List (Return α ε) := []

namespace Traffic

/-- A leading call and those that joined it end with one outcome. -/
def settle (c : Traffic T α ε) (call : Nat) (lead : Lead T) (o : Outcome α ε) : Traffic T α ε :=
  { c with
    leading := c.leading.filter (·.1 != call)
    waiting := c.waiting.filter (·.2 != lead.ticket)
    returns := c.returns ++
      ⟨call, o⟩ :: (c.waiting.filter (·.2 == lead.ticket)).map fun w => ⟨w.1, o⟩ }

def answer (c : Traffic T α ε) (o : Outcome α ε) : Traffic T α ε :=
  { c with returns := c.returns ++ [⟨c.time, o⟩] }

variable [LE T] [DecidableLE T] [LT T] [DecidableLT T] [Add T]

/-- The effect of a step. The end of a computation that no call leads has none. -/
def take (c : Traffic T α ε) : Step T α ε → Traffic T α ε
  | .getOrSet key ttl tags =>
    match c.store.begin c.now key ttl tags with
    | (.hit v, store) => { c with store }.answer (.value v)
    | (.joined ticket, store) => { c with store, waiting := c.waiting ++ [(c.time, ticket)] }
    | (.leads lead, store) => { c with store, leading := c.leading ++ [(c.time, lead)] }
  | .finish call v =>
    match c.leading.lookup call with
    | some lead => { c with store := c.store.finish c.now lead v }.settle call lead (.value v)
    | none => c
  | .fail call e =>
    match c.leading.lookup call with
    | some lead => { c with store := c.store.land lead }.settle call lead (.raised e)
    | none => c
  | .get key =>
    let (found, store) := c.store.lookup c.now key
    { c with store }.answer (found.elim .missing .value)
  | .set key v ttl tags => { c with store := c.store.put c.now key v ttl tags }
  | .remove key => { c with store := (c.store.remove key).2 }
  | .removeByTags tags => { c with store := (c.store.removeByTags tags).2 }
  | .clear => { c with store := c.store.clear.2 }
  | .cleanup => { c with store := (c.store.cleanup c.now).2 }
  | .clock now => { c with now }

def after (c : Traffic T α ε) (x : Step T α ε) : Traffic T α ε :=
  { c.take x with time := c.time + 1 }

def run (c : Traffic T α ε) (xs : List (Step T α ε)) : Traffic T α ε := xs.foldl after c

end Traffic

def Traffic.start (defaultTtl : T) (maxEntries : Int) (now : T) : Traffic T α ε where
  store := { defaultTtl, maxEntries }
  now := now

/-- Whether a step drops what has these tags. -/
def Step.Drops : Step T α ε → List String → Prop
  | .clear, _ => True
  | .removeByTags dropped, tags => ∃ t ∈ tags, t ∈ dropped
  | _, _ => False

def Step.Asks : Step T α ε → String → Prop
  | .getOrSet k _ _, key => k = key
  | .get k, key => k = key
  | _, _ => False

/-- Between two steps none drops what has these tags. -/
def Undisturbed (xs : List (Step T α ε)) (start stop : Nat) (tags : List String) : Prop :=
  ∀ i x, start < i → i < stop → xs[i]? = some x → ¬ x.Drops tags

/-- Where a value that the cache gives for a key at step `stop` comes from: it was set, or a
leader computed it, and since that one started nothing dropped its tags. -/
inductive Origin (xs : List (Step T α ε)) (key : String) (v : α) (tags : List String)
    (stop : Nat) : Prop where
  | set {i : Nat} {ttl : Option T} : xs[i]? = some (.set key v ttl tags) → Origin xs key v tags stop
  | computed {p i : Nat} {ttl : Option T} : xs[p]? = some (.getOrSet key ttl tags) →
    xs[i]? = some (.finish p v) → p < i → p ≤ stop → Undisturbed xs p stop tags →
    Origin xs key v tags stop

namespace Traffic

def Leads (c : Traffic T α ε) (call : Nat) : Prop := ∃ lead, (call, lead) ∈ c.leading

/-- A call waits for the value of a leading one. -/
def Awaits (c : Traffic T α ε) (call leader : Nat) : Prop :=
  ∃ lead, (leader, lead) ∈ c.leading ∧ (call, lead.ticket) ∈ c.waiting

/-- A call has not been lost: it has ended, it computes, or it waits for one that computes. -/
def Accounts (c : Traffic T α ε) (call : Nat) : Prop :=
  (∃ o, ⟨call, o⟩ ∈ c.returns) ∨ c.Leads call ∨ ∃ leader, c.Awaits call leader

end Traffic

end DatasetCatalog.Cache
