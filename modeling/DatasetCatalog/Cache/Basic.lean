import DatasetCatalog.Value.Basic

/-!
# Cache

Entries live until their expiry and carry tags by which they are dropped together. For a key that
is missing one caller computes the value; callers that come meanwhile join that flight. Dropping a
tag also detaches the flights that carry it, and their values are not kept. The entries stand in
the order in which their keys came in.
-/

namespace DatasetCatalog.Cache

variable {T α : Type}

structure Entry (T α : Type) where
  key : String
  value : α
  createdAt : T
  expiresAt : T
  tags : List String
  hitCount : Nat := 0

structure Flight where
  key : String
  ticket : Nat
  tags : List String
deriving DecidableEq, Repr

structure Store (T α : Type) where
  defaultTtl : T
  maxEntries : Int
  entries : List (Entry T α) := []
  flights : List Flight := []
  epochs : List (String × Nat) := []
  generation : Nat := 0
  nextTicket : Nat := 0
  hits : Nat := 0
  misses : Nat := 0
  evictions : Nat := 0
  coalesced : Nat := 0

def sharesTag (a b : List String) : Bool := a.any b.contains

def Store.entry? (s : Store T α) (key : String) : Option (Entry T α) :=
  s.entries.find? (·.key == key)

def Store.without (s : Store T α) (key : String) : Store T α :=
  { s with entries := s.entries.filter (·.key != key) }

def Store.epoch (s : Store T α) (tag : String) : Nat := (s.epochs.lookup tag).getD 0

section Clock

variable [LE T] [DecidableLE T] [LT T] [DecidableLT T]

def Entry.isExpired (e : Entry T α) (now : T) : Bool := e.expiresAt ≤ now

/-- The live value of a key. An expired entry is dropped, and the call is counted. -/
def Store.lookup (s : Store T α) (now : T) (key : String) : Option α × Store T α :=
  match s.entry? key with
  | none => (none, { s with misses := s.misses + 1 })
  | some e =>
    if e.isExpired now then (none, { s.without key with misses := s.misses + 1 })
    else
      let counted := s.entries.map fun e =>
        if e.key == key then { e with hitCount := e.hitCount + 1 } else e
      (some e.value, { s with entries := counted, hits := s.hits + 1 })

/-- The first entry with the least time of creation; one is only passed over for an older one. -/
def oldest? : List (Entry T α) → Option (Entry T α)
  | [] => none
  | e :: rest =>
    some (rest.foldl (fun oldest e => if e.createdAt < oldest.createdAt then e else oldest) e)

def Store.evictOldest (s : Store T α) : Store T α :=
  match oldest? s.entries with
  | none => s
  | some e => { s.without e.key with evictions := s.evictions + 1 }

def Store.makeRoom (s : Store T α) (key : String) : Store T α :=
  if (s.entry? key).isNone && s.maxEntries ≤ s.entries.length then s.evictOldest else s

/-- Write an entry. A key that is there keeps its place. -/
def Store.put [Add T] (s : Store T α) (now : T) (key : String) (value : α) (ttl : Option T)
    (tags : List String) : Store T α :=
  let e : Entry T α :=
    { key, value, tags, createdAt := now, expiresAt := now + ttl.getD s.defaultTtl }
  let s := s.makeRoom key
  { s with
    entries :=
      if (s.entry? key).isSome then s.entries.map fun old => if old.key == key then e else old
      else s.entries ++ [e] }

/-- Evict the oldest entries, at most `n` of them, down to the allowed number. Each is counted on
top of what was removed before. -/
def Store.shrink : Nat → Nat → Store T α → Nat × Store T α
  | 0, removed, s => (removed, s)
  | n + 1, removed, s =>
    if s.maxEntries < s.entries.length then s.evictOldest.shrink n (removed + 1) else (removed, s)

/-- Drop what has expired, then the oldest entries that are too many; how many were removed. -/
def Store.cleanup (s : Store T α) (now : T) : Nat × Store T α :=
  let live := { s with entries := s.entries.filter (!·.isExpired now) }
  live.shrink live.entries.length (s.entries.countP (·.isExpired now))

end Clock

def Store.remove (s : Store T α) (key : String) : Bool × Store T α :=
  ((s.entry? key).isSome, s.without key)

/-- Drop all entries and flights with one of the tags; how many entries had one. -/
def Store.removeByTags (s : Store T α) (tags : List String) : Nat × Store T α :=
  (s.entries.countP fun e => sharesTag e.tags tags,
    { s with
      entries := s.entries.filter fun e => !sharesTag e.tags tags
      flights := s.flights.filter fun f => !sharesTag f.tags tags
      epochs := tags.eraseDups.foldl (fun es t => Value.putEntry t ((es.lookup t).getD 0 + 1) es)
        s.epochs })

def Store.clear (s : Store T α) : Nat × Store T α :=
  (s.entries.length, { s with entries := [], flights := [], generation := s.generation + 1 })

end DatasetCatalog.Cache
