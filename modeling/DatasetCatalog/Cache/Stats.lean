import DatasetCatalog.Cache.Basic
import DatasetCatalog.Number.Rounding

/-!
# Cache statistics
-/

namespace DatasetCatalog.Cache

variable {T α : Type}

structure Stats (T : Type) where
  size : Nat
  maxEntries : Int
  defaultTtl : T
  hits : Nat
  misses : Nat
  evictions : Nat
  coalesced : Nat
  inflight : Nat
  hitRate : Float

def hitRate (hits misses : Nat) : Float :=
  if hits + misses == 0 then 0.0
  else Number.roundTo 3 (Float.ofNat hits / Float.ofNat (hits + misses))

def Store.stats (s : Store T α) : Stats T :=
  { size := s.entries.length
    maxEntries := s.maxEntries
    defaultTtl := s.defaultTtl
    hits := s.hits
    misses := s.misses
    evictions := s.evictions
    coalesced := s.coalesced
    inflight := s.flights.length
    hitRate := hitRate s.hits s.misses }

def Stats.document (defaultTtl : Value) (s : Stats T) : Value := .object
  [("size", .ofNat s.size),
   ("max_entries", .int s.maxEntries),
   ("default_ttl_seconds", defaultTtl),
   ("hits", .ofNat s.hits),
   ("misses", .ofNat s.misses),
   ("evictions", .ofNat s.evictions),
   ("coalesced", .ofNat s.coalesced),
   ("inflight", .ofNat s.inflight),
   ("hit_rate", .float s.hitRate)]

end DatasetCatalog.Cache
