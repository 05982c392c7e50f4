import DatasetCatalog.Cache.Basic

/-!
# Flights

A call for a value that may have to be computed has two atomic parts. It begins with a hit, by
joining the flight of its key, or by leading a new one; a leader ends with a value or without. The
value is kept only if none of its tags was dropped since the leader began.
-/

namespace DatasetCatalog.Cache

variable {T α : Type}

structure Lead (T : Type) where
  key : String
  ticket : Nat
  ttl : Option T
  tags : List String
  epochs : List Nat
  generation : Nat

inductive Begun (T α : Type) where
  | hit (value : α)
  | joined (ticket : Nat)
  | leads (lead : Lead T)

def Store.flight? (s : Store T α) (key : String) : Option Flight :=
  s.flights.find? (·.key == key)

variable [LE T] [DecidableLE T] [LT T] [DecidableLT T]

def Store.begin (s : Store T α) (now : T) (key : String) (ttl : Option T) (tags : List String) :
    Begun T α × Store T α :=
  match s.lookup now key with
  | (some value, s) => (.hit value, s)
  | (none, s) =>
    match s.flight? key with
    | some f => (.joined f.ticket, { s with coalesced := s.coalesced + 1 })
    | none =>
      let lead : Lead T :=
        { key, ttl, tags, ticket := s.nextTicket, epochs := tags.map s.epoch
          generation := s.generation }
      (.leads lead,
        { s with
          nextTicket := s.nextTicket + 1
          flights := s.flights ++ [⟨key, s.nextTicket, tags⟩] })

/-- Whether a tag of the lead, or everything, was dropped since it began. -/
def Store.isStale (s : Store T α) (lead : Lead T) : Bool :=
  s.generation != lead.generation || lead.tags.map s.epoch != lead.epochs

/-- Take a leader's own flight away, if it is still the one of its key. -/
def Store.land (s : Store T α) (lead : Lead T) : Store T α :=
  { s with flights := s.flights.filter fun f => f.ticket != lead.ticket }

def Store.finish [Add T] (s : Store T α) (now : T) (lead : Lead T) (value : α) : Store T α :=
  (if s.isStale lead then s else s.put now lead.key value lead.ttl lead.tags).land lead

end DatasetCatalog.Cache
