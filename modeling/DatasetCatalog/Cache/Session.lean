import DatasetCatalog.Cache.Flight
import DatasetCatalog.Error

/-!
# Sessions

A session runs cache operations one after another on a clock that only they move. A computation
may be interrupted by further operations before it ends, among them calls from elsewhere that
join it; these get its outcome when it ends.
-/

namespace DatasetCatalog.Cache

/-- A number of seconds, or why what was given is none. -/
abbrev Span := Except Breakdown Float

inductive Operation where
  | advance (seconds : Span)
  | set (key : String) (value : Value) (ttl : Option Span) (tags : List String)
  | get (key : String)
  | remove (key : String)
  | removeByTags (tags : List String)
  | clear
  | cleanup
  | stats
  /-- Sweep until one cleanup succeeds. -/
  | sweep
  /-- A call whose computation is interrupted by `during` and then fails or gives the value. -/
  | getOrSet (key : String) (value : Value) (ttl : Option Span) (tags : List String)
      (during : List Operation) (failure : Option Error)
  /-- A call from elsewhere, whose own computation gives the value at once. -/
  | join (key : String) (value : Value) (ttl : Option Span) (tags : List String)
  | unreadable (e : Error)
deriving Inhabited

abbrev CallOutcome := Except Error Value

mutual

inductive Answer where
  | done
  | time (now : Float)
  | value (v : Value)
  | flag (b : Bool)
  | count (n : Nat)
  | counts (ns : List Nat)
  | stats
  | found (v : Value)
  | computed (during : List Report) (outcome : CallOutcome) (joined : List String)
  | blocked
  | joined (outcome : CallOutcome)
  | failed (e : Error)

/-- An answer with the store as the operation left it. -/
inductive Report where
  | mk (answer : Answer) (store : Store Float Value)

end

structure Session where
  store : Store Float Value
  now : Float
  /-- What a time to live is that is not given. -/
  defaultTtl : Span
  /-- The keys of the calls that wait, by the ticket they wait for. -/
  waiting : List (Nat × String) := []

def Session.withStore (s : Session) (store : Store Float Value) : Session := { s with store }

/-- Wake the calls that wait for a ticket; their keys in the order they came. -/
def Session.wake (s : Session) (ticket : Nat) : List String × Session :=
  ((s.waiting.filter (·.1 == ticket)).map (·.2),
    { s with waiting := s.waiting.filter (·.1 != ticket) })

/-- Write an entry. For one without an expiry room is made, and that is all. -/
def Session.put (s : Session) (key : String) (value : Value) (ttl : Option Span)
    (tags : List String) : Answer × Session :=
  match ttl.getD s.defaultTtl with
  | .ok seconds => (.done, s.withStore (s.store.put s.now key value (some seconds) tags))
  | .error b => (.failed (.broken b), s.withStore (s.store.makeRoom key))

/-- Begin a call. The lead remembers the time to live, if that is one. -/
def Session.begin (s : Session) (key : String) (ttl : Option Span) (tags : List String) :
    Begun Float Value × Store Float Value :=
  s.store.begin s.now key (ttl.getD s.defaultTtl).toOption tags

/-- The end of a computation that has a value. If that cannot be kept, its flight goes on. -/
def Session.finish (s : Session) (lead : Lead Float) (value : Value) (ttl : Option Span) :
    CallOutcome × Session :=
  match ttl.getD s.defaultTtl, s.store.isStale lead with
  | .error b, false => (.error (.broken b), s.withStore (s.store.makeRoom lead.key))
  | _, _ => (.ok value, s.withStore (s.store.finish s.now lead value))

def Session.join (s : Session) (key : String) (value : Value) (ttl : Option Span)
    (tags : List String) : Answer × Session :=
  match s.begin key ttl tags with
  | (.hit v, store) => (.joined (.ok v), s.withStore store)
  | (.joined ticket, store) =>
    (.blocked, { s with store, waiting := s.waiting ++ [(ticket, key)] })
  | (.leads lead, store) =>
    let (outcome, s) := (s.withStore store).finish lead value ttl
    (.joined outcome, s)

/-- The end of a computation, which also settles the calls that joined it. -/
def Session.settle (s : Session) (lead : Lead Float) (value : Value) (ttl : Option Span)
    (failure : Option Error) (during : List Report) : Answer × Session :=
  let (joined, s) := s.wake lead.ticket
  match failure with
  | some e => (.computed during (.error e) joined, s.withStore (s.store.land lead))
  | none =>
    let (outcome, s) := s.finish lead value ttl
    (.computed during outcome joined, s)

mutual

def Session.perform (s : Session) : Operation → Answer × Session
  | .advance (.ok seconds) => (.time (s.now + seconds), { s with now := s.now + seconds })
  | .advance (.error b) => (.failed (.broken b), s)
  | .set key value ttl tags => s.put key value ttl tags
  | .get key =>
    let (v, store) := s.store.lookup s.now key
    (.value (v.getD .null), s.withStore store)
  | .remove key =>
    let (removed, store) := s.store.remove key
    (.flag removed, s.withStore store)
  | .removeByTags tags =>
    let (n, store) := s.store.removeByTags tags
    (.count n, s.withStore store)
  | .clear =>
    let (n, store) := s.store.clear
    (.count n, s.withStore store)
  | .cleanup =>
    let (n, store) := s.store.cleanup s.now
    (.count n, s.withStore store)
  | .stats => (.stats, s)
  | .sweep =>
    let (n, store) := s.store.cleanup s.now
    (.counts [n], s.withStore store)
  | .join key value ttl tags => s.join key value ttl tags
  | .getOrSet key value ttl tags during failure =>
    match s.begin key ttl tags with
    | (.hit v, store) => (.found v, s.withStore store)
    | (.joined ticket, store) =>
      (.blocked, { s with store, waiting := s.waiting ++ [(ticket, key)] })
    | (.leads lead, store) =>
      let (reports, s) := (s.withStore store).performAll during
      s.settle lead value ttl failure reports
  | .unreadable e => (.failed e, s)
termination_by structural o => o

def Session.performAll (s : Session) : List Operation → List Report × Session
  | [] => ([], s)
  | o :: rest =>
    let (answer, s) := s.perform o
    let report := Report.mk answer s.store
    let (reports, s) := s.performAll rest
    (report :: reports, s)
termination_by structural os => os

end

end DatasetCatalog.Cache
