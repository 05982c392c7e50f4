import DatasetCatalog.Proofs.Cache.Invariant
import DatasetCatalog.Proofs.Service.Evaluation
import DatasetCatalog.Proofs.Store.Identity

/-!
# Interplay of calls on one service

Any number of calls of any users, in any order of their atomic parts. A call for a dataset begins
in the cache; if it leads, it reads the repository in a second part and ends in the cache in a
third. A change is written in one part, and the tag of its dataset is dropped in another. Calls and
writers are known by the number of the part with which they begin.
-/

namespace DatasetCatalog.Service

open Store

/-- What an update, an analysis or a deletion writes under an id. -/
inductive Change where
  | patch (p : Patch) (now : Time.Moment)
  | delete

/-- The repository after a change, if the change was written. -/
def Change.written? (x : Change) (r : Repository) (id : String) : Option Repository :=
  match x with
  | .patch p now =>
    match r.update id p.entries now with
    | .ok (some _, r) => some r
    | _ => none
  | .delete =>
    match r.delete id with
    | .ok (true, r) => some r
    | _ => none

/-- A change that is written leaves the other datasets alone. -/
theorem Change.written?_frame {x : Change} {r r' : Repository} {id : String} (hr : r.KeepsIds)
    (h : x.written? r id = some r') :
    r'.KeepsIds ∧ ∀ other, other ≠ id → r'.find? other = r.find? other := by
  cases x with
  | patch p now =>
    simp only [written?] at h
    split at h
    · rename_i hu
      cases h
      exact Repository.update_frame hr hu
    · cases h
  | delete =>
    simp only [written?] at h
    split at h
    · rename_i hd
      cases h
      exact Repository.delete_frame hr hd
    · cases h

/-- The atomic parts of calls, and what else moves the cache. -/
inductive Act (T : Type) where
  /-- A call for a dataset begins. -/
  | get (userId id : String) (ttl : T)
  | load (call : Nat)
  | finish (call : Nat)
  | write (id : String) (change : Change)
  /-- A writer drops the tag of the dataset that it has written. -/
  | invalidate (writer : Nat)
  /-- An analysis that has written nothing drops the tag of its dataset. -/
  | drop (id : String)
  | create (d : Dataset)
  | preview (id : String) (limit : Int) (ttl : T)
  | query (id hash : String) (ttl : T)
  /-- A leading call for rows ends. -/
  | deliver (call : Nat) (outcome : Except Error Cached)
  | evict (key : String)
  | cleanup
  | clock (now : T)

structure Interplay (T : Type) where
  repository : Repository
  cache : Cache.Traffic T Cached Error
  /-- The calls for datasets. -/
  gets : List (Nat × String) := []
  found : List (Nat × Except Error Dataset) := []
  /-- The writers that have not dropped the tag of their dataset yet. -/
  writers : List (Nat × String) := []

namespace Interplay

variable {T : Type}

def start (repository : Repository) (defaultTtl : T) (maxEntries : Int) (now : T) :
    Interplay T where
  repository := repository
  cache := .start defaultTtl maxEntries now

/-- What a part does to the cache; some only let the clock read what it reads. -/
def traffic (c : Interplay T) : Act T → Cache.Step T Cached Error
  | .get userId id ttl =>
    .getOrSet (Cache.datasetKey id) (some ttl) [Cache.datasetTag id, Cache.userTag userId]
  | .finish call =>
    match c.found.lookup call with
    | some (.ok d) => .finish call (.dataset d)
    | some (.error e) => .fail call e
    | none => .clock c.cache.now
  | .invalidate writer =>
    match c.writers.lookup writer with
    | some id => .removeByTags [Cache.datasetTag id]
    | none => .clock c.cache.now
  | .drop id => .removeByTags [Cache.datasetTag id]
  | .preview id limit ttl =>
    .getOrSet (Cache.previewKey id limit) (some ttl) [Cache.datasetTag id, Cache.previewTag]
  | .query id hash ttl =>
    .getOrSet (Cache.queryKey id hash) (some ttl) [Cache.datasetTag id, Cache.queryTag]
  | .deliver call outcome =>
    match c.gets.lookup call, outcome with
    | none, .ok v => .finish call v
    | none, .error e => .fail call e
    | some _, _ => .clock c.cache.now
  | .evict key => .remove key
  | .cleanup => .cleanup
  | .clock now => .clock now
  | .load _ | .write _ _ | .create _ => .clock c.cache.now

/-- What a part does besides. -/
def take (c : Interplay T) : Act T → Interplay T
  | .get _ id _ => { c with gets := c.gets ++ [(c.cache.time, id)] }
  | .load call =>
    match c.gets.lookup call, c.cache.leading.lookup call, c.found.lookup call with
    | some id, some _, none =>
      { c with found := c.found ++ [(call, readDataset c.repository id)] }
    | _, _, _ => c
  | .write id change =>
    match change.written? c.repository id with
    | some repository => { c with repository, writers := c.writers ++ [(c.cache.time, id)] }
    | none => c
  | .invalidate writer => { c with writers := c.writers.filter (·.1 != writer) }
  | .create d =>
    match c.repository.create d with
    | .ok repository => { c with repository }
    | .error _ => c
  | _ => c

variable [LE T] [DecidableLE T] [LT T] [DecidableLT T] [Add T]

def after (c : Interplay T) (x : Act T) : Interplay T :=
  { c.take x with cache := c.cache.after (c.traffic x) }

def run (c : Interplay T) (xs : List (Act T)) : Interplay T := xs.foldl after c

def log (c : Interplay T) : List (Act T) → List (Cache.Step T Cached Error)
  | [] => []
  | x :: rest => c.traffic x :: (c.after x).log rest

theorem run_concat (c : Interplay T) (xs : List (Act T)) (x : Act T) :
    c.run (xs ++ [x]) = (c.run xs).after x := by
  simp [run, List.foldl_append]

theorem log_append (c : Interplay T) (xs ys : List (Act T)) :
    c.log (xs ++ ys) = c.log xs ++ (c.run xs).log ys := by
  induction xs generalizing c with
  | nil => rfl
  | cons x rest ih =>
    rw [List.cons_append, log, log, ih, List.cons_append]
    rfl

/-- The cache sees the steps of the log and nothing else. -/
theorem cache_run (c : Interplay T) (xs : List (Act T)) :
    (c.run xs).cache = c.cache.run (c.log xs) := by
  induction xs generalizing c with
  | nil => rfl
  | cons x rest ih => exact ih (c.after x)

theorem getElem?_log (c : Interplay T) (xs : List (Act T)) (i : Nat) :
    (c.log xs)[i]? = xs[i]?.map fun x => (c.run (xs.take i)).traffic x := by
  induction xs generalizing c i with
  | nil => rfl
  | cons x rest ih =>
    cases i with
    | zero => rfl
    | succ i =>
      rw [log, List.getElem?_cons_succ, List.getElem?_cons_succ, ih]
      rfl

end Interplay

end DatasetCatalog.Service
