import DatasetCatalog.Proofs.Service.Upkeep
import DatasetCatalog.Proofs.Store.Rows

/-!
# What the service does

All that the service does is put together from reads, from statements that its host runs, from
single writes, and from dropping tags. A relation of worlds that holds along each of these holds
along every operation, every analysis and every job.
-/

namespace DatasetCatalog

open Store

/-- One write of the service. What is created is in order, and no patch states an id. -/
inductive Store.Repository.Written (r : Repository) : Repository → Prop
  | create {d : Dataset} {r' : Repository} : d.InOrder → r.create d = .ok r' → Written r r'
  | update {id : String} {p : Patch} {now : Time.Moment} {updated : Option Dataset}
    {r' : Repository} : r.update id p.entries now = .ok (updated, r') → Written r r'
  | delete {id : String} {deleted : Bool} {r' : Repository} :
    r.delete id = .ok (deleted, r') → Written r r'

theorem Store.Repository.Written.keepsIds {r r' : Repository} (h : r.Written r')
    (hr : r.KeepsIds) : r'.KeepsIds := by
  cases h with
  | create _ hcreate => exact (Repository.create_frame hr hcreate).1
  | update hupdate => exact (Repository.update_frame hr hupdate).1
  | delete hdelete => exact (Repository.delete_frame hr hdelete).1

theorem Store.Repository.Written.valid {r r' : Repository} (h : r.Written r') (hr : r.Valid) :
    r'.Valid := by
  cases h with
  | create hd hcreate => exact hr.create hd hcreate
  | update hupdate => exact hr.update hupdate
  | delete hdelete => exact hr.delete hdelete

namespace Service

variable {ε : Type}

/-- The relation holds along what operations are put together from. -/
structure Host.Works (h : Host ε) (R : World ε → World ε → Prop) : Prop extends h.Reads R where
  runs : ∀ source statement timeoutMs, (h.execute source statement timeoutMs).Within R
  beforeUpdate : ∀ id, (h.beforeUpdate id).Within R
  invalidate : ∀ id, (invalidate id : Run ε Unit).Within R
  writes : ∀ {w : World ε} {r : Repository}, w.repository.Written r → R w { w with repository := r }
  queues : ∀ (w : World ε) (queue : List Job) (pending : List (String × Nat)) (nextJob : Nat),
    R w { w with queue, pending, nextJob }

namespace Host.Works
variable {R : World ε → World ε → Prop} [World.Sequential R] {h : Host ε} (hh : h.Works R)
include hh

theorem updateStored (id : String) (p : Patch) : (updateStored h id p.entries).Within R := by
  refine .bind (hh.beforeUpdate id) fun _ w => ?_
  simp only [Run.bind_apply, Run.get_apply, Run.ofExcept_apply, setRepository, Run.modify_apply]
  cases hupdate : w.repository.update id p.entries w.now with
  | error e => exact World.Sequential.refl w
  | ok result => exact hh.writes (.update hupdate)

theorem analyseStored (id : String) : (analyseStored h id).Within R := by
  refine .bind .get fun w => .bind (.ofExcept _) ?_
  rintro (_ | d)
  · exact .pure _
  refine .bind (.attempt (.sample hh.runs d)) ?_
  rintro (e | result)
  · simp only
    split
    · exact .pure _
    · exact .throw _
  refine .bind (.ofExcept _) fun inferred => .bind .get fun w' => .bind (.ofExcept _) ?_
  rintro (_ | latest)
  · exact .pure _
  refine .bind .get fun w'' => .afterExcept fun entries hentries => ?_
  obtain ⟨p, rfl⟩ := exists_patch_of_findings (mapError_eq_ok hentries)
  exact .bind (hh.updateStored id p.toPatch) fun _ => .pure _

theorem markError (id message : String) : (markError h id message).Within R :=
  .bind (.attempt (hh.updateStored id (failurePatch message).toPatch)) fun _ => .pure _

theorem analyse (id : String) : (analyse h id).Within R := by
  refine .bind (.attempt (hh.analyseStored id)) ?_
  rintro (_ | _ | failure)
  · exact .bind (hh.markError id _) fun _ => hh.invalidate id
  · exact hh.invalidate id
  · exact .bind (hh.markError id _) fun _ => hh.invalidate id

theorem schedule (id : String) : (schedule h id).Within R := by
  refine .bind .get fun w => ?_
  cases w.background with
  | inline => exact .bind (hh.analyse id) fun _ => .pure _
  | queued => exact .bind (.modify fun w => hh.queues w _ _ _) fun _ => .pure _

theorem create (ownerId : String) (r : CreateRequest) : (create h ownerId r).Within R := by
  refine .bind (.checkSource hh.getDataset _ _ _ _) fun _ => .bind (.checkNameFree _ _) fun _ => ?_
  refine .bind .get fun w => .afterExcept fun d hd => ?_
  have hinOrder := Dataset.inOrder_of_ofDocument (mapError_eq_ok hd)
  intro w'
  simp only [Run.bind_apply, Run.get_apply, Run.ofExcept_apply, setRepository, Run.modify_apply]
  cases hcreate : w'.repository.create d with
  | error e => exact World.Sequential.refl w'
  | ok r =>
    have hrest := Run.Within.bind (hh.schedule d.id) (fun _ => .pure d) { w' with repository := r }
    rw [Run.bind_apply] at hrest
    exact World.Sequential.trans (hh.writes (.create hinOrder hcreate)) hrest

theorem update (userId id : String) {v : Value} {changes : Document.Reading UpdateRequest}
    (hread : Document.model UpdateRequest.reader v = .ok changes) :
    (update h userId id changes).Within R := by
  refine .bind (.load id) fun current => .bind (.ofExcept _) fun _ => ?_
  simp only
  split
  · exact .pure _
  refine .bind (.checkChanges hh.getDataset _ _ _ _) fun _ => .bind .get fun w => ?_
  refine .bind (.ofExcept _) fun _ => ?_
  refine .bind (hh.updateStored id ⟨_, UpdateRequest.lookup_id_given hread⟩) ?_
  rintro (_ | d)
  · exact .throw _
  · exact .bind (hh.invalidate id) fun _ => .pure _

theorem delete (userId id : String) : (delete userId id : Run ε Unit).Within R := by
  refine .bind (.load id) fun current => .bind (.ofExcept _) fun _ w => ?_
  simp only [Run.bind_apply, Run.get_apply, Run.ofExcept_apply, setRepository, Run.modify_apply]
  cases hdelete : w.repository.delete id with
  | error e => exact World.Sequential.refl w
  | ok result =>
    exact World.Sequential.trans (hh.writes (.delete hdelete)) (hh.invalidate id _)

theorem refresh (userId id : String) : (refresh h userId id).Within R :=
  .bind (.load id) fun _ => .bind (.ofExcept _) fun _ => hh.schedule id

theorem perform {o : Operation} (ho : o.WasRead) : (perform h o).Within R := by
  by_cases hreads : o.OnlyReads
  · exact hh.toReads.perform hreads
  cases o with
  | create userId request => exact .map (hh.create userId request) _
  | update userId id changes =>
    obtain ⟨v, hread⟩ := ho
    exact .map (hh.update userId id hread) _
  | delete userId id => exact .bind (hh.delete userId id) fun _ => .pure _
  | refresh userId id => exact .map (hh.refresh userId id) _
  | _ => exact absurd trivial hreads

theorem runNextJob : (runNextJob h).Within R := by
  refine .bind .get fun w => ?_
  cases w.queue with
  | nil => exact .pure _
  | cons job rest =>
    refine .bind (.modify fun w => hh.queues w rest w.pending w.nextJob) fun _ => ?_
    refine .bind (hh.analyse _) fun _ => ?_
    exact .bind (.modify fun w => hh.queues w w.queue _ w.nextJob) fun _ => .pure _

end Host.Works

end Service

end DatasetCatalog
