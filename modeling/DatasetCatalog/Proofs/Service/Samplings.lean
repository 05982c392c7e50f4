import DatasetCatalog.Proofs.Service.AllowedChanges
import DatasetCatalog.Proofs.Service.Authority

/-!
# For whom a dataset is sampled

An analysis follows views without regard to roles, so whoever has one sampled is known for what was
checked before: a refresh asks for an editor of the dataset, and a creation for a viewer of the
dataset that a view is based on directly. What lies further down the views is sampled for users who
may not view it.
-/

namespace DatasetCatalog

open Document

section Bases

end Bases

namespace Store

end Store

namespace Service

open Store

variable {ε α β : Type}

/-- The datasets that the views of one lead along, from that one on down to one that is no view. -/
inductive Leads (r : Repository) : String → List Dataset → Prop
  | ground {id : String} {d : Dataset} : r.find? id = .ok (some d) → d.type ≠ .view →
    Leads r id [d]
  | view {id : String} {d : Dataset} {c : ViewConfig} {ds : List Dataset} :
    r.find? id = .ok (some d) → d.type = .view → d.viewConfig = some c →
    Leads r c.baseDatasetId ds → Leads r id (d :: ds)

namespace Leads
variable {r : Repository} {id userId : String} {ds : List Dataset}

theorem head (h : Leads r id ds) : ∃ d rest, ds = d :: rest ∧ r.find? id = .ok (some d) := by
  cases h with
  | ground hfind _ => exact ⟨_, _, rfl, hfind⟩
  | view hfind _ _ _ => exact ⟨_, _, rfl, hfind⟩

/-- Who may view each of the datasets may view them all together. -/
theorem mayView (h : Leads r id ds) (hall : ∀ d ∈ ds, d.permits userId .viewer = true) :
    MayView r userId id := by
  induction h with
  | ground hfind ht => exact .ground hfind (hall _ List.mem_cons_self) ht
  | view hfind ht hc _ ih =>
    obtain ⟨hd, hrest⟩ := List.forall_mem_cons.mp hall
    exact .view hfind hd ht hc (ih hrest)

end Leads

namespace MayView
variable {r : Repository} {userId id : String} {d : Dataset}

theorem permits (h : MayView r userId id) (hfind : r.find? id = .ok (some d)) :
    d.permits userId .viewer = true := by
  cases h with
  | ground hfound hmay _ | view hfound hmay _ _ _ =>
    obtain rfl := Option.some.inj (Except.ok.inj (hfound.symm.trans hfind))
    exact hmay

theorem base (h : MayView r userId id) (hfind : r.find? id = .ok (some d)) (ht : d.type = .view)
    {base : String} (hbase : d.viewConfig.any (·.baseDatasetId == base) = true) :
    MayView r userId base := by
  cases h with
  | ground hfound _ hnone =>
    obtain rfl := Option.some.inj (Except.ok.inj (hfound.symm.trans hfind))
    exact absurd ht hnone
  | view hfound _ _ hc hrest =>
    obtain rfl := Option.some.inj (Except.ok.inj (hfound.symm.trans hfind))
    rw [hc, Option.any_some, beq_iff_eq] at hbase
    exact hbase ▸ hrest

end MayView

/-- A walk by what the repository holds goes where the views lead. -/
theorem Walk.leads {seen : List String} {w w' : World ε} {d g : Dataset} {visited : List Dataset}
    {ending : WalkEnd} (h : Walk load seen w d visited ending w') (hend : ending = .ground g)
    {r : Repository} (hw : w.repository = r) {id : String} (hfind : r.find? id = .ok (some d)) :
    Leads r id visited := by
  induction h generalizing id with
  | repeated _ => cases hend
  | ground _ ht => exact .ground hfind ht
  | failed _ _ _ _ => cases hend
  | next _ ht hc hbase _ ih =>
    rw [load_apply, hw] at hbase
    obtain ⟨hread, rfl⟩ := Prod.mk.inj hbase
    exact .view hfind ht hc (ih hend hw (readDataset_eq_ok.mp hread))

section Recording
variable {h : Host ε} {id : String} {d : Dataset} {w : World (ε × List Execution)}

/-- Nothing has been run in between. -/
def World.SameRecord (w w' : World (ε × List Execution)) : Prop :=
  w'.surroundings.2 = w.surroundings.2

instance : World.Sequential (World.SameRecord (ε := ε)) := ⟨fun _ => rfl, fun h h' => h'.trans h⟩

/-- If the run has something executed, then the condition holds. -/
def Run.ExecutesOnlyIf (P : Prop) (x : Run (ε × List Execution) α)
    (w : World (ε × List Execution)) : Prop :=
  w.SameRecord (x w).2 ∨ P

namespace Run.ExecutesOnlyIf
variable {P : Prop}

/-- Nothing is executed before, so it is the rest that needs the condition. -/
theorem after {x : Run (ε × List Execution) α} {f : α → Run (ε × List Execution) β}
    (hsame : w.SameRecord (x w).2)
    (hf : ∀ a w', x w = (.ok a, w') → ExecutesOnlyIf P (f a) w') :
    ExecutesOnlyIf P (x >>= f) w := by
  unfold ExecutesOnlyIf
  rw [bind_apply]
  rcases hrun : x w with ⟨e | a, w'⟩
  · rw [hrun] at hsame
    exact .inl hsame
  · rw [hrun] at hsame
    exact (hf a w' hrun).imp_left fun hrest => hrest.trans hsame

theorem afterExcept {a : Except Error α} {f : α → Run (ε × List Execution) β}
    (hf : ∀ b, a = .ok b → ExecutesOnlyIf P (f b) w) :
    ExecutesOnlyIf P (Run.ofExcept a >>= f) w := by
  cases a with
  | error e => exact .inl rfl
  | ok b => exact hf b rfl

/-- Nothing is executed afterwards. -/
theorem first {x : Run (ε × List Execution) α} {f : α → Run (ε × List Execution) β}
    (hx : ExecutesOnlyIf P x w) (hf : ∀ a, (f a).Within World.SameRecord) :
    ExecutesOnlyIf P (x >>= f) w := by
  unfold ExecutesOnlyIf at hx ⊢
  rw [bind_apply]
  rcases hrun : x w with ⟨e | a, w'⟩
  · rw [hrun] at hx
    exact hx
  · rw [hrun] at hx
    exact hx.imp_left fun hsame => (hf a w').trans hsame

end Run.ExecutesOnlyIf

end Recording

section Creating

end Creating

end Service

end DatasetCatalog
