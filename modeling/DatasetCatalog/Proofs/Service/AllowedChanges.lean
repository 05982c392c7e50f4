import DatasetCatalog.Proofs.Model.Changes
import DatasetCatalog.Proofs.Service.Interruptions

/-!
# Who may change what of a dataset

What identifies a dataset never changes. Its owners delete it and change its permissions, editors
change its settings, and what an analysis finds changes only where an editor asks for one. Of any
other dataset an operation changes nothing.
-/

namespace DatasetCatalog

open Document

/-- The settings of the datasets, which say what they are and where their data come from. -/
structure Dataset.SameSettings (d d' : Dataset) : Prop where
  name : d'.name = d.name
  displayName : d'.displayName = d.displayName
  description : d'.description = d.description
  type : d'.type = d.type
  tableConfig : d'.tableConfig = d.tableConfig
  sqlConfig : d'.sqlConfig = d.sqlConfig
  viewConfig : d'.viewConfig = d.viewConfig
  category : d'.category = d.category
  tags : d'.tags = d.tags

/-- The findings of the last analysis, but for the fields and the status. -/
structure Dataset.SameFindings (d d' : Dataset) : Prop where
  metadata : d'.metadata = d.metadata
  qualityScore : d'.qualityScore = d.qualityScore
  qualityIssues : d'.qualityIssues = d.qualityIssues
  lastError : d'.lastError = d.lastError

namespace Service

open Store

variable {ε : Type}

namespace Operation

/-- The operation updates the dataset for a user with the role. -/
def UpdatesAs (o : Operation) (role : Role) (d : Dataset) : Prop :=
  ∃ userId changes, o = .update userId d.id changes ∧ d.permits userId role = true

def RefreshesAs (o : Operation) (role : Role) (d : Dataset) : Prop :=
  ∃ userId, o = .refresh userId d.id ∧ d.permits userId role = true

def DeletesAs (o : Operation) (role : Role) (d : Dataset) : Prop :=
  ∃ userId, o = .delete userId d.id ∧ d.permits userId role = true

end Operation

/-- What may become of a dataset by an operation, with the roles that it gave before. -/
structure AllowedChange (o : Operation) (d d' : Dataset) : Prop where
  id : d'.id = d.id
  userId : d'.userId = d.userId
  createdAt : d'.createdAt = d.createdAt
  version : d'.version = d.version
  permissions : d'.permissions = d.permissions ∨ o.UpdatesAs .owner d
  settings : d.SameSettings d' ∨ o.UpdatesAs .editor d
  fields : d'.fields = d.fields ∨ o.UpdatesAs .editor d ∨ o.RefreshesAs .editor d
  status : d'.status = d.status ∨ o.UpdatesAs .editor d ∨ o.RefreshesAs .editor d
  findings : d.SameFindings d' ∨ o.RefreshesAs .editor d

namespace AllowedChange
variable {o : Operation} {d d' : Dataset}

theorem refl (o : Operation) (d : Dataset) : AllowedChange o d d where
  id := rfl
  userId := rfl
  createdAt := rfl
  version := rfl
  permissions := .inl rfl
  settings := .inl ⟨rfl, rfl, rfl, rfl, rfl, rfl, rfl, rfl, rfl⟩
  fields := .inl rfl
  status := .inl rfl
  findings := .inl ⟨rfl, rfl, rfl, rfl⟩

/-- An editor changes what a request may state, and only an owner the permissions. -/
theorem of_update {patch : List (String × Value)} (heditor : o.UpdatesAs .editor d)
    (howner : (patch.lookup "permissions").isSome = true → o.UpdatesAs .owner d)
    (hnone : ∀ key, key ∉ UpdateRequest.keys → patch.lookup key = none)
    (h : Dataset.Agree (patch.lookup · = none) d d') : AllowedChange o d d' where
  id := h.id (hnone _ (by decide))
  userId := h.userId (hnone _ (by decide))
  createdAt := h.createdAt (hnone _ (by decide))
  version := h.version (hnone _ (by decide))
  permissions := by
    cases hgiven : patch.lookup "permissions" with
    | none => exact .inl (h.permissions hgiven)
    | some v => exact .inr (howner (by rw [hgiven]; rfl))
  settings := .inr heditor
  fields := .inr (.inl heditor)
  status := .inr (.inl heditor)
  findings := .inl
    { metadata := h.metadata (hnone _ (by decide))
      qualityScore := h.qualityScore (hnone _ (by decide))
      qualityIssues := h.qualityIssues (hnone _ (by decide))
      lastError := h.lastError (hnone _ (by decide)) }

/-- An analysis changes nothing but its findings. -/
theorem of_refresh (hrefreshes : o.RefreshesAs .editor d)
    (h : Dataset.Agree (· ∉ analysisKeys) d d') : AllowedChange o d d' where
  id := h.id (by decide)
  userId := h.userId (by decide)
  createdAt := h.createdAt (by decide)
  version := h.version (by decide)
  permissions := .inl (h.permissions (by decide))
  settings := .inl
    { name := h.name (by decide)
      displayName := h.displayName (by decide)
      description := h.description (by decide)
      type := h.type (by decide)
      tableConfig := h.tableConfig (by decide)
      sqlConfig := h.sqlConfig (by decide)
      viewConfig := h.viewConfig (by decide)
      category := h.category (by decide)
      tags := h.tags (by decide) }
  fields := .inr (.inr hrefreshes)
  status := .inr (.inr hrefreshes)
  findings := .inr hrefreshes

end AllowedChange

/-- The repository has the dataset under an id, be it that only its row can be seen. -/
def Has (r : Repository) (id : String) (d : Dataset) : Prop :=
  r.find? id = .ok (some d) ∨ r.datasets.HoldsUnread id d

section Patches
variable {P : Dataset → Prop} {r r' : Repository} {id : String} {d : Dataset}
  (hids : r.KeepsIds) (hall : r.datasets.All P)
include hids hall

theorem has_of_update (hd : r.find? id = .ok (some d)) {p : Patch} {now : Time.Moment}
    {updated : Option Dataset} (h : r.update id p.entries now = .ok (updated, r')) :
    ∃ d', Has r' id d' ∧ Dataset.Agree (p.entries.lookup · = none) d d' := by
  obtain ⟨result, hupdate, hr⟩ := map_eq_ok h
  cases hr
  obtain ⟨d', hhas, hparts⟩ := DatasetStore.find?_of_update hall hids hd hupdate
  exact ⟨d', hhas, Dataset.agree_of_parts hparts⟩

/-- An analysis leaves other datasets as they are, and of its own all but the findings. -/
theorem Analysed.has {other : String} (h : Analysed other r r') (hd : r.find? id = .ok (some d)) :
    r'.find? id = .ok (some d) ∨
      other = id ∧ ∃ d', Has r' id d' ∧ Dataset.Agree (· ∉ analysisKeys) d d' := by
  cases h with
  | unwritten => exact .inl hd
  | @written p now d' _ hupdate =>
    by_cases hother : id = other
    · subst hother
      obtain ⟨d', hhas, hsame⟩ := has_of_update hids hall hd hupdate
      exact .inr ⟨rfl, d', hhas, hsame.mono p.keys⟩
    · have hframe := (Repository.update_frame hids hupdate).2 id hother
      exact .inl (hframe.trans hd)

end Patches

/-- All that is kept in a world that is reached is in order. -/
theorem World.Reachable.keepsInOrder {h : Host ε} (hh : h.Confined) {w : World ε}
    (hw : w.Reachable h) : w.repository.datasets.All fun _ => True :=
  (World.Reachable.sound hh.orderly hw).inOrder

/-- An analysis for which nobody asks at the time, as a job is one, changes its findings alone. -/
theorem analyses_change_findings {h : Host ε} (hh : h.Confined) {w : World ε} (hw : w.Reachable h)
    (other : String) {id : String} {d : Dataset} (hd : w.repository.find? id = .ok (some d)) :
    ∃ d', Has (analyse h other w).2.repository id d' ∧ Dataset.Agree (· ∉ analysisKeys) d d' := by
  have hids := (hw.agrees hh).keepsIds
  rcases (analyse_analysed hh other w).2.has hids (hw.keepsInOrder hh) hd with
    hsame | ⟨_, d', hhas, hsame⟩
  · exact ⟨d, .inl hsame, .refl _ d⟩
  · exact ⟨d', hhas, hsame⟩

/-- Whatever came before, an operation changes of a stored dataset only what its user may change,
and a dataset is gone only when one of its owners has deleted it. -/
theorem changes_are_allowed {h : Host ε} (hh : h.Confined) {w : World ε} (hw : w.Reachable h)
    {o : Operation} (ho : o.WasRead) {id : String} {d : Dataset}
    (hd : w.repository.find? id = .ok (some d)) :
    (∃ d', Has (perform h o w).2.repository id d' ∧ AllowedChange o d d') ∨
      (perform h o w).2.repository.find? id = .ok none ∧ o.DeletesAs .owner d := by
  have hids := (hw.agrees hh).keepsIds
  have hall := hw.keepsInOrder hh
  have hid : d.id = id := DatasetStore.id_of_find? hids hd
  have hunchanged (hsame : (perform h o w).2.repository.find? id = .ok (some d)) :
      ∃ d', Has (perform h o w).2.repository id d' ∧ AllowedChange o d d' :=
    ⟨d, .inl hsame, .refl o d⟩
  have heffect := perform_effect hh ho w
  generalize (perform h o w).1 = a at heffect
  generalize (perform h o w).2.repository = r' at heffect hunchanged ⊢
  cases heffect with
  | unwritten => exact .inl (hunchanged hd)
  | @created userId request defaults made r₁ _ _ hdocument hcreate hanalysis =>
    obtain ⟨hids₁, hframe⟩ := Repository.create_frame hids hcreate
    have hall₁ : r₁.datasets.All fun _ => True := by
      obtain ⟨datasets, hstored, rfl⟩ := map_eq_ok hcreate
      exact DatasetStore.create_all hall (Dataset.inOrder_of_ofDocument hdocument) trivial hstored
    rcases hanalysis.has hids₁ hall₁ (hframe id d hd) with hsame | ⟨hmade, _⟩
    · exact .inl (hunchanged hsame)
    · exact absurd hmade (Repository.ne_of_create hd hcreate)
  | @updated userId other changes current _ now _ hcurrent hpermits howner _ hupdate =>
    obtain ⟨v, hread⟩ := ho
    let p : Patch := ⟨changes.given.entries, UpdateRequest.lookup_id_given hread⟩
    by_cases hother : id = other
    · subst hother
      obtain rfl : d = current := Option.some.inj (Except.ok.inj (hd.symm.trans hcurrent))
      obtain ⟨d', hhas, hsame⟩ := has_of_update (p := p) hids hall hd hupdate
      have heditor : (Operation.update userId id changes).UpdatesAs .editor d :=
        ⟨userId, changes, by rw [hid], hpermits⟩
      refine .inl ⟨d', hhas, .of_update heditor (fun hgiven => ?_) ?_ hsame⟩
      · exact ⟨userId, changes, by rw [hid], howner hgiven⟩
      · exact fun key hkey => UpdateRequest.lookup_given_eq_none hread hkey
    · have hframe := (Repository.update_frame (p := p) hids hupdate).2 id hother
      exact .inl (hunchanged (hframe.trans hd))
  | @deleted userId other current _ hcurrent hpermits hdelete =>
    by_cases hother : id = other
    · subst hother
      obtain rfl : d = current := Option.some.inj (Except.ok.inj (hd.symm.trans hcurrent))
      exact .inr ⟨Repository.find?_of_delete hdelete, userId, by rw [hid], hpermits⟩
    · have hframe := (Repository.delete_frame hids hdelete).2 id hother
      exact .inl (hunchanged (hframe.trans hd))
  | @refreshed userId other current isOver _ hcurrent hpermits hanalysis =>
    rcases hanalysis.has hids hall hd with hsame | ⟨rfl, d', hhas, hsame⟩
    · exact .inl (hunchanged hsame)
    · obtain rfl : d = current := Option.some.inj (Except.ok.inj (hd.symm.trans hcurrent))
      have hrefreshes : (Operation.refresh userId other).RefreshesAs .editor d :=
        ⟨userId, by rw [hid], hpermits⟩
      exact .inl ⟨d', hhas, .of_refresh hrefreshes hsame⟩

/-- An owner gives a dataset another name for display, and nothing else changes. -/
theorem changes_are_allowed_to_owner :
    let source : Datasource := { id := "s", userId := "u", name := "s", type := .sqlite }
    let h : Host Unit :=
      { execute := fun _ _ _ => throw (.sourceFailed "gone"), beforeUpdate := fun _ => pure () }
    let request : CreateRequest :=
      { name := "sales", displayName := "Sales", type := .table
        tableConfig := some { datasourceId := "s", tableName := "sales" } }
    let changes : Document.Reading UpdateRequest :=
      ⟨{ displayName := some "Orders" }, .object [("display_name", .text "Orders")]⟩
    let start : World Unit := World.start ⟨.emptyMemory, []⟩ {} .queued ()
    let made := (perform h (.create "u" request)
      { start with freshId := "t", repository := ⟨.emptyMemory, [source]⟩ }).2
    let changed := (perform h (.update "u" "t" changes) made).2
    made.Reachable h ∧ ∃ d d', made.repository.find? "t" = .ok (some d) ∧
      changed.repository.find? "t" = .ok (some d') ∧ d'.displayName = "Orders" ∧
      AllowedChange (.update "u" "t" changes) d d' := by
  intro source h request changes start made changed
  have hh : h.Confined := ⟨fun _ _ _ => World.Keeps.refl, fun _ => World.Keeps.refl⟩
  have hstart : start.Reachable h := .start (.inl rfl) _ _ _
  have hmade : made.Reachable h :=
    .perform (.passes start.clock start.now "t" [source] () hstart) trivial
  have hread : Document.model UpdateRequest.reader
      (.object [("display_name", .text "Orders")]) = .ok changes := rfl
  have hfound : ∃ d, made.repository.find? "t" = .ok (some d) := by
    unfold made start request h source
    exact ⟨_, rfl⟩
  have hchanged : ∃ d', changed.repository.find? "t" = .ok (some d') ∧
      d'.displayName = "Orders" ∧ ∃ datasets, changed.repository.datasets = .memory datasets := by
    unfold changed made start request h source changes
    exact ⟨_, rfl, rfl, _, rfl⟩
  obtain ⟨d, hd⟩ := hfound
  obtain ⟨d', hd', hname, datasets, hmemory⟩ := hchanged
  refine ⟨hmade, d, d', hd, hd', hname, ?_⟩
  rcases changes_are_allowed hh hmade (o := .update "u" "t" changes) ⟨_, hread⟩ hd with
    ⟨found, hfound | ⟨kept, _, _, hrows, _⟩, hallowed⟩ | ⟨hgone, _⟩
  · obtain rfl : d' = found := Option.some.inj (Except.ok.inj (hd'.symm.trans hfound))
    exact hallowed
  · cases hmemory.symm.trans hrows
  · cases hd'.symm.trans hgone

end Service

end DatasetCatalog
