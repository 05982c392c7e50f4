import DatasetCatalog.Proofs.Model.Changes
import DatasetCatalog.Proofs.Service.Settled
import DatasetCatalog.Proofs.Store.Twins

/-!
# Changes are made as they are asked for

An update that succeeds returns the dataset as it was with what was sent in the place of what was
there. That is what the repository holds afterwards, if it can hold it, and what the next call
gets. A request that says nothing leaves everything as it is.
-/

namespace DatasetCatalog.Service

open Cache Store Document

variable {ε : Type}

section Updates
variable {h : Host ε} (hh : h.Confined) {w w' : World ε} {userId id : String} {v : Value}
  {changes : Reading UpdateRequest} {d : Dataset}
  (hread : model UpdateRequest.reader v = .ok changes)
include hh hread

/-- An update that succeeds either was given nothing, or has written the changed dataset and then
dropped its tag. -/
theorem update_eq_ok (hupdate : update h userId id changes w = (.ok d, w')) :
    ∃ current, w.repository.find? id = .ok (some current) ∧
      (changes.given.entries = [] ∧ d = current ∧ w' = w ∨
        changes.given.entries ≠ [] ∧ current.patched changes.given.entries w.now = .ok d ∧
          ∃ cache w₁, World.Patches ⟨_, UpdateRequest.lookup_id_given hread⟩ id d
            { w with cache } w₁ ∧ w' = (invalidate id w₁).2) := by
  obtain ⟨current, _, hload, hupdate⟩ := run_bind_eq_ok hupdate
  rw [load_apply] at hload
  obtain ⟨hcurrent, rfl⟩ := Prod.mk.inj hload
  have hfind := readDataset_eq_ok.mp hcurrent
  obtain ⟨_, _, hrole, hupdate⟩ := run_bind_eq_ok hupdate
  obtain ⟨_, rfl⟩ := Prod.mk.inj hrole
  refine ⟨current, hfind, ?_⟩
  simp only at hupdate
  split at hupdate
  · rename_i hempty
    cases hupdate
    exact .inl ⟨List.isEmpty_iff.mp hempty, rfl, rfl⟩
  rename_i hgiven
  obtain ⟨_, w₁, hchecks, hupdate⟩ := run_bind_eq_ok hupdate
  have hcached := Run.Within.checkChanges getDataset_onlyCaches userId current changes.value
    changes.given.entries w
  rw [hchecks] at hcached
  obtain ⟨cache, rfl⟩ := hcached
  obtain ⟨_, _, hget, hupdate⟩ := run_bind_eq_ok hupdate
  obtain ⟨_, rfl⟩ := Prod.mk.inj hget
  obtain ⟨_, _, hpre, hupdate⟩ := run_bind_eq_ok hupdate
  obtain ⟨_, rfl⟩ := Prod.mk.inj hpre
  obtain ⟨updated, w₂, hstored, hupdate⟩ := run_bind_eq_ok hupdate
  rcases updateStored_cases (p := ⟨_, UpdateRequest.lookup_id_given hread⟩) hh.beforeUpdate
    hstored with ⟨_, hnone⟩ | ⟨d', hd', hpatches⟩
  · cases updated with
    | none => cases hupdate
    | some d' => exact absurd rfl (hnone d')
  cases hd'
  cases hupdate
  refine .inr ⟨fun hempty => hgiven (List.isEmpty_iff.mpr hempty), ?_, cache, w₂, hpatches, rfl⟩
  obtain ⟨r, e, hr, _⟩ := hpatches
  obtain ⟨⟨_, s⟩, hresult, hr⟩ := map_eq_ok hr
  cases hr
  rcases DatasetStore.update_cases hresult with ⟨hnone, _⟩ | ⟨_, _, hfound, hpatched, _, hsome⟩
  · cases hnone
  · cases hsome
    cases hfound.symm.trans hfind
    exact hpatched

/-- What an update has written is what the repository holds then, if it can hold it. -/
theorem find?_of_update (hids : w.repository.KeepsIds)
    (hupdate : update h userId id changes w = (.ok d, w'))
    (hretains : changes.given.entries ≠ [] → w.repository.datasets.Retains d) :
    w'.repository.find? id = .ok (some d) := by
  obtain ⟨current, hfind, ⟨_, rfl, rfl⟩ | ⟨hgiven, hpatched, cache, w₁, ⟨r, e, hr, rfl⟩, rfl⟩⟩ :=
    update_eq_ok hh hread hupdate
  · exact hfind
  let p : Patch := ⟨_, UpdateRequest.lookup_id_given hread⟩
  obtain ⟨s, hwritten, hfound⟩ := DatasetStore.update_retained (p := p) hids hfind hpatched
    (hretains hgiven)
  obtain ⟨⟨_, s'⟩, hstored, hresult⟩ := map_eq_ok hr
  cases hwritten.symm.trans hstored
  cases hresult
  exact hfound

/-- Whatever came before, an update that succeeds returns the dataset as it was, with what was sent
in its place and nothing else changed. That is what is stored, if it can be, and what the next call
gets for whoever may view it. If nothing was sent, nothing at all has changed. -/
theorem updates_are_verbatim (hw : w.Reachable h)
    (hupdate : update h userId id changes w = (.ok d, w')) :
    let sent (key : String) : Bool := (v.entries.lookup key).isSome
    ∃ current, w.repository.find? id = .ok (some current) ∧
      ((∀ key ∈ UpdateRequest.keys, sent key = false) → d = current ∧ w' = w) ∧
      ((∃ key ∈ UpdateRequest.keys, sent key = true) →
        current.EditedBy sent changes.value w.now d) ∧
      (((∃ key ∈ UpdateRequest.keys, sent key = true) → w.repository.datasets.Retains d) →
        w'.repository.find? id = .ok (some d) ∧
        (':' ∉ id.toList → ∀ reader clock, d.permits reader .viewer = true →
          (getDataset reader id { w' with clock }).1 = .ok d)) := by
  intro sent
  have hempty := UpdateRequest.given_eq_nil_iff hread
  have hsome : changes.given.entries ≠ [] ↔ ∃ key ∈ UpdateRequest.keys, sent key = true := by
    rw [ne_eq, hempty]
    push Not
    simp only [sent, Bool.not_eq_false]
  obtain ⟨current, hfind, hcases⟩ := update_eq_ok hh hread hupdate
  refine ⟨current, hfind, fun hnone => ?_, fun hsent => ?_, fun hretains => ?_⟩
  · rcases hcases with ⟨_, rfl, rfl⟩ | ⟨hgiven, _⟩
    · exact ⟨rfl, rfl⟩
    · exact absurd (hempty.mpr hnone) hgiven
  · rcases hcases with ⟨hgiven, _⟩ | ⟨_, hpatched, _⟩
    · exact absurd hgiven (hsome.mpr hsent)
    · exact Dataset.editedBy_of_patched hread hpatched
  · have hagrees := hw.agrees hh
    have hstored := find?_of_update hh hread hagrees.keepsIds hupdate
      fun hgiven => hretains (hsome.mp hgiven)
    refine ⟨hstored, fun hid reader clock hpermits => ?_⟩
    have hupdated : (update h userId id changes w).2 = w' := by rw [hupdate]
    have hagrees' := (update_carries hh userId id hread w hagrees).agrees
    have hsettled' := (hh.works_keepsLabels.update userId id hread w).settled (hw.settled hh)
    rw [hupdated] at hagrees' hsettled'
    -- time passes, and neither cache nor repository changes
    have hlater : World.Agrees { w' with clock } :=
      ⟨hagrees'.keepsIds, hagrees'.inOrder, hagrees'.cached⟩
    have hquiet : World.Settled { w' with clock } :=
      ⟨⟨hsettled'.keepsIds, hsettled'.fits⟩, hsettled'.flights⟩
    rw [getDataset_of_settled hlater hquiet hid]
    change (readDataset w'.repository id).bind _ = _
    rw [readDataset_eq_ok.mpr hstored]
    change (d.require reader .viewer).bind _ = _
    rw [Dataset.require, if_pos hpermits]
    rfl

end Updates

/-- A new title is taken and an explicit null as well, and the owner gets the dataset so. -/
theorem updates_are_verbatim_of_title :
    let source : Datasource := { id := "s", userId := "u", name := "s", type := .sqlite }
    let h : Host Unit :=
      { execute := fun _ _ _ => throw (.sourceFailed "gone"), beforeUpdate := fun _ => pure () }
    let request : CreateRequest :=
      { name := "sales", displayName := "Sales", description := some "Daily", type := .table
        tableConfig := some { datasourceId := "s", tableName := "sales" } }
    let sent : Value := .object [("display_name", .text "Orders"), ("description", .null)]
    let changes : Reading UpdateRequest := ⟨{ displayName := some "Orders" }, sent⟩
    let start : World Unit := World.start ⟨.emptyMemory, [source]⟩ {} .queued ()
    let made := (perform h (.create "u" request) { start with freshId := "t" }).2
    let after := (update h "u" "t" changes made).2
    ∃ current d, made.repository.find? "t" = .ok (some current) ∧
      (update h "u" "t" changes made).1 = .ok d ∧
      d.displayName = "Orders" ∧ d.description = none ∧ d.name = current.name ∧
      after.repository.find? "t" = .ok (some d) ∧ (getDataset "u" "t" after).1 = .ok d := by
  intro source h request sent changes start made after
  have hh : h.Confined := ⟨fun _ _ _ => World.Keeps.refl, fun _ => World.Keeps.refl⟩
  have hstart : start.Reachable h := .start (.inl rfl) _ _ _
  have hmade : made.Reachable h :=
    .perform (.passes start.clock start.now "t" [source] () hstart) trivial
  have hread : model UpdateRequest.reader sent = .ok changes := rfl
  have hrun : ∃ d, (update h "u" "t" changes made).1 = .ok d ∧ d.permits "u" .viewer = true := by
    unfold made start request h source changes sent
    exact ⟨_, rfl, rfl⟩
  have hmemory : ∃ datasets, made.repository.datasets = .memory datasets := by
    unfold made start request h source
    exact ⟨_, rfl⟩
  obtain ⟨d, hd, hpermits⟩ := hrun
  obtain ⟨datasets, hdatasets⟩ := hmemory
  have hretains : made.repository.datasets.Retains d := by
    intro kept hkept
    cases hdatasets.symm.trans hkept
  have hupdate : update h "u" "t" changes made = (.ok d, after) := Prod.ext hd rfl
  clear_value after
  obtain ⟨current, hfind, _, hedited, hstored⟩ := updates_are_verbatim hh hread hmade hupdate
  obtain ⟨hstored, hget⟩ := hstored fun _ => hretains
  have hedited := hedited ⟨"display_name", by decide, rfl⟩
  exact ⟨current, d, hfind, hd, Option.some.inj hedited.displayName, hedited.description,
    Option.some.inj hedited.name, hstored, hget (by simp) "u" after.clock hpermits⟩

/-- Among samples an infinite number stands as null in the row, so what is stored is not what the
update returns. -/
theorem updated_sample_is_lost_in_rows :
    let source : Datasource := { id := "s", userId := "u", name := "s", type := .sqlite }
    let h : Host Unit :=
      { execute := fun _ _ _ => throw (.sourceFailed "gone"), beforeUpdate := fun _ => pure () }
    let request : CreateRequest :=
      { name := "sales", displayName := "Sales", type := .table
        tableConfig := some { datasourceId := "s", tableName := "sales" } }
    let infinite : Value := .float (1.0 / 0.0)
    let sent : Value := .object [("fields", .list [.object [("name", .text "a"),
      ("display_name", .text "A"), ("sample_values", .list [infinite])]])]
    let changes : Reading UpdateRequest :=
      ⟨{ fields := some [{ name := "a", displayName := "A", sampleValues := [infinite] }] }, sent⟩
    let start : World Unit := World.start ⟨.emptyRows, [source]⟩ {} .queued ()
    let made := (perform h (.create "u" request) { start with freshId := "t" }).2
    let after := (update h "u" "t" changes made).2
    made.Reachable h ∧ model UpdateRequest.reader sent = .ok changes ∧
      ∃ d stored, (update h "u" "t" changes made).1 = .ok d ∧
        after.repository.find? "t" = .ok (some stored) ∧ stored.fields ≠ d.fields := by
  intro source h request infinite sent changes start made after
  have hstart : start.Reachable h := .start (.inr rfl) _ _ _
  have hmade : made.Reachable h :=
    .perform (.passes start.clock start.now "t" [source] () hstart) trivial
  have htest : ((update h "u" "t" changes made).1.toOption.any fun d =>
      (after.repository.find? "t").toOption.join.any fun stored =>
        stored.fields.all (·.sampleValues.all (·.isNull)) &&
        !d.fields.all (·.sampleValues.all (·.isNull))) = true := by
    unfold after made start request h source changes sent infinite
    decide +kernel
  obtain ⟨d, hd, htest⟩ := exists_ok_of_any htest
  obtain ⟨stored, hstored, htest⟩ := exists_found_of_any htest
  obtain ⟨hnull, hkept⟩ := Bool.and_eq_true_iff.mp htest
  refine ⟨hmade, rfl, d, stored, hd, hstored, ?_⟩
  intro hsame
  rw [← hsame, hnull] at hkept
  cases hkept

end DatasetCatalog.Service
