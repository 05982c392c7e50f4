import DatasetCatalog.Proofs.Model.Parts
import DatasetCatalog.Proofs.Service.Effects

/-!
# Failures leave no trace

An operation that fails has stored nothing. An update is refused before it is written or not at
all, except that rows cannot hold every dataset that is in order: where the document of the changed
dataset cannot be written as JSON, the write itself fails.
-/

namespace DatasetCatalog

namespace Store

theorem DocumentRow.eq_of_ofDataset_error {d : Dataset} {e : Error}
    (h : DocumentRow.ofDataset d = .error e) : e = .broken .unwritable := by
  unfold DocumentRow.ofDataset at h
  split at h
  · cases h
  · exact (Except.error.inj h).symm

/-- Whatever time it is, a patch that was in order can be written, but for what rows cannot hold. -/
theorem DatasetStore.update_of_patched {s : DatasetStore} {id : String} {current d : Dataset}
    {patch : List (String × Value)} {now : Time.Moment} (hfind : s.find? id = .ok (some current))
    (h : current.patched patch now = .ok d) (now' : Time.Moment) :
    (∃ d' s', s.update id patch now' = .ok (some d', s')) ∨
      (∃ kept, s = .rows kept) ∧ s.update id patch now' = .error (.broken .unwritable) := by
  rw [update_of_find? hfind (Dataset.patched_at h now')]
  cases s with
  | memory datasets => exact .inl ⟨_, _, rfl⟩
  | rows kept =>
    simp only [DatasetStore.replace]
    cases hrow : DocumentRow.ofDataset { d with updatedAt := now' } with
    | ok row => exact .inl ⟨_, _, rfl⟩
    | error e =>
      rw [DocumentRow.eq_of_ofDataset_error hrow]
      exact .inr ⟨⟨kept, rfl⟩, rfl⟩

theorem Repository.update_of_patched {r : Repository} {id : String} {current d : Dataset}
    {patch : List (String × Value)} {now : Time.Moment} (hfind : r.find? id = .ok (some current))
    (h : current.patched patch now = .ok d) (now' : Time.Moment) :
    (∃ d' r', r.update id patch now' = .ok (some d', r')) ∨
      (∃ kept, r.datasets = .rows kept) ∧
        r.update id patch now' = .error (.broken .unwritable) := by
  unfold Repository.update
  rcases DatasetStore.update_of_patched hfind h now' with ⟨d', s', hupdate⟩ | ⟨hrows, hupdate⟩
  · rw [hupdate]
    exact .inl ⟨d', _, rfl⟩
  · rw [hupdate]
    exact .inr ⟨hrows, rfl⟩

end Store

namespace Service

open Store

variable {ε : Type}

/-- The checks that come before the write of an update find nothing, and leave that world. -/
def World.PassesChecks (userId id : String) (changes : Document.Reading UpdateRequest)
    (w w' : World ε) : Prop :=
  ∃ current d, w.repository.find? id = .ok (some current) ∧
    current.permits userId .editor = true ∧
    checkChanges userId current changes.value changes.given.entries w = (.ok (), w') ∧
    current.patched changes.given.entries w'.now = .ok d

/-- An update that passes the checks is written, if the host lets it and rows can hold it. -/
theorem update_of_passesChecks {h : Host ε} (hh : h.Confined) {userId id : String}
    {changes : Document.Reading UpdateRequest} {w w' : World ε}
    (hchecks : w.PassesChecks userId id changes w')
    (hbefore : (h.beforeUpdate id w').1 = .ok ()) :
    (∃ d, (update h userId id changes w).1 = .ok d) ∨
      (∃ kept, w.repository.datasets = .rows kept) ∧
        (update h userId id changes w).1 = .error (.broken .unwritable) := by
  obtain ⟨current, d, hfind, hpermits, hpass, hpatched⟩ := hchecks
  have hload : load id w = (.ok current, w) := by
    rw [load_apply, readDataset_eq_ok.mpr hfind]
  have hrole : require current userId .editor w = (.ok (), w) := by
    rw [require_apply, Dataset.require, if_pos hpermits]
  have hsame : w'.repository = w.repository := by
    have hkept : Run.Within World.SameData (checkChanges userId current changes.value
      changes.given.entries : Run ε Unit) := .checkChanges getDataset_sameData _ _ _ _
    have hleft := hkept w
    rw [hpass] at hleft
    exact hleft
  have hkeeps := hh.beforeUpdate id w'
  rcases hb : h.beforeUpdate id w' with ⟨a, w''⟩
  rw [hb] at hbefore hkeeps
  simp only at hbefore
  subst hbefore
  obtain ⟨e, rfl⟩ := hkeeps
  simp only [update, Run.bind_apply, hload, hrole]
  by_cases hempty : changes.given.entries.isEmpty = true
  · rw [if_pos hempty]
    exact .inl ⟨current, rfl⟩
  rw [if_neg hempty]
  simp only [Run.bind_apply, hpass, Run.get_apply, Run.ofExcept_apply, hpatched, Except.mapError,
    updateStored, hb, setRepository, Run.modify_apply, Run.pure_apply, hsame]
  rcases Repository.update_of_patched hfind hpatched w'.now with
    ⟨d', r', hupdate⟩ | ⟨hrows, hupdate⟩
  · rw [hupdate]
    exact .inl ⟨d', rfl⟩
  · rw [hupdate]
    exact .inr ⟨hrows, rfl⟩

/-- An operation that fails, or that only reads, leaves the stored datasets as they are. An update
whose checks have passed fails only where rows cannot hold what is to be written. -/
theorem failures_leave_no_trace {h : Host ε} (hh : h.Confined) {o : Operation} (ho : o.WasRead)
    (w : World ε) :
    (∀ e, (perform h o w).1 = .error e → (perform h o w).2.repository = w.repository) ∧
    (o.OnlyReads → (perform h o w).2.repository = w.repository) ∧
    ∀ userId id changes w', o = .update userId id changes →
      w.PassesChecks userId id changes w' → (h.beforeUpdate id w').1 = .ok () →
      (∃ d, (perform h o w).1 = .ok (.dataset d)) ∨
        (∃ kept, w.repository.datasets = .rows kept) ∧
          (perform h o w).1 = .error (.broken .unwritable) := by
  refine ⟨?_, fun hreads => perform_sameData hh hreads w, ?_⟩
  · intro e he
    have heffect := perform_effect hh ho w
    rw [he] at heffect
    generalize (perform h o w).2.repository = r at heffect ⊢
    cases heffect
    rfl
  · rintro userId id changes w' rfl hchecks hbefore
    rw [perform, map_apply]
    rcases update_of_passesChecks hh hchecks hbefore with ⟨d, hok⟩ | ⟨hrows, herror⟩
    · exact .inl ⟨d, by rw [hok]; rfl⟩
    · exact .inr ⟨hrows, by rw [herror]; rfl⟩

/-- An owner's change goes through, and the same change by a stranger leaves everything as it is. -/
theorem failures_leave_no_trace_of_stranger :
    let source : Datasource := { id := "s", userId := "u", name := "s", type := .sqlite }
    let h : Host Unit :=
      { execute := fun _ _ _ => throw (.sourceFailed "gone"), beforeUpdate := fun _ => pure () }
    let request : CreateRequest :=
      { name := "sales", displayName := "Sales", type := .table
        tableConfig := some { datasourceId := "s", tableName := "sales" } }
    let changes : Document.Reading UpdateRequest :=
      ⟨{ displayName := some "Orders" }, .object [("display_name", .text "Orders")]⟩
    let start : World Unit := World.start ⟨.emptyMemory, [source]⟩ {} .queued ()
    let made := (perform h (.create "u" request) { start with freshId := "t" }).2
    (∃ d, (perform h (.update "u" "t" changes) made).1 = .ok (.dataset d)) ∧
      (∃ e, (perform h (.update "v" "t" changes) made).1 = .error e) ∧
      (perform h (.update "v" "t" changes) made).2.repository = made.repository := by
  intro source h request changes start made
  have hh : h.Confined := ⟨fun _ _ _ => World.Keeps.refl, fun _ => World.Keeps.refl⟩
  have hread : Document.model UpdateRequest.reader
      (.object [("display_name", .text "Orders")]) = .ok changes := rfl
  have hrefused : ∃ e, (perform h (.update "v" "t" changes) made).1 = .error e := by
    unfold made start request h source changes
    exact ⟨_, rfl⟩
  have hchecks : made.PassesChecks "u" "t" changes made := by
    unfold made start request h source changes
    exact ⟨_, _, rfl, rfl, rfl, rfl⟩
  obtain ⟨hfailed, _, _⟩ :=
    failures_leave_no_trace hh (o := .update "v" "t" changes) ⟨_, hread⟩ made
  obtain ⟨_, _, hpassed⟩ :=
    failures_leave_no_trace hh (o := .update "u" "t" changes) ⟨_, hread⟩ made
  obtain ⟨e, he⟩ := hrefused
  refine ⟨?_, ⟨e, he⟩, hfailed e he⟩
  rcases hpassed "u" "t" changes made rfl hchecks rfl with hok | ⟨⟨kept, hrows⟩, _⟩
  · exact hok
  · have hmemory : ∃ datasets, made.repository.datasets = .memory datasets := by
      unfold made start request h source
      exact ⟨_, rfl⟩
    obtain ⟨datasets, hdatasets⟩ := hmemory
    cases hdatasets.symm.trans hrows

/-- Octets that are no text may stand among samples, and then rows cannot hold the dataset. -/
theorem checked_update_may_be_unwritable :
    let source : Datasource := { id := "s", userId := "u", name := "s", type := .sqlite }
    let h : Host Unit :=
      { execute := fun _ _ _ => throw (.sourceFailed "gone"), beforeUpdate := fun _ => pure () }
    let request : CreateRequest :=
      { name := "sales", displayName := "Sales", type := .table
        tableConfig := some { datasourceId := "s", tableName := "sales" } }
    let sent : Value := .object [("fields", .list [.object [("name", .text "a"),
      ("display_name", .text "A"), ("sample_values", .list [.bytes [255]])]])]
    let changes : Document.Reading UpdateRequest :=
      ⟨{ fields := some [{ name := "a", displayName := "A", sampleValues := [.bytes [255]] }] },
        sent⟩
    let start : World Unit := World.start ⟨.emptyRows, []⟩ {} .queued ()
    let made := (perform h (.create "u" request)
      { start with freshId := "t", repository := ⟨.emptyRows, [source]⟩ }).2
    made.Reachable h ∧ Document.model UpdateRequest.reader sent = .ok changes ∧
      made.PassesChecks "u" "t" changes made ∧ (h.beforeUpdate "t" made).1 = .ok () ∧
      (perform h (.update "u" "t" changes) made).1 = .error (.broken .unwritable) := by
  intro source h request sent changes start made
  have hh : h.Confined := ⟨fun _ _ _ => World.Keeps.refl, fun _ => World.Keeps.refl⟩
  have hstart : start.Reachable h := .start (.inr rfl) _ _ _
  have hmade : made.Reachable h :=
    .perform (.passes start.clock start.now "t" [source] () hstart) trivial
  have hread : Document.model UpdateRequest.reader sent = .ok changes := rfl
  have htest : ((made.repository.find? "t").toOption.join.any fun d => d.permits "u" .editor &&
      (d.patched changes.given.entries made.now).toOption.isSome) = true := by
    unfold made start request h source changes sent
    decide +kernel
  have hrun : (perform h (.update "u" "t" changes) made).1.toOption.isSome = false := by
    unfold made start request h source changes sent
    decide +kernel
  have hchecks : made.PassesChecks "u" "t" changes made := by
    obtain ⟨current, hfind, htest⟩ := exists_found_of_any htest
    obtain ⟨hpermits, hpatched⟩ := Bool.and_eq_true_iff.mp htest
    cases hd : current.patched changes.given.entries made.now with
    | ok d => exact ⟨current, d, hfind, hpermits, rfl, hd⟩
    | error e =>
      rw [hd] at hpatched
      cases hpatched
  refine ⟨hmade, hread, hchecks, rfl, ?_⟩
  rw [perform, map_apply] at hrun ⊢
  rcases update_of_passesChecks hh hchecks rfl with ⟨d, hd⟩ | ⟨_, herror⟩
  · rw [hd] at hrun
    cases hrun
  · rw [herror]
    rfl

end Service

end DatasetCatalog
