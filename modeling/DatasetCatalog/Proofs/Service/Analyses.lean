import DatasetCatalog.Proofs.Service.Findings
import DatasetCatalog.Proofs.Service.Interruptions
import DatasetCatalog.Proofs.Store.Twins

/-!
# How analyses end

An analysis never fails: it ends with findings or a failure on the dataset, as the operations left it
that were done while the sample was taken. A dataset that is gone by then stays so. What the cache
holds of it is dropped in any case, and what is under way for it will not be kept.
-/

namespace DatasetCatalog.Service

open Cache Store

variable {ε : Type}

/-- How the analysis of a dataset fails: the world at that point, and the message for it. -/
inductive Fails (h : Host ε) (id : String) (left : World ε) :
    Except Error Source.ExecutionResult → World ε → String → Prop
  | foreseen {e : Error} {message : String} : foreseen? e = some message →
    Fails h id left (.error e) left message
  | unforeseen {e : Error} : foreseen? e = none →
    Fails h id left (.error e) left AnalysisFailure.unexpected.message
  | inference {sample : Source.ExecutionResult} {b : Breakdown} :
    Inference.inferFields sample.columns sample.rows = .error b →
    Fails h id left (.ok sample) left AnalysisFailure.unexpected.message
  | unwritten {sample : Source.ExecutionResult} {inferred : List Field} {b : Breakdown} :
    Inference.inferFields sample.columns sample.rows = .ok inferred →
    canonicalJson sample.table = .error b →
    Fails h id left (.ok sample) left AnalysisFailure.unexpected.message
  | refused {sample : Source.ExecutionResult} {inferred : List Field} {text : String} {e : Error}
      {w : World ε} :
    Inference.inferFields sample.columns sample.rows = .ok inferred →
    canonicalJson sample.table = .ok text → h.beforeUpdate id left = (.error e, w) →
    Fails h id left (.ok sample) w AnalysisFailure.unexpected.message

/-- What stands on a dataset after its analysis: the findings, a failure, or nothing new if the host
refused to have the failure written. -/
inductive Ends (h : Host ε) (id : String) (left : World ε) (latest : Dataset) :
    Except Error Source.ExecutionResult → Dataset → Prop
  | found {sample : Source.ExecutionResult} {inferred : List Field} {text : String} :
    Inference.inferFields sample.columns sample.rows = .ok inferred →
    canonicalJson sample.table = .ok text → (h.beforeUpdate id left).1 = .ok () →
    (∃ score, (latest.withFindings left.now inferred sample).qualityScore = some score ∧
      0 ≤ score ∧ score ≤ 100) →
    Ends h id left latest (.ok sample) (latest.withFindings left.now inferred sample)
  | failed {sampled : Except Error Source.ExecutionResult} {w : World ε} {message : String} :
    Fails h id left sampled w message → (h.beforeUpdate id w).1 = .ok () →
    Ends h id left latest sampled (latest.withFailure left.now message)
  | unrecorded {sampled : Except Error Source.ExecutionResult} {w : World ε} {message : String}
      {e : Error} : Fails h id left sampled w message → (h.beforeUpdate id w).1 = .error e →
    Ends h id left latest sampled latest

/-- The score of a sample is exact, and the store gives back what the analysis writes. -/
structure Faithful (h : Host ε) (id : String) (left : World ε) (latest : Dataset)
    (sampled : Except Error Source.ExecutionResult) : Prop where
  findings : ∀ sample inferred, sampled = .ok sample →
    Inference.inferFields sample.columns sample.rows = .ok inferred →
    latest.ScoresExactly inferred sample ∧
      left.repository.datasets.Retains (latest.withFindings left.now inferred sample)
  failure : ∀ w message, Fails h id left sampled w message →
    left.repository.datasets.Retains (latest.withFailure left.now message)

/-- Nothing is held or under way for a dataset, and what was under way will not be kept. -/
structure Forgets (id : String) (before after : Cache.Store Float Cached) : Prop where
  entries : ∀ {key v tags}, after.Holds key v tags → datasetTag id ∉ tags
  flights : ∀ f ∈ after.flights, datasetTag id ∉ f.tags
  stale : ∀ lead, before.Since lead → datasetTag id ∈ lead.tags → after.isStale lead = true

theorem forgets_of_removeByTags (id : String) (s : Cache.Store Float Cached) :
    Forgets id s (s.removeByTags [datasetTag id]).2 where
  entries held htag := by
    have hshare := (Store.holds_of_removeByTags held).2
    rw [sharesTag_iff.mpr ⟨_, htag, List.mem_singleton_self _⟩] at hshare
    cases hshare
  flights f hf htag := by
    have hshare := (List.mem_filter.mp hf).2
    rw [sharesTag_iff.mpr ⟨_, htag, List.mem_singleton_self _⟩] at hshare
    cases hshare
  stale _ hsince htag := hsince.isStale_removeByTags ⟨_, htag, List.mem_singleton_self _⟩

section Settling
variable {h : Host ε} {id : String} {left w : World ε} {latest : Dataset}

/-- A patch is written if the host lets it, and the store gives back what it makes. -/
theorem updateStored_of_retains (hb : ∀ id, (h.beforeUpdate id).Confined)
    (hids : w.repository.KeepsIds) (hfind : w.repository.find? id = .ok (some latest)) {p : Patch}
    {d : Dataset} (hpatched : latest.patched p.entries w.now = .ok d)
    (hretains : w.repository.datasets.Retains d) (hbefore : (h.beforeUpdate id w).1 = .ok ()) :
    (updateStored h id p.entries w).1 = .ok (some d) ∧
      (updateStored h id p.entries w).2.repository.find? id = .ok (some d) := by
  have hkeeps := hb id w
  rcases hrun : h.beforeUpdate id w with ⟨a, w'⟩
  rw [hrun] at hbefore hkeeps
  obtain ⟨e, rfl⟩ := hkeeps
  simp only at hbefore
  subst hbefore
  obtain ⟨s, hupdate, hfound⟩ := DatasetStore.update_retained hids hfind hpatched hretains
  have hwritten : w.repository.update id p.entries w.now =
      .ok (some d, { w.repository with datasets := s }) := by
    unfold Repository.update
    rw [hupdate]
    rfl
  simp only [updateStored, Run.bind_apply, hrun, Run.get_apply, Run.ofExcept_apply, hwritten,
    setRepository, Run.modify_apply, Run.pure_apply]
  exact ⟨trivial, hfound⟩

theorem updateStored_of_refused {e : Error} {w' : World ε} (patch : List (String × Value))
    (hbefore : h.beforeUpdate id w = (.error e, w')) :
    updateStored h id patch w = (.error e, w') := by
  simp only [updateStored, Run.bind_apply, hbefore]

/-- A failure is recorded on the dataset, unless the host refuses the write. -/
theorem markError_outcome (hb : ∀ id, (h.beforeUpdate id).Confined)
    (hids : w.repository.KeepsIds) (hfind : w.repository.find? id = .ok (some latest))
    (hlatest : latest.InOrder) {message : String}
    (hretains : w.repository.datasets.Retains (latest.withFailure w.now message)) :
    (h.beforeUpdate id w).1 = .ok () ∧
      (markError h id message w).2.repository.find? id =
        .ok (some (latest.withFailure w.now message)) ∨
    ∃ e, (h.beforeUpdate id w).1 = .error e ∧
      (markError h id message w).2.repository.find? id = .ok (some latest) := by
  have hmark : (markError h id message w).2 =
      (updateStored h id (failurePatch message).entries w).2 := rfl
  rw [hmark]
  cases hbefore : (h.beforeUpdate id w).1 with
  | ok u =>
    have hpatched := patched_of_failure hlatest w.now message
    exact .inl ⟨rfl, (updateStored_of_retains hb hids hfind hpatched hretains hbefore).2⟩
  | error e =>
    obtain ⟨s, hkept⟩ := hb id w
    have hrun : h.beforeUpdate id w = (.error e, { w with surroundings := s }) :=
      Prod.ext hbefore hkept
    rw [updateStored_of_refused _ hrun]
    exact .inr ⟨e, rfl, hfind⟩

/-- What is left to do after a failure is to record it. -/
theorem settle_of_fails {sampled : Except Error Source.ExecutionResult} {message : String}
    (hfind : left.repository.find? id = .ok (some latest))
    (hfaithful : Faithful h id left latest sampled) (hfails : Fails h id left sampled w message) :
    settle h id sampled left = (markError h id message >>= fun _ => invalidate id) w := by
  have hconclude : (concludeAnalysis h id sampled left = (.ok (some (.sampling message)), w)) ∨
      message = AnalysisFailure.unexpected.message ∧
        ∃ e, concludeAnalysis h id sampled left = (.error e, w) := by
    cases hfails with
    | foreseen hforeseen =>
      simp only [concludeAnalysis, hforeseen]
      exact .inl rfl
    | @unforeseen e hforeseen =>
      simp only [concludeAnalysis, hforeseen]
      exact .inr ⟨trivial, e, rfl⟩
    | @inference sample b hinferred =>
      simp only [concludeAnalysis, Run.ofBreakdown, hinferred]
      exact .inr ⟨trivial, _, rfl⟩
    | @unwritten sample inferred b hinferred htext =>
      obtain ⟨b', hfindings⟩ := findings_of_no_text htext left.now
        (Inference.mergeFields latest.fields inferred)
      simp only [concludeAnalysis, Run.ofBreakdown, hinferred, Run.bind_apply, Run.ofExcept_apply,
        Except.mapError, Run.get_apply, hfind, hfindings]
      exact .inr ⟨trivial, _, rfl⟩
    | @refused sample inferred text e _ hinferred htext hbefore =>
      have hscore := (hfaithful.findings sample inferred rfl hinferred).1
      simp only [concludeAnalysis, Run.ofBreakdown, hinferred, Run.bind_apply, Run.ofExcept_apply,
        Except.mapError, Run.get_apply, hfind, findings_eq hscore htext,
        updateStored_of_refused _ hbefore]
      exact .inr ⟨trivial, e, rfl⟩
  simp only [settle, Run.bind_apply, Run.attempt_apply]
  rcases hconclude with hrun | ⟨rfl, e, hrun⟩
  · rw [hrun]
    rfl
  · rw [hrun]
    simp only [Run.bind_apply]

/-- The findings are written if the host lets them be, and nothing is left to do but to drop the
tag. -/
theorem settle_of_completes {sample : Source.ExecutionResult} {inferred : List Field}
    (hb : ∀ id, (h.beforeUpdate id).Confined) (hids : left.repository.KeepsIds)
    (hfind : left.repository.find? id = .ok (some latest)) (hlatest : latest.InOrder)
    (hfaithful : Faithful h id left latest (.ok sample))
    (hinferred : Inference.inferFields sample.columns sample.rows = .ok inferred) {text : String}
    (htext : canonicalJson sample.table = .ok text)
    (hbefore : (h.beforeUpdate id left).1 = .ok ()) :
    (settle h id (.ok sample) left).2.repository.find? id =
      .ok (some (latest.withFindings left.now inferred sample)) := by
  obtain ⟨hscore, hretains⟩ := hfaithful.findings sample inferred rfl hinferred
  have hfindings := findings_eq hscore htext left.now
  obtain ⟨p, hp⟩ := exists_patch_of_findings hfindings
  have hpatched := patched_of_findings hlatest (Inference.inferFields_valid hinferred) left.now sample
  rw [← hp] at hpatched
  obtain ⟨hok, hfound⟩ := updateStored_of_retains hb hids hfind hpatched hretains hbefore
  have hconclude : concludeAnalysis h id (.ok sample) left =
      (.ok none, (updateStored h id p.entries left).2) := by
    simp only [concludeAnalysis, Run.ofBreakdown, hinferred, Run.bind_apply, Run.ofExcept_apply,
      Except.mapError, Run.get_apply, hfind, hfindings, ← hp]
    rcases hrun : updateStored h id p.entries left with ⟨a, w'⟩
    rw [hrun] at hok
    simp only at hok
    subst hok
    rfl
  simp only [settle, Run.bind_apply, Run.attempt_apply, hconclude]
  exact hfound

/-- Whatever the sample is, the analysis ends in one of the ways. -/
theorem settle_ends {sampled : Except Error Source.ExecutionResult}
    (hb : ∀ id, (h.beforeUpdate id).Confined) (hids : left.repository.KeepsIds)
    (hfind : left.repository.find? id = .ok (some latest)) (hlatest : latest.InOrder)
    (hfaithful : Faithful h id left latest sampled) :
    ∃ d, Ends h id left latest sampled d ∧
      (settle h id sampled left).2.repository.find? id = .ok (some d) := by
  have hfailed {w : World ε} {message : String} (hkeeps : left.Keeps w)
      (hfails : Fails h id left sampled w message) :
      ∃ d, Ends h id left latest sampled d ∧
        (settle h id sampled left).2.repository.find? id = .ok (some d) := by
    rw [settle_of_fails hfind hfaithful hfails]
    have hretains := hfaithful.failure w message hfails
    obtain ⟨s, rfl⟩ := hkeeps
    rcases markError_outcome (w := { left with surroundings := s }) hb hids hfind hlatest hretains
      with ⟨hbefore, hfound⟩ | ⟨e, hbefore, hfound⟩
    · exact ⟨_, .failed hfails hbefore, hfound⟩
    · exact ⟨_, .unrecorded hfails hbefore, hfound⟩
  cases sampled with
  | error e =>
    cases hforeseen : foreseen? e with
    | some message => exact hfailed (.refl left) (.foreseen hforeseen)
    | none => exact hfailed (.refl left) (.unforeseen hforeseen)
  | ok sample =>
    cases hinferred : Inference.inferFields sample.columns sample.rows with
    | error b => exact hfailed (.refl left) (.inference hinferred)
    | ok inferred =>
      cases htext : canonicalJson sample.table with
      | error b => exact hfailed (.refl left) (.unwritten hinferred htext)
      | ok text =>
        have hkeeps := hb id left
        rcases hbefore : h.beforeUpdate id left with ⟨e | u, w⟩
        · rw [hbefore] at hkeeps
          exact hfailed hkeeps (.refused hinferred htext hbefore)
        · have hlet : (h.beforeUpdate id left).1 = .ok () := by rw [hbefore]
          exact ⟨_, .found hinferred htext hlet ⟨_, rfl, Quality.exactScore_mem _ _⟩,
            settle_of_completes hb hids hfind hlatest hfaithful hinferred htext hlet⟩

end Settling

/-- An analysis does not fail. It changes no other dataset, and makes none that is gone; the one that
is analysed ends in one of the ways, on what was left of it when the sample had been taken. -/
theorem analyses_end_on_their_dataset {h : Host ε} (hh : h.Orderly) {w : World ε} (hw : w.Sound)
    (id : String) :
    let left := w.afterSample h id
    let after := (analyse h id w).2
    (analyse h id w).1 = .ok () ∧
    (∀ other, other ≠ id → after.repository.find? other = left.repository.find? other) ∧
    (w.repository.find? id = .ok none → after.repository = w.repository) ∧
    ((∀ latest, left.repository.find? id ≠ .ok (some latest)) →
      after.repository = left.repository) ∧
    (∀ d latest, w.repository.find? id = .ok (some d) →
      left.repository.find? id = .ok (some latest) →
      Faithful h id left latest (sample h d w).1 →
      ∃ d', Ends h id left latest (sample h d w).1 d' ∧
        after.repository.find? id = .ok (some d')) ∧
    Forgets id left.cache after.cache := by
  intro left after
  have hleft : left.Sound := hw.afterSample hh id
  obtain ⟨w', hrun, hchange⟩ := analyse_invalidates_afterSample hh.beforeUpdate id w
  have hafter : after = (invalidate id w').2 := by rw [← hrun]
  have hcache : w'.cache = left.cache := by
    rcases hchange with ⟨e, rfl⟩ | ⟨p, d, r, e, _, rfl⟩ <;> rfl
  refine ⟨by rw [hrun]; rfl, ?_, ?_, ?_, ?_, ?_⟩
  · intro other hne
    rw [hafter]
    rcases hchange with ⟨e, rfl⟩ | ⟨p, d, r, e, hupdate, rfl⟩
    · rfl
    · exact (Repository.update_frame hleft.keepsIds hupdate).2 other hne
  · intro hnone
    change (analyse h id w).2.repository = _
    rw [analyse_apply, hnone]
    rfl
  · intro hgone
    rw [hafter]
    rcases hchange with ⟨e, rfl⟩ | ⟨p, d, r, e, hupdate, rfl⟩
    · rfl
    · obtain ⟨⟨updated, s⟩, hstored, hr⟩ := map_eq_ok hupdate
      cases hr
      rcases DatasetStore.update_cases hstored with ⟨hnone, _⟩ | ⟨current, _, hfound, _⟩
      · cases hnone
      · exact absurd hfound (hgone current)
  · intro d latest hd hlatest hfaithful
    have hsampled : left = (sample h d w).2 := by
      simp only [left, World.afterSample, hd]
    have hsettled : after = (settle h id (sample h d w).1 left).2 := by
      simp only [after, analyse_apply, hd, hsampled]
    have hinOrder := (hleft.inOrder.of_stores (DatasetStore.stores_of_find? hlatest)).1
    rw [hsettled]
    exact settle_ends hh.beforeUpdate hleft.keepsIds hlatest hinOrder hfaithful
  · rw [hafter, ← hcache]
    exact forgets_of_removeByTags id w'.cache

/-- The findings go with the new title that a dataset was given while its sample was taken. -/
theorem analyses_end_on_their_dataset_of_edited :
    let source : Datasource := { id := "s", userId := "u", name := "s", type := .sqlite }
    let sample : Source.ExecutionResult :=
      { columns := ["city"], rows := [[("city", .text "Bonn")]] }
    let k : Host Unit :=
      { execute := fun _ _ _ => pure sample, beforeUpdate := fun _ => pure () }
    let request : CreateRequest :=
      { name := "sales", displayName := "Sales", type := .table
        tableConfig := some { datasourceId := "s", tableName := "sales" } }
    let changes : Document.Reading UpdateRequest :=
      ⟨{ displayName := some "Orders" }, .object [("display_name", .text "Orders")]⟩
    let h := k.interrupted (performAll k [.update "u" "t" changes])
    let start : World Unit := World.start ⟨.emptyMemory, [source]⟩ {} .queued ()
    let made := (perform k (.create "u" request) { start with freshId := "t" }).2
    let left := made.afterSample h "t"
    ∃ latest inferred, left.repository.find? "t" = .ok (some latest) ∧
      latest.displayName = "Orders" ∧ Inference.inferFields sample.columns sample.rows = .ok inferred ∧
      (analyse h "t" made).2.repository.find? "t" =
        .ok (some (latest.withFindings left.now inferred sample)) := by
  intro source sample k request changes h start made left
  have hk : k.Confined := ⟨fun _ _ _ => World.Keeps.refl, fun _ => World.Keeps.refl⟩
  have hread : Document.model UpdateRequest.reader
      (.object [("display_name", .text "Orders")]) = .ok changes := rfl
  have hh : h.Orderly := hk.orderly.interrupted <|
    performAll_staysSound hk.orderly (List.forall_mem_singleton.mpr ⟨_, hread⟩)
  have hstart : start.Reachable k := .start (.inl rfl) _ _ _
  have hmade : made.Sound := World.Reachable.sound hk.orderly
    (.perform (.passes start.clock start.now "t" [source] () hstart) trivial)
  have hsampled : ∃ d, made.repository.find? "t" = .ok (some d) ∧
      (Service.sample h d made).1 = .ok sample := by
    unfold made start h k request source changes sample
    exact ⟨_, rfl, rfl⟩
  have htest : ((left.repository.find? "t").toOption.join.any fun latest =>
      (Inference.inferFields sample.columns sample.rows).toOption.any fun inferred =>
        latest.displayName == "Orders" &&
        (Quality.issues ((Inference.mergeFields latest.fields inferred).filter fun f =>
          sample.columns.contains f.name) sample.rows).isEmpty) = true := by
    unfold left made start h k request source changes sample
    decide +kernel
  obtain ⟨_, _, _, _, hends, _⟩ := analyses_end_on_their_dataset hh hmade "t"
  obtain ⟨d, hd, hsampled⟩ := hsampled
  obtain ⟨latest, hlatest, htest⟩ := exists_found_of_any htest
  obtain ⟨inferred, hinferred, htest⟩ := exists_ok_of_any htest
  obtain ⟨htitle, hissues⟩ := Bool.and_eq_true_iff.mp htest
  have hmemory : ∃ datasets, left.repository.datasets = .memory datasets := by
    unfold left made start h k request source changes sample
    exact ⟨_, rfl⟩
  have hretains (d : Dataset) : left.repository.datasets.Retains d := by
    obtain ⟨datasets, hdatasets⟩ := hmemory
    intro kept hkept
    cases hdatasets.symm.trans hkept
  have hfaithful : Faithful h "t" left latest (.ok sample) := by
    refine ⟨?_, fun _ _ _ => hretains _⟩
    rintro _ other ⟨⟩ hother
    obtain rfl : inferred = other := Except.ok.inj (hinferred.symm.trans hother)
    exact ⟨Quality.scoreOf_of_no_issues (List.isEmpty_iff.mp hissues), hretains _⟩
  have hended := hends d latest hd hlatest
  rw [hsampled] at hended
  obtain ⟨d', hended, hfound⟩ := hended hfaithful
  refine ⟨latest, inferred, hlatest, beq_iff_eq.mp htitle, hinferred, ?_⟩
  cases hended with
  | found hother _ _ _ =>
    obtain rfl := Except.ok.inj (hinferred.symm.trans hother)
    exact hfound
  | failed hfails _ | unrecorded hfails _ =>
    cases hfails with
    | inference hother => cases hinferred.symm.trans hother
    | unwritten _ htext => cases htext
    | refused _ _ hbefore => cases hbefore

/-- An infinite cell stands as null in the row, so the fields that are read are not those that were
found. -/
theorem infinite_sample_is_lost_in_rows :
    let source : Datasource := { id := "s", userId := "u", name := "s", type := .sqlite }
    let sample : Source.ExecutionResult :=
      { columns := ["rate"], rows := [[("rate", .float (1.0 / 0.0))]] }
    let h : Host Unit :=
      { execute := fun _ _ _ => pure sample, beforeUpdate := fun _ => pure () }
    let request : CreateRequest :=
      { name := "sales", displayName := "Sales", type := .table
        tableConfig := some { datasourceId := "s", tableName := "sales" } }
    let start : World Unit := World.start ⟨.emptyRows, [source]⟩ {} .queued ()
    let made := (perform h (.create "u" request) { start with freshId := "t" }).2
    let after := (analyse h "t" made).2
    ∃ latest inferred d, made.repository.find? "t" = .ok (some latest) ∧
      Service.sample h latest made = (.ok sample, made) ∧
      Inference.inferFields sample.columns sample.rows = .ok inferred ∧
      latest.ScoresExactly inferred sample ∧
      after.repository.find? "t" = .ok (some d) ∧ d.status = .active ∧
      d.fields ≠ Inference.mergeFields latest.fields inferred := by
  intro source sample h request start made after
  have htest : ((made.repository.find? "t").toOption.join.any fun latest =>
      (after.repository.find? "t").toOption.join.any fun d =>
      (Inference.inferFields sample.columns sample.rows).toOption.any fun inferred =>
        let found := Inference.mergeFields latest.fields inferred
        (Quality.issues (found.filter fun f => sample.columns.contains f.name)
          sample.rows).isEmpty && d.status == .active &&
        d.fields.all (·.sampleValues.all (·.isNull)) &&
        !found.all (·.sampleValues.all (·.isNull))) = true := by
    unfold after made start h request source sample
    decide +kernel
  have hsampled : ∃ d, made.repository.find? "t" = .ok (some d) ∧
      Service.sample h d made = (.ok sample, made) := by
    unfold made start h request source sample
    exact ⟨_, rfl, rfl⟩
  obtain ⟨current, hcurrent, hsampled⟩ := hsampled
  obtain ⟨latest, hlatest, htest⟩ := exists_found_of_any htest
  obtain ⟨d, hd, htest⟩ := exists_found_of_any htest
  obtain ⟨inferred, hinferred, htest⟩ := exists_ok_of_any htest
  simp only [Bool.and_eq_true, List.isEmpty_iff, beq_iff_eq] at htest
  obtain ⟨⟨⟨hissues, hstatus⟩, hread⟩, hfound⟩ := htest
  obtain rfl : latest = current := Option.some.inj (Except.ok.inj (hlatest.symm.trans hcurrent))
  refine ⟨latest, inferred, d, hlatest, hsampled, hinferred,
    Quality.scoreOf_of_no_issues hissues, hd, hstatus, ?_⟩
  intro hsame
  rw [← hsame, hread] at hfound
  cases hfound

end DatasetCatalog.Service
