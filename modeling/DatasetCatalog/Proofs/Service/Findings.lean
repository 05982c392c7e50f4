import DatasetCatalog.Proofs.Inference.Merging
import DatasetCatalog.Proofs.Json.Injectivity
import DatasetCatalog.Proofs.Model.Parts
import DatasetCatalog.Proofs.Quality.Counts
import DatasetCatalog.Proofs.Quality.ExactScore
import DatasetCatalog.Proofs.Service.Parts

/-!
# What an analysis writes

The findings of an analysis make a dataset that is in order: inferred and merged fields have settings
that go with their roles, and an exact score is in range. So does a failure. Both change nothing but
what they state.
-/

namespace DatasetCatalog

open Document Time

/-- The rows of a sample as one value, the size of whose text is noted. -/
def Source.ExecutionResult.table (sample : Source.ExecutionResult) : Value :=
  .list (sample.rows.map .object)

/-- A dataset with what the analysis of a sample finds. -/
def Dataset.withFindings (d : Dataset) (now : Moment) (inferred : List Field)
    (sample : Source.ExecutionResult) : Dataset :=
  let fields := Inference.mergeFields d.fields inferred
  let sampled := fields.filter fun f => sample.columns.contains f.name
  { d with
    fields
    metadata :=
      { recordCount := sample.rows.length
        columnCount := sample.columns.length
        lastRefreshed := some now
        dataSize := some (Json.write sample.table).length }
    qualityIssues := Quality.issues sampled sample.rows
    qualityScore := some (Quality.exactScore sampled sample.rows)
    status := .active
    lastError := none
    updatedAt := now }

/-- The score of the findings is the one by exact percentages. -/
def Dataset.ScoresExactly (d : Dataset) (inferred : List Field) (sample : Source.ExecutionResult) :
    Prop :=
  let sampled := (Inference.mergeFields d.fields inferred).filter fun f =>
    sample.columns.contains f.name
  Quality.scoreOf (Quality.issues sampled sample.rows) =
    .ok (Quality.exactScore sampled sample.rows)

/-- A dataset whose analysis has failed. -/
def Dataset.withFailure (d : Dataset) (now : Moment) (message : String) : Dataset :=
  { d with status := .error, lastError := some message, updatedAt := now }

namespace Dataset.InOrder
variable {d : Dataset} {inferred : List Field} {message : String}

theorem withFindings (hd : d.InOrder) (hinferred : ∀ f ∈ inferred, f.Valid) (now : Moment)
    (sample : Source.ExecutionResult) : (d.withFindings now inferred sample).InOrder := by
  refine ⟨?_, hd.complaint?⟩
  have hparts := hd.parts
  simp only [Dataset.parts, List.forall_mem_cons, List.not_mem_nil, false_imp_iff,
    implies_true, and_true] at hparts ⊢
  obtain ⟨hid, huser, hname, hdisplayName, hdescription, htype, htable, hsql, hview, hfields, _,
    hcategory, htags, hpermissions, _, _, _, _, hversion, hcreated, _⟩ := hparts
  refine ⟨hid, huser, hname, hdisplayName, hdescription, htype, htable, hsql, hview, ?_, trivial,
    hcategory, htags, hpermissions, ?_, fun _ _ => trivial, trivial, by rintro _ ⟨⟩, hversion,
    hcreated, trivial⟩
  · have hvalid : ∀ f ∈ d.fields, f.Valid := fun f hf => Field.complaint?_eq_none_iff.mp (hfields f hf)
    exact fun f hf =>
      Field.complaint?_eq_none_iff.mpr (Inference.mergeFields_valid hvalid hinferred f hf)
  · intro score hscore
    cases hscore
    obtain ⟨hlow, hhigh⟩ := Quality.exactScore_mem
      ((Inference.mergeFields d.fields inferred).filter fun f => sample.columns.contains f.name)
      sample.rows
    exact ⟨⟨trivial, decide_eq_false (Int.not_lt.mpr hlow)⟩,
      decide_eq_false (Int.not_lt.mpr hhigh)⟩

theorem withFailure (hd : d.InOrder) (now : Moment) (message : String) :
    (d.withFailure now message).InOrder := by
  refine ⟨?_, hd.complaint?⟩
  have hparts := hd.parts
  simp only [Dataset.parts, List.forall_mem_cons, List.not_mem_nil, false_imp_iff,
    implies_true, and_true] at hparts ⊢
  obtain ⟨hid, huser, hname, hdisplayName, hdescription, htype, htable, hsql, hview, hfields,
    hmetadata, hcategory, htags, hpermissions, hscore, hissues, _, _, hversion, hcreated, _⟩ :=
    hparts
  exact ⟨hid, huser, hname, hdisplayName, hdescription, htype, htable, hsql, hview, hfields,
    hmetadata, hcategory, htags, hpermissions, hscore, hissues, trivial, fun _ _ => trivial,
    hversion, hcreated, trivial⟩

end Dataset.InOrder

/-- The entries in which an analysis states what it found. -/
def Dataset.findingEntries (d : Dataset) : List (String × Value) :=
  [("fields", .list (d.fields.map Field.document)),
   ("metadata", d.metadata.document),
   ("quality_issues", .list (d.qualityIssues.map QualityIssue.document)),
   ("quality_score", .ofOption .int d.qualityScore),
   ("status", .named d.status),
   ("last_error", .ofOption .text d.lastError)]

namespace Service
variable {d : Dataset} {inferred : List Field} {sample : Source.ExecutionResult}

/-- In rows that can be written, all cells can be compared. -/
theorem isCheckable_of_hasText {rows : List Inference.Row}
    (h : (Value.list (rows.map .object)).hasText = true) (f : Field) :
    Quality.isCheckable rows f = true := by
  rw [Value.hasText_list, List.all_map, List.all_eq_true] at h
  refine Bool.or_eq_true_iff.mpr (.inr (List.all_eq_true.mpr fun row hrow => ?_))
  have hcells := h row hrow
  rw [Function.comp_apply, Value.hasText_object, List.all_eq_true] at hcells
  unfold Inference.Row.cell
  cases hcell : row.lookup f.name with
  | none => rfl
  | some v =>
    have hv := hcells _ (mem_of_lookup hcell)
    cases v with
    | list | object => exact hv
    | _ => rfl

/-- Where the score is exact, what is found is stated. -/
theorem findings_eq (hscore : d.ScoresExactly inferred sample) {text : String}
    (htext : canonicalJson sample.table = .ok text) (now : Moment) :
    findings now (Inference.mergeFields d.fields inferred) sample.columns sample.rows =
      .ok (d.withFindings now inferred sample).findingEntries := by
  obtain ⟨hwritable, rfl⟩ := canonicalJson_eq_ok.mp htext
  have hissues := Quality.analyse_eq_ok.mpr
    ⟨fun f (_ : f ∈ (Inference.mergeFields d.fields inferred).filter fun f =>
      sample.columns.contains f.name) => isCheckable_of_hasText hwritable f, rfl⟩
  unfold Dataset.ScoresExactly at hscore
  unfold Source.ExecutionResult.table at htext
  simp only [findings, hissues, htext, hscore, bind, Except.bind, pure, Except.pure]
  rw [String.length_ofList]
  rfl

/-- Nothing is found in rows without a text. -/
theorem findings_of_no_text {b : Breakdown} (htext : canonicalJson sample.table = .error b)
    (now : Moment) (fields : List Field) :
    ∃ b', findings now fields sample.columns sample.rows = .error b' := by
  unfold Source.ExecutionResult.table at htext
  unfold findings
  cases Quality.analyse (fields.filter fun f => sample.columns.contains f.name) sample.rows with
  | error b' => exact ⟨b', rfl⟩
  | ok issues =>
    rw [htext]
    exact ⟨b, rfl⟩

/-- The entries of the findings make the dataset that has them. -/
theorem patched_of_findings (hd : d.InOrder) (hinferred : ∀ f ∈ inferred, f.Valid) (now : Moment)
    (sample : Source.ExecutionResult) :
    d.patched (d.withFindings now inferred sample).findingEntries now =
      .ok (d.withFindings now inferred sample) := by
  have hkeys : (["fields", "metadata", "quality_issues", "quality_score", "status",
    "last_error"]).Nodup := by decide
  refine Dataset.patched_of_states (hd.withFindings hinferred now sample) hkeys rfl ?_
  simp only [Dataset.parts, List.forall_mem_cons]
  iterate 9 apply And.intro fun _ => .inr ⟨rfl, rfl⟩
  iterate 2 apply And.intro fun _ => .inl rfl
  iterate 3 apply And.intro fun _ => .inr ⟨rfl, rfl⟩
  iterate 4 apply And.intro fun _ => .inl rfl
  iterate 2 apply And.intro fun _ => .inr ⟨rfl, rfl⟩
  exact ⟨fun hkey => absurd rfl hkey, List.forall_mem_nil _⟩

theorem patched_of_failure (hd : d.InOrder) (now : Moment) (message : String) :
    d.patched (failurePatch message).entries now = .ok (d.withFailure now message) := by
  have hkeys : ["status", "last_error"].Nodup := by decide
  refine Dataset.patched_of_states (hd.withFailure now message) hkeys rfl ?_
  simp only [Dataset.parts, List.forall_mem_cons]
  iterate 16 apply And.intro fun _ => .inr ⟨rfl, rfl⟩
  iterate 2 apply And.intro fun _ => .inl rfl
  iterate 2 apply And.intro fun _ => .inr ⟨rfl, rfl⟩
  exact ⟨fun hkey => absurd rfl hkey, List.forall_mem_nil _⟩

end Service

end DatasetCatalog
