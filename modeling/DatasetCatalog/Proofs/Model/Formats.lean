import DatasetCatalog.Proofs.Document.Formats
import DatasetCatalog.Proofs.Model.Documents
import DatasetCatalog.Proofs.Time.MomentText

/-!
# Formats of the parts of a dataset

Of the parts of a dataset only moments, doubles and free values need not last: a moment must be
proper, a double finite, and a free value plain.
-/

namespace DatasetCatalog

open Text Time Value

namespace Document.Format

def text : Format String := ofPlain text_readsBack (fun _ => trivial) .text

def textAtLeast (low : Nat) : Format String := text.refuse (·.length < low) .textTooShort

def textAtMost (high : Nat) : Format String := text.refuse (high < ·.length) .textTooLong

def textBetween (low high : Nat) : Format String :=
  (textAtLeast low).refuse (high < ·.length) .textTooLong

def int : Format Int := ofPlain int_readsBack (fun _ => trivial) .int

def intBetween (low high : Int) : Format Int :=
  (int.refuse (· < low) .belowMinimum).refuse (high < ·) .aboveMaximum

def named {α : Type} [Named α] : Format α :=
  ofPlain named_readsBack (fun _ => trivial) fun _ => .text _

def float : Format Float where
  reader := Document.float
  write := .float
  inOrder _ := True
  lasting x := x.isFinite = true
  readsBack := float_readsBack
  inOrder_of_reads _ := trivial
  lasting_of_reads {x v y} hv h := by
    obtain ⟨room, hv⟩ := hv
    cases room with
    | zero => cases hv
    | succ room =>
      rw [jsonFormIn] at hv
      split at hv
      · rename_i hx
        cases hv
        obtain ⟨rfl, _⟩ := (float_readsBack x y).mp h
        exact hx
      · cases hv
        simp [Reads, Document.float, writing?, floatOf?, Checked.map, Checked.fault] at h
  reads_form {x v} hx hv _ := by
    rw [hv.eq_of_isPlain (.float hx)]
    exact (float_readsBack x x).mpr ⟨rfl, trivial⟩

theorem form_moment {m : Moment} {v : Value} (h : (Value.moment m).HasForm v) :
    v = .text m.jsonText := by
  obtain ⟨room, h⟩ := h
  cases room with
  | zero => cases h
  | succ room =>
    cases h
    rfl

theorem reads_moment_jsonText {m n : Moment} :
    Reads Document.moment (.text m.jsonText) n ↔ momentOfText m.jsonText = .ok n := by
  simp only [Reads, Document.moment, writing?, Option.elim_some, Checked.bind]
  cases momentOfText m.jsonText with
  | ok n' => simp [Checked.map]
  | faults found => simp [Checked.map]

def moment : Format Moment where
  reader := Document.moment
  write := .moment
  inOrder _ := True
  lasting := Moment.Proper
  readsBack := moment_readsBack
  inOrder_of_reads _ := trivial
  lasting_of_reads hv h := by
    rw [form_moment hv, reads_moment_jsonText] at h
    exact proper_of_momentOfText h
  reads_form hm hv _ := by
    rw [form_moment hv, reads_moment_jsonText]
    exact momentOfText_jsonText hm

end Document.Format

open Document

/-- A list is refused for its length before its items are read. -/
theorem reads_listAtMost {α : Type} {r : Reader α} {high : Nat} {v : Value} {as : List α} :
    Reads (listAtMost high r) v as ↔ Reads (listOf r) v as ∧ as.length ≤ high := by
  cases v with
  | list vs =>
    have hread : listAtMost high r (.list vs) =
      if high < vs.length then .fault .listTooLong else listOf r (.list vs) := rfl
    by_cases hlength : high < vs.length
    · rw [if_pos hlength] at hread
      constructor
      · rintro ⟨_, h⟩
        rw [hread] at h
        cases h
      · rintro ⟨h, hle⟩
        rw [← (reads_listOf.mp h).length_eq] at hle
        omega
    · rw [if_neg hlength] at hread
      unfold Reads
      rw [hread]
      constructor
      · intro h
        have hle := (reads_listOf.mp h).length_eq
        exact ⟨h, by omega⟩
      · rintro ⟨h, _⟩
        exact h
  | _ =>
    constructor
    · rintro ⟨_, h⟩
      cases h
    · rintro ⟨⟨_, h⟩, _⟩
      cases h

def Document.Format.listAtMost {α : Type} (high : Nat) (f : Format α) : Format (List α) :=
  f.listOf.narrow (r := DatasetCatalog.listAtMost high f.reader) reads_listAtMost

section Plain
variable {entries : List (String × Value)} {key : String}

theorem isPlain_of_lookup (hentries : ∀ e ∈ entries, e.2.IsPlain) {v : Value}
    (h : entries.lookup key = some v) : v.IsPlain :=
  hentries (key, v) (mem_of_lookup h)

/-- What is read from an entry of plain data. -/
theorem of_reads_withDefault {α : Type} {r : Reader α} {default a : α} {p : α → Prop}
    (hentries : ∀ e ∈ entries, e.2.IsPlain) (h : (withDefault key default r).Reads entries a)
    (hdefault : p default) (hread : ∀ {v}, v.IsPlain → Reads r v a → p a) : p a := by
  rw [EntriesReader.reads_withDefault] at h
  cases hv : entries.lookup key with
  | none =>
    rw [hv] at h
    exact h ▸ hdefault
  | some v =>
    rw [hv] at h
    exact hread (isPlain_of_lookup hentries hv) h

end Plain

section Fields
variable {f : Field} {entries : List (String × Value)}

theorem FieldFormat.isPlain_document (f : FieldFormat) : f.document.IsPlain := by
  simp [FieldFormat.document]

theorem Field.isPlain_document (hf : ∀ v ∈ f.sampleValues, v.IsPlain) : f.document.IsPlain := by
  simpa [Field.document, Value.named, FieldFormat.isPlain_document] using hf

theorem Field.reads_sampleValues (h : Field.reader.Reads entries f) :
    (withDefault "sample_values" [] (listOf anyValue)).Reads entries f.sampleValues := by
  rw [Field.reader, EntriesReader.reads_where?, EntriesReader.reads_iff] at h
  simp only [EntriesReader.exists_reads_seq, EntriesReader.exists_reads_map] at h
  obtain ⟨⟨_, _, _, _, _, _, _, _, samples, hsamples, _, _, _, _, _, _, _, _, _, _, _, _, _, _, _,
    _, rfl⟩, _⟩ := h
  exact hsamples

theorem isPlain_of_reads_anyValues {v : Value} {vs : List Value} (hv : v.IsPlain)
    (h : Reads (listOf anyValue) v vs) : ∀ w ∈ vs, w.IsPlain := by
  cases hv with
  | @list ws hws =>
    obtain ⟨rfl, _⟩ := (anyValues_readsBack ws vs).mp h
    exact hws
  | _ =>
    obtain ⟨_, h⟩ := h
    cases h

def Field.documentFormat : Format Field where
  reader := model Field.reader
  write := Field.document
  inOrder f := f.complaint? = none
  lasting f := ∀ v ∈ f.sampleValues, v.IsPlain
  readsBack := Field.readsBack
  inOrder_of_reads h := by
    obtain ⟨entries, rfl, hread⟩ := exists_entries_of_reads_model h
    exact (EntriesReader.reads_where?.mp hread).2
  lasting_of_reads hv h := by
    obtain ⟨entries, rfl, hread⟩ := exists_entries_of_reads_model h
    exact of_reads_withDefault (p := fun vs => ∀ v ∈ vs, v.IsPlain)
      (IsPlain.object_iff.mp hv.isPlain) (Field.reads_sampleValues hread) nofun
      isPlain_of_reads_anyValues
  reads_form {f v} hf hv hin := by
    rw [hv.eq_of_isPlain (Field.isPlain_document hf)]
    exact (Field.readsBack f f).mpr ⟨rfl, hin⟩

end Fields

section Sources
variable {c : ViewConfig} {entries : List (String × Value)}

def TableConfig.documentFormat : Format TableConfig :=
  .ofPlain TableConfig.readsBack (fun _ => trivial) fun c => by
    simp [TableConfig.document, TableConfig.documentWith]

theorem SqlConfig.inOrder_of_reads {v : Value} {c : SqlConfig}
    (h : Reads (model SqlConfig.reader) v c) : 1 ≤ c.sql.length := by
  obtain ⟨entries, rfl, hread⟩ := exists_entries_of_reads_model h
  rw [SqlConfig.reader, EntriesReader.reads_iff] at hread
  simp only [EntriesReader.exists_reads_seq, EntriesReader.exists_reads_map] at hread
  obtain ⟨sql, hsql, _, _, rfl⟩ := hread
  rw [EntriesReader.reads_required] at hsql
  cases hentry : entries.lookup "sql" with
  | none =>
    rw [hentry] at hsql
    exact hsql.elim
  | some w =>
    rw [hentry] at hsql
    obtain ⟨_, hlength⟩ := reads_refuse.mp hsql
    exact Nat.not_lt.mp (of_decide_eq_false hlength)

def SqlConfig.documentFormat : Format SqlConfig :=
  .ofPlain SqlConfig.readsBack SqlConfig.inOrder_of_reads fun c => by simp [SqlConfig.document]

theorem ComputedField.isPlain_document (f : ComputedField) : f.document.IsPlain := by
  simp [ComputedField.document, Value.named]

theorem ViewConfig.isPlain_document (hc : ∀ f ∈ c.filters, f.value.IsPlain) :
    c.document.IsPlain := by
  simpa [ViewConfig.document, Filter.document, ComputedField.isPlain_document] using hc

theorem ViewConfig.reads_filters (h : ViewConfig.reader.Reads entries c) :
    (withDefault "filters" [] (listOf (model Filter.reader))).Reads entries c.filters := by
  rw [ViewConfig.reader, EntriesReader.reads_iff] at h
  simp only [EntriesReader.exists_reads_seq, EntriesReader.exists_reads_map] at h
  obtain ⟨_, _, filters, hfilters, _, _, rfl⟩ := h
  exact hfilters

theorem Filter.isPlain_of_reads {v : Value} {f : Filter} (hv : v.IsPlain)
    (h : Reads (model Filter.reader) v f) : f.value.IsPlain := by
  obtain ⟨entries, rfl, hread⟩ := exists_entries_of_reads_model h
  rw [Filter.reader, EntriesReader.reads_iff] at hread
  simp only [EntriesReader.exists_reads_seq, EntriesReader.exists_reads_map] at hread
  obtain ⟨value, hvalue, _, _, _, _, rfl⟩ := hread
  refine of_reads_withDefault (IsPlain.object_iff.mp hv) hvalue .null fun {w} hw hread => ?_
  obtain ⟨rfl, _⟩ := (anyValue_readsBack w value).mp hread
  exact hw

theorem Filter.isPlain_of_reads_listOf {v : Value} {fs : List Filter} (hv : v.IsPlain)
    (h : Reads (listOf (model Filter.reader)) v fs) : ∀ f ∈ fs, f.value.IsPlain := by
  cases hv with
  | @list ws hws =>
    intro f hf
    obtain ⟨w, hw, hread⟩ := exists_left_of_mem (reads_listOf.mp h) hf
    exact Filter.isPlain_of_reads (hws w hw) hread
  | _ =>
    obtain ⟨_, h⟩ := h
    cases h

def ViewConfig.documentFormat : Format ViewConfig where
  reader := model ViewConfig.reader
  write := ViewConfig.document
  inOrder _ := True
  lasting c := ∀ f ∈ c.filters, f.value.IsPlain
  readsBack := ViewConfig.readsBack
  inOrder_of_reads _ := trivial
  lasting_of_reads hv h := by
    obtain ⟨entries, rfl, hread⟩ := exists_entries_of_reads_model h
    exact of_reads_withDefault (p := fun fs => ∀ f ∈ fs, f.value.IsPlain)
      (IsPlain.object_iff.mp hv.isPlain) (ViewConfig.reads_filters hread) nofun
      Filter.isPlain_of_reads_listOf
  reads_form {c v} hc hv hin := by
    rw [hv.eq_of_isPlain (ViewConfig.isPlain_document hc)]
    exact (ViewConfig.readsBack c c).mpr ⟨rfl, hin⟩

end Sources

def Permission.documentFormat : Format Permission :=
  .ofPlain Permission.readsBack (fun _ => trivial) fun p => by
    simp [Permission.document, Value.named]

section Findings
variable {i j : QualityIssue}

theorem QualityIssue.isPlain_document (hi : i.percentage.isFinite = true) :
    i.document.IsPlain := by
  simpa [QualityIssue.document, Value.named] using hi

theorem QualityIssue.reads_percentage {entries : List (String × Value)}
    (h : QualityIssue.reader.Reads entries i) :
    (required "percentage" Document.float).Reads entries i.percentage := by
  rw [QualityIssue.reader, EntriesReader.reads_iff] at h
  simp only [EntriesReader.exists_reads_seq, EntriesReader.exists_reads_map] at h
  obtain ⟨_, _, _, _, percentage, hpercentage, _, _, _, _, _, _, rfl⟩ := h
  exact hpercentage

def QualityIssue.documentFormat : Format QualityIssue where
  reader := model QualityIssue.reader
  write := QualityIssue.document
  inOrder _ := True
  lasting i := i.percentage.isFinite = true
  readsBack := QualityIssue.readsBack
  inOrder_of_reads _ := trivial
  lasting_of_reads {i v j} hv h := by
    obtain ⟨forms, rfl, hforms⟩ := hv.object
    obtain ⟨w, hw, hform⟩ := hforms "percentage" _ rfl
    have hread := QualityIssue.reads_percentage (reads_model.mp h)
    rw [EntriesReader.reads_required, hw] at hread
    exact Format.float.lasting_of_reads hform hread
  reads_form {i v} hi hv hin := by
    rw [hv.eq_of_isPlain (QualityIssue.isPlain_document hi)]
    exact (QualityIssue.readsBack i i).mpr ⟨rfl, hin⟩

theorem DatasetMetadata.reads_lastRefreshed {entries : List (String × Value)} {m : DatasetMetadata}
    (h : DatasetMetadata.reader.Reads entries m) :
    (withDefault "last_refreshed" none (nullable moment)).Reads entries m.lastRefreshed := by
  rw [DatasetMetadata.reader, EntriesReader.reads_iff] at h
  simp only [EntriesReader.exists_reads_seq, EntriesReader.exists_reads_map] at h
  obtain ⟨_, _, refreshed, hrefreshed, _, _, _, _, rfl⟩ := h
  exact hrefreshed

def DatasetMetadata.documentFormat : Format DatasetMetadata where
  reader := model DatasetMetadata.reader
  write := DatasetMetadata.document
  inOrder _ := True
  lasting m := ∀ t, m.lastRefreshed = some t → t.Proper
  readsBack := DatasetMetadata.readsBack
  inOrder_of_reads _ := trivial
  lasting_of_reads {m v n} hv h := by
    obtain ⟨forms, rfl, hforms⟩ := hv.object
    obtain ⟨w, hw, hform⟩ := hforms "last_refreshed" _ rfl
    have hread := DatasetMetadata.reads_lastRefreshed (reads_model.mp h)
    rw [EntriesReader.reads_withDefault, hw] at hread
    exact (Format.moment.nullable nofun nofun).lasting_of_reads hform hread
  reads_form {m v} hm hv _ := by
    obtain ⟨forms, rfl, hforms⟩ := hv.object
    obtain ⟨records, hrecords, hrecordsForm⟩ := hforms "record_count" _ rfl
    obtain ⟨columns, hcolumns, hcolumnsForm⟩ := hforms "column_count" _ rfl
    obtain ⟨refreshed, hrefreshed, hrefreshedForm⟩ := hforms "last_refreshed" _ rfl
    obtain ⟨size, hsize, hsizeForm⟩ := hforms "data_size" _ rfl
    have hcount := Format.int.reads_form trivial hrecordsForm trivial
    have hcolumn := Format.int.reads_form trivial hcolumnsForm trivial
    have hmoment := (Format.moment.nullable nofun nofun).reads_form hm hrefreshedForm
      fun _ _ => trivial
    have hdata := (Format.int.nullable nofun nofun).reads_form (fun _ _ => trivial) hsizeForm
      fun _ _ => trivial
    rw [reads_model, DatasetMetadata.reader, EntriesReader.reads_iff]
    simp only [EntriesReader.exists_reads_seq, EntriesReader.exists_reads_map,
      EntriesReader.reads_withDefault, hrecords, hcolumns, hrefreshed, hsize, Option.elim_some]
    exact ⟨_, hdata, _, hmoment, _, hcolumn, _, hcount, rfl⟩

end Findings

end DatasetCatalog
