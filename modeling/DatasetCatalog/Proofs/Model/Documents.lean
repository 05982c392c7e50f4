import DatasetCatalog.Proofs.Document.ReadBack

/-!
# Documents of the parts of a dataset

The document of each part of a dataset reads back as that part.
-/

namespace DatasetCatalog

open Text

namespace Document

theorem text_readsBack : ReadsBack text .text fun _ => True := by
  intro s t
  simp [Reads, text, eq_comm]

theorem int_readsBack : ReadsBack int .int fun _ => True := by
  intro n k
  simp [Reads, int, writing?, Checked.map, eq_comm]

theorem bool_readsBack : ReadsBack bool .bool fun _ => True := by
  intro b c
  simp [Reads, bool, writing?, Checked.map, eq_comm]

theorem float_readsBack : ReadsBack float .float fun _ => True := by
  intro x y
  simp [Reads, float, writing?, floatOf?, Checked.map, eq_comm]

theorem moment_readsBack : ReadsBack moment .moment fun _ => True := by
  intro m n
  simp [Reads, moment, writing?, Checked.map, eq_comm]

theorem anyValue_readsBack : ReadsBack anyValue (fun v => v) fun _ => True := by
  intro v w
  simp [Reads, anyValue, eq_comm]

end Document

open Document

theorem named_readsBack {α : Type} [Named α] : ReadsBack (named : Reader α) .named fun _ => True := by
  intro a b
  have hfind : (Named.all : List α).find? (fun b => Named.name b == Named.name a) = some a :=
    ofName?_name a
  simp only [Reads, named, Value.named, member, hfind, Checked.ok.injEq, Reading.mk.injEq,
    exists_and_left, exists_eq', and_true]
  exact eq_comm

theorem FieldFormat.readsBack :
    ReadsBack (model FieldFormat.reader) FieldFormat.document fun _ => True := by
  intro f g
  rw [FieldFormat.document, reads_model, EntriesReader.reads_iff, FieldFormat.reader]
  simp only [EntriesReader.exists_reads_seq, EntriesReader.exists_reads_map,
    EntriesReader.reads_withDefault, List.lookup_cons, String.reduceBEq, Option.elim_some,
    text_readsBack _ _, (text_readsBack.nullable nofun) _ _, (int_readsBack.nullable nofun) _ _,
    (bool_readsBack.nullable nofun) _ _, implies_true, and_true, exists_eq_left]
  exact eq_comm

theorem anyValues_readsBack : ReadsBack (listOf anyValue) .list fun _ => True := by
  intro vs ws
  have h := anyValue_readsBack.listOf vs ws
  simp only [List.map_id'] at h
  rw [h]
  simp

theorem Field.readsBack :
    ReadsBack (model Field.reader) Field.document fun f => f.complaint? = none := by
  intro f g
  rw [Field.document, reads_model, Field.reader, EntriesReader.reads_where?,
    EntriesReader.reads_iff]
  simp only [EntriesReader.exists_reads_seq, EntriesReader.exists_reads_map,
    EntriesReader.reads_withDefault, EntriesReader.reads_required, List.lookup_cons,
    String.reduceBEq, Option.elim_some, text_readsBack _ _, (text_readsBack.nullable nofun) _ _,
    bool_readsBack _ _, named_readsBack _ _,
    ((named_readsBack (α := AggregationType)).nullable nofun) _ _,
    ((named_readsBack (α := DimensionLevel)).nullable nofun) _ _, anyValues_readsBack _ _,
    (FieldFormat.readsBack.nullable nofun) _ _, implies_true, and_true,
    exists_eq_left]
  constructor
  · rintro ⟨rfl, hrule⟩
    exact ⟨rfl, hrule⟩
  · rintro ⟨rfl, hrule⟩
    exact ⟨rfl, hrule⟩

theorem Filter.readsBack : ReadsBack (model Filter.reader) Filter.document fun _ => True := by
  intro f g
  rw [Filter.document, reads_model, EntriesReader.reads_iff, Filter.reader]
  simp only [EntriesReader.exists_reads_seq, EntriesReader.exists_reads_map,
    EntriesReader.reads_withDefault, EntriesReader.reads_required, List.lookup_cons,
    String.reduceBEq, Option.elim_some, text_readsBack _ _, anyValue_readsBack _ _, and_true,
    exists_eq_left]
  exact eq_comm

theorem ComputedField.readsBack :
    ReadsBack (model ComputedField.reader) ComputedField.document fun _ => True := by
  intro f g
  rw [ComputedField.document, reads_model, EntriesReader.reads_iff, ComputedField.reader]
  simp only [EntriesReader.exists_reads_seq, EntriesReader.exists_reads_map,
    EntriesReader.reads_withDefault, EntriesReader.reads_required, List.lookup_cons,
    String.reduceBEq, Option.elim_some, text_readsBack _ _, (text_readsBack.nullable nofun) _ _,
    named_readsBack _ _, implies_true, and_true, exists_eq_left]
  exact eq_comm

theorem TableConfig.readsBack :
    ReadsBack (model TableConfig.reader) TableConfig.document fun _ => True := by
  intro c e
  have hother : [("datasource_id", Value.text c.datasourceId), ("table_name", .text c.tableName),
      ("schema_name", .ofOption .text c.schemaName)].lookup "schema" = none := rfl
  rw [TableConfig.document, TableConfig.documentWith, reads_model, EntriesReader.reads_iff,
    TableConfig.reader]
  simp only [EntriesReader.exists_reads_seq, EntriesReader.exists_reads_map,
    EntriesReader.reads_required, EntriesReader.reads_entry_of_lookup hother,
    EntriesReader.reads_withDefault, List.lookup_cons, String.reduceBEq, Option.elim_some,
    text_readsBack _ _, (text_readsBack.nullable nofun) _ _, implies_true, and_true,
    exists_eq_left]
  exact eq_comm

theorem SqlConfig.readsBack :
    ReadsBack (model SqlConfig.reader) SqlConfig.document fun c => 1 ≤ c.sql.length := by
  intro c e
  rw [SqlConfig.document, reads_model, EntriesReader.reads_iff, SqlConfig.reader]
  simp only [EntriesReader.exists_reads_seq, EntriesReader.exists_reads_map,
    EntriesReader.reads_required, List.lookup_cons, String.reduceBEq, Option.elim_some,
    text_readsBack _ _, textAtLeast, (text_readsBack.refuse _ _) _ _,
    decide_eq_false_iff_not, Nat.not_lt, true_and, and_true, exists_eq_left]
  constructor
  · rintro ⟨_, ⟨rfl, hsql⟩, rfl⟩
    exact ⟨rfl, hsql⟩
  · rintro ⟨rfl, hsql⟩
    exact ⟨_, ⟨rfl, hsql⟩, rfl⟩

theorem ViewConfig.readsBack :
    ReadsBack (model ViewConfig.reader) ViewConfig.document fun _ => True := by
  intro c e
  rw [ViewConfig.document, reads_model, EntriesReader.reads_iff, ViewConfig.reader]
  simp only [EntriesReader.exists_reads_seq, EntriesReader.exists_reads_map,
    EntriesReader.reads_withDefault, EntriesReader.reads_required, List.lookup_cons,
    String.reduceBEq, Option.elim_some, text_readsBack _ _, Filter.readsBack.listOf _ _,
    ComputedField.readsBack.listOf _ _, implies_true, and_true, exists_eq_left]
  exact eq_comm

theorem Permission.readsBack :
    ReadsBack (model Permission.reader) Permission.document fun _ => True := by
  intro p q
  rw [Permission.document, reads_model, EntriesReader.reads_iff, Permission.reader]
  simp only [EntriesReader.exists_reads_seq, EntriesReader.exists_reads_map,
    EntriesReader.reads_required, List.lookup_cons, String.reduceBEq, Option.elim_some,
    text_readsBack _ _, named_readsBack _ _, and_true, exists_eq_left]
  exact eq_comm

theorem QualityIssue.readsBack :
    ReadsBack (model QualityIssue.reader) QualityIssue.document fun _ => True := by
  intro i j
  rw [QualityIssue.document, reads_model, EntriesReader.reads_iff, QualityIssue.reader]
  simp only [EntriesReader.exists_reads_seq, EntriesReader.exists_reads_map,
    EntriesReader.reads_required, List.lookup_cons, String.reduceBEq, Option.elim_some,
    text_readsBack _ _, named_readsBack _ _, int_readsBack _ _, float_readsBack _ _, and_true,
    exists_eq_left]
  exact eq_comm

theorem DatasetMetadata.readsBack :
    ReadsBack (model DatasetMetadata.reader) DatasetMetadata.document fun _ => True := by
  intro m n
  rw [DatasetMetadata.document, reads_model, EntriesReader.reads_iff, DatasetMetadata.reader]
  simp only [EntriesReader.exists_reads_seq, EntriesReader.exists_reads_map,
    EntriesReader.reads_withDefault, List.lookup_cons, String.reduceBEq, Option.elim_some,
    int_readsBack _ _, (int_readsBack.nullable nofun) _ _, (moment_readsBack.nullable nofun) _ _,
    implies_true, and_true, exists_eq_left]
  exact eq_comm

end DatasetCatalog
