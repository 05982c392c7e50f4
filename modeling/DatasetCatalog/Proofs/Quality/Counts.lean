import DatasetCatalog.Proofs.Value.Distinct
import DatasetCatalog.Quality.Issues

/-!
# What issues count

An issue of missing values counts the rows that lack one. In a primary key the rows without a value,
the repeated values and the different values are together all the rows. Neither depends on the order
of the rows. There are no issues to be had if a value of a primary key cannot be compared.
-/

namespace DatasetCatalog.Quality

open Inference Value

/-- A row has no value for a column: it has no entry for it, or null, or the empty text. -/
def Lacks (column : String) (row : Row) : Prop :=
  row.lookup column = none ∨ row.lookup column = some .null ∨ row.lookup column = some (.text "")

theorem isMissing_cell_iff {column : String} {row : Row} :
    isMissing (row.cell column) = true ↔ Lacks column row := by
  unfold Row.cell Lacks
  cases row.lookup column with
  | none => simp [isMissing]
  | some v => cases v <;> simp [isMissing]

instance (column : String) : DecidablePred (Lacks column) := fun _ =>
  decidable_of_iff _ isMissing_cell_iff

/-- The values of a column in the rows that have one. -/
def presentValues (column : String) (rows : List Row) : List Value :=
  (rows.filter fun row => ¬Lacks column row).map (·.cell column)

/-- What is found for a field: of each type at most one issue, which counts what it is about. -/
structure FoundFor (rows : List Row) (f : Field) (found : List QualityIssue) : Prop where
  types : (found.map (·.type)).Sublist [.missingValues, .duplicateRecords]
  field : ∀ i ∈ found, i.field = f.name
  missing : (∃ i ∈ found, i.type = .missingValues) ↔ ∃ row ∈ rows, Lacks f.name row
  missingCount : ∀ i ∈ found, i.type = .missingValues → i.count = rows.countP (Lacks f.name ·)
  duplicates : f.isPrimaryKey = true → ∃ repeated : Nat,
    rows.countP (Lacks f.name ·) + repeated + distinctNumber (presentValues f.name rows) =
      rows.length ∧
    ((∃ i ∈ found, i.type = .duplicateRecords) ↔ 0 < repeated) ∧
    ∀ i ∈ found, i.type = .duplicateRecords → i.count = repeated
  noKey : f.isPrimaryKey = false → ∀ i ∈ found, i.type ≠ .duplicateRecords

section Columns
variable {column column' : List Value}

theorem distinctCount_perm (h : column.Perm column') :
    distinctCount column = distinctCount column' := by
  rw [distinctCount_eq, distinctCount_eq, distinctNumber_perm h]

theorem distinctCount_le (column : List Value) : distinctCount column ≤ column.length := by
  rw [distinctCount_eq, ← (firstsOf_eraseDupsBy column).length_eq]
  exact (firstsOf_eraseDupsBy column).sublist.length_le

theorem duplicateCount_perm (h : column.Perm column') :
    duplicateCount column = duplicateCount column' := by
  have hpresent := h.filter fun v => !isMissing v
  rw [duplicateCount, duplicateCount]
  simp only [hpresent.length_eq, distinctCount_perm hpresent]

theorem missingIssue?_perm (f : Field) (h : column.Perm column') :
    missingIssue? f column = missingIssue? f column' := by
  unfold missingIssue?
  simp only [h.countP_eq, h.length_eq]

theorem duplicateIssue?_perm (f : Field) (h : column.Perm column') :
    duplicateIssue? f column = duplicateIssue? f column' := by
  unfold duplicateIssue?
  simp only [duplicateCount_perm h, h.length_eq]

end Columns

section Rows
variable {rows rows' : List Row}

theorem fieldIssues_perm (f : Field) (h : rows.Perm rows') :
    fieldIssues rows f = fieldIssues rows' f := by
  have hcolumn := h.map (Row.cell · f.name)
  unfold fieldIssues
  simp only [missingIssue?_perm f hcolumn, duplicateIssue?_perm f hcolumn]

theorem issues_perm (fields : List Field) (h : rows.Perm rows') :
    issues fields rows = issues fields rows' :=
  List.flatMap_congr fun f _ => fieldIssues_perm f h

theorem analyse_perm (fields : List Field) (h : rows.Perm rows') :
    analyse fields rows = analyse fields rows' := by
  have hcheckable : isCheckable rows = isCheckable rows' := by
    funext f
    rw [isCheckable, isCheckable, h.all_eq]
  rw [analyse, analyse, hcheckable, issues_perm fields h]

theorem hasKey_of_isMissing {v : Value} (h : isMissing v = true) : v.hasKey = true := by
  cases v with
  | null | text => rfl
  | _ => cases h

/-- What a row lacks does not have to be compared. -/
theorem isCheckable_iff {rows : List Row} {f : Field} : isCheckable rows f = true ↔
    (f.isPrimaryKey = true → ∀ v ∈ presentValues f.name rows, v.hasKey = true) := by
  rw [isCheckable, Bool.or_eq_true, Bool.not_eq_true', ← Bool.not_eq_true, ← imp_iff_not_or,
    List.all_eq_true]
  refine imp_congr_right fun _ => ⟨fun h v hv => ?_, fun h row hrow => ?_⟩
  · obtain ⟨row, hrow, rfl⟩ := List.mem_map.mp hv
    exact h row (List.mem_filter.mp hrow).1
  · by_cases hlacks : Lacks f.name row
    · exact hasKey_of_isMissing (isMissing_cell_iff.mpr hlacks)
    · exact h _ (List.mem_map_of_mem (List.mem_filter.mpr ⟨hrow, decide_eq_true hlacks⟩))

theorem analyse_eq_ok {fields : List Field} {rows : List Row} {found : List QualityIssue} :
    analyse fields rows = .ok found ↔
      (∀ f ∈ fields, isCheckable rows f = true) ∧ issues fields rows = found := by
  rw [analyse, ← List.all_eq_true]
  split <;> simp [*]

theorem countP_isMissing (column : String) (rows : List Row) :
    (rows.map (Row.cell · column)).countP isMissing = rows.countP (Lacks column ·) := by
  rw [List.countP_map]
  refine List.countP_congr fun row _ => ?_
  rw [Function.comp_apply, isMissing_cell_iff, decide_eq_true_eq]

theorem filter_present (column : String) (rows : List Row) :
    (rows.map (Row.cell · column)).filter (!isMissing ·) = presentValues column rows := by
  rw [presentValues, List.filter_map]
  refine congrArg _ (List.filter_congr fun row _ => ?_)
  rw [Function.comp_apply, Bool.eq_iff_iff, Bool.not_eq_true', ← Bool.not_eq_true,
    isMissing_cell_iff, decide_eq_true_eq]

/-- The rows are those without a value, the repeated values and the different values. -/
theorem countP_add_duplicateCount (column : String) (rows : List Row) :
    rows.countP (Lacks column ·) + duplicateCount (rows.map (Row.cell · column)) +
      distinctNumber (presentValues column rows) = rows.length := by
  have hparts := rows.length_eq_countP_add_countP (Lacks column ·)
  have hpresent : (presentValues column rows).length =
      rows.countP fun row => ¬decide (Lacks column row) = true := by
    rw [presentValues, List.length_map, List.countP_eq_length_filter]
    simp
  have hdistinct := distinctCount_le (presentValues column rows)
  rw [duplicateCount]
  simp only [filter_present]
  rw [distinctCount_eq] at hdistinct ⊢
  omega

end Rows

section Found
variable {f : Field} {column : List Value} {rows : List Row} {i : QualityIssue}

theorem of_missingIssue? (h : missingIssue? f column = some i) :
    i.type = .missingValues ∧ i.field = f.name ∧ i.count = column.countP isMissing := by
  unfold missingIssue? at h
  simp only at h
  split at h
  · cases h
  · cases h
    exact ⟨rfl, rfl, rfl⟩

theorem of_duplicateIssue? (h : duplicateIssue? f column = some i) :
    i.type = .duplicateRecords ∧ i.field = f.name ∧ i.count = duplicateCount column := by
  unfold duplicateIssue? at h
  simp only at h
  split at h
  · cases h
  · cases h
    exact ⟨rfl, rfl, rfl⟩

theorem exists_missingIssue? :
    (∃ i, missingIssue? f column = some i) ↔ 0 < column.countP isMissing := by
  unfold missingIssue?
  simp only
  split <;> rename_i h <;> rw [beq_iff_eq] at h
  · simp [h]
  · simpa using Nat.pos_of_ne_zero h

theorem exists_duplicateIssue? : (∃ i, duplicateIssue? f column = some i) ↔
    f.isPrimaryKey = true ∧ 0 < duplicateCount column := by
  unfold duplicateIssue?
  simp only
  split <;> rename_i h <;> rw [Bool.or_eq_true, Bool.not_eq_true', beq_iff_eq] at h
  · rw [← Bool.not_eq_true] at h
    simp only [reduceCtorEq, exists_false, false_iff, not_and, not_lt, Nat.le_zero]
    exact fun hkey => h.resolve_left (not_not_intro hkey)
  · rw [not_or, Bool.not_eq_false] at h
    simpa [h.1] using Nat.pos_of_ne_zero h.2

theorem mem_fieldIssues : i ∈ fieldIssues rows f ↔
    missingIssue? f (rows.map (Row.cell · f.name)) = some i ∨
      duplicateIssue? f (rows.map (Row.cell · f.name)) = some i := by
  simp only [fieldIssues, List.mem_append, Option.mem_toList]

theorem mem_fieldIssues_of_missing (h : i ∈ fieldIssues rows f) (htype : i.type = .missingValues) :
    missingIssue? f (rows.map (Row.cell · f.name)) = some i := by
  refine (mem_fieldIssues.mp h).resolve_right fun hduplicates => ?_
  rw [(of_duplicateIssue? hduplicates).1] at htype
  cases htype

theorem mem_fieldIssues_of_duplicates (h : i ∈ fieldIssues rows f)
    (htype : i.type = .duplicateRecords) :
    duplicateIssue? f (rows.map (Row.cell · f.name)) = some i := by
  refine (mem_fieldIssues.mp h).resolve_left fun hmissing => ?_
  rw [(of_missingIssue? hmissing).1] at htype
  cases htype

theorem exists_missing_iff : (∃ i ∈ fieldIssues rows f, i.type = .missingValues) ↔
    0 < rows.countP (Lacks f.name ·) := by
  rw [← countP_isMissing, ← exists_missingIssue? (f := f)]
  constructor
  · exact fun ⟨i, hi, htype⟩ => ⟨i, mem_fieldIssues_of_missing hi htype⟩
  · exact fun ⟨i, hi⟩ => ⟨i, mem_fieldIssues.mpr (.inl hi), (of_missingIssue? hi).1⟩

theorem exists_duplicates_iff : (∃ i ∈ fieldIssues rows f, i.type = .duplicateRecords) ↔
    f.isPrimaryKey = true ∧ 0 < duplicateCount (rows.map (Row.cell · f.name)) := by
  rw [← exists_duplicateIssue?]
  constructor
  · exact fun ⟨i, hi, htype⟩ => ⟨i, mem_fieldIssues_of_duplicates hi htype⟩
  · exact fun ⟨i, hi⟩ => ⟨i, mem_fieldIssues.mpr (.inr hi), (of_duplicateIssue? hi).1⟩

theorem sublist_types {o : Option QualityIssue} {t : IssueType}
    (h : ∀ i, o = some i → i.type = t) : (o.toList.map (·.type)).Sublist [t] := by
  cases o with
  | none => exact List.nil_sublist _
  | some i => exact (h i rfl) ▸ List.Sublist.refl _

theorem foundFor_fieldIssues (rows : List Row) (f : Field) :
    FoundFor rows f (fieldIssues rows f) where
  types := by
    rw [fieldIssues, List.map_append]
    exact (sublist_types fun i hi => (of_missingIssue? hi).1).append
      (sublist_types fun i hi => (of_duplicateIssue? hi).1)
  field i hi := by
    rcases mem_fieldIssues.mp hi with hi | hi
    · exact (of_missingIssue? hi).2.1
    · exact (of_duplicateIssue? hi).2.1
  missing := by
    rw [exists_missing_iff, List.countP_pos_iff]
    simp only [decide_eq_true_eq]
  missingCount i hi htype := by
    rw [(of_missingIssue? (mem_fieldIssues_of_missing hi htype)).2.2, countP_isMissing]
  duplicates hkey := by
    refine ⟨_, countP_add_duplicateCount f.name rows, ?_, fun i hi htype => ?_⟩
    · rw [exists_duplicates_iff, and_iff_right hkey]
    · exact (of_duplicateIssue? (mem_fieldIssues_of_duplicates hi htype)).2.2
  noKey hkey i hi htype := by
    have hfound := exists_duplicates_iff.mp ⟨i, hi, htype⟩
    rw [hkey] at hfound
    cases hfound.1

end Found

/-- The issues are the same for any order of the rows. They are found unless a value of a primary key
is a list or an object that cannot be written, and the counts of each field's are exact. -/
theorem issues_count_exactly (fields : List Field) (rows : List Row) :
    (∀ rows', rows'.Perm rows → analyse fields rows' = analyse fields rows) ∧
      ((∃ found, analyse fields rows = .ok found) ↔ ∀ f ∈ fields, f.isPrimaryKey = true →
        ∀ v ∈ presentValues f.name rows, v.hasKey = true) ∧
      ∀ found, analyse fields rows = .ok found →
        ∃ parts, found = parts.flatten ∧ List.Forall₂ (FoundFor rows) fields parts := by
  refine ⟨fun rows' h => analyse_perm fields h, ?_, fun found h => ?_⟩
  · simp only [analyse_eq_ok, isCheckable_iff, exists_and_left, exists_eq', and_true]
  · obtain ⟨-, rfl⟩ := analyse_eq_ok.mp h
    refine ⟨fields.map (fieldIssues rows), rfl, ?_⟩
    rw [List.forall₂_map_right_iff, List.forall₂_same]
    exact fun f _ => foundFor_fieldIssues rows f

example : duplicateCount [.int 1, .float 1.0, .bool true, .float (0.0 / 0.0), .float (0.0 / 0.0),
    .nan 0 .double, .nan 1 .double, .nan 0 .double, .null, .list [.int 1], .text "[1]",
    .text ""] = 4 := by decide +kernel

end DatasetCatalog.Quality
