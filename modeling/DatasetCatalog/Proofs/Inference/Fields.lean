import DatasetCatalog.Proofs.Inference.Merging
import DatasetCatalog.Proofs.Value.Distinct

/-!
# Inferred fields

An inferred field has a role and what goes with it, and shows the first different cells. Nulls are
not looked at, but that there are some.
-/

namespace DatasetCatalog.Inference

open Value

/-- The samples of some cells are the first ten of those that equal none before. -/
structure SamplesOf (cells samples : List Value) : Prop where
  firsts : ∃ kept, FirstsOf cells kept ∧ samples = kept.take 10
  apart : samples.Pairwise fun v w => ¬v.Equal w
  ordered : samples.Sublist cells
  all : distinctNumber cells ≤ 10 → ∀ v ∈ cells, v ∈ samples ∨ ∃ w ∈ samples, w.Equal v

theorem samplesOf_take {cells kept : List Value} (h : FirstsOf cells kept) :
    SamplesOf cells (kept.take sampleLimit) := by
  have htake := List.take_sublist sampleLimit kept
  refine ⟨⟨_, h, rfl⟩, h.apart.sublist htake, htake.trans h.sublist, fun hfew => ?_⟩
  rw [List.take_of_length_le (h.length_eq ▸ hfew)]
  exact h.covers

/-- One more cell is kept if it equals none of those that are kept. -/
theorem firstsOf_next {cells kept : List Value} (h : FirstsOf cells kept) (v : Value) :
    FirstsOf (cells ++ [v])
      (if kept.any (·.key.same v.key) then kept else kept ++ [v]) := by
  split
  · rename_i hany
    obtain ⟨w, hw, hsame⟩ := List.any_eq_true.mp hany
    exact h.again_of_kept hw (same_key_iff.mp hsame)
  · rename_i hany
    exact h.new_of_kept fun w hw hequal =>
      hany (List.any_eq_true.mpr ⟨w, hw, same_key_iff.mpr hequal⟩)

/-- The samples are the first cells that are kept; the loop ends with the tenth. -/
theorem samplesOf_addSamples {cells kept rest samples : List Value} (h : FirstsOf cells kept)
    (hfew : kept.length < sampleLimit) (hsamples : addSamples kept rest = .ok samples) :
    SamplesOf (cells ++ rest) samples := by
  induction rest generalizing cells kept with
  | nil =>
    cases hsamples
    rw [List.append_nil, ← List.take_of_length_le hfew.le]
    exact samplesOf_take h
  | cons v rest ih =>
    rw [List.append_cons]
    have hnext := firstsOf_next h v
    unfold addSamples at hsamples
    simp only at hsamples
    obtain ⟨kept', hkept⟩ : ∃ kept', kept' =
      if kept.any (·.key.same v.key) then kept else kept ++ [v] := ⟨_, rfl⟩
    rw [← hkept] at hnext hsamples
    split at hsamples
    · cases hsamples
    split at hsamples
    · rename_i hfull
      have hend := Except.ok.inj hsamples
      subst hend
      -- the cells behind the tenth sample add to what would be kept, but not to the samples
      have hlength : kept'.length = sampleLimit := by
        refine Nat.le_antisymm ?_ hfull
        rw [hkept]
        split
        · exact hfew.le
        · rw [List.length_append]
          exact hfew
      obtain ⟨more, hmore⟩ := hnext.exists_extension rest
      have htake := samplesOf_take hmore
      rwa [← hlength, List.take_left] at htake
    · rename_i hfew'
      exact ih hnext (not_le.mp hfew') hsamples

section Column
variable {name : String} {column column' : List Value} {f : Field}

/-- The field of a column without a cell that is not null. -/
def blankField (name : String) : Field :=
  { name, displayName := displayName name, level := some (level name .string) }

/-- The field of a column with some cells that are not null. -/
def fieldOf (name : String) (type : DataType) (role : FieldType) (samples : List Value)
    (isNullable : Bool) : Field :=
  { name, type, isNullable
    displayName := displayName name
    fieldType := role
    aggregation := if role == .measure then some (aggregation name) else none
    level := if role == .dimension then some (level name type) else none
    sampleValues := samples }

/-- The field of some cells that are not null. -/
def fieldOfCells (name : String) (cells : List Value) (isNullable : Bool) :
    Except Breakdown Field := do
  let type ← dataType cells
  let role ← fieldType name type cells
  return fieldOf name type role (← addSamples [] cells) isNullable

/-- Apart from whether there are nulls, a field depends on the other cells alone. -/
theorem inferField_eq (name : String) (column : List Value) : inferField name column =
    if (column.filter (!·.isNull)).isEmpty then .ok (blankField name)
    else fieldOfCells name (column.filter (!·.isNull)) (column.any (·.isNull)) := by
  unfold inferField
  simp only
  split
  · rfl
  · rfl

theorem inferField_cases (h : inferField name column = .ok f) :
    column.filter (!·.isNull) = [] ∧ f = blankField name ∨
      column.filter (!·.isNull) ≠ [] ∧
        fieldOfCells name (column.filter (!·.isNull)) (column.any (·.isNull)) = .ok f := by
  rw [inferField_eq] at h
  split at h
  · rename_i hblank
    cases h
    exact .inl ⟨List.isEmpty_iff.mp hblank, rfl⟩
  · rename_i hcells
    exact .inr ⟨fun hnil => hcells (List.isEmpty_iff.mpr hnil), h⟩

section Cells
variable {cells : List Value} {b : Bool}

theorem fieldOfCells_ok (h : fieldOfCells name cells b = .ok f) :
    ∃ type role samples, dataType cells = .ok type ∧ fieldType name type cells = .ok role ∧
      addSamples [] cells = .ok samples ∧ f = fieldOf name type role samples b := by
  obtain ⟨type, htype, h⟩ := bind_eq_ok h
  obtain ⟨role, hrole, h⟩ := bind_eq_ok h
  obtain ⟨samples, hsamples, h⟩ := bind_eq_ok h
  exact ⟨type, role, samples, htype, hrole, hsamples, (Except.ok.inj h).symm⟩

theorem fieldOfCells_nullable (h : fieldOfCells name cells b = .ok f) (b' : Bool) :
    fieldOfCells name cells b' = .ok { f with isNullable := b' } := by
  obtain ⟨type, role, samples, htype, hrole, hsamples, rfl⟩ := fieldOfCells_ok h
  simp only [fieldOfCells, htype, hrole, hsamples, bind, Except.bind, pure, Except.pure, fieldOf]

end Cells

theorem fieldType_ne_calculated {type : DataType} {cells : List Value} {role : FieldType}
    (h : fieldType name type cells = .ok role) : role ≠ .calculated := by
  unfold fieldType at h
  split at h
  · cases h
    nofun
  split at h
  · cases h
    nofun
  split at h
  · cases h
  cases h
  split <;> nofun

theorem any_isNull_iff : column.any (·.isNull) = true ↔ ∃ v ∈ column, v = .null := by
  simp only [List.any_eq_true, isNull_iff]

theorem filter_eq_nil_iff : column.filter (!·.isNull) = [] ↔ ∀ v ∈ column, v = .null := by
  simp [List.filter_eq_nil_iff, isNull_iff]

theorem isNullable_iff (h : inferField name column = .ok f) :
    f.isNullable = true ↔ (∃ v ∈ column, v = .null) ∨ ∀ v ∈ column, v = .null := by
  rw [← filter_eq_nil_iff, ← any_isNull_iff]
  rcases inferField_cases h with ⟨hblank, rfl⟩ | ⟨hcells, hmade⟩
  · exact iff_of_true rfl (.inr hblank)
  · obtain ⟨_, _, _, _, _, _, rfl⟩ := fieldOfCells_ok hmade
    exact (or_iff_left hcells).symm

theorem samplesOf_inferField (h : inferField name column = .ok f) :
    SamplesOf (column.filter (!·.isNull)) f.sampleValues := by
  rcases inferField_cases h with ⟨hblank, rfl⟩ | ⟨_, hmade⟩
  · rw [hblank]
    exact samplesOf_take .nil
  · obtain ⟨_, _, _, _, _, hsamples, rfl⟩ := fieldOfCells_ok hmade
    exact samplesOf_addSamples .nil (by decide) hsamples

/-- Other nulls change nothing but whether there are some. -/
theorem inferField_of_nulls (h : inferField name column = .ok f)
    (hcells : column'.filter (!·.isNull) = column.filter (!·.isNull))
    (hsome : ∃ v ∈ column, v ≠ .null) :
    inferField name column' = .ok { f with isNullable := column'.any (·.isNull) } := by
  rcases inferField_cases h with ⟨hblank, -⟩ | ⟨hne, hmade⟩
  · obtain ⟨v, hv, hnull⟩ := hsome
    exact absurd (filter_eq_nil_iff.mp hblank v hv) hnull
  · rw [inferField_eq, hcells, if_neg fun hblank => hne (List.isEmpty_iff.mp hblank)]
    exact fieldOfCells_nullable hmade _

/-- What is inferred for a column: a measure or a dimension with what goes with it, whether there
are nulls, and samples. Nulls that come or go change nothing else while there is another cell. -/
theorem inferred_fields_are_consistent (h : inferField name column = .ok f) :
    f.fieldType ≠ .calculated ∧ (f.aggregation.isSome = true ↔ f.fieldType = .measure) ∧
      (f.level.isSome = true ↔ f.fieldType = .dimension) ∧
      (f.isNullable = true ↔ (∃ v ∈ column, v = .null) ∨ ∀ v ∈ column, v = .null) ∧
      SamplesOf (column.filter (!·.isNull)) f.sampleValues ∧
      ∀ column', column'.filter (!·.isNull) = column.filter (!·.isNull) →
        (∃ v ∈ column, v ≠ .null) →
        inferField name column' = .ok { f with isNullable := column'.any (·.isNull) } := by
  have hroles := (inferField_ok h).2
  refine ⟨?_, hroles.aggregation, hroles.level, isNullable_iff h, samplesOf_inferField h,
    fun column' hcells hsome => inferField_of_nulls h hcells hsome⟩
  rcases inferField_cases h with ⟨_, rfl⟩ | ⟨_, hmade⟩
  · nofun
  · obtain ⟨_, _, _, _, hrole, _, rfl⟩ := fieldOfCells_ok hmade
    exact fieldType_ne_calculated hrole

/-- One as a truth value, a whole number and a double is one sample, so are a list and its literal, and
so is one object that is not a number; each of the others is another. -/
theorem inferred_fields_are_consistent_of_mixed_cells :
    let cells : List Value := [.int 1, .text "[1]", .float (0.0 / 0.0), .bool true, .float 1.0,
      .nan 0 .double, .list [.int 1], .float (0.0 / 0.0), .nan 1 .double, .nan 0 .double]
    ∃ f, inferField "notes" (.null :: cells) = .ok f ∧ f.fieldType = .dimension ∧
      f.level.isSome = true ∧ f.isNullable = true ∧ f.sampleValues.length = 6 ∧
      SamplesOf cells f.sampleValues ∧
      inferField "notes" cells = .ok { f with isNullable := false } := by
  intro cells
  have hshown : (inferField "notes" (.null :: cells)).toOption.any
      (fun f => f.fieldType == .dimension && f.sampleValues.length == 6) = true := by
    decide +kernel
  obtain ⟨f, hinferred, hshape⟩ := exists_ok_of_any hshown
  rw [Bool.and_eq_true, beq_iff_eq, beq_iff_eq] at hshape
  obtain ⟨hrole, hcount⟩ := hshape
  obtain ⟨-, -, hlevel, hnullable, hsamples, hnulls⟩ := inferred_fields_are_consistent hinferred
  have hcells : cells.filter (!·.isNull) = (Value.null :: cells).filter (!·.isNull) := rfl
  have hsome : ∃ v ∈ Value.null :: cells, v ≠ .null :=
    ⟨.int 1, List.mem_cons_of_mem _ List.mem_cons_self, nofun⟩
  exact ⟨f, hinferred, hrole, hlevel.mpr hrole,
    hnullable.mpr (.inl ⟨.null, List.mem_cons_self, rfl⟩), hcount, hsamples,
    hnulls cells hcells hsome⟩

end Column

end DatasetCatalog.Inference
