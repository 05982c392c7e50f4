import DatasetCatalog.Inference.Merge
import DatasetCatalog.Proofs.Model.Documents
import DatasetCatalog.Proofs.Success

/-!
# Merging

A merge has one field for each inferred one and then the calculated fields that outlive the columns.
A field that had its name before keeps what was set on it. To merge the same findings again changes
nothing.
-/

namespace DatasetCatalog.Inference

open Document

section Roles
variable {f : Field}

/-- Measures have an aggregation and dimensions have a level, and no other field has one. -/
structure RoleSet (f : Field) : Prop where
  aggregation : f.aggregation.isSome = true ↔ f.fieldType = .measure
  level : f.level.isSome = true ↔ f.fieldType = .dimension

theorem RoleSet.valid (h : RoleSet f) : f.Valid := ⟨h.aggregation.mp, h.level.mp⟩

theorem mergeField_roleSet (existing inferred : Field) : RoleSet (mergeField existing inferred) := by
  constructor
  · cases h : existing.fieldType <;> simp [mergeField, h]
  · cases h : existing.fieldType <;> simp [mergeField, h]

theorem inferField_ok {name : String} {column : List Value} (h : inferField name column = .ok f) :
    f.name = name ∧ RoleSet f := by
  unfold inferField at h
  simp only at h
  split at h
  · cases h
    exact ⟨rfl, ⟨nofun, nofun⟩, ⟨fun _ => rfl, fun _ => rfl⟩⟩
  · obtain ⟨type, _, h⟩ := bind_eq_ok h
    obtain ⟨role, _, h⟩ := bind_eq_ok h
    obtain ⟨samples, _, h⟩ := bind_eq_ok h
    cases h
    refine ⟨rfl, ?_, ?_⟩
    · simp
    · simp

variable {columns : List String} {rows : List Row} {inferred : List Field}

theorem exists_column_of_mem (h : inferFields columns rows = .ok inferred) (hf : f ∈ inferred) :
    inferField f.name (rows.map (Row.cell · f.name)) = .ok f ∧ RoleSet f := by
  obtain ⟨column, _, hinferred⟩ := exists_left_of_mem (forall₂_of_mapM h) hf
  obtain ⟨rfl, hroles⟩ := inferField_ok hinferred
  exact ⟨hinferred, hroles⟩

theorem inferFields_valid (h : inferFields columns rows = .ok inferred) :
    ∀ f ∈ inferred, f.Valid := fun _ hf => (exists_column_of_mem h hf).2.valid

/-- Columns of one name have one field. -/
theorem eq_of_same_name (h : inferFields columns rows = .ok inferred) {g : Field}
    (hf : f ∈ inferred) (hg : g ∈ inferred) (hname : g.name = f.name) : g = f := by
  have hinferred := (exists_column_of_mem h hg).1
  rw [hname, (exists_column_of_mem h hf).1] at hinferred
  exact (Except.ok.inj hinferred).symm

end Roles

section Lookup
variable {fields : List Field} {name : String} {f : Field}

theorem lastNamed?_eq_none : lastNamed? fields name = none ↔ ∀ f ∈ fields, f.name ≠ name := by
  simp [lastNamed?]

theorem lastNamed?_eq_some (h : lastNamed? fields name = some f) :
    f.name = name ∧ ∃ before after, fields = before ++ f :: after ∧
      ∀ later ∈ after, later.name ≠ name := by
  obtain ⟨hname, behind, front, hfields, hbehind⟩ := List.find?_eq_some_iff_append.mp h
  refine ⟨beq_iff_eq.mp hname, front.reverse, behind.reverse, ?_, fun later hlater => ?_⟩
  · rw [← fields.reverse_reverse, hfields]
    simp
  · simpa using hbehind later (List.mem_reverse.mp hlater)

/-- The only field of its name is the last one. -/
theorem lastNamed?_of_unique (hf : f ∈ fields) (h : ∀ g ∈ fields, g.name = f.name → g = f) :
    lastNamed? fields f.name = some f := by
  cases hlast : lastNamed? fields f.name with
  | none => exact absurd rfl (lastNamed?_eq_none.mp hlast f hf)
  | some g =>
    obtain ⟨hname, before, after, rfl, _⟩ := lastNamed?_eq_some hlast
    have hg : g ∈ before ++ g :: after := List.mem_append_right _ List.mem_cons_self
    rw [h g hg hname]

end Lookup

section Merged

/-- What was set is kept, and what was not is what is found. -/
def Kept {α : Type} (set found merged : Option α) : Prop :=
  (∀ a, set = some a → merged = some a) ∧ (set = none → merged = found)

theorem kept_or {α : Type} (set found : Option α) : Kept set found (set.or found) := by
  cases set with
  | none => exact ⟨nofun, fun _ => rfl⟩
  | some a => exact ⟨fun _ ha => ha, nofun⟩

/-- An existing field merged with a fresh one of its name. -/
structure Merges (existing fresh merged : Field) : Prop where
  name : merged.name = existing.name
  displayName : merged.displayName = existing.displayName
  fieldType : merged.fieldType = existing.fieldType
  hidden : merged.hidden = existing.hidden
  isPrimaryKey : merged.isPrimaryKey = existing.isPrimaryKey
  description : Kept existing.description fresh.description merged.description
  expression : Kept existing.expression fresh.expression merged.expression
  format : Kept existing.format fresh.format merged.format
  type : merged.type = fresh.type
  isNullable : merged.isNullable = fresh.isNullable
  sampleValues : merged.sampleValues = fresh.sampleValues
  roleSet : RoleSet merged
  aggregation : ∀ a, existing.aggregation = some a → merged.aggregation = some a
  level : ∀ l, existing.level = some l → merged.level = some l

/-- What a merge has for a fresh field: the field itself if it is new, and otherwise the merger with
the last existing field of its name. -/
inductive MergedColumn (existing : List Field) (fresh : Field) : Field → Prop
  | new : (∀ f ∈ existing, f.name ≠ fresh.name) → MergedColumn existing fresh fresh
  | known {before after : List Field} {current merged : Field} :
      existing = before ++ current :: after → current.name = fresh.name →
      (∀ later ∈ after, later.name ≠ fresh.name) → Merges current fresh merged →
      MergedColumn existing fresh merged

/-- A calculated field with an expression, whose name no column has, outlives the columns. -/
structure Outlives (inferred : List Field) (f : Field) : Prop where
  calculated : f.fieldType = .calculated
  expression : ∃ sql, f.expression = some sql ∧ sql ≠ ""
  noColumn : ∀ fresh ∈ inferred, fresh.name ≠ f.name
  notPlaceholder : f.name ≠ placeholderName

variable {existing inferred : List Field} {fresh f : Field}

theorem merges_mergeField {current : Field} (h : current.Valid) (fresh : Field) :
    Merges current fresh (mergeField current fresh) where
  name := rfl
  displayName := rfl
  fieldType := rfl
  hidden := rfl
  isPrimaryKey := rfl
  description := kept_or _ _
  expression := kept_or _ _
  format := kept_or _ _
  type := rfl
  isNullable := rfl
  sampleValues := rfl
  roleSet := mergeField_roleSet current fresh
  aggregation a ha := by
    have hmeasure : current.fieldType = .measure := h.1 (by rw [ha]; rfl)
    simp [mergeField, hmeasure, ha]
  level l hl := by
    have hdimension : current.fieldType = .dimension := h.2 (by rw [hl]; rfl)
    simp [mergeField, hdimension, hl]

/-- The field of a merge for a fresh field. -/
def mergeColumn (existing : List Field) (fresh : Field) : Field :=
  match lastNamed? existing fresh.name with
  | some current => mergeField current fresh
  | none => fresh

theorem mergeFields_eq (existing inferred : List Field) :
    mergeFields existing inferred =
      inferred.map (mergeColumn existing) ++ existing.filter (survives inferred) := rfl

theorem mergeColumn_merged (h : ∀ f ∈ existing, f.Valid) (fresh : Field) :
    MergedColumn existing fresh (mergeColumn existing fresh) := by
  unfold mergeColumn
  split
  · rename_i current hlast
    obtain ⟨hname, before, after, hexisting, hafter⟩ := lastNamed?_eq_some hlast
    have hcurrent : current.Valid := h current (hexisting ▸ by simp)
    exact .known hexisting hname hafter (merges_mergeField hcurrent fresh)
  · rename_i hlast
    exact .new (lastNamed?_eq_none.mp hlast)

theorem MergedColumn.valid {merged : Field} (h : MergedColumn existing fresh merged)
    (hfresh : fresh.Valid) : merged.Valid := by
  cases h with
  | new _ => exact hfresh
  | known _ _ _ hmerges => exact hmerges.roleSet.valid

theorem calculation?_isSome_iff :
    f.calculation?.isSome = true ↔
      f.fieldType = .calculated ∧ ∃ sql, f.expression = some sql ∧ sql ≠ "" := by
  unfold Field.calculation?
  split
  · rename_i hcalculated
    simp [beq_iff_eq.mp hcalculated, Option.any_eq_true]
  · rename_i hother
    simp [beq_iff_eq.not.mp hother]

theorem survives_iff : survives inferred f = true ↔ Outlives inferred f := by
  have hnames : (inferred.any (·.name == f.name)) = false ↔
      ∀ fresh ∈ inferred, fresh.name ≠ f.name := by simp
  rw [survives, Bool.and_eq_true, Bool.and_eq_true, Bool.not_eq_true', hnames, bne_iff_ne,
    calculation?_isSome_iff]
  constructor
  · rintro ⟨⟨hnoColumn, hnotPlaceholder⟩, hcalculated, hexpression⟩
    exact ⟨hcalculated, hexpression, hnoColumn, hnotPlaceholder⟩
  · intro h
    exact ⟨⟨h.noColumn, h.notPlaceholder⟩, h.calculated, h.expression⟩

theorem mergeFields_valid (hexisting : ∀ f ∈ existing, f.Valid)
    (hinferred : ∀ f ∈ inferred, f.Valid) : ∀ f ∈ mergeFields existing inferred, f.Valid := by
  rw [mergeFields_eq, List.forall_mem_append, List.forall_mem_map]
  constructor
  · exact fun fresh hfresh => (mergeColumn_merged hexisting fresh).valid (hinferred fresh hfresh)
  · exact fun f hf => hexisting f (List.mem_filter.mp hf).1

/-- A merge of fields in order has one field for each inferred one, in that order, and then the
existing fields that outlive the columns, as they are. All its fields are in order, so that each
can be made anew from what it states. -/
theorem merge_keeps_what_was_set (hexisting : ∀ f ∈ existing, f.Valid)
    (hinferred : ∀ f ∈ inferred, f.Valid) :
    ∃ columns, mergeFields existing inferred = columns ++ existing.filter (survives inferred) ∧
      List.Forall₂ (MergedColumn existing) inferred columns ∧
      (∀ f, survives inferred f = true ↔ Outlives inferred f) ∧
      ∀ f ∈ mergeFields existing inferred, Reads (model Field.reader) f.document f := by
  refine ⟨inferred.map (mergeColumn existing), rfl, ?_, fun f => survives_iff, fun f hf => ?_⟩
  · rw [List.forall₂_map_right_iff, List.forall₂_same]
    exact fun fresh _ => mergeColumn_merged hexisting fresh
  · have hvalid : f.Valid := mergeFields_valid hexisting hinferred f hf
    exact (Field.readsBack f f).mpr ⟨rfl, Field.complaint?_eq_none_iff.mpr hvalid⟩

/-- Of two fields of one name the last counts, and a calculated field that a column has come for is
merged into it. -/
theorem merge_keeps_what_was_set_of_edited_fields :
    let region : Field := { name := "region", displayName := "Region", level := some .categorical }
    let renamed : Field := { region with displayName := "Sales region", hidden := true }
    let margin : Field :=
      { name := "margin", displayName := "Margin", fieldType := .calculated
        expression := some "revenue - cost" }
    let cost : Field := { margin with name := "cost", expression := some "price * 2" }
    let found : Field :=
      { name := "cost", displayName := "Cost", type := .number, fieldType := .measure
        aggregation := some .sum, sampleValues := [.int 3] }
    let existing := [Field.placeholder, region, margin, renamed, cost]
    let inferred := [region, found]
    (∀ f ∈ existing ++ inferred, f.Valid) ∧
      ∃ columns, mergeFields existing inferred = columns ++ [margin] ∧
        List.Forall₂ (MergedColumn existing) inferred columns ∧
        columns.map (·.displayName) = ["Sales region", "Margin"] := by
  intro region renamed margin cost found existing inferred
  have hvalid : ∀ f ∈ existing ++ inferred, f.Valid := by
    simp [existing, inferred, Field.Valid, Field.placeholder, region, renamed, margin, cost, found]
  obtain ⟨hexisting, hinferred⟩ := List.forall_mem_append.mp hvalid
  obtain ⟨columns, hmerge, hcolumns, _, _⟩ := merge_keeps_what_was_set hexisting hinferred
  have hkept : existing.filter (survives inferred) = [margin] := by
    have hdropped : ∀ f ∈ [Field.placeholder, region, renamed, cost], survives inferred f = false := by
      decide
    have hmargin : survives inferred margin = true := by decide
    simp only [List.forall_mem_cons] at hdropped
    simp [existing, hdropped, hmargin]
  have hnamed : columns.map (·.displayName) ++ ["Margin"] =
      ["Sales region", "Margin"] ++ ["Margin"] := by
    have hnames : (mergeFields existing inferred).map (·.displayName) =
        ["Sales region", "Margin", "Margin"] := by decide
    rwa [hmerge, hkept, List.map_append] at hnames
  exact ⟨hvalid, columns, hkept ▸ hmerge, hcolumns, List.append_cancel_right hnamed⟩

end Merged

section Again
variable {existing inferred : List Field}

theorem mergeField_again (existing fresh : Field) :
    mergeField (mergeField existing fresh) fresh = mergeField existing fresh := by
  have hor : ∀ {α : Type} (set found : Option α), (set.or found).or found = set.or found := by
    intro α set found
    rw [Option.or_assoc, Option.or_self]
  cases h : existing.fieldType <;> simp [mergeField, h, hor]

theorem mergeField_self {f : Field} (h : RoleSet f) : mergeField f f = f := by
  have haggregation : (mergeField f f).aggregation = f.aggregation := by
    cases ha : f.aggregation with
    | none =>
      have hrole : f.fieldType ≠ .measure := fun hrole => by
        simpa [ha] using h.aggregation.mpr hrole
      simp [mergeField, hrole]
    | some a =>
      have hrole : f.fieldType = .measure := h.aggregation.mp (by rw [ha]; rfl)
      simp [mergeField, hrole, ha]
  have hlevel : (mergeField f f).level = f.level := by
    cases hl : f.level with
    | none =>
      have hrole : f.fieldType ≠ .dimension := fun hrole => by simpa [hl] using h.level.mpr hrole
      simp [mergeField, hrole]
    | some l =>
      have hrole : f.fieldType = .dimension := h.level.mp (by rw [hl]; rfl)
      simp [mergeField, hrole, hl]
  have hother : mergeField f f =
      { f with aggregation := (mergeField f f).aggregation, level := (mergeField f f).level } := by
    simp [mergeField]
  rw [hother, haggregation, hlevel]

theorem mergeColumn_name (existing : List Field) (fresh : Field) :
    (mergeColumn existing fresh).name = fresh.name := by
  unfold mergeColumn
  split
  · rename_i current hlast
    exact (lastNamed?_eq_some hlast).1
  · rfl

theorem mergeField_mergeColumn {fresh : Field} (h : RoleSet fresh) :
    mergeField (mergeColumn existing fresh) fresh = mergeColumn existing fresh := by
  unfold mergeColumn
  split
  · exact mergeField_again _ fresh
  · exact mergeField_self h

/-- In a merge the field for a fresh one is the only one of its name. -/
theorem mergeColumn_mergeFields (hroles : ∀ f ∈ inferred, RoleSet f)
    (hnames : ∀ f ∈ inferred, ∀ g ∈ inferred, g.name = f.name → g = f) {fresh : Field}
    (hfresh : fresh ∈ inferred) :
    mergeColumn (mergeFields existing inferred) fresh = mergeColumn existing fresh := by
  have hmem : mergeColumn existing fresh ∈ mergeFields existing inferred :=
    List.mem_append_left _ (List.mem_map_of_mem hfresh)
  have honly : ∀ g ∈ mergeFields existing inferred,
      g.name = (mergeColumn existing fresh).name → g = mergeColumn existing fresh := by
    intro g hg hname
    rw [mergeColumn_name] at hname
    rcases List.mem_append.mp hg with hg | hg
    · obtain ⟨other, hother, rfl⟩ := List.mem_map.mp hg
      have hsame : other.name = fresh.name := (mergeColumn_name existing other).symm.trans hname
      rw [hnames fresh hfresh other hother hsame]
      rfl
    · have houtlives := survives_iff.mp (List.mem_filter.mp hg).2
      exact absurd hname.symm (houtlives.noColumn fresh hfresh)
  have hlast : lastNamed? (mergeFields existing inferred) fresh.name =
      some (mergeColumn existing fresh) := by
    rw [← mergeColumn_name existing fresh]
    exact lastNamed?_of_unique hmem honly
  rw [mergeColumn, hlast]
  exact mergeField_mergeColumn (hroles fresh hfresh)

/-- No column outlives the columns, and what has outlived them does so again. -/
theorem survivors_mergeFields (existing inferred : List Field) :
    (mergeFields existing inferred).filter (survives inferred) =
      existing.filter (survives inferred) := by
  have hcolumns : (inferred.map (mergeColumn existing)).filter (survives inferred) = [] := by
    rw [List.filter_eq_nil_iff, List.forall_mem_map]
    intro fresh hfresh hsurvives
    have houtlives := survives_iff.mp hsurvives
    exact houtlives.noColumn fresh hfresh (mergeColumn_name existing fresh).symm
  rw [mergeFields_eq, List.filter_append, hcolumns, List.nil_append, List.filter_filter]
  simp only [Bool.and_self]

theorem mergeFields_again (hroles : ∀ f ∈ inferred, RoleSet f)
    (hnames : ∀ f ∈ inferred, ∀ g ∈ inferred, g.name = f.name → g = f) (existing : List Field) :
    mergeFields (mergeFields existing inferred) inferred = mergeFields existing inferred := by
  rw [mergeFields_eq (mergeFields existing inferred), survivors_mergeFields, mergeFields_eq existing]
  congr 1
  exact List.map_congr_left fun fresh hfresh => mergeColumn_mergeFields hroles hnames hfresh

theorem mergeFields_nil (inferred : List Field) : mergeFields [] inferred = inferred := by
  rw [mergeFields_eq, List.filter_nil, List.append_nil]
  exact List.map_id' inferred

/-- To analyse data again that has not changed changes no field. -/
theorem reanalysis_changes_nothing {columns : List String} {rows : List Row}
    (h : inferFields columns rows = .ok inferred) (existing : List Field) :
    mergeFields (mergeFields existing inferred) inferred = mergeFields existing inferred ∧
      mergeFields inferred inferred = inferred := by
  have hroles : ∀ f ∈ inferred, RoleSet f := fun f hf => (exists_column_of_mem h hf).2
  have hnames : ∀ f ∈ inferred, ∀ g ∈ inferred, g.name = f.name → g = f :=
    fun f hf g hg hname => eq_of_same_name h hf hg hname
  refine ⟨mergeFields_again hroles hnames existing, ?_⟩
  have hself := mergeFields_again hroles hnames []
  rwa [mergeFields_nil] at hself

/-- The two fields for a column that is named twice are merged with the later one of these. -/
theorem reanalysis_changes_nothing_of_column_named_twice :
    let rows : List Row := [[("open", .bool true)], [("open", .bool false), ("region", .null)]]
    let margin : Field :=
      { name := "margin", displayName := "Margin", fieldType := .calculated
        expression := some "revenue - cost" }
    let existing := [Field.placeholder, margin, { margin with name := "region" }]
    ∃ inferred, inferFields ["open", "region", "open"] rows = .ok inferred ∧
      mergeFields (mergeFields existing inferred) inferred = mergeFields existing inferred ∧
      mergeFields inferred inferred = inferred := by
  intro rows margin existing
  have hinferred : ∃ inferred, inferFields ["open", "region", "open"] rows = .ok inferred :=
    ⟨_, rfl⟩
  obtain ⟨inferred, hinferred⟩ := hinferred
  exact ⟨inferred, hinferred, reanalysis_changes_nothing hinferred existing⟩

end Again

end DatasetCatalog.Inference
