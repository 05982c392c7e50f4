import DatasetCatalog.Proofs.Quality.Counts
import DatasetCatalog.Proofs.Quality.ExactScore

/-!
# Missing data and the score

The rules of the score can be read in any numbers. In doubles they give the score as it is computed,
in rational numbers the exact one. For that one the order of fields and rows counts for nothing, and
a value that goes missing never adds to it.
-/

namespace DatasetCatalog.Quality

open Inference

section Reading

/-- Numbers to read the rules in: those of the counts, and the whole numbers below. -/
structure Reading (α : Type) where
  ofNat : Nat → α
  floor? : α → Except Breakdown Int

def inDoubles : Reading Float := ⟨Float.ofNat, floor?⟩

def inRationals : Reading ℚ := ⟨Nat.cast, fun q => .ok ⌊q⌋⟩

variable {α : Type} [Add α] [Sub α] [Mul α] [Div α] [LT α] [DecidableLT α] [OfScientific α]

def Reading.percentage (r : Reading α) (count total : Nat) : α :=
  r.ofNat count / r.ofNat total * 100.0

def readSeverity (percentage : α) : Severity :=
  if 50.0 < percentage then .high else if 20.0 < percentage then .medium else .low

def readRule : Severity → α × α
  | .high => (0.8, 30.0)
  | .medium => (0.5, 20.0)
  | .low => (0.2, 10.0)

def readPenalty (severity : Severity) (percentage : α) : α :=
  let lost := percentage * (readRule severity).1
  if (readRule severity).2 < lost then (readRule severity).2 else lost

/-- Severity and percentage of an issue, by what it counts. -/
def Reading.figures (r : Reading α) (total : Nat) (i : QualityIssue) : Severity × α :=
  let percentage := r.percentage i.count.toNat total
  match i.type with
  | .missingValues => (readSeverity percentage, percentage)
  | .duplicateRecords => (.high, percentage)

def Reading.score (r : Reading α) (figures : List (Severity × α)) : Except Breakdown Int :=
  if figures.isEmpty then .ok 100
  else
    let left := figures.foldl (fun s i => s - readPenalty i.1 i.2) 100.0
    (r.floor? (left + 0.5)).map (max 0)

/-- The score of fields by the issues found, read in some numbers. -/
def Reading.scoreOf (r : Reading α) (fields : List Field) (rows : List Row) :
    Except Breakdown Int :=
  r.score ((issues fields rows).map (r.figures rows.length))

end Reading

section Doubles
variable {rows : List Row} {f : Field} {i : QualityIssue}

theorem figures_inDoubles (h : i ∈ fieldIssues rows f) :
    inDoubles.figures rows.length i = (i.severity, i.percentage) := by
  have hlength : (rows.map (Row.cell · f.name)).length = rows.length := List.length_map _
  rcases mem_fieldIssues.mp h with h | h
  · unfold missingIssue? at h
    simp only [hlength] at h
    split at h <;> cases h
    rfl
  · unfold duplicateIssue? at h
    simp only [hlength] at h
    split at h <;> cases h
    rfl

/-- Read in doubles, the rules give the score as it is computed. -/
theorem scoreOf_inDoubles (fields : List Field) (rows : List Row) :
    inDoubles.scoreOf fields rows = Quality.scoreOf (issues fields rows) := by
  have hfigures : (issues fields rows).map (inDoubles.figures rows.length) =
      (issues fields rows).map fun i => (i.severity, i.percentage) := by
    refine List.map_congr_left fun i hi => ?_
    obtain ⟨f, _, hi⟩ := List.mem_flatMap.mp hi
    exact figures_inDoubles hi
  rw [Reading.scoreOf, hfigures]
  rfl

end Doubles

section Rationals

theorem percentage_inRationals (count total : Nat) :
    inRationals.percentage count total = exactPercentage count total := by
  unfold Reading.percentage exactPercentage inRationals
  norm_num

theorem readSeverity_eq (percentage : ℚ) : readSeverity percentage = exactSeverity percentage := by
  unfold readSeverity exactSeverity
  norm_num

theorem readRule_eq (severity : Severity) : readRule severity = exactRule severity := by
  cases severity <;> norm_num [readRule, exactRule]

theorem readPenalty_eq (severity : Severity) (percentage : ℚ) :
    readPenalty severity percentage = exactPenalty severity percentage := by
  unfold readPenalty exactPenalty
  simp only [readRule_eq]
  rw [min_def]
  split <;> split <;> linarith

theorem foldl_penalties (figures : List (Severity × ℚ)) (start : ℚ) :
    figures.foldl (fun s i => s - readPenalty i.1 i.2) start =
      start - (figures.map fun i => exactPenalty i.1 i.2).sum := by
  induction figures generalizing start with
  | nil => simp
  | cons i figures ih =>
    rw [List.foldl_cons, ih, readPenalty_eq, List.map_cons, List.sum_cons]
    ring

theorem score_inRationals (figures : List (Severity × ℚ)) : inRationals.score figures =
    .ok (max 0 ⌊100 - (figures.map fun i => exactPenalty i.1 i.2).sum + 1 / 2⌋) := by
  unfold Reading.score
  split
  · rename_i hnone
    rw [List.isEmpty_iff.mp hnone]
    norm_num
  · have hstart : (100.0 : ℚ) = 100 ∧ (0.5 : ℚ) = 1 / 2 := by norm_num
    simp only [foldl_penalties, hstart]
    rfl

theorem sum_missing (f : Field) (rows : List Row) :
    (((missingIssue? f (rows.map (Row.cell · f.name))).toList.map
      (inRationals.figures rows.length)).map fun i => exactPenalty i.1 i.2).sum =
      missingPenalty (rows.map (Row.cell · f.name)) := by
  unfold missingIssue? missingPenalty
  simp only
  split
  · rename_i hnone
    rw [beq_iff_eq.mp hnone, exactPenalty_of_none]
    rfl
  · simp [Reading.figures, percentage_inRationals, readSeverity_eq]

theorem sum_duplicates (f : Field) (rows : List Row) :
    (((duplicateIssue? f (rows.map (Row.cell · f.name))).toList.map
      (inRationals.figures rows.length)).map fun i => exactPenalty i.1 i.2).sum =
      duplicatePenalty f (rows.map (Row.cell · f.name)) := by
  unfold duplicateIssue? duplicatePenalty
  simp only
  cases f.isPrimaryKey with
  | false => rfl
  | true =>
    rw [Bool.not_true, Bool.false_or, if_pos rfl]
    split
    · rename_i hnone
      rw [beq_iff_eq.mp hnone, exactPenalty_of_none]
      rfl
    · simp [Reading.figures, percentage_inRationals]

theorem sum_penalties (rows : List Row) (f : Field) :
    (((fieldIssues rows f).map (inRationals.figures rows.length)).map
      fun i => exactPenalty i.1 i.2).sum = fieldPenalty rows f := by
  rw [fieldIssues, List.map_append, List.map_append, List.sum_append, sum_missing, sum_duplicates,
    fieldPenalty]

/-- Read in rational numbers, the rules give the exact score. -/
theorem scoreOf_inRationals (fields : List Field) (rows : List Row) :
    inRationals.scoreOf fields rows = .ok (exactScore fields rows) := by
  have hsum : (((issues fields rows).map (inRationals.figures rows.length)).map
      fun i => exactPenalty i.1 i.2).sum = (fields.map (fieldPenalty rows)).sum := by
    induction fields with
    | nil => rfl
    | cons f fields ih =>
      rw [issues, List.flatMap_cons, List.map_append, List.map_append, List.sum_append,
        sum_penalties, List.map_cons, List.sum_cons, ← ih]
      rfl
  rw [Reading.scoreOf, score_inRationals, hsum]
  rfl

end Rationals

section Order
variable {percentage percentage' : ℚ}

theorem exactPenalty_mono (severity : Severity) (h : percentage ≤ percentage') :
    exactPenalty severity percentage ≤ exactPenalty severity percentage' := by
  apply min_le_min_right
  apply mul_le_mul_of_nonneg_right h
  cases severity <;> norm_num [exactRule]

/-- More is lost the more is missing: a severity costs at most what the next one costs at least. -/
theorem exactPenalty_exactSeverity_mono (h : percentage ≤ percentage') :
    exactPenalty (exactSeverity percentage) percentage ≤
      exactPenalty (exactSeverity percentage') percentage' := by
  have hmost : ∀ severity, exactPenalty severity percentage ≤ (exactRule severity).2 :=
    fun severity => min_le_right _ _
  have hlow := hmost .low
  have hmedium := hmost .medium
  simp only [exactRule] at hlow hmedium
  have hleast : 20 < percentage' → 10 ≤ exactPenalty .medium percentage' := by
    intro hshare
    apply le_min <;> norm_num [exactRule]
    linarith
  have hleast' : 50 < percentage' → 20 ≤ exactPenalty .high percentage' := by
    intro hshare
    apply le_min <;> norm_num [exactRule]
    linarith
  -- by the severity of the lesser share, then by that of the greater one
  unfold exactSeverity
  split
  · have hhigh : 50 < percentage' := by linarith
    rw [if_pos hhigh]
    exact exactPenalty_mono .high h
  split
  · split
    · exact hmedium.trans (hleast' ‹_›)
    · have hmedium' : 20 < percentage' := by linarith
      rw [if_pos hmedium']
      exact exactPenalty_mono .medium h
  · split
    · exact hlow.trans ((by norm_num : (10 : ℚ) ≤ 20).trans (hleast' ‹_›))
    split
    · exact hlow.trans (hleast ‹_›)
    · exact exactPenalty_mono .low h

variable {column column' : List Value} {fields fields' : List Field} {rows rows' : List Row}

theorem missingPenalty_mono (hlength : column.length = column'.length)
    (hcount : column.countP isMissing ≤ column'.countP isMissing) :
    missingPenalty column ≤ missingPenalty column' := by
  apply exactPenalty_exactSeverity_mono
  unfold exactPercentage
  rw [hlength]
  gcongr

theorem fieldPenalty_perm (f : Field) (h : rows.Perm rows') :
    fieldPenalty rows f = fieldPenalty rows' f := by
  have hcolumn := h.map (Row.cell · f.name)
  unfold fieldPenalty missingPenalty duplicatePenalty
  simp only [hcolumn.countP_eq, hcolumn.length_eq, duplicateCount_perm hcolumn]

theorem exactScore_perm (hfields : fields.Perm fields') (hrows : rows.Perm rows') :
    exactScore fields rows = exactScore fields' rows' := by
  have hsum := (hfields.map (fieldPenalty rows)).sum_eq
  have hpenalties : fields'.map (fieldPenalty rows) = fields'.map (fieldPenalty rows') :=
    List.map_congr_left fun f _ => fieldPenalty_perm f hrows
  rw [exactScore, exactScore, hsum, hpenalties]

theorem exactScore_anti (h : ∀ f ∈ fields, fieldPenalty rows f ≤ fieldPenalty rows' f) :
    exactScore fields rows' ≤ exactScore fields rows := by
  have hsum := List.sum_le_sum h
  apply max_le_max_left
  apply Int.floor_le_floor
  linarith

end Order

section Blanking
variable {before after : List Row} {row : Row} {column : String} {cell : Value}

/-- To take a value away costs nothing less, unless the field is a primary key. -/
theorem fieldPenalty_of_blanked {f : Field} (hkey : f.isPrimaryKey = true → f.name ≠ column)
    (hcell : isMissing cell = true) : fieldPenalty (before ++ row :: after) f ≤
      fieldPenalty (before ++ Value.putEntry column cell row :: after) f := by
  by_cases hname : f.name = column
  · have hother : f.isPrimaryKey = false := Bool.eq_false_iff.mpr fun hset => hkey hset hname
    have hblanked : Row.cell (Value.putEntry column cell row) f.name = cell := by
      rw [Row.cell, hname, Value.lookup_putEntry_self, Option.getD_some]
    simp only [fieldPenalty, duplicatePenalty, hother, Bool.false_eq_true, if_false, add_zero]
    apply missingPenalty_mono
    · simp
    · simp only [List.map_append, List.map_cons, List.countP_append, List.countP_cons, hblanked,
        hcell, if_true]
      split <;> omega
  · have hsame : Row.cell (Value.putEntry column cell row) f.name = Row.cell row f.name := by
      unfold Row.cell
      rw [Value.lookup_putEntry_of_ne hname]
    unfold fieldPenalty
    simp only [List.map_append, List.map_cons, hsame, le_refl]

/-- Read in doubles, the rules give the score as it is computed. Read in rational numbers they give
one from zero to a hundred, whatever the order of fields and rows; and it does not rise when null or
the empty text takes the place of a cell, unless a primary key names the column. -/
theorem missing_data_adds_nothing (fields : List Field) (rows : List Row) :
    inDoubles.scoreOf fields rows = scoreOf (issues fields rows) ∧
      inRationals.scoreOf fields rows = .ok (exactScore fields rows) ∧
      0 ≤ exactScore fields rows ∧ exactScore fields rows ≤ 100 ∧
      (∀ fields' rows', fields'.Perm fields → rows'.Perm rows →
        exactScore fields' rows' = exactScore fields rows) ∧
      ∀ before row after column cell, rows = before ++ row :: after →
        (∀ f ∈ fields, f.isPrimaryKey = true → f.name ≠ column) →
        cell = .null ∨ cell = .text "" →
        exactScore fields (before ++ Value.putEntry column cell row :: after) ≤
          exactScore fields rows := by
  refine ⟨scoreOf_inDoubles fields rows, scoreOf_inRationals fields rows,
    (exactScore_mem fields rows).1, (exactScore_mem fields rows).2,
    fun fields' rows' hfields hrows => exactScore_perm hfields hrows, ?_⟩
  rintro before row after column cell rfl hkeys hcell
  have hmissing : isMissing cell = true := by
    rcases hcell with rfl | rfl <;> rfl
  exact exactScore_anti fun f hf => fieldPenalty_of_blanked (hkeys f hf) hmissing

end Blanking

end DatasetCatalog.Quality
