import DatasetCatalog.Quality.Issues
import Mathlib.Algebra.Order.BigOperators.Group.List
import Mathlib.Data.Rat.Floor
import Mathlib.Tactic.Linarith
import Mathlib.Tactic.Positivity

/-!
# The score in exact arithmetic

Percentages are doubles, so the score may be off by what they are rounded. With exact percentages it
is a share of one hundred: no penalty adds to it, and it never falls below zero.
-/

namespace DatasetCatalog.Quality

open Inference

def exactPercentage (count total : Nat) : ℚ := count / total * 100

def exactSeverity (percentage : ℚ) : Severity :=
  if 50 < percentage then .high else if 20 < percentage then .medium else .low

/-- The part of the percentage that is lost, and the most that can be. -/
def exactRule : Severity → ℚ × ℚ
  | .high => (4 / 5, 30)
  | .medium => (1 / 2, 20)
  | .low => (1 / 5, 10)

def exactPenalty (severity : Severity) (percentage : ℚ) : ℚ :=
  min (percentage * (exactRule severity).1) (exactRule severity).2

/-- The penalty for missing values, which is nothing if there are none. -/
def missingPenalty (column : List Value) : ℚ :=
  let percentage := exactPercentage (column.countP isMissing) column.length
  exactPenalty (exactSeverity percentage) percentage

def duplicatePenalty (f : Field) (column : List Value) : ℚ :=
  if f.isPrimaryKey then exactPenalty .high (exactPercentage (duplicateCount column) column.length)
  else 0

def fieldPenalty (rows : List Row) (f : Field) : ℚ :=
  let column := rows.map (Row.cell · f.name)
  missingPenalty column + duplicatePenalty f column

/-- The score of fields by exact percentages, a half rounded up. -/
def exactScore (fields : List Field) (rows : List Row) : Int :=
  max 0 ⌊100 - (fields.map (fieldPenalty rows)).sum + 1 / 2⌋

theorem exactPercentage_nonneg (count total : Nat) : 0 ≤ exactPercentage count total := by
  unfold exactPercentage
  positivity

theorem exactPenalty_nonneg (severity : Severity) {percentage : ℚ} (h : 0 ≤ percentage) :
    0 ≤ exactPenalty severity percentage := by
  unfold exactPenalty
  apply le_min
  · cases severity <;> simp only [exactRule] <;> positivity
  · cases severity <;> simp [exactRule]

theorem exactPenalty_of_none (severity : Severity) (total : Nat) :
    exactPenalty severity (exactPercentage 0 total) = 0 := by
  cases severity <;> simp [exactPenalty, exactPercentage, exactRule]

theorem fieldPenalty_nonneg (rows : List Row) (f : Field) : 0 ≤ fieldPenalty rows f := by
  apply add_nonneg
  · exact exactPenalty_nonneg _ (exactPercentage_nonneg _ _)
  · unfold duplicatePenalty
    split
    · exact exactPenalty_nonneg _ (exactPercentage_nonneg _ _)
    · exact le_refl 0

theorem exactScore_mem (fields : List Field) (rows : List Row) :
    0 ≤ exactScore fields rows ∧ exactScore fields rows ≤ 100 := by
  refine ⟨le_max_left _ _, max_le (by decide) ?_⟩
  have hlost : 0 ≤ (fields.map (fieldPenalty rows)).sum := by
    apply List.sum_nonneg
    simp only [List.forall_mem_map]
    exact fun f _ => fieldPenalty_nonneg rows f
  have hlt : 100 - (fields.map (fieldPenalty rows)).sum + 1 / 2 < ((101 : Int) : ℚ) := by
    push_cast
    linarith
  exact Int.lt_add_one_iff.mp (Int.floor_lt.mpr hlt)

section Complete
variable {fields : List Field} {rows : List Row} {f : Field}

/-- Nothing is lost for a field without issues. -/
theorem fieldPenalty_of_no_issues (h : fieldIssues rows f = []) : fieldPenalty rows f = 0 := by
  simp only [fieldIssues, List.append_eq_nil_iff, Option.toList_eq_nil_iff] at h
  obtain ⟨hmissing, hduplicates⟩ := h
  have hcount : (rows.map (Row.cell · f.name)).countP isMissing = 0 := by
    unfold missingIssue? at hmissing
    simp only at hmissing
    split at hmissing
    · rename_i hzero
      exact beq_iff_eq.mp hzero
    · cases hmissing
  have hrepeated : duplicatePenalty f (rows.map (Row.cell · f.name)) = 0 := by
    unfold duplicatePenalty
    split
    · rename_i hkey
      have hnone : duplicateCount (rows.map (Row.cell · f.name)) = 0 := by
        by_contra hne
        simp [duplicateIssue?, hkey, hne] at hduplicates
      rw [hnone, exactPenalty_of_none]
    · rfl
  simp only [fieldPenalty, missingPenalty, hcount, exactPenalty_of_none, hrepeated, add_zero]

/-- Where nothing is missing and no key is repeated, the score is exact. -/
theorem scoreOf_of_no_issues (h : issues fields rows = []) :
    scoreOf (issues fields rows) = .ok (exactScore fields rows) := by
  have hnone : (fields.map (fieldPenalty rows)).sum = 0 := by
    apply List.sum_eq_zero
    simp only [List.forall_mem_map]
    exact fun f hf => fieldPenalty_of_no_issues (List.flatMap_eq_nil_iff.mp h f hf)
  have hscore : exactScore fields rows = 100 := by
    unfold exactScore
    rw [hnone]
    norm_num
  rw [h, hscore]
  rfl

end Complete

end DatasetCatalog.Quality
