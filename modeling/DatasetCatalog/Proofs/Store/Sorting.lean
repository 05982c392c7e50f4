import DatasetCatalog.Store.Query

/-!
# The order of results

Results are in the order of one field. A dataset without a value comes first, and in descending
order last; datasets with the same value stand as they are stored, in either order.
-/

namespace DatasetCatalog.Store

/-- Nothing is at most anything; values of one kind are in their own order. -/
inductive SortKey.AtMost : SortKey → SortKey → Prop
  | absent {k : SortKey} : AtMost .absent k
  | text {a b : String} : a ≤ b → AtMost (.text a) (.text b)
  | number {m n : Int} : m ≤ n → AtMost (.number m) (.number n)
  | moment {a b : Time.Moment} : a.instant ≤ b.instant → AtMost (.moment a) (.moment b)

/-- The first dataset may stand before the second. -/
def Precedes (field : SortField) (descending : Bool) (a b : Dataset) : Prop :=
  if descending then (sortKey field b).AtMost (sortKey field a)
  else (sortKey field a).AtMost (sortKey field b)

theorem SortKey.AtMost.trans {a b c : SortKey} (h : AtMost a b) (h' : AtMost b c) :
    AtMost a c := by
  cases h with
  | absent => exact .absent
  | text h =>
    cases h' with
    | text h' => exact .text (String.le_trans h h')
  | number h =>
    cases h' with
    | number h' => exact .number (Int.le_trans h h')
  | moment h =>
    cases h' with
    | moment h' => exact .moment (Int.le_trans h h')

section Keys
variable {field : SortField} {descending : Bool} {a b c : Dataset}

/-- Two datasets have keys of one kind, so their keys are in order one way or the other. -/
theorem atMost_total (field : SortField) (a b : Dataset) :
    (sortKey field a).AtMost (sortKey field b) ∨ (sortKey field b).AtMost (sortKey field a) := by
  cases field with
  | name => exact (String.le_total a.name b.name).imp .text .text
  | displayName => exact (String.le_total a.displayName b.displayName).imp .text .text
  | createdAt => exact (Int.le_total a.createdAt.instant b.createdAt.instant).imp .moment .moment
  | updatedAt => exact (Int.le_total a.updatedAt.instant b.updatedAt.instant).imp .moment .moment
  | qualityScore =>
    simp only [sortKey]
    cases a.qualityScore with
    | none => exact .inl .absent
    | some m =>
      cases b.qualityScore with
      | none => exact .inr .absent
      | some n => exact (Int.le_total m n).imp .number .number

theorem le_iff_atMost :
    (sortKey field a).le (sortKey field b) = true ↔ (sortKey field a).AtMost (sortKey field b) := by
  constructor
  · intro h
    cases field with
    | name | displayName => exact .text (of_decide_eq_true h)
    | createdAt | updatedAt => exact .moment (of_decide_eq_true h)
    | qualityScore =>
      simp only [sortKey] at h ⊢
      cases ha : a.qualityScore with
      | none => exact .absent
      | some m =>
        cases hb : b.qualityScore with
        | none =>
          rw [ha, hb] at h
          cases h
        | some n =>
          rw [ha, hb] at h
          exact .number (of_decide_eq_true h)
  · intro h
    generalize sortKey field a = k at h ⊢
    generalize sortKey field b = k' at h ⊢
    cases h with
    | absent => rfl
    | text h | number h | moment h => exact decide_eq_true h

theorem precedes_total (field : SortField) (descending : Bool) (a b : Dataset) :
    Precedes field descending a b ∨ Precedes field descending b a := by
  cases descending with
  | false => exact atMost_total field a b
  | true => exact atMost_total field b a

theorem Precedes.trans (h : Precedes field descending a b) (h' : Precedes field descending b c) :
    Precedes field descending a c := by
  cases descending with
  | false => exact SortKey.AtMost.trans h h'
  | true => exact SortKey.AtMost.trans h' h

/-- The comparison by which results are sorted. -/
def compared (field : SortField) (descending : Bool) (a b : Dataset) : Bool :=
  if descending then (sortKey field b).le (sortKey field a)
  else (sortKey field a).le (sortKey field b)

theorem compared_iff : compared field descending a b = true ↔ Precedes field descending a b := by
  cases descending with
  | false => exact le_iff_atMost
  | true => exact le_iff_atMost

theorem compared_trans (field : SortField) (descending : Bool) (a b c : Dataset)
    (hab : compared field descending a b = true) (hbc : compared field descending b c = true) :
    compared field descending a c = true :=
  compared_iff.mpr ((compared_iff.mp hab).trans (compared_iff.mp hbc))

theorem compared_total (field : SortField) (descending : Bool) (a b : Dataset) :
    (compared field descending a b || compared field descending b a) = true := by
  rw [Bool.or_eq_true]
  exact (precedes_total field descending a b).imp compared_iff.mpr compared_iff.mpr

end Keys

section Sorting
variable (field : SortField) (descending : Bool) (docs : List Dataset)

theorem sortBy_perm : (sortBy field descending docs).Perm docs := List.mergeSort_perm docs _

theorem pairwise_sortBy : (sortBy field descending docs).Pairwise (Precedes field descending) := by
  have hsorted := List.pairwise_mergeSort (compared_trans field descending)
    (compared_total field descending) docs
  apply hsorted.imp
  intro a b h
  exact compared_iff.mp h

/-- Where one dataset stands before another, and may do so, it keeps its place before it. -/
theorem pair_sublist_sortBy {a b : Dataset} (h : Precedes field descending a b)
    (hstored : [a, b].Sublist docs) : [a, b].Sublist (sortBy field descending docs) :=
  List.pair_sublist_mergeSort (compared_trans field descending) (compared_total field descending)
    (compared_iff.mpr h) hstored

end Sorting

end DatasetCatalog.Store
