import DatasetCatalog.Proofs.Query.Blank
import DatasetCatalog.Proofs.Query.Outcomes

/-!
# The shape of conditions

The condition of a filter, without its values, depends on the filter's field and operator, and for
a choice on how many values there are to choose from.
-/

namespace DatasetCatalog

/-- How many values a filter lists. -/
def Filter.choices (f : Filter) : Nat :=
  match f.value with
  | .list values => values.length
  | _ => 0

namespace Query

/-- The blank condition on a column. -/
def conditionShape (column operator : String) (choices : Nat) : Option Predicate :=
  match comparisonSigns.lookup operator with
  | some sign => some (.comparison column sign .null)
  | none =>
    match operator with
    | "contains" | "like" => some (.comparison column "LIKE" .null)
    | "in" =>
      if choices = 0 then none else some (.inList column (List.replicate choices .null))
    | "between" => some (.between column .null .null)
    | "is_null" => some (.nullCheck column false)
    | "is_not_null" => some (.nullCheck column true)
    | _ => none

/-- The number of choices matters for choices alone. -/
theorem conditionShape_congr {column operator : String} {n n' : Nat}
    (h : operator = "in" → n = n') :
    conditionShape column operator n = conditionShape column operator n' := by
  unfold conditionShape
  split
  · rfl
  · split
    · rfl
    · rfl
    · rw [h rfl]
    · rfl
    · rfl
    · rfl
    · rfl

theorem ConditionOf.shape {f : Filter} {p : Option Predicate}
    (h : ConditionOf f.field f.operator f.value p) :
    p.map Predicate.blank = conditionShape f.field f.operator f.choices := by
  obtain ⟨field, operator, v⟩ := f
  cases h with
  | comparison _ hsign =>
    simp only [conditionShape, hsign]
    rfl
  | choice first rest =>
    rw [Option.map_some, Predicate.blank, List.map_const']
    rfl
  | contains => rfl
  | like => rfl
  | noChoice => rfl
  | range => rfl
  | null => rfl
  | notNull => rfl

/-- The blank conditions of filters. -/
def conditionShapes (fs : List Filter) : List Predicate :=
  (fs.map fun f => conditionShape f.field f.operator f.choices).reduceOption

theorem conditionShapes_of_compiled {fs : List Filter} {found : List (Option Predicate)}
    (h : List.Forall₂ (fun f p => compileFilter f = .ok p) fs found) :
    found.reduceOption.map Predicate.blank = conditionShapes fs := by
  have hshapes : found.map (Option.map Predicate.blank) =
      fs.map fun f => conditionShape f.field f.operator f.choices := by
    induction h with
    | nil => rfl
    | cons hf _ ih => rw [List.map_cons, List.map_cons, (compileFilter_ok hf).2.shape, ih]
  rw [conditionShapes, ← hshapes, List.reduceOption_map]

theorem compileFilters_shape {fs : List Filter} {ps : List Predicate}
    (h : compileFilters fs = .ok ps) :
    (∀ f ∈ fs, isIdentifier f.field = true) ∧ ps.map Predicate.blank = conditionShapes fs := by
  refine ⟨isIdentifier_of_compileFilters h, ?_⟩
  obtain ⟨found, hfound, rfl⟩ := map_eq_ok h
  exact conditionShapes_of_compiled (forall₂_of_mapM hfound)

end Query

end DatasetCatalog
