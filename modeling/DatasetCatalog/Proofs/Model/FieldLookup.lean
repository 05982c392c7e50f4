import DatasetCatalog.Model.FieldLookup
import Mathlib.Data.List.Induction

/-!
# Labels by tables and by scan

The tables of labels are filled in one pass over the fields. Whatever names and display names clash
there, a look-up finds what a scan of the fields finds: the first field that agrees.
-/

namespace DatasetCatalog

open Text

/-- A key that is there keeps its entry. -/
theorem lookup_setDefault {α : Type} (key k : String) (a : α) (entries : List (String × α)) :
    (setDefault key a entries).lookup k =
      (entries.lookup k).or (if k == key then some a else none) := by
  have hnew : [(key, a)].lookup k = if k == key then some a else none := by
    rw [List.lookup_cons]
    cases k == key <;> rfl
  unfold setDefault
  split
  · rename_i hthere
    split
    · rename_i hk
      rw [beq_iff_eq.mp hk]
      exact (Option.or_of_isSome hthere).symm
    · exact Option.or_none.symm
  · rw [List.lookup_append, hnew]

/-- Whether a field's name or display name is the label in another case. -/
def Field.agreesFolded (f : Field) (folded : String) : Bool :=
  caseFold f.name == folded || caseFold f.displayName == folded

/-- The column of a label, by a scan of the fields. -/
def scanFields (fields : List Field) (label : String) : Option String :=
  if fields.any (·.name == label) then some label
  else ((fields.find? (·.displayName == label)).or
    (fields.find? (·.agreesFolded (caseFold label)))).map (·.name)

namespace FieldLookup
variable (fields : List Field) (t : FieldLookup) (k : String)

theorem columns_foldl : (fields.foldl add t).columns = t.columns ++ fields.map (·.name) := by
  induction fields generalizing t with
  | nil => exact (List.append_nil _).symm
  | cons f rest ih =>
    rw [List.foldl_cons, ih, List.map_cons, add, List.append_assoc, List.singleton_append]

theorem lookup_byDisplayName_foldl :
    (fields.foldl add t).byDisplayName.lookup k =
      (t.byDisplayName.lookup k).or ((fields.find? (·.displayName == k)).map (·.name)) := by
  induction fields generalizing t with
  | nil => exact Option.or_none.symm
  | cons f rest ih =>
    rw [List.foldl_cons, ih, add, lookup_setDefault, Option.or_assoc, List.find?_cons,
      BEq.comm (a := k)]
    cases f.displayName == k <;> rfl

/-- The name of a field comes before its display name, but both stand for one column. -/
theorem lookup_byFoldedName_foldl :
    (fields.foldl add t).byFoldedName.lookup k =
      (t.byFoldedName.lookup k).or ((fields.find? (·.agreesFolded k)).map (·.name)) := by
  induction fields generalizing t with
  | nil => exact Option.or_none.symm
  | cons f rest ih =>
    rw [List.foldl_cons, ih, add, lookup_setDefault, lookup_setDefault, Option.or_assoc,
      Option.or_assoc, List.find?_cons, Field.agreesFolded, BEq.comm (a := k), BEq.comm (a := k)]
    cases caseFold f.name == k <;> cases caseFold f.displayName == k <;> rfl

end FieldLookup

section Resolving
variable {fields : List Field} {label column : String}

theorem resolveLabel?_eq_scan (fields : List Field) (label : String) :
    resolveLabel? fields label = scanFields fields label := by
  have hcolumns : (FieldLookup.ofFields fields).columns = fields.map (·.name) :=
    FieldLookup.columns_foldl fields {}
  have hdisplay := FieldLookup.lookup_byDisplayName_foldl fields {} label
  have hfolded := FieldLookup.lookup_byFoldedName_foldl fields {} (caseFold label)
  have hany : (fields.map (·.name)).contains label = fields.any (·.name == label) := by
    rw [List.contains_eq_any_beq, List.any_map]
    exact congrArg fields.any (funext fun f => BEq.comm)
  unfold resolveLabel? FieldLookup.resolve? scanFields
  rw [hcolumns, hany, FieldLookup.ofFields, hdisplay, hfolded, Option.map_or]
  rfl

theorem mem_of_resolveLabel? (h : resolveLabel? fields label = some column) :
    ∃ f ∈ fields, f.name = column := by
  rw [resolveLabel?_eq_scan] at h
  unfold scanFields at h
  split at h
  · rename_i hname
    obtain rfl := Option.some.inj h
    obtain ⟨f, hf, hsame⟩ := List.any_eq_true.mp hname
    exact ⟨f, hf, beq_iff_eq.mp hsame⟩
  · obtain ⟨f, hfound, rfl⟩ := Option.map_eq_some_iff.mp h
    rcases Option.or_eq_some_iff.mp hfound with hfound | ⟨_, hfound⟩
    · exact ⟨f, List.mem_of_find?_eq_some hfound, rfl⟩
    · exact ⟨f, List.mem_of_find?_eq_some hfound, rfl⟩

theorem resolveLabel?_of_mem {f : Field} (hf : f ∈ fields) :
    resolveLabel? fields f.name = some f.name := by
  rw [resolveLabel?_eq_scan]
  exact if_pos (List.any_eq_true.mpr ⟨f, hf, beq_self_eq_true f.name⟩)

end Resolving

section Splitting
variable (t : FieldLookup) (labels : List String)

theorem FieldLookup.resolveAll_eq : t.resolveAll labels =
    (labels.filterMap t.resolve?, labels.filter fun label => (t.resolve? label).isNone) := by
  induction labels using List.reverseRecOn with
  | nil => rfl
  | append_singleton labels label ih =>
    unfold resolveAll at ih ⊢
    rw [List.foldl_append, ih, List.filterMap_append, List.filter_append]
    cases hlabel : t.resolve? label <;> simp [hlabel]

theorem length_filterMap_add_length_filter {α β : Type} (f : α → Option β) (as : List α) :
    (as.filterMap f).length + (as.filter fun a => (f a).isNone).length = as.length := by
  induction as with
  | nil => rfl
  | cons a rest ih =>
    cases ha : f a <;> simp [ha] <;> omega

end Splitting

/-- However the names and display names of fields clash, a label stands for itself if it is a
column, else for the first field with that display name, else for the first field that agrees in
folded case. So what it stands for is a column, which stands for itself; and a list of labels is
split into the columns of those that are known and those that are not, in order, with each label
counted once. -/
theorem labels_stand_for_first_fields (fields : List Field) :
    let t := FieldLookup.ofFields fields
    (∀ label, t.resolve? label = scanFields fields label) ∧
      (∀ label column, t.resolve? label = some column →
        (∃ f ∈ fields, f.name = column) ∧ t.resolve? column = some column) ∧
      ∀ labels, t.resolveAll labels =
          (labels.filterMap t.resolve?, labels.filter fun label => (t.resolve? label).isNone) ∧
        (t.resolveAll labels).1.length + (t.resolveAll labels).2.length = labels.length := by
  intro t
  refine ⟨resolveLabel?_eq_scan fields, fun label column h => ?_, fun labels => ?_⟩
  · obtain ⟨f, hf, rfl⟩ := mem_of_resolveLabel? h
    exact ⟨⟨f, hf, rfl⟩, resolveLabel?_of_mem hf⟩
  · have hsplit := t.resolveAll_eq labels
    refine ⟨hsplit, ?_⟩
    rw [hsplit]
    exact length_filterMap_add_length_filter t.resolve? labels

/-- The name of each of two fields is the display name of the other in another case. -/
theorem labels_stand_for_first_fields_that_clash :
    let region : Field := { name := "region", displayName := "Total" }
    let total : Field := { name := "total", displayName := "Region" }
    let t := FieldLookup.ofFields [region, total]
    (t.resolve? "Region" = some "total" ∧ (∃ f ∈ [region, total], f.name = "total") ∧
      t.resolve? "total" = some "total") ∧
      scanFields [region, total] "TOTAL" = some "region" ∧
      t.resolveAll ["TOTAL", "profit", "total", "TOTAL"] =
        (["region", "total", "region"], ["profit"]) := by
  intro region total t
  obtain ⟨hscan, hcolumns, _⟩ := labels_stand_for_first_fields [region, total]
  have hlabel : t.resolve? "Region" = some "total" := by decide +kernel
  have hfolded : t.resolve? "TOTAL" = some "region" := by decide +kernel
  have hlabels : t.resolveAll ["TOTAL", "profit", "total", "TOTAL"] =
      (["region", "total", "region"], ["profit"]) := by decide +kernel
  exact ⟨⟨hlabel, hcolumns _ _ hlabel⟩, (hscan _).symm.trans hfolded, hlabels⟩

end DatasetCatalog
