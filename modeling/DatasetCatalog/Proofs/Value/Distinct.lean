import DatasetCatalog.Proofs.Value.Equality
import Mathlib.Data.Finset.Card

/-!
# Different values

What is left of values when those that equal one before are dropped has no two equal values, in the
order in which they first occur. How many these are does not depend on the order of the values.
-/

namespace DatasetCatalog.Value

/-- What is left of some values without those that equal one before. -/
inductive FirstsOf : List Value → List Value → Prop
  | nil : FirstsOf [] []
  | new {values kept : List Value} {v : Value} : FirstsOf values kept →
    (∀ w ∈ values, ¬w.Equal v) → FirstsOf (values ++ [v]) (kept ++ [v])
  | again {values kept : List Value} {v : Value} : FirstsOf values kept →
    (∃ w ∈ values, w.Equal v) → FirstsOf (values ++ [v]) kept

/-- How many different values there are; one that stands for nothing is different from all. -/
def distinctNumber (values : List Value) : Nat :=
  (values.filterMap meaning?).toFinset.card + values.countP (·.meaning?.isNone)

theorem distinctNumber_perm {values values' : List Value} (h : values.Perm values') :
    distinctNumber values = distinctNumber values' := by
  rw [distinctNumber, distinctNumber, List.toFinset_eq_of_perm _ _ (h.filterMap meaning?),
    h.countP_eq]

namespace FirstsOf
variable {values kept : List Value}

theorem sublist (h : FirstsOf values kept) : kept.Sublist values := by
  induction h with
  | nil => exact .slnil
  | new _ _ ih => exact ih.append_right [_]
  | again _ _ ih => exact ih.trans (List.sublist_append_left _ _)

/-- What equals a value that is kept, or equals one, equals one that is kept. -/
theorem exists_equal {v w : Value} (hw : w ∈ kept ∨ ∃ x ∈ kept, x.Equal w) (hequal : w.Equal v) :
    ∃ x ∈ kept, x.Equal v := by
  rcases hw with hkept | ⟨x, hx, hxw⟩
  · exact ⟨w, hkept, hequal⟩
  · exact ⟨x, hx, hxw.trans hequal⟩

/-- A value that is not kept equals one that is. -/
theorem covers (h : FirstsOf values kept) : ∀ v ∈ values, v ∈ kept ∨ ∃ w ∈ kept, w.Equal v := by
  induction h with
  | nil => exact fun _ hv => absurd hv List.not_mem_nil
  | @new values kept v _ _ ih =>
    intro u hu
    rcases List.mem_append.mp hu with hu | hu
    · rcases ih u hu with hkept | ⟨w, hw, hequal⟩
      · exact .inl (List.mem_append_left _ hkept)
      · exact .inr ⟨w, List.mem_append_left _ hw, hequal⟩
    · exact .inl (List.mem_append_right _ hu)
  | @again values kept v _ hagain ih =>
    intro u hu
    rcases List.mem_append.mp hu with hu | hu
    · exact ih u hu
    · obtain rfl := List.mem_singleton.mp hu
      obtain ⟨w, hw, hequal⟩ := hagain
      exact .inr (exists_equal (ih w hw) hequal)

theorem apart (h : FirstsOf values kept) : kept.Pairwise fun v w => ¬v.Equal w := by
  induction h with
  | nil => exact .nil
  | @new values kept v hfirsts hnew ih =>
    rw [List.pairwise_append]
    refine ⟨ih, List.pairwise_singleton _ _, fun w hw u hu => ?_⟩
    rw [List.mem_singleton.mp hu]
    exact hnew w (hfirsts.sublist.subset hw)
  | again _ _ ih => exact ih

/-- Whether a value is the first of its kind is seen from the values that are kept. -/
theorem new_of_kept (h : FirstsOf values kept) {v : Value} (hnew : ∀ w ∈ kept, ¬w.Equal v) :
    FirstsOf (values ++ [v]) (kept ++ [v]) := by
  refine h.new fun w hw hequal => ?_
  obtain ⟨x, hx, hxv⟩ := exists_equal (h.covers w hw) hequal
  exact hnew x hx hxv

theorem again_of_kept (h : FirstsOf values kept) {v w : Value} (hw : w ∈ kept)
    (hequal : w.Equal v) : FirstsOf (values ++ [v]) kept :=
  h.again ⟨w, h.sublist.subset hw, hequal⟩

/-- With more values, more of them are kept behind those that are. -/
theorem exists_extension (h : FirstsOf values kept) (others : List Value) :
    ∃ more, FirstsOf (values ++ others) (kept ++ more) := by
  induction others generalizing values kept with
  | nil => exact ⟨[], by simpa using h⟩
  | cons v rest ih =>
    rw [List.append_cons]
    by_cases hagain : ∃ w ∈ kept, w.Equal v
    · obtain ⟨w, hw, hequal⟩ := hagain
      exact ih (h.again_of_kept hw hequal)
    · have hnew : ∀ w ∈ kept, ¬w.Equal v := fun w hw hequal => hagain ⟨w, hw, hequal⟩
      obtain ⟨more, hmore⟩ := ih (h.new_of_kept hnew)
      exact ⟨v :: more, List.append_cons kept v more ▸ hmore⟩

theorem length_eq (h : FirstsOf values kept) : kept.length = distinctNumber values := by
  induction h with
  | nil => rfl
  | @new values kept v _ hnew ih =>
    unfold distinctNumber at ih ⊢
    rw [List.length_append, ih, List.filterMap_append, List.countP_append, List.toFinset_append]
    cases hv : v.meaning? with
    | none => simp [hv, add_assoc]
    | some m =>
      have hm : m ∉ (values.filterMap meaning?).toFinset := by
        rw [List.mem_toFinset, List.mem_filterMap]
        rintro ⟨w, hw, hmeaning⟩
        exact hnew w hw ⟨m, hmeaning, hv⟩
      simp [hv, hm]
      omega
  | @again values kept v _ hagain ih =>
    obtain ⟨w, hw, m, hm, hv⟩ := hagain
    have hmem : m ∈ (values.filterMap meaning?).toFinset :=
      List.mem_toFinset.mpr (List.mem_filterMap.mpr ⟨w, hw, hm⟩)
    unfold distinctNumber at ih ⊢
    rw [ih, List.filterMap_append, List.countP_append, List.toFinset_append]
    simp [hv, List.mem_toFinset.mp hmem]

end FirstsOf

section Keys

theorem firstsOf_loop {seen kept : List Value} (h : FirstsOf seen kept.reverse)
    (values : List Value) :
    FirstsOf (seen ++ values)
      (List.eraseDupsBy.loop (fun v w => v.key.same w.key) values kept) := by
  induction values generalizing seen kept with
  | nil => simpa [List.eraseDupsBy.loop] using h
  | cons v values ih =>
    rw [List.append_cons]
    unfold List.eraseDupsBy.loop
    split
    · rename_i hany
      obtain ⟨w, hw, hsame⟩ := List.any_eq_true.mp hany
      exact ih (h.again_of_kept (List.mem_reverse.mpr hw) (same_key_iff.mp hsame).symm)
    · rename_i hany
      refine ih (List.reverse_cons ▸ h.new_of_kept fun w hw hequal => ?_)
      exact List.any_eq_false.mp hany w (List.mem_reverse.mp hw) (same_key_iff.mpr hequal.symm)

/-- To erase values of the same key is to keep the first ones. -/
theorem firstsOf_eraseDupsBy (values : List Value) :
    FirstsOf values (values.eraseDupsBy fun v w => v.key.same w.key) :=
  @firstsOf_loop [] [] .nil values

theorem eraseDupsBy_loop_map {α β : Type} (f : α → β) (r : β → β → Bool) (as bs : List α) :
    List.eraseDupsBy.loop r (as.map f) (bs.map f) =
      (List.eraseDupsBy.loop (fun a b => r (f a) (f b)) as bs).map f := by
  induction as generalizing bs with
  | nil => simp [List.eraseDupsBy.loop]
  | cons a as ih =>
    have hany : (bs.map f).any (r (f a)) = bs.any fun b => r (f a) (f b) := List.any_map
    rw [List.map_cons, List.eraseDupsBy.loop, List.eraseDupsBy.loop, hany]
    split
    · exact ih bs
    · exact ih (a :: bs)

theorem distinctCount_eq (values : List Value) : distinctCount values = distinctNumber values := by
  have hkeys : distinctKeys (values.map key) =
      (values.eraseDupsBy fun v w => v.key.same w.key).map key :=
    eraseDupsBy_loop_map key Key.same values []
  rw [distinctCount, hkeys, List.length_map, (firstsOf_eraseDupsBy values).length_eq]

end Keys

end DatasetCatalog.Value
