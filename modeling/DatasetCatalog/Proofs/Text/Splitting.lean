import DatasetCatalog.Text.Blank
import Mathlib.Data.List.SplitBy

/-!
# Fields of a text

The fields of a text are its longest runs of characters that do not separate. A text is made of
its fields and of separators, and fields that are joined by a separator are found again.
-/

namespace DatasetCatalog.Text

/-- Some characters, none of which separates. -/
structure IsField (sep : Char → Bool) (field : List Char) : Prop where
  ne_nil : field ≠ []
  plain : ∀ c ∈ field, sep c = false

/-- A text without separators at its ends, and with no two of them side by side. -/
structure IsSpaced (sep : Char → Bool) (cs : List Char) : Prop where
  leading : ∀ c ∈ cs.head?, sep c = false
  trailing : ∀ c ∈ cs.getLast?, sep c = false
  single : cs.IsChain fun a b => sep a = true → sep b = false

variable {sep : Char → Bool} {s : Char} {field rest cs : List Char} {fields : List (List Char)}

section Runs

theorem sep_eq_of_isChain {c : Char} (h : (c :: cs).IsChain fun a b => sep a == sep b) :
    ∀ d ∈ cs, sep d = sep c := by
  induction cs generalizing c with
  | nil => exact fun _ hd => absurd hd List.not_mem_nil
  | cons b cs ih =>
    obtain ⟨hsame, hrest⟩ := List.isChain_cons_cons.mp h
    have hb : sep b = sep c := (beq_iff_eq.mp hsame).symm
    exact List.forall_mem_cons.mpr ⟨hb, fun d hd => (ih hrest d hd).trans hb⟩

/-- A run is of separators only, or a field. -/
theorem run_cases (h : field ∈ cs.splitBy fun a b => sep a == sep b) :
    (∀ c ∈ field, sep c = true) ∨ IsField sep field := by
  obtain ⟨c, more, rfl⟩ := List.exists_cons_of_ne_nil (List.ne_nil_of_mem_splitBy h)
  have hsame := sep_eq_of_isChain (List.isChain_of_mem_splitBy h)
  cases hc : sep c with
  | true => exact .inl (List.forall_mem_cons.mpr ⟨hc, fun d hd => (hsame d hd).trans hc⟩)
  | false =>
    exact .inr ⟨List.cons_ne_nil _ _,
      List.forall_mem_cons.mpr ⟨hc, fun d hd => (hsame d hd).trans hc⟩⟩

theorem any_of_separators (h : ∀ c ∈ field, sep c = true) : field.any (!sep ·) = false :=
  List.any_eq_false.mpr fun c hc => by rw [h c hc]; exact Bool.false_ne_true

theorem IsField.any (h : IsField sep field) : field.any (!sep ·) = true := by
  obtain ⟨c, hc⟩ := List.exists_mem_of_ne_nil field h.ne_nil
  exact List.any_eq_true.mpr ⟨c, hc, by rw [h.plain c hc, Bool.not_false]⟩

theorem IsField.filter (h : IsField sep field) : field.filter (!sep ·) = field :=
  List.filter_eq_self.mpr fun c hc => by rw [h.plain c hc, Bool.not_false]

theorem IsField.isChain (h : IsField sep field) : field.IsChain fun a b => sep a == sep b :=
  (List.pairwise_of_forall_mem_list fun a ha b hb => by
    rw [h.plain a ha, h.plain b hb, beq_self_eq_true]).isChain

theorem IsField.imp {sep' : Char → Bool} (h : IsField sep field)
    (himp : ∀ c, sep c = false → sep' c = false) : IsField sep' field :=
  ⟨h.ne_nil, fun c hc => himp c (h.plain c hc)⟩

end Runs

section Splitting

theorem isField_of_mem_fieldsBy (h : field ∈ fieldsBy sep cs) : IsField sep field := by
  obtain ⟨hrun, hany⟩ := List.mem_filter.mp h
  rcases run_cases hrun with hsep | hfield
  · rw [any_of_separators hsep] at hany
    cases hany
  · exact hfield

theorem infix_of_mem_fieldsBy (h : field ∈ fieldsBy sep cs) : field <:+: cs := by
  have hwithin := List.infix_of_mem_flatten (List.mem_of_mem_filter h)
  rwa [List.flatten_splitBy] at hwithin

theorem filter_cons_of_field (runs : List (List Char)) (h : IsField sep field) :
    (field :: runs).filter (fun run => run.any (!sep ·)) =
      field :: runs.filter fun run => run.any (!sep ·) :=
  List.filter_cons_of_pos (p := fun run : List Char => run.any (!sep ·)) h.any

theorem filter_cons_of_separators (runs : List (List Char)) (h : ∀ c ∈ field, sep c = true) :
    (field :: runs).filter (fun run => run.any (!sep ·)) =
      runs.filter fun run => run.any (!sep ·) :=
  List.filter_cons_of_neg (p := fun run : List Char => run.any (!sep ·)) <|
    Bool.not_eq_true _ ▸ any_of_separators h

theorem flatten_filter_runs {runs : List (List Char)}
    (h : ∀ run ∈ runs, (∀ c ∈ run, sep c = true) ∨ IsField sep run) :
    (runs.filter fun run => run.any (!sep ·)).flatten = runs.flatten.filter (!sep ·) := by
  induction runs with
  | nil => rfl
  | cons run runs ih =>
    obtain ⟨hrun, hrest⟩ := List.forall_mem_cons.mp h
    rw [List.flatten_cons, List.filter_append, ← ih hrest]
    rcases hrun with hsep | hfield
    · have hnone : run.filter (!sep ·) = [] :=
        List.filter_eq_nil_iff.mpr fun c hc => by rw [hsep c hc]; exact Bool.false_ne_true
      rw [filter_cons_of_separators runs hsep, hnone, List.nil_append]
    · rw [filter_cons_of_field runs hfield, List.flatten_cons, hfield.filter]

/-- Nothing is lost between fields but separators. -/
theorem flatten_fieldsBy (sep : Char → Bool) (cs : List Char) :
    (fieldsBy sep cs).flatten = cs.filter (!sep ·) := by
  rw [fieldsBy, flatten_filter_runs fun _ => run_cases, List.flatten_splitBy]

theorem fieldsBy_append (hfield : IsField sep field) (hrest : ∀ c ∈ rest.head?, sep c = true) :
    fieldsBy sep (field ++ rest) = field :: fieldsBy sep rest := by
  have hends : ∀ a ∈ field.getLast?, ∀ b ∈ rest.head?, (sep a == sep b) = false := by
    intro a ha b hb
    rw [hfield.plain a (List.mem_of_mem_getLast? ha), hrest b hb]
    rfl
  rw [fieldsBy, List.splitBy_append hends, List.splitBy_of_isChain hfield.ne_nil hfield.isChain,
    List.singleton_append, filter_cons_of_field _ hfield, fieldsBy]

theorem fieldsBy_cons (hs : sep s = true) (hrest : ∀ c ∈ rest.head?, sep c = false) :
    fieldsBy sep (s :: rest) = fieldsBy sep rest := by
  have hends : ∀ a ∈ [s].getLast?, ∀ b ∈ rest.head?, (sep a == sep b) = false := by
    intro a ha b hb
    rw [List.mem_singleton.mp (List.mem_of_mem_getLast? ha), hs, hrest b hb]
    rfl
  have hsep : ∀ c ∈ [s], sep c = true := fun c hc => List.mem_singleton.mp hc ▸ hs
  rw [← List.singleton_append, fieldsBy, List.splitBy_append hends,
    List.splitBy_of_isChain (List.cons_ne_nil _ _) (List.isChain_singleton _),
    List.singleton_append, filter_cons_of_separators _ hsep, fieldsBy]

end Splitting

section Joining

theorem IsField.isSpaced (h : IsField sep field) : IsSpaced sep field where
  leading c hc := h.plain c (List.mem_of_mem_head? hc)
  trailing c hc := h.plain c (List.mem_of_mem_getLast? hc)
  single := by
    refine List.Pairwise.isChain (List.pairwise_of_forall_mem_list fun a _ b hb _ => ?_)
    exact h.plain b hb

theorem IsSpaced.cons (hfield : IsField sep field) (hrest : IsSpaced sep rest) (hne : rest ≠ []) :
    IsSpaced sep (field ++ s :: rest) where
  leading c hc := by
    rw [List.head?_append_of_ne_nil _ hfield.ne_nil] at hc
    exact hfield.isSpaced.leading c hc
  trailing c hc := by
    rw [List.getLast?_append_cons, List.getLast?_cons_of_ne_nil hne] at hc
    exact hrest.trailing c hc
  single := by
    refine List.isChain_append.mpr ⟨hfield.isSpaced.single, ?_, ?_⟩
    · exact List.isChain_cons.mpr ⟨fun b hb _ => hrest.leading b hb, hrest.single⟩
    · intro a ha b _ hsep
      rw [hfield.plain a (List.mem_of_mem_getLast? ha)] at hsep
      cases hsep

/-- The first of some fields stands before the separator and the others, if there are others. -/
theorem intercalate_cases (s : Char) (field : List Char) (fields : List (List Char)) :
    fields = [] ∧ List.intercalate [s] (field :: fields) = field ∨
      fields ≠ [] ∧ List.intercalate [s] (field :: fields) =
        field ++ s :: List.intercalate [s] fields := by
  cases fields with
  | nil => exact .inl ⟨rfl, List.intercalate_singleton⟩
  | cons next fields =>
    refine .inr ⟨List.cons_ne_nil _ _, ?_⟩
    rw [List.intercalate_cons_cons, List.append_assoc, List.singleton_append]

theorem mem_intercalate {c : Char} (h : c ∈ List.intercalate [s] fields) :
    c = s ∨ c ∈ fields.flatten := by
  induction fields with
  | nil => exact absurd h List.not_mem_nil
  | cons field fields ih =>
    rw [List.flatten_cons, List.mem_append]
    rcases intercalate_cases s field fields with ⟨_, heq⟩ | ⟨_, heq⟩
    · exact .inr (.inl (heq ▸ h))
    · rw [heq, List.mem_append, List.mem_cons] at h
      rcases h with hfield | rfl | hrest
      · exact .inr (.inl hfield)
      · exact .inl rfl
      · exact (ih hrest).imp_right .inr

theorem intercalate_ne_nil (h : ∀ field ∈ fields, IsField sep field) (hne : fields ≠ []) :
    List.intercalate [s] fields ≠ [] := by
  obtain ⟨field, more, rfl⟩ := List.exists_cons_of_ne_nil hne
  have hfield := (h field List.mem_cons_self).ne_nil
  rcases intercalate_cases s field more with ⟨_, heq⟩ | ⟨_, heq⟩
  · rw [heq]
    exact hfield
  · rw [heq]
    exact List.append_ne_nil_of_left_ne_nil hfield _

theorem isSpaced_intercalate (h : ∀ field ∈ fields, IsField sep field) :
    IsSpaced sep (List.intercalate [s] fields) := by
  induction fields with
  | nil => exact ⟨nofun, nofun, .nil⟩
  | cons field fields ih =>
    obtain ⟨hfield, hrest⟩ := List.forall_mem_cons.mp h
    rcases intercalate_cases s field fields with ⟨_, heq⟩ | ⟨hne, heq⟩
    · rw [heq]
      exact hfield.isSpaced
    · rw [heq]
      exact .cons hfield (ih hrest) (intercalate_ne_nil hrest hne)

/-- Fields that a separator joins are the fields of the text. -/
theorem fieldsBy_intercalate (hs : sep s = true) (h : ∀ field ∈ fields, IsField sep field) :
    fieldsBy sep (List.intercalate [s] fields) = fields := by
  induction fields with
  | nil => rfl
  | cons field fields ih =>
    obtain ⟨hfield, hrest⟩ := List.forall_mem_cons.mp h
    rcases intercalate_cases s field fields with ⟨rfl, heq⟩ | ⟨_, heq⟩
    · have hnone : ∀ c ∈ ([] : List Char).head?, sep c = true := nofun
      rw [heq, ← List.append_nil field, fieldsBy_append hfield hnone, List.append_nil]
      rfl
    · have hsep : ∀ c ∈ (s :: List.intercalate [s] fields).head?, sep c = true := by
        rintro c ⟨⟩
        exact hs
      rw [heq, fieldsBy_append hfield hsep, fieldsBy_cons hs (isSpaced_intercalate hrest).leading,
        ih hrest]

end Joining

end DatasetCatalog.Text
