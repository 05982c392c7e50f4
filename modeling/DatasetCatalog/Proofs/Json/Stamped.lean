import DatasetCatalog.Proofs.Json.Forms

/-!
# JSON forms of documents

A document is plain but for its moments, so it has a JSON form unless it is too deep.
-/

namespace DatasetCatalog.Value

variable {room : Nat}

/-- Plain data in which moments may stand. -/
inductive IsStamped : Value → Prop
  | plain {v : Value} : v.IsPlain → IsStamped v
  | moment (m : Time.Moment) : IsStamped (.moment m)
  | list {vs : List Value} : (∀ v ∈ vs, IsStamped v) → IsStamped (.list vs)
  | object {es : List (String × Value)} : (∀ e ∈ es, IsStamped e.2) → IsStamped (.object es)

theorem exists_forms_of_entries {es : List (String × Value)}
    (h : ∀ e ∈ es, ∃ form, e.2.jsonFormIn room = .ok form) :
    ∃ forms, jsonEntriesIn room es = .ok forms := by
  induction es with
  | nil => exact ⟨[], rfl⟩
  | cons e rest ih =>
    obtain ⟨⟨form, hform⟩, hrest⟩ := List.forall_mem_cons.mp h
    obtain ⟨behind, hbehind⟩ := ih hrest
    refine ⟨(e.1, form) :: behind, ?_⟩
    rw [jsonEntriesIn, hform, hbehind]
    rfl

theorem exists_forms_of_items {vs : List Value}
    (h : ∀ v ∈ vs, ∃ form, v.jsonFormIn room = .ok form) :
    ∃ forms, jsonFormsIn room vs = .ok forms := by
  induction vs with
  | nil => exact ⟨[], rfl⟩
  | cons v rest ih =>
    obtain ⟨⟨form, hform⟩, hrest⟩ := List.forall_mem_cons.mp h
    obtain ⟨behind, hbehind⟩ := ih hrest
    refine ⟨form :: behind, ?_⟩
    rw [jsonFormsIn, hform, hbehind]
    rfl

/-- Stamped data that are not too deep have a JSON form. -/
theorem IsStamped.exists_form {v : Value} (hv : v.IsStamped) (h : v.nesting < room) :
    ∃ form, v.jsonFormIn room = .ok form := by
  obtain ⟨room, rfl⟩ := Nat.exists_eq_add_of_lt (Nat.zero_lt_of_lt h)
  rw [Nat.zero_add]
  induction hv generalizing room with
  | @plain v hv => exact ⟨v, hv.jsonFormIn_eq_self (by omega)⟩
  | moment m => exact ⟨.text m.jsonText, rfl⟩
  | @list vs _ ih =>
    have hitems : ∀ v ∈ vs, ∃ form, v.jsonFormIn room = .ok form := by
      intro v hv
      obtain ⟨w, rest, rfl⟩ := List.exists_cons_of_ne_nil (List.ne_nil_of_mem hv)
      have hdepth := nesting_le_nestings hv
      rw [nesting_list] at h
      obtain ⟨deep, rfl⟩ := Nat.exists_eq_add_of_lt (show 0 < room by omega)
      rw [Nat.zero_add]
      exact ih v hv deep (by omega)
    obtain ⟨forms, hforms⟩ := exists_forms_of_items hitems
    refine ⟨.list forms, ?_⟩
    rw [jsonFormIn, hforms]
    rfl
  | @object es _ ih =>
    have hentries : ∀ e ∈ es, ∃ form, e.2.jsonFormIn room = .ok form := by
      intro e he
      obtain ⟨f, rest, rfl⟩ := List.exists_cons_of_ne_nil (List.ne_nil_of_mem he)
      have hdepth := nesting_le_nestingEntries he
      rw [nesting_object] at h
      obtain ⟨deep, rfl⟩ := Nat.exists_eq_add_of_lt (show 0 < room by omega)
      rw [Nat.zero_add]
      exact ih e he deep (by omega)
    obtain ⟨forms, hforms⟩ := exists_forms_of_entries hentries
    refine ⟨.object forms, ?_⟩
    rw [jsonFormIn, hforms]
    rfl

end DatasetCatalog.Value
