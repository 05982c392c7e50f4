import DatasetCatalog.Error
import Mathlib.Data.List.Forall2
import Mathlib.Data.List.Perm.Basic

/-!
# Computations that succeed

A computation of several steps has a result only if each step has one, and fails as one of them
does. The lemmas here take such a computation apart, step by step.
-/

namespace DatasetCatalog

section Results
variable {ε α β : Type}

theorem bind_eq_ok {x : Except ε α} {f : α → Except ε β} {b : β} (h : (x >>= f) = .ok b) :
    ∃ a, x = .ok a ∧ f a = .ok b := by
  cases x with
  | error e => cases h
  | ok a => exact ⟨a, rfl, h⟩

theorem map_eq_ok {x : Except ε α} {f : α → β} {b : β} (h : x.map f = .ok b) :
    ∃ a, x = .ok a ∧ f a = b := by
  cases x with
  | error e => cases h
  | ok a => exact ⟨a, rfl, Except.ok.inj h⟩

theorem mapError_eq_ok {ε' : Type} {x : Except ε α} {f : ε → ε'} {a : α}
    (h : x.mapError f = .ok a) : x = .ok a := by
  cases x with
  | error e => cases h
  | ok a' => exact congrArg Except.ok (Except.ok.inj h)

theorem bind_eq_error {x : Except ε α} {f : α → Except ε β} {e : ε} (h : (x >>= f) = .error e) :
    x = .error e ∨ ∃ a, x = .ok a ∧ f a = .error e := by
  cases x with
  | error e' =>
    cases h
    exact .inl rfl
  | ok a => exact .inr ⟨a, rfl, h⟩

theorem map_eq_error {x : Except ε α} {f : α → β} {e : ε} (h : x.map f = .error e) :
    x = .error e := by
  cases x with
  | error e' =>
    cases h
    rfl
  | ok a => cases h

theorem exists_ok_of_any {x : Except ε α} {p : α → Bool} (h : x.toOption.any p = true) :
    ∃ a, x = .ok a ∧ p a = true := by
  cases x with
  | error e => cases h
  | ok a => exact ⟨a, rfl, h⟩

theorem exists_found_of_any {x : Except ε (Option α)} {p : α → Bool}
    (h : x.toOption.join.any p = true) : ∃ a, x = .ok (some a) ∧ p a = true := by
  cases x with
  | error e => cases h
  | ok found =>
    cases found with
    | none => cases h
    | some a => exact ⟨a, rfl, h⟩

/-- A look-up that succeeds has found an entry. -/
theorem mem_of_lookup {κ : Type} [BEq κ] [LawfulBEq κ] {entries : List (κ × α)} {k : κ} {a : α}
    (h : entries.lookup k = some a) : (k, a) ∈ entries := by
  obtain ⟨before, rest, rfl, _⟩ := List.lookup_eq_some_iff.mp h
  exact List.mem_append_right _ List.mem_cons_self

theorem exists_of_mapM_eq_error {g : α → Except ε β} {as : List α} {e : ε}
    (h : as.mapM g = .error e) : ∃ a ∈ as, g a = .error e := by
  induction as with
  | nil => cases h
  | cons a rest ih =>
    rw [List.mapM_cons] at h
    rcases bind_eq_error h with h | ⟨b, _, h⟩
    · exact ⟨a, List.mem_cons_self, h⟩
    rcases bind_eq_error h with h | ⟨bs, _, h⟩
    · obtain ⟨a', ha', hg⟩ := ih h
      exact ⟨a', List.mem_cons_of_mem _ ha', hg⟩
    · cases h

theorem exists_left_of_mem {R : α → β → Prop} {as : List α} {bs : List β}
    (h : List.Forall₂ R as bs) {b : β} (hb : b ∈ bs) : ∃ a ∈ as, R a b := by
  induction h with
  | nil => cases hb
  | @cons a b' _ _ hab _ ih =>
    rcases List.mem_cons.mp hb with rfl | hb
    · exact ⟨a, List.mem_cons_self, hab⟩
    · obtain ⟨a, ha, hab⟩ := ih hb
      exact ⟨a, List.mem_cons_of_mem _ ha, hab⟩

/-- What was computed one by one stands in the order of its sources. -/
theorem forall₂_of_mapM {g : α → Except ε β} {as : List α} {bs : List β}
    (h : as.mapM g = .ok bs) : List.Forall₂ (fun a b => g a = .ok b) as bs := by
  induction as generalizing bs with
  | nil =>
    cases h
    exact .nil
  | cons a rest ih =>
    rw [List.mapM_cons] at h
    obtain ⟨b, hb, h⟩ := bind_eq_ok h
    obtain ⟨bs', hrest, h⟩ := bind_eq_ok h
    cases h
    exact .cons hb (ih hrest)

theorem exists_of_mem_of_mapM {g : α → Except ε β} {as : List α} {bs : List β}
    (h : as.mapM g = .ok bs) {a : α} (ha : a ∈ as) : ∃ b, g a = .ok b := by
  obtain ⟨b, _, hb⟩ := exists_left_of_mem (forall₂_of_mapM h).flip ha
  exact ⟨b, hb⟩

/-- If each has a result, then all have. -/
theorem exists_mapM_of_forall {g : α → Except ε β} {as : List α}
    (h : ∀ a ∈ as, ∃ b, g a = .ok b) : ∃ bs, as.mapM g = .ok bs := by
  induction as with
  | nil => exact ⟨[], rfl⟩
  | cons a rest ih =>
    obtain ⟨⟨b, hb⟩, hrest⟩ := List.forall_mem_cons.mp h
    obtain ⟨bs, hbs⟩ := ih hrest
    exact ⟨b :: bs, by rw [List.mapM_cons, hb, hbs]; rfl⟩

theorem map_eq_of_mapM {g : α → Except ε β} {as : List α} {bs : List β}
    (h : as.mapM g = .ok bs) : as.map g = bs.map .ok := by
  rw [← List.forall₂_eq_eq_eq, List.forall₂_map_left_iff, List.forall₂_map_right_iff]
  exact forall₂_of_mapM h

/-- What was computed one by one stands in another order if its sources do. -/
theorem perm_of_mapM {g : α → Except ε β} {as as' : List α} {bs bs' : List β} (h : as.Perm as')
    (hbs : as.mapM g = .ok bs) (hbs' : as'.mapM g = .ok bs') : bs.Perm bs' := by
  have hresults := h.map g
  rw [map_eq_of_mapM hbs, map_eq_of_mapM hbs'] at hresults
  exact (List.map_perm_map_iff fun _ _ => Except.ok.inj).mp hresults

end Results

section Runs
variable {σ α β : Type} {x : ExceptT Error (StateM σ) α} {f : α → ExceptT Error (StateM σ) β}
  {s s' s'' : σ}

theorem run_bind_of_ok {a : α} (hx : x s = (.ok a, s')) : (x >>= f) s = f a s' := by
  change (ExceptT.bindCont f (x s).1) (x s).2 = _
  rw [hx]
  rfl

theorem run_bind_of_error {e : Error} (hx : x s = (.error e, s')) :
    (x >>= f) s = (.error e, s') := by
  change (ExceptT.bindCont f (x s).1) (x s).2 = _
  rw [hx]
  rfl

theorem run_bind_eq_ok {b : β} (h : (x >>= f) s = (.ok b, s'')) :
    ∃ a s', x s = (.ok a, s') ∧ f a s' = (.ok b, s'') := by
  rcases hx : x s with ⟨e | a, s'⟩
  · rw [run_bind_of_error hx] at h
    cases h
  · rw [run_bind_of_ok hx] at h
    exact ⟨a, s', rfl, h⟩

end Runs

end DatasetCatalog
