import DatasetCatalog.Proofs.Document.ReadBack
import DatasetCatalog.Proofs.Json.Forms

/-!
# Formats

A format is how something is written as a value and read again. What lasts is read from the JSON
form of what was written just as from the value itself, and all that is read from a JSON form lasts.
-/

namespace DatasetCatalog.Document

variable {α : Type}

structure Format (α : Type) where
  reader : Reader α
  write : α → Value
  inOrder : α → Prop
  lasting : α → Prop
  readsBack : ReadsBack reader write inOrder
  inOrder_of_reads : ∀ {v a}, Reads reader v a → inOrder a
  lasting_of_reads : ∀ {a v b}, (write a).HasForm v → Reads reader v b → lasting b
  reads_form : ∀ {a v}, lasting a → (write a).HasForm v → inOrder a → Reads reader v a

namespace Format

/-- What lasts is read from its form as it was. -/
theorem reads_form_iff (f : Format α) {a b : α} {v : Value} (ha : f.lasting a) (hin : f.inOrder a)
    (hv : (f.write a).HasForm v) : Reads f.reader v b ↔ b = a := by
  have hread := f.reads_form ha hv hin
  constructor
  · intro hb
    exact hb.unique hread
  · rintro rfl
    exact hread

/-- A format of values that JSON can hold as they are. -/
def ofPlain {r : Reader α} {write : α → Value} {inOrder : α → Prop}
    (readsBack : ReadsBack r write inOrder)
    (inOrder_of_reads : ∀ {v a}, Reads r v a → inOrder a)
    (hplain : ∀ a, (write a).IsPlain) : Format α where
  reader := r
  write := write
  inOrder := inOrder
  lasting _ := True
  readsBack := readsBack
  inOrder_of_reads := inOrder_of_reads
  lasting_of_reads _ _ := trivial
  reads_form {a v} _ hv hin := by
    rw [hv.eq_of_isPlain (hplain a)]
    exact (readsBack a a).mpr ⟨rfl, hin⟩

section Nullable
variable {f : Format α} {a : α} {o : Option α} {v : Value}

theorem inOrder_of_reads_nullable (h : Reads (nullable f.reader) v (some a)) : f.inOrder a := by
  by_cases hv : v = .null
  · subst hv
    cases reads_nullable_null.mp h
  · obtain ⟨_, hsome, ha⟩ := (reads_nullable_of_ne hv).mp h
    cases hsome
    exact f.inOrder_of_reads ha

theorem lasting_of_reads_nullable (hnull : ∀ a, f.write a ≠ .null)
    (hdouble : ∀ a, ¬(f.write a).IsDouble) (hv : (Value.ofOption f.write o).HasForm v)
    (h : Reads (nullable f.reader) v (some a)) : f.lasting a := by
  cases o with
  | none =>
    rw [hv.eq_of_isPlain .null] at h
    cases reads_nullable_null.mp h
  | some b =>
    have hne := hv.ne_null (hnull b) (hdouble b)
    obtain ⟨_, hsome, ha⟩ := (reads_nullable_of_ne hne).mp h
    cases hsome
    exact f.lasting_of_reads hv ha

theorem reads_form_nullable (hnull : ∀ a, f.write a ≠ .null)
    (hdouble : ∀ a, ¬(f.write a).IsDouble) (ho : ∀ a, o = some a → f.lasting a)
    (hv : (Value.ofOption f.write o).HasForm v) (hin : ∀ a, o = some a → f.inOrder a) :
    Reads (nullable f.reader) v o := by
  cases o with
  | none =>
    rw [hv.eq_of_isPlain .null]
    exact reads_nullable_null.mpr rfl
  | some a =>
    rw [reads_nullable_of_ne (hv.ne_null (hnull a) (hdouble a))]
    exact ⟨a, rfl, f.reads_form (ho a rfl) hv (hin a rfl)⟩

end Nullable

def nullable (f : Format α) (hnull : ∀ a, f.write a ≠ .null)
    (hdouble : ∀ a, ¬(f.write a).IsDouble) : Format (Option α) where
  reader := Document.nullable f.reader
  write := .ofOption f.write
  inOrder o := ∀ a, o = some a → f.inOrder a
  lasting o := ∀ a, o = some a → f.lasting a
  readsBack := f.readsBack.nullable hnull
  inOrder_of_reads h _ ha := inOrder_of_reads_nullable (ha ▸ h)
  lasting_of_reads hv h _ ha := lasting_of_reads_nullable hnull hdouble hv (ha ▸ h)
  reads_form := reads_form_nullable hnull hdouble

section Lists
variable {f : Format α} {as bs : List α} {v : Value}

theorem inOrder_of_reads_listOf (h : Reads (Document.listOf f.reader) v as) :
    ∀ a ∈ as, f.inOrder a := by
  cases v with
  | list vs =>
    intro a ha
    obtain ⟨w, _, hw⟩ := exists_left_of_mem (reads_listOf.mp h) ha
    exact f.inOrder_of_reads hw
  | _ =>
    obtain ⟨_, h⟩ := h
    cases h

theorem lasting_of_reads_listOf (hv : (Value.list (as.map f.write)).HasForm v)
    (h : Reads (Document.listOf f.reader) v bs) : ∀ b ∈ bs, f.lasting b := by
  obtain ⟨forms, rfl, hforms⟩ := hv.list
  intro b hb
  obtain ⟨w, hw, hread⟩ := exists_left_of_mem (reads_listOf.mp h) hb
  obtain ⟨_, ha, hform⟩ := exists_left_of_mem hforms hw
  obtain ⟨a, _, rfl⟩ := List.mem_map.mp ha
  exact f.lasting_of_reads hform hread

theorem reads_form_listOf (has : ∀ a ∈ as, f.lasting a)
    (hv : (Value.list (as.map f.write)).HasForm v) (hin : ∀ a ∈ as, f.inOrder a) :
    Reads (Document.listOf f.reader) v as := by
  obtain ⟨forms, rfl, hforms⟩ := hv.list
  rw [List.forall₂_map_left_iff] at hforms
  apply reads_listOf.mpr
  clear hv
  induction hforms with
  | nil => exact .nil
  | cons hform _ ih =>
    obtain ⟨hlasting, has⟩ := List.forall_mem_cons.mp has
    obtain ⟨hfirst, hin⟩ := List.forall_mem_cons.mp hin
    exact .cons (f.reads_form hlasting hform hfirst) (ih has hin)

end Lists

def listOf (f : Format α) : Format (List α) where
  reader := Document.listOf f.reader
  write as := .list (as.map f.write)
  inOrder as := ∀ a ∈ as, f.inOrder a
  lasting as := ∀ a ∈ as, f.lasting a
  readsBack := f.readsBack.listOf
  inOrder_of_reads := inOrder_of_reads_listOf
  lasting_of_reads := lasting_of_reads_listOf
  reads_form := reads_form_listOf

/-- The results of a format that a stricter reader takes. -/
def narrow (f : Format α) {r : Reader α} {allowed : α → Prop}
    (h : ∀ {v a}, Reads r v a ↔ Reads f.reader v a ∧ allowed a) : Format α where
  reader := r
  write := f.write
  inOrder a := f.inOrder a ∧ allowed a
  lasting := f.lasting
  readsBack a b := by
    rw [h, f.readsBack a b]
    constructor
    · rintro ⟨⟨rfl, hin⟩, hallowed⟩
      exact ⟨rfl, hin, hallowed⟩
    · rintro ⟨rfl, hin, hallowed⟩
      exact ⟨⟨rfl, hin⟩, hallowed⟩
  inOrder_of_reads hread := (h.mp hread).imp_left f.inOrder_of_reads
  lasting_of_reads hv hread := f.lasting_of_reads hv (h.mp hread).1
  reads_form ha hv hin := h.mpr ⟨f.reads_form ha hv hin.1, hin.2⟩

/-- A format of which some results are refused. -/
def refuse (f : Format α) (bad : α → Bool) (kind : FaultKind) : Format α :=
  f.narrow (r := Document.refuse f.reader bad kind) reads_refuse

end Format

end DatasetCatalog.Document
