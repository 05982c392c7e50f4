import DatasetCatalog.Proofs.Success
import DatasetCatalog.Store.Repository

/-!
# What cannot be read

Datasets in memory can always be looked up. In rows this fails where a row cannot be read again, and
it never refuses anything.
-/

namespace DatasetCatalog.Store

variable {id : String} {e : Error} {cause : Refusal}

theorem DocumentRow.dataset_ne_refused {row : DocumentRow} :
    row.dataset ≠ .error (.refused cause) := by
  unfold DocumentRow.dataset
  split
  · nofun
  · cases Dataset.ofDocument ⟨row.id, Time.Moment.start2024⟩ row.document.entries <;> nofun

theorem Repository.datasource?_ne_refused {r : Repository} :
    r.datasource? id ≠ .error (.refused cause) := nofun

namespace DatasetStore
variable {s : DatasetStore}

/-- A dataset cannot be looked up: its row cannot be read. -/
inductive Unreadable (id : String) : Error → DatasetStore → Prop
  | row {kept : List DocumentRow} {row : DocumentRow} {e : Error} : row ∈ kept → row.id = id →
    row.dataset = .error e → Unreadable id e (.rows kept)

theorem unreadable_of_find? (h : s.find? id = .error e) : s.Unreadable id e := by
  cases s with
  | memory datasets => cases h
  | rows kept =>
    cases hrow : kept.find? (·.id == id) with
    | none =>
      rw [find?, hrow] at h
      cases h
    | some row =>
      rw [find?, hrow, Option.mapM_some] at h
      have hid := List.find?_some hrow
      exact .row (List.mem_of_find?_eq_some hrow) (beq_iff_eq.mp hid) (map_eq_error h)

theorem find?_ne_refused : s.find? id ≠ .error (.refused cause) := by
  intro h
  cases unreadable_of_find? h with
  | row _ _ hdataset => exact DocumentRow.dataset_ne_refused hdataset

end DatasetStore

end DatasetCatalog.Store
