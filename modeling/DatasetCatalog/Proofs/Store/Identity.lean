import DatasetCatalog.Proofs.Document.Entries
import DatasetCatalog.Proofs.Success
import DatasetCatalog.Store.Repository

/-!
# What a write leaves alone

A row is written under the id that its dataset has now, and that id is read from a document. Other
datasets are left alone because documents keep their ids: rows are made from datasets, and no patch
states an id.
-/

namespace DatasetCatalog

open Time

/-- Entries to lay over the document of a dataset, which keeps its id. -/
structure Patch where
  entries : List (String × Value)
  keepsId : entries.lookup "id" = none

theorem Dataset.id_of_patched {d updated : Dataset} {p : Patch} {now : Moment}
    (h : d.patched p.entries now = .ok updated) : updated.id = d.id := by
  apply Dataset.id_of_ofDocument h
  rw [Value.lookup_putEntry_of_ne (by decide), Value.lookup_mergeEntries_of_none p.keepsId]
  rfl

namespace Store

/-- The document of a row states the row's id. -/
def DocumentRow.KeepsId (r : DocumentRow) : Prop :=
  r.document.entries.lookup "id" = some (.text r.id)

theorem DocumentRow.id_of_dataset {r : DocumentRow} (hr : r.KeepsId) {d : Dataset}
    (h : r.dataset = .ok d) : d.id = r.id := by
  unfold DocumentRow.dataset at h
  split at h
  · cases h
  · exact Dataset.id_of_ofDocument (mapError_eq_ok h) hr

theorem jsonForm_entries_id {room : Nat} {id : String} {rest : List (String × Value)} {v : Value}
    (h : (Value.object (("id", .text id) :: rest)).jsonFormIn (room + 2) = .ok v) :
    v.entries.lookup "id" = some (.text id) := by
  rw [Value.jsonFormIn, Value.jsonEntriesIn] at h
  cases hrest : Value.jsonEntriesIn (room + 1) rest with
  | error e => simp [hrest, Value.jsonFormIn, bind, Except.bind, Except.map] at h
  | ok forms =>
    simp only [hrest, Value.jsonFormIn, bind, Except.bind, pure, Except.pure, Except.map,
      Except.ok.injEq] at h
    subst h
    rfl

theorem DocumentRow.ofDataset_ok {d : Dataset} {row : DocumentRow}
    (h : DocumentRow.ofDataset d = .ok row) : row.id = d.id ∧ row.KeepsId := by
  unfold DocumentRow.ofDataset at h
  split at h
  · rename_i document hdocument
    cases h
    exact ⟨rfl, jsonForm_entries_id hdocument⟩
  · cases h

/-- Every dataset is kept under its own id. -/
def DatasetStore.KeepsIds : DatasetStore → Prop
  | .memory datasets => ∀ e ∈ datasets, e.2.id = e.1
  | .rows kept => ∀ r ∈ kept, r.KeepsId

namespace DatasetStore
variable {s s' : DatasetStore} {id other : String}

theorem keepsIds_of_empty (h : s = emptyMemory ∨ s = emptyRows) : s.KeepsIds := by
  rcases h with rfl | rfl
  · exact fun _ h => nomatch h
  · exact fun _ h => nomatch h

theorem find?_rows {kept : List DocumentRow} {d : Dataset}
    (h : (rows kept).find? id = .ok (some d)) :
    ∃ r, kept.find? (·.id == id) = some r ∧ r.dataset = .ok d := by
  rw [find?] at h
  cases hr : kept.find? (·.id == id) with
  | none =>
    rw [hr] at h
    cases h
  | some r =>
    rw [hr, Option.mapM_some] at h
    obtain ⟨found, hd, h⟩ := bind_eq_ok h
    cases h
    exact ⟨r, rfl, hd⟩

theorem id_of_find? (hs : s.KeepsIds) {d : Dataset} (h : s.find? id = .ok (some d)) :
    d.id = id := by
  cases s with
  | memory datasets =>
    simp only [find?, Except.ok.injEq] at h
    exact hs (id, d) (mem_of_lookup h)
  | rows kept =>
    obtain ⟨r, hr, hd⟩ := find?_rows h
    have hid := List.find?_some hr
    rw [DocumentRow.id_of_dataset (hs r (List.mem_of_find?_eq_some hr)) hd]
    simpa using hid

/-- A look-up in rows depends only on the row of the id. -/
theorem find?_rows_congr {kept kept' : List DocumentRow}
    (h : kept'.find? (·.id == id) = kept.find? (·.id == id)) :
    (rows kept').find? id = (rows kept).find? id := by
  simp only [find?, h]

theorem find?_replaced {kept : List DocumentRow} {row : DocumentRow} (h : other ≠ row.id) :
    (kept.map fun r => if r.id == row.id then row else r).find? (·.id == other) =
      kept.find? (·.id == other) := by
  induction kept with
  | nil => rfl
  | cons r rest ih =>
    rw [List.map_cons, List.find?_cons, List.find?_cons, ih]
    by_cases hr : r.id = row.id
    · have hne : (row.id == other) = false := beq_false_of_ne (Ne.symm h)
      simp [hr, hne]
    · simp [hr]

theorem lookup_dropped {datasets : List (String × Dataset)} (h : other ≠ id) :
    (datasets.filter (·.1 != id)).lookup other = datasets.lookup other := by
  induction datasets with
  | nil => rfl
  | cons e rest ih =>
    obtain ⟨k, d⟩ := e
    by_cases hk : k = id
    · subst hk
      simp [List.lookup_cons, beq_false_of_ne h, ih]
    · simp [hk, List.lookup_cons, ih]

theorem find?_dropped {kept : List DocumentRow} (h : other ≠ id) :
    (kept.filter (·.id != id)).find? (·.id == other) = kept.find? (·.id == other) := by
  induction kept with
  | nil => rfl
  | cons r rest ih =>
    by_cases hr : r.id = id
    · have hne : (id == other) = false := beq_false_of_ne (Ne.symm h)
      simp [hr, hne, ih]
    · simp [hr, List.find?_cons, ih]

/-- Writing the dataset of an id over its old one. -/
theorem replace_frame (hs : s.KeepsIds) {d : Dataset} (hd : d.id = id)
    (h : s.replace id d = .ok s') :
    s'.KeepsIds ∧ ∀ other, other ≠ id → s'.find? other = s.find? other := by
  cases s with
  | memory datasets =>
    cases h
    refine ⟨?_, fun other hne => ?_⟩
    · intro e he
      rcases Value.mem_putEntry he with rfl | he
      · exact hd
      · exact hs e he
    · simp only [find?, Value.lookup_putEntry_of_ne hne]
  | rows kept =>
    obtain ⟨row, hrow, h⟩ := bind_eq_ok h
    cases h
    obtain ⟨hid, hkeeps⟩ := DocumentRow.ofDataset_ok hrow
    refine ⟨?_, fun other hne => ?_⟩
    · intro r hr
      obtain ⟨old, hold, rfl⟩ := List.mem_map.mp hr
      split
      · exact hkeeps
      · exact hs old hold
    · apply find?_rows_congr
      rw [← hid]
      exact find?_replaced (by rw [hid, hd]; exact hne)

/-- An update finds nothing to patch, or it patches what it finds. -/
theorem update_cases {patch : List (String × Value)} {now : Moment} {updated : Option Dataset}
    (h : s.update id patch now = .ok (updated, s')) :
    updated = none ∧ s' = s ∨
    ∃ current d, s.find? id = .ok (some current) ∧ current.patched patch now = .ok d ∧
      s.replace id d = .ok s' ∧ updated = some d := by
  obtain ⟨found, hfound, h⟩ := bind_eq_ok h
  cases found with
  | none =>
    cases h
    exact .inl ⟨rfl, rfl⟩
  | some current =>
    obtain ⟨d, hd, h⟩ := bind_eq_ok h
    obtain ⟨s'', hreplace, h⟩ := bind_eq_ok h
    cases h
    exact .inr ⟨current, d, hfound, mapError_eq_ok hd, hreplace, rfl⟩

/-- A patch that is in order is written where it can be. -/
theorem update_of_find? {patch : List (String × Value)} {now : Moment} {current d : Dataset}
    (hfind : s.find? id = .ok (some current)) (hd : current.patched patch now = .ok d) :
    s.update id patch now = (s.replace id d).map fun s' => (some d, s') := by
  rw [update, hfind]
  simp only [bind, Except.bind, hd, Except.mapError]
  cases s.replace id d <;> rfl

/-- A patch of one dataset leaves all others alone. -/
theorem update_frame (hs : s.KeepsIds) {p : Patch} {now : Moment} {updated : Option Dataset}
    (h : s.update id p.entries now = .ok (updated, s')) :
    s'.KeepsIds ∧ ∀ other, other ≠ id → s'.find? other = s.find? other := by
  rcases update_cases h with ⟨_, rfl⟩ | ⟨current, d, hfound, hd, hreplace, _⟩
  · exact ⟨hs, fun _ _ => rfl⟩
  · exact replace_frame hs ((Dataset.id_of_patched hd).trans (id_of_find? hs hfound)) hreplace

theorem delete_frame (hs : s.KeepsIds) {deleted : Bool} (h : s.delete id = .ok (deleted, s')) :
    s'.KeepsIds ∧ ∀ other, other ≠ id → s'.find? other = s.find? other := by
  cases s with
  | memory datasets =>
    cases h
    refine ⟨fun e he => hs e (List.mem_filter.mp he).1, fun other hne => ?_⟩
    simp only [find?, lookup_dropped hne]
  | rows kept =>
    cases h
    exact ⟨fun r hr => hs r (List.mem_filter.mp hr).1,
      fun other hne => find?_rows_congr (find?_dropped hne)⟩

theorem deleted_of_find? {d : Dataset} (hd : s.find? id = .ok (some d)) {deleted : Bool}
    (h : s.delete id = .ok (deleted, s')) : deleted = true := by
  cases s with
  | memory datasets =>
    cases h
    simp only [find?, Except.ok.injEq] at hd
    rw [hd]
    rfl
  | rows kept =>
    obtain ⟨r, hr, _⟩ := find?_rows hd
    cases h
    have hid := List.find?_some hr
    rw [List.any_eq_true]
    exact ⟨r, List.mem_of_find?_eq_some hr, hid⟩

/-- A new dataset does not hide one that was there. -/
theorem create_frame (hs : s.KeepsIds) {d : Dataset} (h : s.create d = .ok s') :
    s'.KeepsIds ∧ ∀ id found, s.find? id = .ok (some found) → s'.find? id = .ok (some found) := by
  cases s with
  | memory datasets =>
    simp only [create] at h
    split at h
    · cases h
    · cases h
      refine ⟨?_, fun id found hfound => ?_⟩
      · intro e he
        rcases List.mem_append.mp he with he | he
        · exact hs e he
        · cases List.mem_singleton.mp he
          rfl
      · simp only [find?, Except.ok.injEq] at hfound
        simp only [find?, List.lookup_append, hfound, Option.some_or]
  | rows kept =>
    obtain ⟨row, hrow, h⟩ := bind_eq_ok h
    split at h
    · cases h
    · cases h
      refine ⟨?_, fun id found hfound => ?_⟩
      · intro r hr
        rcases List.mem_append.mp hr with hr | hr
        · exact hs r hr
        · cases List.mem_singleton.mp hr
          exact (DocumentRow.ofDataset_ok hrow).2
      · obtain ⟨r, hr, _⟩ := find?_rows hfound
        rw [← hfound]
        apply find?_rows_congr
        rw [List.find?_append, hr, Option.some_or]

/-- A new dataset is refused if its id is taken. -/
theorem ne_of_create {found d : Dataset} (hfind : s.find? id = .ok (some found))
    (h : s.create d = .ok s') : d.id ≠ id := by
  rintro rfl
  cases s with
  | memory datasets =>
    simp only [find?, Except.ok.injEq] at hfind
    simp only [create, hfind, Option.isSome_some, if_true] at h
    cases h
  | rows kept =>
    obtain ⟨r, hr, _⟩ := find?_rows hfind
    have htaken : kept.any (·.id == d.id) = true := by
      have hid := List.find?_some hr
      exact List.any_eq_true.mpr ⟨r, List.mem_of_find?_eq_some hr, hid⟩
    obtain ⟨row, _, h⟩ := bind_eq_ok h
    rw [if_pos htaken] at h
    cases h

theorem find?_of_delete {deleted : Bool} (h : s.delete id = .ok (deleted, s')) :
    s'.find? id = .ok none := by
  cases s with
  | memory datasets =>
    cases h
    have hgone : (datasets.filter (·.1 != id)).lookup id = none := by
      rw [List.lookup_eq_none_iff]
      intro e he
      rw [bne_comm]
      exact (List.mem_filter.mp he).2
    simp only [find?, hgone]
  | rows kept =>
    cases h
    have hgone : (kept.filter (·.id != id)).find? (·.id == id) = none := by
      rw [List.find?_eq_none]
      intro r hr
      simpa using (List.mem_filter.mp hr).2
    simp only [find?, hgone]
    rfl

/-- Both stores are in memory, or both are kept as rows. -/
def SameKind : DatasetStore → DatasetStore → Prop
  | .memory _, .memory _ => True
  | .rows _, .rows _ => True
  | _, _ => False

instance : DecidableRel SameKind
  | .memory _, .memory _ => .isTrue trivial
  | .rows _, .rows _ => .isTrue trivial
  | .memory _, .rows _ => .isFalse not_false
  | .rows _, .memory _ => .isFalse not_false

end DatasetStore

/-- The datasets of a repository are kept under their own ids. -/
def Repository.KeepsIds (r : Repository) : Prop := r.datasets.KeepsIds

/-- What the operations of a repository make of an empty one, whatever its datasources are. -/
inductive Repository.Reachable : Repository → Prop
  | memory (datasources : List Datasource) : Reachable ⟨.emptyMemory, datasources⟩
  | rows (datasources : List Datasource) : Reachable ⟨.emptyRows, datasources⟩
  | create {r r' : Repository} {d : Dataset} :
    Reachable r → r.create d = .ok r' → Reachable r'
  | update {r r' : Repository} {id : String} {p : Patch} {now : Moment}
      {updated : Option Dataset} :
    Reachable r → r.update id p.entries now = .ok (updated, r') → Reachable r'
  | delete {r r' : Repository} {id : String} {deleted : Bool} :
    Reachable r → r.delete id = .ok (deleted, r') → Reachable r'
  | datasources {r : Repository} (found : List Datasource) :
    Reachable r → Reachable { r with datasources := found }

namespace Repository
variable {r r' : Repository}

theorem update_frame (hr : r.KeepsIds) {id : String} {p : Patch} {now : Moment}
    {updated : Option Dataset} (h : r.update id p.entries now = .ok (updated, r')) :
    r'.KeepsIds ∧ ∀ other, other ≠ id → r'.find? other = r.find? other := by
  obtain ⟨result, hresult, h⟩ := map_eq_ok h
  cases h
  exact DatasetStore.update_frame hr hresult

theorem eq_of_update_none {id : String} {patch : List (String × Value)} {now : Moment}
    (h : r.update id patch now = .ok (none, r')) : r' = r := by
  obtain ⟨⟨updated, s⟩, hresult, h⟩ := map_eq_ok h
  cases h
  rcases DatasetStore.update_cases hresult with ⟨_, rfl⟩ | ⟨_, _, _, _, _, hsome⟩
  · rfl
  · cases hsome

theorem delete_frame (hr : r.KeepsIds) {id : String} {deleted : Bool}
    (h : r.delete id = .ok (deleted, r')) :
    r'.KeepsIds ∧ ∀ other, other ≠ id → r'.find? other = r.find? other := by
  obtain ⟨result, hresult, h⟩ := map_eq_ok h
  cases h
  exact DatasetStore.delete_frame hr hresult

theorem deleted_of_find? {id : String} {d : Dataset} (hd : r.find? id = .ok (some d))
    {deleted : Bool} (h : r.delete id = .ok (deleted, r')) : deleted = true := by
  obtain ⟨result, hresult, h⟩ := map_eq_ok h
  cases h
  exact DatasetStore.deleted_of_find? hd hresult

theorem create_frame (hr : r.KeepsIds) {d : Dataset} (h : r.create d = .ok r') :
    r'.KeepsIds ∧ ∀ id found, r.find? id = .ok (some found) → r'.find? id = .ok (some found) := by
  obtain ⟨datasets, hcreate, h⟩ := map_eq_ok h
  cases h
  exact DatasetStore.create_frame hr hcreate

theorem ne_of_create {id : String} {found d : Dataset} (hfind : r.find? id = .ok (some found))
    (h : r.create d = .ok r') : d.id ≠ id := by
  obtain ⟨datasets, hcreate, _⟩ := map_eq_ok h
  exact DatasetStore.ne_of_create hfind hcreate

theorem find?_of_delete {id : String} {deleted : Bool} (h : r.delete id = .ok (deleted, r')) :
    r'.find? id = .ok none := by
  obtain ⟨result, hdelete, hr⟩ := map_eq_ok h
  cases hr
  exact DatasetStore.find?_of_delete hdelete

/-! Writing datasets does not touch the datasources. -/

theorem create_datasource? {d : Dataset} (h : r.create d = .ok r') (id : String) :
    r'.datasource? id = r.datasource? id := by
  obtain ⟨datasets, _, rfl⟩ := map_eq_ok h
  rfl

theorem update_datasource? {id : String} {patch : List (String × Value)} {now : Moment}
    {updated : Option Dataset} (h : r.update id patch now = .ok (updated, r')) (other : String) :
    r'.datasource? other = r.datasource? other := by
  obtain ⟨⟨_, datasets⟩, _, hr⟩ := map_eq_ok h
  cases hr
  rfl

theorem delete_datasource? {id : String} {deleted : Bool} (h : r.delete id = .ok (deleted, r'))
    (other : String) : r'.datasource? other = r.datasource? other := by
  obtain ⟨⟨_, datasets⟩, _, hr⟩ := map_eq_ok h
  cases hr
  rfl

theorem Reachable.keepsIds (h : r.Reachable) : r.KeepsIds := by
  induction h with
  | memory => exact DatasetStore.keepsIds_of_empty (.inl rfl)
  | rows => exact DatasetStore.keepsIds_of_empty (.inr rfl)
  | create _ hc ih => exact (create_frame ih hc).1
  | update _ hu ih => exact (update_frame ih hu).1
  | delete _ hd ih => exact (delete_frame ih hd).1
  | datasources _ _ ih => exact ih

end Repository

end Store

end DatasetCatalog
