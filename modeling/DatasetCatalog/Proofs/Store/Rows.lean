import DatasetCatalog.Proofs.Model.Parts
import DatasetCatalog.Proofs.Store.Validity

/-!
# What rows keep of datasets

A row holds the JSON form of a dataset's document. What is read from it has every part of the
dataset that lasts, and all its own parts last. So a patch changes no other part than it states,
though the dataset goes through its row once more.
-/

namespace DatasetCatalog

open Document Time

/-- Null within so many lists. Rows write it at a depth at which they do not read any more. -/
def Value.nested : Nat → Value
  | 0 => .null
  | n + 1 => .list [nested n]

/-- Of a dataset that was kept, another was read: it has the parts that last. -/
def Dataset.KeptAs (d d' : Dataset) : Prop :=
  ∀ p ∈ Dataset.parts, p.format.lasting (p.get d) → p.get d' = p.get d

theorem Dataset.KeptAs.refl (d : Dataset) : d.KeptAs d := fun _ _ _ => rfl

/-- What lasts in both of two datasets is the same in them. -/
def Dataset.SameWhereLasting (d d' : Dataset) : Prop :=
  ∀ p ∈ Dataset.parts, p.format.lasting (p.get d) → p.format.lasting (p.get d') →
    p.get d' = p.get d

theorem Dataset.inOrder_of_patched {d d' : Dataset} {patch : List (String × Value)} {now : Moment}
    (h : d.patched patch now = .ok d') : d'.InOrder :=
  Dataset.inOrder_of_ofDocument h

namespace Store

namespace DocumentRow
variable {d d' : Dataset} {row : DocumentRow}

/-- The columns of a row are those of the dataset, and its document is the JSON form. -/
structure Mirrors (row : DocumentRow) (d : Dataset) : Prop where
  id : row.id = d.id
  userId : row.userId = d.userId
  name : row.name = d.name
  category : row.category = d.category
  type : row.type = Named.name d.type
  status : row.status = Named.name d.status
  form : (Value.object d.document).HasForm row.document

theorem mirrors_of_ofDataset (h : DocumentRow.ofDataset d = .ok row) : row.Mirrors d := by
  unfold DocumentRow.ofDataset at h
  split at h
  · rename_i document hdocument
    cases h
    exact ⟨rfl, rfl, rfl, rfl, rfl, rfl, _, hdocument⟩
  · cases h

theorem ofDocument_of_dataset (h : row.dataset = .ok d) :
    Dataset.ofDocument ⟨row.id, Moment.start2024⟩ row.document.entries = .ok d := by
  unfold DocumentRow.dataset at h
  split at h
  · cases h
  · exact mapError_eq_ok h

theorem inOrder_of_dataset (h : row.dataset = .ok d) : d.InOrder :=
  Dataset.inOrder_of_ofDocument (ofDocument_of_dataset h)

theorem Mirrors.lasting_of_dataset (h : row.Mirrors d) (hread : row.dataset = .ok d') :
    d'.Lasting :=
  Dataset.lasting_of_form h.form (ofDocument_of_dataset hread)

theorem Mirrors.keptAs (h : row.Mirrors d) (hd : d.InOrder) (hread : row.dataset = .ok d') :
    d.KeptAs d' :=
  fun _ hp hlasting => hd.eq_of_form h.form (ofDocument_of_dataset hread) hp hlasting

theorem Mirrors.sameWhereLasting (h : row.Mirrors d) (h' : row.Mirrors d') (hd : d.InOrder)
    (hd' : d'.InOrder) : d.SameWhereLasting d' :=
  fun _ => hd.eq_of_forms hd' h.form h'.form

/-- A dataset that lasts is read as it was, unless its document is too deep. -/
theorem Mirrors.dataset_eq (h : row.Mirrors d) (hd : d.InOrder) (hlasting : d.Lasting)
    (hdepth : row.document.nesting ≤ maxNesting) : row.dataset = .ok d := by
  unfold DocumentRow.dataset
  rw [if_neg (Nat.not_lt.mpr hdepth), hd.ofDocument_form hlasting h.form]
  rfl

end DocumentRow

namespace DatasetStore
variable {s s' : DatasetStore} {id : String} {d d' : Dataset} {P : Dataset → Prop}

/-- Every dataset that is kept is in order and has a property; rows were made of such. -/
def All (P : Dataset → Prop) : DatasetStore → Prop
  | .memory datasets => ∀ e ∈ datasets, e.2.InOrder ∧ P e.2
  | .rows kept => ∀ r ∈ kept, ∃ d, r.Mirrors d ∧ d.InOrder ∧ P d

theorem all_of_empty (h : s = emptyMemory ∨ s = emptyRows) : s.All P := by
  rcases h with rfl | rfl
  · exact fun _ h => nomatch h
  · exact fun _ h => nomatch h

/-- A store has a dataset as it is, as what is read from a row, or as what a row was made of. -/
inductive Stores (d : Dataset) : DatasetStore → Prop
  | memory {id : String} {datasets : List (String × Dataset)} : (id, d) ∈ datasets →
    Stores d (.memory datasets)
  | read {kept : List DocumentRow} {row : DocumentRow} : row ∈ kept → row.dataset = .ok d →
    Stores d (.rows kept)
  | written {kept : List DocumentRow} {row : DocumentRow} : row ∈ kept → row.Mirrors d →
    d.InOrder → Stores d (.rows kept)

theorem stores_of_find? (h : s.find? id = .ok (some d)) : Stores d s := by
  cases s with
  | memory datasets =>
    simp only [find?, Except.ok.injEq] at h
    exact .memory (mem_of_lookup h)
  | rows kept =>
    obtain ⟨r, hr, hread⟩ := find?_rows h
    exact .read (List.mem_of_find?_eq_some hr) hread

/-- What a store has is in order, and as far as it lasts it has the property of what was kept. -/
theorem All.of_stores (hs : s.All P) (h : Stores d s) :
    d.InOrder ∧ ∃ d₀, P d₀ ∧ d₀.SameWhereLasting d := by
  cases h with
  | memory hmem =>
    obtain ⟨hd, hp⟩ := hs _ hmem
    exact ⟨hd, d, hp, fun _ _ _ _ => rfl⟩
  | read hmem hread =>
    obtain ⟨d₀, hmirrors, hd₀, hp⟩ := hs _ hmem
    refine ⟨DocumentRow.inOrder_of_dataset hread, d₀, hp, ?_⟩
    exact fun p hpart hlasting _ => hmirrors.keptAs hd₀ hread p hpart hlasting
  | written hmem hmirrors hd =>
    obtain ⟨d₀, hmirrors₀, hd₀, hp⟩ := hs _ hmem
    exact ⟨hd, d₀, hp, hmirrors₀.sameWhereLasting hmirrors hd₀ hd⟩

theorem create_all (hs : s.All P) (hd : d.InOrder) (hp : P d) (h : s.create d = .ok s') :
    s'.All P := by
  cases s with
  | memory datasets =>
    simp only [create] at h
    split at h
    · cases h
    · cases h
      intro e he
      rcases List.mem_append.mp he with he | he
      · exact hs e he
      · cases List.mem_singleton.mp he
        exact ⟨hd, hp⟩
  | rows kept =>
    obtain ⟨row, hrow, h⟩ := bind_eq_ok h
    split at h
    · cases h
    · cases h
      intro r hr
      rcases List.mem_append.mp hr with hr | hr
      · exact hs r hr
      · cases List.mem_singleton.mp hr
        exact ⟨d, DocumentRow.mirrors_of_ofDataset hrow, hd, hp⟩

theorem replace_all (hs : s.All P) (hd : d.InOrder) (hp : P d) (h : s.replace id d = .ok s') :
    s'.All P := by
  cases s with
  | memory datasets =>
    cases h
    intro e he
    rcases Value.mem_putEntry he with rfl | he
    · exact ⟨hd, hp⟩
    · exact hs e he
  | rows kept =>
    obtain ⟨row, hrow, h⟩ := bind_eq_ok h
    cases h
    intro r hr
    obtain ⟨old, hold, rfl⟩ := List.mem_map.mp hr
    split
    · exact ⟨d, DocumentRow.mirrors_of_ofDataset hrow, hd, hp⟩
    · exact hs old hold

theorem update_all (hs : s.All P) {patch : List (String × Value)} {now : Moment}
    {updated : Option Dataset} (hp : ∀ current d, s.find? id = .ok (some current) →
      current.patched patch now = .ok d → P d)
    (h : s.update id patch now = .ok (updated, s')) : s'.All P := by
  rcases update_cases h with ⟨_, rfl⟩ | ⟨current, d, hfind, hd, hreplace, _⟩
  · exact hs
  · exact replace_all hs (Dataset.inOrder_of_patched hd) (hp current d hfind hd) hreplace

theorem delete_all (hs : s.All P) {deleted : Bool} (h : s.delete id = .ok (deleted, s')) :
    s'.All P := by
  cases s with
  | memory datasets =>
    cases h
    exact fun e he => hs e (List.mem_filter.mp he).1
  | rows kept =>
    cases h
    exact fun r hr => hs r (List.mem_filter.mp hr).1

/-- A row that is written over stands where the old one stood. -/
theorem find?_replaced_self {kept : List DocumentRow} {row : DocumentRow}
    (h : kept.any (·.id == row.id) = true) :
    (kept.map fun r => if r.id == row.id then row else r).find? (·.id == row.id) = some row := by
  induction kept with
  | nil => cases h
  | cons r rest ih =>
    rw [List.map_cons, List.find?_cons]
    by_cases hr : r.id = row.id
    · simp [hr]
    · rw [List.any_cons, beq_false_of_ne hr, Bool.false_or] at h
      simp only [beq_false_of_ne hr, Bool.false_eq_true, if_false]
      exact ih h

/-- A row that is written over the one found under an id is found there. -/
theorem find?_rows_replaced {kept : List DocumentRow} {row : DocumentRow}
    (hfind : (rows kept).find? id = .ok (some d)) (hid : row.id = id) :
    (kept.map fun r => if r.id == id then row else r).find? (·.id == id) = some row ∧
      (rows (kept.map fun r => if r.id == id then row else r)).find? id = row.dataset.map some := by
  obtain ⟨old, hold, _⟩ := find?_rows hfind
  subst hid
  have hthere : kept.any (·.id == row.id) = true := by
    have hfound := List.find?_some hold
    exact List.any_eq_true.mpr ⟨old, List.mem_of_find?_eq_some hold, hfound⟩
  have hself := find?_replaced_self hthere
  refine ⟨hself, ?_⟩
  simp only [find?, hself, Option.mapM_some]
  cases row.dataset <;> rfl

/-- The row of an id was made of a dataset, but no dataset can be read from it. -/
def HoldsUnread (s : DatasetStore) (id : String) (d : Dataset) : Prop :=
  ∃ kept row e, s = .rows kept ∧ kept.find? (·.id == id) = some row ∧ row.Mirrors d ∧
    row.dataset = .error e

/-- What is found after a write is what was written, as far as it lasts. -/
theorem find?_of_replace (hfind : s.find? id = .ok (some d)) (hd : d'.InOrder) (hid : d'.id = id)
    (h : s.replace id d' = .ok s') :
    (∃ found, s'.find? id = .ok (some found) ∧ d'.KeptAs found) ∨ s'.HoldsUnread id d' := by
  cases s with
  | memory datasets =>
    cases h
    refine .inl ⟨d', ?_, .refl d'⟩
    simp only [find?, Value.lookup_putEntry_self]
  | rows kept =>
    obtain ⟨row, hrow, h⟩ := bind_eq_ok h
    cases h
    have hmirrors := DocumentRow.mirrors_of_ofDataset hrow
    obtain ⟨hself, hfound⟩ := find?_rows_replaced hfind (hmirrors.id.trans hid)
    rw [hid]
    cases hread : row.dataset with
    | ok found =>
      rw [hread] at hfound
      exact .inl ⟨found, hfound, hmirrors.keptAs hd hread⟩
    | error e => exact .inr ⟨_, row, e, rfl, hself, hmirrors, hread⟩

/-- What is found in rows lasts, so a part that a patch leaves alone comes back as it was. -/
theorem find?_of_update (hs : s.All P) (hids : s.KeepsIds) (hfind : s.find? id = .ok (some d))
    {p : Patch} {now : Moment} {updated : Option Dataset}
    (h : s.update id p.entries now = .ok (updated, s')) :
    ∃ d', (s'.find? id = .ok (some d') ∨ s'.HoldsUnread id d') ∧ ∀ q ∈ Dataset.parts,
      p.entries.lookup q.key = none → q.key ≠ "updated_at" → q.get d' = q.get d := by
  rcases update_cases h with ⟨_, rfl⟩ | ⟨current, d', hcurrent, hd', hreplace, _⟩
  · exact ⟨d, .inl hfind, fun _ _ _ _ => rfl⟩
  obtain rfl : d = current := Option.some.inj (Except.ok.inj (hfind.symm.trans hcurrent))
  have hsame : ∀ q ∈ Dataset.parts, p.entries.lookup q.key = none → q.key ≠ "updated_at" →
      q.get d' = q.get d := fun q hq hpatch hkey => Dataset.eq_of_patched hd' hq hpatch hkey
  have hid : d'.id = id := (Dataset.id_of_patched hd').trans (id_of_find? hids hfind)
  rcases find?_of_replace hfind (Dataset.inOrder_of_patched hd') hid hreplace with
    ⟨found, hfound, hkept⟩ | hunread
  · cases s with
    | memory datasets =>
      cases hreplace
      refine ⟨d', .inl ?_, hsame⟩
      simp only [find?, Value.lookup_putEntry_self]
    | rows kept =>
      obtain ⟨r, hr, hread⟩ := find?_rows hfind
      obtain ⟨d₀, hmirrors, _⟩ := hs r (List.mem_of_find?_eq_some hr)
      have hlasting := hmirrors.lasting_of_dataset hread
      refine ⟨found, .inl hfound, fun q hq hpatch hkey => ?_⟩
      have hq' := hsame q hq hpatch hkey
      rw [hkept q hq (hq' ▸ hlasting q hq), hq']
  · exact ⟨d', .inr hunread, hsame⟩

end DatasetStore

/-- All datasets of a repository are in order. -/
def Repository.Valid (r : Repository) : Prop := r.datasets.All fun _ => True

namespace Repository.Valid
variable {r r' : Repository} {d : Dataset} {id : String}

theorem of_empty (h : r.datasets = .emptyMemory ∨ r.datasets = .emptyRows) : r.Valid :=
  DatasetStore.all_of_empty h

theorem create (hr : r.Valid) (hd : d.InOrder) (h : r.create d = .ok r') : r'.Valid := by
  obtain ⟨datasets, hstored, rfl⟩ := map_eq_ok h
  exact DatasetStore.create_all hr hd trivial hstored

/-- Whatever a patch states, what it makes of a dataset is read as a whole. -/
theorem update (hr : r.Valid) {patch : List (String × Value)} {now : Moment}
    {updated : Option Dataset} (h : r.update id patch now = .ok (updated, r')) : r'.Valid := by
  obtain ⟨result, hstored, he⟩ := map_eq_ok h
  cases he
  exact DatasetStore.update_all hr (fun _ _ _ _ => trivial) hstored

theorem delete (hr : r.Valid) {deleted : Bool} (h : r.delete id = .ok (deleted, r')) :
    r'.Valid := by
  obtain ⟨result, hstored, he⟩ := map_eq_ok h
  cases he
  exact DatasetStore.delete_all hr hstored

end Repository.Valid

end Store

end DatasetCatalog
