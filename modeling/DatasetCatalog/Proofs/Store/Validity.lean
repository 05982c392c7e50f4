import DatasetCatalog.Proofs.Store.Identity

/-!
# Stored datasets are in order

A dataset that is read from a document has the configuration of its type and no other. All that
comes into a store was read from a document, so all that is found in it is in order.
-/

namespace DatasetCatalog

/-- The configuration of a dataset is the one of its type, and no other is there. -/
inductive Dataset.Configured (d : Dataset) : Prop
  | table {c : TableConfig} : d.type = .table → d.tableConfig = some c → d.viewConfig = none →
    Configured d
  | sql {c : SqlConfig} : d.type = .sql → d.tableConfig = none → d.sqlConfig = some c →
    d.viewConfig = none → Configured d
  | view {c : ViewConfig} : d.type = .view → d.tableConfig = none → d.sqlConfig = none →
    d.viewConfig = some c → Configured d

theorem Dataset.configured_of_complaint? {d : Dataset} (h : d.complaint? = none) :
    d.Configured := by
  have hkinds := (Dataset.complaint?_eq_none_iff.mp h).2
  unfold Dataset.configured at hkinds
  cases ht : d.tableConfig <;> cases hs : d.sqlConfig <;> cases hv : d.viewConfig <;>
    simp only [ht, hs, hv, Option.isSome_none, Option.isSome_some, if_true, if_false,
      Bool.false_eq_true, List.nil_append, List.cons_append, List.append_nil, List.cons.injEq,
      and_true, reduceCtorEq, and_false] at hkinds
  · exact .view hkinds.symm ht hs hv
  · exact .sql hkinds.symm ht hs hv
  · exact .table hkinds.symm ht hv

namespace Dataset.Configured
variable {d : Dataset}

theorem datasourceId_of_view (h : d.Configured) (ht : d.type = .view) : d.datasourceId = none := by
  cases h with
  | table ht' _ _ => cases ht.symm.trans ht'
  | sql ht' _ _ _ => cases ht.symm.trans ht'
  | view _ htable hsql _ => simp only [datasourceId, htable, hsql, Option.map_none, Option.none_or]

theorem datasourceId_of_ne_view (h : d.Configured) (ht : d.type ≠ .view) :
    ∃ id, d.datasourceId = some id := by
  cases h with
  | table _ hc _ => exact ⟨_, by rw [datasourceId, hc]; rfl⟩
  | sql _ htable hc _ => exact ⟨_, by rw [datasourceId, htable, hc]; rfl⟩
  | view ht' _ _ _ => exact absurd ht' ht

theorem exists_viewConfig (h : d.Configured) (ht : d.type = .view) :
    ∃ c, d.viewConfig = some c := by
  cases h with
  | table ht' _ _ => cases ht.symm.trans ht'
  | sql ht' _ _ _ => cases ht.symm.trans ht'
  | view _ _ _ hc => exact ⟨_, hc⟩

end Dataset.Configured

theorem Dataset.configured_of_ofDocument {defaults : Defaults} {entries : List (String × Value)}
    {d : Dataset} (h : Dataset.ofDocument defaults entries = .ok d) : d.Configured := by
  have hyields : (Dataset.reader defaults).Yields entries fun d => d.complaint? = none := by
    unfold Dataset.reader
    exact Document.EntriesReader.yields_rule
  exact Dataset.configured_of_complaint? (Dataset.yields_of_ofDocument hyields h)

namespace Store

/-- The datasets that are kept as they are, are in order; rows are read from documents each time. -/
def DatasetStore.InOrder : DatasetStore → Prop
  | .memory datasets => ∀ e ∈ datasets, e.2.Configured
  | .rows _ => True

theorem DocumentRow.configured_of_dataset {r : DocumentRow} {d : Dataset} (h : r.dataset = .ok d) :
    d.Configured := by
  unfold DocumentRow.dataset at h
  split at h
  · cases h
  · exact Dataset.configured_of_ofDocument (mapError_eq_ok h)

namespace DatasetStore
variable {s s' : DatasetStore} {id : String} {d : Dataset}

theorem inOrder_of_empty (h : s = emptyMemory ∨ s = emptyRows) : s.InOrder := by
  rcases h with rfl | rfl
  · exact fun _ h => nomatch h
  · trivial

/-- The datasets that can be read from a store. -/
def readable : DatasetStore → List Dataset
  | .memory datasets => datasets.map (·.2)
  | .rows kept => kept.filterMap (·.dataset.toOption)

theorem length_readable_le (s : DatasetStore) : s.readable.length ≤ s.size := by
  cases s with
  | memory datasets => exact Nat.le_of_eq (List.length_map _)
  | rows kept => exact List.length_filterMap_le _ _

theorem mem_readable_of_find? (h : s.find? id = .ok (some d)) : d ∈ s.readable := by
  cases s with
  | memory datasets =>
    simp only [find?, Except.ok.injEq] at h
    exact List.mem_map.mpr ⟨(id, d), mem_of_lookup h, rfl⟩
  | rows kept =>
    obtain ⟨r, hr, hd⟩ := find?_rows h
    refine List.mem_filterMap.mpr ⟨r, List.mem_of_find?_eq_some hr, ?_⟩
    rw [hd]
    rfl

theorem configured_of_mem_readable (hs : s.InOrder) (hd : d ∈ s.readable) : d.Configured := by
  cases s with
  | memory datasets =>
    obtain ⟨e, he, rfl⟩ := List.mem_map.mp hd
    exact hs e he
  | rows kept =>
    obtain ⟨r, _, hr⟩ := List.mem_filterMap.mp hd
    cases hread : r.dataset with
    | error e =>
      rw [hread] at hr
      cases hr
    | ok found =>
      rw [hread] at hr
      cases hr
      exact DocumentRow.configured_of_dataset hread

theorem configured_of_find? (hs : s.InOrder) (h : s.find? id = .ok (some d)) : d.Configured :=
  configured_of_mem_readable hs (mem_readable_of_find? h)

theorem create_inOrder (hs : s.InOrder) (hd : d.Configured) (h : s.create d = .ok s') :
    s'.InOrder := by
  cases s with
  | memory datasets =>
    simp only [create] at h
    split at h
    · cases h
    · cases h
      intro e he
      rcases List.mem_append.mp he with he | he
      · exact hs e he
      · cases List.mem_singleton.mp he
        exact hd
  | rows kept =>
    obtain ⟨row, _, h⟩ := bind_eq_ok h
    split at h
    · cases h
    · cases h
      trivial

theorem replace_inOrder (hs : s.InOrder) (hd : d.Configured) (h : s.replace id d = .ok s') :
    s'.InOrder := by
  cases s with
  | memory datasets =>
    cases h
    intro e he
    rcases Value.mem_putEntry he with rfl | he
    · exact hd
    · exact hs e he
  | rows kept =>
    obtain ⟨row, _, h⟩ := bind_eq_ok h
    cases h
    trivial

theorem update_inOrder (hs : s.InOrder) {patch : List (String × Value)} {now : Time.Moment}
    {updated : Option Dataset} (h : s.update id patch now = .ok (updated, s')) : s'.InOrder := by
  rcases update_cases h with ⟨_, rfl⟩ | ⟨current, d, _, hd, hreplace, _⟩
  · exact hs
  · exact replace_inOrder hs (Dataset.configured_of_ofDocument hd) hreplace

theorem delete_inOrder (hs : s.InOrder) {deleted : Bool} (h : s.delete id = .ok (deleted, s')) :
    s'.InOrder := by
  cases s with
  | memory datasets =>
    cases h
    exact fun e he => hs e (List.mem_filter.mp he).1
  | rows kept =>
    cases h
    trivial

end DatasetStore

end Store

end DatasetCatalog
