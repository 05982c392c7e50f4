import DatasetCatalog.Proofs.Store.Twins

/-!
# Names among the datasets of an owner

Every dataset is kept under a label: its id, its owner and its name. Labels are apart if no two
have the id, or the owner and the name, in common. A count of an owner's datasets of one name is
zero exactly when no label has the two, and what is written keeps labels apart if it takes a free
name or leaves the name as it was.
-/

namespace DatasetCatalog.Store

open Value

/-- Under what a dataset is kept. -/
structure Label where
  id : String
  owner : String
  name : String
deriving DecidableEq

/-- Two labels differ in the id, and in the owner or the name. -/
def Label.Apart (l l' : Label) : Prop := l.id ≠ l'.id ∧ ¬ (l.owner = l'.owner ∧ l.name = l'.name)

instance : Std.Symm Label.Apart where
  symm _ _ h := ⟨h.1.symm, fun ⟨howner, hname⟩ => h.2 ⟨howner.symm, hname.symm⟩⟩

theorem Label.eq_of_apart {ls : List Label} (h : ls.Pairwise Label.Apart) {l l' : Label}
    (hl : l ∈ ls) (hl' : l' ∈ ls) (hsame : ¬ l.Apart l') : l = l' := by
  by_contra hne
  exact hsame (h.forall hl hl' hne)

def entryLabel (e : String × Dataset) : Label := ⟨e.1, e.2.userId, e.2.name⟩

def DocumentRow.label (r : DocumentRow) : Label := ⟨r.id, r.userId, r.name⟩

/-- The labels of all that is kept, be it that a row cannot be read. -/
def DatasetStore.labels : DatasetStore → List Label
  | .memory datasets => datasets.map entryLabel
  | .rows kept => kept.map DocumentRow.label

/-- The query for an owner's datasets of one name. -/
def DatasetQuery.titled (owner name : String) : DatasetQuery :=
  { owner := some owner, name := some name }

theorem accepts_titled {owner name : String} {d : Dataset} :
    (DatasetQuery.titled owner name).accepts d = true ↔ owner = d.userId ∧ name = d.name := by
  simp [DatasetQuery.accepts, DatasetQuery.titled, constrains]

theorem isCandidate_titled {owner name : String} {r : DocumentRow} :
    r.isCandidate (DatasetQuery.titled owner name) = true ↔ owner = r.userId ∧ name = r.name := by
  simp [DocumentRow.isCandidate, DatasetQuery.titled, constrains]

namespace DocumentRow
variable {d : Dataset} {row : DocumentRow}

theorem Mirrors.label_eq {d₀ : Dataset} (h : row.Mirrors d₀) (hd₀ : d₀.InOrder)
    (hread : row.dataset = .ok d) : row.userId = d.userId ∧ row.name = d.name := by
  have hkept := h.keptAs hd₀ hread
  simp only [Dataset.KeptAs, Dataset.parts, List.forall_mem_cons] at hkept
  obtain ⟨_, huser, hname, _⟩ := hkept
  exact ⟨h.userId.trans (huser trivial).symm, h.name.trans (hname trivial).symm⟩

end DocumentRow

section Lists
variable {α : Type}

theorem lookup_eq_of_mem {entries : List (String × α)}
    (h : entries.Pairwise fun a b => a.1 ≠ b.1) {e : String × α} (he : e ∈ entries) :
    entries.lookup e.1 = some e.2 := by
  induction entries with
  | nil => cases he
  | cons first rest ih =>
    obtain ⟨hfirst, hrest⟩ := List.pairwise_cons.mp h
    rcases List.mem_cons.mp he with rfl | he
    · exact List.lookup_cons_self
    · rw [List.lookup_cons, beq_false_of_ne (hfirst e he).symm]
      exact ih hrest he

theorem find?_eq_of_mem {kept : List DocumentRow} (h : kept.Pairwise fun a b => a.id ≠ b.id)
    {r : DocumentRow} (hr : r ∈ kept) : kept.find? (·.id == r.id) = some r := by
  induction kept with
  | nil => cases hr
  | cons first rest ih =>
    obtain ⟨hfirst, hrest⟩ := List.pairwise_cons.mp h
    rcases List.mem_cons.mp hr with rfl | hr
    · exact List.find?_cons_of_pos (beq_self_eq_true _)
    · rw [List.find?_cons, beq_false_of_ne (hfirst r hr)]
      exact ih hrest hr

/-- Where keys stand once, an entry is replaced wherever its key stands. -/
theorem putEntry_eq_map {key : String} {a : α} {entries : List (String × α)}
    (h : entries.Pairwise fun a b => a.1 ≠ b.1) (hthere : (entries.lookup key).isSome = true) :
    putEntry key a entries = entries.map fun e => if e.1 = key then (key, a) else e := by
  induction entries with
  | nil => cases hthere
  | cons first rest ih =>
    obtain ⟨k, b⟩ := first
    obtain ⟨hfirst, hrest⟩ := List.pairwise_cons.mp h
    by_cases hk : k = key
    · subst hk
      have hothers : (rest.map fun e => if e.1 = k then (k, a) else e) = rest := by
        rw [List.map_congr_left fun e he => if_neg (hfirst e he).symm, List.map_id']
      simp [putEntry, hothers]
    · rw [List.lookup_cons, beq_false_of_ne (Ne.symm hk)] at hthere
      simp [putEntry, hk, ih hrest hthere]

end Lists

namespace DatasetStore
variable {s s' : DatasetStore} {id owner name : String} {d current : Dataset}

/-- Every dataset has an id of its own, and among those of its owner a name of its own. -/
def LabelsApart (s : DatasetStore) : Prop := s.labels.Pairwise Label.Apart

theorem labelsApart_of_empty (h : s = emptyMemory ∨ s = emptyRows) : s.LabelsApart := by
  rcases h with rfl | rfl <;> exact .nil

section Finding
variable (hs : s.All fun _ => True)
include hs

theorem label_mem_of_find? (h : s.find? id = .ok (some d)) :
    ⟨id, d.userId, d.name⟩ ∈ s.labels := by
  cases s with
  | memory datasets =>
    simp only [find?, Except.ok.injEq] at h
    exact List.mem_map.mpr ⟨(id, d), mem_of_lookup h, rfl⟩
  | rows kept =>
    obtain ⟨r, hr, hread⟩ := find?_rows h
    have hmem := List.mem_of_find?_eq_some hr
    have hid : r.id = id := by simpa using List.find?_some hr
    obtain ⟨d₀, hmirrors, hd₀, _⟩ := hs r hmem
    obtain ⟨huser, hname⟩ := hmirrors.label_eq hd₀ hread
    exact List.mem_map.mpr ⟨r, hmem, by rw [DocumentRow.label, hid, huser, hname]⟩

theorem id_eq_of_same_name (hapart : s.LabelsApart) {id' : String} {d' : Dataset}
    (h : s.find? id = .ok (some d)) (h' : s.find? id' = .ok (some d'))
    (howner : d.userId = d'.userId) (hname : d.name = d'.name) : id = id' := by
  have hsame := Label.eq_of_apart hapart (label_mem_of_find? hs h)
    (label_mem_of_find? hs h') fun h => h.2 ⟨howner, hname⟩
  exact congrArg Label.id hsame

/-- If no dataset of the name is found, then no label of the owner has it. -/
theorem free_of_matching_nil {found : List Dataset} (hnone : found = [])
    (h : s.matching (.titled owner name) = .ok found) :
    ∀ l ∈ s.labels, ¬ (l.owner = owner ∧ l.name = name) := by
  subst hnone
  rintro l hl ⟨rfl, rfl⟩
  cases s with
  | memory datasets =>
    obtain ⟨e, he, rfl⟩ := List.mem_map.mp hl
    have haccepts := List.filter_eq_nil_iff.mp (Except.ok.inj h) e.2 (List.mem_map_of_mem he)
    exact haccepts (accepts_titled.mpr ⟨rfl, rfl⟩)
  | rows kept =>
    obtain ⟨r, hr, rfl⟩ := List.mem_map.mp hl
    obtain ⟨candidates, hread, h⟩ := bind_eq_ok h
    have hcandidate : r ∈ kept.filter (·.isCandidate (.titled r.userId r.name)) :=
      List.mem_filter.mpr ⟨hr, isCandidate_titled.mpr ⟨rfl, rfl⟩⟩
    obtain ⟨d, hd, hrd⟩ := exists_left_of_mem (forall₂_of_mapM hread).flip hcandidate
    obtain ⟨d₀, hmirrors, hd₀, _⟩ := hs r hr
    have haccepts := List.filter_eq_nil_iff.mp (Except.ok.inj h) d hd
    exact haccepts (accepts_titled.mpr (hmirrors.label_eq hd₀ hrd))

/-- What a query meets is found under an id too. -/
theorem find?_of_mem_matching (hapart : s.LabelsApart) {q : DatasetQuery} {found : List Dataset}
    (h : s.matching q = .ok found) (hd : d ∈ found) :
    q.accepts d = true ∧ ∃ id, s.find? id = .ok (some d) := by
  cases s with
  | memory datasets =>
    obtain rfl := Except.ok.inj h
    obtain ⟨hd, haccepts⟩ := List.mem_filter.mp hd
    obtain ⟨e, he, rfl⟩ := List.mem_map.mp hd
    refine ⟨haccepts, e.1, ?_⟩
    have hids : datasets.Pairwise fun a b => a.1 ≠ b.1 :=
      (List.pairwise_map.mp hapart).imp fun h => h.1
    rw [find?, lookup_eq_of_mem hids he]
  | rows kept =>
    obtain ⟨candidates, hread, h⟩ := bind_eq_ok h
    obtain rfl := Except.ok.inj h
    obtain ⟨hd, haccepts⟩ := List.mem_filter.mp hd
    obtain ⟨r, hr, hrd⟩ := exists_left_of_mem (forall₂_of_mapM hread) hd
    have hmem := (List.mem_filter.mp hr).1
    refine ⟨haccepts, r.id, ?_⟩
    have hids : kept.Pairwise fun a b => a.id ≠ b.id :=
      (List.pairwise_map.mp hapart).imp fun h => h.1
    simp only [find?, find?_eq_of_mem hids hmem, Option.mapM_some, hrd]
    rfl

omit hs in
/-- Two rows of one owner and name are one row. -/
theorem row_eq_of_same_name {kept : List DocumentRow} (hapart : (rows kept).LabelsApart)
    {a b : DocumentRow} (ha : a ∈ kept) (hb : b ∈ kept) (howner : a.userId = b.userId)
    (hname : a.name = b.name) : a = b := by
  have hrows : kept.Pairwise fun a b => a.label.Apart b.label :=
    List.pairwise_map.mp hapart
  have : Std.Symm fun a b : DocumentRow => a.label.Apart b.label :=
    ⟨fun _ _ h => Std.Symm.symm _ _ h⟩
  by_contra hne
  exact (hrows.forall ha hb hne).2 ⟨howner, hname⟩

/-- A dataset that is found is met under its owner and name, whatever the other rows are. -/
theorem mem_matching_of_find? (hapart : s.LabelsApart) (h : s.find? id = .ok (some d)) :
    ∃ found, s.matching (.titled d.userId d.name) = .ok found ∧ d ∈ found := by
  have haccepts : (DatasetQuery.titled d.userId d.name).accepts d = true :=
    accepts_titled.mpr ⟨rfl, rfl⟩
  cases s with
  | memory datasets =>
    simp only [find?, Except.ok.injEq] at h
    refine ⟨_, rfl, List.mem_filter.mpr ⟨?_, haccepts⟩⟩
    exact List.mem_map.mpr ⟨(id, d), mem_of_lookup h, rfl⟩
  | rows kept =>
    obtain ⟨r, hr, hread⟩ := find?_rows h
    have hmem := List.mem_of_find?_eq_some hr
    obtain ⟨d₀, hmirrors, hd₀, _⟩ := hs r hmem
    obtain ⟨huser, hname⟩ := hmirrors.label_eq hd₀ hread
    -- a candidate has the label of `r`, so it is `r`
    have hreads : ∀ other ∈ kept.filter (·.isCandidate (.titled d.userId d.name)),
        other.dataset = .ok d := by
      intro other hother
      obtain ⟨hother, hcandidate⟩ := List.mem_filter.mp hother
      obtain ⟨howner, htitle⟩ := isCandidate_titled.mp hcandidate
      have hsame := row_eq_of_same_name hapart hother hmem (howner.symm.trans huser.symm)
        (htitle.symm.trans hname.symm)
      rw [hsame, hread]
    obtain ⟨candidates, hcandidates⟩ := exists_mapM_of_forall fun other hother =>
      ⟨d, hreads other hother⟩
    have hcandidate : r ∈ kept.filter (·.isCandidate (.titled d.userId d.name)) :=
      List.mem_filter.mpr ⟨hmem, isCandidate_titled.mpr ⟨huser.symm, hname.symm⟩⟩
    obtain ⟨d', hd', hrd'⟩ :=
      exists_left_of_mem (forall₂_of_mapM hcandidates).flip hcandidate
    obtain rfl : d' = d := Except.ok.inj (hrd'.symm.trans hread)
    refine ⟨candidates.filter (DatasetQuery.titled d'.userId d'.name).accepts, ?_,
      List.mem_filter.mpr ⟨hd', haccepts⟩⟩
    simp only [matching, hcandidates]
    rfl

end Finding

section Writing

theorem labels_create (h : s.create d = .ok s') :
    s'.labels = s.labels ++ [⟨d.id, d.userId, d.name⟩] ∧ ∀ l ∈ s.labels, l.id ≠ d.id := by
  cases s with
  | memory datasets =>
    simp only [create] at h
    split at h
    · cases h
    · rename_i hfresh
      cases h
      refine ⟨List.map_append, ?_⟩
      rw [Bool.not_eq_true, Option.isSome_eq_false_iff, Option.isNone_iff_eq_none,
        List.lookup_eq_none_iff] at hfresh
      intro l hl
      obtain ⟨e, he, rfl⟩ := List.mem_map.mp hl
      exact (bne_iff_ne.mp (hfresh e he)).symm
  | rows kept =>
    obtain ⟨row, hrow, h⟩ := bind_eq_ok h
    have hmirrors := DocumentRow.mirrors_of_ofDataset hrow
    split at h
    · cases h
    · rename_i hfresh
      cases h
      constructor
      · simp only [labels, List.map_append, List.map_cons, List.map_nil, DocumentRow.label,
          hmirrors.id, hmirrors.userId, hmirrors.name]
      · intro l hl hid
        obtain ⟨r, hr, rfl⟩ := List.mem_map.mp hl
        exact hfresh (List.any_eq_true.mpr ⟨r, hr, beq_iff_eq.mpr hid⟩)

/-- Only the label of the id changes, in its place. -/
theorem labels_replace (hapart : s.LabelsApart) (hfind : s.find? id = .ok (some current))
    (hid : d.id = id) (h : s.replace id d = .ok s') :
    s'.labels = s.labels.map fun l => if l.id = id then ⟨id, d.userId, d.name⟩ else l := by
  cases s with
  | memory datasets =>
    cases h
    have hids : datasets.Pairwise fun a b => a.1 ≠ b.1 :=
      (List.pairwise_map.mp hapart).imp fun h => h.1
    simp only [find?, Except.ok.injEq] at hfind
    have hthere : (datasets.lookup id).isSome = true := by rw [hfind]; rfl
    simp only [labels, putEntry_eq_map hids hthere, List.map_map]
    refine List.map_congr_left fun e _ => ?_
    simp only [Function.comp_apply]
    split <;> rename_i he
    · simp [entryLabel, he]
    · simp [entryLabel, he]
  | rows kept =>
    obtain ⟨row, hrow, h⟩ := bind_eq_ok h
    cases h
    have hmirrors := DocumentRow.mirrors_of_ofDataset hrow
    simp only [labels, List.map_map]
    refine List.map_congr_left fun r _ => ?_
    simp only [Function.comp_apply, DocumentRow.label, hid]
    split <;> rename_i hr
    · simp_all [hmirrors.id, hmirrors.userId, hmirrors.name]
    · simp_all

theorem labels_delete {deleted : Bool} (h : s.delete id = .ok (deleted, s')) :
    s'.labels.Sublist s.labels := by
  cases s with
  | memory datasets =>
    cases h
    exact List.filter_sublist.map _
  | rows kept =>
    cases h
    exact List.filter_sublist.map _

namespace LabelsApart

/-- A new dataset takes a name that is free. -/
theorem create (hapart : s.LabelsApart) (h : s.create d = .ok s')
    (hfree : ∀ l ∈ s.labels, ¬ (l.owner = d.userId ∧ l.name = d.name)) : s'.LabelsApart := by
  obtain ⟨hlabels, hids⟩ := labels_create h
  rw [LabelsApart, hlabels, List.pairwise_append]
  refine ⟨hapart, List.pairwise_singleton _ _, ?_⟩
  intro l hl new hnew
  obtain rfl := List.mem_singleton.mp hnew
  exact ⟨hids l hl, hfree l hl⟩

/-- A dataset that is written over has the name it had, or takes one that is free. -/
theorem replace (hapart : s.LabelsApart) (hfind : s.find? id = .ok (some current))
    (hid : d.id = id) (h : s.replace id d = .ok s')
    (hfree : ∀ l ∈ s.labels, l.id ≠ id → ¬ (l.owner = d.userId ∧ l.name = d.name)) :
    s'.LabelsApart := by
  rw [LabelsApart, labels_replace hapart hfind hid h, List.pairwise_map]
  refine List.Pairwise.imp_of_mem (fun {a b} ha hb hab => ?_) hapart
  split <;> rename_i hida <;> split <;> rename_i hidb
  · exact absurd (hida.trans hidb.symm) hab.1
  · exact ⟨Ne.symm hidb, fun ⟨howner, hname⟩ => hfree b hb hidb ⟨howner.symm, hname.symm⟩⟩
  · exact ⟨hida, hfree a ha hida⟩
  · exact hab

theorem update (hs : s.All fun _ => True) (hids : s.KeepsIds) (hapart : s.LabelsApart)
    {patch : List (String × Value)} {now : Time.Moment} {updated : Option Dataset}
    (hid : patch.lookup "id" = none) (h : s.update id patch now = .ok (updated, s'))
    (hfree : ∀ current d, s.find? id = .ok (some current) → current.patched patch now = .ok d →
      (d.userId = current.userId ∧ d.name = current.name) ∨
        ∀ l ∈ s.labels, ¬ (l.owner = d.userId ∧ l.name = d.name)) : s'.LabelsApart := by
  rcases update_cases h with ⟨_, rfl⟩ | ⟨current, d, hfind, hd, hreplace, _⟩
  · exact hapart
  have hsame : d.id = id :=
    (Dataset.id_of_patched (p := ⟨patch, hid⟩) hd).trans (id_of_find? hids hfind)
  refine hapart.replace hfind hsame hreplace fun l hl hne => ?_
  rcases hfree current d hfind hd with ⟨howner, hname⟩ | hfree
  · rw [howner, hname]
    intro hboth
    have heq := Label.eq_of_apart hapart hl (label_mem_of_find? hs hfind) fun h => h.2 hboth
    exact hne (congrArg Label.id heq)
  · exact hfree l hl

theorem delete (hapart : s.LabelsApart) {deleted : Bool} (h : s.delete id = .ok (deleted, s')) :
    s'.LabelsApart :=
  List.Pairwise.sublist (labels_delete h) hapart

end LabelsApart

end Writing

end DatasetStore

end DatasetCatalog.Store
