import DatasetCatalog.Proofs.Json.Stamped
import DatasetCatalog.Proofs.Store.Rows

/-!
# Both kinds of repositories answer alike

Requests to a repository in memory and to one of rows are answered alike, as long as what is stored
survives its row. Datasets and rows stand in the same order under the same ids, and every row reads
as the dataset at its place.
-/

namespace DatasetCatalog

open Value

/-- What a row gives back as it was: free values are finite JSON, percentages are finite, offsets of
moments are whole minutes, and nothing is too deep. -/
structure Dataset.Survives (d : Dataset) : Prop where
  samples : ∀ f ∈ d.fields, ∀ v ∈ f.sampleValues, v.IsPlain
  filters : ∀ c, d.viewConfig = some c → ∀ f ∈ c.filters, f.value.IsPlain
  percentages : ∀ i ∈ d.qualityIssues, i.percentage.isFinite = true
  lastRefreshed : ∀ t, d.metadata.lastRefreshed = some t → t.Proper
  createdAt : d.createdAt.Proper
  updatedAt : d.updatedAt.Proper
  depth : (Value.object d.document).nesting ≤ Store.maxNesting

namespace Dataset.Survives
variable {d : Dataset}

/-- A dataset of no free values and without findings. -/
theorem of_blank (hfields : d.fields = []) (hview : d.viewConfig = none)
    (hissues : d.qualityIssues = []) (hrefreshed : d.metadata.lastRefreshed = none)
    (hcreated : d.createdAt.Proper) (hupdated : d.updatedAt.Proper)
    (hdepth : (Value.object d.document).nesting ≤ Store.maxNesting) : d.Survives where
  samples f hf := by
    rw [hfields] at hf
    cases hf
  filters c hc := by
    rw [hview] at hc
    cases hc
  percentages i hi := by
    rw [hissues] at hi
    cases hi
  lastRefreshed t ht := by
    rw [hrefreshed] at ht
    cases ht
  createdAt := hcreated
  updatedAt := hupdated
  depth := hdepth

variable (h : d.Survives)
include h

theorem lasting : d.Lasting := by
  have hlist {α : Type} (as : List α) : ∀ a ∈ as, True := fun _ _ => trivial
  have hoption {α : Type} (o : Option α) : ∀ a, o = some a → True := fun _ _ => trivial
  simp only [Dataset.Lasting, Dataset.parts, List.forall_mem_cons]
  exact ⟨trivial, trivial, trivial, trivial, hoption _, trivial, hoption _, hoption _, h.filters,
    h.samples, h.lastRefreshed, trivial, hlist _, hlist _, hoption _, h.percentages, trivial,
    hoption _, trivial, h.createdAt, h.updatedAt, List.forall_mem_nil _⟩

theorem isStamped : (Value.object d.document).IsStamped := by
  refine .object ?_
  simp only [Dataset.document, Dataset.documentWith, List.forall_mem_cons]
  have htext (o : Option String) : (Value.ofOption .text o).IsStamped := .plain (by simp)
  refine ⟨.plain (.text _), .plain (.text _), .plain (.text _), .plain (.text _), htext _,
    .plain (.text _), .plain ?_, .plain ?_, .plain ?_, .plain ?_, ?_, .plain (.text _), .plain ?_,
    .plain ?_, .plain ?_, .plain ?_, .plain (.text _), htext _, .plain (.int _), .moment _,
    .moment _, List.forall_mem_nil _⟩
  · simp [TableConfig.documentWith]
  · simp [SqlConfig.document]
  · rw [IsPlain.ofOption_iff]
    exact fun c hc => ViewConfig.isPlain_document (h.filters c hc)
  · rw [IsPlain.list_iff, List.forall_mem_map]
    exact fun f hf => Field.isPlain_document (h.samples f hf)
  · refine .object ?_
    simp only [List.forall_mem_cons]
    refine ⟨.plain (.int _), .plain (.int _), ?_, .plain ?_, List.forall_mem_nil _⟩
    · cases d.metadata.lastRefreshed with
      | none => exact .plain .null
      | some t => exact .moment t
    · simp
  · simp
  · simp [Permission.document, Value.named]
  · simp
  · rw [IsPlain.list_iff, List.forall_mem_map]
    exact fun i hi => QualityIssue.isPlain_document (h.percentages i hi)

end Dataset.Survives

namespace Store

open Time

/-- What survives has a row that reads as it was. -/
theorem DocumentRow.exists_of_survives {d : Dataset} (h : d.Survives) (hd : d.InOrder) :
    ∃ row, DocumentRow.ofDataset d = .ok row ∧ row.Mirrors d ∧ row.dataset = .ok d := by
  have hdepth : (Value.object d.document).nesting < Dataset.frame + maxFreeDepth :=
    Nat.lt_of_le_of_lt h.depth (by decide)
  obtain ⟨form, hform⟩ := h.isStamped.exists_form hdepth
  have hrow : ∃ row, DocumentRow.ofDataset d = .ok row ∧ row.document = form := by
    unfold DocumentRow.ofDataset jsonForm
    rw [hform]
    exact ⟨_, rfl, rfl⟩
  obtain ⟨row, hrow, rfl⟩ := hrow
  have hmirrors := DocumentRow.mirrors_of_ofDataset hrow
  have hshallow : row.document.nesting ≤ maxNesting := by
    rw [nesting_of_jsonFormIn hform]
    exact h.depth
  exact ⟨row, hrow, hmirrors, hmirrors.dataset_eq hd h.lasting hshallow⟩

/-- A store gives the dataset back as it was: rows do so if it survives. -/
def DatasetStore.Retains (s : DatasetStore) (d : Dataset) : Prop :=
  ∀ kept, s = .rows kept → d.Survives

/-- A patch is written and read again, if the store retains what it makes. -/
theorem DatasetStore.update_retained {s : DatasetStore} (hids : s.KeepsIds) {id : String}
    {current d : Dataset} {p : Patch} {now : Moment} (hfind : s.find? id = .ok (some current))
    (hpatched : current.patched p.entries now = .ok d) (hretains : s.Retains d) :
    ∃ s', s.update id p.entries now = .ok (some d, s') ∧ s'.find? id = .ok (some d) := by
  have hid : d.id = id := (Dataset.id_of_patched hpatched).trans (id_of_find? hids hfind)
  have hupdate := update_of_find? hfind hpatched
  cases s with
  | memory datasets =>
    refine ⟨_, hupdate, ?_⟩
    simp only [find?, Value.lookup_putEntry_self]
  | rows kept =>
    obtain ⟨row, hrow, hmirrors, hread⟩ :=
      DocumentRow.exists_of_survives (hretains kept rfl) (Dataset.inOrder_of_patched hpatched)
    obtain ⟨_, hfound⟩ := find?_rows_replaced hfind (hmirrors.id.trans hid)
    rw [hread] at hfound
    rw [hupdate, replace, hrow]
    refine ⟨_, rfl, ?_⟩
    rw [hid]
    exact hfound

/-- What can be asked of a repository about datasets. -/
inductive Request where
  | create (d : Dataset)
  | find (id : String)
  | page (q : DatasetQuery) (sorting : Sorting) (skip : Int) (limit : Option Int)
  | count (q : DatasetQuery)
  | distinct (field : String) (q : DatasetQuery)
  | update (id : String) (p : Patch) (now : Moment)
  | delete (id : String)

inductive Reply where
  | created
  | dataset (d : Option Dataset)
  | datasets (ds : List Dataset)
  | count (n : Nat)
  | values (vs : List String)
  | deleted (wasThere : Bool)

def Request.perform (r : Repository) : Request → Except Error (Reply × Repository)
  | .create d => (r.create d).map fun r' => (.created, r')
  | .find id => (r.find? id).map fun d => (.dataset d, r)
  | .page q sorting skip limit => (r.matching q sorting skip limit).map fun ds => (.datasets ds, r)
  | .count q => (r.count q).map fun n => (.count n, r)
  | .distinct field q => (r.distinct field q).map fun vs => (.values vs, r)
  | .update id p now => (r.update id p.entries now).map fun (d, r') => (.dataset d, r')
  | .delete id => (r.delete id).map fun (wasThere, r') => (.deleted wasThere, r')

namespace Request

def answer (r : Repository) (q : Request) : Except Error Reply := (q.perform r).map Prod.fst

/-- The repository after a request, which is as it was if the request failed. -/
def after (r : Repository) (q : Request) : Repository :=
  match q.perform r with
  | .ok (_, r') => r'
  | .error _ => r

/-- The requests of a run with the answers to them. -/
def transcript (r : Repository) : List Request → List (Request × Except Error Reply)
  | [] => []
  | q :: rest => (q, q.answer r) :: transcript (q.after r) rest

def run (r : Repository) (requests : List Request) : Repository := requests.foldl after r

/-- Only what is in order is stored anew. -/
def Sound : Request → Prop
  | .create d => d.InOrder
  | _ => True

/-- What the request stores in a repository survives. -/
def Fits (r : Repository) : Request → Prop
  | .create d => d.Survives
  | .update id p now => ∀ current d,
    r.find? id = .ok (some current) → current.patched p.entries now = .ok d → d.Survives
  | _ => True

/-- Every request of a run fits the repository that it comes to. -/
def AllFit (r : Repository) : List Request → Prop
  | [] => True
  | q :: rest => q.Fits r ∧ AllFit (q.after r) rest

/-- The answers to one request are the same, but for the ways to refuse a dataset that is there. -/
def SameAnswer (x y : Request × Except Error Reply) : Prop :=
  x = y ∨ ∃ d, x = (.create d, .error (.refused (.datasetExists d.id))) ∧
    y = (.create d, .error (.broken .duplicateId))

end Request

section Candidates
variable {d d₀ : Dataset} {row : DocumentRow} {q : DatasetQuery}

theorem constrains_map {α β : Type} [BEq α] [LawfulBEq α] [BEq β] [ReflBEq β] (f : α → β)
    {constraint : Option α} {a : α} (h : constrains constraint a = true) :
    constrains (constraint.map f) (f a) = true := by
  cases constraint with
  | none => rfl
  | some b =>
    obtain rfl : b = a := by simpa [constrains] using h
    simp [constrains]

/-- The columns never rule out what a query accepts. -/
theorem isCandidate_of_accepts (hmirrors : row.Mirrors d₀) (hkept : d₀.KeptAs d)
    (h : q.accepts d = true) : row.isCandidate q = true := by
  simp only [Dataset.KeptAs, Dataset.parts, List.forall_mem_cons] at hkept
  obtain ⟨_, huser, hname, _, _, htype, _, _, _, _, _, hcategory, _, _, _, _, hstatus, _⟩ := hkept
  have huser : row.userId = d.userId := hmirrors.userId.trans (huser trivial).symm
  have hname : row.name = d.name := hmirrors.name.trans (hname trivial).symm
  have hcategory : row.category = d.category := hmirrors.category.trans (hcategory trivial).symm
  have htype : row.type = Named.name d.type := by
    rw [hmirrors.type, show d.type = d₀.type from htype trivial]
  have hstatus : row.status = Named.name d.status := by
    rw [hmirrors.status, show d.status = d₀.status from hstatus trivial]
  simp only [DatasetQuery.accepts, Bool.and_eq_true] at h
  obtain ⟨⟨⟨⟨⟨⟨⟨_, howner⟩, hnamed⟩, hin⟩, hkind⟩, hstate⟩, _⟩, _⟩ := h
  simp only [DocumentRow.isCandidate, huser, hname, hcategory, htype, hstatus, Bool.and_eq_true]
  exact ⟨⟨⟨⟨howner, hnamed⟩, hin⟩, constrains_map _ hkind⟩, constrains_map _ hstate⟩

end Candidates

section Kept
variable {r : Repository}

/-- A request stores nothing that is not in order. -/
theorem Request.all_after {q : Request} (hr : r.datasets.All fun _ => True) (hq : q.Sound) :
    (q.after r).datasets.All fun _ => True := by
  unfold Request.after
  cases hperform : q.perform r with
  | error e => exact hr
  | ok result =>
    obtain ⟨reply, r'⟩ := result
    simp only
    cases q with
    | create d =>
      obtain ⟨made, hcreate, hresult⟩ := map_eq_ok hperform
      obtain ⟨datasets, hstored, rfl⟩ := map_eq_ok hcreate
      cases hresult
      exact DatasetStore.create_all hr hq trivial hstored
    | update id p now =>
      obtain ⟨⟨updated, left⟩, hupdate, hresult⟩ := map_eq_ok hperform
      obtain ⟨⟨updated', datasets⟩, hstored, hleft⟩ := map_eq_ok hupdate
      cases hleft
      cases hresult
      exact DatasetStore.update_all hr (fun _ _ _ _ => trivial) hstored
    | delete id =>
      obtain ⟨⟨wasThere, left⟩, hdelete, hresult⟩ := map_eq_ok hperform
      obtain ⟨⟨wasThere', datasets⟩, hstored, hleft⟩ := map_eq_ok hdelete
      cases hleft
      cases hresult
      exact DatasetStore.delete_all hr hstored
    | find id | page q sorting skip limit | count q | distinct field q =>
      obtain ⟨_, _, hresult⟩ := map_eq_ok hperform
      cases hresult
      exact hr

theorem Request.all_run {requests : List Request} (hr : r.datasets.All fun _ => True)
    (hsound : ∀ q ∈ requests, q.Sound) : (Request.run r requests).datasets.All fun _ => True := by
  induction requests generalizing r with
  | nil => exact hr
  | cons q rest ih =>
    obtain ⟨hq, hrest⟩ := List.forall_mem_cons.mp hsound
    exact ih (Request.all_after hr hq) hrest

end Kept

/-- The dataset under an id and the row at its place, which reads as the dataset. -/
structure Twin (e : String × Dataset) (row : DocumentRow) : Prop where
  id : row.id = e.1
  mirrors : row.Mirrors e.2
  inOrder : e.2.InOrder
  reads : row.dataset = .ok e.2

theorem Twin.id_eq {e : String × Dataset} {row : DocumentRow} (h : Twin e row) : e.2.id = e.1 :=
  h.mirrors.id.symm.trans h.id

section Lists
variable {datasets : List (String × Dataset)} {kept : List DocumentRow}
  (h : List.Forall₂ Twin datasets kept)
include h

theorem find?_twin (id : String) :
    (kept.find? (·.id == id)).mapM (·.dataset) = .ok (datasets.lookup id) := by
  induction h with
  | nil => rfl
  | @cons e row _ _ hrow _ ih =>
    obtain ⟨key, d⟩ := e
    have hid : row.id = key := hrow.id
    rw [List.find?_cons, List.lookup_cons, hid, Bool.beq_comm]
    cases hkey : id == key with
    | true =>
      simp only [Option.mapM_some, hrow.reads]
      rfl
    | false => exact ih

theorem any_twin (id : String) :
    kept.any (·.id == id) = (datasets.lookup id).isSome := by
  induction h with
  | nil => rfl
  | @cons e row _ _ hrow _ ih =>
    obtain ⟨key, d⟩ := e
    have hid : row.id = key := hrow.id
    rw [List.any_cons, List.lookup_cons, hid, Bool.beq_comm, ih]
    cases id == key <;> rfl

theorem matching_twin (q : DatasetQuery) :
    ((kept.filter (·.isCandidate q)).mapM DocumentRow.dataset).map (List.filter q.accepts) =
      Except.ok ((datasets.map (·.2)).filter q.accepts) := by
  induction h with
  | nil => rfl
  | @cons e row _ _ hrow _ ih =>
    obtain ⟨found, hfound, hsame⟩ := map_eq_ok ih
    cases hcandidate : row.isCandidate q with
    | true =>
      rw [List.filter_cons, if_pos hcandidate, List.mapM_cons, hrow.reads, hfound]
      change Except.ok ((e.2 :: found).filter q.accepts) = _
      rw [List.map_cons, List.filter_cons, List.filter_cons, hsame]
    | false =>
      have hrefused : q.accepts e.2 = false := by
        by_contra haccepts
        rw [Bool.not_eq_false] at haccepts
        rw [isCandidate_of_accepts hrow.mirrors (.refl _) haccepts] at hcandidate
        cases hcandidate
      rw [List.filter_cons, hcandidate, List.map_cons, List.filter_cons, hrefused]
      exact ih

theorem filter_twin (id : String) :
    List.Forall₂ Twin (datasets.filter (·.1 != id)) (kept.filter (·.id != id)) := by
  induction h with
  | nil => exact .nil
  | @cons e row _ _ hrow _ ih =>
    rw [List.filter_cons, List.filter_cons, hrow.id]
    split
    · exact .cons hrow ih
    · exact ih

/-- A row that is written over stands where the dataset stands, for ids stand once. -/
theorem replace_twin (hnodup : (datasets.map Prod.fst).Nodup) {id : String} {d : Dataset}
    {row : DocumentRow} (hrow : Twin (id, d) row) (hthere : (datasets.lookup id).isSome = true) :
    List.Forall₂ Twin (putEntry id d datasets)
      (kept.map fun r => if r.id == id then row else r) := by
  induction h with
  | nil => cases hthere
  | @cons e r rest behind hr hrest ih =>
    obtain ⟨key, old⟩ := e
    obtain ⟨hfresh, hnodup⟩ := List.nodup_cons.mp hnodup
    have hid : r.id = key := hr.id
    rw [putEntry, List.map_cons, hid]
    by_cases hkey : key = id
    · subst hkey
      have habsent : ∀ other ∈ behind, other.id ≠ key := by
        intro other hother heq
        have hany : behind.any (·.id == key) = true :=
          List.any_eq_true.mpr ⟨other, hother, beq_iff_eq.mpr heq⟩
        rw [any_twin hrest, Document.EntriesReader.lookup_eq_none_of_not_mem hfresh] at hany
        cases hany
      have hothers : (behind.map fun r => if r.id == key then row else r) = behind := by
        calc behind.map (fun r => if r.id == key then row else r)
          _ = behind.map fun r => r :=
            List.map_congr_left fun other hother => by
              rw [beq_false_of_ne (habsent other hother), if_neg Bool.false_ne_true]
          _ = behind := List.map_id' behind
      rw [hothers]
      simp only [beq_self_eq_true, if_true]
      exact .cons hrow hrest
    · rw [List.lookup_cons, beq_false_of_ne (Ne.symm hkey)] at hthere
      simp only [beq_false_of_ne hkey, Bool.false_eq_true, if_false]
      exact .cons hr (ih hnodup hthere)

end Lists

namespace DatasetStore

/-- The datasets of one store and the rows of the other are twins, place by place. -/
inductive Twins : DatasetStore → DatasetStore → Prop
  | intro {datasets : List (String × Dataset)} {kept : List DocumentRow} :
    List.Forall₂ Twin datasets kept → (datasets.map Prod.fst).Nodup →
    Twins (.memory datasets) (.rows kept)

theorem twins_empty : Twins emptyMemory emptyRows := .intro .nil List.nodup_nil

namespace Twins
variable {m s : DatasetStore} (h : Twins m s) {id : String}
include h

theorem find? (id : String) : s.find? id = m.find? id := by
  cases h with
  | intro htwins _ => exact find?_twin htwins id

theorem matching (q : DatasetQuery) : s.matching q = m.matching q := by
  cases h with
  | intro htwins _ =>
    have hmatching := matching_twin htwins q
    simp only [DatasetStore.matching, bind, Except.bind]
    rw [← hmatching]
    cases (List.filter (·.isCandidate q) _).mapM DocumentRow.dataset <;> rfl

theorem create {d : Dataset} (hd : d.InOrder) (hsurvives : d.Survives) :
    (m.create d = .error (.refused (.datasetExists d.id)) ∧
      s.create d = .error (.broken .duplicateId)) ∨
    ∃ m' s', m.create d = .ok m' ∧ s.create d = .ok s' ∧ Twins m' s' := by
  obtain ⟨row, hrow, hmirrors, hread⟩ := DocumentRow.exists_of_survives hsurvives hd
  cases h with
  | @intro datasets kept htwins hnodup =>
    simp only [DatasetStore.create, hrow, bind, Except.bind, any_twin htwins]
    cases hthere : datasets.lookup d.id with
    | some old => exact .inl ⟨rfl, rfl⟩
    | none =>
      refine .inr ⟨_, _, rfl, rfl, .intro ?_ ?_⟩
      · exact List.rel_append htwins (.cons ⟨hmirrors.id, hmirrors, hd, hread⟩ .nil)
      · rw [List.map_append, List.nodup_append]
        refine ⟨hnodup, List.nodup_singleton _, ?_⟩
        intro key hkey added hadded
        obtain ⟨e, he, rfl⟩ := List.mem_map.mp hkey
        obtain rfl := List.mem_singleton.mp hadded
        exact Ne.symm (by simpa using List.lookup_eq_none_iff.mp hthere e he)

theorem delete (id : String) : ∃ wasThere m' s', m.delete id = .ok (wasThere, m') ∧
    s.delete id = .ok (wasThere, s') ∧ Twins m' s' := by
  cases h with
  | intro htwins hnodup =>
    simp only [DatasetStore.delete, any_twin htwins]
    refine ⟨_, _, _, rfl, rfl, .intro (filter_twin htwins id) ?_⟩
    exact hnodup.sublist (List.filter_sublist.map _)

theorem replace {d : Dataset} (hd : d.InOrder) (hsurvives : d.Survives) (hid : d.id = id)
    (hthere : ∃ current, m.find? id = .ok (some current)) :
    ∃ m' s', m.replace id d = .ok m' ∧ s.replace id d = .ok s' ∧ Twins m' s' := by
  obtain ⟨row, hrow, hmirrors, hread⟩ := DocumentRow.exists_of_survives hsurvives hd
  obtain ⟨current, hcurrent⟩ := hthere
  cases h with
  | @intro datasets kept htwins hnodup =>
    have hthere : (datasets.lookup id).isSome = true := by
      rw [Except.ok.inj hcurrent]
      rfl
    have hrowTwin : Twin (id, d) row := ⟨hmirrors.id.trans hid, hmirrors, hd, hread⟩
    simp only [DatasetStore.replace, hrow, hid, bind, Except.bind]
    refine ⟨_, _, rfl, rfl, .intro (replace_twin htwins hnodup hrowTwin hthere) ?_⟩
    rw [keys_putEntry hthere]
    exact hnodup

theorem keepsIds : m.KeepsIds := by
  cases h with
  | intro htwins _ =>
    intro e he
    obtain ⟨_, _, hrow⟩ := exists_left_of_mem htwins.flip he
    exact hrow.id_eq

theorem update {p : Patch} {now : Moment}
    (hsurvives : ∀ current d, m.find? id = .ok (some current) →
      current.patched p.entries now = .ok d → d.Survives) :
    (∃ e, m.update id p.entries now = .error e ∧ s.update id p.entries now = .error e) ∨
    ∃ updated m' s', m.update id p.entries now = .ok (updated, m') ∧
      s.update id p.entries now = .ok (updated, s') ∧ Twins m' s' := by
  have hfind := h.find? id
  unfold DatasetStore.update
  rw [hfind]
  cases hm : m.find? id with
  | error e => exact .inl ⟨e, rfl, rfl⟩
  | ok found =>
    cases found with
    | none => exact .inr ⟨none, m, s, rfl, rfl, h⟩
    | some current =>
      simp only [bind, Except.bind]
      cases hd : current.patched p.entries now with
      | error faults => exact .inl ⟨.invalid faults, rfl, rfl⟩
      | ok d =>
        have hkeeps : d.id = id :=
          (Dataset.id_of_patched hd).trans (id_of_find? h.keepsIds hm)
        obtain ⟨m', s', hm', hs', htwins⟩ := h.replace (Dataset.inOrder_of_patched hd)
          (hsurvives current d hm hd) hkeeps ⟨current, hm⟩
        simp only [Except.mapError, hm', hs']
        exact .inr ⟨some d, m', s', rfl, rfl, htwins⟩

end Twins

end DatasetStore

namespace Request

/-- What a request does to a repository in memory, and what it does to one of rows. -/
inductive Alike (q : Request) :
    Except Error (Reply × Repository) → Except Error (Reply × Repository) → Prop
  | failed (e : Error) : Alike q (.error e) (.error e)
  | duplicate {d : Dataset} : q = .create d →
    Alike q (.error (.refused (.datasetExists d.id))) (.error (.broken .duplicateId))
  | done {reply : Reply} {m s : Repository} : m.datasets.Twins s.datasets →
    Alike q (.ok (reply, m)) (.ok (reply, s))

section Step
variable {q : Request} {m s : Repository} (h : m.datasets.Twins s.datasets)
include h

theorem Alike.read {α : Type} {x y : Except Error α} (heq : y = x) (reply : α → Reply) :
    Alike q (x.map fun a => (reply a, m)) (y.map fun a => (reply a, s)) := by
  subst heq
  cases y with
  | error e => exact .failed e
  | ok a => exact .done h

theorem perform_alike (hsound : q.Sound) (hfits : q.Fits m) :
    Alike q (q.perform m) (q.perform s) := by
  cases q with
  | create d =>
    simp only [perform, Repository.create]
    rcases h.create hsound hfits with ⟨hm, hs⟩ | ⟨m', s', hm, hs, htwins⟩
    · rw [hm, hs]
      exact .duplicate rfl
    · rw [hm, hs]
      exact .done htwins
  | find id => exact .read h (h.find? id) _
  | page query sorting skip limit =>
    refine .read h ?_ _
    unfold Repository.matching
    rw [h.matching query]
  | count query =>
    refine .read h ?_ _
    unfold Repository.count
    rw [h.matching query]
  | distinct field query =>
    refine .read h ?_ _
    unfold Repository.distinct
    rw [h.matching query]
  | update id p now =>
    simp only [perform, Repository.update]
    rcases h.update hfits with ⟨e, hm, hs⟩ | ⟨updated, m', s', hm, hs, htwins⟩
    · rw [hm, hs]
      exact .failed e
    · rw [hm, hs]
      exact .done htwins
  | delete id =>
    simp only [perform, Repository.delete]
    obtain ⟨wasThere, m', s', hm, hs, htwins⟩ := h.delete id
    rw [hm, hs]
    exact .done htwins

/-- One request is answered alike, and leaves twins. -/
theorem step_alike (hsound : q.Sound) (hfits : q.Fits m) :
    SameAnswer (q, q.answer m) (q, q.answer s) ∧
      (q.after m).datasets.Twins (q.after s).datasets := by
  have halike := perform_alike h hsound hfits
  unfold answer after
  generalize q.perform m = x, q.perform s = y at halike
  cases halike with
  | failed e => exact ⟨.inl rfl, h⟩
  | duplicate hq =>
    subst hq
    exact ⟨.inr ⟨_, rfl, rfl⟩, h⟩
  | done htwins => exact ⟨.inl rfl, htwins⟩

/-- So are any number of them, one after another. -/
theorem transcript_alike {requests : List Request} (hsound : ∀ q ∈ requests, q.Sound)
    (hfit : AllFit m requests) :
    List.Forall₂ SameAnswer (transcript m requests) (transcript s requests) := by
  induction requests generalizing m s with
  | nil => exact .nil
  | cons q rest ih =>
    obtain ⟨hq, hrest⟩ := List.forall_mem_cons.mp hsound
    obtain ⟨hfits, hfit⟩ := hfit
    obtain ⟨hanswer, htwins⟩ := step_alike h hq hfits
    exact .cons hanswer (ih htwins hrest hfit)

end Step

end Request

/-- From empty repositories of both kinds on, the columns of rows never rule out what a query
accepts; and as long as all that is stored survives, all requests are answered alike. -/
theorem repositories_answer_alike {requests : List Request} (hsound : ∀ q ∈ requests, q.Sound) :
    (∀ kept, (Request.run { datasets := .emptyRows } requests).datasets = .rows kept →
      ∀ row ∈ kept, ∀ d query, row.dataset = .ok d → query.accepts d = true →
        row.isCandidate query = true) ∧
    (Request.AllFit { datasets := .emptyMemory } requests →
      List.Forall₂ Request.SameAnswer
        (Request.transcript { datasets := .emptyMemory } requests)
        (Request.transcript { datasets := .emptyRows } requests)) := by
  constructor
  · intro kept hkept row hrow d query hread haccepts
    have hall := Request.all_run (r := { datasets := .emptyRows }) (DatasetStore.all_of_empty (.inr rfl)) hsound
    rw [hkept] at hall
    obtain ⟨d₀, hmirrors, hd₀, _⟩ := hall row hrow
    exact isCandidate_of_accepts hmirrors (hmirrors.keptAs hd₀ hread) haccepts
  · exact fun hfit => Request.transcript_alike DatasetStore.twins_empty hsound hfit

/-- A dataset is made twice, renamed, looked for and deleted. -/
theorem repositories_answer_alike_of_table :
    let d : Dataset :=
      { id := "a", userId := "u", name := "sales", displayName := "Sales", type := .table
        tableConfig := some { datasourceId := "s", tableName := "sales" }
        createdAt := Moment.start2024, updatedAt := Moment.start2024 }
    let renamed : Patch := ⟨[("display_name", .text "Orders")], rfl⟩
    let requests : List Request :=
      [.create d, .create d, .update "a" renamed Moment.start2024, .find "a",
       .page { owner := some "u" } {} 0 none, .delete "a", .find "a"]
    List.Forall₂ Request.SameAnswer
      (Request.transcript { datasets := .emptyMemory } requests)
      (Request.transcript { datasets := .emptyRows } requests) := by
  intro d renamed requests
  have hproper : Moment.start2024.Proper := by
    refine ⟨by decide, by decide, by decide, by decide, by decide, ?_⟩
    rintro o ⟨⟩
    exact ⟨0, by decide, rfl⟩
  have hd : d.InOrder := by
    have hread :
        (Dataset.ofDocument ⟨"a", Moment.start2024⟩ d.document).toOption.isSome = true := by
      unfold d
      decide +kernel
    exact Dataset.inOrder_of_isSome hread
  have hsurvives : d.Survives := by
    refine .of_blank rfl rfl rfl rfl hproper hproper ?_
    unfold d
    decide +kernel
  have htest : (match d.patched renamed.entries Moment.start2024 with
      | .ok changed => decide ((Value.object changed.document).nesting ≤ maxNesting) &&
        changed.updatedAt == Moment.start2024
      | .error _ => false) = true := by
    unfold d renamed
    decide +kernel
  have hrenamed : ∀ changed, d.patched renamed.entries Moment.start2024 = .ok changed →
      changed.Survives := by
    intro changed hchanged
    have hsame := Dataset.agree_of_patched hchanged
    rw [hchanged] at htest
    simp only [Bool.and_eq_true, decide_eq_true_eq, beq_iff_eq] at htest
    obtain ⟨hdepth, hupdated⟩ := htest
    refine .of_blank (hsame.fields rfl) (hsame.viewConfig rfl) (hsame.qualityIssues rfl) ?_ ?_ ?_
      hdepth
    · rw [hsame.metadata rfl]
    · rw [hsame.createdAt rfl]
      exact hproper
    · rw [hupdated]
      exact hproper
  have hsound : ∀ q ∈ requests, q.Sound := by
    unfold requests
    simp only [List.forall_mem_cons]
    refine ⟨hd, hd, trivial, trivial, trivial, trivial, trivial, ?_⟩
    exact fun q hq => absurd hq List.not_mem_nil
  have hmade : Request.after { datasets := .emptyMemory } (.create d) =
    { datasets := .memory [("a", d)] } := rfl
  have hagain : Request.after { datasets := .memory [("a", d)] } (.create d) =
    { datasets := .memory [("a", d)] } := rfl
  apply (repositories_answer_alike hsound).2
  unfold requests
  simp only [Request.AllFit, hmade, hagain, Request.Fits]
  refine ⟨hsurvives, hsurvives, ?_, trivial, trivial, trivial, trivial, trivial⟩
  intro current changed hcurrent hchanged
  obtain rfl : d = current := Option.some.inj (Except.ok.inj hcurrent)
  exact hrenamed changed hchanged

/-- An infinite percentage stands as null in the row, from which the dataset is not read again. -/
theorem infinite_percentage_is_lost_in_rows :
    let issue : QualityIssue :=
      { type := .missingValues, field := "x", count := 1, percentage := 1.0 / 0.0, severity := .low
        description := "x" }
    let d : Dataset :=
      { id := "a", userId := "u", name := "sales", displayName := "Sales", type := .table
        tableConfig := some { datasourceId := "s", tableName := "sales" }, qualityIssues := [issue]
        createdAt := Moment.start2024, updatedAt := Moment.start2024 }
    let requests : List Request := [.create d, .find "a"]
    d.InOrder ∧ d.fields = [] ∧ d.viewConfig = none ∧
      (∃ found, (Request.find "a").answer (Request.run { datasets := .emptyMemory } [.create d]) =
        .ok (.dataset (some found))) ∧
      (∃ e, (Request.find "a").answer (Request.run { datasets := .emptyRows } [.create d]) =
        .error e) ∧
      ¬ List.Forall₂ Request.SameAnswer
        (Request.transcript { datasets := .emptyMemory } requests)
        (Request.transcript { datasets := .emptyRows } requests) := by
  intro issue d requests
  have hd : d.InOrder := by
    have hread :
        (Dataset.ofDocument ⟨"a", Moment.start2024⟩ d.document).toOption.isSome = true := by
      unfold d issue
      decide +kernel
    exact Dataset.inOrder_of_isSome hread
  have hfound : ∃ found, (Request.find "a").answer
      (Request.run { datasets := .emptyMemory } [.create d]) = .ok (.dataset (some found)) :=
    ⟨d, rfl⟩
  have htest : ((Request.find "a").answer
      (Request.run { datasets := .emptyRows } [.create d])).toOption.isNone = true := by
    unfold d issue
    decide +kernel
  have hlost : ∃ e, (Request.find "a").answer
      (Request.run { datasets := .emptyRows } [.create d]) = .error e := by
    cases hanswer : (Request.find "a").answer
      (Request.run { datasets := .emptyRows } [.create d]) with
    | ok reply =>
      rw [hanswer] at htest
      cases htest
    | error e => exact ⟨e, rfl⟩
  refine ⟨hd, rfl, rfl, hfound, hlost, ?_⟩
  intro halike
  obtain ⟨found, hfound⟩ := hfound
  obtain ⟨e, hlost⟩ := hlost
  obtain ⟨_, hrest⟩ := List.forall₂_cons.mp halike
  obtain ⟨hsame, _⟩ := List.forall₂_cons.mp hrest
  rcases hsame with hsame | ⟨other, hfind, _⟩
  · have hanswers := (Prod.mk.inj hsame).2
    cases hfound.symm.trans (hanswers.trans hlost)
  · cases hfind

end Store

end DatasetCatalog
