import DatasetCatalog.Proofs.Service.AllowedChanges
import DatasetCatalog.Proofs.Store.Twins

/-!
# Searches see what their caller may read

Each query of a search asks for what is accessible to the caller, and all else that a search does
is done with the answers. So two repositories that hold the same accessible datasets give the same
results, whatever else they hold, as long as all that they hold can be read.
-/

namespace DatasetCatalog

namespace Store

/-- Every row of the store can be read; in memory nothing has to be. -/
def DatasetStore.Readable (s : DatasetStore) : Prop :=
  ∀ kept, s = .rows kept → ∀ r ∈ kept, ∃ d, r.dataset = .ok d

section Matching
variable {s s' : DatasetStore} {q : DatasetQuery}

/-- What the columns leave out of readable rows, the query does not accept. -/
theorem candidates_readable {kept : List DocumentRow}
    (hall : (DatasetStore.rows kept).All fun _ => True)
    (hread : ∀ r ∈ kept, ∃ d, r.dataset = .ok d) :
    ((kept.filter (·.isCandidate q)).mapM DocumentRow.dataset).map (List.filter q.accepts) =
      Except.ok ((kept.filterMap (·.dataset.toOption)).filter q.accepts) := by
  induction kept with
  | nil => rfl
  | cons r rest ih =>
    obtain ⟨⟨d, hd⟩, hrest⟩ := List.forall_mem_cons.mp hread
    obtain ⟨⟨d₀, hmirrors, hd₀, _⟩, hallRest⟩ := List.forall_mem_cons.mp hall
    have hothers := ih hallRest hrest
    have hhead : (r :: rest).filterMap (·.dataset.toOption) =
        d :: rest.filterMap (·.dataset.toOption) :=
      List.filterMap_cons_some (by rw [hd]; rfl)
    rw [hhead]
    cases hcandidate : r.isCandidate q with
    | true =>
      obtain ⟨found, hfound, hsame⟩ := map_eq_ok hothers
      rw [List.filter_cons, if_pos hcandidate, List.mapM_cons, hd, hfound]
      change Except.ok ((d :: found).filter q.accepts) = _
      rw [List.filter_cons, List.filter_cons, hsame]
    | false =>
      have hrefused : q.accepts d = false := by
        by_contra haccepts
        rw [Bool.not_eq_false] at haccepts
        have hkept := hmirrors.keptAs hd₀ hd
        rw [isCandidate_of_accepts hmirrors hkept haccepts] at hcandidate
        cases hcandidate
      rw [List.filter_cons, hcandidate, List.filter_cons, hrefused]
      exact hothers

/-- Over readable datasets a query is a filter, however the datasets are kept. -/
theorem matching_of_readable (hall : s.All fun _ => True) (hread : s.Readable) :
    s.matching q = .ok (s.readable.filter q.accepts) := by
  cases s with
  | memory datasets => rfl
  | rows kept =>
    have hfound := candidates_readable (q := q) hall (hread kept rfl)
    simp only [DatasetStore.matching, DatasetStore.readable]
    rw [← hfound]
    cases (kept.filter (·.isCandidate q)).mapM DocumentRow.dataset <;> rfl

/-- A query for what is accessible does not see the rest. -/
theorem filter_accepts_accessible {userId : String} (hq : q.accessibleTo = some userId)
    (ds : List Dataset) :
    (ds.filter (accessible · userId)).filter q.accepts = ds.filter q.accepts := by
  rw [List.filter_filter]
  congr 1
  funext d
  simp only [DatasetQuery.accepts, hq, Option.all_some]
  cases accessible d userId <;> simp

variable {userId : String}

theorem matching_eq_of_accessible (hall : s.All fun _ => True)
    (hall' : s'.All fun _ => True) (hread : s.Readable) (hread' : s'.Readable)
    (hsame : s.readable.filter (accessible · userId) =
      s'.readable.filter (accessible · userId))
    (hq : q.accessibleTo = some userId) : s.matching q = s'.matching q := by
  rw [matching_of_readable hall hread, matching_of_readable hall' hread',
    ← filter_accepts_accessible hq s.readable, hsame, filter_accepts_accessible hq]

end Matching

end Store

namespace Service

open Store

variable {ε : Type}

/-- The answer to a search is made of two queries for what is accessible to the caller. -/
theorem search_congr {userId : String} {p : SearchParams} {w w' : World ε}
    (h : ∀ q : DatasetQuery, q.accessibleTo = some userId →
      w.repository.datasets.matching q = w'.repository.datasets.matching q) :
    (search userId p w).1 = (search userId p w').1 := by
  simp only [search, Run.bind_apply, Run.get_apply, Run.ofExcept_apply, Repository.matching,
    Repository.count, Repository.distinct]
  rw [h _ rfl, h _ rfl]

/-- Two searches by one user give the same, if what is accessible to the user is the same and all
that is stored can be read. -/
theorem searches_see_accessible_datasets {userId : String} {w w' : World ε}
    (hall : w.repository.datasets.All fun _ => True)
    (hall' : w'.repository.datasets.All fun _ => True)
    (hread : w.repository.datasets.Readable) (hread' : w'.repository.datasets.Readable)
    (hsame : w.repository.datasets.readable.filter (accessible · userId) =
      w'.repository.datasets.readable.filter (accessible · userId)) (p : SearchParams) :
    (search userId p w).1 = (search userId p w').1 :=
  search_congr fun _ hq => matching_eq_of_accessible hall hall' hread hread' hsame hq

/-- Another user's dataset does not show in a search. -/
theorem searches_see_accessible_datasets_of_one :
    let mine : Dataset :=
      { id := "a", userId := "u", name := "sales", displayName := "Sales", type := .table
        tableConfig := some { datasourceId := "s", tableName := "sales" }, status := .active
        createdAt := .start2024, updatedAt := .start2024 }
    let theirs : Dataset := { mine with id := "b", userId := "v", category := "secret" }
    let w : World Unit := World.start ⟨.memory [("b", theirs), ("a", mine)], []⟩ {} .queued ()
    let w' : World Unit := World.start ⟨.memory [("a", mine)], []⟩ {} .queued ()
    (search "u" {} w).1 = (search "u" {} w').1 := by
  intro mine theirs w w'
  have hmine : mine.InOrder := by
    have hread :
        (Dataset.ofDocument ⟨"a", Time.Moment.start2024⟩ mine.document).toOption.isSome = true := by
      unfold mine
      decide +kernel
    exact Dataset.inOrder_of_isSome hread
  have htheirs : theirs.InOrder := by
    have hread : (Dataset.ofDocument ⟨"b", Time.Moment.start2024⟩
        theirs.document).toOption.isSome = true := by
      unfold theirs mine
      decide +kernel
    exact Dataset.inOrder_of_isSome hread
  have hone : ∀ e ∈ [("a", mine)], e.2.InOrder ∧ True := by
    simpa using hmine
  have hboth : ∀ e ∈ [("b", theirs), ("a", mine)], e.2.InOrder ∧ True :=
    List.forall_mem_cons.mpr ⟨⟨htheirs, trivial⟩, hone⟩
  exact @searches_see_accessible_datasets Unit "u" w w' hboth hone (by rintro _ ⟨⟩) (by rintro _ ⟨⟩) rfl {}

/-- A row of another user that is too deep to be read makes every search fail. -/
theorem unreadable_row_shows_in_search :
    let source : Datasource := { id := "s", userId := "v", name := "s", type := .sqlite }
    let h : Host Unit :=
      { execute := fun _ _ _ => throw (.sourceFailed "gone"), beforeUpdate := fun _ => pure () }
    let request : CreateRequest :=
      { name := "sales", displayName := "Sales", type := .table
        tableConfig := some { datasourceId := "s", tableName := "sales" } }
    let sent : Value := .object [("fields", .list [.object [("name", .text "a"),
      ("display_name", .text "A"), ("sample_values", .list [Value.nested 200])]]),
      ("status", .text "active")]
    let deepening : Document.Reading UpdateRequest :=
      ⟨{ fields := some [
          { name := "a", displayName := "A", sampleValues := [Value.nested 200] }],
         status := some .active }, sent⟩
    let start : World Unit := World.start ⟨.emptyRows, [source]⟩ {} .queued ()
    let made := (perform h (.create "v" request) { start with freshId := "t" }).2
    let deep := (perform h (.update "v" "t" deepening) made).2
    start.Reachable h ∧ deep.Reachable h ∧
      start.repository.datasets.SameKind deep.repository.datasets ∧
      start.repository.datasets.readable.filter (accessible · "u") =
        deep.repository.datasets.readable.filter (accessible · "u") ∧
      (search "u" {} start).1 ≠ (search "u" {} deep).1 := by
  intro source h request sent deepening start made deep
  have hstart : start.Reachable h := .start (.inr rfl) _ _ _
  have hmade : made.Reachable h :=
    .perform (.passes start.clock start.now "t" [source] () hstart) trivial
  have hread : Document.model UpdateRequest.reader sent = .ok deepening := rfl
  have hdeep : deep.Reachable h := .perform hmade ⟨sent, hread⟩
  have hkind : start.repository.datasets.SameKind deep.repository.datasets := by
    unfold deep made start request h source deepening sent
    decide +kernel
  have hunread : deep.repository.datasets.readable.isEmpty = true := by
    unfold deep made start request h source deepening sent
    decide +kernel
  have hrun : (search "u" {} deep).1.toOption.isSome = false := by
    unfold deep made start request h source deepening sent
    decide +kernel
  refine ⟨hstart, hdeep, hkind, ?_, ?_⟩
  · rw [List.isEmpty_iff.mp hunread]
    rfl
  · intro hsame
    rw [← hsame] at hrun
    cases hrun

end Service

end DatasetCatalog
