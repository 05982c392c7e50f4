import DatasetCatalog.Proofs.Service.Searches
import DatasetCatalog.Proofs.Store.Sorting

/-!
# Pages of results

The pages of a search show the datasets that match it, each once, in the order asked for. Page by
page a part of the sorted results is cut out; the number of pages is just enough for all of them.
-/

namespace DatasetCatalog

namespace Store

section Cutting
variable {α : Type} (as : List α) (limit : Nat)

/-- The part that is cut out for a page, with pages counted from zero. -/
def pageAt (k : Nat) : List α := (as.drop (k * limit)).take limit

theorem position_natCast (length i : Nat) : position length i = min i length := by
  unfold position
  rw [if_neg (Int.not_lt.mpr (Int.natCast_nonneg i)), Int.toNat_natCast]

theorem slice_eq_pageAt (k : Nat) :
    slice ((k * limit : Nat) : Int) (some ((k * limit : Nat) + limit)) as = pageAt as limit k := by
  have hstop : ((k * limit : Nat) : Int) + limit = (k * limit + limit : Nat) := by
    rw [Int.natCast_add]
  unfold slice pageAt
  rw [hstop, Option.map_some, Option.getD_some, position_natCast, position_natCast,
    List.drop_take, ← List.drop_eq_drop_min, List.take_eq_take_iff, List.length_drop]
  omega

theorem flatMap_pageAt (count : Nat) :
    (List.range count).flatMap (pageAt as limit) = as.take (count * limit) := by
  induction count with
  | zero => rw [Nat.zero_mul, List.take_zero, List.range_zero, List.flatMap_nil]
  | succ count ih =>
    rw [List.range_succ, List.flatMap_append, ih, List.flatMap_singleton, Nat.succ_mul,
      List.take_add]
    rfl

end Cutting

/-- All rows can be read, and their columns agree with them; in memory nothing is asked. -/
def DatasetStore.Legible (s : DatasetStore) : Prop :=
  ∀ kept, s = .rows kept → s.All (fun _ => True) ∧ s.Readable

/-- In a store that is legible, a query finds what it accepts. -/
theorem DatasetStore.Legible.matching {s : DatasetStore} (h : s.Legible) (q : DatasetQuery) :
    s.matching q = .ok (s.readable.filter q.accepts) := by
  cases s with
  | memory datasets => rfl
  | rows kept =>
    obtain ⟨hall, hread⟩ := h kept rfl
    exact matching_of_readable hall hread

end Store

namespace Service

open Store

variable {ε : Type}

/-- The datasets on the pages, one page after another. -/
def shown (count : Int) (page : Int → List Dataset) : List Dataset :=
  (List.range count.toNat).flatMap fun k : Nat => page (k + 1)

/-- So many pages show what was found: each dataset as often as it was found, in order, and those
that may stand as they were found so. Each page but the last is full, and nothing comes behind the
last one. -/
structure Pages (field : SortField) (descending : Bool) (limit : Int) (found : List Dataset)
    (count : Int) (page : Int → List Dataset) : Prop where
  perm : (shown count page).Perm found
  ordered : (shown count page).Pairwise (Precedes field descending)
  ties : ∀ a b, Precedes field descending a b → [a, b].Sublist found →
    [a, b].Sublist (shown count page)
  full : ∀ k, 1 ≤ k → k < count → (page k).length = limit
  beyond : ∀ k, count < k → page k = []

section Counting
variable {limit : Nat} (hlimit : 0 < limit)
include hlimit

theorem pageCount_eq (total : Nat) :
    pageCount total limit = ((total + limit - 1) / limit : Nat) := by
  unfold pageCount
  rw [Int.natCast_ediv]
  congr 1
  omega

/-- There is a further page if and only if there is something to show on it. -/
theorem lt_pageCount_iff (total k : Nat) : (k : Int) < pageCount total limit ↔ k * limit < total := by
  rw [pageCount_eq hlimit, Int.ofNat_lt, ← Nat.succ_le_iff, Nat.le_div_iff_mul_le hlimit,
    Nat.succ_mul]
  omega

theorem shown_pageAt (docs : List Dataset) :
    shown (pageCount docs.length limit) (fun k => pageAt docs limit (k - 1).toNat) = docs := by
  have hpages : shown (pageCount docs.length limit) (fun k => pageAt docs limit (k - 1).toNat) =
      (List.range (pageCount docs.length limit).toNat).flatMap (pageAt docs limit) := by
    unfold shown
    simp only [Int.add_sub_cancel, Int.toNat_natCast]
  rw [hpages, flatMap_pageAt]
  apply List.take_of_length_le
  have hnone := (lt_pageCount_iff hlimit docs.length (pageCount docs.length limit).toNat).not
  rw [pageCount_eq hlimit, Int.toNat_natCast] at hnone ⊢
  exact Nat.not_lt.mp (hnone.mp (Int.lt_irrefl _))

/-- The pages that are cut out of the sorted datasets show them. -/
theorem pages_pageAt (field : SortField) (descending : Bool) (found : List Dataset) :
    Pages field descending limit found (pageCount found.length limit)
      fun k => pageAt (sortBy field descending found) limit (k - 1).toNat := by
  have hsorted := sortBy_perm field descending found
  have hshown := shown_pageAt hlimit (sortBy field descending found)
  rw [hsorted.length_eq] at hshown
  constructor
  · rw [hshown]
    exact hsorted
  · rw [hshown]
    exact pairwise_sortBy field descending found
  · intro a b hprecedes hfound
    rw [hshown]
    exact pair_sublist_sortBy field descending found hprecedes hfound
  · intro k hfirst hnext
    -- the page behind this one shows something, so this one is full
    obtain ⟨n, rfl⟩ := Int.eq_ofNat_of_zero_le (Int.le_trans Int.one_nonneg hfirst)
    have hmore := (lt_pageCount_iff hlimit found.length n).mp hnext
    have hrows : (n - 1) * limit + limit = n * limit := by
      rw [← Nat.succ_mul]
      congr 1
      omega
    have hindex : ((n : Int) - 1).toNat = n - 1 := by omega
    rw [hindex, pageAt, List.length_take, List.length_drop, hsorted.length_eq]
    omega
  · intro k hlast
    have hcount : 0 ≤ pageCount found.length limit := by
      rw [pageCount_eq hlimit]
      exact Int.natCast_nonneg _
    have hnone := (lt_pageCount_iff hlimit found.length (k - 1).toNat).not.mp (by omega)
    rw [pageAt, List.drop_eq_nil_of_le, List.take_nil]
    rw [hsorted.length_eq]
    exact Nat.not_lt.mp hnone

end Counting

section Searching
variable {r : Repository} {q : DatasetQuery} {field : SortField} {limit : Nat} {found : List Dataset}

/-- A page of what the query finds is cut out of the sorted results. -/
theorem matching_page (descending : Bool) (hfound : r.datasets.matching q = .ok found)
    (hcomparable : comparable (found.map (sortKey field)) = true) {k : Int} (hfirst : 1 ≤ k) :
    r.matching q ⟨Named.name field, descending⟩ ((k - 1) * limit) (some limit) =
      .ok (pageAt (sortBy field descending found) limit (k - 1).toNat) := by
  obtain ⟨n, hn⟩ := Int.eq_ofNat_of_zero_le (Int.sub_nonneg_of_le hfirst)
  have hskip : (k - 1) * limit = ((n * limit : Nat) : Int) := by
    rw [hn, Int.natCast_mul]
  have hslice := slice_eq_pageAt (sortBy field descending found) limit n
  rw [hskip, hn, Int.toNat_natCast, ← hslice]
  unfold Repository.matching page sortDocs
  rw [hfound, ofName?_name]
  change Except.map _ (if _ then _ else _) = _
  rw [if_pos hcomparable]
  rfl

/-- The query of a search. -/
def searchQuery (userId : String) (p : SearchParams) : DatasetQuery :=
  { accessibleTo := some userId, keyword := p.keyword, category := p.category, tags := p.tags
    type := p.type, status := some p.status }

/-- A search that gets its page and finds no fault in the store tells the page with its number. -/
theorem search_of_page {w : World ε} {userId : String} {p : SearchParams} {ds : List Dataset}
    (hlegible : w.repository.datasets.Legible)
    (hpage : w.repository.matching (searchQuery userId p) ⟨p.sortBy, p.sortOrder == .desc⟩
      ((p.page - 1) * p.limit) (some p.limit) = .ok ds) {total : Nat}
    (htotal : w.repository.count (searchQuery userId p) = .ok total) :
    ∃ facets, search userId p w = (.ok ⟨ds, ⟨p.page, p.limit, total, pageCount total p.limit⟩,
      facets⟩, w) := by
  have hfacets := hlegible.matching { accessibleTo := some userId, status := some .active }
  simp only [searchQuery] at hpage htotal
  simp only [search, Run.bind_apply, Run.get_apply, Run.ofExcept_apply, hpage, htotal,
    Repository.distinct, hfacets]
  exact ⟨_, rfl⟩

end Searching

/-- Page by page a search shows exactly the datasets that match it, each once: in the order of the
field, those without a value first, or last when descending, and those with the same value as they
are stored. All pages but the last are full, those behind it are empty, and the total is told. In
rows all this is so as long as each row can be read. -/
theorem searches_page_through_matches {w : World ε} {q : DatasetQuery} {field : SortField}
    {descending : Bool} {limit : Int} (hlegible : w.repository.datasets.Legible)
    (hcomparable : comparable
      ((w.repository.datasets.readable.filter q.accepts).map (sortKey field)) = true)
    (hlimit : 1 ≤ limit) :
    let found := w.repository.datasets.readable.filter q.accepts
    ∃ page : Int → List Dataset,
      Pages field descending limit found (pageCount found.length limit) page ∧
      (∀ k, 1 ≤ k → w.repository.matching q ⟨Named.name field, descending⟩ ((k - 1) * limit)
        (some limit) = .ok (page k)) ∧
      w.repository.count q = .ok found.length ∧
      ∀ userId p, searchQuery userId p = q → p.sortBy = Named.name field →
        (p.sortOrder == .desc) = descending → p.limit = limit → 1 ≤ p.page →
        ∃ facets, search userId p w = (.ok ⟨page p.page, ⟨p.page, limit, found.length,
          pageCount found.length limit⟩, facets⟩, w) := by
  intro found
  obtain ⟨n, rfl⟩ := Int.eq_ofNat_of_zero_le (Int.le_trans Int.one_nonneg hlimit)
  have hn : 0 < n := Int.ofNat_lt.mp hlimit
  have hmatching : w.repository.datasets.matching q = .ok found := hlegible.matching q
  have hcount : w.repository.count q = .ok found.length := by
    rw [Repository.count, hmatching]
    rfl
  refine ⟨_, pages_pageAt hn field descending found, ?_, hcount, ?_⟩
  · intro k hfirst
    exact matching_page descending hmatching hcomparable hfirst
  · intro userId p hquery hfield hdescending hsize hfirst
    have hpage : w.repository.matching q ⟨Named.name field, descending⟩ ((p.page - 1) * n) (some n) =
        .ok (pageAt (sortBy field descending found) n (p.page - 1).toNat) :=
      matching_page descending hmatching hcomparable hfirst
    subst hquery hdescending
    rw [← hfield, ← hsize] at hpage
    obtain ⟨facets, hsearch⟩ := search_of_page hlegible hpage hcount
    rw [hsize] at hsearch
    exact ⟨facets, hsearch⟩

/-- Two of three datasets have the same score, and the third has none. -/
theorem searches_page_through_matches_with_equal_scores :
    let c : Dataset :=
      { id := "c", userId := "u", name := "costs", displayName := "Costs", type := .table
        status := .active, createdAt := .start2024, updatedAt := .start2024 }
    let a : Dataset := { c with id := "a", name := "sales", qualityScore := some 50 }
    let b : Dataset := { a with id := "b", name := "orders" }
    let w : World Unit := World.start ⟨.memory [("c", c), ("b", b), ("a", a)], []⟩ {} .queued ()
    let p : SearchParams := { sortBy := "quality_score", limit := 2, page := 2 }
    w.repository.datasets.readable.filter (searchQuery "u" p).accepts = [c, b, a] ∧
      ∃ page : Int → List Dataset, Pages .qualityScore true 2 [c, b, a] 2 page ∧
        ∃ facets, search "u" p w = (.ok ⟨page 2, ⟨2, 2, 3, 2⟩, facets⟩, w) := by
  intro c a b w p
  have hlegible : w.repository.datasets.Legible := by
    intro kept hrows
    cases hrows
  have hmatch : [c, b, a].all (searchQuery "u" p).accepts = true := by
    decide +kernel
  have hfound : w.repository.datasets.readable.filter (searchQuery "u" p).accepts = [c, b, a] :=
    List.filter_eq_self.mpr (List.all_eq_true.mp hmatch)
  have hcomparable : comparable
      ((w.repository.datasets.readable.filter (searchQuery "u" p).accepts).map
        (sortKey .qualityScore)) = true := by
    rw [hfound]
    rfl
  obtain ⟨page, hpages, _, _, hsearch⟩ := @searches_page_through_matches Unit w (searchQuery "u" p)
    .qualityScore true 2 hlegible hcomparable (by decide)
  have hcount : pageCount [c, b, a].length 2 = 2 := by decide
  rw [hfound, hcount] at hpages hsearch
  exact ⟨hfound, page, hpages, hsearch "u" p rfl rfl rfl rfl (by decide)⟩

/-- A dataset whose row is too deep to be read matches a search, and yet no page shows it: there is
no page at all. -/
theorem unreadable_row_is_on_no_page :
    let source : Datasource := { id := "s", userId := "v", name := "s", type := .sqlite }
    let h : Host Unit :=
      { execute := fun _ _ _ => throw (.sourceFailed "gone"), beforeUpdate := fun _ => pure () }
    let request : CreateRequest :=
      { name := "sales", displayName := "Sales", type := .table
        tableConfig := some { datasourceId := "s", tableName := "sales" } }
    let deepening : Document.Reading UpdateRequest :=
      ⟨{ fields := some [
          { name := "a", displayName := "A", sampleValues := [Value.nested 200] }],
         status := some .active },
        .object [("fields", .list [.object [("name", .text "a"), ("display_name", .text "A"),
          ("sample_values", .list [Value.nested 200])]]), ("status", .text "active")]⟩
    let start : World Unit := World.start ⟨.emptyRows, [source]⟩ {} .queued ()
    let made := (perform h (.create "v" request) { start with freshId := "t" }).2
    let deep := (perform h (.update "v" "t" deepening) made).2
    deep.Reachable h ∧
      (∃ d, (update h "v" "t" deepening made).1 = .ok d ∧ (searchQuery "v" {}).accepts d = true) ∧
      (search "v" {} deep).1.toOption.isSome = false := by
  intro source h request deepening start made deep
  have hstart : start.Reachable h := .start (.inr rfl) _ _ _
  have hmade : made.Reachable h :=
    .perform (.passes start.clock start.now "t" [source] () hstart) trivial
  have hread : Document.model UpdateRequest.reader deepening.given = .ok deepening := rfl
  have hdeep : deep.Reachable h := .perform hmade ⟨deepening.given, hread⟩
  have hmatches : ((update h "v" "t" deepening made).1.toOption.any
      (searchQuery "v" {}).accepts) = true := by
    unfold made start request h source deepening
    decide +kernel
  have hfails : (search "v" {} deep).1.toOption.isSome = false := by
    unfold deep made start request h source deepening
    decide +kernel
  exact ⟨hdeep, exists_ok_of_any hmatches, hfails⟩

end Service

end DatasetCatalog
