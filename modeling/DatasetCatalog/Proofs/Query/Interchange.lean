import DatasetCatalog.Proofs.Query.CanonicalForm
import DatasetCatalog.Proofs.Query.ValueIndependence
import Mathlib.Data.List.Permutation

/-!
# Requests of one key

Requests that share a key in the cache are compiled into statements that read the same source up to
the same limit, and that have the same columns, groups and conditions but for their order. They sort
their rows alike only if they name the same measure, or else the same dimension, first.
-/

namespace DatasetCatalog

/-- The column that a request leads with, by which its rows are sorted. -/
def QueryRequest.lead? (r : QueryRequest) : Option String := r.measures.head?.or r.dimensions.head?

namespace Query

open Text

section Permuted

theorem conditionShapes_perm {fs gs : List Filter} (h : fs.Perm gs) :
    (conditionShapes fs).Perm (conditionShapes gs) :=
  (h.map _).filterMap _

theorem compileFilters_perm {fs gs : List Filter} (h : fs.Perm gs) {ps qs : List Predicate}
    (hps : compileFilters fs = .ok ps) (hqs : compileFilters gs = .ok qs) : ps.Perm qs := by
  obtain ⟨found, hfound, rfl⟩ := map_eq_ok hps
  obtain ⟨found', hfound', rfl⟩ := map_eq_ok hqs
  exact (perm_of_mapM h hfound hfound').filterMap _

theorem selectedColumns_perm {r r' : QueryRequest} {d : Dataset}
    (hmeasures : r.measures.Perm r'.measures) (hdimensions : r.dimensions.Perm r'.dimensions)
    {columns columns' : List Expression} (h : selectedColumns r d = .ok columns)
    (h' : selectedColumns r' d = .ok columns') : columns.Perm columns' := by
  obtain ⟨ds, ms, hds, hms, rfl⟩ := selectedColumns_ok h
  obtain ⟨ds', ms', hds', hms', rfl⟩ := selectedColumns_ok h'
  have hperm : (ds ++ ms).Perm (ds' ++ ms') :=
    (perm_of_mapM hdimensions hds hds').append (perm_of_mapM hmeasures hms hms')
  rw [hperm.isEmpty_eq]
  split
  · exact .refl _
  · exact hperm

/-- Requests that differ in order are sorted alike just if they lead with the same column. -/
theorem orderingOf_eq_iff {r r' : QueryRequest} (h : r.measures.Perm r'.measures) :
    orderingOf r = orderingOf r' ↔ r.lead? = r'.lead? := by
  obtain ⟨measures, dimensions, _, _⟩ := r
  obtain ⟨measures', dimensions', _, _⟩ := r'
  cases measures with
  | nil =>
    cases h.nil_eq
    cases dimensions <;> cases dimensions' <;> simp [orderingOf, QueryRequest.lead?]
  | cons m rest =>
    cases measures' with
    | nil => exact absurd h.eq_nil (List.cons_ne_nil _ _)
    | cons m' rest' => simp [orderingOf, QueryRequest.lead?]

end Permuted

section Shapes

/-- The JSON form of a list has as many items, and nothing else becomes a list. -/
theorem choices_of_form {f : Filter} {room : Nat} {v : Value}
    (h : f.value.jsonFormIn (room + 1) = .ok v) :
    f.choices = Filter.choices { f with value := v } := by
  obtain ⟨field, operator, value⟩ := f
  cases value with
  | list items =>
    obtain ⟨forms, hforms, rfl⟩ := Value.jsonFormIn_list_ok h
    exact (Value.forall₂_of_jsonFormsIn hforms).length_eq
  | object entries =>
    obtain ⟨forms, _, rfl⟩ := Value.jsonFormIn_object_ok h
    rfl
  | float x =>
    cases h
    simp only
    split <;> rfl
  | nan _ n =>
    cases h
    cases n <;> rfl
  | bytes octets =>
    unfold Value.jsonFormIn at h
    simp only at h
    split at h
    · cases h
      rfl
    · cases h
  | _ =>
    cases h
    rfl

theorem choices_of_no_list {f : Filter} (h : ∀ vs, f.value ≠ .list vs) : f.choices = 0 := by
  unfold Filter.choices
  split
  · rename_i vs hvs
    exact absurd hvs (h vs)
  · rfl

/-- Values that are written alike are lists of as many items, or no lists. -/
theorem choices_of_write {f g : Filter} (h : Json.write f.value = Json.write g.value) :
    f.choices = g.choices := by
  have hlist : ∀ {f g : Filter} {vs : List Value}, Json.write f.value = Json.write g.value →
      f.value = .list vs → f.choices = g.choices := by
    intro f g vs hwritten hvs
    rw [hvs] at hwritten
    obtain ⟨ws, hws⟩ := Json.exists_items_of_head (v := g.value) (by rw [← hwritten]; rfl)
    rw [hws] at hwritten
    have hlength := congrArg List.length (Json.write_list_inj hwritten)
    rw [List.length_map, List.length_map] at hlength
    rw [Filter.choices, Filter.choices, hvs, hws]
    exact hlength
  by_cases hf : ∃ vs, f.value = .list vs
  · obtain ⟨vs, hvs⟩ := hf
    exact hlist h hvs
  by_cases hg : ∃ ws, g.value = .list ws
  · obtain ⟨ws, hws⟩ := hg
    exact (hlist h.symm hws).symm
  · rw [choices_of_no_list (not_exists.mp hf), choices_of_no_list (not_exists.mp hg)]

/-- Filters of one text differ in their values at most. -/
theorem sameShape_of_sameText {f g : Filter} (h : Filter.SameText f g) : f.SameShape g := by
  obtain ⟨hfield, hoperator, v, w, hv, hw, hwritten⟩ := h.parts
  refine ⟨Json.writeText_inj hfield, Json.writeText_inj hoperator, fun _ => ?_⟩
  rw [choices_of_form hv, choices_of_form hw]
  exact choices_of_write hwritten

end Shapes

/-- Two statements differ in the order of columns, groups and conditions at most, and in the values
of conditions. -/
structure Select.Rearranges (a b : Select) : Prop where
  columns : a.columns.Perm b.columns
  source : a.source = b.source
  conditions : (a.conditions.map Predicate.blank).Perm (b.conditions.map Predicate.blank)
  groupBy : a.groupBy.Perm b.groupBy
  limit : a.limit = b.limit

/-- The conditions of filters with the same texts have the same shapes. -/
theorem conditions_of_sameText {fs gs : List Filter} (h : UpToOrder Filter.SameText fs gs)
    {ps qs : List Predicate} (hps : compileFilters fs = .ok ps) (hqs : compileFilters gs = .ok qs) :
    (ps.map Predicate.blank).Perm (qs.map Predicate.blank) := by
  obtain ⟨hs, hpairs, hperm⟩ := h
  have hshape : List.Forall₂ Filter.SameShape fs hs := hpairs.imp fun _ _ => sameShape_of_sameText
  rw [(compileFilters_shape hps).2, (compileFilters_shape hqs).2, conditionShapes_congr hshape]
  exact conditionShapes_perm hperm

/-- Requests of one key are compiled into statements that differ in order at most. These sort their
rows alike just if the requests lead with the same column; their conditions are the same if the
texts of the filters tell them apart. -/
theorem requests_of_one_key_are_interchangeable {r r' : QueryRequest} {key : String}
    (hkey : requestHash r = .ok key) (hkey' : requestHash r' = .ok key)
    (hdigest : ∀ text text', canonicalText r = .ok text → canonicalText r' = .ok text' →
      Digest.sha256Text text = Digest.sha256Text text' → text = text')
    {σ : Type} {resolve : Option (Resolver (StateM σ))} {fuel fuel' : Nat} {d : Dataset}
    {s t t' : σ} {q q' : Statement} (hq : compileQuery resolve fuel r d s = (.ok q, t))
    (hq' : compileQuery resolve fuel' r' d s = (.ok q', t')) :
    ∃ a b, q = .select a ∧ q' = .select b ∧ a.Rearranges b ∧
      (a.orderBy = b.orderBy ↔ r.lead? = r'.lead?) ∧
      ((∀ f ∈ r.filters, ∀ g ∈ r'.filters, Filter.SameText f g → f = g) →
        a.conditions.Perm b.conditions) := by
  obtain ⟨text, htext, rfl⟩ := requestHash_eq_ok.mp hkey
  obtain ⟨text', htext', hdigests⟩ := requestHash_eq_ok.mp hkey'
  obtain rfl := hdigest text text' htext htext' hdigests.symm
  -- one text: what it tells is the same of both requests, but for order
  obtain ⟨hmeasures, hdimensions, hfilters, hlimit⟩ := sameText_of_canonicalText htext htext'
  obtain ⟨columns, chain, source, conditions, hcolumns, hchain, hsource, hconditions, rfl⟩ :=
    compileQuery_ok hq
  obtain ⟨columns', chain', source', conditions', hcolumns', hchain', hsource', hconditions',
    rfl⟩ := compileQuery_ok hq'
  obtain rfl := hchain.unique hchain'
  obtain rfl := hsource.unique hsource'
  have hmeasuresPerm := hmeasures.perm fun _ _ _ _ => Json.writeText_inj
  have hdimensionsPerm := hdimensions.perm fun _ _ _ _ => Json.writeText_inj
  refine ⟨_, _, rfl, rfl, ?_, orderingOf_eq_iff hmeasuresPerm, fun htold => ?_⟩
  · exact
      { columns := selectedColumns_perm hmeasuresPerm hdimensionsPerm hcolumns hcolumns'
        source := rfl
        conditions := conditions_of_sameText hfilters hconditions hconditions'
        groupBy := hdimensionsPerm
        limit := by rw [hlimit] }
  · exact compileFilters_perm (hfilters.perm htold) hconditions hconditions'

theorem mergeSort_pair {α : Type} (le : α → α → Bool) (a b : α) :
    [a, b].mergeSort le = if le a b then [a, b] else [b, a] := by
  simp [List.mergeSort, List.MergeSort.Internal.splitInTwo, List.merge]

theorem sortTexts_pair (a b : String) : sortTexts [a, b] = if a ≤ b then [a, b] else [b, a] := by
  simp only [sortTexts, mergeSort_pair, decide_eq_true_eq]

theorem requests_of_one_key_are_interchangeable_with_filters :
    let d : Dataset :=
      { id := "d", userId := "u", name := "d", displayName := "d", type := .table
        tableConfig := some { datasourceId := "s", tableName := "sales" }
        createdAt := Time.Moment.start2024, updatedAt := Time.Moment.start2024 }
    let year : Filter := ⟨"year", "eq", .int 2024⟩
    let city : Filter := ⟨"city", "eq", .text "Ulm"⟩
    let ask (dimensions : List String) (filters : List Filter) : QueryRequest :=
      { measures := ["revenue"], dimensions, filters, limit := some 5 }
    let r := ask ["region", "branch"] [year, city]
    let r' := ask ["branch", "region"] [city, year]
    let resolve : Option (Resolver (StateM Unit)) := none
    ∃ key a b, requestHash r = .ok key ∧ requestHash r' = .ok key ∧
      compileQuery resolve 1 r d () = (.ok (.select a), ()) ∧
      compileQuery resolve 1 r' d () = (.ok (.select b), ()) ∧
      a.Rearranges b ∧ a.orderBy = b.orderBy ∧ a.conditions.Perm b.conditions := by
  intro d year city ask r r' resolve
  have hyear : filterText year =
      .ok "\x7b\"field\":\"year\",\"operator\":\"eq\",\"value\":2024\x7d" := by
    unfold year
    cbv
  have hcity : filterText city =
      .ok "\x7b\"field\":\"city\",\"operator\":\"eq\",\"value\":\"Ulm\"\x7d" := by
    unfold city
    cbv
  have hfilters : sortFilters [year, city] = .ok [city, year] := by
    simp [sortFilters, hyear, hcity, mergeSort_pair, bind, Except.bind, pure, Except.pure]
  have hfilters' : sortFilters [city, year] = .ok [city, year] := by
    simp [sortFilters, hyear, hcity, mergeSort_pair, bind, Except.bind, pure, Except.pure]
  have hdimensions : sortTexts ["region", "branch"] = ["branch", "region"] := by
    rw [sortTexts_pair, if_neg (by decide)]
  have hdimensions' : sortTexts ["branch", "region"] = ["branch", "region"] := by
    rw [sortTexts_pair, if_pos (by decide)]
  have hmeasures : sortTexts ["revenue"] = ["revenue"] := List.mergeSort_singleton _
  have hcanonical : canonicalRequest r = .ok r' := by
    rw [canonicalRequest_of_sorted hfilters rfl]
    simp only [r, r', ask, hmeasures, hdimensions]
  have hcanonical' : canonicalRequest r' = .ok r' := by
    rw [canonicalRequest_of_sorted hfilters' rfl]
    simp only [r', ask, hmeasures, hdimensions']
  have hdocuments : canonicalDocument r = canonicalDocument r' := by
    rw [canonicalDocument, canonicalDocument, hcanonical, hcanonical']
  have htexts : canonicalText r = canonicalText r' := by
    rw [canonicalText, canonicalText, hdocuments]
  have hkeys : requestHash r = requestHash r' := by
    rw [requestHash, requestHash, hdocuments]
  have hfound : ∃ key, requestHash r' = .ok key := by
    rw [requestHash, canonicalDocument, hcanonical']
    exact ⟨_, rfl⟩
  obtain ⟨key, hkey'⟩ := hfound
  have hkey := hkeys.trans hkey'
  have hdifferent : ¬ Filter.SameText year city := by
    rintro ⟨text, htext, htext'⟩
    have hsame := Except.ok.inj (hyear.symm.trans (htext.trans (htext'.symm.trans hcity)))
    revert hsame
    decide
  have htold : ∀ f ∈ [year, city], ∀ g ∈ [city, year], Filter.SameText f g → f = g := by
    intro f hf g hg h
    simp only [List.mem_cons, List.not_mem_nil, or_false] at hf hg
    rcases hf with rfl | rfl <;> rcases hg with rfl | rfl
    · exact absurd h hdifferent
    · rfl
    · rfl
    · exact absurd h.symm hdifferent
  have hread : ∃ a, compileQuery resolve 1 r d () = (.ok (.select a), ()) := by
    unfold r ask year city d
    exact ⟨_, rfl⟩
  have hread' : ∃ b, compileQuery resolve 1 r' d () = (.ok (.select b), ()) := by
    unfold r' ask year city d
    exact ⟨_, rfl⟩
  obtain ⟨a, ha⟩ := hread
  obtain ⟨b, hb⟩ := hread'
  obtain ⟨a', b', hqa, hqb, hsame, horder, hconditions⟩ :=
    requests_of_one_key_are_interchangeable hkey hkey'
      (fun _ _ ht ht' _ => Except.ok.inj (ht.symm.trans (htexts.trans ht'))) ha hb
  cases hqa
  cases hqb
  exact ⟨key, a, b, hkey, hkey', ha, hb, hsame, horder.mpr rfl, hconditions htold⟩

/-- Two requests that name their measures in another order share a key, but their rows are sorted by
different columns. -/
theorem requests_of_one_key_may_sort_differently :
    let d : Dataset :=
      { id := "d", userId := "u", name := "d", displayName := "d", type := .table
        tableConfig := some { datasourceId := "s", tableName := "sales" }
        createdAt := Time.Moment.start2024, updatedAt := Time.Moment.start2024 }
    let r : QueryRequest := { measures := ["revenue", "cost"], limit := some 1 }
    let r' : QueryRequest := { measures := ["cost", "revenue"], limit := some 1 }
    let resolve : Option (Resolver (StateM Unit)) := none
    ∃ key a b, requestHash r = .ok key ∧ requestHash r' = .ok key ∧
      compileQuery resolve 1 r d () = (.ok (.select a), ()) ∧
      compileQuery resolve 1 r' d () = (.ok (.select b), ()) ∧ a.orderBy ≠ b.orderBy := by
  intro d r r' resolve
  have hsorted : sortTexts ["revenue", "cost"] = ["cost", "revenue"] := by
    rw [sortTexts_pair, if_neg (by decide)]
  have hsorted' : sortTexts ["cost", "revenue"] = ["cost", "revenue"] := by
    rw [sortTexts_pair, if_pos (by decide)]
  have hnothing : sortTexts [] = [] := List.mergeSort_nil
  have hnone : sortFilters [] = .ok [] := by
    rw [sortFilters, List.mapM_nil]
    exact congrArg Except.ok (congrArg (List.map _) List.mergeSort_nil)
  have hcanonical : canonicalRequest r = .ok r' := by
    rw [canonicalRequest_of_sorted hnone rfl]
    simp only [r, r', hsorted, hnothing]
  have hcanonical' : canonicalRequest r' = .ok r' := by
    rw [canonicalRequest_of_sorted hnone rfl]
    simp only [r', hsorted', hnothing]
  have hkeys : requestHash r = requestHash r' := by
    rw [requestHash, requestHash, canonicalDocument, canonicalDocument, hcanonical, hcanonical']
  have hfound : ∃ key, requestHash r' = .ok key := by
    rw [requestHash, canonicalDocument, hcanonical']
    exact ⟨_, rfl⟩
  obtain ⟨key, hkey'⟩ := hfound
  exact ⟨key, _, _, hkeys.trans hkey', hkey', rfl, rfl, by decide⟩

end Query

end DatasetCatalog
