import DatasetCatalog.Proofs.Query.Outcomes

/-!
# Chains of views

Compiling the source of a dataset follows its views down to a dataset that is none. The chain of
bases that the resolver finds on the way determines the source, whatever state the resolver keeps.
-/

namespace DatasetCatalog.Query

variable {σ : Type} {resolve : Option (Resolver (StateM σ))}

/-- The bases below a dataset, from the nearest to the last, as the resolver finds them. -/
inductive ViewChain (resolve : Option (Resolver (StateM σ))) : σ → Dataset → List Dataset → Prop
  | ground {s : σ} {d : Dataset} : d.type ≠ .view → ViewChain resolve s d []
  | view {s s' : σ} {d base : Dataset} {rest : List Dataset} {r : Resolver (StateM σ)}
      {c : ViewConfig} : resolve = some r → d.type = .view → d.viewConfig = some c →
      r c.baseDatasetId s = (.ok base, s') → ViewChain resolve s' base rest →
      ViewChain resolve s d (base :: rest)

/-- The source of a dataset over the bases below it. -/
inductive Compiles : Dataset → List Dataset → Source → Prop
  | table {d : Dataset} {c : TableConfig} {source : Source} : d.type = .table →
      d.tableConfig = some c → tableSource c = .ok source → Compiles d [] source
  | stored {d : Dataset} {c : SqlConfig} : d.type = .sql → d.sqlConfig = some c →
      Compiles d [] (.stored (storedSql c.sql))
  | view {d base : Dataset} {rest : List Dataset} {c : ViewConfig} {below source : Source} :
      d.type = .view → d.viewConfig = some c → Compiles base rest below →
      viewSource c below = .ok source → Compiles d (base :: rest) source

theorem ViewChain.unique {s : σ} {d : Dataset} {chain chain' : List Dataset}
    (h : ViewChain resolve s d chain) (h' : ViewChain resolve s d chain') : chain = chain' := by
  induction h generalizing chain' with
  | ground ht =>
    cases h' with
    | ground _ => rfl
    | view _ ht' => exact absurd ht' ht
  | view hr ht hc hbase _ ih =>
    cases h' with
    | ground ht' => exact absurd ht ht'
    | view hr' _ hc' hbase' hrest' =>
      cases hr.symm.trans hr'
      cases hc.symm.trans hc'
      cases hbase.symm.trans hbase'
      rw [ih hrest']

theorem Compiles.unique {d : Dataset} {chain : List Dataset} {source source' : Source}
    (h : Compiles d chain source) (h' : Compiles d chain source') : source = source' := by
  induction h generalizing source' with
  | table ht hc hs =>
    cases h' with
    | table _ hc' hs' =>
      cases hc.symm.trans hc'
      exact Except.ok.inj (hs.symm.trans hs')
    | stored ht' _ => cases ht.symm.trans ht'
  | stored ht hc =>
    cases h' with
    | table ht' _ _ => cases ht.symm.trans ht'
    | stored _ hc' =>
      cases hc.symm.trans hc'
      rfl
  | view _ hc _ hs ih =>
    cases h' with
    | view _ hc' hbelow' hs' =>
      cases hc.symm.trans hc'
      rw [ih hbelow'] at hs
      exact Except.ok.inj (hs.symm.trans hs')

section Steps
variable {fuel : Nat} {seen : List String} {d : Dataset} {s : σ}

theorem compileSource_repeated (h : d.id ∈ seen) :
    compileSource resolve (fuel + 1) seen d s = (.error (.refused (.viewCycle d.id)), s) := by
  have hseen : seen.contains d.id = true := List.contains_iff_mem.mpr h
  simp only [compileSource, hseen, if_true]
  rfl

theorem compileSource_view {r : Resolver (StateM σ)} {c : ViewConfig} (h : d.id ∉ seen)
    (ht : d.type = .view) (hc : d.viewConfig = some c) :
    compileSource (some r) (fuel + 1) seen d s =
      match r c.baseDatasetId s with
      | (.error e, s') => (.error e, s')
      | (.ok base, s') =>
        match compileSource (some r) fuel (d.id :: seen) base s' with
        | (.error e, s'') => (.error e, s'')
        | (.ok source, s'') => (viewSource c source, s'') := by
  have hseen : seen.contains d.id = false := by simpa using h
  simp only [compileSource, hseen, Bool.false_eq_true, if_false, ht, hc]
  rcases hbase : r c.baseDatasetId s with ⟨e | base, s'⟩
  · exact run_bind_of_error hbase
  · rw [run_bind_of_ok hbase]
    rcases hbelow : compileSource (some r) fuel (d.id :: seen) base s' with ⟨e | source, s''⟩
    · simp only [hbelow]
      exact run_bind_of_error hbelow
    · simp only [hbelow]
      exact run_bind_of_ok hbelow

variable (resolve fuel seen d s) in
/-- A way that is too long or comes back to a dataset is refused as a cycle. -/
theorem compileSource_cycle_or_fresh :
    compileSource resolve fuel seen d s = (.error (.refused (.viewCycle d.id)), s) ∨
      ∃ n, fuel = n + 1 ∧ d.id ∉ seen := by
  cases fuel with
  | zero => exact .inl rfl
  | succ n =>
    by_cases h : d.id ∈ seen
    · exact .inl (compileSource_repeated h)
    · exact .inr ⟨n, rfl, h⟩

end Steps

/-- A source that was compiled was compiled along the chain that the resolver finds. -/
theorem compileSource_ok {fuel : Nat} {seen : List String} {d : Dataset} {s s' : σ}
    {source : Source} (h : compileSource resolve fuel seen d s = (.ok source, s')) :
    ∃ chain, ViewChain resolve s d chain ∧ Compiles d chain source := by
  induction fuel generalizing seen d s s' source with
  | zero => cases h
  | succ fuel ih =>
    rcases compileSource_cycle_or_fresh resolve (fuel + 1) seen d s with hcycle | ⟨_, _, hnew⟩
    · rw [hcycle] at h
      cases h
    have hseen : seen.contains d.id = false := by simpa using hnew
    unfold compileSource at h
    split at h <;> simp only [hseen, Bool.false_eq_true, if_false] at h
    · rename_i c ht hc
      have hsource : tableSource c = .ok source := (Prod.mk.inj h).1
      exact ⟨[], .ground (by rw [ht]; decide), .table ht hc hsource⟩
    · rename_i c ht hc
      cases h
      exact ⟨[], .ground (by rw [ht]; decide), .stored ht hc⟩
    · rename_i c ht hc
      cases resolve with
      | none => cases h
      | some r =>
        obtain ⟨base, t, hbase, h⟩ := run_bind_eq_ok h
        obtain ⟨below, t', hbelow, h⟩ := run_bind_eq_ok h
        obtain ⟨chain, hchain, hcompiles⟩ := ih hbelow
        have hsource : viewSource c below = .ok source := (Prod.mk.inj h).1
        exact ⟨base :: chain, .view rfl ht hc hbase hchain, .view ht hc hcompiles hsource⟩
    · cases h

theorem compileQuery_ok {fuel : Nat} {r : QueryRequest} {d : Dataset} {s s' : σ} {q : Statement}
    (h : compileQuery resolve fuel r d s = (.ok q, s')) :
    ∃ columns chain source conditions, selectedColumns r d = .ok columns ∧
      ViewChain resolve s d chain ∧ Compiles d chain source ∧
      compileFilters r.filters = .ok conditions ∧
      q = .select
        { columns, source, conditions
          groupBy := r.dimensions
          orderBy := orderingOf r
          limit := .int ((r.limit.filter (· != 0)).getD defaultLimit) } := by
  obtain ⟨columns, s₁, hcolumns, h⟩ := run_bind_eq_ok h
  obtain ⟨source, s₂, hsource, h⟩ := run_bind_eq_ok h
  obtain ⟨conditions, s₃, hconditions, h⟩ := run_bind_eq_ok h
  obtain ⟨hselected, rfl⟩ := Prod.mk.inj hcolumns
  obtain ⟨hcompiled, rfl⟩ := Prod.mk.inj hconditions
  obtain ⟨chain, hchain, hcompiles⟩ := compileSource_ok hsource
  cases h
  exact ⟨columns, chain, source, conditions, hselected, hchain, hcompiles, hcompiled, rfl⟩

theorem compilePreview_ok {fuel : Nat} {d : Dataset} {limit : Int} {s s' : σ} {q : Statement}
    (h : compilePreview resolve fuel d limit s = (.ok q, s')) :
    ∃ chain source, ViewChain resolve s d chain ∧ Compiles d chain source ∧
      q = .select { columns := [.star], source, limit := .int limit } := by
  obtain ⟨source, s₁, hsource, h⟩ := run_bind_eq_ok h
  obtain ⟨chain, hchain, hcompiles⟩ := compileSource_ok hsource
  cases h
  exact ⟨chain, source, hchain, hcompiles, rfl⟩

end DatasetCatalog.Query
