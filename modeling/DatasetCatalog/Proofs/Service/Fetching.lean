import DatasetCatalog.Proofs.Service.Authority
import DatasetCatalog.Proofs.Service.Plans

/-!
# How rows are got

A call for rows reads the datasets that lead to them, and then takes kept rows from the cache or
has its plan executed, once. Rows that were executed without fault are kept under the key and the
tags of what was demanded; nothing else is.
-/

namespace DatasetCatalog.Service

open Cache Query Store

variable {ε α β : Type}

/-- The rows that an operation demands, after its limit is clamped. A question demands the rows of
the SQL that it is rendered as. -/
def Operation.demand? (settings : Settings) : Operation → Option Demand
  | .preview _ id limit _ =>
    some (.preview id (min (limit.getD settings.previewDefaultLimit) settings.maxQueryRows))
  | .query _ id r _ =>
    some (.query id
      { r with limit := some (min (r.limit.getD settings.queryDefaultLimit) settings.maxQueryRows) })
  | .runSql _ id sql _ => some (.sql id sql)
  | .ask _ id _ p =>
    match part p.render "sql" with
    | .ok (.text sql) => some (.sql id sql)
    | _ => none
  | _ => none

/-- The rows that an answer shows. -/
def Answer.rows? : Answer → Option Cached
  | .preview r => some (.preview r)
  | .query r => some (.query r)
  | .asked ⟨_, .ok o⟩ => o.result.map .query
  | _ => none

def Cached.errors : Cached → List String
  | .dataset _ => []
  | .preview r => r.errors
  | .query r => r.errors

def Cached.rows : Cached → List Inference.Row
  | .dataset _ => []
  | .preview r => r.rows
  | .query r => r.rows

/-- The host gives this result for what is executed, in some surroundings. -/
def Host.Returns (h : Host ε) (e : Execution) (result : Source.ExecutionResult) : Prop :=
  ∃ w, (h.execute e.source e.statement e.timeoutMs w).1 = .ok result

/-- One execution was made. Besides, the cache has lost values and may have gained `kept`. -/
structure World.Executed (e : Execution) (kept : String → Cached → List String → Prop)
    (w w' : World (ε × List Execution)) : Prop where
  agrees : w'.Agrees
  repository : w'.repository = w.repository
  log : w'.surroundings.2 = w.surroundings.2 ++ [e]
  rows : ∀ {key v tags}, v.IsRows → w'.cache.Holds key v tags →
    w.cache.Holds key v tags ∨ kept key v tags

theorem World.AtRest.executed {w w' w'' : World (ε × List Execution)} {e : Execution}
    {kept : String → Cached → List String → Prop} (h : w.AtRest w') (h' : w'.Executed e kept w'') :
    w.Executed e kept w'' where
  agrees := h'.agrees
  repository := h'.repository.trans h.repository
  log := by rw [h'.log, h.surroundings]
  rows := fun hv held => (h'.rows hv held).imp_left (h.rows hv)

/-- What a call for rows leaves, with the rows that it gives: nothing was got, or kept rows are
given, or an execution failed, or rows were got by the plan and are kept. -/
inductive Fetched (h : Host ε) (demand : Option Demand) (w w' : World (ε × List Execution)) :
    Option Cached → Prop
  | nothing : w.AtRest w' → Fetched h demand w w' none
  | kept {d : Demand} {p : Datasource × Statement} {key : String} {rows : Cached}
      {tags : List String} : demand = some d → d.key = .ok key → d.plan w = (.ok p, w) →
    w.AtRest w' → w.cache.Holds key rows tags → Fetched h demand w w' (some rows)
  | failed {e : Execution} {given : Option Cached} : w.Executed e (fun _ _ _ => False) w' →
    (∀ rows, given = some rows → rows.errors ≠ []) → Fetched h demand w w' given
  | got {d : Demand} {e : Execution} {result : Source.ExecutionResult} {key : String}
    {rows : Cached} : demand = some d → d.key = .ok key →
    d.plan w = (.ok (e.source, e.statement), w) → h.Returns e result →
    rows.errors = [] ∧ rows.rows = result.rows →
    w.Executed e (fun k v t => k = key ∧ v = rows ∧ t = d.tags) w' →
    Fetched h demand w w' (some rows)

theorem Fetched.repository {h : Host ε} {demand : Option Demand}
    {w w' : World (ε × List Execution)} {rows : Option Cached}
    (hf : Fetched h demand w w' rows) : w'.repository = w.repository := by
  cases hf with
  | nothing hrest => exact hrest.repository
  | kept _ _ _ hrest _ => exact hrest.repository
  | failed hran _ => exact hran.repository
  | got _ _ _ _ _ hran => exact hran.repository

/-- Where no more executions are on record, none was made. -/
theorem Fetched.log_eq {h : Host ε} {demand : Option Demand}
    {w w' : World (ε × List Execution)} {rows : Option Cached} (hf : Fetched h demand w w' rows)
    (hlength : w'.surroundings.2.length = w.surroundings.2.length) :
    w'.surroundings.2 = w.surroundings.2 := by
  have hmore : ∀ e, w'.surroundings.2 ≠ w.surroundings.2 ++ [e] := by
    intro e he
    rw [he, List.length_append, List.length_singleton] at hlength
    omega
  cases hf with
  | nothing hrest => rw [hrest.surroundings]
  | kept _ _ _ hrest _ => rw [hrest.surroundings]
  | failed hran _ => exact absurd hran.log (hmore _)
  | got _ _ _ _ _ hran => exact absurd hran.log (hmore _)

/-- The rows that a run gives, if any. -/
def given (rows? : α → Option Cached) (a : Except Error α) : Option Cached := a.toOption.bind rows?

/-- Run from a world that is at rest, the run has fetched what is demanded. -/
def Run.Fetches (h : Host ε) (demand : Option Demand) (rows? : α → Option Cached)
    (x : Run (ε × List Execution) α) (start w : World (ε × List Execution)) : Prop :=
  Fetched h demand start (x w).2 (given rows? (x w).1)

namespace Run.Fetches
variable {h : Host ε} {demand : Option Demand} {start w : World (ε × List Execution)}

theorem throw (rows? : α → Option Cached) (e : Error) (hw : start.AtRest w) :
    Fetches h demand rows? (MonadExcept.throw e : Run (ε × List Execution) α) start w := .nothing hw

theorem pure {rows? : α → Option Cached} {a : α} (ha : rows? a = none) (hw : start.AtRest w) :
    Fetches h demand rows? (Pure.pure a : Run (ε × List Execution) α) start w := by
  unfold Fetches
  rw [pure_apply, given]
  change Fetched h demand start w (rows? a)
  rw [ha]
  exact .nothing hw

/-- Rows may be fetched after steps that do nothing but read. -/
theorem after {x : Run (ε × List Execution) α} {f : α → Run (ε × List Execution) β}
    {rows? : β → Option Cached} (hx : x.Within World.Rests) (hw : start.AtRest w)
    (hf : ∀ a w', x w = (.ok a, w') → start.AtRest w' → Fetches h demand rows? (f a) start w') :
    Fetches h demand rows? (x >>= f) start w := by
  have hread := hw.trans (hx w hw.agrees)
  unfold Fetches
  rw [bind_apply]
  rcases hxw : x w with ⟨e | a, w'⟩
  · rw [hxw] at hread
    exact .nothing hread
  · rw [hxw] at hread
    exact hf a w' hxw hread

/-- Rows may be fetched of a dataset that was got as it is stored. -/
theorem afterGetDataset (userId id : String) {f : Dataset → Run (ε × List Execution) α}
    {rows? : α → Option Cached} (hw : start.AtRest w)
    (hf : ∀ d w', start.repository.find? id = .ok (some d) → start.AtRest w' →
      Fetches h demand rows? (f d) start w') :
    Fetches h demand rows? (getDataset userId id >>= f) start w := by
  refine after (getDataset_rests userId id) hw fun d w' hget hw' => ?_
  obtain ⟨hfind, _⟩ := (getDataset_cases userId id hw.agrees hget).2 d rfl
  rw [hw.repository] at hfind
  exact hf d w' hfind hw'

theorem map {x : Run (ε × List Execution) α} {f : α → β} {rows? : β → Option Cached}
    (hx : Fetches h demand (fun a => rows? (f a)) x start w) :
    Fetches h demand rows? (f <$> x) start w := by
  change Fetches h demand rows? (x >>= fun a => Pure.pure (f a)) start w
  unfold Fetches at hx ⊢
  rw [bind_apply]
  rcases hxw : x w with ⟨e | a, w'⟩ <;> rw [hxw] at hx <;> exact hx

/-- What was fetched may be handed on in another form, and a failure as an answer without rows. -/
theorem attempt {x : Run (ε × List Execution) α}
    {f : Except Error α → Run (ε × List Execution) β} {rows? : α → Option Cached}
    {handed? : β → Option Cached} (hx : Fetches h demand rows? x start w)
    (hf : ∀ found w', (f found w').2 = w' ∧ given handed? (f found w').1 = given rows? found) :
    Fetches h demand handed? (x.attempt >>= f) start w := by
  unfold Fetches at hx ⊢
  rw [bind_apply, attempt_apply]
  rcases hxw : x w with ⟨found, w'⟩
  rw [hxw] at hx
  obtain ⟨hrest, hgiven⟩ := hf found w'
  simp only
  rw [hrest, hgiven]
  exact hx

end Run.Fetches

section Executing
variable {h : Host ε} (hh : h.Confined) {source : Datasource} {statement : Statement}
  {timeoutMs : Option Int} {f : Source.ExecutionResult → Cached}

include hh in
/-- An execution is recorded, and nothing else but the surroundings changes. -/
theorem executing_cases {w w' : World (ε × List Execution)} {a : Except Error Cached}
    (hrun : executing h.recorded source statement timeoutMs f w = (a, w')) :
    w.Keeps w' ∧ (∃ e : Execution, e.source = source ∧ e.statement = statement ∧
      w'.surroundings.2 = w.surroundings.2 ++ [e] ∧
      ∀ v, a = .ok v → ∃ result, h.Returns e result ∧ v = f result) := by
  obtain ⟨ms, hms⟩ : ∃ ms, timeoutOr timeoutMs w = (.ok ms, w) := ⟨_, rfl⟩
  have hkeeps := hh.recorded.execute source statement ms w
  rw [executing, Run.bind_apply, hms] at hrun
  simp only at hrun
  rw [Run.bind_apply] at hrun
  have hlog : (h.recorded.execute source statement ms w).2.surroundings.2 =
      w.surroundings.2 ++ [⟨source, statement, ms⟩] := rfl
  rcases hx : h.recorded.execute source statement ms w with ⟨e | result, w₁⟩
  · rw [hx] at hrun hkeeps hlog
    simp only at hrun
    obtain ⟨rfl, rfl⟩ := Prod.mk.inj hrun
    exact ⟨hkeeps, ⟨source, statement, ms⟩, rfl, rfl, hlog, fun v hv => by cases hv⟩
  · rw [hx] at hrun hkeeps hlog
    simp only [Run.pure_apply] at hrun
    obtain ⟨rfl, rfl⟩ := Prod.mk.inj hrun
    refine ⟨hkeeps, ⟨source, statement, ms⟩, rfl, rfl, hlog, fun v hv => ?_⟩
    cases hv
    have hreturns : (h.execute source statement ms (w.within w.surroundings.1)).1 = .ok result :=
      congrArg Prod.fst hx
    exact ⟨result, ⟨_, hreturns⟩, rfl⟩

include hh in
/-- A call for rows finds kept ones, or would wait for itself, or makes one execution. -/
theorem cached_executing_cases (hf : ∀ result, (f result).IsRows) {key : String} {ttl : Float}
    {tags : List String} {w w' : World (ε × List Execution)} (hw : w.Agrees)
    {a : Except Error Cached}
    (hrun : cached key ttl tags (executing h.recorded source statement timeoutMs f) w = (a, w')) :
    (∃ rows held, a = .ok rows ∧ w.cache.Holds key rows held ∧ w.AtRest w') ∨
    (a = .error (.crashed "deadlock") ∧ w.AtRest w') ∨
    ∃ e : Execution, e.source = source ∧ e.statement = statement ∧
      ((∃ error, a = .error error ∧ w.Executed e (fun _ _ _ => False) w') ∨
        ∃ result, a = .ok (f result) ∧ h.Returns e result ∧
          w.Executed e (fun k v t => k = key ∧ v = f result ∧ t = tags) w') := by
  obtain ⟨cache, hcache, ⟨v, held, hheld, h'⟩ | h' | ⟨lead, hkey, htags, h'⟩⟩ :=
    cached_cases key ttl tags (executing h.recorded source statement timeoutMs f) w
  · obtain ⟨rfl, rfl⟩ := Prod.mk.inj (h'.symm.trans hrun)
    exact .inl ⟨v, held, rfl, hheld, hw.atRest hcache⟩
  · obtain ⟨rfl, rfl⟩ := Prod.mk.inj (h'.symm.trans hrun)
    exact .inr (.inl ⟨rfl, hw.atRest hcache⟩)
  refine .inr (.inr ?_)
  rw [hrun] at h'
  rcases hcompute : executing h.recorded source statement timeoutMs f { w with cache } with ⟨b, w₁⟩
  obtain ⟨hkeeps, e, hsource, hstatement, hlog, hresult⟩ := executing_cases hh hcompute
  have hbegun := (hw.loses hcache).keeps hkeeps
  obtain ⟨surroundings, rfl⟩ := hkeeps
  rw [hcompute] at h'
  refine ⟨e, hsource, hstatement, ?_⟩
  cases b with
  | error error =>
    obtain ⟨rfl, rfl⟩ := Prod.mk.inj h'
    exact .inl ⟨error, rfl, hbegun.loses fun held => held, rfl, hlog, fun _ held =>
      .inl (hcache held)⟩
  | ok v =>
    obtain ⟨rfl, rfl⟩ := Prod.mk.inj h'
    obtain ⟨result, hreturns, rfl⟩ := hresult v rfl
    refine .inr ⟨result, rfl, hreturns,
      hbegun.finish fun _ d _ hd => absurd hd (hf result d), rfl, hlog, ?_⟩
    intro k v t _ held
    rcases Store.holds_of_finish held with ⟨rfl, rfl, rfl⟩ | held
    · exact .inr ⟨hkey, rfl, htags⟩
    · exact .inl (hcache held)

include hh in
/-- What is handed on of the rows, or of the failure, that the cache comes up with. -/
theorem Run.Fetches.through {demand : Demand} {key : String} {ttl : Float}
    {start w : World (ε × List Execution)} (hw : start.AtRest w) (hkey : demand.key = .ok key)
    (hplan : demand.plan start = (.ok (source, statement), start))
    (hf : ∀ result, (f result).IsRows ∧ (f result).errors = [] ∧ (f result).rows = result.rows)
    {handOn : Except Error Cached → Run (ε × List Execution) α} {rows? : α → Option Cached}
    (hrests : ∀ found w', (handOn found w').2 = w')
    (hrows : ∀ v w', given rows? (handOn (.ok v) w').1 = some v ∧ v.IsRows ∨
      given rows? (handOn (.ok v) w').1 = none ∧ ∀ result, v ≠ f result)
    (hcrash : ∀ message w', given rows? (handOn (.error (.crashed message)) w').1 = none)
    (hfaulty : ∀ e w' v, given rows? (handOn (.error e) w').1 = some v → v.errors ≠ []) :
    Fetches h (some demand) rows?
      ((cached key ttl demand.tags (executing h.recorded source statement timeoutMs f)).attempt >>=
        handOn) start w := by
  unfold Fetches
  rw [bind_apply, attempt_apply]
  rcases hrun : cached key ttl demand.tags (executing h.recorded source statement timeoutMs f) w
    with ⟨a, w'⟩
  simp only
  rw [hrests]
  rcases cached_executing_cases hh (fun result => (hf result).1) hw.agrees hrun with
    ⟨rows, held, rfl, hheld, hrest⟩ | ⟨rfl, hrest⟩ | ⟨e, rfl, rfl, ⟨error, rfl, hran⟩ |
      ⟨result, rfl, hreturns, hran⟩⟩
  · rcases hrows rows w' with ⟨hgiven, hv⟩ | ⟨hgiven, _⟩
    · rw [hgiven]
      exact .kept rfl hkey hplan (hw.trans hrest) (hw.rows hv hheld)
    · rw [hgiven]
      exact .nothing (hw.trans hrest)
  · rw [hcrash]
    exact .nothing (hw.trans hrest)
  · exact .failed (hw.executed hran) fun rows hgiven => hfaulty error w' rows hgiven
  · rcases hrows (f result) w' with ⟨hgiven, _⟩ | ⟨_, hnone⟩
    · rw [hgiven]
      exact .got rfl hkey hplan hreturns (hf result).2 (hw.executed hran)
    · exact absurd rfl (hnone result)

end Executing

theorem clampLimit_ok {limit n : Int} {w w' : World ε} (h : clampLimit limit w = (.ok n, w')) :
    n = min limit w.settings.maxQueryRows := by
  unfold clampLimit at h
  split at h
  · cases h
  · cases h
    rfl

section Calls
variable {h : Host ε} (hh : h.Confined) (userId id : String) {start w : World (ε × List Execution)}
include hh

/-- Rows of a query are got under the key of its digest, those of SQL under that of its text. -/
theorem runCached_fetches {demand : Demand} {key : String} {source : Datasource}
    {statement : Statement} (timeoutMs : Option Int)
    (htags : demand.tags = [datasetTag id, queryTag]) (hkey : demand.key = .ok key)
    (hplan : demand.plan start = (.ok (source, statement), start)) (hw : start.AtRest w) :
    (runCached h.recorded id key source statement timeoutMs).Fetches h (some demand)
      (fun r => some (.query r)) start w := by
  refine .after .get hw fun _ w₁ hsame hw₁ => ?_
  cases hsame
  rw [← htags]
  refine Run.Fetches.through hh hw₁ hkey hplan
    (f := fun result => .query
      { rows := result.rows, columns := result.columns.map fun c => [("name", .text c)]
        total := result.total, sql := statement.sql })
    (fun _ => ⟨fun _ hd => (by cases hd), rfl, rfl⟩) ?_ ?_ ?_ ?_
  · rintro (e | v) w'
    · cases e <;> rfl
    · cases v <;> rfl
  · intro v w'
    cases v with
    | query r => exact .inl ⟨rfl, fun _ hd => by cases hd⟩
    | _ => exact .inr ⟨rfl, fun _ hd => by cases hd⟩
  · intro message w'
    rfl
  · intro e w' v hv
    cases e with
    | sourceFailed message =>
      cases hv
      exact List.cons_ne_nil _ _
    | _ => cases hv

variable (hstart : start.Agrees)
include hstart

theorem preview_fetches (limit timeoutMs : Option Int) (hw : start.AtRest w) :
    (preview h.recorded userId id limit timeoutMs).Fetches h
      ((Operation.preview userId id limit timeoutMs).demand? start.settings)
      (fun r => some (.preview r)) start w := by
  refine .afterGetDataset userId id hw fun d w₁ hfind hw₁ => ?_
  refine .after .get hw₁ fun _ w₂ hsame hw₂ => ?_
  cases hsame
  refine .after (.clampLimit _) hw₂ fun n w₃ hn hw₃ => ?_
  refine .after .chainBound hw₃ fun bound w₄ _ hw₄ => ?_
  refine .after (.compilePreview (getDataset_rests userId) bound d n) hw₄
    fun statement w₅ hstatement hw₅ => ?_
  refine .after (.datasourceFor (getDataset_rests userId) d) hw₅ fun source w₆ hsource hw₆ => ?_
  have hlimit := clampLimit_ok hn
  rw [hw₂.settings] at hlimit
  subst hlimit
  let demand : Demand :=
    .preview id (min (limit.getD start.settings.previewDefaultLimit) start.settings.maxQueryRows)
  have hstored : start.repository.find? demand.id = .ok (some d) := hfind
  have hkey : demand.key = .ok (previewKey id _) := rfl
  have hplan : demand.plan start = (.ok (source, statement), start) :=
    plan_stored (getDataset_mirrors userId start) hstart hstored (fun _ _ _ => trivial) hw₄
      hstatement hsource
  refine Run.Fetches.through hh hw₆ hkey hplan
    (f := fun result =>
      .preview { columns := d.fields, rows := result.rows, totalCount := result.total })
    (fun _ => ⟨fun _ hd => (by cases hd), rfl, rfl⟩) ?_ ?_ ?_ ?_
  · rintro (e | v) w'
    · cases e <;> rfl
    · cases v <;> rfl
  · intro v w'
    cases v with
    | preview r => exact .inl ⟨rfl, fun _ hd => by cases hd⟩
    | _ => exact .inr ⟨rfl, fun _ hd => by cases hd⟩
  · intro message w'
    rfl
  · intro e w' v hv
    cases e with
    | sourceFailed message =>
      cases hv
      exact List.cons_ne_nil _ _
    | _ => cases hv

theorem query_fetches (r : QueryRequest) (timeoutMs : Option Int) (hw : start.AtRest w) :
    (query h.recorded userId id r timeoutMs).Fetches h
      ((Operation.query userId id r timeoutMs).demand? start.settings)
      (fun r => some (.query r)) start w := by
  refine .afterGetDataset userId id hw fun d w₁ hfind hw₁ => ?_
  refine .after .get hw₁ fun _ w₂ hsame hw₂ => ?_
  cases hsame
  refine .after (.clampLimit _) hw₂ fun n w₃ hn hw₃ => ?_
  refine .after .chainBound hw₃ fun bound w₄ _ hw₄ => ?_
  have hlimit := clampLimit_ok hn
  rw [hw₂.settings] at hlimit
  subst hlimit
  refine .after (.compileQuery (getDataset_rests userId) bound _ d) hw₄
    fun statement w₅ hstatement hw₅ => ?_
  refine .after (.datasourceFor (getDataset_rests userId) d) hw₅ fun source w₆ hsource hw₆ => ?_
  refine .after (.ofExcept _) hw₆ fun hash w₇ hhash hw₇ => ?_
  let demand : Demand := .query id
    { r with
      limit := some (min (r.limit.getD start.settings.queryDefaultLimit)
        start.settings.maxQueryRows) }
  have hstored : start.repository.find? demand.id = .ok (some d) := hfind
  have hplan : demand.plan start = (.ok (source, statement), start) :=
    plan_stored (getDataset_mirrors userId start) hstart hstored (fun _ _ _ => trivial) hw₄
      hstatement hsource
  have hkey : demand.key = .ok (queryKey id hash) :=
    congrArg (Except.map (queryKey id)) (Prod.mk.inj hhash).1
  exact runCached_fetches hh id timeoutMs rfl hkey hplan hw₇

theorem runSql_fetches (sql : String) (timeoutMs : Option Int) (hw : start.AtRest w) :
    (runSql h.recorded userId id sql timeoutMs).Fetches h (some (.sql id sql))
      (fun r => some (.query r)) start w := by
  refine .afterGetDataset userId id hw fun d w₁ hfind hw₁ => ?_
  refine .after .get hw₁ fun _ w₂ _ hw₂ => .after (.ofExcept _) hw₂ fun violations w₃ _ hw₃ => ?_
  simp only
  split
  · exact .after (.throw _) hw₃ fun _ _ hthrow _ => by cases hthrow
  refine .after (.datasourceFor (getDataset_rests userId) d) hw₃ fun source w₄ hsource hw₄ => ?_
  refine .after (.ofExcept _) hw₄ fun hash w₅ hhash hw₅ => ?_
  let demand : Demand := .sql id sql
  have hstored : start.repository.find? demand.id = .ok (some d) := hfind
  have hfree : demand.statement (getDataset userId) 0 d w₃ = (.ok (.free sql), w₃) := rfl
  have hplan : demand.plan start = (.ok (source, .free sql), start) :=
    plan_stored (getDataset_mirrors userId start) hstart hstored (fun _ _ _ => trivial) hw₃ hfree
      hsource
  have hkey : demand.key = .ok (queryKey id hash) :=
    congrArg (Except.map (queryKey id)) (Prod.mk.inj hhash).1
  exact runCached_fetches hh id timeoutMs rfl hkey hplan hw₅

/-- What is shown of a question are the rows of its statement. -/
theorem answerWith_fetches (seen : Seen) {o : Outcome} (ho : o.result = none)
    {demand : Option Demand} (hdemand : ∀ sql, o.sql = .text sql → demand = some (.sql id sql))
    (hw : start.AtRest w) :
    (answerWith h.recorded userId id seen o).Fetches h demand (fun a => (Answer.asked a).rows?)
      start w := by
  have hhanded : ∀ (found : Except Error QueryResult) (w' : World (ε × List Execution)),
      ((pure (.ofRan seen o found) : Run (ε × List Execution) Asked) w').2 = w' ∧
      given (fun a => (Answer.asked a).rows?)
          ((pure (.ofRan seen o found) : Run (ε × List Execution) Asked) w').1 =
        given (fun r => some (.query r)) found := by
    rintro (e | result) w'
    · cases e with
      | refused cause => exact ⟨rfl, congrArg (Option.map Cached.query) ho⟩
      | _ => exact ⟨rfl, rfl⟩
    · exact ⟨rfl, rfl⟩
  rcases answerWith_cases h.recorded userId id seen o with ⟨sql, hsql, hrun⟩ | ⟨e, hrun⟩
  · rw [hrun]
    cases hdemand sql hsql
    exact .attempt (runSql_fetches hh userId id hstart sql none hw) hhanded
  · rw [hrun]
    have hrefused : Run.Fetches h demand (fun r => some (.query r))
        (getDataset userId id *> throw e : Run (ε × List Execution) QueryResult) start w :=
      .after (getDataset_rests userId id) hw fun _ _ _ hw' => .throw _ e hw'
    exact .attempt hrefused hhanded

theorem answerResolved_fetches (p : Pipeline) (d : Dataset) (seen : Seen) {o : Outcome}
    (ho : o.result = none) (question : Value) (hw : start.AtRest w) :
    (answerResolved h.recorded userId id p d seen o).Fetches h
      ((Operation.ask userId id question p).demand? start.settings)
      (fun a => (Answer.asked a).rows?) start w := by
  unfold answerResolved
  simp only
  split
  · exact .pure rfl hw
  · exact .pure (congrArg (Option.map Cached.query) ho) hw
  split
  · exact .pure rfl hw
  rename_i sql hrendered
  split
  · exact .pure (congrArg (Option.map Cached.query) ho) hw
  · refine answerWith_fetches hh userId id hstart _ (o := { o with sql }) ho (fun _ htext => ?_) hw
    cases htext
    rw [Operation.demand?, hrendered]

theorem ask_fetches (question : Value) (p : Pipeline) (hw : start.AtRest w) :
    (ask h.recorded userId id question p).Fetches h
      ((Operation.ask userId id question p).demand? start.settings)
      (fun a => (Answer.asked a).rows?) start w := by
  refine .after (.attempt (getDataset_rests userId id)) hw fun found w₁ _ hw₁ => ?_
  cases found with
  | error e => exact .pure rfl hw₁
  | ok d =>
    simp only
    split
    · exact .pure rfl hw₁
    rename_i o hextracted
    obtain ⟨_, ho, _⟩ := extraction_eq_ok hextracted
    have hfaulty := congrArg (Option.map Cached.query) ho
    split
    · exact .pure hfaulty hw₁
    split
    · exact .pure rfl hw₁
    · rename_i intent _
      exact answerResolved_fetches hh userId id hstart p d _ (o := { o with intent }) ho question
        hw₁
    · exact .pure hfaulty hw₁

/-- The operations by which rows are read fetch what they demand. -/
theorem perform_fetches {o : Operation} (ho : o.Reads userId id) :
    (perform h.recorded o).Fetches h (o.demand? start.settings) Answer.rows? start start := by
  have hrest := World.AtRest.refl hstart
  cases ho with
  | preview limit timeoutMs =>
    exact .map (preview_fetches hh userId id hstart limit timeoutMs hrest)
  | query request timeoutMs =>
    exact .map (query_fetches hh userId id hstart request timeoutMs hrest)
  | runSql sql timeoutMs =>
    exact .map (runSql_fetches hh userId id hstart sql timeoutMs hrest)
  | ask question pipeline =>
    exact .map (ask_fetches hh userId id hstart question pipeline hrest)

end Calls

end DatasetCatalog.Service
