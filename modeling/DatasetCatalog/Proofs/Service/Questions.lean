import DatasetCatalog.Proofs.Service.Authority

/-!
# What a question has executed

A question has at most one statement executed. That is the SQL made of its intent, and it comes
behind every check: the intent was given, its labels are all known, the pipeline finds the resolved
intent valid, and the SQL is safe. A question that is answered has a result or errors, and not both.
-/

namespace DatasetCatalog.Service

variable {ε α β : Type}

section Executing

/-- In between nothing was executed, or one execution was made that has the property. -/
def World.Adds (P : Execution → Prop) (w w' : World (ε × List Execution)) : Prop :=
  w'.surroundings.2 = w.surroundings.2 ∨ ∃ e, P e ∧ w'.surroundings.2 = w.surroundings.2 ++ [e]

variable {P Q : Execution → Prop} {w w' w'' : World (ε × List Execution)}

theorem World.OnlyCaches.adds (h : w.OnlyCaches w') : w.Adds P w' := by
  obtain ⟨cache, rfl⟩ := h
  exact .inl rfl

theorem World.Adds.of_onlyCaches (h : w.OnlyCaches w') (h' : w'.Adds P w'') : w.Adds P w'' := by
  obtain ⟨cache, rfl⟩ := h
  exact h'

theorem World.Adds.mono (h : w.Adds P w') (hPQ : ∀ e, P e → Q e) : w.Adds Q w' := by
  refine h.imp_right ?_
  rintro ⟨e, he, hlog⟩
  exact ⟨e, hPQ e he, hlog⟩

/-- A step that at most caches fails, or hands on what it comes to. -/
theorem Run.bind_cases {x : Run ε α} (hx : x.Within World.OnlyCaches) (f : α → Run ε β)
    (w : World ε) : ∃ w₁, w.OnlyCaches w₁ ∧
      ((∃ e, (x >>= f) w = (.error e, w₁)) ∨ ∃ a, x w = (.ok a, w₁) ∧ (x >>= f) w = f a w₁) := by
  have hw := hx w
  rw [bind_apply]
  rcases hxw : x w with ⟨e | a, w₁⟩
  · rw [hxw] at hw
    exact ⟨w₁, hw, .inl ⟨e, rfl⟩⟩
  · rw [hxw] at hw
    exact ⟨w₁, hw, .inr ⟨a, rfl, rfl⟩⟩

/-- What is made of the end of a run may leave the world as that run left it. -/
theorem state_attempt_bind {x : Run ε α} {f : Except Error α → Run ε β}
    (hf : ∀ a w, (f a w).2 = w) (w : World ε) : ((x.attempt >>= f) w).2 = (x w).2 := by
  rw [Run.bind_apply, Run.attempt_apply]
  exact hf _ _

/-- A call through the cache makes the execution that its computation makes, or none. -/
theorem cached_adds {compute : Run (ε × List Execution) Cached}
    (hcompute : ∀ w, ∃ e, P e ∧ (compute w).2.surroundings.2 = w.surroundings.2 ++ [e])
    (key : String) (ttl : Float) (tags : List String) (w : World (ε × List Execution)) :
    w.Adds P (cached key ttl tags compute w).2 := by
  rw [cached_apply]
  rcases w.cache.begin w.clock key (some ttl) tags with ⟨v | ticket | lead, cache⟩
  · exact .inl rfl
  · exact .inl rfl
  · obtain ⟨e, he, hlog⟩ := hcompute { w with cache }
    rcases hrun : compute { w with cache } with ⟨_ | v, w'⟩
    · simp only [hrun] at hlog ⊢
      exact .inr ⟨e, he, hlog⟩
    · simp only [hrun] at hlog ⊢
      exact .inr ⟨e, he, hlog⟩

theorem runCached_adds (h : Host ε) (id key : String) (source : Datasource)
    (statement : Query.Statement) (timeoutMs : Option Int) (w : World (ε × List Execution)) :
    w.Adds (·.statement = statement)
      (runCached h.recorded id key source statement timeoutMs w).2 := by
  let f (result : Source.ExecutionResult) : Cached := .query
    { rows := result.rows, columns := result.columns.map fun c => [("name", .text c)]
      total := result.total, sql := statement.sql }
  have hcached := cached_adds (executing_record h source statement timeoutMs f) key
    w.settings.queryCacheTtl [Cache.datasetTag id, Cache.queryTag] w
  have hstate : (runCached h.recorded id key source statement timeoutMs w).2 =
      (cached key w.settings.queryCacheTtl [Cache.datasetTag id, Cache.queryTag]
        (executing h.recorded source statement timeoutMs f) w).2 := by
    rw [runCached, Run.bind_apply, Run.get_apply]
    refine state_attempt_bind (fun found w' => ?_) w
    rcases found with e | v
    · cases e <;> rfl
    · cases v <;> rfl
  rw [hstate]
  exact hcached

/-- SQL is run behind every check of it; before, datasets are got, and that is all. -/
theorem runSql_cases (h : Host ε) (userId id sql : String) (timeoutMs : Option Int)
    (w : World ε) : ∃ w₁, w.OnlyCaches w₁ ∧
      ((∃ e, runSql h userId id sql timeoutMs w = (.error e, w₁)) ∨
        Governance.sqlViolations sql w.settings.maxQueryRows = .ok [] ∧
          ∃ source key, runSql h userId id sql timeoutMs w =
            runCached h id key source (.free sql) timeoutMs w₁) := by
  obtain ⟨w₁, hw₁, ⟨e, hrun⟩ | ⟨d, _, hrun⟩⟩ :=
    Run.bind_cases (getDataset_onlyCaches userId id) _ w
  · exact ⟨w₁, hw₁, .inl ⟨e, hrun⟩⟩
  have hcached := hw₁
  obtain ⟨cache, rfl⟩ := hw₁
  rw [runSql, hrun, run_bind_of_ok (Run.get_apply _)]
  cases hviolations : Governance.sqlViolations sql w.settings.maxQueryRows with
  | error b => exact ⟨_, ⟨cache, rfl⟩, .inl ⟨.broken b, rfl⟩⟩
  | ok violations =>
    cases violations with
    | cons v rest => exact ⟨_, ⟨cache, rfl⟩, .inl ⟨_, rfl⟩⟩
    | nil =>
      have hwithin := Run.Within.datasourceFor (getDataset_onlyCaches (ε := ε) userId) d
      obtain ⟨w₂, hw₂, ⟨e, hrun⟩ | ⟨source, _, hrun⟩⟩ := Run.bind_cases hwithin
        (fun source => do
          let hash ← Run.ofBreakdown (sqlHash sql)
          runCached h id (Cache.queryKey id hash) source (.free sql) timeoutMs) { w with cache }
      · exact ⟨w₂, hcached.trans hw₂, .inl ⟨e, hrun⟩⟩
      · cases hhash : sqlHash sql with
        | error b =>
          rw [hhash] at hrun
          exact ⟨w₂, hcached.trans hw₂, .inl ⟨.broken b, hrun⟩⟩
        | ok hash =>
          rw [hhash] at hrun
          exact ⟨w₂, hcached.trans hw₂, .inr ⟨rfl, source, _, hrun⟩⟩

/-- What is executed is the SQL that was given, and it was found safe. -/
theorem runSql_adds (h : Host ε) (userId id sql : String) (timeoutMs : Option Int)
    (w : World (ε × List Execution)) :
    w.Adds (fun e => e.statement = .free sql ∧
        Governance.sqlViolations sql w.settings.maxQueryRows = .ok [])
      (runSql h.recorded userId id sql timeoutMs w).2 := by
  obtain ⟨w₁, hw₁, ⟨e, hrun⟩ | ⟨hsafe, source, key, hrun⟩⟩ :=
    runSql_cases h.recorded userId id sql timeoutMs w
  · rw [hrun]
    exact hw₁.adds
  · rw [hrun]
    have hran := runCached_adds h id key source (.free sql) timeoutMs w₁
    exact .of_onlyCaches hw₁ (hran.mono fun e he => ⟨he, hsafe⟩)

end Executing

/-- What the pipeline was given: for validation the extracted intent with its labels resolved, and
for rendering the intent that it had found valid. -/
structure Pipeline.Saw (p : Pipeline) (d : Dataset) (seen : Seen) : Prop where
  validated : ∀ intent, seen.validated = some intent → ∃ extracted,
    part p.extract "intent" = .ok extracted ∧ extracted.truthy = true ∧
      Resolves d.fields extracted intent
  rendered : ∀ intent datasetId, seen.rendered = some (intent, datasetId) →
    seen.validated = some intent ∧ datasetId = d.id ∧
      ∃ valid, part p.validate "valid" = .ok valid ∧ valid.truthy = true

/-- A question that is answered has either a result or errors. -/
structure Pipeline.Answers (p : Pipeline) (d : Dataset) (a : Asked) : Prop extends
    p.Saw d a.seen where
  outcome : ∀ o, a.outcome = .ok o →
    o.errors = [] ∧ o.result.isSome = true ∨ o.errors ≠ [] ∧ o.result = none

/-- The execution is of the SQL that was rendered of an intent, which is not empty, and safe. -/
def Pipeline.Orders (p : Pipeline) (d : Dataset) (seen : Seen) (maxRows : Int) (e : Execution) :
    Prop :=
  ∃ intent sql, seen.rendered = some (intent, d.id) ∧ part p.render "sql" = .ok (.text sql) ∧
    sql ≠ "" ∧ Governance.sqlViolations sql maxRows = .ok [] ∧ e.statement = .free sql

/-- The run ends with an answer, and at most what the pipeline ordered was executed. -/
def Run.Asks (p : Pipeline) (d : Dataset) (x : Run (ε × List Execution) Asked)
    (w : World (ε × List Execution)) : Prop :=
  ∃ a w', x w = (.ok a, w') ∧ p.Answers d a ∧
    w.Adds (p.Orders d a.seen w.settings.maxQueryRows) w'

theorem Run.Asks.pure {p : Pipeline} {d : Dataset} {a : Asked} (ha : p.Answers d a)
    (w : World (ε × List Execution)) :
    Asks p d (Pure.pure a : Run (ε × List Execution) Asked) w :=
  ⟨a, w, rfl, ha, .inl rfl⟩

namespace Pipeline.Saw
variable {p : Pipeline} {d : Dataset} {seen : Seen} {o : Outcome}

theorem broken (h : p.Saw d seen) (b : Breakdown) : p.Answers d (.broken seen b) := ⟨h, nofun⟩

theorem faulty (h : p.Saw d seen) (ho : o.result = none) {errors : List Value}
    (herrors : errors ≠ []) : p.Answers d (.faulty seen o errors) := by
  refine ⟨h, ?_⟩
  rintro _ ⟨⟩
  exact .inr ⟨herrors, ho⟩

theorem ofRan (h : p.Saw d seen) (ho : o.result = none ∧ o.errors = [])
    (ran : Except Error QueryResult) : p.Answers d (.ofRan seen o ran) := by
  cases ran with
  | ok result =>
    refine ⟨h, ?_⟩
    rintro _ ⟨⟩
    exact .inl ⟨ho.2, rfl⟩
  | error e =>
    cases e with
    | refused cause => exact h.faulty ho.1 (List.cons_ne_nil _ _)
    | _ => exact ⟨h, nofun⟩

end Pipeline.Saw

theorem Asked.seen_ofRan (seen : Seen) (o : Outcome) (ran : Except Error QueryResult) :
    (Asked.ofRan seen o ran).seen = seen := by
  cases ran with
  | ok result => rfl
  | error e => cases e <;> rfl

section Asking
variable (h : Host ε) (userId id : String) {p : Pipeline} {d : Dataset} {o : Outcome}

theorem answerWith_asks {seen : Seen} (hsaw : p.Saw d seen) {intent : Value}
    (hrendered : seen.rendered = some (intent, d.id)) (ho : o.result = none ∧ o.errors = [])
    (hsql : part p.render "sql" = .ok o.sql) (hgiven : o.sql.truthy = true)
    (w : World (ε × List Execution)) :
    Run.Asks p d (answerWith h.recorded userId id seen o) w := by
  rcases answerWith_cases h.recorded userId id seen o with ⟨sql, htext, hrun⟩ | ⟨e, hrun⟩
  · have hran := runSql_adds h userId id sql none w
    rw [hrun]
    refine ⟨_, _, rfl, hsaw.ofRan ho _, hran.mono ?_⟩
    rintro e ⟨hstatement, hsafe⟩
    rw [Asked.seen_ofRan]
    rw [htext] at hsql hgiven
    have hne : sql ≠ "" := by
      rintro rfl
      cases hgiven
    exact ⟨intent, sql, hrendered, hsql, hne, hsafe, hstatement⟩
  · have hcached : (getDataset userId id *> throw e :
        Run (ε × List Execution) QueryResult).Within World.OnlyCaches :=
      .bind (getDataset_onlyCaches userId id) fun _ => .throw e
    rw [hrun]
    exact ⟨_, _, rfl, hsaw.ofRan ho _, (hcached w).adds⟩

theorem answerResolved_asks {seen : Seen} {extracted : Value}
    (hextracted : part p.extract "intent" = .ok extracted) (hgiven : extracted.truthy = true)
    (hresolved : Resolves d.fields extracted o.intent) (hnone : seen.rendered = none)
    (ho : o.result = none ∧ o.errors = []) (w : World (ε × List Execution)) :
    Run.Asks p d (answerResolved h.recorded userId id p d seen o) w := by
  have hvalidated : p.Saw d { seen with validated := some o.intent } := by
    refine ⟨?_, fun intent datasetId hrendered => ?_⟩
    · rintro _ ⟨⟩
      exact ⟨extracted, hextracted, hgiven, hresolved⟩
    · cases hnone.symm.trans hrendered
  unfold answerResolved
  simp only
  split
  · exact .pure (hvalidated.broken _) w
  · exact .pure (hvalidated.faulty ho.1 (List.cons_ne_nil _ _)) w
  · rename_i hcheck
    have hrendered : p.Saw d { seen with
        validated := some o.intent, rendered := some (o.intent, d.id) } := by
      refine ⟨hvalidated.validated, ?_⟩
      rintro _ _ ⟨⟩
      exact ⟨rfl, rfl, valid_of_checkErrors hcheck⟩
    split
    · exact .pure (hrendered.broken _) w
    · rename_i sql hsql
      split
      · exact .pure (hrendered.faulty ho.1 (List.cons_ne_nil _ _)) w
      · rename_i htruthy
        have hgiven : sql.truthy = true := by simpa using htruthy
        exact answerWith_asks h userId id (o := { o with sql }) hrendered rfl ho hsql hgiven w

end Asking

/-- Whatever the pipeline answers, a user who gets a dataset and asks about it has at most one
statement executed: safe SQL that was rendered of the resolved intent, after that was found valid.
An intent is resolved by putting columns of the dataset in the places of its labels; nothing else
of it changes. A question that is answered has a result and no errors, or errors and no result. -/
theorem questions_are_run_as_checked (h : Host ε) {w w₀ : World (ε × List Execution)}
    {userId id : String} {d : Dataset} (hget : getDataset userId id w = (.ok d, w₀))
    (question : Value) (p : Pipeline) :
    ∃ a w', ask h.recorded userId id question p w = (.ok a, w') ∧ p.Answers d a ∧
      w.Adds (p.Orders d a.seen w.settings.maxQueryRows) w' := by
  have hcached := getDataset_onlyCaches userId id w
  rw [hget] at hcached
  obtain ⟨cache, rfl⟩ := hcached
  rw [ask, Run.bind_apply, Run.attempt_apply, hget]
  simp only
  have hasked : p.Saw d { question := some (question, d.summary) } := ⟨nofun, nofun⟩
  have hsettings (x : Run (ε × List Execution) Asked) (hx : Run.Asks p d x { w with cache }) :
      ∃ a w', x { w with cache } = (.ok a, w') ∧ p.Answers d a ∧
        w.Adds (p.Orders d a.seen w.settings.maxQueryRows) w' := hx
  apply hsettings
  split
  · exact .pure (hasked.broken _) _
  rename_i o hextracted
  obtain ⟨hintent, ho⟩ := extraction_eq_ok hextracted
  split
  · exact .pure (hasked.faulty ho.1 (List.cons_ne_nil _ _)) _
  rename_i hgiven
  split
  · exact .pure (hasked.broken _) _
  · rename_i intent hresolved
    have hgiven : o.intent.truthy = true := by simpa using hgiven
    have hresolves := resolves_of_resolveIntent hresolved
    exact answerResolved_asks h userId id (o := { o with intent }) hintent hgiven hresolves rfl ho _
  · exact .pure (hasked.faulty ho.1 (List.cons_ne_nil _ _)) _

/-- A question that names a measure by its display name is answered with one execution. -/
theorem questions_are_run_as_checked_of_display_name :
    let revenue : Field := { name := "revenue", displayName := "Revenue" }
    let region : Field := { name := "region", displayName := "Region" }
    let d : Dataset :=
      { id := "t", userId := "u", name := "sales", displayName := "Sales", type := .table
        tableConfig := some { datasourceId := "s", tableName := "sales" }
        fields := [revenue, region], createdAt := .start2024, updatedAt := .start2024 }
    let source : Datasource := { id := "s", userId := "u", name := "s", type := .sqlite }
    let h : Host Unit :=
      { execute := fun _ _ _ => pure { columns := ["n"], rows := [] }
        beforeUpdate := fun _ => pure () }
    let intent : Value := .object
      [("measures", .list [.text "Revenue"]), ("dimensions", .list [.text "region"])]
    let p : Pipeline :=
      { extract := .object [("intent", intent)]
        render := .object [("sql", .text "SELECT 1 LIMIT 5")] }
    let w : World (Unit × List Execution) :=
      World.start ⟨.memory [("t", d)], [source]⟩ {} .queued ((), [])
    (getDataset "u" "t" w).1 = .ok d ∧
      ∃ a w', ask h.recorded "u" "t" (.text "revenue by region?") p w = (.ok a, w') ∧
        p.Answers d a ∧ ∃ e, p.Orders d a.seen w.settings.maxQueryRows e ∧
          w'.surroundings.2 = [e] := by
  intro revenue region d source h intent p w
  have hget : (getDataset "u" "t" w).1 = .ok d := rfl
  have hran : (ask h.recorded "u" "t" (.text "revenue by region?") p w).2.surroundings.2.length =
      1 := by
    unfold w p intent h source d region revenue
    decide +kernel
  obtain ⟨a, w', hask, hanswers, hadds⟩ :=
    questions_are_run_as_checked h (Prod.ext hget rfl) (.text "revenue by region?") p
  rw [hask] at hran
  refine ⟨hget, a, w', hask, hanswers, ?_⟩
  rcases hadds with hsame | ⟨e, horders, hlog⟩
  · rw [hsame] at hran
    cases hran
  · exact ⟨e, horders, hlog⟩

end DatasetCatalog.Service
