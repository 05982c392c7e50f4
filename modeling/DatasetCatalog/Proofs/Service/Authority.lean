import DatasetCatalog.Proofs.Service.Intents
import DatasetCatalog.Proofs.Service.Upkeep
import DatasetCatalog.Proofs.Service.ViewWalk

/-!
# Who gets to see rows

Nothing is executed for a user, and no rows are given to one, who may not view the dataset asked for
and every dataset that its views lead to. What counts is what the repository holds at that moment:
the cache agrees with it, and results in the cache are only looked up behind the checks.
-/

namespace DatasetCatalog.Service

open Cache Store

variable {ε α β : Type}

/-- By what the repository holds, the user may view a dataset and every dataset that its views lead
to, down to one that is no view. -/
inductive MayView (r : Repository) (userId : String) : String → Prop
  | ground {id : String} {d : Dataset} : r.find? id = .ok (some d) →
    d.permits userId .viewer = true → d.type ≠ .view → MayView r userId id
  | view {id : String} {d : Dataset} {c : ViewConfig} : r.find? id = .ok (some d) →
    d.permits userId .viewer = true → d.type = .view → d.viewConfig = some c →
    MayView r userId c.baseDatasetId → MayView r userId id

section Walking
variable {userId : String} {r : Repository}

theorem getDataset_looksUp (userId : String) (r : Repository) :
    LooksUp (getDataset (ε := ε) userId) r.datasets.readable
      fun w => w.Agrees ∧ w.repository = r where
  found := by
    rintro id w w' d ⟨hw, rfl⟩ hget
    obtain ⟨hrest, hfound⟩ := getDataset_cases userId id hw hget
    exact ⟨DatasetStore.mem_readable_of_find? (hfound d rfl).1, hrest.agrees, hrest.repository⟩

/-- Whoever walks to a ground with a user's eyes has seen that the user may view it all. -/
theorem Walk.mayView {seen : List String} {w w' : World ε} {d g : Dataset} {visited : List Dataset}
    {ending : WalkEnd} (h : Walk (getDataset userId) seen w d visited ending w')
    (hend : ending = .ground g) (hw : w.Agrees ∧ w.repository = r) {id : String}
    (hfind : r.find? id = .ok (some d)) (hmay : d.permits userId .viewer = true) :
    MayView r userId id := by
  induction h generalizing id with
  | repeated _ => cases hend
  | ground _ ht => exact .ground hfind hmay ht
  | failed _ _ _ _ => cases hend
  | next _ ht hc hbase _ ih =>
    obtain ⟨hagrees, hr⟩ := hw
    obtain ⟨hrest, hfound⟩ := getDataset_cases userId _ hagrees hbase
    obtain ⟨hfind', hmay'⟩ := hfound _ rfl
    exact .view hfind hmay ht hc
      (ih hend ⟨hrest.agrees, hrest.repository.trans hr⟩ (hr ▸ hfind') hmay')

variable {id : String} {d : Dataset} {w w' : World ε} {fuel : Nat}

theorem mayView_of_compileSource (hw : w.Agrees ∧ w.repository = r)
    (hfind : r.find? id = .ok (some d)) (hmay : d.permits userId .viewer = true)
    {source : Query.Source}
    (h : (Query.compileSource (some (getDataset userId)) fuel [] d : Run ε Query.Source) w =
      (.ok source, w')) : MayView r userId id := by
  obtain ⟨hagrees, rfl⟩ := hw
  obtain ⟨visited, g, hwalk⟩ := Walk.of_compileSource
    (fun _ => DatasetStore.configured_of_mem_readable hagrees.inOrder)
    (getDataset_looksUp userId w.repository) ⟨hagrees, rfl⟩
    (DatasetStore.configured_of_find? hagrees.inOrder hfind) h
  exact hwalk.mayView rfl ⟨hagrees, rfl⟩ hfind hmay

theorem mayView_of_datasourceFor (hw : w.Agrees ∧ w.repository = r)
    (hfind : r.find? id = .ok (some d)) (hmay : d.permits userId .viewer = true)
    {datasource : Datasource}
    (h : datasourceFor (getDataset userId) d w = (.ok datasource, w')) : MayView r userId id := by
  obtain ⟨hagrees, rfl⟩ := hw
  obtain ⟨visited, g, hwalk⟩ := Walk.of_datasourceAlong
    (fun _ => DatasetStore.configured_of_mem_readable hagrees.inOrder)
    (getDataset_looksUp userId w.repository) ⟨hagrees, rfl⟩
    (DatasetStore.configured_of_find? hagrees.inOrder hfind) h
  exact hwalk.mayView rfl ⟨hagrees, rfl⟩ hfind hmay

end Walking

/-- Without `P`, a run leaves the surroundings alone and gives nothing that shows rows. -/
def Run.Guarded (P : Prop) (shows : α → Prop) (x : Run ε α) (w : World ε) : Prop :=
  P ∨ (x w).2.surroundings = w.surroundings ∧ ∀ a, (x w).1 = .ok a → ¬ shows a

namespace Run.Guarded
variable {P : Prop} {r : Repository} {w : World ε}

theorem throw (shows : α → Prop) (e : Error) (w : World ε) :
    Guarded P shows (MonadExcept.throw e : Run ε α) w :=
  .inr ⟨rfl, fun a ha => by cases ha⟩

theorem pure {shows : α → Prop} {a : α} (ha : ¬ shows a) (w : World ε) :
    Guarded P shows (Pure.pure a : Run ε α) w := by
  refine .inr ⟨rfl, fun b hb => ?_⟩
  cases hb
  exact ha

/-- The guard may be met after steps that do nothing but read. -/
theorem after {x : Run ε α} {f : α → Run ε β} {shows : β → Prop} (hx : x.Within World.Rests)
    (hw : w.Agrees ∧ w.repository = r)
    (hf : ∀ a w', x w = (.ok a, w') → w'.Agrees ∧ w'.repository = r → Guarded P shows (f a) w') :
    Guarded P shows (x >>= f) w := by
  obtain ⟨hagrees, hr⟩ := hw
  have hread := hx w hagrees
  unfold Guarded
  rw [bind_apply]
  rcases hxw : x w with ⟨e | a, w'⟩
  · rw [hxw] at hread
    exact .inr ⟨hread.surroundings, fun b hb => by cases hb⟩
  · rw [hxw] at hread
    rcases hf a w' hxw ⟨hread.agrees, hread.repository.trans hr⟩ with hP | ⟨hrest, hshows⟩
    · exact .inl hP
    · exact .inr ⟨hrest.trans hread.surroundings, hshows⟩

/-- Behind a dataset that was got the user is known to be a viewer of it. -/
theorem afterGetDataset {userId id : String} {f : Dataset → Run ε β} {shows : β → Prop}
    (hw : w.Agrees ∧ w.repository = r)
    (hf : ∀ d w', w'.Agrees ∧ w'.repository = r → r.find? id = .ok (some d) →
      d.permits userId .viewer = true → Guarded P shows (f d) w') :
    Guarded P shows (getDataset userId id >>= f) w := by
  refine after (getDataset_rests userId id) hw fun d w' hget hw' => ?_
  obtain ⟨hfind, hmay⟩ := (getDataset_cases userId id hw.1 hget).2 d rfl
  rw [hw.2] at hfind
  exact hf d w' hw' hfind hmay

/-- A run that fails may be looked at, as long as the failure shows no rows. -/
theorem attempt {x : Run ε α} {f : Except Error α → Run ε β} {shows : β → Prop}
    (hx : Guarded P (fun _ => True) x w) (hf : ∀ e w', Guarded P shows (f (.error e)) w') :
    Guarded P shows (x.attempt >>= f) w := by
  rcases hx with hP | ⟨hsame, hnone⟩
  · exact .inl hP
  unfold Guarded
  rw [bind_apply, attempt_apply]
  rcases hxw : x w with ⟨e | a, w'⟩
  · rw [hxw] at hsame
    rcases hf e w' with hP | ⟨hrest, hshows⟩
    · exact .inl hP
    · exact .inr ⟨hrest.trans hsame, hshows⟩
  · exact absurd trivial (hnone a (by rw [hxw]))

theorem map {x : Run ε α} {f : α → β} {shows : β → Prop}
    (hx : Guarded P (fun a => shows (f a)) x w) : Guarded P shows (f <$> x) w := by
  change Guarded P shows (x >>= fun a => Pure.pure (f a)) w
  rcases hx with hP | ⟨hrest, hshows⟩
  · exact .inl hP
  refine .inr ?_
  rw [bind_apply]
  rcases hxw : x w with ⟨e | a, w'⟩
  · rw [hxw] at hrest
    exact ⟨hrest, fun b hb => by cases hb⟩
  · rw [hxw] at hrest hshows
    refine ⟨hrest, fun b hb => ?_⟩
    cases hb
    exact hshows a rfl

end Run.Guarded

/-- The outcome of a question has rows. -/
def Asked.ShowsRows (a : Asked) : Prop := ∃ o, a.outcome = .ok o ∧ o.result.isSome

theorem Asked.not_showsRows_error (seen : Seen) (e : Error) :
    ¬ (⟨seen, .error e⟩ : Asked).ShowsRows := by
  rintro ⟨o, ho, _⟩
  cases ho

theorem Asked.not_showsRows_faulty (seen : Seen) {o : Outcome} (ho : o.result = none)
    (errors : List Value) : ¬ (Asked.faulty seen o errors).ShowsRows := by
  rintro ⟨o', ho', hsome⟩
  cases ho'
  rw [ho] at hsome
  cases hsome

section Operations
variable (h : Host ε) (userId id : String) {w : World ε} {r : Repository}

theorem preview_guarded (limit timeoutMs : Option Int) (hw : w.Agrees ∧ w.repository = r) :
    Run.Guarded (MayView r userId id) (fun _ => True) (preview h userId id limit timeoutMs) w := by
  refine .afterGetDataset hw fun d w₁ hw₁ hfind hmay => ?_
  refine .after .get hw₁ fun _ w₂ _ hw₂ => .after (.clampLimit _) hw₂ fun limit w₃ _ hw₃ => ?_
  refine .after .chainBound hw₃ fun bound w₄ _ hw₄ => ?_
  refine .after (.compilePreview (getDataset_rests userId) bound d limit) hw₄ fun _ w₅ hrun _ => ?_
  obtain ⟨source, _, hsource, _⟩ := run_bind_eq_ok hrun
  exact .inl (mayView_of_compileSource hw₄ hfind hmay hsource)

theorem query_guarded (q : QueryRequest) (timeoutMs : Option Int)
    (hw : w.Agrees ∧ w.repository = r) :
    Run.Guarded (MayView r userId id) (fun _ => True) (query h userId id q timeoutMs) w := by
  refine .afterGetDataset hw fun d w₁ hw₁ hfind hmay => ?_
  refine .after .get hw₁ fun _ w₂ _ hw₂ => .after (.clampLimit _) hw₂ fun limit w₃ _ hw₃ => ?_
  refine .after .chainBound hw₃ fun bound w₄ _ hw₄ => ?_
  refine .after (.compileQuery (getDataset_rests userId) bound _ d) hw₄ fun _ w₅ hrun _ => ?_
  obtain ⟨columns, w₆, hcolumns, hrun⟩ := run_bind_eq_ok hrun
  obtain ⟨_, rfl⟩ := Prod.mk.inj hcolumns
  obtain ⟨source, _, hsource, _⟩ := run_bind_eq_ok hrun
  exact .inl (mayView_of_compileSource hw₄ hfind hmay hsource)

theorem runSql_guarded (sql : String) (timeoutMs : Option Int)
    (hw : w.Agrees ∧ w.repository = r) :
    Run.Guarded (MayView r userId id) (fun _ => True) (runSql h userId id sql timeoutMs) w := by
  refine .afterGetDataset hw fun d w₁ hw₁ hfind hmay => ?_
  refine .after .get hw₁ fun _ w₂ _ hw₂ => .after (.ofExcept _) hw₂ fun violations w₃ _ hw₃ => ?_
  simp only
  split
  · exact .after (.throw _) hw₃ fun _ _ hthrow _ => by cases hthrow
  refine .after (.datasourceFor (getDataset_rests userId) d) hw₃ fun source w₄ hrun _ => ?_
  exact .inl (mayView_of_datasourceFor hw₃ hfind hmay hrun)

theorem Asked.not_showsRows_ofRan_error (seen : Seen) {o : Outcome} (ho : o.result = none)
    (e : Error) : ¬ (Asked.ofRan seen o (.error e)).ShowsRows := by
  cases e with
  | refused cause => exact Asked.not_showsRows_faulty seen ho _
  | _ => exact Asked.not_showsRows_error seen _

/-- What is shown of a question are the rows of its statement. -/
theorem answerWith_guarded (seen : Seen) {o : Outcome} (ho : o.result = none)
    (hw : w.Agrees ∧ w.repository = r) :
    Run.Guarded (MayView r userId id) Asked.ShowsRows (answerWith h userId id seen o) w := by
  have hfailed : ∀ (e : Error) (w' : World ε), Run.Guarded (MayView r userId id) Asked.ShowsRows
      (pure (Asked.ofRan seen o (.error e)) : Run ε Asked) w' :=
    fun e w' => .pure (Asked.not_showsRows_ofRan_error seen ho e) w'
  rcases answerWith_cases h userId id seen o with ⟨sql, _, hrun⟩ | ⟨e, hrun⟩
  · rw [hrun]
    exact .attempt (runSql_guarded h userId id sql none hw) hfailed
  · rw [hrun]
    have hrefused : Run.Guarded (MayView r userId id) (fun _ => True)
        (getDataset userId id *> throw e : Run ε QueryResult) w :=
      .after (getDataset_rests userId id) hw fun _ w' _ _ => .throw _ e w'
    exact .attempt hrefused hfailed

theorem answerResolved_guarded (p : Pipeline) (d : Dataset) (seen : Seen) {o : Outcome}
    (ho : o.result = none) (hw : w.Agrees ∧ w.repository = r) :
    Run.Guarded (MayView r userId id) Asked.ShowsRows (answerResolved h userId id p d seen o)
      w := by
  unfold answerResolved
  simp only
  split
  · exact .pure (Asked.not_showsRows_error _ _) w
  · exact .pure (Asked.not_showsRows_faulty _ ho _) w
  split
  · exact .pure (Asked.not_showsRows_error _ _) w
  split
  · exact .pure (Asked.not_showsRows_faulty _ ho _) w
  · exact answerWith_guarded h userId id _ ho hw

theorem ask_guarded (question : Value) (p : Pipeline) (hw : w.Agrees ∧ w.repository = r) :
    Run.Guarded (MayView r userId id) Asked.ShowsRows (ask h userId id question p) w := by
  refine .after (.attempt (getDataset_rests userId id)) hw fun found w₁ _ hw₁ => ?_
  cases found with
  | error e => exact .pure (Asked.not_showsRows_error _ _) w₁
  | ok d =>
    simp only
    split
    · exact .pure (Asked.not_showsRows_error _ _) w₁
    rename_i o hextracted
    obtain ⟨_, ho, _⟩ := extraction_eq_ok hextracted
    split
    · exact .pure (Asked.not_showsRows_faulty _ ho _) w₁
    split
    · exact .pure (Asked.not_showsRows_error _ _) w₁
    · exact answerResolved_guarded h userId id p d _ ho hw₁
    · exact .pure (Asked.not_showsRows_faulty _ ho _) w₁

/-- The operations by which a user reads the rows of a dataset. -/
inductive Operation.Reads (userId id : String) : Operation → Prop
  | preview (limit timeoutMs : Option Int) : Reads userId id (.preview userId id limit timeoutMs)
  | query (request : QueryRequest) (timeoutMs : Option Int) :
    Reads userId id (.query userId id request timeoutMs)
  | runSql (sql : String) (timeoutMs : Option Int) :
    Reads userId id (.runSql userId id sql timeoutMs)
  | ask (question : Value) (pipeline : Pipeline) :
    Reads userId id (.ask userId id question pipeline)

def Answer.ShowsRows : Answer → Prop
  | .preview _ | .query _ => True
  | .asked a => a.ShowsRows
  | _ => False

theorem perform_guarded {o : Operation} (ho : o.Reads userId id)
    (hw : w.Agrees ∧ w.repository = r) :
    Run.Guarded (MayView r userId id) Answer.ShowsRows (perform h o) w := by
  cases ho with
  | preview limit timeoutMs => exact .map (preview_guarded h userId id limit timeoutMs hw)
  | query request timeoutMs => exact .map (query_guarded h userId id request timeoutMs hw)
  | runSql sql timeoutMs => exact .map (runSql_guarded h userId id sql timeoutMs hw)
  | ask question pipeline => exact .map (ask_guarded h userId id question pipeline hw)

end Operations

section Recording

/-- What a host is asked to run. -/
structure Execution where
  source : Datasource
  statement : Query.Statement
  timeoutMs : Int

/-- The same world in other surroundings. -/
def World.within {δ : Type} (w : World ε) (surroundings : δ) : World δ := { w with surroundings }

/-- The host, keeping a record of all it is asked to run. -/
def Host.recorded (h : Host ε) : Host (ε × List Execution) where
  execute source statement timeoutMs := fun w =>
    let (a, w') := h.execute source statement timeoutMs (w.within w.surroundings.1)
    (a, w'.within (w'.surroundings, w.surroundings.2 ++ [⟨source, statement, timeoutMs⟩]))
  beforeUpdate id := fun w =>
    let (a, w') := h.beforeUpdate id (w.within w.surroundings.1)
    (a, w'.within (w'.surroundings, w.surroundings.2))

theorem Host.Confined.recorded {h : Host ε} (hh : h.Confined) : h.recorded.Confined where
  execute source statement timeoutMs w := by
    obtain ⟨e, he⟩ := hh.execute source statement timeoutMs (w.within w.surroundings.1)
    exact ⟨_, congrArg (World.within · _) he⟩
  beforeUpdate id w := by
    obtain ⟨e, he⟩ := hh.beforeUpdate id (w.within w.surroundings.1)
    exact ⟨_, congrArg (World.within · _) he⟩

/-- The run by which rows are got where none are kept. -/
def executing (h : Host ε) (source : Datasource) (statement : Query.Statement) (timeoutMs : Option Int)
    (f : Source.ExecutionResult → Cached) : Run ε Cached := do
  return f (← h.execute source statement (← timeoutOr timeoutMs))

/-- It makes one execution, whatever that comes to. -/
theorem executing_record (h : Host ε) (source : Datasource) (statement : Query.Statement)
    (timeoutMs : Option Int) (f : Source.ExecutionResult → Cached)
    (w : World (ε × List Execution)) : ∃ e : Execution, e.statement = statement ∧
      (executing h.recorded source statement timeoutMs f w).2.surroundings.2 =
        w.surroundings.2 ++ [e] := by
  obtain ⟨ms, hms⟩ : ∃ ms, timeoutOr timeoutMs w = (.ok ms, w) := ⟨_, rfl⟩
  refine ⟨⟨source, statement, ms⟩, rfl, ?_⟩
  have hlog : (h.recorded.execute source statement ms w).2.surroundings.2 =
      w.surroundings.2 ++ [⟨source, statement, ms⟩] := rfl
  rw [executing, run_bind_of_ok hms, ← hlog, Run.bind_apply]
  rcases h.recorded.execute source statement ms w with ⟨e | result, w'⟩ <;> rfl

end Recording

/-- Whatever operations came before, a user on whose call a statement is run or rows are shown may
at that moment view the dataset and all that its views lead to. -/
theorem rows_are_for_viewers {h : Host ε} (hh : h.Confined) {w w' : World (ε × List Execution)}
    (hw : w.Reachable h.recorded) {userId id : String} {o : Operation} (ho : o.Reads userId id)
    {a : Except Error Answer} (hrun : perform h.recorded o w = (a, w'))
    (hrows : w'.surroundings.2 ≠ w.surroundings.2 ∨ ∃ answer, a = .ok answer ∧ answer.ShowsRows) :
    MayView w.repository userId id := by
  have hagrees := hw.agrees hh.recorded
  rcases perform_guarded h.recorded userId id ho ⟨hagrees, rfl⟩ with hmay | ⟨hrest, hnone⟩
  · exact hmay
  -- without the right to view nothing was recorded and nothing is shown
  rw [hrun] at hrest hnone
  rcases hrows with hran | ⟨answer, rfl, hshown⟩
  · exact absurd (congrArg Prod.snd hrest) hran
  · exact absurd hshown (hnone answer rfl)

/-- An owner gets the rows of a table dataset that was created the moment before. -/
theorem rows_are_for_viewers_of_new_dataset :
    let source : Datasource := { id := "s", userId := "u", name := "s", type := .sqlite }
    let h : Host Unit :=
      { execute := fun _ _ _ => pure { columns := ["a"], rows := [[("a", .int 1)]] }
        beforeUpdate := fun _ => pure () }
    let request : CreateRequest :=
      { name := "sales", displayName := "Sales", type := .table
        tableConfig := some { datasourceId := "s", tableName := "sales" } }
    let start : World (Unit × List Execution) :=
      World.start ⟨.emptyMemory, []⟩ {} .queued ((), [])
    let made := (perform h.recorded (.create "u" request)
      { start with freshId := "t", repository := ⟨.emptyMemory, [source]⟩ }).2
    let read := perform h.recorded (.preview "u" "t" (some 5) none) made
    made.Reachable h.recorded ∧ made.surroundings.2 = [] ∧ read.2.surroundings.2.length = 1 ∧
      (∃ answer, read.1 = .ok answer ∧ answer.ShowsRows) ∧
      MayView made.repository "u" "t" := by
  intro source h request start made read
  have hh : h.Confined :=
    ⟨fun _ _ _ => World.Keeps.refl, fun _ => World.Keeps.refl⟩
  have hstart : start.Reachable h.recorded := .start (.inl rfl) _ _ _
  have hmade : made.Reachable h.recorded :=
    .perform (.passes start.clock start.now "t" [source] start.surroundings hstart) trivial
  have hnone : made.surroundings.2 = [] := by
    unfold made start request h source
    rfl
  have hran : read.2.surroundings.2.length = 1 := by
    unfold read made start request h source
    rfl
  have hshown : ∃ answer, read.1 = .ok answer ∧ answer.ShowsRows := by
    unfold read made start request h source
    exact ⟨_, rfl, trivial⟩
  have hreads : (Operation.preview "u" "t" (some 5) none).Reads "u" "t" := .preview _ _
  have hmay := rows_are_for_viewers hh hmade hreads (Prod.eta read).symm (.inr hshown)
  exact ⟨hmade, hnone, hran, hshown, hmay⟩

end DatasetCatalog.Service
