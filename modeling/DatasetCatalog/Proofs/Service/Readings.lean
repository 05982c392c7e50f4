import DatasetCatalog.Proofs.Cache.Keys
import DatasetCatalog.Proofs.Service.Confinement
import DatasetCatalog.Service.Operation

/-!
# Reading operations

An operation that reads, or a check of changes, does to the world what getting datasets and running
statements through the cache do.
-/

namespace DatasetCatalog.Service

variable {ε : Type}

theorem Run.Within.checkChanges {R : World ε → World ε → Prop} [World.Sequential R]
    (hget : ∀ userId id, (Service.getDataset userId id : Run ε Dataset).Within R) (userId : String)
    (current : Dataset) (changes : UpdateRequest) (patch : List (String × Value)) :
    (checkChanges userId current changes patch : Run ε Unit).Within R := by
  refine .whenFirst (.ofExcept _) fun _ => ?_
  cases changes.name with
  | none => exact .when (.checkSource hget _ _ _ _)
  | some name =>
    refine .whenFirst (.checkNameFree _ _) fun _ => ?_
    exact .when (.checkSource hget _ _ _ _)

/-- The answer to a question whose statement has been run. -/
def Asked.ofRan (seen : Seen) (o : Outcome) : Except Error QueryResult → Asked
  | .ok result => ⟨seen, .ok { o with result := some result }⟩
  | .error (.refused cause) => .faulty seen o [.text cause.message]
  | .error e => ⟨seen, .error e⟩

/-- A question is answered with the rows of its SQL, or with the failure to get any. -/
theorem answerWith_cases (h : Host ε) (userId id : String) (seen : Seen) (o : Outcome) :
    (∃ sql, o.sql = .text sql ∧ answerWith h userId id seen o =
        (runSql h userId id sql none).attempt >>= fun ran => pure (.ofRan seen o ran)) ∨
      ∃ e, answerWith h userId id seen o =
        (getDataset userId id *> throw e : Run ε QueryResult).attempt >>= fun ran =>
          pure (.ofRan seen o ran) := by
  unfold answerWith
  split
  · rename_i sql hsql
    refine .inl ⟨sql, hsql, bind_congr fun ran => ?_⟩
    rcases ran with e | result
    · cases e <;> rfl
    · rfl
  · refine .inr ⟨_, bind_congr fun ran => ?_⟩
    rcases ran with e | result
    · cases e <;> rfl
    · rfl
  · refine .inr ⟨_, bind_congr fun ran => ?_⟩
    rcases ran with e | result
    · cases e <;> rfl
    · rfl

/-- The operations that only read. -/
def Operation.OnlyReads : Operation → Prop
  | .get .. | .search .. | .preview .. | .query .. | .runSql .. | .ask .. => True
  | _ => False

/-- A key under which rows are kept, of a preview or of a query. -/
inductive IsRowKey : String → Prop
  | preview (id : String) (limit : Int) : IsRowKey (Cache.previewKey id limit)
  | query (id hash : String) : IsRowKey (Cache.queryKey id hash)

/-- It is the key of no dataset whose id has no colon. -/
theorem IsRowKey.ne {key id : String} (h : IsRowKey key) (hcolon : ':' ∉ id.toList) :
    key ≠ Cache.datasetKey id := by
  cases h with
  | preview other limit => exact Cache.previewKey_ne hcolon other limit
  | query other hash => exact Cache.queryKey_ne hcolon other hash

/-- The relation holds along what reading operations are put together from. -/
structure Host.Reads (h : Host ε) (R : World ε → World ε → Prop) : Prop where
  getDataset : ∀ userId id, (getDataset userId id : Run ε Dataset).Within R
  execute : ∀ (source : Datasource) (statement : Query.Statement) (timeoutMs : Option Int)
    {f : Source.ExecutionResult → Cached}, (∀ result d, f result ≠ .dataset d) →
    ∀ {key : String} {ttl : Float} {tags : List String}, IsRowKey key →
      (cached key ttl tags (do
        return f (← h.execute source statement (← timeoutOr timeoutMs)))).Within R

namespace Host.Reads
variable {R : World ε → World ε → Prop} [World.Sequential R] {h : Host ε} (hr : h.Reads R)
include hr

theorem preview (userId id : String) (limit timeoutMs : Option Int) :
    (Service.preview h userId id limit timeoutMs).Within R := by
  refine .bind (hr.getDataset _ _) fun d => .bind .get fun w => ?_
  refine .bind (.clampLimit _) fun limit => .bind .chainBound fun bound => ?_
  refine .bind (.compilePreview (hr.getDataset userId) _ _ _) fun statement => ?_
  refine .bind (.datasourceFor (hr.getDataset userId) _) fun source => ?_
  refine .bind (.attempt (hr.execute source statement timeoutMs ?_ ?_)) fun found => ?_
  · intro result d hd
    cases hd
  · exact .preview id limit
  split
  · exact .pure _
  · exact .throw _
  · exact .pure _
  · exact .throw _

theorem runCached (id : String) {key : String} (hkey : IsRowKey key) (source : Datasource)
    (statement : Query.Statement) (timeoutMs : Option Int) :
    (Service.runCached h id key source statement timeoutMs).Within R := by
  refine .bind .get fun w => ?_
  refine .bind (.attempt (hr.execute source statement timeoutMs ?_ hkey)) fun found => ?_
  · intro result d hd
    cases hd
  split
  · exact .pure _
  · exact .throw _
  · exact .pure _
  · exact .throw _

theorem query (userId id : String) (r : QueryRequest) (timeoutMs : Option Int) :
    (Service.query h userId id r timeoutMs).Within R := by
  refine .bind (hr.getDataset _ _) fun d => .bind .get fun w => ?_
  refine .bind (.clampLimit _) fun limit => .bind .chainBound fun bound => ?_
  refine .bind (.compileQuery (hr.getDataset userId) _ _ _) fun statement => ?_
  refine .bind (.datasourceFor (hr.getDataset userId) _) fun source => ?_
  exact .bind (.ofExcept _) fun hash => hr.runCached id (.query id hash) _ _ _

theorem runSql (userId id sql : String) (timeoutMs : Option Int) :
    (Service.runSql h userId id sql timeoutMs).Within R := by
  refine .bind (hr.getDataset _ _) fun d => .bind .get fun w => ?_
  refine .bind (.ofExcept _) fun violations => .refuseIf fun _ => ?_
  refine .bind (.datasourceFor (hr.getDataset userId) _) fun source => ?_
  exact .bind (.ofExcept _) fun hash => hr.runCached id (.query id hash) _ _ _

theorem answerWith (userId id : String) (seen : Seen) (o : Outcome) :
    (Service.answerWith h userId id seen o).Within R := by
  rcases answerWith_cases h userId id seen o with ⟨sql, _, hrun⟩ | ⟨e, hrun⟩
  · rw [hrun]
    exact .bind (.attempt (hr.runSql userId id sql none)) fun _ => .pure _
  · rw [hrun]
    exact .bind (.attempt (.bind (hr.getDataset userId id) fun _ => .throw e)) fun _ =>
      .pure _

theorem ask (userId id : String) (question : Value) (p : Pipeline) :
    (Service.ask h userId id question p).Within R := by
  refine .bind (.attempt (hr.getDataset userId id)) ?_
  rintro (e | d)
  · exact .pure _
  simp only
  split
  · exact .pure _
  split
  · exact .pure _
  split
  · exact .pure _
  · unfold answerResolved
    simp only
    split
    · exact .pure _
    · exact .pure _
    · split
      · exact .pure _
      · split
        · exact .pure _
        · exact hr.answerWith _ _ _ _
  · exact .pure _

theorem perform {o : Operation} (ho : o.OnlyReads) : (Service.perform h o).Within R := by
  cases o with
  | get userId id => exact .map (hr.getDataset userId id) _
  | search userId params => exact .map (.bind .get fun _ => .ofExcept _) _
  | preview userId id limit timeoutMs => exact .map (hr.preview userId id limit timeoutMs) _
  | query userId id request timeoutMs => exact .map (hr.query userId id request timeoutMs) _
  | runSql userId id sql timeoutMs => exact .map (hr.runSql userId id sql timeoutMs) _
  | ask userId id question pipeline => exact .map (hr.ask userId id question pipeline) _
  | _ => exact ho.elim

end Host.Reads

end DatasetCatalog.Service
