import DatasetCatalog.Proofs.Query.Blank
import DatasetCatalog.Proofs.Query.PlainNames
import DatasetCatalog.Proofs.Query.WordNames
import Mathlib.Data.List.Nodup

/-!
# Named text

The names marked in the named text of a statement are those of its parameters, one for each. No SQL
of a dataset adds a mark, takes one away or runs into one.
-/

namespace DatasetCatalog.Query

open Text

theorem no_colon_of_accepts {use : NameUse} {name : String} (h : use.accepts name = true) :
    ':' ∉ name.toList := by
  intro hmem
  rcases words_of_accepts h ':' hmem with hword | hpoint | hnewline
  · rw [isWord_colon] at hword
    cases hword
  · cases hpoint
  · cases hnewline

section Compiled
variable {σ : Type} {resolve : Option (Resolver (StateM σ))} {fuel : Nat} {d : Dataset} {s s' : σ}
  {q : Statement}

theorem compileQuery_plain {r : QueryRequest}
    (h : compileQuery resolve fuel r d s = (.ok q, s')) : q.Plain := by
  obtain ⟨chain, _, haccepted, hmade⟩ := compileQuery_madeOf h
  exact hmade _ _ (fun use name hname => no_colon_of_accepts (haccepted use name hname))
    fun _ _ _ _ => trivial

theorem compilePreview_plain {limit : Int}
    (h : compilePreview resolve fuel d limit s = (.ok q, s')) : q.Plain := by
  obtain ⟨chain, _, haccepted, hmade⟩ := compilePreview_madeOf h
  exact hmade _ _ (fun d' hd' use name hname => no_colon_of_accepts (haccepted d' hd' use name hname))
    fun _ _ _ _ => trivial

end Compiled

/-- The statements there are: compiled queries, compiled previews, and SQL from elsewhere. -/
inductive Produced : Statement → Prop
  | query {σ : Type} {resolve : Option (Resolver (StateM σ))} {fuel : Nat} {r : QueryRequest}
      {d : Dataset} {s s' : σ} {q : Statement} :
      compileQuery resolve fuel r d s = (.ok q, s') → Produced q
  | preview {σ : Type} {resolve : Option (Resolver (StateM σ))} {fuel : Nat} {d : Dataset}
      {limit : Int} {s s' : σ} {q : Statement} :
      compilePreview resolve fuel d limit s = (.ok q, s') → Produced q
  | free (sql : String) : Produced (.free sql)

theorem Produced.plain {q : Statement} (h : Produced q) : q.Plain := by
  cases h with
  | query h => exact compileQuery_plain h
  | preview h => exact compilePreview_plain h
  | free sql => exact trivial

/-- The names marked in a text. -/
def markedNames (sql : String) : List String := (bindMarkers none sql.toList).map String.ofList

theorem Statement.Plain.markedNames_namedSql {q : Statement} (h : q.Plain) :
    markedNames q.namedSql = (List.range q.params.length).map parameterName := by
  rw [markedNames, q.namedSql_eq, q.params_eq, String.toList_ofList,
    bindMarkers_printNamed h.spaced (fun _ _ => rfl), List.map_map, ← List.range_eq_range']
  exact List.map_congr_left fun i _ => String.ofList_toList

/-- The names marked in the named text of a statement are `p0`, `p1`, … up to the number of its
parameters, each once, and they are the keys under which the parameters are bound. -/
theorem marked_names_are_parameters {q : Statement} (h : Produced q) :
    markedNames q.namedSql = (List.range q.params.length).map parameterName ∧
      markedNames q.namedSql = q.namedParams.map (·.1) ∧ (markedNames q.namedSql).Nodup := by
  have hmarked := h.plain.markedNames_namedSql
  refine ⟨hmarked, ?_, ?_⟩
  · rw [hmarked, q.namedParams_eq, namedParams_keys]
  · rw [hmarked]
    exact List.nodup_range.map parameterName_injective

theorem marked_names_are_parameters_over_stored_sql :
    let base : Dataset :=
      { id := "b", userId := "u", name := "b", displayName := "b", type := .sql
        sqlConfig := some
          { datasourceId := "s", sql := "SELECT a::int, ':p1' FROM t WHERE b = :p0 OR c = :" }
        createdAt := Time.Moment.start2024, updatedAt := Time.Moment.start2024 }
    let total : Field :=
      { name := "total", displayName := "total", fieldType := .calculated
        expression := some ":x + 1" }
    let view : Dataset :=
      { base with
        id := "v", type := .view, sqlConfig := none, fields := [total]
        viewConfig := some { baseDatasetId := "b", filters := [⟨"a", "in", .list [.int 1]⟩] } }
    let request : QueryRequest := { measures := ["total"] }
    let resolve : Option (Resolver (StateM Unit)) := some fun _ => pure base
    ∃ q, compileQuery resolve 3 request view () = (.ok q, ()) ∧
      markedNames q.namedSql = ["p0", "p1"] ∧ q.namedParams.map (·.1) = ["p0", "p1"] := by
  intro base total view request resolve
  have hq : ∃ q, compileQuery resolve 3 request view () = (.ok q, ()) ∧ q.params.length = 2 :=
    ⟨_, rfl, rfl⟩
  obtain ⟨q, hq, hlength⟩ := hq
  obtain ⟨hmarked, hkeys, -⟩ := marked_names_are_parameters (.query hq)
  have hnames : markedNames q.namedSql = ["p0", "p1"] := by
    rw [hmarked, hlength]
    rfl
  exact ⟨q, hq, hnames, hkeys ▸ hnames⟩

end DatasetCatalog.Query
