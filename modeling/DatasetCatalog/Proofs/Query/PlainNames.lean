import DatasetCatalog.Proofs.Query.NamesInUse
import DatasetCatalog.Proofs.Query.Spacing

/-!
# Plain names

No name that a compiled statement holds has a colon in it, for names are checked before they come
into a statement. A statement with plain names has its fragments well spaced.
-/

namespace DatasetCatalog.Query

open Text

/-- No name has a colon. -/
abbrev Expression.Plain (e : Expression) : Prop :=
  e.MadeOf (fun name => ':' ∉ name.toList) fun _ => True

abbrev Predicate.Plain (p : Predicate) : Prop := p.MadeOf fun name => ':' ∉ name.toList

abbrev Source.Plain (s : Source) : Prop :=
  s.MadeOf (fun name => ':' ∉ name.toList) fun _ => True

abbrev Select.Plain (s : Select) : Prop :=
  s.MadeOf (fun name => ':' ∉ name.toList) fun _ => True

abbrev Statement.Plain (s : Statement) : Prop :=
  s.MadeOf (fun name => ':' ∉ name.toList) fun _ => True

section Spacing

theorem opens_append {t : String} (h : opens t = true) (s : String) : opens (s ++ t) = true := by
  unfold opens at h ⊢
  rw [String.toList_append, List.getLast?_append]
  cases ht : t.toList.getLast? with
  | none => simp [ht] at h
  | some c =>
    rw [ht] at h
    exact h

theorem closes_append {s : String} (h : closes s = true) (t : String) : closes (s ++ t) = true := by
  unfold closes at h ⊢
  rw [String.toList_append, List.head?_append]
  cases hs : s.toList.head? with
  | none => simp [hs] at h
  | some c =>
    rw [hs] at h
    exact h

theorem no_colon_append {s t : String} (hs : ':' ∉ s.toList) (ht : ':' ∉ t.toList) :
    ':' ∉ (s ++ t).toList := by
  rw [String.toList_append, List.mem_append]
  rintro (h | h)
  · exact hs h
  · exact ht h

theorem no_colon_of_mem_signs : ∀ sign ∈ signs, ':' ∉ sign.toList := by decide

theorem spaced_trusted (sql : String) : Spaced [.trusted sql] :=
  ⟨.singleton _, fun _ h => by cases List.mem_singleton.mp h⟩

theorem spaced_param (v : Value) : Spaced [.param v] :=
  ⟨.singleton _, fun _ h => by cases List.mem_singleton.mp h⟩

theorem Expression.Plain.spaced {e : Expression} (h : e.Plain) : Spaced e.fragments := by
  induction e with
  | column name => exact .text h
  | star => exact .text (by decide)
  | trusted sql => exact spaced_trusted sql
  | aliased e name ih =>
    have hplain : ':' ∉ (" AS " ++ name).toList := no_colon_append (by decide) h.2
    exact (ih h.1).append_of_closes (.text hplain) (closes_append (by decide) name)
  | aggregate function e ih =>
    have hplain : ':' ∉ (Named.name function ++ "(").toList := by
      cases function <;> decide
    have hopen := (ih h).cons_text (opens_append (by decide) (Named.name function)) hplain
    exact hopen.append_of_closes (.text (by decide)) (by decide)
  | grouped e ih =>
    have hopen := (ih h).cons_text (s := "(") (by decide) (by decide)
    exact hopen.append_of_closes (.text (by decide)) (by decide)

theorem spaced_choice (values : List Value) :
    Spaced (joinFragments ", " (values.map fun v => [.param v])) := by
  refine .join (by decide) fun part hpart => ?_
  obtain ⟨v, -, rfl⟩ := List.mem_map.mp hpart
  exact spaced_param v

theorem Predicate.Plain.spaced {p : Predicate} (h : p.Plain) : Spaced p.fragments := by
  cases p with
  | comparison column sign v =>
    have hplain : ':' ∉ (column ++ " " ++ sign ++ " ").toList :=
      no_colon_append
        (no_colon_append (no_colon_append h.1 (by decide)) (no_colon_of_mem_signs sign h.2)) (by decide)
    exact (spaced_param v).cons_text (opens_append (by decide) _) hplain
  | inList column values =>
    have hplain : ':' ∉ (column ++ " IN (").toList := no_colon_append h (by decide)
    have hopen := (spaced_choice values).cons_text (opens_append (by decide) column) hplain
    exact hopen.append_of_closes (.text (by decide)) (by decide)
  | between column low high =>
    have hplain : ':' ∉ (column ++ " BETWEEN ").toList := no_colon_append h (by decide)
    have hrange := (spaced_param low).append_separated (s := " AND ") (by decide)
      (spaced_param high)
    exact hrange.cons_text (opens_append (by decide) column) hplain
  | nullCheck column negated =>
    have hnot : ':' ∉ (if negated then "NOT " else "").toList := by
      cases negated <;> decide
    exact .text (no_colon_append (no_colon_append (no_colon_append h (by decide)) hnot) (by decide))

theorem spaced_of_mem_conditions {ps : List Predicate} (h : ∀ p ∈ ps, p.Plain) :
    ∀ part ∈ ps.map Predicate.fragments, Spaced part := by
  intro part hpart
  obtain ⟨p, hp, rfl⟩ := List.mem_map.mp hpart
  exact (h p hp).spaced

theorem spaced_of_mem_columns {es : List Expression} (h : ∀ e ∈ es, e.Plain) :
    ∀ part ∈ es.map Expression.fragments, Spaced part := by
  intro part hpart
  obtain ⟨e, he, rfl⟩ := List.mem_map.mp hpart
  exact (h e he).spaced

theorem spaced_selectFragments {columns : List Expression} {source : List Fragment}
    {conditions : List Predicate} {groupBy : List String} {orderBy : Option Ordering}
    {limit : Option Value} (hcolumns : ∀ e ∈ columns, e.Plain) (hsource : Spaced source)
    (hconditions : ∀ p ∈ conditions, p.Plain) (hgroupBy : ∀ c ∈ groupBy, ':' ∉ c.toList)
    (horderBy : ∀ o ∈ orderBy, ':' ∉ o.column.toList) :
    Spaced (selectFragments columns source conditions groupBy orderBy limit) := by
  have hselect : Spaced (.text "SELECT " :: joinFragments ", " (columns.map _)) :=
    (Spaced.join (by decide) (spaced_of_mem_columns hcolumns)).cons_text (by decide) (by decide)
  have hfrom : Spaced (.text "FROM " :: source) := hsource.cons_text (by decide) (by decide)
  have hgroup : ∀ part ∈ groupBy.map fun c => [Fragment.text c], Spaced part := by
    intro part hpart
    obtain ⟨c, hc, rfl⟩ := List.mem_map.mp hpart
    exact .text (hgroupBy c hc)
  have horder : ∀ part ∈ orderBy.toList.map Ordering.fragments, Spaced part := by
    intro part hpart
    obtain ⟨o, ho, rfl⟩ := List.mem_map.mp hpart
    have hdirection : ':' ∉ (if o.descending then " DESC" else " ASC").toList := by
      cases o.descending <;> decide
    exact .text (no_colon_append (horderBy o (Option.mem_toList.mp ho)) hdirection)
  have hlimit : ∀ part ∈ limit.toList.map fun v => [Fragment.param v], Spaced part := by
    intro part hpart
    obtain ⟨v, -, rfl⟩ := List.mem_map.mp hpart
    exact spaced_param v
  refine .join (by decide) ?_
  simp only [List.forall_mem_append, List.forall_mem_cons]
  exact ⟨⟨⟨⟨⟨hselect, hfrom, nofun⟩,
    .of_mem_clauseFragments (by decide) (by decide) (by decide)
      (spaced_of_mem_conditions hconditions)⟩,
    .of_mem_clauseFragments (by decide) (by decide) (by decide) hgroup⟩,
    .of_mem_clauseFragments (by decide) (by decide) (by decide) horder⟩,
    .of_mem_clauseFragments (by decide) (by decide) (by decide) hlimit⟩

theorem Source.Plain.spaced {s : Source} (h : s.Plain) : Spaced s.fragments := by
  induction s with
  | table name schemaName =>
    unfold Source.fragments
    split
    · rename_i schema hschema
      obtain ⟨hmem, hgiven⟩ := Option.filter_eq_some_iff.mp hschema
      have hne : schema ≠ "" := by simpa using hgiven
      exact .text (no_colon_append (no_colon_append (h.2 schema hmem hne) (by decide)) h.1)
    · exact .text h.1
  | stored sql =>
    have hopen := (spaced_trusted sql).cons_text (s := "(") (by decide) (by decide)
    exact hopen.append_of_closes (.text (by decide)) (by decide)
  | view base computed conditions ih =>
    obtain ⟨hbase, hcomputed, hconditions⟩ := h
    have hselect : Spaced (selectFragments (.star :: computed) _ conditions [] none none) :=
      spaced_selectFragments (List.forall_mem_cons.mpr ⟨trivial, hcomputed⟩) (ih hbase) hconditions
        nofun nofun
    have hopen := hselect.cons_text (s := "(") (by decide) (by decide)
    exact hopen.append_of_closes (.text (by decide)) (by decide)

theorem Select.Plain.spaced {s : Select} (h : s.Plain) : Spaced s.fragments :=
  spaced_selectFragments h.columns (Source.Plain.spaced h.source) h.conditions h.groupBy h.orderBy

theorem Statement.Plain.spaced {s : Statement} (h : s.Plain) : Spaced s.fragments := by
  cases s with
  | select s => exact Select.Plain.spaced h
  | free sql => exact spaced_trusted sql

end Spacing

end DatasetCatalog.Query
