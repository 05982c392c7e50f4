import DatasetCatalog.Proofs.Query.Fragments
import DatasetCatalog.Proofs.Query.WordNames

/-!
# Written names

The text of a query, but for the SQL that its datasets define, is put together from fixed texts and
from names in use, and these are words, behind which a line feed may stand. Any other name is refused
wherever it is used.
-/

namespace DatasetCatalog.Query

open Text

/-- The texts that a statement is written with whatever its names are. -/
def fixedTexts : List String :=
  ["*", " AS ", "(", ")", " ", " IN (", ", ", " BETWEEN ", " AND ", " IS ", "NOT ", "", "NULL",
    " DESC", " ASC", "SELECT ", "FROM ", "WHERE ", "GROUP BY ", "ORDER BY ", "LIMIT ", ".",
    ") AS subquery", ") AS view_query"] ++
    signs ++ [AggregationType.sum, .avg, .count, .max, .min].map Named.name

/-- A text is put together from fixed texts and from names with a property. -/
inductive Composed (P : String → Prop) : String → Prop
  | fixed {t : String} : t ∈ fixedTexts → Composed P t
  | name {t : String} : P t → Composed P t
  | append {s t : String} : Composed P s → Composed P t → Composed P (s ++ t)

/-- The texts of fragments are composed of names with a property, and what is trusted has another. -/
inductive Written (P T : String → Prop) : List Fragment → Prop
  | nil : Written P T []
  | text {s : String} {fs : List Fragment} : Composed P s → Written P T fs →
      Written P T (.text s :: fs)
  | trusted {sql : String} {fs : List Fragment} : T sql → Written P T fs →
      Written P T (.trusted sql :: fs)
  | param {v : Value} {fs : List Fragment} : Written P T fs → Written P T (.param v :: fs)

variable {P T : String → Prop}

theorem Composed.aggregation (function : AggregationType) : Composed P (Named.name function) := by
  have hmem : Named.name function ∈ fixedTexts := by cases function <;> decide
  exact .fixed hmem

theorem Composed.sign {sign : String} (h : sign ∈ signs) : Composed P sign :=
  .fixed (List.mem_append_left _ (List.mem_append_right _ h))

namespace Written
variable {fs gs : List Fragment}

theorem append (hf : Written P T fs) (hg : Written P T gs) : Written P T (fs ++ gs) := by
  induction hf with
  | nil => exact hg
  | text hs _ ih => exact .text hs ih
  | trusted hsql _ ih => exact .trusted hsql ih
  | param _ ih => exact .param ih

/-- Fragments between two fixed texts. -/
theorem enclosed {left right : String} (hleft : Composed P left) (hright : right ∈ fixedTexts)
    (h : Written P T fs) : Written P T (.text left :: fs ++ [.text right]) :=
  .text hleft (h.append (.text (.fixed hright) .nil))

theorem join {separator : String} (hseparator : separator ∈ fixedTexts)
    {parts : List (List Fragment)} (h : ∀ part ∈ parts, Written P T part) :
    Written P T (joinFragments separator parts) := by
  induction parts with
  | nil => exact .nil
  | cons part rest ih =>
    obtain ⟨hpart, hrest⟩ := List.forall_mem_cons.mp h
    cases rest with
    | nil => exact hpart
    | cons next rest => exact hpart.append (.text (.fixed hseparator) (ih hrest))

theorem of_mem_clauseFragments {keyword separator : String} (hkeyword : keyword ∈ fixedTexts)
    (hseparator : separator ∈ fixedTexts) {parts : List (List Fragment)}
    (h : ∀ part ∈ parts, Written P T part) :
    ∀ part ∈ clauseFragments keyword separator parts, Written P T part := by
  unfold clauseFragments
  split
  · exact nofun
  · exact List.forall_mem_singleton.mpr (.text (.fixed hkeyword) (.join hseparator h))

theorem of_values (values : List Value) :
    ∀ part ∈ values.map fun v => [Fragment.param v], Written P T part :=
  List.forall_mem_map.mpr fun _ _ => .param .nil

end Written

theorem Expression.MadeOf.written {e : Expression} (h : e.MadeOf P T) : Written P T e.fragments := by
  induction e with
  | column name => exact .text (.name h) .nil
  | star => exact .text (.fixed (by decide)) .nil
  | trusted sql => exact .trusted h .nil
  | aliased e name ih =>
    have halias : Composed P (" AS " ++ name) := .append (.fixed (by decide)) (.name h.2)
    exact (ih h.1).append (.text halias .nil)
  | aggregate function e ih =>
    have hopen : Composed P (Named.name function ++ "(") :=
      .append (.aggregation function) (.fixed (by decide))
    exact .enclosed hopen (by decide) (ih h)
  | grouped e ih => exact .enclosed (.fixed (by decide)) (by decide) (ih h)

theorem Predicate.MadeOf.written {p : Predicate} (h : p.MadeOf P) : Written P T p.fragments := by
  cases p with
  | comparison column sign v =>
    have hspace : Composed P " " := .fixed (by decide)
    have hcolumn : Composed P (column ++ " ") := .append (.name h.1) hspace
    exact .text (.append (.append hcolumn (.sign h.2)) hspace) (.param .nil)
  | inList column values =>
    have hopen : Composed P (column ++ " IN (") := .append (.name h) (.fixed (by decide))
    exact .enclosed hopen (by decide) (.join (by decide) (.of_values values))
  | between column low high =>
    have hopen : Composed P (column ++ " BETWEEN ") := .append (.name h) (.fixed (by decide))
    exact .text hopen (.param (.text (.fixed (by decide)) (.param .nil)))
  | nullCheck column negated =>
    have his : Composed P (column ++ " IS ") := .append (.name h) (.fixed (by decide))
    have hnot : Composed P (if negated then "NOT " else "") := by
      cases negated with
      | true => exact .fixed (by decide)
      | false => exact .fixed (by decide)
    exact .text (.append (.append his hnot) (.fixed (by decide))) .nil

theorem Ordering.written {o : Ordering} (h : P o.column) : Written P T o.fragments := by
  have hdirection : Composed P (if o.descending then " DESC" else " ASC") := by
    cases o.descending with
    | true => exact .fixed (by decide)
    | false => exact .fixed (by decide)
  exact .text (.append (.name h) hdirection) .nil

theorem written_selectFragments {columns : List Expression} {source : List Fragment}
    {conditions : List Predicate} {groupBy : List String} {orderBy : Option Ordering}
    {limit : Option Value} (hcolumns : ∀ e ∈ columns, e.MadeOf P T)
    (hsource : Written P T source) (hconditions : ∀ p ∈ conditions, p.MadeOf P)
    (hgroupBy : ∀ name ∈ groupBy, P name) (horderBy : ∀ o ∈ orderBy, P o.column) :
    Written P T (selectFragments columns source conditions groupBy orderBy limit) := by
  have hcolumns' : ∀ part ∈ columns.map Expression.fragments, Written P T part :=
    List.forall_mem_map.mpr fun e he => (hcolumns e he).written
  have hselect : Written P T (.text "SELECT " :: joinFragments ", " (columns.map _)) :=
    .text (.fixed (by decide)) (.join (by decide) hcolumns')
  have hfrom : Written P T (.text "FROM " :: source) := .text (.fixed (by decide)) hsource
  have hwhere : ∀ part ∈ conditions.map Predicate.fragments, Written P T part :=
    List.forall_mem_map.mpr fun p hp => (hconditions p hp).written
  have hgroup : ∀ part ∈ groupBy.map fun c => [Fragment.text c], Written P T part :=
    List.forall_mem_map.mpr fun name hname => .text (.name (hgroupBy name hname)) .nil
  have horder : ∀ part ∈ orderBy.toList.map Ordering.fragments, Written P T part :=
    List.forall_mem_map.mpr fun o ho => Ordering.written (horderBy o (Option.mem_toList.mp ho))
  refine .join (by decide) ?_
  simp only [List.forall_mem_append, List.forall_mem_cons]
  exact ⟨⟨⟨⟨⟨hselect, hfrom, nofun⟩, .of_mem_clauseFragments (by decide) (by decide) hwhere⟩,
    .of_mem_clauseFragments (by decide) (by decide) hgroup⟩,
    .of_mem_clauseFragments (by decide) (by decide) horder⟩,
    .of_mem_clauseFragments (by decide) (by decide) (.of_values _)⟩

theorem Source.MadeOf.written {s : Source} (h : s.MadeOf P T) : Written P T s.fragments := by
  induction s with
  | table name schemaName =>
    obtain ⟨hname, hschemas⟩ := h
    refine .text ?_ .nil
    cases hgiven : schemaName.filter (!·.isEmpty) with
    | none => exact .name hname
    | some schema =>
      obtain ⟨hmem, hnonempty⟩ := Option.filter_eq_some_iff.mp hgiven
      have hschema : Composed P schema := .name (hschemas schema hmem (by simpa using hnonempty))
      exact (hschema.append (.fixed (by decide))).append (.name hname)
  | stored sql => exact .enclosed (.fixed (by decide)) (by decide) (.trusted h .nil)
  | view base computed conditions ih =>
    obtain ⟨hbase, hcomputed, hconditions⟩ := h
    have hcolumns : ∀ e ∈ Expression.star :: computed, e.MadeOf P T :=
      List.forall_mem_cons.mpr ⟨trivial, hcomputed⟩
    have hselect : Written P T
        (selectFragments (.star :: computed) base.fragments conditions [] none none) :=
      written_selectFragments hcolumns (ih hbase) hconditions nofun nofun
    exact .enclosed (.fixed (by decide)) (by decide) hselect

theorem Statement.MadeOf.written {q : Statement} (h : q.MadeOf P T) : Written P T q.fragments := by
  cases q with
  | select s =>
    exact written_selectFragments h.columns (Source.MadeOf.written h.source) h.conditions h.groupBy
      h.orderBy
  | free sql => exact .trusted h .nil

section Queries
variable {σ : Type} {resolve : Option (Resolver (StateM σ))} {fuel : Nat} {r : QueryRequest}
  {d : Dataset} {s : σ}

end Queries

end DatasetCatalog.Query
