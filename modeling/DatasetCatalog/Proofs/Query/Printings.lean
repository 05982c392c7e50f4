import DatasetCatalog.Proofs.Query.Blank
import Mathlib.Data.List.Zip

/-!
# Two printings of one sequence

The two texts of a statement are printed from one sequence of fragments, with the same values in
the same order. They agree piece by piece: without the backslashes that were put in, and with a
question mark for each named placeholder, the named text is the other one. Where a backslash goes is
told by the place of a colon alone.
-/

namespace DatasetCatalog.Query

open Text

/-- A piece of the named text: a character of the statement, a backslash that was put in, or a
placeholder with its number. -/
inductive Piece where
  | kept (c : Char)
  | backslash
  | placeholder (i : Nat)

namespace Piece

def named : Piece → List Char
  | kept c => [c]
  | backslash => ['\\']
  | placeholder i => (":p" ++ toString i).toList

/-- Without backslashes that were put in, and without names. -/
def stripped : Piece → List Char
  | kept c => [c]
  | backslash => []
  | placeholder _ => ['?']

def number? : Piece → Option Nat
  | placeholder i => some i
  | _ => none

end Piece

/-- At a place of a text stands a colon that could mark a name: a word character comes behind it, and
neither a word character nor a colon nor a backslash before it. -/
def marksAt (cs : List Char) (place : Nat) : Bool :=
  cs[place]? == some ':' && cs[place + 1]?.any isWord &&
    (place == 0 || cs[place - 1]?.all fun c => c != ':' && c != '\\' && !isWord c)

/-- Trusted SQL with a backslash before every colon that could mark a name. -/
def trustedPieces (cs : List Char) : List Piece :=
  cs.zipIdx.flatMap fun e => if marksAt cs e.2 then [.backslash, .kept e.1] else [.kept e.1]

def pieces (next : Nat) : List Fragment → List Piece
  | [] => []
  | .text s :: rest => s.toList.map .kept ++ pieces next rest
  | .trusted sql :: rest => trustedPieces sql.toList ++ pieces next rest
  | .param _ :: rest => .placeholder next :: pieces (next + 1) rest

/-- Parameters are bound under their names in order. -/
theorem namedParams_eq_zip (params : List Value) :
    namedParams params = ((List.range params.length).map fun i => "p" ++ toString i).zip params := by
  have hswap : params.zipIdx = ((List.range params.length).zip params).map Prod.swap := by
    rw [List.zip_swap, List.range_eq_range', ← List.zipIdx_eq_zip_range']
  rw [namedParams, hswap, List.map_map, List.zip_map_left]
  rfl

theorem named_placeholder (i : Nat) :
    (Piece.placeholder i).named = ':' :: (parameterName i).toList := by
  have hname : parameterName i = "p" ++ toString i := rfl
  rw [hname, Piece.named, String.toList_append, String.toList_append]
  rfl

section Trusted

/-- Whether a colon could mark a name depends on the characters beside it. -/
theorem marksAt_length (done rest : List Char) (c : Char) :
    marksAt (done ++ c :: rest) done.length =
      (c == ':' && couldMarkName done.getLast? rest.head?) := by
  have hhere : (done ++ c :: rest)[done.length]? = some c := by simp
  have hbehind : (done ++ c :: rest)[done.length + 1]? = rest.head? := by
    simp [List.getElem?_append_right, List.head?_eq_getElem?]
  have hbefore : (done.length == 0 || (done ++ c :: rest)[done.length - 1]?.all
      fun c => c != ':' && c != '\\' && !isWord c) =
      !done.getLast?.any fun c => c == ':' || c == '\\' || isWord c := by
    rcases List.eq_nil_or_concat done with rfl | ⟨init, d, rfl⟩
    · rfl
    · simp [List.concat_eq_append, bne, Bool.not_or]
  rw [marksAt, hhere, hbehind, hbefore, couldMarkName, Bool.and_assoc]
  rfl

/-- The pieces of the rest of a text, behind what is done of it. -/
def piecesBehind (done rest : List Char) : List Piece :=
  (rest.zipIdx done.length).flatMap fun e =>
    if marksAt (done ++ rest) e.2 then [.backslash, .kept e.1] else [.kept e.1]

theorem piecesBehind_cons (done rest : List Char) (c : Char) :
    piecesBehind done (c :: rest) =
      (if c == ':' && couldMarkName done.getLast? rest.head? then [.backslash, .kept c]
        else [.kept c]) ++ piecesBehind (done ++ [c]) rest := by
  rw [piecesBehind, List.zipIdx_cons, List.flatMap_cons, marksAt_length, piecesBehind,
    List.length_append, List.append_assoc]
  rfl

theorem named_piecesBehind (done rest : List Char) :
    (piecesBehind done rest).flatMap Piece.named = escapeMarks done.getLast? rest := by
  induction rest generalizing done with
  | nil => rfl
  | cons c rest ih =>
    rw [piecesBehind_cons, escapeMarks, List.flatMap_append, ih, List.getLast?_concat]
    split
    · rename_i hmark
      rw [Bool.and_eq_true, beq_iff_eq] at hmark
      rw [hmark.1]
      rfl
    · rfl

theorem named_trustedPieces (cs : List Char) :
    (trustedPieces cs).flatMap Piece.named = escapeMarks none cs :=
  named_piecesBehind [] cs

theorem stripped_trustedPieces (cs : List Char) :
    (trustedPieces cs).flatMap Piece.stripped = cs := by
  have hpiece : ∀ p ∈ cs.zipIdx, (if marksAt cs p.2 then [Piece.backslash, .kept p.1]
      else [.kept p.1]).flatMap Piece.stripped = [p.1] := by
    intro p _
    split <;> rfl
  rw [trustedPieces, List.flatMap_assoc, List.flatMap_congr hpiece, ← List.map_eq_flatMap,
    List.zipIdx_map_fst]

theorem number?_trustedPieces (cs : List Char) :
    (trustedPieces cs).filterMap Piece.number? = [] := by
  rw [List.filterMap_eq_nil_iff]
  intro p hp
  obtain ⟨e, _, hp⟩ := List.mem_flatMap.mp hp
  split at hp <;> simp only [List.mem_cons, List.not_mem_nil, or_false] at hp
  · rcases hp with rfl | rfl <;> rfl
  · subst hp
    rfl

end Trusted

theorem named_pieces (next : Nat) (fs : List Fragment) :
    (pieces next fs).flatMap Piece.named = printNamed next fs := by
  induction fs generalizing next with
  | nil => rfl
  | cons f rest ih =>
    cases f with
    | text s => simp [pieces, printNamed, ih, List.flatMap_map, Piece.named]
    | trusted sql => simp [pieces, printNamed, ih, named_trustedPieces]
    | param v => simp [pieces, printNamed, ih, named_placeholder]

theorem stripped_pieces (next : Nat) (fs : List Fragment) :
    (pieces next fs).flatMap Piece.stripped = printQmark fs := by
  induction fs generalizing next with
  | nil => rfl
  | cons f rest ih =>
    cases f with
    | text s => simp [pieces, printQmark, ih, List.flatMap_map, Piece.stripped]
    | trusted sql => simp [pieces, printQmark, ih, stripped_trustedPieces]
    | param v => simp [pieces, printQmark, ih, Piece.stripped]

/-- Placeholders are numbered in the order in which they stand. -/
theorem number?_pieces (next : Nat) (fs : List Fragment) :
    (pieces next fs).filterMap Piece.number? = List.range' next (paramsOf fs).length := by
  induction fs generalizing next with
  | nil => rfl
  | cons f rest ih =>
    cases f with
    | text s => simp [pieces, paramsOf, ih, List.filterMap_map, Piece.number?, Function.comp_def]
    | trusted sql => simp [pieces, paramsOf, ih, number?_trustedPieces]
    | param v => simp [pieces, paramsOf, ih, Piece.number?, List.range'_succ]

/-- Both texts of a statement print its fragments, with one list of values, which the named text binds
as `p0`, `p1`, and so on. The pieces of the named text are those of the other one apart from the
backslashes and the names of placeholders, which are numbered from left to right. -/
theorem printings_of_fragments (q : Statement) :
    q.sql = String.ofList (printQmark q.fragments) ∧
      q.params = paramsOf q.fragments ∧
      q.namedParams =
        ((List.range q.params.length).map fun i => "p" ++ toString i).zip q.params ∧
      q.namedSql = String.ofList ((pieces 0 q.fragments).flatMap Piece.named) ∧
      q.sql = String.ofList ((pieces 0 q.fragments).flatMap Piece.stripped) ∧
      (pieces 0 q.fragments).filterMap Piece.number? = List.range q.params.length := by
  refine ⟨q.sql_eq, q.params_eq, ?_, ?_, ?_, ?_⟩
  · rw [q.namedParams_eq, namedParams_eq_zip]
  · rw [named_pieces, q.namedSql_eq]
  · rw [stripped_pieces, q.sql_eq]
  · rw [number?_pieces, q.params_eq, List.range_eq_range']

/-- Values of a view's own filters are bound before those of a query over it. -/
example :
    let view : Source := .view (.table "t" none) [] [.inList "a" [.int 1, .int 2]]
    (Statement.select
      { columns := [.column "b"], source := view, conditions := [.nullCheck "b" true]
        limit := .int 5 }).namedSql =
      "SELECT b FROM (SELECT * FROM t WHERE a IN (:p0, :p1)) AS view_query WHERE b IS NOT NULL LIMIT :p2" := by
  rfl

end DatasetCatalog.Query
