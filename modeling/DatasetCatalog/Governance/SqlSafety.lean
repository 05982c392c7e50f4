import DatasetCatalog.Error
import DatasetCatalog.Governance.SqlText
import DatasetCatalog.Text.Search

/-!
# Safety of free SQL

SQL that was not compiled here has to be one reading statement with a bounded number of rows,
without comments and without system schemas. Literals are blanked out first, so their contents do
not matter.
-/

namespace DatasetCatalog.Governance

open Text Number

inductive Violation where
  | notSelect
  | manyStatements
  | writeKeyword (keyword : String)
  | lineComment
  | blockComment
  | systemSchemas (names : List String)
  | noLimit (maxRows : Int)
  | limitTooHigh (limit : Nat) (maxRows : Int)
deriving DecidableEq, Repr

def Violation.message : Violation → String
  | .notSelect => "SQL must be a SELECT statement."
  | .manyStatements =>
    "Multi-statement SQL is not allowed (found ';' followed by another statement)."
  | .writeKeyword keyword => "Dangerous keyword detected: '" ++ keyword ++ "'."
  | .lineComment => "Inline comments (--) are not allowed."
  | .blockComment => "Block comments (/* */) are not allowed."
  | .systemSchemas names =>
    "Blocked schema referenced: " ++
      ", ".intercalate (names.map fun n => "'" ++ n ++ "'") ++ "."
  | .noLimit maxRows => "SQL must include a LIMIT clause (max " ++ intText maxRows ++ ")."
  | .limitTooHigh limit maxRows =>
    "LIMIT " ++ intText limit ++ " exceeds maximum allowed (" ++ intText maxRows ++ ")."

/-- Keywords that write, each as one or two words. -/
def writeKeywords : List (List (List Char)) :=
  [["drop"], ["alter"], ["truncate"], ["insert"], ["update"], ["delete"], ["merge"], ["grant"],
    ["revoke"], ["create"], ["replace"], ["execute"], ["exec"], ["call"], ["copy"], ["attach"],
    ["detach"], ["pragma"], ["vacuum"], ["set", "role"], ["reset", "role"]].map
    (·.map String.toList)

def blockedSchemas : List (List Char) :=
  ["pg_catalog", "information_schema", "mysql", "sys"].map String.toList

def isReading (cs : List Char) : Bool :=
  let head := (cs.dropWhile fun c => c == '(' || c == ' ' || c == '\n' || c == '\t').flatMap
    upperChar
  "SELECT".toList.isPrefixOf head || "WITH".toList.isPrefixOf head

def hasSecondStatement : List Char → Bool
  | [] => false
  | c :: rest => (c == ';' && !rest.all isBlank) || hasSecondStatement rest

def writeKeywordAt? (cs : List Char) : Option (List (List Char)) :=
  writeKeywords.findSome? fun keyword =>
    match splitWords? keyword cs with
    | some (read, rest) => if beginsWithWord rest then none else some read
    | none => none

def keywordText (words : List (List Char)) : String :=
  String.ofList (List.intercalate [' '] (words.map (·.flatMap upperChar)))

def firstWriteKeyword? (cs : List Char) : Option String :=
  ((wordStarts false cs).findSome? writeKeywordAt?).map keywordText

def schemaAt? (cs : List Char) : Option String :=
  blockedSchemas.findSome? fun schema =>
    match splitWord? schema cs with
    | some (read, rest) =>
      if (rest.dropWhile isBlank).head? == some '.' then some (lower (String.ofList read))
      else none
    | none => none

def referredSchemas (cs : List Char) : List String :=
  (((wordStarts false cs).filterMap schemaAt?).eraseDups).mergeSort fun a b => decide (a ≤ b)

/-- The digits after a `LIMIT` at the beginning of the text. -/
def limitDigitsAt? (cs : List Char) : Option (List Char) := do
  let (_, rest) ← splitWord? "limit".toList cs
  let digits := (← skipBlanks? rest).takeWhile isDecimal
  if digits.isEmpty then none else some digits

def limits (cs : List Char) : Except Breakdown (List Nat) :=
  ((wordStarts false cs).filterMap limitDigitsAt?).mapM fun digits =>
    if maxDigits < digits.length then .error .badValue else .ok (digitsValue digits)

/-- The last limit is taken to bound the outermost statement. -/
def limitViolation? (cs : List Char) (maxRows : Int) : Except Breakdown (Option Violation) := do
  match (← limits cs).getLast? with
  | none => return some (.noLimit maxRows)
  | some n => return if maxRows < n then some (.limitTooHigh n maxRows) else none

/-- The text that the rules look at: literals blanked out, no blanks or semicolons at the end. -/
def normalStatement (sql : String) : List Char :=
  let blanked := blankLiterals (stripBlanks sql.toList)
  dropEndWhile isBlank (dropEndWhile (· == ';') (dropEndWhile isBlank blanked))

/-- What is wrong with an SQL text; nothing if it may be executed. -/
def sqlViolations (sql : String) (maxRows : Int) : Except Breakdown (List Violation) := do
  let cs := normalStatement sql
  let schemas := referredSchemas cs
  let limit ← limitViolation? cs maxRows
  return (if isReading cs then [] else [.notSelect]) ++
    (if hasSecondStatement cs then [.manyStatements] else []) ++
    ((firstWriteKeyword? cs).map .writeKeyword).toList ++
    (if occursIn "--".toList cs then [.lineComment] else []) ++
    (if occursIn "/*".toList cs then [.blockComment] else []) ++
    (if schemas.isEmpty then [] else [.systemSchemas schemas]) ++
    limit.toList

end DatasetCatalog.Governance
