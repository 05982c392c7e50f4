import DatasetCatalog.Error
import DatasetCatalog.Text.DecimalDigit
import DatasetCatalog.Text.WordCharacter

/-!
# Names in SQL

A name begins with a word character that is no decimal digit and goes on with word characters. One
line feed at its end is let pass.
-/

namespace DatasetCatalog.Query

open Text

def isNameStart (c : Char) : Bool := isWord c && !isDecimal c

def isPlainName : List Char → Bool
  | [] => false
  | c :: rest => isNameStart c && rest.all isWord

def dropFinalNewline (cs : List Char) : List Char :=
  if cs.getLast? == some '\n' then cs.dropLast else cs

def isIdentifier (name : String) : Bool := isPlainName (dropFinalNewline name.toList)

def isTableName (name : String) : Bool :=
  let cs := dropFinalNewline name.toList
  let first := cs.takeWhile (· != '.')
  match cs.dropWhile (· != '.') with
  | [] => isPlainName first
  | _ :: second => isPlainName first && isPlainName second

/-- The name itself, if it may be written into SQL. -/
def checkedName (use : NameUse) (name : String) : Except Error String :=
  if isIdentifier name then .ok name else .error (.refused (.invalidName use name))

end DatasetCatalog.Query
