import DatasetCatalog.Text.Blank
import DatasetCatalog.Text.Percent

/-!
# Addresses

Of an address only its path and its query matter. Dots in a path lead nowhere and up, and what is
left is decoded when it is sent and again when it arrives.
-/

namespace DatasetCatalog.Web

open Text

structure Address where
  path : List Char
  query : List Char
deriving DecidableEq, Repr

/-- The path after one more part: a dot changes nothing, and two take the last part away, but not
the root. The parts stand in reverse. -/
def followPart (parts : List (List Char)) (part : List Char) : List (List Char) :=
  if part == ['.'] then parts
  else if part == ['.', '.'] then (if parts == [[]] then parts else parts.drop 1)
  else part :: parts

/-- The path without parts that are dots. -/
def resolveDots (path : List Char) : List Char :=
  List.intercalate ['/'] ((path.splitOn '/').foldl followPart []).reverse

def isSchemeChar (c : Char) : Bool := c.isAlphanum || c == '+' || c == '.' || c == '-'

/-- The scheme in front of a colon, and the rest. -/
def splitScheme (cs : List Char) : List Char × List Char :=
  let scheme := cs.takeWhile isSchemeChar
  match cs.dropWhile isSchemeChar with
  | ':' :: rest => if scheme.head?.all Char.isAlpha then (scheme, rest) else ([], cs)
  | _ => ([], cs)

/-- The authority behind two slashes, and the rest. -/
def splitAuthority (cs : List Char) : List Char × List Char :=
  match cs with
  | '/' :: '/' :: rest => rest.span fun c => c != '/' && c != '?'
  | _ => ([], cs)

def isControl (c : Char) : Bool := c.toNat < 0x20 || c.toNat == 0x7F

def arrivingPath (path : List Char) : List Char := percentDecode (percentDecode (resolveDots path))

/-- Read an address. One without a scheme and a host is taken from the root. -/
def Address.ofText? (target : String) : Option Address :=
  let cs := target.toList
  let (scheme, rest) := splitScheme (cs.takeWhile (· != '#'))
  let (authority, rest) := splitAuthority rest
  let path := rest.takeWhile (· != '?')
  let isBare := scheme.isEmpty && authority.isEmpty
  if cs.any isControl || (isBare && (['/', '/'].isPrefixOf path || [':'].isPrefixOf path)) then none
  else
    let isAbsolute := !scheme.isEmpty && !authority.isEmpty
    let fromRoot := if isAbsolute then path else '/' :: path.dropWhile (· == '/')
    some ⟨arrivingPath fromRoot, (rest.dropWhile (· != '?')).drop 1⟩

/-- Where a path that ends with slashes leads without them: it is written out, so it is decoded only
once more. -/
def withoutSlashes? (path : List Char) : Option (List Char) :=
  if path.getLast? == some '/' then some (dropEndWhile (· == '/') path) else none

def redirected (path : List Char) : List Char := percentDecode (resolveDots path)

def segments (path : List Char) : List String := (path.splitOn '/').map String.ofList

/-- A piece of a query; plus signs are blanks. -/
def queryText (cs : List Char) : String :=
  String.ofList (percentDecode (cs.map fun c => if c == '+' then ' ' else c))

def Address.params (a : Address) : List (String × String) :=
  ((a.query.splitOn '&').filter (!·.isEmpty)).map fun piece =>
    (queryText (piece.takeWhile (· != '=')), queryText ((piece.dropWhile (· != '=')).drop 1))

end DatasetCatalog.Web
