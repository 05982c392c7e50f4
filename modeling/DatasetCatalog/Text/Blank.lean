/-!
# Blanks

The blanks are the Unicode white space characters and the four information separators of ASCII.
Stripping removes them at both ends of a text.
-/

namespace DatasetCatalog.Text

def isBlank (c : Char) : Bool :=
  let n := c.toNat
  (9 ≤ n && n ≤ 13) || (28 ≤ n && n ≤ 32) || n == 0x85 || n == 0xA0 || n == 0x1680 ||
    (0x2000 ≤ n && n ≤ 0x200A) || n == 0x2028 || n == 0x2029 || n == 0x202F || n == 0x205F ||
    n == 0x3000

/-- Drop the longest end of `cs` whose characters satisfy `p`. -/
def dropEndWhile (p : Char → Bool) (cs : List Char) : List Char :=
  (cs.reverse.dropWhile p).reverse

def stripBlanks (cs : List Char) : List Char := dropEndWhile isBlank (cs.dropWhile isBlank)

def strip (s : String) : String := String.ofList (stripBlanks s.toList)

/-- A blank that is Unicode white space. -/
def isWhite (c : Char) : Bool := isBlank c && !(28 ≤ c.toNat && c.toNat ≤ 31)

def trimWhite (cs : List Char) : List Char := dropEndWhile isWhite (cs.dropWhile isWhite)

def fieldsBy (sep : Char → Bool) (cs : List Char) : List (List Char) :=
  (cs.splitBy fun a b => sep a == sep b).filter fun run => run.any (!sep ·)

end DatasetCatalog.Text
