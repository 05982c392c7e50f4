import DatasetCatalog.Json.Canonical

/-!
# Compact texts

Texts as JSON that is sent or kept has them: only quotes, backslashes and control characters are
escaped, and all else stands as it is.
-/

namespace DatasetCatalog.Json

def compactChar (c : Char) : List Char := if c ≤ '~' then escapeChar c else [c]

def compactText (s : String) : List Char := '"' :: s.toList.flatMap compactChar ++ ['"']

end DatasetCatalog.Json
