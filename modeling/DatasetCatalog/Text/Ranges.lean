/-!
# Ranges of code points

Properties of characters are given as sorted lists of closed ranges.
-/

namespace DatasetCatalog.Text

def inRanges : List (Nat × Nat) → Nat → Bool
  | [], _ => false
  | (first, last) :: rest, n => (first ≤ n && n ≤ last) || inRanges rest n

end DatasetCatalog.Text
