import DatasetCatalog.Number.Binary64

/-!
# Rounding to decimal places

A double is rounded by its exact value, a tie to the even neighbour.
-/

namespace DatasetCatalog.Number

/-- The whole number nearest to a fraction, a tie to the even one. -/
def roundHalfEven (q : Rat) : Int :=
  let n := q.num.fdiv q.den
  let twice := 2 * (q - n)
  if twice < 1 || (twice == 1 && n % 2 == 0) then n else n + 1

def roundTo (places : Nat) (x : Float) : Float :=
  match (Binary64.ofFloat x).toRat? with
  | none => x
  | some q =>
    let n := roundHalfEven (q * Nat.pow 10 places)
    ofDecimal (x < 0) n.natAbs (-places)

end DatasetCatalog.Number
