import Mathlib.Data.Prod.Lex
import Mathlib.Algebra.Order.Ring.Int

/-!
# The order of doubles

Numbers among the doubles are compared as their ranks are: by sign and kind, then by exponent, then
by mantissa. What is no number has no rank; it is at most nothing, and nothing is at most it.
-/

namespace DatasetCatalog.Number

open Float.Model

/-- Where a number stands among the numbers. -/
def rank? : UnpackedFloat → Option (ℤ ×ₗ ℤ ×ₗ ℤ)
  | .notANumber => none
  | .infinity .negative => some (toLex (-2, toLex (0, 0)))
  | .finite .negative mantissa exponent _ => some (toLex (-1, toLex (-exponent, -mantissa)))
  | .zero _ => some (toLex (0, toLex (0, 0)))
  | .finite .positive mantissa exponent _ => some (toLex (1, toLex (exponent, mantissa)))
  | .infinity .positive => some (toLex (2, toLex (0, 0)))

theorem compare_neg_neg (m n : ℤ) : compare (-m) (-n) = (compare m n).swap := by
  rw [Int.compare_swap, Int.compare_eq_ite_lt, Int.compare_eq_ite_lt]
  simp only [neg_lt_neg_iff]

theorem compare_natCast (m n : Nat) : compare (m : ℤ) n = compare m n := by
  rw [Int.compare_eq_ite_lt, Nat.compare_eq_ite_lt]
  simp only [Nat.cast_lt]

/-- Numbers are compared as their ranks are. -/
theorem compare_eq (a b : UnpackedFloat) :
    a.compare b = (rank? a).bind fun x => (rank? b).map (compare x) := by
  have hswap (o o' : Ordering) : (o.then o').swap = o.swap.then o'.swap := by
    cases o <;> rfl
  rcases a with (_ | _) | _ | _ | ⟨_ | _, m, e, _⟩ <;>
    rcases b with (_ | _) | _ | _ | ⟨_ | _, m', e', _⟩ <;>
    dsimp only [UnpackedFloat.compare, rank?, Option.bind_none, Option.bind_some, Option.map_none,
      Option.map_some] <;>
    simp only [Prod.Lex.compare_def, compareLex, compareOn, ofLex_toLex, hswap,
      compare_neg_neg, compare_natCast] <;>
    rfl

variable {a b c : Float}

theorem le_iff_rank : a ≤ b ↔
    ∃ x y, rank? a.toModel.unpack = some x ∧ rank? b.toModel.unpack = some y ∧ x ≤ y := by
  change decide (a.toModel.unpack.le b.toModel.unpack = true) = true ↔ _
  rw [decide_eq_true_eq, UnpackedFloat.le, compare_eq]
  cases rank? a.toModel.unpack <;> cases rank? b.toModel.unpack <;>
    simp [← Ordering.ne_gt_iff_isLE, compare_le_iff_le]

theorem lt_iff_rank : a < b ↔
    ∃ x y, rank? a.toModel.unpack = some x ∧ rank? b.toModel.unpack = some y ∧ x < y := by
  change decide (a.toModel.unpack.lt b.toModel.unpack = true) = true ↔ _
  rw [decide_eq_true_eq, UnpackedFloat.lt, compare_eq]
  cases rank? a.toModel.unpack <;> cases rank? b.toModel.unpack <;>
    simp [compare_lt_iff_lt]

theorem isNaN_iff_rank : a.isNaN = true ↔ rank? a.toModel.unpack = none := by
  change a.toModel.unpack.isNaN = true ↔ _
  cases a.toModel.unpack with
  | notANumber => exact iff_of_true rfl rfl
  | infinity sign =>
    cases sign <;> exact iff_of_false Bool.false_ne_true (Option.some_ne_none _)
  | zero sign => exact iff_of_false Bool.false_ne_true (Option.some_ne_none _)
  | finite sign mantissa exponent hm =>
    cases sign <;> exact iff_of_false Bool.false_ne_true (Option.some_ne_none _)

theorem float_le_trans (h : a ≤ b) (h' : b ≤ c) : a ≤ c := by
  rw [le_iff_rank] at *
  obtain ⟨x, y, hx, hy, hxy⟩ := h
  obtain ⟨y', z, hy', hz, hyz⟩ := h'
  obtain rfl : y = y' := Option.some.inj (hy.symm.trans hy')
  exact ⟨x, z, hx, hz, hxy.trans hyz⟩

theorem float_lt_of_le_of_lt (h : a ≤ b) (h' : b < c) : a < c := by
  rw [le_iff_rank] at h
  rw [lt_iff_rank] at h' ⊢
  obtain ⟨x, y, hx, hy, hxy⟩ := h
  obtain ⟨y', z, hy', hz, hyz⟩ := h'
  obtain rfl : y = y' := Option.some.inj (hy.symm.trans hy')
  exact ⟨x, z, hx, hz, hxy.trans_lt hyz⟩

theorem float_le_of_lt (h : a < b) : a ≤ b := by
  rw [lt_iff_rank] at h
  rw [le_iff_rank]
  obtain ⟨x, y, hx, hy, hxy⟩ := h
  exact ⟨x, y, hx, hy, hxy.le⟩

theorem float_not_le_of_lt (h : a < b) : ¬b ≤ a := by
  intro h'
  rw [lt_iff_rank] at h
  rw [le_iff_rank] at h'
  obtain ⟨x, y, hx, hy, hxy⟩ := h
  obtain ⟨y', x', hy', hx', hyx⟩ := h'
  obtain rfl : y = y' := Option.some.inj (hy.symm.trans hy')
  obtain rfl : x = x' := Option.some.inj (hx.symm.trans hx')
  exact absurd hxy (not_lt_of_ge hyx)

/-- Below a number that is comparable there is what is less, or what is no number. -/
theorem float_not_le_iff (hb : b ≤ b) : ¬a ≤ b ↔ b < a ∨ a.isNaN = true := by
  rw [le_iff_rank] at hb ⊢
  rw [lt_iff_rank, isNaN_iff_rank]
  obtain ⟨y, _, hy, -, -⟩ := hb
  cases rank? a.toModel.unpack with
  | none => simp
  | some x => simp [hy]

end DatasetCatalog.Number
