import DatasetCatalog.Json.Compact
import DatasetCatalog.Proofs.Json.Delimiting

/-!
# Compact texts are told apart

A compact text reads back as it was written, whatever its characters, and ends at its last quote.
-/

namespace DatasetCatalog.Json

open Text

variable {tail : List Char}

/-- What stands as it is, is neither a quote nor a backslash nor a control character. -/
theorem plain_of_not_le {a : Char} (ha : ¬ a ≤ '~') : a ≠ '"' ∧ a ≠ '\\' ∧ ' ' ≤ a := by
  refine ⟨?_, ?_, ?_⟩
  · rintro rfl
    exact ha (by decide)
  · rintro rfl
    exact ha (by decide)
  · have hhigh : '~' ≤ a := (Char.le_total a '~').resolve_left ha
    exact Char.le_trans (by decide) hhigh

theorem readsAs_compactChar {a : Char} (htail : tail ≠ []) : ReadsAs a (compactChar a) tail := by
  unfold compactChar
  split
  · exact readsAs_escapeChar a htail
  · rename_i ha
    obtain ⟨hquote, hslash, hplain⟩ := plain_of_not_le ha
    exact readsAs_plain hquote hslash hplain

theorem compactText_inj {s s' : String} (h : compactText s = compactText s') : s = s' := by
  have hreads (cs tail : List Char) : ReadsBack compactChar cs tail := fun a bs _ =>
    readsAs_compactChar (List.append_ne_nil_of_right_ne_nil _ (List.cons_ne_nil _ _))
  exact (quoted_append_inj (hreads s.toList) (hreads s'.toList) (congrArg (· ++ []) h)).1

theorem closed_compactText (s : String) : Closed (compactText s) := by
  refine closed_quoted (fun a n => ?_) s.toList
  unfold compactChar
  split
  · exact inside_escapeChar a n
  · rename_i ha
    obtain ⟨hquote, hslash, _⟩ := plain_of_not_le ha
    exact inside_of_plain (List.forall_mem_singleton.mpr ⟨hquote, hslash⟩) n

end DatasetCatalog.Json
