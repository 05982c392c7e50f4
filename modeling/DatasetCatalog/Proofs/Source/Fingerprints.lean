import DatasetCatalog.Proofs.Json.Compact
import DatasetCatalog.Proofs.Json.Injectivity
import DatasetCatalog.Source.EnginePool

/-!
# Fingerprints tell configurations apart

The JSON of a configuration names every part of it, so two configurations with one fingerprint are
the same.
-/

namespace DatasetCatalog

open Json

/-- A text that may be missing, as JSON. -/
def compactOption (part : Option String) : List Char := part.elim (write .null) compactText

theorem compactOption_inj {part part' : Option String}
    (h : compactOption part = compactOption part') : part = part' := by
  cases part with
  | none =>
    cases part' with
    | none => rfl
    | some s' => cases h
  | some s =>
    cases part' with
    | none => cases h
    | some s' => rw [compactText_inj h]

theorem closed_compactOption (part : Option String) : Closed (compactOption part) := by
  cases part with
  | none => exact closed_write .null
  | some s => exact closed_compactText s

namespace DatasourceConfig

/-- The parts of a configuration as JSON, by their names. -/
def parts (c : DatasourceConfig) : List (String × List Char) :=
  [("host", compactOption c.host), ("port", write (.ofOption .int c.port)),
    ("database", compactOption c.database), ("username", compactOption c.username),
    ("password", compactOption c.password), ("path", compactOption c.path)]

theorem json_eq (c : DatasourceConfig) : c.json =
    '\x7b' :: separated (c.parts.map fun e => writeText e.1 ++ ':' :: e.2) ++ ['\x7d'] := rfl

theorem closed_parts (c : DatasourceConfig) :
    ∀ p ∈ c.parts.map fun e => writeText e.1 ++ ':' :: e.2, Closed p ∧ p ≠ [] := by
  have hclosed : ∀ e ∈ c.parts, Closed e.2 := by
    simp only [parts, List.forall_mem_cons, closed_compactOption, closed_write, true_and]
    exact fun _ h => nomatch h
  intro p hp
  obtain ⟨e, he, rfl⟩ := List.mem_map.mp hp
  exact ⟨closed_entry e.1 (hclosed e he), List.cons_ne_nil _ _⟩

theorem json_injective {c c' : DatasourceConfig} (h : c.json = c'.json) : c = c' := by
  rw [json_eq, json_eq, List.cons_append, List.cons_append, List.cons.injEq,
    List.append_cancel_right_eq] at h
  have hparts := separated_inj c.closed_parts c'.closed_parts h.2
  simp only [parts, List.map_cons, List.map_nil, List.cons.injEq, List.append_cancel_left_eq,
    true_and, and_true] at hparts
  obtain ⟨hhost, hport, hdatabase, husername, hpassword, hpath⟩ := hparts
  cases c
  cases c'
  rw [DatasourceConfig.mk.injEq]
  exact ⟨compactOption_inj hhost, write_ofOption_int_inj hport, compactOption_inj hdatabase,
    compactOption_inj husername, compactOption_inj hpassword, compactOption_inj hpath⟩

/-- Configurations with one fingerprint are the same. -/
theorem eq_of_fingerprint {c c' : DatasourceConfig} (h : c.fingerprint = c'.fingerprint) : c = c' :=
  json_injective (String.ofList_injective h)

end DatasourceConfig

end DatasetCatalog
