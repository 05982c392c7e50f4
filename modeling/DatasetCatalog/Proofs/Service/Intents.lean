import DatasetCatalog.Proofs.Document.Entries
import DatasetCatalog.Proofs.Model.FieldLookup
import DatasetCatalog.Proofs.Success
import DatasetCatalog.Service.Intent

/-!
# What becomes of an intent

An intent whose labels are all known is used with column names in their places. Nothing else of it
is touched, and its lists keep their order.
-/

namespace DatasetCatalog

open Service

/-- Two objects with the same keys, in one order, that differ at most under some of them. -/
structure Value.SameBut (keys : List String) (v v' : Value) : Prop where
  entries : ∃ entries entries', v = .object entries ∧ v' = .object entries' ∧
    entries'.map Prod.fst = entries.map Prod.fst
  rest : ∀ key, key ∉ keys → v'.get? key = v.get? key

namespace Value.SameBut
variable {keys keys' : List String} {v v' v'' : Value}

theorem refl (keys : List String) (entries : List (String × Value)) :
    (Value.object entries).SameBut keys (.object entries) :=
  ⟨⟨entries, entries, rfl, rfl, rfl⟩, fun _ _ => rfl⟩

theorem trans (h : v.SameBut keys v') (h' : v'.SameBut keys' v'') :
    v.SameBut (keys ++ keys') v'' where
  entries := by
    obtain ⟨entries, entries', rfl, rfl, hkeys⟩ := h.entries
    obtain ⟨_, entries'', hsame, rfl, hkeys'⟩ := h'.entries
    cases hsame
    exact ⟨entries, entries'', rfl, rfl, hkeys'.trans hkeys⟩
  rest key hkey := by
    obtain ⟨hfirst, hsecond⟩ := not_or.mp (mt List.mem_append.mpr hkey)
    exact (h'.rest key hsecond).trans (h.rest key hfirst)

theorem putEntry {entries : List (String × Value)} {key : String}
    (h : (entries.lookup key).isSome = true) (a : Value) :
    (Value.object entries).SameBut [key] (.object (Value.putEntry key a entries)) := by
  refine ⟨⟨entries, _, rfl, rfl, Value.keys_putEntry h⟩, fun other hother => ?_⟩
  exact Value.lookup_putEntry_of_ne (mt List.mem_singleton.mpr hother) a entries

end Value.SameBut

namespace Service

/-- The value is the name of the column that the label stands for. -/
def Names (fields : List Field) (label column : Value) : Prop :=
  ∃ s c, label = .text s ∧ column = .text c ∧ resolveLabel? fields s = some c ∧
    ∃ f ∈ fields, f.name = c

/-- A filter with a column name in the place of its label. One without a field is kept. -/
inductive NamesFilter (fields : List Field) : Value → Value → Prop
  | kept {f : Value} : f.get? "field" = none → NamesFilter fields f f
  | named {f f' label column : Value} : f.get? "field" = some label →
    f'.get? "field" = some column → Names fields label column → f.SameBut ["field"] f' →
    NamesFilter fields f f'

/-- A list with each item replaced by one that it is related to. Anything but a list is kept. -/
inductive ReplacesItems (R : Value → Value → Prop) : Option Value → Option Value → Prop
  | list {items items' : List Value} : List.Forall₂ R items items' →
    ReplacesItems R (some (.list items)) (some (.list items'))
  | kept {v : Option Value} : (∀ items, v ≠ some (.list items)) → ReplacesItems R v v

/-- The intent with column names in the places of its labels, and nothing else changed. -/
structure Resolves (fields : List Field) (intent intent' : Value) : Prop extends
    intent.SameBut ["measures", "dimensions", "filters"] intent' where
  measures : ReplacesItems (Names fields) (intent.get? "measures") (intent'.get? "measures")
  dimensions : ReplacesItems (Names fields) (intent.get? "dimensions") (intent'.get? "dimensions")
  filters : ReplacesItems (NamesFilter fields) (intent.get? "filters") (intent'.get? "filters")

section Resolving
variable {fields : List Field} {R : Value → Value → Prop}

theorem names_of_labelColumn? {label : Value} {column : String}
    (h : labelColumn? fields label = .ok (some column)) : Names fields label (.text column) := by
  cases label with
  | text s =>
    have hresolve : resolveLabel? fields s = some column := Except.ok.inj h
    exact ⟨s, column, rfl, rfl, hresolve, mem_of_resolveLabel? hresolve⟩
  | _ => cases h

/-- A step resolves an item, or finds it unknown. -/
def Resolution.Steps (R : Value → Value → Prop)
    (step : Resolution → Value → Except Breakdown Resolution) : Prop :=
  ∀ r r' x, step r x = .ok r' → (∃ y, R x y ∧ r' = { r with items := r.items ++ [y] }) ∨
    ∃ u, r' = { r with unknown := r.unknown ++ [u] }

theorem Resolution.Steps.exists_items {step : Resolution → Value → Except Breakdown Resolution}
    (hstep : Resolution.Steps R step) {xs : List Value} {r r' : Resolution}
    (h : xs.foldlM step r = .ok r') (hknown : r'.unknown = []) :
    r.unknown = [] ∧ ∃ ys, r'.items = r.items ++ ys ∧ List.Forall₂ R xs ys := by
  induction xs generalizing r with
  | nil =>
    obtain rfl : r = r' := Except.ok.inj h
    exact ⟨hknown, [], (List.append_nil _).symm, .nil⟩
  | cons x rest ih =>
    rw [List.foldlM_cons] at h
    obtain ⟨r₁, hx, h⟩ := bind_eq_ok h
    obtain ⟨hnone, ys, hitems, hall⟩ := ih h
    rcases hstep r r₁ x hx with ⟨y, hy, rfl⟩ | ⟨u, rfl⟩
    · exact ⟨hnone, y :: ys, by rw [hitems, List.append_assoc]; rfl, .cons hy hall⟩
    · exact absurd hnone (List.append_ne_nil_of_right_ne_nil _ (List.cons_ne_nil _ _))

/-- If no item is found unknown, all are resolved in their order. -/
theorem Resolution.Steps.forall₂ {step : Resolution → Value → Except Breakdown Resolution}
    (hstep : Resolution.Steps R step) {xs : List Value} {r : Resolution}
    (h : xs.foldlM step {} = .ok r) (hknown : r.unknown = []) : List.Forall₂ R xs r.items := by
  obtain ⟨_, ys, hitems, hall⟩ := hstep.exists_items h hknown
  rw [hitems]
  exact hall

theorem forall₂_of_resolveItems {labels : List Value} {r : Resolution}
    (h : resolveItems fields labels = .ok r) (hknown : r.unknown = []) :
    List.Forall₂ (Names fields) labels r.items := by
  unfold resolveItems at h
  refine Resolution.Steps.forall₂ ?_ h hknown
  intro r r' label hstep
  obtain ⟨column, hcolumn, hstep⟩ := bind_eq_ok hstep
  cases column with
  | some column =>
    cases hstep
    exact .inl ⟨_, names_of_labelColumn? hcolumn, rfl⟩
  | none =>
    cases hstep
    exact .inr ⟨_, rfl⟩

theorem namesFilter_of_putEntry {f label : Value} {column : String}
    (hfield : f.get? "field" = some label) (h : labelColumn? fields label = .ok (some column)) :
    NamesFilter fields f (.object (Value.putEntry "field" (.text column) f.entries)) := by
  have hthere : (f.entries.lookup "field").isSome = true :=
    Option.isSome_iff_exists.mpr ⟨label, hfield⟩
  refine .named hfield (Value.lookup_putEntry_self "field" _ _) (names_of_labelColumn? h) ?_
  cases f with
  | object entries => exact .putEntry hthere _
  | _ => cases hfield

theorem forall₂_of_resolveFilters {filters : List Value} {r : Resolution}
    (h : resolveFilters fields filters = .ok r) (hknown : r.unknown = []) :
    List.Forall₂ (NamesFilter fields) filters r.items := by
  unfold resolveFilters at h
  refine Resolution.Steps.forall₂ ?_ h hknown
  intro r r' f hstep
  cases hfield : f.get? "field" with
  | none =>
    simp only [hfield] at hstep
    cases hstep
    exact .inl ⟨f, .kept hfield, rfl⟩
  | some label =>
    simp only [hfield] at hstep
    obtain ⟨column, hcolumn, hstep⟩ := bind_eq_ok hstep
    cases column with
    | some column =>
      cases hstep
      exact .inl ⟨_, namesFilter_of_putEntry hfield hcolumn, rfl⟩
    | none =>
      cases hstep
      exact .inr ⟨_, rfl⟩

theorem replacesItems_of_resolveEntry {resolve : List Value → Except Breakdown Resolution}
    (hresolve : ∀ {items r}, resolve items = .ok r → r.unknown = [] →
      List.Forall₂ R items r.items)
    {key : String} {current source entries : List (String × Value)}
    (hsource : current.lookup key = source.lookup key)
    (h : resolveEntry resolve key current source = .ok (entries, [])) :
    ReplacesItems R (source.lookup key) (entries.lookup key) ∧
      (Value.object current).SameBut [key] (.object entries) := by
  unfold resolveEntry at h
  split at h
  · rename_i items hitems
    obtain ⟨r, hr, h⟩ := bind_eq_ok h
    obtain ⟨rfl, hknown⟩ := Prod.mk.inj (Except.ok.inj h)
    have hthere : (current.lookup key).isSome = true :=
      Option.isSome_iff_exists.mpr ⟨_, hsource.trans hitems⟩
    rw [hitems, Value.lookup_putEntry_self]
    exact ⟨.list (hresolve hr hknown), .putEntry hthere _⟩
  · rename_i hother
    obtain ⟨rfl, _⟩ := Prod.mk.inj (Except.ok.inj h)
    rw [hsource]
    exact ⟨.kept hother, .refl _ _⟩

theorem intentEntries_eq_ok {intent : Value} {entries : List (String × Value)}
    (h : intentEntries intent = .ok entries) : intent = .object entries := by
  unfold intentEntries at h
  split at h
  · cases h
    rfl
  · obtain ⟨_, _, h⟩ := bind_eq_ok h
    obtain ⟨_, _, h⟩ := bind_eq_ok h
    cases h

/-- Where no label is unknown, the intent is resolved. -/
theorem resolves_of_resolveIntent {intent intent' : Value}
    (h : resolveIntent fields intent = .ok (intent', [])) : Resolves fields intent intent' := by
  obtain ⟨source, hsource, hrest⟩ := bind_eq_ok h
  obtain ⟨⟨entries₁, unknown₁⟩, hmeasures, hrest⟩ := bind_eq_ok hrest
  obtain ⟨⟨entries₂, unknown₂⟩, hdimensions, hrest⟩ := bind_eq_ok hrest
  obtain ⟨⟨entries₃, unknown₃⟩, hfilters, hrest⟩ := bind_eq_ok hrest
  obtain ⟨rfl, hknown⟩ := Prod.mk.inj (Except.ok.inj hrest)
  obtain ⟨⟨rfl, rfl⟩, rfl⟩ : (unknown₁ = [] ∧ unknown₂ = []) ∧ unknown₃ = [] := by
    simpa only [List.append_eq_nil_iff] using hknown
  rw [intentEntries_eq_ok hsource]
  obtain ⟨hfirst, hsame₁⟩ := replacesItems_of_resolveEntry forall₂_of_resolveItems rfl hmeasures
  obtain ⟨hsecond, hsame₂⟩ := replacesItems_of_resolveEntry forall₂_of_resolveItems
    (hsame₁.rest "dimensions" (by decide)) hdimensions
  have hsame₁₂ := hsame₁.trans hsame₂
  obtain ⟨hthird, hsame₃⟩ := replacesItems_of_resolveEntry forall₂_of_resolveFilters
    (hsame₁₂.rest "filters" (by decide)) hfilters
  -- what is resolved first is not touched afterwards
  have hmeasures' := (hsame₂.trans hsame₃).rest "measures" (by decide)
  have hdimensions' := hsame₃.rest "dimensions" (by decide)
  refine ⟨hsame₁₂.trans hsame₃, ?_, ?_, hthird⟩
  · rw [hmeasures']
    exact hfirst
  · rw [hdimensions']
    exact hsecond

end Resolving

section Answers
variable {answer : Value}

/-- An outcome starts with the extracted intent, no result and no errors. -/
theorem extraction_eq_ok {o : Outcome} (h : extraction answer = .ok o) :
    part answer "intent" = .ok o.intent ∧ o.result = none ∧ o.errors = [] := by
  obtain ⟨_, hintent, h⟩ := bind_eq_ok h
  obtain ⟨_, _, h⟩ := bind_eq_ok h
  obtain ⟨_, _, h⟩ := bind_eq_ok h
  obtain ⟨_, _, h⟩ := bind_eq_ok h
  obtain ⟨_, _, h⟩ := bind_eq_ok h
  obtain ⟨_, _, h⟩ := bind_eq_ok h
  cases h
  exact ⟨hintent, rfl, rfl⟩

theorem elements_ne_nil {v : Value} (h : v.truthy = true) : elements v ≠ .ok [] := by
  intro hnone
  cases v with
  | text s =>
    have hnil := List.map_eq_nil_iff.mp (Except.ok.inj hnone)
    rw [String.toList_eq_nil_iff] at hnil
    rw [Value.truthy, hnil] at h
    cases h
  | list items =>
    obtain rfl : items = [] := Except.ok.inj hnone
    cases h
  | object entries =>
    obtain rfl : entries = [] := List.map_eq_nil_iff.mp (Except.ok.inj hnone)
    cases h
  | bytes octets =>
    obtain rfl : octets = [] := List.map_eq_nil_iff.mp (Except.ok.inj hnone)
    cases h
  | _ => cases hnone

/-- A check without errors is one that finds the intent valid. -/
theorem valid_of_checkErrors (h : checkErrors answer = .ok []) :
    ∃ valid, part answer "valid" = .ok valid ∧ valid.truthy = true := by
  obtain ⟨valid, hvalid, h⟩ := bind_eq_ok h
  refine ⟨valid, hvalid, ?_⟩
  by_contra hinvalid
  rw [if_neg hinvalid] at h
  obtain ⟨errors, _, h⟩ := bind_eq_ok h
  refine elements_ne_nil ?_ h
  unfold orElse
  split
  · assumption
  · rfl

end Answers

end Service

end DatasetCatalog
