import DatasetCatalog.Model.Request

/-!
# What is read from the entries of an object

Readers of objects are put together from readers of one entry each. What a result owes to one
entry, and which keys are never given, is found along the way they are put together.
-/

namespace DatasetCatalog.Document

variable {α β : Type}

namespace Checked

theorem map_eq_ok {f : α → β} {c : Checked α} {b : β} (h : c.map f = .ok b) :
    ∃ a, c = .ok a ∧ f a = b := by
  cases c with
  | ok a =>
    cases h
    exact ⟨a, rfl, rfl⟩
  | faults found => cases h

theorem apply_eq_ok {f : Checked (α → β)} {c : Checked α} {b : β} (h : f.apply c = .ok b) :
    ∃ g a, f = .ok g ∧ c = .ok a ∧ g a = b := by
  cases f <;> cases c <;> cases h
  exact ⟨_, _, rfl, rfl, rfl⟩

end Checked

namespace EntriesReader
variable {entries : List (String × Value)} {key : String}

theorem read_map_eq_ok {f : α → β} {r : EntriesReader α} {b : β} {given : List (String × Value)}
    (h : (f <$> r).read entries = .ok (b, given)) :
    ∃ a, r.read entries = .ok (a, given) ∧ f a = b := by
  obtain ⟨⟨a, g⟩, ha, he⟩ := Checked.map_eq_ok h
  cases he
  exact ⟨a, ha, rfl⟩

theorem read_seq_eq_ok {f : EntriesReader (α → β)} {r : EntriesReader α} {b : β}
    {given : List (String × Value)} (h : (f <*> r).read entries = .ok (b, given)) :
    ∃ g first a second, f.read entries = .ok (g, first) ∧ r.read entries = .ok (a, second) ∧
      g a = b ∧ first ++ second = given := by
  obtain ⟨k, ⟨a, second⟩, hf, hr, he⟩ := Checked.apply_eq_ok h
  obtain ⟨⟨g, first⟩, hg, rfl⟩ := Checked.map_eq_ok hf
  cases he
  exact ⟨g, first, a, second, hg, hr, rfl, rfl⟩

/-- All that can be read from some entries has a property. -/
def Yields (r : EntriesReader α) (entries : List (String × Value)) (p : α → Prop) : Prop :=
  ∀ {a given}, r.read entries = .ok (a, given) → p a

theorem Yields.map {f : α → β} {r : EntriesReader α} {p : β → Prop}
    (h : r.Yields entries fun a => p (f a)) : (f <$> r).Yields entries p := by
  intro b given hb
  obtain ⟨a, ha, rfl⟩ := read_map_eq_ok hb
  exact h ha

theorem Yields.seq {f : EntriesReader (α → β)} {r : EntriesReader α} {p : β → Prop}
    (h : f.Yields entries fun g => ∀ a, p (g a)) : (f <*> r).Yields entries p := by
  intro b given hb
  obtain ⟨g, _, a, _, hg, _, rfl, _⟩ := read_seq_eq_ok hb
  exact h hg a

theorem Yields.where? {r : EntriesReader α} {rule : α → Option String} {p : α → Prop}
    (h : r.Yields entries p) : (r.where? rule).Yields entries p := by
  intro a given ha
  simp only [EntriesReader.where?] at ha
  split at ha
  · rename_i hr
    split at ha
    · cases ha
    · cases ha
      exact h hr
  · cases ha

/-- What a rule finds no fault with is all that can be read. -/
theorem yields_rule {r : EntriesReader α} {rule : α → Option String} :
    (r.where? rule).Yields entries fun a => rule a = none := by
  intro a given ha
  simp only [EntriesReader.where?] at ha
  split at ha
  · split at ha
    · cases ha
    · rename_i hrule
      cases ha
      exact hrule
  · cases ha

/-- An entry that is there is read, whatever stands for it otherwise. -/
theorem yields_withDefault {default a : α} {r : Reader α} {v given : Value}
    (hv : entries.lookup key = some v) (hr : r v = .ok ⟨a, given⟩) :
    (withDefault key default r).Yields entries (· = a) := by
  intro b g hb
  simp only [withDefault, entry, List.nil_append, List.findSome?_cons, hv, Option.map_some, hr,
    Checked.within, Checked.map] at hb
  cases hb
  rfl

/-- The keys of what is given back are among these, in their order. -/
def Names (r : EntriesReader α) (keys : List String) : Prop :=
  ∀ ⦃entries a given⦄, r.read entries = .ok (a, given) → (given.map Prod.fst).Sublist keys

theorem Names.map {r : EntriesReader α} {keys : List String} (h : r.Names keys) (f : α → β) :
    (f <$> r).Names keys := by
  intro entries b given hb
  obtain ⟨a, ha, _⟩ := read_map_eq_ok hb
  exact h ha

theorem Names.seq {f : EntriesReader (α → β)} {r : EntriesReader α} {keys keys' : List String}
    (hf : f.Names keys) (hr : r.Names keys') : (f <*> r).Names (keys ++ keys') := by
  intro entries b given hb
  obtain ⟨g, first, a, second, hg, ha, _, rfl⟩ := read_seq_eq_ok hb
  rw [List.map_append]
  exact (hf hg).append (hr ha)

/-- An entry is given under its first name alone. -/
theorem names_entry (name : String) (aliases : List String) (absent : Checked α) (r : Reader α) :
    (entry name aliases absent r).Names [name] := by
  intro entries a given ha
  simp only [entry] at ha
  split at ha
  · obtain ⟨reading, _, he⟩ := Checked.map_eq_ok ha
    cases he
    exact .refl _
  · obtain ⟨a', _, he⟩ := Checked.map_eq_ok ha
    cases he
    exact List.nil_sublist _

theorem lookup_eq_none_of_not_mem {α : Type} {given : List (String × α)}
    (h : key ∉ given.map Prod.fst) :
    given.lookup key = none := by
  rw [List.lookup_eq_none_iff]
  intro e he
  apply bne_iff_ne.mpr
  rintro rfl
  exact h (List.mem_map_of_mem he)

theorem Names.lookup_eq_none {r : EntriesReader α} {keys : List String} (h : r.Names keys)
    (hkey : key ∉ keys) {a : α} {given : List (String × Value)}
    (hr : r.read entries = .ok (a, given)) : given.lookup key = none :=
  lookup_eq_none_of_not_mem fun hmem => hkey ((h hr).subset hmem)

end EntriesReader

end DatasetCatalog.Document

namespace DatasetCatalog

open Document

theorem Value.lookup_mergeEntries_of_none {α : Type} {key : String} {new : List (String × α)}
    (h : new.lookup key = none) (old : List (String × α)) :
    (mergeEntries old new).lookup key = old.lookup key := by
  induction new generalizing old with
  | nil => rfl
  | cons e rest ih =>
    obtain ⟨k, a⟩ := e
    rw [List.lookup_cons] at h
    cases hk : key == k with
    | true => simp [hk] at h
    | false =>
      rw [hk] at h
      have hrest := ih h (putEntry k a old)
      rw [lookup_putEntry_of_ne (ne_of_beq_false hk)] at hrest
      exact hrest

theorem Value.isSome_lookup_mergeEntries {α : Type} {key : String} {old : List (String × α)}
    (h : (old.lookup key).isSome) (new : List (String × α)) :
    ((mergeEntries old new).lookup key).isSome := by
  induction new generalizing old with
  | nil => exact h
  | cons e rest ih =>
    obtain ⟨k, a⟩ := e
    refine @ih (putEntry k a old) ?_
    by_cases hk : key = k
    · rw [hk, lookup_putEntry_self]
      rfl
    · rw [lookup_putEntry_of_ne hk]
      exact h

theorem Value.lookup_mergeEntries_of_nodup {α : Type} {key : String} {a : α}
    {new : List (String × α)} (hnew : (new.map Prod.fst).Nodup) (h : new.lookup key = some a)
    (old : List (String × α)) : (mergeEntries old new).lookup key = some a := by
  induction new generalizing old with
  | nil => cases h
  | cons e rest ih =>
    obtain ⟨k, b⟩ := e
    rw [List.map_cons, List.nodup_cons] at hnew
    rw [List.lookup_cons] at h
    cases hk : key == k with
    | true =>
      rw [hk] at h
      cases h
      have hrest : rest.lookup key = none := by
        apply EntriesReader.lookup_eq_none_of_not_mem
        rw [eq_of_beq hk]
        exact hnew.1
      have hmerge := lookup_mergeEntries_of_none hrest (putEntry k a old)
      rw [eq_of_beq hk, lookup_putEntry_self] at hmerge
      rw [eq_of_beq hk]
      exact hmerge
    | false =>
      rw [hk] at h
      exact ih hnew.2 h (putEntry k b old)

/-- An entry that is replaced keeps its key. -/
theorem Value.keys_putEntry {α : Type} {key : String} {a : α} {entries : List (String × α)}
    (h : (entries.lookup key).isSome = true) :
    (Value.putEntry key a entries).map Prod.fst = entries.map Prod.fst := by
  induction entries with
  | nil => cases h
  | cons e rest ih =>
    obtain ⟨k, b⟩ := e
    by_cases hk : k = key
    · subst hk
      simp [Value.putEntry]
    · rw [List.lookup_cons, beq_false_of_ne (Ne.symm hk)] at h
      simp [Value.putEntry, hk, ih h]

theorem Value.mem_putEntry {α : Type} {key : String} {a : α} {entries : List (String × α)}
    {e : String × α} (h : e ∈ putEntry key a entries) : e = (key, a) ∨ e ∈ entries := by
  induction entries with
  | nil => exact .inl (List.mem_singleton.mp h)
  | cons first rest ih =>
    obtain ⟨k, b⟩ := first
    by_cases hk : k = key
    · simp only [putEntry, hk, beq_self_eq_true, if_true] at h
      rcases List.mem_cons.mp h with h | h
      · exact .inl h
      · exact .inr (List.mem_cons_of_mem _ h)
    · simp only [putEntry, beq_false_of_ne hk, Bool.false_eq_true, if_false] at h
      rcases List.mem_cons.mp h with h | h
      · exact .inr (h ▸ List.mem_cons_self)
      · rcases ih h with h | h
        · exact .inl h
        · exact .inr (List.mem_cons_of_mem _ h)

theorem Value.nodup_keys_putEntry {α : Type} {entries : List (String × α)}
    (h : (entries.map Prod.fst).Nodup) (key : String) (a : α) :
    ((Value.putEntry key a entries).map Prod.fst).Nodup := by
  induction entries with
  | nil => exact List.nodup_cons.mpr ⟨List.not_mem_nil, .nil⟩
  | cons e rest ih =>
    obtain ⟨k, b⟩ := e
    rw [List.map_cons, List.nodup_cons] at h
    by_cases hk : k = key
    · subst hk
      simp only [Value.putEntry, beq_self_eq_true, if_true, List.map_cons]
      exact List.nodup_cons.mpr h
    · simp only [Value.putEntry, beq_false_of_ne hk, Bool.false_eq_true, if_false, List.map_cons,
        List.nodup_cons]
      refine ⟨fun hmem => ?_, ih h.2⟩
      obtain ⟨e, he, rfl⟩ := List.mem_map.mp hmem
      rcases Value.mem_putEntry he with rfl | hrest
      · exact hk rfl
      · exact h.1 (List.mem_map.mpr ⟨e, hrest, rfl⟩)

/-- With what it replaces, nothing is lost and nothing gained but what is put. -/
theorem Value.perm_putEntry {α : Type} (key : String) (a : α) (entries : List (String × α)) :
    ((Value.putEntry key a entries).map Prod.snd ++ (entries.lookup key).toList).Perm
      (a :: entries.map Prod.snd) := by
  induction entries with
  | nil => exact .refl _
  | cons e rest ih =>
    obtain ⟨k, b⟩ := e
    by_cases hk : k = key
    · subst hk
      simp only [Value.putEntry, List.lookup_cons, beq_self_eq_true, if_true, Option.toList_some,
        List.map_cons]
      exact (List.perm_append_singleton b _).cons a
    · simp only [Value.putEntry, List.lookup_cons, beq_false_of_ne hk,
        beq_false_of_ne (Ne.symm hk), Bool.false_eq_true, if_false, List.map_cons, List.cons_append]
      exact (ih.cons b).trans (.swap a b _)

theorem Dataset.yields_of_ofDocument {defaults : Defaults} {entries : List (String × Value)}
    {d : Dataset} {p : Dataset → Prop} (hyields : (Dataset.reader defaults).Yields entries p)
    (h : Dataset.ofDocument defaults entries = .ok d) : p d := by
  unfold Dataset.ofDocument Reader.value model at h
  cases hr : (Dataset.reader defaults).read entries with
  | ok reading =>
    obtain ⟨a, given⟩ := reading
    simp only [hr, Checked.map, Checked.toExcept, Except.ok.injEq] at h
    exact h ▸ hyields hr
  | faults found => simp [hr, Checked.map, Checked.toExcept] at h

/-- The id that a document states is the id of its dataset. -/
theorem Dataset.id_of_ofDocument {defaults : Defaults} {entries : List (String × Value)}
    {d : Dataset} {id : String} (h : Dataset.ofDocument defaults entries = .ok d)
    (hid : entries.lookup "id" = some (.text id)) : d.id = id := by
  have hyields : (Dataset.reader defaults).Yields entries fun d => d.id = id := by
    unfold Dataset.reader
    apply EntriesReader.Yields.where?
    iterate 20 apply EntriesReader.Yields.seq
    apply EntriesReader.Yields.map
    intro a given ha
    intros
    exact EntriesReader.yields_withDefault hid rfl ha
  exact Dataset.yields_of_ofDocument hyields h

/-- What may be changed of a dataset. -/
def UpdateRequest.keys : List String :=
  ["name", "display_name", "description", "type", "table_config", "sql_config", "view_config",
    "fields", "category", "tags", "permissions", "status"]

/-- Changes state each of their entries once and nothing else, whatever was sent with them. -/
theorem UpdateRequest.names_reader : UpdateRequest.reader.Names UpdateRequest.keys := by
  change UpdateRequest.reader.Names (["name"] ++ ["display_name"] ++ ["description"] ++ ["type"] ++
    ["table_config"] ++ ["sql_config"] ++ ["view_config"] ++ ["fields"] ++ ["category"] ++
    ["tags"] ++ ["permissions"] ++ ["status"])
  unfold UpdateRequest.reader
  iterate 11 refine EntriesReader.Names.seq ?_ (EntriesReader.names_entry _ _ _ _)
  exact EntriesReader.Names.map (EntriesReader.names_entry _ _ _ _) _

theorem UpdateRequest.lookup_id_given {v : Value} {changes : Reading UpdateRequest}
    (h : model UpdateRequest.reader v = .ok changes) :
    changes.given.entries.lookup "id" = none := by
  cases v with
  | object entries =>
    obtain ⟨⟨a, given⟩, hread, rfl⟩ := Checked.map_eq_ok h
    exact UpdateRequest.names_reader.lookup_eq_none (by decide) hread
  | _ => cases h

end DatasetCatalog
