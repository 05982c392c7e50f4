import DatasetCatalog.Proofs.Document.ReadBack

/-!
# What is given back

A reader gives back what it was sent in normal form: at every level an entry is given if and only if
it was sent, under its own name, and it is null if and only if null was sent. What is given is read
as the same result, and given again as it is.
-/

namespace DatasetCatalog.Document

/-- How what is given goes with what was sent. -/
abbrev Mirror := Value → Value → Prop

namespace Mirror

/-- A free value is given as it was sent. -/
def free : Mirror := fun sent given => given = sent

def scalar : Mirror := fun sent given => sent ≠ .null ∧ given ≠ .null

def nullable (m : Mirror) : Mirror := fun sent given =>
  sent = .null ∧ given = .null ∨ sent ≠ .null ∧ given ≠ .null ∧ m sent given

def listOf (m : Mirror) : Mirror := fun sent given =>
  ∃ vs gs, sent = .list vs ∧ given = .list gs ∧ List.Forall₂ m vs gs

/-- An entry by its name, the other names that it may be sent under, and what is in it. -/
structure Entry where
  key : String
  aliases : List String := []
  content : Mirror

/-- What was sent for an entry: under the first of its names that is there. -/
def Entry.sent? (e : Entry) (entries : List (String × Value)) : Option Value :=
  (e.aliases ++ [e.key]).findSome? fun k => entries.lookup k

/-- Of an object these entries are given, in this order, so far as they were sent. -/
def object (es : List Entry) : Mirror := fun sent given =>
  ∃ entries gs, sent = .object entries ∧ given = .object gs ∧
    (gs.map Prod.fst).Sublist (es.map Entry.key) ∧
    ∀ e ∈ es, Option.Rel e.content (e.sent? entries) (gs.lookup e.key)

/-- Where entries have one name each, the names that are given are those that were sent. -/
theorem isSome_lookup {es : List Entry} {sent given : Value} (h : object es sent given)
    (hes : ∀ e ∈ es, e.aliases = []) {key : String} (hkey : key ∈ es.map Entry.key) :
    (given.entries.lookup key).isSome = (sent.entries.lookup key).isSome := by
  obtain ⟨entries, gs, rfl, rfl, _, hentries⟩ := h
  obtain ⟨e, he, rfl⟩ := List.mem_map.mp hkey
  have hsent : e.sent? entries = entries.lookup e.key := by
    simp [Entry.sent?, hes e he]
  have hrel := hentries e he
  rw [hsent] at hrel
  change (gs.lookup e.key).isSome = (entries.lookup e.key).isSome
  generalize gs.lookup e.key = given at hrel ⊢
  generalize entries.lookup e.key = sent at hrel ⊢
  cases hrel <;> rfl

end Mirror

variable {α β : Type}

/-- What a reader gives goes with what was sent, and it is read and given as it is. -/
structure Echoes (r : Reader α) (m : Mirror) : Prop where
  mirrors : ∀ {v reading}, r v = .ok reading → m v reading.given
  again : ∀ {v reading}, r v = .ok reading → r reading.given = .ok reading

/-- A reader that has nothing to make of null. -/
def RefusesNull (r : Reader α) : Prop := ∀ reading, r .null ≠ .ok reading

namespace Echoes
variable {r : Reader α} {m : Mirror}

theorem ne_null (h : Echoes r m) (hr : RefusesNull r) {v : Value} {reading : Reading α}
    (hv : r v = .ok reading) : v ≠ .null ∧ reading.given ≠ .null := by
  constructor
  · rintro rfl
    exact hr reading hv
  · intro hnull
    have hagain := h.again hv
    rw [hnull] at hagain
    exact hr reading hagain

/-- A reader whose results are given back as they are written. -/
theorem of_readsBack {write : α → Value} (hback : ReadsBack r write fun _ => True)
    (hgiven : ∀ {v a given}, r v = .ok ⟨a, given⟩ → given = write a) (hr : RefusesNull r) :
    Echoes r .scalar := by
  have hagain {v : Value} {reading : Reading α} (hv : r v = .ok reading) :
      r reading.given = .ok reading := by
    obtain ⟨a, given⟩ := reading
    obtain rfl := hgiven hv
    obtain ⟨given, hread⟩ := (hback a a).mpr ⟨rfl, trivial⟩
    rw [hread, hgiven hread]
  have hne {v : Value} {reading : Reading α} (hv : r v = .ok reading) : v ≠ .null := by
    rintro rfl
    exact hr reading hv
  exact ⟨fun hv => ⟨hne hv, hne (hagain hv)⟩, hagain⟩

theorem refuse (h : Echoes r m) (bad : α → Bool) (kind : FaultKind) :
    Echoes (refuse r bad kind) m := by
  constructor
  · intro v reading hv
    exact h.mirrors (refuse_eq_ok_iff.mp hv).1
  · intro v reading hv
    obtain ⟨hv, hbad⟩ := refuse_eq_ok_iff.mp hv
    exact refuse_eq_ok_iff.mpr ⟨h.again hv, hbad⟩

theorem nullable_eq_ok {v : Value} {reading : Reading (Option α)}
    (hv : Document.nullable r v = .ok reading) :
    v = .null ∧ reading = ⟨none, .null⟩ ∨
      v ≠ .null ∧ ∃ inner, r v = .ok inner ∧ reading = ⟨some inner.value, inner.given⟩ := by
  by_cases hnull : v = .null
  · subst hnull
    cases hv
    exact .inl ⟨rfl, rfl⟩
  · rw [nullable_of_ne hnull] at hv
    obtain ⟨inner, hinner, rfl⟩ := Checked.map_eq_ok hv
    exact .inr ⟨hnull, inner, hinner, rfl⟩

theorem nullable (h : Echoes r m) (hr : RefusesNull r) : Echoes (nullable r) m.nullable := by
  constructor
  · intro v reading hv
    rcases nullable_eq_ok hv with ⟨rfl, rfl⟩ | ⟨hne, inner, hinner, rfl⟩
    · exact .inl ⟨rfl, rfl⟩
    · exact .inr ⟨hne, (h.ne_null hr hinner).2, h.mirrors hinner⟩
  · intro v reading hv
    rcases nullable_eq_ok hv with ⟨rfl, rfl⟩ | ⟨hne, inner, hinner, rfl⟩
    · rfl
    · rw [nullable_of_ne (h.ne_null hr hinner).2, h.again hinner]
      rfl

theorem listOf (h : Echoes r m) : Echoes (listOf r) m.listOf := by
  constructor
  · intro v reading hv
    obtain ⟨vs, readings, rfl, hread, rfl⟩ := listOf_eq_ok_iff.mp hv
    refine ⟨vs, _, rfl, rfl, ?_⟩
    rw [List.forall₂_map_right_iff]
    exact hread.imp fun _ _ => h.mirrors
  · intro v reading hv
    obtain ⟨vs, readings, rfl, hread, rfl⟩ := listOf_eq_ok_iff.mp hv
    refine listOf_eq_ok_iff.mpr ⟨_, readings, rfl, ?_, rfl⟩
    clear hv
    induction hread with
    | nil => exact .nil
    | cons hv _ ih => exact .cons (h.again hv) ih

end Echoes

namespace EntriesReader
variable {entries : List (String × Value)}

/-- What a reader of entries gives goes with what was sent for each, and entries that have the same
for each are read and given as they are. -/
structure Echoes (r : EntriesReader α) (es : List Mirror.Entry) : Prop where
  names : r.Names (es.map Mirror.Entry.key)
  mirrors : ∀ {entries a given}, r.read entries = .ok (a, given) →
    ∀ e ∈ es, Option.Rel e.content (e.sent? entries) (given.lookup e.key)
  again : ∀ {entries a given entries'}, r.read entries = .ok (a, given) →
    (∀ e ∈ es, e.sent? entries' = given.lookup e.key) → r.read entries' = .ok (a, given)

/-- Reading an entry is reading what was sent for it. -/
theorem read_entry_eq_ok_iff {e : Mirror.Entry} {absent : Checked α} {r : Reader α}
    {result : α × List (String × Value)} :
    (entry e.key e.aliases absent r).read entries = .ok result ↔
      (e.sent? entries).elim (absent = .ok result.1 ∧ result.2 = [])
        fun v => ∃ reading, r v = .ok reading ∧ result = (reading.value, [(e.key, reading.given)]) := by
  have hsent : e.sent? entries = ((e.aliases ++ [e.key]).findSome? fun k =>
      (entries.lookup k).map fun v => (k, v)).map Prod.snd := by
    rw [Mirror.Entry.sent?, List.map_findSome?]
    simp [Function.comp_def]
  rw [hsent]
  simp only [entry]
  split
  · rename_i k v hfound
    simp only [hfound, Option.map_some, Option.elim_some]
    cases r v with
    | ok reading => simp [Checked.within, Checked.map, eq_comm]
    | faults found => simp [Checked.within, Checked.map]
  · rename_i hfound
    simp only [hfound, Option.map_none, Option.elim_none]
    cases absent with
    | ok a => simp [Checked.within, Checked.map, Prod.ext_iff, eq_comm]
    | faults found => simp [Checked.within, Checked.map]

theorem echoes_entry {r : Reader α} {m : Mirror} (h : Document.Echoes r m) (key : String)
    (aliases : List String) (absent : Checked α) :
    (entry key aliases absent r).Echoes [⟨key, aliases, m⟩] where
  names := names_entry key aliases absent r
  mirrors {entries a given} hread e he := by
    cases List.mem_singleton.mp he
    rw [read_entry_eq_ok_iff (e := ⟨key, aliases, m⟩)] at hread
    cases hsent : Mirror.Entry.sent? ⟨key, aliases, m⟩ entries with
    | none =>
      rw [hsent] at hread
      obtain ⟨-, rfl⟩ := hread
      exact .none
    | some v =>
      rw [hsent] at hread
      obtain ⟨reading, hv, he⟩ := hread
      cases he
      rw [List.lookup_cons_self]
      exact .some (h.mirrors hv)
  again {entries a given entries'} hread hsame := by
    have hsame := hsame _ (List.mem_singleton_self _)
    rw [read_entry_eq_ok_iff (e := ⟨key, aliases, m⟩)] at hread ⊢
    rw [hsame]
    cases hsent : Mirror.Entry.sent? ⟨key, aliases, m⟩ entries with
    | none =>
      rw [hsent] at hread
      obtain ⟨habsent, rfl⟩ := hread
      exact ⟨habsent, rfl⟩
    | some v =>
      rw [hsent] at hread
      obtain ⟨reading, hv, he⟩ := hread
      cases he
      rw [List.lookup_cons_self]
      exact ⟨reading, h.again hv, rfl⟩

namespace Echoes
variable {r : EntriesReader α} {es es' : List Mirror.Entry}

theorem map (h : r.Echoes es) (f : α → β) : (f <$> r).Echoes es where
  names := h.names.map f
  mirrors hread := by
    obtain ⟨a, ha, _⟩ := read_map_eq_ok hread
    exact h.mirrors ha
  again {entries b given entries'} hread hsame := by
    obtain ⟨a, ha, rfl⟩ := read_map_eq_ok hread
    change (r.read entries').map _ = _
    rw [h.again ha hsame]
    rfl

/-- Readers of different keys give back entries that are found as in their own. -/
theorem lookup_given_append {f : EntriesReader (α → β)} {keys keys' : List String}
    (hf : f.Names keys) (hr : r.Names keys') (hkeys : ∀ k ∈ keys, k ∉ keys') {g : α → β} {a : α}
    {first second : List (String × Value)} (hg : f.read entries = .ok (g, first))
    (ha : r.read entries = .ok (a, second)) :
    (∀ k ∈ keys, (first ++ second).lookup k = first.lookup k) ∧
      ∀ k ∈ keys', (first ++ second).lookup k = second.lookup k := by
  constructor
  · intro k hk
    rw [List.lookup_append, hr.lookup_eq_none (hkeys k hk) ha, Option.or_none]
  · intro k hk
    rw [List.lookup_append, hf.lookup_eq_none (fun hmem => hkeys k hmem hk) hg, Option.none_or]

/-- Entries of different names are read apart. -/
theorem seq {f : EntriesReader (α → β)} (hf : f.Echoes es) (hr : r.Echoes es')
    (hkeys : ∀ k ∈ es.map Mirror.Entry.key, k ∉ es'.map Mirror.Entry.key) :
    (f <*> r).Echoes (es ++ es') where
  names := by
    rw [List.map_append]
    exact hf.names.seq hr.names
  mirrors {entries b given} hread e he := by
    obtain ⟨g, first, a, second, hg, ha, rfl, rfl⟩ := read_seq_eq_ok hread
    have hfound := lookup_given_append hf.names hr.names hkeys hg ha
    rcases List.mem_append.mp he with he | he
    · rw [hfound.1 e.key (List.mem_map_of_mem he)]
      exact hf.mirrors hg e he
    · rw [hfound.2 e.key (List.mem_map_of_mem he)]
      exact hr.mirrors ha e he
  again {entries b given entries'} hread hsame := by
    obtain ⟨g, first, a, second, hg, ha, rfl, rfl⟩ := read_seq_eq_ok hread
    have hfound := lookup_given_append hf.names hr.names hkeys hg ha
    have hg' : f.read entries' = .ok (g, first) := hf.again hg fun e he => by
      rw [hsame e (List.mem_append_left _ he), hfound.1 e.key (List.mem_map_of_mem he)]
    have ha' : r.read entries' = .ok (a, second) := hr.again ha fun e he => by
      rw [hsame e (List.mem_append_right _ he), hfound.2 e.key (List.mem_map_of_mem he)]
    change Checked.apply ((f.read entries').map _) (r.read entries') = _
    rw [hg', ha']
    rfl

theorem where? (h : r.Echoes es) (rule : α → Option String) : (r.where? rule).Echoes es where
  names entries a given hread := h.names (where?_eq_ok_iff.mp hread).1
  mirrors hread := h.mirrors (where?_eq_ok_iff.mp hread).1
  again hread hsame := by
    obtain ⟨hread, hrule⟩ := where?_eq_ok_iff.mp hread
    exact where?_eq_ok_iff.mpr ⟨h.again hread hsame, hrule⟩

/-- What is given has no entry under another name than its own. -/
theorem sent?_given (h : r.Echoes es)
    (haliases : ∀ e ∈ es, ∀ k ∈ e.aliases, k ∉ es.map Mirror.Entry.key) {a : α}
    {given : List (String × Value)} (hread : r.read entries = .ok (a, given)) :
    ∀ e ∈ es, e.sent? given = given.lookup e.key := by
  intro e he
  have hnone : e.aliases.findSome? (fun k => given.lookup k) = none := by
    rw [List.findSome?_eq_none_iff]
    exact fun k hk => h.names.lookup_eq_none (haliases e he k hk) hread
  rw [Mirror.Entry.sent?, List.findSome?_append, hnone]
  simp

theorem model (h : r.Echoes es)
    (haliases : ∀ e ∈ es, ∀ k ∈ e.aliases, k ∉ es.map Mirror.Entry.key) :
    Document.Echoes (model r) (.object es) where
  mirrors {v reading} hv := by
    cases v with
    | object entries =>
      obtain ⟨⟨a, given⟩, hread, rfl⟩ := Checked.map_eq_ok hv
      exact ⟨entries, given, rfl, rfl, h.names hread, h.mirrors hread⟩
    | _ => cases hv
  again {v reading} hv := by
    cases v with
    | object entries =>
      obtain ⟨⟨a, given⟩, hread, rfl⟩ := Checked.map_eq_ok hv
      have hagain := h.again hread (h.sent?_given haliases hread)
      change (r.read given).map _ = _
      rw [hagain]
      rfl
    | _ => cases hv

end Echoes

end EntriesReader

end DatasetCatalog.Document
