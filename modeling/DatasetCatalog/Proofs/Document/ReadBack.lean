import DatasetCatalog.Proofs.Document.Entries
import DatasetCatalog.Proofs.Success

/-!
# Reading back

What a reader takes a value for, apart from what it gives back: readers of objects and lists are
taken apart into the readers of their parts. A reader reads back what is written if it takes the
document of a result for that result alone.
-/

namespace DatasetCatalog.Document

variable {α β : Type}

/-- The reader takes a value for a result. -/
def Reads (r : Reader α) (v : Value) (a : α) : Prop := ∃ given, r v = .ok ⟨a, given⟩

theorem Reads.unique {r : Reader α} {v : Value} {a b : α} (ha : Reads r v a) (hb : Reads r v b) :
    a = b := by
  obtain ⟨_, ha⟩ := ha
  obtain ⟨_, hb⟩ := hb
  rw [ha] at hb
  cases hb
  rfl

theorem value_eq_ok_iff {r : Reader α} {v : Value} {a : α} : r.value v = .ok a ↔ Reads r v a := by
  unfold Reader.value Reads
  cases r v with
  | ok reading =>
    obtain ⟨b, given⟩ := reading
    simp [Checked.map, Checked.toExcept]
  | faults found => simp [Checked.map, Checked.toExcept]

namespace EntriesReader
variable {entries : List (String × Value)} {key : String}

/-- The reader takes entries for a result. -/
def Reads (r : EntriesReader α) (entries : List (String × Value)) (a : α) : Prop :=
  ∃ given, r.read entries = .ok (a, given)

/-- A function of what is read: the last step of a reader that is put together. -/
theorem reads_iff {r : EntriesReader α} {a : α} :
    r.Reads entries a ↔ ∃ b, r.Reads entries b ∧ b = a := by
  simp

theorem exists_reads_map {f : α → β} {r : EntriesReader α} {p : β → Prop} :
    (∃ b, (f <$> r).Reads entries b ∧ p b) ↔ ∃ a, r.Reads entries a ∧ p (f a) := by
  constructor
  · rintro ⟨b, ⟨given, hb⟩, hp⟩
    obtain ⟨a, ha, rfl⟩ := read_map_eq_ok hb
    exact ⟨a, ⟨given, ha⟩, hp⟩
  · rintro ⟨a, ⟨given, ha⟩, hp⟩
    refine ⟨f a, ⟨given, ?_⟩, hp⟩
    change (r.read entries).map _ = _
    rw [ha]
    rfl

theorem exists_reads_seq {f : EntriesReader (α → β)} {r : EntriesReader α} {p : β → Prop} :
    (∃ b, (f <*> r).Reads entries b ∧ p b) ↔
      ∃ a, r.Reads entries a ∧ ∃ g, f.Reads entries g ∧ p (g a) := by
  constructor
  · rintro ⟨b, ⟨given, hb⟩, hp⟩
    obtain ⟨g, first, a, second, hg, ha, rfl, _⟩ := read_seq_eq_ok hb
    exact ⟨a, ⟨second, ha⟩, g, ⟨first, hg⟩, hp⟩
  · rintro ⟨a, ⟨second, ha⟩, g, ⟨first, hg⟩, hp⟩
    refine ⟨g a, ⟨first ++ second, ?_⟩, hp⟩
    change Checked.apply ((f.read entries).map _) (r.read entries) = _
    rw [hg, ha]
    rfl

theorem where?_eq_ok_iff {r : EntriesReader α} {rule : α → Option String}
    {result : α × List (String × Value)} :
    (r.where? rule).read entries = .ok result ↔
      r.read entries = .ok result ∧ rule result.1 = none := by
  constructor
  · intro h
    simp only [EntriesReader.where?] at h
    split at h
    · rename_i hr
      split at h
      · cases h
      · rename_i hrule
        cases h
        exact ⟨hr, hrule⟩
    · cases h
  · rintro ⟨hr, hrule⟩
    simp only [EntriesReader.where?, hr, hrule]

theorem reads_where? {r : EntriesReader α} {rule : α → Option String} {a : α} :
    (r.where? rule).Reads entries a ↔ r.Reads entries a ∧ rule a = none := by
  simp only [Reads, where?_eq_ok_iff, exists_and_right]

/-- What an entry that is there is read for, and what stands for one that is not. -/
theorem reads_withDefault {default a : α} {r : Reader α} :
    (withDefault key default r).Reads entries a ↔
      (entries.lookup key).elim (a = default) fun v => Document.Reads r v a := by
  cases hv : entries.lookup key with
  | none =>
    simp only [Reads, withDefault, entry, List.nil_append, List.findSome?_cons,
      List.findSome?_nil, hv, Option.map_none, Option.elim_none, Checked.within, Checked.map,
      Checked.ok.injEq, Prod.mk.injEq, exists_and_left, exists_eq', and_true]
    exact eq_comm
  | some v =>
    simp only [Reads, Document.Reads, withDefault, entry, List.nil_append, List.findSome?_cons, hv,
      Option.map_some, Option.elim_some]
    cases hr : r v with
    | ok reading =>
      obtain ⟨b, given⟩ := reading
      simp [Checked.within, Checked.map]
    | faults found => simp [Checked.within, Checked.map]

theorem reads_required {a : α} {r : Reader α} :
    (required key r).Reads entries a ↔
      (entries.lookup key).elim False fun v => Document.Reads r v a := by
  cases hv : entries.lookup key with
  | none => simp [Reads, required, entry, hv, Checked.within, Checked.map, Checked.fault]
  | some v =>
    simp only [Reads, Document.Reads, required, entry, List.nil_append, List.findSome?_cons, hv,
      Option.map_some, Option.elim_some]
    cases hr : r v with
    | ok reading =>
      obtain ⟨b, given⟩ := reading
      simp [Checked.within, Checked.map]
    | faults found => simp [Checked.within, Checked.map]

/-- An alias that is not used leaves the reading to the name. -/
theorem reads_entry_of_lookup {other : String} (h : entries.lookup other = none) {default a : α}
    {r : Reader α} :
    (entry key [other] (.ok default) r).Reads entries a ↔
      (withDefault key default r).Reads entries a := by
  simp only [Reads, withDefault, entry, List.cons_append, List.nil_append, List.findSome?_cons, h,
    Option.map_none]

/-- An alias that is used is what is read. -/
theorem reads_entry_of_alias {other : String} {v : Value} (h : entries.lookup other = some v)
    {absent : Checked α} {a : α} {r : Reader α} :
    (entry key [other] absent r).Reads entries a ↔ Document.Reads r v a := by
  simp only [Reads, Document.Reads, entry, List.cons_append, List.findSome?_cons, h,
    Option.map_some]
  cases r v with
  | ok reading =>
    obtain ⟨b, given⟩ := reading
    simp [Checked.within, Checked.map]
  | faults found => simp [Checked.within, Checked.map]

end EntriesReader

section Parts
variable {r : Reader α} {v : Value}

theorem reads_model {r : EntriesReader α} {entries : List (String × Value)} {a : α} :
    Reads (model r) (.object entries) a ↔ r.Reads entries a := by
  have hread : model r (.object entries) =
    (r.read entries).map fun reading => ⟨reading.1, .object reading.2⟩ := rfl
  unfold Reads EntriesReader.Reads
  rw [hread]
  cases r.read entries with
  | ok reading =>
    obtain ⟨b, given⟩ := reading
    simp [Checked.map]
  | faults found => simp [Checked.map]

theorem exists_entries_of_reads_model {r : EntriesReader α} {a : α} (h : Reads (model r) v a) :
    ∃ entries, v = .object entries ∧ r.Reads entries a := by
  cases v with
  | object entries => exact ⟨entries, rfl, reads_model.mp h⟩
  | _ =>
    obtain ⟨_, h⟩ := h
    cases h

theorem reads_nullable_null {o : Option α} : Reads (nullable r) .null o ↔ o = none := by
  simp [Reads, nullable, eq_comm]

theorem nullable_of_ne (hv : v ≠ .null) :
    nullable r v = (r v).map fun reading => ⟨some reading.value, reading.given⟩ := by
  cases v with
  | null => exact absurd rfl hv
  | _ => rfl

theorem reads_nullable_of_ne (hv : v ≠ .null) {o : Option α} :
    Reads (nullable r) v o ↔ ∃ a, o = some a ∧ Reads r v a := by
  unfold Reads
  rw [nullable_of_ne hv]
  cases r v with
  | ok reading =>
    obtain ⟨b, given⟩ := reading
    simp [Checked.map, eq_comm]
  | faults found => simp [Checked.map]

theorem traverseFrom_eq_ok_iff {f : Value → Checked (Reading α)} {i : Nat} {vs : List Value}
    {readings : List (Reading α)} : Checked.traverseFrom f i vs = .ok readings ↔
      List.Forall₂ (fun v reading => f v = .ok reading) vs readings := by
  induction vs generalizing i readings with
  | nil =>
    rw [List.forall₂_nil_left_iff, Checked.traverseFrom, Checked.ok.injEq]
    exact eq_comm
  | cons v vs ih =>
    constructor
    · intro h
      obtain ⟨g, rest, hfirst, hrest, rfl⟩ := Checked.apply_eq_ok h
      obtain ⟨reading, hreading, rfl⟩ := Checked.map_eq_ok hfirst
      cases hv : f v with
      | faults found =>
        rw [hv] at hreading
        cases hreading
      | ok first =>
        rw [hv] at hreading
        cases hreading
        exact .cons hv (ih.mp hrest)
    · rintro (_ | ⟨hv, hvs⟩)
      rw [Checked.traverseFrom, hv, ih.mpr hvs]
      rfl

theorem listOf_eq_ok_iff {reading : Reading (List α)} : listOf r v = .ok reading ↔
    ∃ vs readings, v = .list vs ∧ List.Forall₂ (fun v reading => r v = .ok reading) vs readings ∧
      reading = ⟨readings.map (·.value), .list (readings.map (·.given))⟩ := by
  cases v with
  | list vs =>
    have hread : listOf r (.list vs) = (Checked.traverseFrom r 0 vs).map fun readings =>
      ⟨readings.map (·.value), .list (readings.map (·.given))⟩ := rfl
    constructor
    · intro h
      obtain ⟨readings, hreadings, rfl⟩ := Checked.map_eq_ok h
      exact ⟨vs, readings, rfl, traverseFrom_eq_ok_iff.mp hreadings, rfl⟩
    · rintro ⟨_, readings, he, hreadings, rfl⟩
      cases he
      rw [hread, traverseFrom_eq_ok_iff.mpr hreadings]
      rfl
  | _ => simp [listOf, Checked.fault]

theorem reads_listOf {vs : List Value} {as : List α} :
    Reads (listOf r) (.list vs) as ↔ List.Forall₂ (Reads r) vs as := by
  constructor
  · rintro ⟨given, h⟩
    obtain ⟨_, readings, he, hreadings, hreading⟩ := listOf_eq_ok_iff.mp h
    cases he
    cases hreading
    rw [List.forall₂_map_right_iff]
    exact hreadings.imp fun v reading hv => ⟨reading.given, hv⟩
  · intro h
    have hreadings : ∃ readings : List (Reading α), readings.map (·.value) = as ∧
        List.Forall₂ (fun v reading => r v = .ok reading) vs readings := by
      induction h with
      | nil => exact ⟨[], rfl, .nil⟩
      | cons hv _ ih =>
        obtain ⟨given, hv⟩ := hv
        obtain ⟨readings, rfl, hreadings⟩ := ih
        exact ⟨⟨_, given⟩ :: readings, rfl, .cons hv hreadings⟩
    obtain ⟨readings, rfl, hreadings⟩ := hreadings
    exact ⟨_, listOf_eq_ok_iff.mpr ⟨vs, readings, rfl, hreadings, rfl⟩⟩

theorem refuse_eq_ok_iff {bad : α → Bool} {kind : FaultKind} {reading : Reading α} :
    refuse r bad kind v = .ok reading ↔ r v = .ok reading ∧ bad reading.value = false := by
  constructor
  · intro h
    simp only [refuse] at h
    split at h
    · rename_i hr
      split at h
      · cases h
      · rename_i hbad
        cases h
        exact ⟨hr, Bool.eq_false_iff.mpr hbad⟩
    · cases h
  · rintro ⟨hr, hbad⟩
    simp only [refuse, hr, hbad, Bool.false_eq_true, if_false]

theorem reads_refuse {bad : α → Bool} {kind : FaultKind} {a : α} :
    Reads (refuse r bad kind) v a ↔ Reads r v a ∧ bad a = false := by
  simp only [Reads, refuse_eq_ok_iff, exists_and_right]

end Parts

/-- What is written of a result is read as that result, if it is in order, and as no other. -/
def ReadsBack (r : Reader α) (write : α → Value) (inOrder : α → Prop) : Prop :=
  ∀ a b, Reads r (write a) b ↔ b = a ∧ inOrder a

namespace ReadsBack
variable {r : Reader α} {write : α → Value} {inOrder : α → Prop}

theorem refuse (h : ReadsBack r write inOrder) (bad : α → Bool) (kind : FaultKind) :
    ReadsBack (refuse r bad kind) write fun a => inOrder a ∧ bad a = false := by
  intro a b
  rw [reads_refuse, h a b]
  constructor
  · rintro ⟨⟨rfl, ha⟩, hbad⟩
    exact ⟨rfl, ha, hbad⟩
  · rintro ⟨rfl, ha, hbad⟩
    exact ⟨⟨rfl, ha⟩, hbad⟩

theorem nullable (h : ReadsBack r write inOrder) (hwrite : ∀ a, write a ≠ .null) :
    ReadsBack (nullable r) (.ofOption write) fun o => ∀ a, o = some a → inOrder a := by
  intro o p
  cases o with
  | none =>
    rw [Value.ofOption, reads_nullable_null]
    simp
  | some a =>
    rw [Value.ofOption, reads_nullable_of_ne (hwrite a)]
    constructor
    · rintro ⟨b, rfl, hb⟩
      obtain ⟨rfl, ha⟩ := (h a b).mp hb
      exact ⟨rfl, fun c hc => Option.some.inj hc ▸ ha⟩
    · rintro ⟨rfl, ha⟩
      exact ⟨a, rfl, (h a a).mpr ⟨rfl, ha a rfl⟩⟩

theorem listOf (h : ReadsBack r write inOrder) :
    ReadsBack (listOf r) (fun as => .list (as.map write)) fun as => ∀ a ∈ as, inOrder a := by
  intro as bs
  rw [reads_listOf, List.forall₂_map_left_iff]
  constructor
  · intro hread
    induction hread with
    | nil => exact ⟨rfl, nofun⟩
    | cons hab _ ih =>
      obtain ⟨rfl, ha⟩ := (h _ _).mp hab
      obtain ⟨rfl, has⟩ := ih
      exact ⟨rfl, List.forall_mem_cons.mpr ⟨ha, has⟩⟩
  · rintro ⟨rfl, has⟩
    apply List.forall₂_same.mpr
    intro a ha
    exact (h a a).mpr ⟨rfl, has a ha⟩

end ReadsBack

end DatasetCatalog.Document
