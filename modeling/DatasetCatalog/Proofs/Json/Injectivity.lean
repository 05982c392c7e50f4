import DatasetCatalog.Proofs.Json.Delimiting

/-!
# What written values tell

Values that are written alike are alike: lists have items that are written alike, objects with the
same keys have values that are written alike, and whole numbers are the same. A value is written if
its whole numbers are not too long.
-/

namespace DatasetCatalog.Json

open Number Text

theorem natText_injective : Function.Injective natText := by
  intro m n h
  unfold natText at h
  rw [← Nat.ofDigitChars_ten_toDigits (n := m), h, Nat.ofDigitChars_ten_toDigits]

theorem intText_injective : Function.Injective intText := by
  intro m n h
  have hminus (k : Nat) : '-' ∉ natText k := fun hmem => by cases isDigit_of_mem_natText hmem
  have hchars := String.ofList_injective h
  rcases lt_or_ge m 0 with hm | hm <;> rcases lt_or_ge n 0 with hn | hn
  · rw [if_pos hm, if_pos hn, List.append_cancel_left_eq] at hchars
    have := natText_injective hchars
    omega
  · rw [if_pos hm, if_neg (not_lt.mpr hn), List.nil_append] at hchars
    refine absurd ?_ (hminus n.natAbs)
    rw [← hchars]
    exact List.mem_cons_self
  · rw [if_neg (not_lt.mpr hm), if_pos hn, List.nil_append] at hchars
    refine absurd ?_ (hminus m.natAbs)
    rw [hchars]
    exact List.mem_cons_self
  · rw [if_neg (not_lt.mpr hm), if_neg (not_lt.mpr hn), List.append_cancel_left_eq] at hchars
    have := natText_injective hchars
    omega

theorem write_ofOption_int_inj {m n : Option Int}
    (h : write (.ofOption .int m) = write (.ofOption .int n)) : m = n := by
  have hnull (k : Int) : (intText k).toList ≠ "null".toList := by
    intro hk
    have hmem : 'u' ∈ (intText k).toList := by
      rw [hk]
      decide
    rcases mem_intText hmem with hsign | hdigit
    · cases hsign
    · cases hdigit
  cases m with
  | none =>
    cases n with
    | none => rfl
    | some n => exact absurd h.symm (hnull n)
  | some m =>
    cases n with
    | none => exact absurd h (hnull m)
    | some n => rw [intText_injective (String.toList_injective h)]

/-- Lists that are written alike have items that are written alike. -/
theorem write_list_inj {vs ws : List Value} (h : write (.list vs) = write (.list ws)) :
    vs.map write = ws.map write := by
  have hparts (us : List Value) : ∀ p ∈ us.map write, Closed p ∧ p ≠ [] := by
    intro p hp
    obtain ⟨v, _, rfl⟩ := List.mem_map.mp hp
    exact ⟨closed_write v, write_ne_nil v⟩
  rw [write, write, List.cons_append, List.cons_append, List.cons.injEq, writeItems_eq_map,
    writeItems_eq_map] at h
  exact separated_inj (hparts vs) (hparts ws) (List.append_cancel_right h.2)

/-- Objects that are written alike have entries that are written alike, in the order of keys. -/
theorem write_entries_inj {es fs : List (String × Value)}
    (h : write (.object es) = write (.object fs)) :
    (((writeFields es).mergeSort fun a b => decide (a.1 ≤ b.1)).map fun e =>
        writeText e.1 ++ ':' :: e.2) =
      ((writeFields fs).mergeSort fun a b => decide (a.1 ≤ b.1)).map fun e =>
        writeText e.1 ++ ':' :: e.2 := by
  have hparts (gs : List (String × Value)) :
      ∀ p ∈ ((writeFields gs).mergeSort fun a b => decide (a.1 ≤ b.1)).map fun e =>
        writeText e.1 ++ ':' :: e.2, Closed p ∧ p ≠ [] := by
    intro p hp
    obtain ⟨e, he, rfl⟩ := List.mem_map.mp hp
    refine ⟨closed_entry e.1 (closed_writeFields gs e (List.mem_mergeSort.mp he)), ?_⟩
    exact List.append_ne_nil_of_left_ne_nil (List.cons_ne_nil _ _) _
  rw [write, write, List.cons_append, List.cons_append, List.cons.injEq] at h
  exact separated_inj (hparts es) (hparts fs) (List.append_cancel_right h.2)

/-- Objects with the same keys that are written alike have values that are written alike. -/
theorem write_object_inj {es fs : List (String × Value)}
    (hkeys : List.Forall₂ (fun e f => e.1 = f.1) es fs)
    (h : write (.object es) = write (.object fs)) :
    List.Forall₂ (fun e f => write e.2 = write f.2) es fs := by
  obtain ⟨hlength, hkey⟩ := List.forall₂_iff_zip.mp hkeys
  let pairs := es.zip fs
  let sorted := pairs.mergeSort fun p q => decide (p.1.1 ≤ q.1.1)
  -- both objects are sorted alike, as their keys are the same
  have hleft : sorted.map (fun p => (p.1.1, write p.1.2)) =
      (writeFields es).mergeSort fun a b => decide (a.1 ≤ b.1) := by
    rw [writeFields_eq_map, ← List.map_fst_zip hlength.le, List.map_map]
    exact List.map_mergeSort fun _ _ _ _ => rfl
  have hright : sorted.map (fun p => (p.2.1, write p.2.2)) =
      (writeFields fs).mergeSort fun a b => decide (a.1 ≤ b.1) := by
    rw [writeFields_eq_map, ← List.map_snd_zip hlength.ge, List.map_map]
    refine List.map_mergeSort fun p hp q hq => ?_
    rw [hkey hp, hkey hq]
  have hentries := write_entries_inj h
  rw [← hleft, ← hright, List.map_map, List.map_map, List.map_inj_left] at hentries
  refine List.forall₂_iff_zip.mpr ⟨hlength, fun {e f} hef => ?_⟩
  have hentry : writeText e.1 ++ ':' :: write e.2 = writeText f.1 ++ ':' :: write f.2 :=
    hentries (e, f) (List.mem_mergeSort.mpr hef)
  rw [hkey hef] at hentry
  exact (List.cons.inj (List.append_cancel_left hentry)).2

/-- Only lists are written with a bracket in front. -/
theorem exists_items_of_head {v : Value} (h : (write v).head? = some '[') : ∃ vs, v = .list vs := by
  have hordinary : ∀ {cs : List Char}, (∀ c ∈ cs, IsOrdinary c) → cs.head? ≠ some '[' := by
    intro cs hcs hhead
    exact hcs '[' (List.mem_of_mem_head? hhead) (by decide)
  cases v with
  | list vs => exact ⟨vs, rfl⟩
  | int n => exact absurd h (hordinary (ordinary_intText n))
  | float x => exact absurd h (hordinary (ordinary_writeFloat x))
  | nan _ n =>
    cases n with
    | double =>
      rw [write, writeNotANumber] at h
      exact absurd h (hordinary (ordinary_writeFloat _))
    | decimal => cases h
  | bool b => cases b <;> cases h
  | _ => cases h

end DatasetCatalog.Json

namespace DatasetCatalog

open Number

theorem Number.isWritable_iff {n : Int} : isWritable n = true ↔ n.natAbs < 10 ^ maxDigits := by
  rw [isWritable, decide_eq_true_eq]
  exact Nat.length_toDigits_le_iff (by decide) (by decide)

theorem Value.hasText_iff {v : Value} :
    v.hasText = true ↔ ∀ n ∈ v.wholeNumbers, n.natAbs < 10 ^ maxDigits := by
  simp only [hasText, List.all_eq_true, isWritable_iff]

namespace Value

theorem wholeNumbersIn_eq_flatMap (vs : List Value) :
    wholeNumbersIn vs = vs.flatMap wholeNumbers := by
  induction vs with
  | nil => rfl
  | cons v rest ih => rw [wholeNumbersIn, ih, List.flatMap_cons]

theorem wholeNumbersOf_eq_flatMap (es : List (String × Value)) :
    wholeNumbersOf es = es.flatMap (·.2.wholeNumbers) := by
  induction es with
  | nil => rfl
  | cons e rest ih => rw [wholeNumbersOf, ih, List.flatMap_cons]

@[simp] theorem hasText_list (vs : List Value) : (Value.list vs).hasText = vs.all hasText := by
  rw [hasText, wholeNumbers, wholeNumbersIn_eq_flatMap, List.all_flatMap]
  rfl

@[simp] theorem hasText_object (es : List (String × Value)) :
    (Value.object es).hasText = es.all (·.2.hasText) := by
  rw [hasText, wholeNumbers, wholeNumbersOf_eq_flatMap, List.all_flatMap]
  rfl

end Value

theorem canonicalJson_eq_ok {v : Value} {text : String} :
    canonicalJson v = .ok text ↔ v.hasText = true ∧ String.ofList (Json.write v) = text := by
  unfold canonicalJson
  split <;> simp [*]

theorem write_eq_of_canonicalJson {v w : Value} {text : String} (hv : canonicalJson v = .ok text)
    (hw : canonicalJson w = .ok text) : Json.write v = Json.write w := by
  obtain ⟨-, rfl⟩ := canonicalJson_eq_ok.mp hv
  obtain ⟨-, hwritten⟩ := canonicalJson_eq_ok.mp hw
  exact (String.ofList_injective hwritten).symm

end DatasetCatalog
