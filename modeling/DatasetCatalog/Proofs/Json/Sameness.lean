import DatasetCatalog.Proofs.Json.Forms
import DatasetCatalog.Proofs.Json.Injectivity
import DatasetCatalog.Proofs.Number.DoubleText
import DatasetCatalog.Proofs.Success
import DatasetCatalog.Value.JsonForm

/-!
# Values that are one in JSON

Two values are one in JSON when they differ at most in the order in which objects name their keys.
Finite data are written alike exactly when they are one.
-/

namespace DatasetCatalog

open Json Number

namespace Value

/-- JSON data of finite numbers, whose objects name a key once. -/
inductive IsFiniteJson : Value → Prop
  | null : IsFiniteJson .null
  | bool (b : Bool) : IsFiniteJson (.bool b)
  | int (n : Int) : IsFiniteJson (.int n)
  | float {x : Float} : x.isFinite = true → IsFiniteJson (.float x)
  | text (s : String) : IsFiniteJson (.text s)
  | list {vs : List Value} : (∀ v ∈ vs, IsFiniteJson v) → IsFiniteJson (.list vs)
  | object {es : List (String × Value)} : (es.map Prod.fst).Nodup → (∀ e ∈ es, IsFiniteJson e.2) →
    IsFiniteJson (.object es)

/-- The values are equal but for the order of keys. -/
inductive SameJson : Value → Value → Prop
  | null : SameJson .null .null
  | bool (b : Bool) : SameJson (.bool b) (.bool b)
  | int (n : Int) : SameJson (.int n) (.int n)
  | float (x : Float) : SameJson (.float x) (.float x)
  | text (s : String) : SameJson (.text s) (.text s)
  | list {vs ws : List Value} : vs.length = ws.length →
    (∀ p ∈ vs.zip ws, SameJson p.1 p.2) → SameJson (.list vs) (.list ws)
  | object {es fs : List (String × Value)} : (es.map Prod.fst).Perm (fs.map Prod.fst) →
    (∀ e ∈ es, ∀ f ∈ fs, e.1 = f.1 → SameJson e.2 f.2) → SameJson (.object es) (.object fs)

inductive Kind where
  | null | truth | number | text | list | object
deriving DecidableEq, Repr

/-- The kind of JSON value that a written value has; what JSON lacks is written as a text. -/
def kind : Value → Kind
  | .null => .null
  | .bool _ => .truth
  | .int _ | .float _ | .nan _ .double => .number
  | .list _ => .list
  | .object _ => .object
  | _ => .text

end Value

namespace Json

section Kinds

open Value (Kind)

/-- The kind of a written value, by its first character. -/
def kindOf (c : Char) : Kind :=
  if c = 'n' then .null
  else if c = 't' ∨ c = 'f' then .truth
  else if c = '"' then .text
  else if c = '[' then .list
  else if c = '\x7b' then .object
  else .number

theorem kindOf_of_isDigit {c : Char} (h : c.isDigit = true) : kindOf c = .number := by
  have hne : ∀ a : Char, a.isDigit = false → c ≠ a := by
    rintro a ha rfl
    rw [h] at ha
    cases ha
  unfold kindOf
  rw [if_neg (hne _ rfl), if_neg (not_or.mpr ⟨hne _ rfl, hne _ rfl⟩), if_neg (hne _ rfl),
    if_neg (hne _ rfl), if_neg (hne _ rfl)]

/-- A sign comes before the digits, if at all. -/
theorem kindOf_head_signed {negative : Bool} {ds : List Char} {c : Char}
    (hds : ∀ d, ds.head? = some d → d.isDigit = true)
    (h : ((if negative then ['-'] else []) ++ ds).head? = some c) : kindOf c = .number := by
  cases negative with
  | true =>
    cases h
    rfl
  | false => exact kindOf_of_isDigit (hds c h)

theorem isDigit_of_head_natText {n : Nat} {c : Char} (h : (natText n).head? = some c) :
    c.isDigit = true :=
  isDigit_of_mem_natText (List.mem_of_mem_head? h)

theorem isDigit_of_head_layoutDigits {ds : List Char} (hds : ∀ d ∈ ds, d.isDigit = true)
    (hne : ds ≠ []) (point : Int) {c : Char} (h : (layoutDigits ds point).head? = some c) :
    c.isDigit = true := by
  obtain ⟨d, rest, rfl⟩ := List.exists_cons_of_ne_nil hne
  have hd : d.isDigit = true := hds d List.mem_cons_self
  unfold layoutDigits at h
  simp only at h
  split at h
  · split at h
    · cases h
      rfl
    split at h
    · cases h
      exact hd
    · rename_i hpoint _
      obtain ⟨n, hn⟩ : ∃ n, point.toNat = n + 1 := ⟨point.toNat - 1, by omega⟩
      rw [hn] at h
      cases h
      exact hd
  · cases h
    exact hd

theorem kindOf_head_writeFloat {x : Float} {c : Char} (h : (writeFloat x).head? = some c) :
    kindOf c = .number := by
  unfold writeFloat at h
  split at h
  · cases h
    rfl
  · rename_i negative _
    cases negative <;> (cases h; rfl)
  · rename_i hnan hinfinite
    cases hx : Binary64.ofFloat x with
    | nan => exact absurd hx hnan
    | infinite negative => exact absurd hx (hinfinite negative)
    | finite negative significand exponent =>
      rw [hx] at h
      refine kindOf_head_signed (fun d hd => ?_) h
      unfold positiveText at hd
      split at hd
      · cases hd
        rfl
      · exact isDigit_of_head_layoutDigits (fun _ => isDigit_of_mem_natText) Nat.toDigits_ne_nil _
          hd

/-- The first character of a written value tells its kind. -/
theorem kindOf_head_write (v : Value) {c : Char} (h : (write v).head? = some c) :
    kindOf c = v.kind := by
  cases v with
  | bool b => cases b <;> (cases h; rfl)
  | int n =>
    rw [write, intText, String.toList_ofList] at h
    have hsign : ((if decide (n < 0) then ['-'] else []) ++ natText n.natAbs).head? = some c := by
      rw [← h]
      simp only [decide_eq_true_eq]
    exact kindOf_head_signed (fun _ => isDigit_of_head_natText) hsign
  | float x => exact kindOf_head_writeFloat h
  | nan _ n =>
    cases n with
    | double =>
      rw [write, writeNotANumber] at h
      exact kindOf_head_writeFloat h
    | decimal =>
      cases h
      rfl
  | _ =>
    cases h
    rfl

/-- Values that are written alike are of one kind. -/
theorem kind_of_write_eq {v w : Value} (h : write v = write w) : v.kind = w.kind := by
  obtain ⟨c, rest, hc⟩ := List.exists_cons_of_ne_nil (write_ne_nil v)
  have hv : (write v).head? = some c := congrArg List.head? hc
  exact (kindOf_head_write v hv).symm.trans (kindOf_head_write w (h ▸ hv))

end Kinds

/-- Two lists map to one list when what stands at one place maps to one thing. -/
theorem map_eq_map_iff_zip {α β γ : Type} {f : α → γ} {g : β → γ} {as : List α} {bs : List β} :
    as.map f = bs.map g ↔ as.length = bs.length ∧ ∀ {a b}, (a, b) ∈ as.zip bs → f a = g b := by
  rw [← List.forall₂_eq_eq_eq, List.forall₂_map_left_iff, List.forall₂_map_right_iff,
    List.forall₂_iff_zip]

section Objects

theorem pairwise_mergeSort_key {α : Type} (key : α → String) (as : List α) :
    (as.mergeSort fun a b => decide (key a ≤ key b)).Pairwise fun a b => key a ≤ key b := by
  apply List.Pairwise.imp of_decide_eq_true
  apply List.pairwise_mergeSort
  · intro a b c hab hbc
    exact decide_eq_true (String.le_trans (of_decide_eq_true hab) (of_decide_eq_true hbc))
  · intro a b
    rw [Bool.or_eq_true, decide_eq_true_eq, decide_eq_true_eq]
    exact String.le_total (key a) (key b)

/-- Written entries in the order of their keys. -/
def sortedFields (es : List (String × Value)) : List (String × List Char) :=
  (writeFields es).mergeSort fun a b => decide (a.1 ≤ b.1)

theorem mem_sortedFields {es : List (String × Value)} {p : String × List Char} :
    p ∈ sortedFields es ↔ ∃ e ∈ es, (e.1, write e.2) = p := by
  rw [sortedFields, List.mem_mergeSort, writeFields_eq_map, List.mem_map]

theorem sortedFields_perm (es : List (String × Value)) :
    (sortedFields es).Perm (es.map fun e => (e.1, write e.2)) := by
  rw [← writeFields_eq_map]
  exact List.mergeSort_perm _ _

/-- Objects have the same entries if they are written alike. -/
theorem sortedFields_of_write_eq {es fs : List (String × Value)}
    (h : write (.object es) = write (.object fs)) : sortedFields es = sortedFields fs := by
  have hentries := map_eq_map_iff_zip.mp (write_entries_inj h)
  rw [← List.forall₂_eq_eq_eq, List.forall₂_iff_zip]
  refine ⟨hentries.1, fun {p q} hpq => ?_⟩
  obtain ⟨hp, hq⟩ := List.of_mem_zip hpq
  obtain ⟨e, he, rfl⟩ := mem_sortedFields.mp hp
  obtain ⟨f, hf, rfl⟩ := mem_sortedFields.mp hq
  obtain ⟨hkey, hvalue⟩ := writeText_append_inj (hentries.2 hpq)
  exact Prod.ext hkey (List.cons.inj hvalue).2

/-- Objects that name a key once and are written alike have the same keys, with values that are
written alike. -/
theorem fields_of_write_eq {es fs : List (String × Value)} (hkeys : (fs.map Prod.fst).Nodup)
    (h : write (.object es) = write (.object fs)) :
    (es.map Prod.fst).Perm (fs.map Prod.fst) ∧
      ∀ e ∈ es, ∀ f ∈ fs, e.1 = f.1 → write e.2 = write f.2 := by
  have hsame := sortedFields_of_write_eq h
  constructor
  · have hperm := ((sortedFields_perm es).symm.trans (hsame ▸ sortedFields_perm fs)).map Prod.fst
    rwa [List.map_map, List.map_map] at hperm
  · intro e he f hf hkey
    have hmem : (e.1, write e.2) ∈ sortedFields fs := hsame ▸ mem_sortedFields.mpr ⟨e, he, rfl⟩
    obtain ⟨f', hf', hentry⟩ := mem_sortedFields.mp hmem
    obtain ⟨hkey', hvalue⟩ := Prod.mk.inj hentry
    rw [List.inj_on_of_nodup_map hkeys hf hf' (hkey.symm.trans hkey'.symm)]
    exact hvalue.symm

/-- The written entries of objects that name a key once are the same, but for their order, if the
keys are and the values are written alike. -/
theorem fields_perm {es fs : List (String × Value)} (hes : (es.map Prod.fst).Nodup)
    (hfs : (fs.map Prod.fst).Nodup) (hperm : (es.map Prod.fst).Perm (fs.map Prod.fst))
    (h : ∀ e ∈ es, ∀ f ∈ fs, e.1 = f.1 → write e.2 = write f.2) :
    (es.map fun e => (e.1, write e.2)).Perm (fs.map fun f => (f.1, write f.2)) := by
  have hnodup : ∀ {gs : List (String × Value)}, (gs.map Prod.fst).Nodup →
      (gs.map fun g => (g.1, write g.2)).Nodup := by
    intro gs hgs
    apply List.Nodup.of_map Prod.fst
    rw [List.map_map]
    exact hgs
  rw [List.perm_ext_iff_of_nodup (hnodup hes) (hnodup hfs)]
  intro p
  rw [List.mem_map, List.mem_map]
  constructor
  · rintro ⟨e, he, rfl⟩
    obtain ⟨f, hf, hkey⟩ := List.mem_map.mp (hperm.mem_iff.mp (List.mem_map_of_mem he))
    exact ⟨f, hf, Prod.ext hkey (h e he f hf hkey.symm).symm⟩
  · rintro ⟨f, hf, rfl⟩
    obtain ⟨e, he, hkey⟩ := List.mem_map.mp (hperm.mem_iff.mpr (List.mem_map_of_mem hf))
    exact ⟨e, he, Prod.ext hkey (h e he f hf hkey)⟩

/-- Objects that name a key once are written alike if they have the same entries. -/
theorem write_eq_of_fields_perm {es fs : List (String × Value)} (hes : (es.map Prod.fst).Nodup)
    (h : (es.map fun e => (e.1, write e.2)).Perm (fs.map fun f => (f.1, write f.2))) :
    write (.object es) = write (.object fs) := by
  have hperm : (sortedFields es).Perm (sortedFields fs) :=
    (sortedFields_perm es).trans (h.trans (sortedFields_perm fs).symm)
  have hsame : sortedFields es = sortedFields fs := by
    refine List.Perm.eq_of_pairwise (fun p q hp hq hpq hqp => ?_) (pairwise_mergeSort_key _ _)
      (pairwise_mergeSort_key _ _) hperm
    have hkey : p.1 = q.1 := String.le_antisymm hpq hqp
    obtain ⟨e, he, rfl⟩ := mem_sortedFields.mp hp
    obtain ⟨e', he', rfl⟩ := mem_sortedFields.mp (hperm.mem_iff.mpr hq)
    rw [List.inj_on_of_nodup_map hes he he' hkey]
  rw [write, write, writeEntries, writeEntries]
  exact congrArg (fun sorted : List (String × List Char) =>
    '\x7b' :: separated (sorted.map fun e => writeText e.1 ++ ':' :: e.2) ++ ['\x7d']) hsame

end Objects

end Json

namespace Value

/-- Data that are written alike are one in JSON. -/
theorem IsFiniteJson.sameJson {v w : Value} (hv : v.IsFiniteJson) (hw : w.IsFiniteJson)
    (h : write v = write w) : v.SameJson w := by
  induction hv generalizing w with
  | null =>
    have hkind := kind_of_write_eq h
    cases hw with
    | null => exact .null
    | _ => cases hkind
  | bool b =>
    have hkind := kind_of_write_eq h
    cases hw with
    | bool b' =>
      cases b <;> cases b' <;> first | exact .bool _ | cases h
    | _ => cases hkind
  | int n =>
    have hkind := kind_of_write_eq h
    cases hw with
    | int m =>
      rw [intText_injective (String.toList_injective h)]
      exact .int m
    | float hx => exact absurd h.symm (writeFloat_ne_intText _ n)
    | _ => cases hkind
  | float hx =>
    have hkind := kind_of_write_eq h
    cases hw with
    | int m => exact absurd h (writeFloat_ne_intText _ m)
    | float hy =>
      rw [writeFloat_injective hx hy h]
      exact .float _
    | _ => cases hkind
  | text s =>
    have hkind := kind_of_write_eq h
    cases hw with
    | text s' =>
      rw [writeText_inj h]
      exact .text s'
    | _ => cases hkind
  | list hvs ih =>
    have hkind := kind_of_write_eq h
    cases hw with
    | list hws =>
      have hitems := map_eq_map_iff_zip.mp (write_list_inj h)
      refine .list hitems.1 fun p hp => ?_
      obtain ⟨hleft, hright⟩ := List.of_mem_zip (a := p.1) (b := p.2) hp
      exact ih p.1 hleft (hws p.2 hright) (hitems.2 hp)
    | _ => cases hkind
  | @object es hkeys hvalues ih =>
    have hkind := kind_of_write_eq h
    cases hw with
    | @object fs hkeys' hvalues' =>
      obtain ⟨hperm, hwritten⟩ := fields_of_write_eq hkeys' h
      exact .object hperm fun e he f hf hkey =>
        ih e he (hvalues' f hf) (hwritten e he f hf hkey)
    | _ => cases hkind

/-- Data that are one in JSON are written alike. -/
theorem SameJson.write_eq {v w : Value} (h : v.SameJson w) (hv : v.IsFiniteJson)
    (hw : w.IsFiniteJson) : write v = write w := by
  induction h with
  | list hlength _ ih =>
    cases hv with
    | list hvs =>
      cases hw with
      | list hws =>
        rw [write, write, writeItems_eq_map, writeItems_eq_map]
        congr 3
        refine map_eq_map_iff_zip.mpr ⟨hlength, fun {v w} hvw => ?_⟩
        obtain ⟨hleft, hright⟩ := List.of_mem_zip hvw
        exact ih (v, w) hvw (hvs v hleft) (hws w hright)
  | @object es fs hperm _ ih =>
    cases hv with
    | object hkeys hvalues =>
      cases hw with
      | object hkeys' hvalues' =>
        exact write_eq_of_fields_perm hkeys (fields_perm hkeys hkeys' hperm fun e he f hf hkey =>
          ih e he f hf hkey (hvalues e he) (hvalues' f hf))
  | _ => rfl

theorem IsFiniteJson.isPlain {v : Value} (h : v.IsFiniteJson) : v.IsPlain := by
  induction h with
  | null => exact .null
  | bool b => exact .bool b
  | int n => exact .int n
  | float hx => exact .float hx
  | text _ => exact .text _
  | list _ ih => exact .list ih
  | object _ _ ih => exact .object ih

end Value

end DatasetCatalog
