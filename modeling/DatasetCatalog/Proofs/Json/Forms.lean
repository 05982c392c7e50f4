import DatasetCatalog.Proofs.Success
import DatasetCatalog.Value.JsonForm
import Mathlib.Order.Lattice

/-!
# JSON forms

Data are plain when JSON can hold them as they are. A JSON form is plain, and what is plain is its
own form unless it is too deep.
-/

namespace DatasetCatalog.Value

section Depth
variable {room : Nat}

theorem nesting_le_nestings {v : Value} {vs : List Value} (h : v ∈ vs) :
    v.nesting ≤ nestings vs := by
  induction vs with
  | nil => cases h
  | cons w rest ih =>
    rw [nestings]
    rcases List.mem_cons.mp h with rfl | h
    · exact le_max_left _ _
    · exact (ih h).trans (le_max_right _ _)

theorem nesting_le_nestingEntries {e : String × Value} {es : List (String × Value)} (h : e ∈ es) :
    e.2.nesting ≤ nestingEntries es := by
  induction es with
  | nil => cases h
  | cons f rest ih =>
    rw [nestingEntries]
    rcases List.mem_cons.mp h with rfl | h
    · exact le_max_left _ _
    · exact (ih h).trans (le_max_right _ _)

theorem nesting_list (v : Value) (rest : List Value) :
    (Value.list (v :: rest)).nesting = nestings (v :: rest) + 1 := rfl

theorem nesting_object (e : String × Value) (rest : List (String × Value)) :
    (Value.object (e :: rest)).nesting = nestingEntries (e :: rest) + 1 := rfl

theorem jsonFormsIn_eq_self {vs : List Value} (h : ∀ v ∈ vs, v.jsonFormIn room = .ok v) :
    jsonFormsIn room vs = .ok vs := by
  induction vs with
  | nil => rfl
  | cons v rest ih =>
    obtain ⟨hv, hrest⟩ := List.forall_mem_cons.mp h
    rw [jsonFormsIn, hv, ih hrest]
    rfl

theorem jsonEntriesIn_eq_self {es : List (String × Value)}
    (h : ∀ e ∈ es, e.2.jsonFormIn room = .ok e.2) : jsonEntriesIn room es = .ok es := by
  induction es with
  | nil => rfl
  | cons e rest ih =>
    obtain ⟨he, hrest⟩ := List.forall_mem_cons.mp h
    rw [jsonEntriesIn, he, ih hrest]
    rfl

mutual

/-- What has a JSON form is not too deep. -/
theorem nesting_lt_of_jsonFormIn : ∀ {v form : Value} {room : Nat},
    v.jsonFormIn room = .ok form → v.nesting < room
  | v, _, 0, h => by cases v <;> cases h
  | .list [], _, _ + 1, _ => Nat.succ_pos _
  | .list (v :: rest), _, room + 1, h => by
    obtain ⟨forms, hforms, _⟩ := map_eq_ok h
    rw [nesting_list]
    exact Nat.succ_lt_succ (nestings_lt_of_jsonFormsIn (List.cons_ne_nil v rest) hforms)
  | .object [], _, _ + 1, _ => Nat.succ_pos _
  | .object (e :: rest), _, room + 1, h => by
    obtain ⟨forms, hforms, _⟩ := map_eq_ok h
    rw [nesting_object]
    exact Nat.succ_lt_succ (nestingEntries_lt_of_jsonEntriesIn (List.cons_ne_nil e rest) hforms)
  | .null, _, _ + 1, _ => Nat.succ_pos _
  | .bool _, _, _ + 1, _ => Nat.succ_pos _
  | .int _, _, _ + 1, _ => Nat.succ_pos _
  | .float _, _, _ + 1, _ => Nat.succ_pos _
  | .text _, _, _ + 1, _ => Nat.succ_pos _
  | .date _, _, _ + 1, _ => Nat.succ_pos _
  | .moment _, _, _ + 1, _ => Nat.succ_pos _
  | .duration _, _, _ + 1, _ => Nat.succ_pos _
  | .decimal _, _, _ + 1, _ => Nat.succ_pos _
  | .nan _ _, _, _ + 1, _ => Nat.succ_pos _
  | .bytes _, _, _ + 1, _ => Nat.succ_pos _

theorem nestings_lt_of_jsonFormsIn : ∀ {vs forms : List Value} {room : Nat}, vs ≠ [] →
    jsonFormsIn room vs = .ok forms → nestings vs < room
  | [], _, _, hne, _ => absurd rfl hne
  | [v], _, room, _, h => by
    obtain ⟨form, hform, _⟩ := bind_eq_ok h
    rw [nestings, nestings, Nat.max_zero]
    exact nesting_lt_of_jsonFormIn hform
  | v :: w :: rest, _, room, _, h => by
    obtain ⟨form, hform, h⟩ := bind_eq_ok h
    obtain ⟨forms, hforms, _⟩ := bind_eq_ok h
    rw [nestings]
    exact max_lt (nesting_lt_of_jsonFormIn hform)
      (nestings_lt_of_jsonFormsIn (List.cons_ne_nil w rest) hforms)

theorem nestingEntries_lt_of_jsonEntriesIn : ∀ {es forms : List (String × Value)} {room : Nat},
    es ≠ [] → jsonEntriesIn room es = .ok forms → nestingEntries es < room
  | [], _, _, hne, _ => absurd rfl hne
  | [(_, v)], _, room, _, h => by
    obtain ⟨form, hform, _⟩ := bind_eq_ok h
    rw [nestingEntries, nestingEntries, Nat.max_zero]
    exact nesting_lt_of_jsonFormIn hform
  | (_, v) :: f :: rest, _, room, _, h => by
    obtain ⟨form, hform, h⟩ := bind_eq_ok h
    obtain ⟨forms, hforms, _⟩ := bind_eq_ok h
    rw [nestingEntries]
    exact max_lt (nesting_lt_of_jsonFormIn hform)
      (nestingEntries_lt_of_jsonEntriesIn (List.cons_ne_nil f rest) hforms)

end

end Depth

section Forms
variable {room : Nat}

theorem forall₂_of_jsonFormsIn {vs forms : List Value} (h : jsonFormsIn room vs = .ok forms) :
    List.Forall₂ (fun v form => jsonFormIn room v = .ok form) vs forms := by
  induction vs generalizing forms with
  | nil =>
    cases h
    exact .nil
  | cons v rest ih =>
    obtain ⟨form, hform, h⟩ := bind_eq_ok h
    obtain ⟨behind, hbehind, h⟩ := bind_eq_ok h
    cases h
    exact .cons hform (ih hbehind)

theorem jsonFormsIn_texts (room : Nat) (texts : List String) :
    jsonFormsIn (room + 1) (texts.map .text) = .ok (texts.map .text) := by
  induction texts with
  | nil => rfl
  | cons s rest ih =>
    rw [List.map_cons, jsonFormsIn, ih]
    rfl

theorem jsonFormIn_list_ok {vs : List Value} {form : Value}
    (h : jsonFormIn (room + 1) (.list vs) = .ok form) :
    ∃ forms, jsonFormsIn room vs = .ok forms ∧ form = .list forms := by
  obtain ⟨forms, hforms, hlist⟩ := map_eq_ok h
  exact ⟨forms, hforms, hlist.symm⟩

theorem jsonFormIn_object_ok {es : List (String × Value)} {form : Value}
    (h : jsonFormIn (room + 1) (.object es) = .ok form) :
    ∃ forms, jsonEntriesIn room es = .ok forms ∧ form = .object forms := by
  obtain ⟨forms, hforms, hobject⟩ := map_eq_ok h
  exact ⟨forms, hforms, hobject.symm⟩

theorem jsonEntriesIn_cons_ok {key : String} {v : Value} {rest forms : List (String × Value)}
    (h : jsonEntriesIn room ((key, v) :: rest) = .ok forms) :
    ∃ form behind, jsonFormIn room v = .ok form ∧ jsonEntriesIn room rest = .ok behind ∧
      forms = (key, form) :: behind := by
  obtain ⟨form, hform, hrest⟩ := bind_eq_ok h
  obtain ⟨behind, hbehind, hforms⟩ := bind_eq_ok hrest
  exact ⟨form, behind, hform, hbehind, (Except.ok.inj hforms).symm⟩

theorem jsonEntriesIn_nil_ok {forms : List (String × Value)}
    (h : jsonEntriesIn room [] = .ok forms) : forms = [] :=
  (Except.ok.inj h).symm

/-- JSON data of finite numbers. -/
inductive IsPlain : Value → Prop
  | null : IsPlain .null
  | bool (b : Bool) : IsPlain (.bool b)
  | int (n : Int) : IsPlain (.int n)
  | float {x : Float} : x.isFinite = true → IsPlain (.float x)
  | text (s : String) : IsPlain (.text s)
  | list {vs : List Value} : (∀ v ∈ vs, IsPlain v) → IsPlain (.list vs)
  | object {es : List (String × Value)} : (∀ e ∈ es, IsPlain e.2) → IsPlain (.object es)

/-- Plain data that are not too deep are their own JSON form. -/
theorem IsPlain.jsonFormIn_eq_self {v : Value} (hv : v.IsPlain) (h : v.nesting < room) :
    v.jsonFormIn room = .ok v := by
  induction hv generalizing room with
  | float hx =>
    obtain ⟨room, rfl⟩ := Nat.exists_eq_add_of_lt (Nat.zero_lt_of_lt h)
    rw [Nat.zero_add, jsonFormIn, if_pos hx]
  | @list vs _ ih =>
    obtain ⟨room, rfl⟩ := Nat.exists_eq_add_of_lt (Nat.zero_lt_of_lt h)
    have hforms : jsonFormsIn (0 + room) vs = .ok vs := by
      refine jsonFormsIn_eq_self fun v hv => ih v hv ?_
      obtain ⟨w, rest, rfl⟩ := List.exists_cons_of_ne_nil (List.ne_nil_of_mem hv)
      rw [nesting_list] at h
      have := nesting_le_nestings hv
      omega
    rw [jsonFormIn, hforms]
    rfl
  | @object es _ ih =>
    obtain ⟨room, rfl⟩ := Nat.exists_eq_add_of_lt (Nat.zero_lt_of_lt h)
    have hforms : jsonEntriesIn (0 + room) es = .ok es := by
      refine jsonEntriesIn_eq_self fun e he => ih e he ?_
      obtain ⟨f, rest, rfl⟩ := List.exists_cons_of_ne_nil (List.ne_nil_of_mem he)
      rw [nesting_object] at h
      have := nesting_le_nestingEntries he
      omega
    rw [jsonFormIn, hforms]
    rfl
  | _ =>
    obtain ⟨room, rfl⟩ := Nat.exists_eq_add_of_lt h
    rfl

theorem lookup_of_jsonEntriesIn {es forms : List (String × Value)}
    (h : jsonEntriesIn room es = .ok forms) {key : String} {v : Value}
    (hv : es.lookup key = some v) :
    ∃ form, forms.lookup key = some form ∧ jsonFormIn room v = .ok form := by
  induction es generalizing forms with
  | nil => cases hv
  | cons e rest ih =>
    obtain ⟨k, u⟩ := e
    obtain ⟨form, behind, hform, hbehind, rfl⟩ := jsonEntriesIn_cons_ok h
    rw [List.lookup_cons] at hv ⊢
    cases hk : key == k with
    | true =>
      rw [hk] at hv
      cases hv
      exact ⟨form, rfl, hform⟩
    | false =>
      rw [hk] at hv
      exact ih hbehind hv

mutual

theorem isPlain_of_jsonFormIn : ∀ {v form : Value} {room : Nat},
    v.jsonFormIn room = .ok form → form.IsPlain
  | v, _, 0, h => by cases v <;> cases h
  | .list vs, _, room + 1, h => by
    obtain ⟨forms, hforms, rfl⟩ := jsonFormIn_list_ok h
    exact .list (isPlain_of_jsonFormsIn hforms)
  | .object es, _, room + 1, h => by
    obtain ⟨forms, hforms, rfl⟩ := jsonFormIn_object_ok h
    exact .object (isPlain_of_jsonEntriesIn hforms)
  | .float x, _, _ + 1, h => by
    rw [jsonFormIn] at h
    split at h
    · rename_i hx
      cases h
      exact .float hx
    · cases h
      exact .null
  | .bytes octets, _, _ + 1, h => by
    rw [jsonFormIn] at h
    split at h
    · cases h
      exact .text _
    · cases h
  | .null, _, _ + 1, h | .nan _ .double, _, _ + 1, h => by
    cases h
    exact .null
  | .bool b, _, _ + 1, h => by
    cases h
    exact .bool b
  | .int n, _, _ + 1, h => by
    cases h
    exact .int n
  | .text s, _, _ + 1, h => by
    cases h
    exact .text s
  | .date _, _, _ + 1, h | .moment _, _, _ + 1, h | .duration _, _, _ + 1, h
  | .decimal _, _, _ + 1, h | .nan _ (.decimal ..), _, _ + 1, h => by
    cases h
    exact .text _

theorem isPlain_of_jsonFormsIn : ∀ {vs forms : List Value} {room : Nat},
    jsonFormsIn room vs = .ok forms → ∀ w ∈ forms, w.IsPlain
  | [], _, _, h, _, hw => by
    cases h
    cases hw
  | v :: rest, _, _, h, _, hw => by
    obtain ⟨form, hform, h⟩ := bind_eq_ok h
    obtain ⟨behind, hbehind, h⟩ := bind_eq_ok h
    cases h
    rcases List.mem_cons.mp hw with rfl | hw
    · exact isPlain_of_jsonFormIn hform
    · exact isPlain_of_jsonFormsIn hbehind _ hw

theorem isPlain_of_jsonEntriesIn : ∀ {es forms : List (String × Value)} {room : Nat},
    jsonEntriesIn room es = .ok forms → ∀ e ∈ forms, e.2.IsPlain
  | [], _, _, h, _, he => by
    cases h
    cases he
  | (key, v) :: rest, _, _, h, _, he => by
    obtain ⟨form, behind, hform, hbehind, rfl⟩ := jsonEntriesIn_cons_ok h
    rcases List.mem_cons.mp he with rfl | he
    · exact isPlain_of_jsonFormIn hform
    · exact isPlain_of_jsonEntriesIn hbehind _ he

end

end Forms

namespace IsPlain

attribute [simp] null bool int text

@[simp] theorem float_iff {x : Float} : (Value.float x).IsPlain ↔ x.isFinite = true :=
  ⟨fun | .float hx => hx, .float⟩

@[simp] theorem list_iff {vs : List Value} : (Value.list vs).IsPlain ↔ ∀ v ∈ vs, v.IsPlain :=
  ⟨fun | .list h => h, .list⟩

@[simp] theorem object_iff {es : List (String × Value)} :
    (Value.object es).IsPlain ↔ ∀ e ∈ es, e.2.IsPlain :=
  ⟨fun | .object h => h, .object⟩

@[simp] theorem ofOption_iff {α : Type} {f : α → Value} {o : Option α} :
    (Value.ofOption f o).IsPlain ↔ ∀ a, o = some a → (f a).IsPlain := by
  cases o <;> simp [Value.ofOption]

end IsPlain

/-- The value is a double, or the object of one that is no number. -/
inductive IsDouble : Value → Prop
  | float (x : Float) : IsDouble (.float x)
  | nan (number : Nat) : IsDouble (.nan number .double)

/-- The value has that JSON form, where there is room for it. -/
def HasForm (v form : Value) : Prop := ∃ room, v.jsonFormIn room = .ok form

namespace HasForm
variable {v form : Value}

theorem isPlain (h : v.HasForm form) : form.IsPlain := by
  obtain ⟨_, h⟩ := h
  exact isPlain_of_jsonFormIn h

theorem eq_of_isPlain (h : v.HasForm form) (hv : v.IsPlain) : form = v := by
  obtain ⟨_, h⟩ := h
  rw [hv.jsonFormIn_eq_self (nesting_lt_of_jsonFormIn h)] at h
  exact (Except.ok.inj h).symm

/-- Only a double that is no number becomes null. -/
theorem ne_null (h : v.HasForm form) (hnull : v ≠ .null) (hdouble : ¬v.IsDouble) :
    form ≠ .null := by
  obtain ⟨room, h⟩ := h
  rintro rfl
  cases room with
  | zero => cases v <;> cases h
  | succ room =>
    cases v with
    | null => exact hnull rfl
    | float x => exact hdouble (.float x)
    | nan number n =>
      cases n with
      | double => exact hdouble (.nan number)
      | decimal => cases h
    | list vs =>
      obtain ⟨_, _, hform⟩ := jsonFormIn_list_ok h
      cases hform
    | object es =>
      obtain ⟨_, _, hform⟩ := jsonFormIn_object_ok h
      cases hform
    | bytes octets =>
      rw [jsonFormIn] at h
      split at h <;> cases h
    | _ => cases h

theorem list {vs : List Value} (h : (Value.list vs).HasForm form) :
    ∃ forms, form = .list forms ∧ List.Forall₂ HasForm vs forms := by
  obtain ⟨room, h⟩ := h
  cases room with
  | zero => cases h
  | succ room =>
    obtain ⟨forms, hforms, rfl⟩ := jsonFormIn_list_ok h
    exact ⟨forms, rfl, (forall₂_of_jsonFormsIn hforms).imp fun _ _ hv => ⟨room, hv⟩⟩

/-- An entry of the form is the form of the entry. -/
theorem object {es : List (String × Value)} (h : (Value.object es).HasForm form) :
    ∃ forms, form = .object forms ∧ ∀ key v, es.lookup key = some v →
      ∃ w, forms.lookup key = some w ∧ v.HasForm w := by
  obtain ⟨room, h⟩ := h
  cases room with
  | zero => cases h
  | succ room =>
    obtain ⟨forms, hforms, rfl⟩ := jsonFormIn_object_ok h
    refine ⟨forms, rfl, fun key v hv => ?_⟩
    obtain ⟨w, hw, hform⟩ := lookup_of_jsonEntriesIn hforms hv
    exact ⟨w, hw, room, hform⟩

end HasForm

section Nesting

mutual

/-- A JSON form is as deep as the value. -/
theorem nesting_of_jsonFormIn : ∀ {v form : Value} {room : Nat},
    v.jsonFormIn room = .ok form → form.nesting = v.nesting
  | v, _, 0, h => by cases v <;> cases h
  | .list vs, _, room + 1, h => by
    obtain ⟨forms, hforms, rfl⟩ := jsonFormIn_list_ok h
    have hlength := (forall₂_of_jsonFormsIn hforms).length_eq
    have hnesting := nestings_of_jsonFormsIn hforms
    cases vs with
    | nil =>
      cases hforms
      rfl
    | cons v rest =>
      cases forms with
      | nil => cases hlength
      | cons w behind => rw [nesting_list, nesting_list, hnesting]
  | .object es, _, room + 1, h => by
    obtain ⟨forms, hforms, rfl⟩ := jsonFormIn_object_ok h
    have hnesting := nestingEntries_of_jsonEntriesIn hforms
    cases es with
    | nil =>
      cases hforms
      rfl
    | cons e rest =>
      obtain ⟨_, _, _, _, rfl⟩ := jsonEntriesIn_cons_ok hforms
      rw [nesting_object, nesting_object, hnesting]
  | .float x, _, _ + 1, h => by
    rw [jsonFormIn] at h
    split at h <;> cases h <;> rfl
  | .bytes octets, _, _ + 1, h => by
    rw [jsonFormIn] at h
    split at h
    · cases h
      rfl
    · cases h
  | .null, _, _ + 1, h | .bool _, _, _ + 1, h | .int _, _, _ + 1, h | .text _, _, _ + 1, h
  | .date _, _, _ + 1, h | .moment _, _, _ + 1, h | .duration _, _, _ + 1, h
  | .decimal _, _, _ + 1, h | .nan _ .double, _, _ + 1, h | .nan _ (.decimal ..), _, _ + 1, h => by
    cases h
    rfl

theorem nestings_of_jsonFormsIn : ∀ {vs forms : List Value} {room : Nat},
    jsonFormsIn room vs = .ok forms → nestings forms = nestings vs
  | [], _, _, h => by
    cases h
    rfl
  | v :: rest, _, _, h => by
    obtain ⟨form, hform, h⟩ := bind_eq_ok h
    obtain ⟨behind, hbehind, h⟩ := bind_eq_ok h
    cases h
    rw [nestings, nestings, nesting_of_jsonFormIn hform, nestings_of_jsonFormsIn hbehind]

theorem nestingEntries_of_jsonEntriesIn : ∀ {es forms : List (String × Value)} {room : Nat},
    jsonEntriesIn room es = .ok forms → nestingEntries forms = nestingEntries es
  | [], _, _, h => by
    cases h
    rfl
  | (key, v) :: rest, _, _, h => by
    obtain ⟨form, behind, hform, hbehind, rfl⟩ := jsonEntriesIn_cons_ok h
    rw [nestingEntries, nestingEntries, nesting_of_jsonFormIn hform,
      nestingEntries_of_jsonEntriesIn hbehind]

end

end Nesting

end DatasetCatalog.Value
