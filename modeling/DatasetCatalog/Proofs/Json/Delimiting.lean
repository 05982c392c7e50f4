import DatasetCatalog.Json.Canonical
import DatasetCatalog.Proofs.Json.Escaping

/-!
# Where a written value ends

Behind a value stand a comma or a bracket that closes what was opened in front of it. A written
value opens and closes its own brackets and quotes, so it ends where the first such character stands
that it did not open itself.
-/

namespace DatasetCatalog.Json

open Number Text

/-- Where in a value a character stands: outside of texts, in one, or in one behind a backslash. The
number is how many brackets are open. -/
inductive Place where
  | outside (depth : Nat)
  | inside (depth : Nat)
  | escaped (depth : Nat)
deriving DecidableEq

namespace Place

/-- The place behind a character; none, if the value is over in front of it. -/
def next : Place → Char → Option Place
  | .outside n, c =>
    if c = '"' then some (.inside n)
    else if c = '[' ∨ c = '\x7b' then some (.outside (n + 1))
    else if c = ']' ∨ c = '\x7d' then if n = 0 then none else some (.outside (n - 1))
    else if c = ',' ∧ n = 0 then none
    else some (.outside n)
  | .inside n, c =>
    some (if c = '\\' then .escaped n else if c = '"' then .outside n else .inside n)
  | .escaped n, _ => some (.inside n)

def after (p : Place) (cs : List Char) : Option Place := cs.foldlM next p

theorem after_append (p : Place) (cs ds : List Char) :
    p.after (cs ++ ds) = (p.after cs).bind (·.after ds) :=
  List.foldlM_append

theorem after_cons (p : Place) (c : Char) (cs : List Char) :
    p.after (c :: cs) = (p.next c).bind (·.after cs) :=
  List.foldlM_cons

end Place

/-- At any depth, the text opens what it closes and closes what it opens. -/
def Closed (cs : List Char) : Prop := ∀ n, (Place.outside n).after cs = some (.outside n)

/-- So it does within brackets, where commas do not end it. -/
def ClosedWithin (cs : List Char) : Prop :=
  ∀ n, (Place.outside (n + 1)).after cs = some (.outside (n + 1))

/-- Nothing of a value follows. -/
def Ends (cs : List Char) : Prop := ∀ c, cs.head? = some c → (Place.outside 0).next c = none

theorem ends_nil : Ends [] := fun c h => by cases h

theorem ends_comma (cs : List Char) : Ends (',' :: cs) := fun c h => by
  cases h
  rfl

/-- Closed texts that nothing of a value follows end at the same character. -/
theorem Closed.append_inj {cs cs' tail tail' : List Char} (h : Closed cs) (h' : Closed cs')
    (ht : Ends tail) (ht' : Ends tail') (heq : cs ++ tail = cs' ++ tail') :
    cs = cs' ∧ tail = tail' := by
  have hshort : ∀ {cs cs' more tail tail' : List Char}, Closed cs → Closed cs' → Ends tail →
      cs' = cs ++ more → tail = more ++ tail' → more = [] := by
    -- the longer text would go on past a character at which the shorter one is over
    intro cs cs' more tail tail' h h' ht hcs htail
    cases more with
    | nil => rfl
    | cons c more =>
      have hover := ht c (by rw [htail]; rfl)
      have hread := h' 0
      rw [hcs, Place.after_append, h 0, Option.bind_some, Place.after_cons, hover] at hread
      cases hread
  rcases List.append_eq_append_iff.mp heq with ⟨more, hcs, htail⟩ | ⟨more, hcs, htail⟩
  · obtain rfl := hshort h h' ht hcs htail
    exact ⟨by rw [hcs, List.append_nil], htail⟩
  · obtain rfl := hshort h' h ht' hcs htail
    exact ⟨by rw [hcs, List.append_nil], htail.symm⟩

section Parts

theorem Closed.within {cs : List Char} (h : Closed cs) : ClosedWithin cs := fun n => h (n + 1)

theorem Closed.append {cs ds : List Char} (h : Closed cs) (h' : Closed ds) : Closed (cs ++ ds) := by
  intro n
  rw [Place.after_append, h n, Option.bind_some, h' n]

theorem ClosedWithin.append {cs ds : List Char} (h : ClosedWithin cs) (h' : ClosedWithin ds) :
    ClosedWithin (cs ++ ds) := by
  intro n
  rw [Place.after_append, h n, Option.bind_some, h' n]

/-- A character with no meaning of its own outside of texts. -/
def IsOrdinary (c : Char) : Prop := c ∉ ['"', '[', '\x7b', ']', '\x7d', ',']

instance (c : Char) : Decidable (IsOrdinary c) := inferInstanceAs (Decidable (c ∉ _))

theorem ordinary_of_all {cs : List Char} (h : (cs.all fun c => decide (IsOrdinary c)) = true) :
    ∀ c ∈ cs, IsOrdinary c :=
  fun c hc => of_decide_eq_true (List.all_eq_true.mp h c hc)

theorem closed_of_ordinary {cs : List Char} (h : ∀ c ∈ cs, IsOrdinary c) : Closed cs := by
  intro n
  induction cs with
  | nil => rfl
  | cons c rest ih =>
    obtain ⟨hc, hrest⟩ := List.forall_mem_cons.mp h
    simp only [IsOrdinary, List.mem_cons, List.not_mem_nil, or_false, not_or] at hc
    obtain ⟨hquote, hopen, hopen', hclose, hclose', hcomma⟩ := hc
    have hnext : (Place.outside n).next c = some (.outside n) := by
      simp only [Place.next, hquote, hopen, hopen', hclose, hclose', hcomma, or_self, false_and,
        if_false]
    rw [Place.after_cons, hnext, Option.bind_some, ih hrest]

theorem closed_brackets {cs : List Char} (h : ClosedWithin cs) : Closed ('[' :: cs ++ [']']) := by
  intro n
  rw [List.cons_append, Place.after_cons]
  change (Place.outside (n + 1)).after (cs ++ [']']) = _
  rw [Place.after_append, h n]
  rfl

theorem closed_braces {cs : List Char} (h : ClosedWithin cs) :
    Closed ('\x7b' :: cs ++ ['\x7d']) := by
  intro n
  rw [List.cons_append, Place.after_cons]
  change (Place.outside (n + 1)).after (cs ++ ['\x7d']) = _
  rw [Place.after_append, h n]
  rfl

end Parts

section Separated

theorem separated_cons (p : List Char) (ps : List (List Char)) :
    separated (p :: ps) = p ++ ps.flatMap (',' :: ·) := by
  induction ps generalizing p with
  | nil => rw [separated, List.intercalate_singleton, List.flatMap_nil, List.append_nil]
  | cons q rest ih =>
    simp only [separated] at ih ⊢
    rw [List.intercalate_cons_cons, ih, List.flatMap_cons, List.append_assoc]
    rfl

theorem closedWithin_separated {ps : List (List Char)} (h : ∀ p ∈ ps, Closed p) :
    ClosedWithin (separated ps) := by
  have hbehind : ∀ {qs : List (List Char)}, (∀ q ∈ qs, Closed q) →
      ClosedWithin (qs.flatMap (',' :: ·)) := by
    intro qs hqs
    induction qs with
    | nil => exact fun _ => rfl
    | cons q rest ih =>
      obtain ⟨hq, hrest⟩ := List.forall_mem_cons.mp hqs
      rw [List.flatMap_cons]
      refine ClosedWithin.append (fun n => ?_) (ih hrest)
      rw [Place.after_cons]
      exact hq (n + 1)
  cases ps with
  | nil => exact fun _ => rfl
  | cons p rest =>
    obtain ⟨hp, hrest⟩ := List.forall_mem_cons.mp h
    rw [separated_cons]
    exact hp.within.append (hbehind hrest)

theorem ends_flatMap (ps : List (List Char)) : Ends (ps.flatMap (',' :: ·)) := by
  cases ps with
  | nil => exact ends_nil
  | cons p rest => exact ends_comma _

theorem flatMap_comma_inj {ps qs : List (List Char)} (hps : ∀ p ∈ ps, Closed p)
    (hqs : ∀ q ∈ qs, Closed q) (h : ps.flatMap (',' :: ·) = qs.flatMap (',' :: ·)) : ps = qs := by
  induction ps generalizing qs with
  | nil =>
    cases qs with
    | nil => rfl
    | cons q rest => cases h
  | cons p rest ih =>
    cases qs with
    | nil => cases h
    | cons q rest' =>
      obtain ⟨hp, hrest⟩ := List.forall_mem_cons.mp hps
      obtain ⟨hq, hrest'⟩ := List.forall_mem_cons.mp hqs
      rw [List.flatMap_cons, List.flatMap_cons, List.cons_append, List.cons_append,
        List.cons.injEq] at h
      obtain ⟨rfl, hbehind⟩ := hp.append_inj hq (ends_flatMap _) (ends_flatMap _) h.2
      rw [ih hrest hrest' hbehind]

/-- Closed texts between commas can be told apart. -/
theorem separated_inj {ps qs : List (List Char)} (hps : ∀ p ∈ ps, Closed p ∧ p ≠ [])
    (hqs : ∀ q ∈ qs, Closed q ∧ q ≠ []) (h : separated ps = separated qs) : ps = qs := by
  cases ps with
  | nil =>
    cases qs with
    | nil => rfl
    | cons q rest =>
      rw [separated_cons] at h
      exact absurd (List.append_eq_nil_iff.mp h.symm).1 (hqs q List.mem_cons_self).2
  | cons p rest =>
    cases qs with
    | nil =>
      rw [separated_cons] at h
      exact absurd (List.append_eq_nil_iff.mp h).1 (hps p List.mem_cons_self).2
    | cons q rest' =>
      obtain ⟨hp, hrest⟩ := List.forall_mem_cons.mp hps
      obtain ⟨hq, hrest'⟩ := List.forall_mem_cons.mp hqs
      rw [separated_cons, separated_cons] at h
      obtain ⟨rfl, hbehind⟩ := hp.1.append_inj hq.1 (ends_flatMap _) (ends_flatMap _) h
      rw [flatMap_comma_inj (fun p hp => (hrest p hp).1) (fun q hq => (hrest' q hq).1) hbehind]

end Separated

section Texts

/-- Within a text, characters that are no quote and no backslash change nothing. -/
theorem inside_of_plain {cs : List Char} (h : ∀ c ∈ cs, c ≠ '"' ∧ c ≠ '\\') (n : Nat) :
    (Place.inside n).after cs = some (.inside n) := by
  induction cs with
  | nil => rfl
  | cons c rest ih =>
    obtain ⟨⟨hquote, hslash⟩, hrest⟩ := List.forall_mem_cons.mp h
    rw [Place.after_cons, Place.next, if_neg hslash, if_neg hquote]
    exact ih hrest

theorem exists_digitChar {c : Char} {n : Nat} (h : c ∈ Nat.toDigits 16 n) :
    ∃ m, c = Nat.digitChar m := by
  induction n using Nat.strong_induction_on with
  | _ n ih =>
    by_cases hn : n < 16
    · rw [Nat.toDigits_of_lt_base hn, List.mem_singleton] at h
      exact ⟨n, h⟩
    · rw [Nat.toDigits_of_base_le (by omega) (by omega), List.mem_append] at h
      rcases h with h | h
      · exact ih (n / 16) (by omega) h
      · exact ⟨n % 16, List.mem_singleton.mp h⟩

theorem inside_hexDigits (width n m : Nat) :
    (Place.inside m).after (hexDigits width n) = some (.inside m) := by
  apply inside_of_plain
  intro c hc
  rw [hexDigits, List.mem_append] at hc
  rcases hc with hc | hc
  · rw [List.eq_of_mem_replicate hc]
    decide
  · obtain ⟨d, rfl⟩ := exists_digitChar hc
    exact ⟨Nat.digitChar_ne '"' rfl, Nat.digitChar_ne '\\' rfl⟩

theorem inside_escapeUnits (a : Char) (n : Nat) :
    (Place.inside n).after (escapeUnits a) = some (.inside n) := by
  have hunit (m : Nat) :
      (Place.inside n).after ('\\' :: 'u' :: hexDigits 4 m) = some (.inside n) := by
    rw [Place.after_cons, Place.next, if_pos rfl, Option.bind_some, Place.after_cons]
    exact inside_hexDigits 4 m n
  unfold escapeUnits
  simp only
  split
  · exact hunit _
  · rw [Place.after_append, hunit, Option.bind_some, hunit]

theorem inside_escapeChar (a : Char) (n : Nat) :
    (Place.inside n).after (escapeChar a) = some (.inside n) := by
  rcases escapeChar_cases a with ⟨hquote, hslash, _, h⟩ | ⟨mark, _, _, h⟩ | h
  · rw [h]
    exact inside_of_plain (List.forall_mem_singleton.mpr ⟨hquote, hslash⟩) n
  · rw [h]
    rfl
  · rw [h]
    exact inside_escapeUnits a n

/-- A text is closed by its quotes if what is written of its characters stays within them. -/
theorem closed_quoted {write : Char → List Char}
    (hwrite : ∀ a n, (Place.inside n).after (write a) = some (.inside n)) (cs : List Char) :
    Closed ('"' :: cs.flatMap write ++ ['"']) := by
  have hcharacters (n : Nat) : (Place.inside n).after (cs.flatMap write) = some (.inside n) := by
    induction cs with
    | nil => rfl
    | cons c rest ih => rw [List.flatMap_cons, Place.after_append, hwrite, Option.bind_some, ih]
  intro n
  rw [List.cons_append, Place.after_cons]
  change (Place.inside n).after (cs.flatMap write ++ ['"']) = _
  rw [Place.after_append, hcharacters]
  rfl

theorem closed_writeText (s : String) : Closed (writeText s) :=
  closed_quoted inside_escapeChar s.toList

theorem closed_entry (key : String) {cs : List Char} (h : Closed cs) :
    Closed (writeText key ++ ':' :: cs) := by
  have hcolon : Closed [':'] := closed_of_ordinary (ordinary_of_all rfl)
  exact (closed_writeText key).append (hcolon.append h)

end Texts

section Numbers

theorem isOrdinary_of_isDigit {c : Char} (h : c.isDigit = true) : IsOrdinary c := by
  intro hmem
  simp only [List.mem_cons, List.not_mem_nil, or_false] at hmem
  rcases hmem with rfl | rfl | rfl | rfl | rfl | rfl <;> cases h

theorem ordinary_sign (negative : Bool) :
    ∀ c ∈ (if negative then ['-'] else []), IsOrdinary c := by
  cases negative with
  | false => exact nofun
  | true => exact ordinary_of_all rfl

theorem isDigit_of_mem_natText {c : Char} {n : Nat} (h : c ∈ natText n) : c.isDigit = true :=
  Nat.isDigit_of_mem_toDigits (by omega) (by omega) h

theorem mem_intText {c : Char} {n : Int} (h : c ∈ (intText n).toList) :
    c = '-' ∨ c.isDigit = true := by
  rw [intText, String.toList_ofList, List.mem_append] at h
  rcases h with h | h
  · split at h
    · exact .inl (List.mem_singleton.mp h)
    · cases h
  · exact .inr (isDigit_of_mem_natText h)

theorem ordinary_natText (n : Nat) : ∀ c ∈ natText n, IsOrdinary c := fun _ hc =>
  isOrdinary_of_isDigit (isDigit_of_mem_natText hc)

theorem ordinary_intText (n : Int) : ∀ c ∈ (intText n).toList, IsOrdinary c := by
  intro c hc
  rcases mem_intText hc with rfl | hdigit
  · decide
  · exact isOrdinary_of_isDigit hdigit

theorem ordinary_exponentText (e : Int) : ∀ c ∈ exponentText e, IsOrdinary c := by
  rw [exponentText, List.forall_mem_append]
  constructor
  · split <;> exact ordinary_of_all rfl
  · split
    · exact List.forall_mem_cons.mpr ⟨by decide, ordinary_natText _⟩
    · exact ordinary_natText _

theorem ordinary_layoutDigits {digits : List Char} (h : ∀ c ∈ digits, IsOrdinary c) (point : Int) :
    ∀ c ∈ layoutDigits digits point, IsOrdinary c := by
  have hzeros (count : Nat) : ∀ c ∈ List.replicate count '0', IsOrdinary c := by
    intro c hc
    rw [List.eq_of_mem_replicate hc]
    decide
  have htake (count : Nat) : ∀ c ∈ digits.take count, IsOrdinary c :=
    fun c hc => h c (List.mem_of_mem_take hc)
  have hdrop (count : Nat) : ∀ c ∈ '.' :: digits.drop count, IsOrdinary c :=
    List.forall_mem_cons.mpr ⟨by decide, fun c hc => h c (List.mem_of_mem_drop hc)⟩
  have hfront : ∀ c ∈ ['0', '.'], IsOrdinary c := ordinary_of_all rfl
  have hend : ∀ c ∈ ['.', '0'], IsOrdinary c := ordinary_of_all rfl
  unfold layoutDigits
  simp only
  split
  · split
    · exact List.forall_mem_append.mpr ⟨List.forall_mem_append.mpr ⟨hfront, hzeros _⟩, h⟩
    split
    · exact List.forall_mem_append.mpr ⟨List.forall_mem_append.mpr ⟨h, hzeros _⟩, hend⟩
    · exact List.forall_mem_append.mpr ⟨htake _, hdrop _⟩
  · refine List.forall_mem_append.mpr ⟨List.forall_mem_append.mpr ⟨htake _, ?_⟩, ?_⟩
    · split
      · exact nofun
      · exact hdrop _
    · exact ordinary_exponentText _

theorem ordinary_writeFloat (x : Float) : ∀ c ∈ writeFloat x, IsOrdinary c := by
  unfold writeFloat
  split
  · exact ordinary_of_all rfl
  · exact List.forall_mem_append.mpr ⟨ordinary_sign _, ordinary_of_all rfl⟩
  · unfold binaryText
    split
    · exact ordinary_of_all rfl
    · exact List.forall_mem_append.mpr ⟨ordinary_sign _, ordinary_of_all rfl⟩
    · refine List.forall_mem_append.mpr ⟨ordinary_sign _, ?_⟩
      unfold positiveText
      split
      · exact ordinary_of_all rfl
      · exact ordinary_layoutDigits (ordinary_natText _) _

theorem layoutDigits_ne_nil {digits : List Char} (h : digits ≠ []) (point : Int) :
    layoutDigits digits point ≠ [] := by
  unfold layoutDigits
  simp only
  split
  · split
    · exact List.append_ne_nil_of_right_ne_nil _ h
    split
    · exact List.append_ne_nil_of_right_ne_nil _ (List.cons_ne_nil _ _)
    · exact List.append_ne_nil_of_right_ne_nil _ (List.cons_ne_nil _ _)
  · refine List.append_ne_nil_of_right_ne_nil _ (List.append_ne_nil_of_left_ne_nil ?_ _)
    split <;> exact List.cons_ne_nil _ _

theorem writeFloat_ne_nil (x : Float) : writeFloat x ≠ [] := by
  unfold writeFloat
  split
  · exact List.cons_ne_nil _ _
  · exact List.append_ne_nil_of_right_ne_nil _ (by decide)
  · unfold binaryText
    split
    · exact List.cons_ne_nil _ _
    · exact List.append_ne_nil_of_right_ne_nil _ (List.cons_ne_nil _ _)
    · refine List.append_ne_nil_of_right_ne_nil _ ?_
      unfold positiveText
      split
      · exact List.cons_ne_nil _ _
      · exact layoutDigits_ne_nil Nat.toDigits_ne_nil _

end Numbers

section Values

theorem writeItems_eq_map (vs : List Value) : writeItems vs = vs.map write := by
  induction vs with
  | nil => rfl
  | cons v rest ih => rw [writeItems, ih, List.map_cons]

theorem writeFields_eq_map (es : List (String × Value)) :
    writeFields es = es.map fun e => (e.1, write e.2) := by
  induction es with
  | nil => rfl
  | cons e rest ih => rw [writeFields, ih, List.map_cons]

theorem closed_writeNotANumber (n : NotANumber) : Closed (writeNotANumber n) := by
  cases n with
  | double =>
    rw [writeNotANumber]
    exact closed_of_ordinary (ordinary_writeFloat _)
  | decimal => exact closed_writeText _

mutual

/-- A written value opens what it closes and closes what it opens. -/
theorem closed_write : ∀ v : Value, Closed (write v)
  | .null => closed_of_ordinary (ordinary_of_all rfl)
  | .bool true => closed_of_ordinary (ordinary_of_all rfl)
  | .bool false => closed_of_ordinary (ordinary_of_all rfl)
  | .int n => closed_of_ordinary (ordinary_intText n)
  | .float x => closed_of_ordinary (ordinary_writeFloat x)
  | .text s => closed_writeText s
  | .list items => closed_brackets (closedWithin_separated (closed_writeItems items))
  | .object entries => by
    refine closed_braces (closedWithin_separated fun p hp => ?_)
    obtain ⟨e, he, rfl⟩ := List.mem_map.mp hp
    exact closed_entry e.1 (closed_writeFields entries e (List.mem_mergeSort.mp he))
  | .date d => closed_writeText _
  | .moment m => closed_writeText _
  | .duration d => closed_writeText _
  | .decimal d => closed_writeText _
  | .nan _ n => closed_writeNotANumber n
  | .bytes octets => closed_writeText _

theorem closed_writeItems : ∀ vs : List Value, ∀ p ∈ writeItems vs, Closed p
  | [] => nofun
  | v :: rest => List.forall_mem_cons.mpr ⟨closed_write v, closed_writeItems rest⟩

theorem closed_writeFields : ∀ es : List (String × Value), ∀ e ∈ writeFields es, Closed e.2
  | [] => nofun
  | (_, v) :: rest => List.forall_mem_cons.mpr ⟨closed_write v, closed_writeFields rest⟩

end

theorem write_ne_nil (v : Value) : write v ≠ [] := by
  cases v with
  | int n =>
    rw [write, intText, String.toList_ofList]
    exact List.append_ne_nil_of_right_ne_nil _ Nat.toDigits_ne_nil
  | float x => exact writeFloat_ne_nil x
  | nan _ n =>
    cases n with
    | double => exact writeFloat_ne_nil (0.0 / 0.0)
    | decimal => exact List.cons_ne_nil _ _
  | bool b => cases b <;> exact List.cons_ne_nil _ _
  | _ => exact List.cons_ne_nil _ _

end Values

end DatasetCatalog.Json
