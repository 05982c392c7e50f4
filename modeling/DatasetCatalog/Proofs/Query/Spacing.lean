import DatasetCatalog.Proofs.Query.BindMarker
import Mathlib.Data.List.Chain

/-!
# Spacing of fragments

Where parameters are named, it matters what stands next to them. Text of the library keeps word
characters, colons and backslashes away from parameters, and word characters away from the ends of
trusted SQL, so that the marked names are those of the parameters.
-/

namespace DatasetCatalog.Query

open Text

/-- A parameter may stand behind a text. -/
def opens (s : String) : Bool := s.toList.getLast?.any (!shields ·)

/-- A text may stand behind a parameter or trusted SQL. -/
def closes (s : String) : Bool := s.toList.head?.any (!isWord ·)

/-- Fragments that may follow each other. -/
def Adjoin : Fragment → Fragment → Prop
  | .text s, .param _ => opens s = true
  | .text _, _ => True
  | _, .text s => closes s = true
  | _, _ => False

structure Spaced (fs : List Fragment) : Prop where
  chain : fs.IsChain Adjoin
  plain : ∀ s, .text s ∈ fs → ':' ∉ s.toList

theorem lastOf_eq (before : Option Char) (cs : List Char) :
    lastOf before cs = cs.getLast?.or before := by
  induction cs generalizing before with
  | nil => rfl
  | cons c rest ih =>
    rw [lastOf, ih]
    cases rest with
    | nil => rfl
    | cons d rest =>
      rw [List.getLast?_cons_cons, List.getLast?_cons]
      rfl

theorem lastOf_of_opens {s : String} (h : opens s = true) (before : Option Char) :
    (lastOf before s.toList).any shields = false := by
  rw [lastOf_eq]
  unfold opens at h
  cases hl : s.toList.getLast? with
  | none => simp [hl] at h
  | some c =>
    rw [hl] at h
    simpa using h

theorem adjoin_of_closes {s : String} (h : closes s = true) (f : Fragment) : Adjoin f (.text s) := by
  cases f with
  | text => trivial
  | trusted => exact h
  | param => exact h

theorem adjoin_of_opens {s : String} (h : opens s = true) (f : Fragment) : Adjoin (.text s) f := by
  cases f with
  | text => trivial
  | trusted => trivial
  | param => exact h

theorem closes_of_adjoin {f g : Fragment} (h : Adjoin f g) (hf : ∀ s, f ≠ .text s) :
    ∃ s, g = .text s ∧ closes s = true := by
  cases f with
  | text s => exact absurd rfl (hf s)
  | trusted sql =>
    cases g with
    | text s => exact ⟨s, rfl, h⟩
    | trusted sql => exact h.elim
    | param v => exact h.elim
  | param v =>
    cases g with
    | text s => exact ⟨s, rfl, h⟩
    | trusted sql => exact h.elim
    | param v => exact h.elim

/-- No name begins right behind a parameter or trusted SQL. -/
theorem no_name_in_printed {f : Fragment} {fs : List Fragment} (h : (f :: fs).IsChain Adjoin)
    (hf : ∀ s, f ≠ .text s) (next : Nat) : (printNamed next fs).head?.any isWord = false := by
  cases fs with
  | nil => rfl
  | cons g rest =>
    obtain ⟨s, rfl, hs⟩ := closes_of_adjoin (List.isChain_cons_cons.mp h).1 hf
    unfold closes at hs
    rw [printNamed, List.head?_append]
    cases hhead : s.toList.head? with
    | none => simp [hhead] at hs
    | some c =>
      rw [hhead] at hs
      simpa using hs

theorem isWord_of_isDigit {c : Char} (h : c.isDigit = true) : isWord c = true := by
  have hbounds := h
  simp only [Char.isDigit, ge_iff_le, Bool.and_eq_true, decide_eq_true_eq] at hbounds
  have hlast : c.toNat ≤ 57 := UInt32.le_iff_toNat_le.mp hbounds.2
  apply isWord_of_isAlphanum
  · omega
  · rw [Char.isAlphanum, h, Bool.or_true]

theorem toList_parameterName (i : Nat) : (parameterName i).toList = 'p' :: Nat.toDigits 10 i := by
  have hneg : ¬ (i : Int) < 0 := by omega
  rw [parameterName, String.toList_append, Number.intText, if_neg hneg, List.nil_append,
    Int.natAbs_natCast, Number.natText, String.toList_ofList, String.toList_ofList]
  rfl

theorem isWord_of_mem_parameterName {i : Nat} {c : Char} (h : c ∈ (parameterName i).toList) :
    isWord c = true := by
  rw [toList_parameterName, List.mem_cons] at h
  rcases h with rfl | h
  · rfl
  · exact isWord_of_isDigit (Nat.isDigit_of_mem_toDigits (by decide) (by decide) h)

theorem parameterName_ne_nil (i : Nat) : (parameterName i).toList ≠ [] := by
  rw [toList_parameterName]
  exact List.cons_ne_nil _ _

theorem parameterName_injective : Function.Injective parameterName := by
  intro i j h
  have hlist := congrArg String.toList h
  rw [toList_parameterName, toList_parameterName, List.cons.injEq] at hlist
  rw [← Nat.ofDigitChars_ten_toDigits (n := i), hlist.2, Nat.ofDigitChars_ten_toDigits]

/-- The markers of spaced fragments are the names of their parameters, in order. -/
theorem bindMarkers_printNamed {fs : List Fragment} (h : Spaced fs) {before : Option Char}
    (hb : ∀ v, fs.head? = some (.param v) → before.any shields = false) (next : Nat) :
    bindMarkers before (printNamed next fs) =
      (List.range' next (paramsOf fs).length).map fun i => (parameterName i).toList := by
  induction fs generalizing before next with
  | nil => rfl
  | cons f rest ih =>
    have hrest : Spaced rest :=
      ⟨h.chain.tail, fun s hs => h.plain s (List.mem_cons_of_mem _ hs)⟩
    cases f with
    | text s =>
      rw [printNamed, bindMarkers_append_of_no_colon (h.plain s List.mem_cons_self)]
      refine ih hrest (fun v hv => ?_) next
      cases rest with
      | nil => cases hv
      | cons g rest =>
        cases hv
        exact lastOf_of_opens (List.isChain_cons_cons.mp h.chain).1 before
    | trusted sql =>
      have hnext := no_name_in_printed h.chain (fun _ hs => by cases hs) next
      have hstart : (none : Option Char).any shields = true → before.any shields = true :=
        fun hnone => by cases hnone
      rw [printNamed, bindMarkers_append_escaped hnext _ hstart]
      refine ih hrest (fun v hv => ?_) next
      cases rest with
      | nil => cases hv
      | cons g rest =>
        cases hv
        exact (List.isChain_cons_cons.mp h.chain).1.elim
    | param v =>
      have hnext := no_name_in_printed h.chain (fun _ hs => by cases hs) (next + 1)
      rw [printNamed, List.cons_append, bindMarkers_append_name (hb v rfl)
        (fun c hc => isWord_of_mem_parameterName hc) (parameterName_ne_nil next) hnext, paramsOf,
        List.length_cons, List.range'_succ, List.map_cons]
      congr 1
      refine ih hrest (fun v' hv => ?_) (next + 1)
      cases rest with
      | nil => cases hv
      | cons g rest =>
        cases hv
        exact (List.isChain_cons_cons.mp h.chain).1.elim

/-- A text may stand between any fragments. -/
def separates (s : String) : Bool := opens s && closes s && !s.toList.contains ':'

theorem separates_iff {s : String} :
    separates s = true ↔ opens s = true ∧ closes s = true ∧ ':' ∉ s.toList := by
  simp [separates, and_assoc]

namespace Spaced
variable {fs gs : List Fragment} {s : String}

theorem nil : Spaced [] := ⟨.nil, nofun⟩

theorem text (h : ':' ∉ s.toList) : Spaced [.text s] := by
  refine ⟨.singleton _, fun t ht => ?_⟩
  cases List.mem_singleton.mp ht
  exact h

theorem cons_text (h : Spaced fs) (ho : opens s = true) (hs : ':' ∉ s.toList) :
    Spaced (.text s :: fs) := by
  refine ⟨h.chain.cons fun f _ => adjoin_of_opens ho f, fun t ht => ?_⟩
  rcases List.mem_cons.mp ht with ht | ht
  · cases ht
    exact hs
  · exact h.plain t ht

theorem append_of_closes (hf : Spaced fs) (hg : Spaced (.text s :: gs)) (hc : closes s = true) :
    Spaced (fs ++ .text s :: gs) := by
  refine ⟨hf.chain.append hg.chain fun f _ g hmem => ?_, fun t ht => ?_⟩
  · cases Option.mem_some.mp hmem
    exact adjoin_of_closes hc f
  · rcases List.mem_append.mp ht with ht | ht
    · exact hf.plain t ht
    · exact hg.plain t ht

theorem append_separated (hf : Spaced fs) (hs : separates s = true) (hg : Spaced gs) :
    Spaced (fs ++ .text s :: gs) := by
  obtain ⟨ho, hc, hplain⟩ := separates_iff.mp hs
  exact hf.append_of_closes (hg.cons_text ho hplain) hc

theorem join {separator : String} (hs : separates separator = true) {parts : List (List Fragment)}
    (h : ∀ part ∈ parts, Spaced part) : Spaced (joinFragments separator parts) := by
  induction parts with
  | nil => exact nil
  | cons part rest ih =>
    obtain ⟨hpart, hrest⟩ := List.forall_mem_cons.mp h
    cases rest with
    | nil => exact hpart
    | cons next rest => exact hpart.append_separated hs (ih hrest)

theorem of_mem_clauseFragments {keyword separator : String} (ho : opens keyword = true)
    (hk : ':' ∉ keyword.toList) (hs : separates separator = true) {parts : List (List Fragment)}
    (h : ∀ part ∈ parts, Spaced part) :
    ∀ part ∈ clauseFragments keyword separator parts, Spaced part := by
  unfold clauseFragments
  split
  · exact nofun
  · exact List.forall_mem_singleton.mpr ((join hs h).cons_text ho hk)

end Spaced

end DatasetCatalog.Query
