import Mathlib.Data.List.Induction
import DatasetCatalog.Proofs.Service.Interplay

/-!
# What a run remembers

The lists that a state keeps of its calls and writers say what the run has done: which calls asked
for which dataset, what the leading ones read and when, and which writers have not yet dropped the
tag of the dataset that they have written.
-/

namespace DatasetCatalog.Service

open Store

theorem getElem?_concat_eq_some {α : Type} {xs : List α} {x y : α} {i : Nat} :
    (xs ++ [x])[i]? = some y ↔ xs[i]? = some y ∨ i = xs.length ∧ x = y := by
  rcases Nat.lt_trichotomy i xs.length with hlt | rfl | hgt
  · rw [List.getElem?_append_left hlt]
    constructor
    · exact .inl
    · rintro (h | ⟨rfl, _⟩)
      · exact h
      · exact absurd hlt (Nat.lt_irrefl _)
  · simp
  · have hnone : (xs ++ [x])[i]? = none := by
      apply List.getElem?_eq_none
      simp only [List.length_append, List.length_singleton]
      omega
    have hnone' : xs[i]? = none := List.getElem?_eq_none (by omega)
    rw [hnone, hnone']
    constructor
    · exact nofun
    · rintro (h | ⟨rfl, _⟩)
      · cases h
      · exact absurd hgt (Nat.lt_irrefl _)

theorem lookup_of_mem {β : Type} {l : List (Nat × β)} {n : Nat} {b : β} (h : (n, b) ∈ l)
    (hone : ∀ b', (n, b') ∈ l → b' = b) : l.lookup n = some b := by
  cases hl : l.lookup n with
  | none =>
    have hne := List.lookup_eq_none_iff.mp hl (n, b) h
    simp at hne
  | some b' => rw [hone b' (mem_of_lookup hl)]

namespace Interplay

section Effects
variable {T : Type} (c : Interplay T) (x : Act T) {w : Nat} {id : String}

theorem keepsIds_take (h : c.repository.KeepsIds) : (c.take x).repository.KeepsIds := by
  cases x with
  | write id change =>
    simp only [take]
    split
    · rename_i hr
      exact (Change.written?_frame h hr).1
    · exact h
  | create d =>
    simp only [take]
    split
    · rename_i hr
      exact (Repository.create_frame h hr).1
    · exact h
  | load call => simp only [take]; split <;> exact h
  | _ => exact h

theorem mem_gets_take {call : Nat} : (call, id) ∈ (c.take x).gets ↔
    (call, id) ∈ c.gets ∨ call = c.cache.time ∧ ∃ userId ttl, x = .get userId id ttl := by
  cases x with
  | get userId id' ttl =>
    simp only [take, List.mem_append, List.mem_singleton, Prod.mk.injEq, Act.get.injEq]
    constructor
    · rintro (h | ⟨rfl, rfl⟩)
      · exact .inl h
      · exact .inr ⟨rfl, userId, ttl, rfl, rfl, rfl⟩
    · rintro (h | ⟨rfl, _, _, _, rfl, _⟩)
      · exact .inl h
      · exact .inr ⟨rfl, rfl⟩
  | load call => simp only [take]; split <;> simp
  | write id change => simp only [take]; split <;> simp
  | create d => simp only [take]; split <;> simp
  | _ => simp [take]

theorem mem_found_take {call : Nat} {a : Except Error Dataset} (h : (call, a) ∈ (c.take x).found) :
    (call, a) ∈ c.found ∨
      x = .load call ∧ ∃ id, (call, id) ∈ c.gets ∧ readDataset c.repository id = a := by
  cases x with
  | load call' =>
    simp only [take] at h
    split at h
    · rename_i id _ hid _ _
      rcases List.mem_append.mp h with h | h
      · exact .inl h
      · cases List.mem_singleton.mp h
        exact .inr ⟨rfl, id, mem_of_lookup hid, rfl⟩
    · exact .inl h
  | write id change => simp only [take] at h; split at h <;> exact .inl h
  | create d => simp only [take] at h; split at h <;> exact .inl h
  | _ => exact .inl h

theorem mem_writers_take : (w, id) ∈ (c.take x).writers ↔
    (w, id) ∈ c.writers ∧ x ≠ .invalidate w ∨
    w = c.cache.time ∧ ∃ change r, x = .write id change ∧
      change.written? c.repository id = some r := by
  cases x with
  | write id' change =>
    simp only [take]
    split
    · rename_i r hr
      simp only [List.mem_append, List.mem_singleton, Prod.mk.injEq, Act.write.injEq]
      constructor
      · rintro (h | ⟨rfl, rfl⟩)
        · exact .inl ⟨h, nofun⟩
        · exact .inr ⟨rfl, change, r, ⟨rfl, rfl⟩, hr⟩
      · rintro (⟨h, _⟩ | ⟨rfl, _, _, ⟨rfl, _⟩, _⟩)
        · exact .inl h
        · exact .inr ⟨rfl, rfl⟩
    · rename_i hnone
      constructor
      · exact fun h => .inl ⟨h, nofun⟩
      · rintro (⟨h, _⟩ | ⟨_, change', r, hx, hr⟩)
        · exact h
        · cases hx
          rw [hnone] at hr
          cases hr
  | invalidate writer =>
    simp only [take, List.mem_filter, bne_iff_ne, ne_eq, Act.invalidate.injEq, reduceCtorEq,
      false_and, exists_false, and_false, or_false]
    exact and_congr_right fun _ => not_congr eq_comm
  | load call => simp only [take]; split <;> simp
  | create d => simp only [take]; split <;> simp
  | _ => simp [take]

end Effects

variable {T : Type} [LE T] [DecidableLE T] [LT T] [DecidableLT T] [Add T]
  {s c : Interplay T} {xs : List (Act T)} {x : Act T} {w : Nat} {id : String}

/-- Part `w` of a run has written a change of an id. -/
def Wrote (s : Interplay T) (xs : List (Act T)) (w : Nat) (id : String) : Prop :=
  ∃ change r, xs[w]? = some (.write id change) ∧
    change.written? (s.run (xs.take w)).repository id = some r

/-- A writer has written, and has not yet dropped the tag of its dataset. -/
def Pending (s : Interplay T) (xs : List (Act T)) (w : Nat) (id : String) : Prop :=
  s.Wrote xs w id ∧ ∀ i, w < i → xs[i]? ≠ some (.invalidate w)

/-- A part of a run reads the dataset of an id for a call. -/
def Reads (s : Interplay T) (xs : List (Act T)) (q call : Nat) (id : String)
    (a : Except Error Dataset) : Prop :=
  xs[q]? = some (.load call) ∧ call < q ∧ readDataset (s.run (xs.take q)).repository id = a

theorem Wrote.lt (h : s.Wrote xs w id) : w < xs.length := by
  obtain ⟨_, _, hw, _⟩ := h
  exact (List.getElem?_eq_some_iff.mp hw).1

theorem wrote_concat : s.Wrote (xs ++ [x]) w id ↔ s.Wrote xs w id ∨
    w = xs.length ∧ ∃ change r, x = .write id change ∧
      change.written? (s.run xs).repository id = some r := by
  constructor
  · rintro ⟨change, r, hw, hr⟩
    rcases getElem?_concat_eq_some.mp hw with hw | ⟨rfl, rfl⟩
    · have hlt := (List.getElem?_eq_some_iff.mp hw).1
      rw [List.take_append_of_le_length (Nat.le_of_lt hlt)] at hr
      exact .inl ⟨change, r, hw, hr⟩
    · rw [List.take_left] at hr
      exact .inr ⟨rfl, change, r, rfl, hr⟩
  · rintro (h | ⟨rfl, change, r, rfl, hr⟩)
    · have hlt := h.lt
      obtain ⟨change, r, hw, hr⟩ := h
      refine ⟨change, r, getElem?_concat_eq_some.mpr (.inl hw), ?_⟩
      rwa [List.take_append_of_le_length (Nat.le_of_lt hlt)]
    · refine ⟨change, r, List.getElem?_concat_length, ?_⟩
      rwa [List.take_left]

theorem pending_concat : s.Pending (xs ++ [x]) w id ↔
    s.Pending xs w id ∧ x ≠ .invalidate w ∨
    w = xs.length ∧ ∃ change r, x = .write id change ∧
      change.written? (s.run xs).repository id = some r := by
  constructor
  · rintro ⟨hwrote, hquiet⟩
    rcases wrote_concat.mp hwrote with h | h
    · refine .inl ⟨⟨h, fun i hi hx => ?_⟩, fun hx => ?_⟩
      · exact hquiet i hi (getElem?_concat_eq_some.mpr (.inl hx))
      · exact hquiet xs.length h.lt (getElem?_concat_eq_some.mpr (.inr ⟨rfl, hx⟩))
    · exact .inr h
  · rintro (⟨⟨hwrote, hquiet⟩, hx⟩ | h)
    · refine ⟨wrote_concat.mpr (.inl hwrote), fun i hi hi' => ?_⟩
      rcases getElem?_concat_eq_some.mp hi' with hi' | ⟨_, rfl⟩
      · exact hquiet i hi hi'
      · exact hx rfl
    · refine ⟨wrote_concat.mpr (.inr h), fun i hi hi' => ?_⟩
      have hlt := (List.getElem?_eq_some_iff.mp hi').1
      simp only [List.length_append, List.length_singleton] at hlt
      omega

theorem Reads.append {q call : Nat} {a : Except Error Dataset} (h : s.Reads xs q call id a)
    (ys : List (Act T)) : s.Reads (xs ++ ys) q call id a := by
  obtain ⟨hq, hlt, ha⟩ := h
  have hle := (List.getElem?_eq_some_iff.mp hq).1
  refine ⟨?_, hlt, ?_⟩
  · rwa [List.getElem?_append_left hle]
  · rwa [List.take_append_of_le_length (Nat.le_of_lt hle)]

/-- The state after the parts `xs`, as far as it remembers them. -/
structure Recorded (s : Interplay T) (xs : List (Act T)) (c : Interplay T) : Prop where
  time : c.cache.time = xs.length
  ids : c.repository.KeepsIds
  gets : ∀ {call id}, (call, id) ∈ c.gets ↔
    ∃ userId ttl, xs[call]? = some (.get userId id ttl)
  found : ∀ {call a}, (call, a) ∈ c.found → ∃ q id, (call, id) ∈ c.gets ∧ s.Reads xs q call id a
  writers : ∀ {w id}, (w, id) ∈ c.writers ↔ s.Pending xs w id

namespace Recorded

theorem start {repository : Repository} (h : repository.KeepsIds) (defaultTtl : T)
    (maxEntries : Int) (now : T) :
    let s := Interplay.start repository defaultTtl maxEntries now
    Recorded s [] s where
  time := rfl
  ids := h
  gets := by simp [Interplay.start]
  found h := by cases h
  writers := by
    intro w id
    constructor
    · exact nofun
    · rintro ⟨⟨_, _, hw, _⟩, _⟩
      cases hw

theorem after (h : Recorded s xs (s.run xs)) (x : Act T) :
    Recorded s (xs ++ [x]) ((s.run xs).after x) where
  time := by
    rw [List.length_append, ← h.time]
    rfl
  ids := keepsIds_take _ x h.ids
  gets := by
    intro call id
    refine (mem_gets_take _ x).trans ?_
    rw [h.gets, h.time]
    constructor
    · rintro (⟨userId, ttl, hcall⟩ | ⟨rfl, userId, ttl, rfl⟩)
      · exact ⟨userId, ttl, getElem?_concat_eq_some.mpr (.inl hcall)⟩
      · exact ⟨userId, ttl, List.getElem?_concat_length⟩
    · rintro ⟨userId, ttl, hcall⟩
      rcases getElem?_concat_eq_some.mp hcall with hcall | ⟨rfl, rfl⟩
      · exact .inl ⟨userId, ttl, hcall⟩
      · exact .inr ⟨rfl, userId, ttl, rfl⟩
  found := by
    intro call a hfound
    rcases mem_found_take _ x hfound with hfound | ⟨rfl, id, hid, ha⟩
    · obtain ⟨q, id, hid, hreads⟩ := h.found hfound
      exact ⟨q, id, (mem_gets_take _ x).mpr (.inl hid), hreads.append [x]⟩
    · obtain ⟨userId, ttl, hcall⟩ := h.gets.mp hid
      have hlt := (List.getElem?_eq_some_iff.mp hcall).1
      refine ⟨xs.length, id, (mem_gets_take _ _).mpr (.inl hid), List.getElem?_concat_length, hlt, ?_⟩
      rwa [List.take_left]
  writers := by
    intro w id
    refine (mem_writers_take _ x).trans ?_
    rw [h.writers, h.time, pending_concat]

/-- Every run remembers what it has done. -/
theorem run (h : Recorded s [] s) (xs : List (Act T)) : Recorded s xs (s.run xs) := by
  induction xs using List.reverseRecOn with
  | nil => exact h
  | append_singleton xs x ih =>
    rw [run_concat]
    exact ih.after x

end Recorded

end Interplay

end DatasetCatalog.Service
