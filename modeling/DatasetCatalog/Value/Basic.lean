import DatasetCatalog.Time.TimeText
import DatasetCatalog.Value.Decimal

/-!
# Values

The values of table cells, filters and free-form settings: JSON data together with what databases
add to it. Whole numbers and doubles stay apart, and an object keeps the order of its entries.

A not-a-number equals nothing but the object that it is. As a double or a decimal it is an object of
its own in every place; objects that stand in several places have a constructor and are numbered.
-/

namespace DatasetCatalog

/-- A not-a-number among the doubles, or one among the decimals that does not signal. -/
inductive NotANumber where
  | double
  | decimal (negative : Bool) (payload : Nat)
deriving DecidableEq, Repr

inductive Value where
  | null
  | bool (b : Bool)
  | int (n : Int)
  | float (x : Float)
  | text (s : String)
  | date (d : Time.Date)
  | moment (m : Time.Moment)
  | duration (d : Time.Duration)
  | decimal (d : DecimalNumber)
  /-- The object of that number, which is not a number wherever it stands. -/
  | nan (number : Nat) (n : NotANumber)
  | bytes (octets : List UInt8)
  | list (items : List Value)
  | object (entries : List (String × Value))
deriving Inhabited

namespace Value

def isNull : Value → Bool
  | .null => true
  | _ => false

theorem isNull_iff {v : Value} : v.isNull = true ↔ v = .null := by
  cases v <;> simp [isNull]

def entries : Value → List (String × Value)
  | .object entries => entries
  | _ => []

def get? (v : Value) (key : String) : Option Value := v.entries.lookup key

def getD (v : Value) (key : String) : Value := (v.get? key).getD .null

/-- Replace the entry in its place, or add it at the end. -/
def putEntry {α : Type} (key : String) (a : α) : List (String × α) → List (String × α)
  | [] => [(key, a)]
  | (k, b) :: rest => if k == key then (k, a) :: rest else (k, b) :: putEntry key a rest

theorem lookup_putEntry_self {α : Type} (key : String) (a : α) (entries : List (String × α)) :
    (putEntry key a entries).lookup key = some a := by
  induction entries with
  | nil => simp [putEntry]
  | cons e rest ih =>
    obtain ⟨k, b⟩ := e
    by_cases h : k = key
    · simp [putEntry, h]
    · simp [putEntry, h, List.lookup_cons, beq_false_of_ne (Ne.symm h), ih]

theorem lookup_putEntry_of_ne {α : Type} {key other : String} (h : other ≠ key) (a : α)
    (entries : List (String × α)) :
    (putEntry key a entries).lookup other = entries.lookup other := by
  induction entries with
  | nil => simp [putEntry, List.lookup_cons, beq_false_of_ne h]
  | cons e rest ih =>
    obtain ⟨k, b⟩ := e
    by_cases hk : k = key
    · subst hk
      simp [putEntry, List.lookup_cons, beq_false_of_ne h]
    · simp [putEntry, hk, List.lookup_cons, ih]

/-- Later entries replace earlier ones of the same key, in their place. -/
def mergeEntries {α : Type} (old new : List (String × α)) : List (String × α) :=
  new.foldl (fun entries e => putEntry e.1 e.2 entries) old

/-- Whether a value counts as given: not null, false, zero or empty. -/
def truthy : Value → Bool
  | .null => false
  | .bool b => b
  | .int n => n != 0
  | .float x => !(x == 0.0)
  | .text s => !s.isEmpty
  | .list items => !items.isEmpty
  | .object entries => !entries.isEmpty
  | .bytes octets => !octets.isEmpty
  | .duration d => d != ⟨0, 0, 0⟩
  | .decimal (.finite _ n _) => n != 0
  | .decimal _ | .nan .. | .date _ | .moment _ => true

def ofOption {α : Type} (f : α → Value) : Option α → Value
  | none => .null
  | some a => f a

def ofNat (n : Nat) : Value := .int n

end Value

end DatasetCatalog
