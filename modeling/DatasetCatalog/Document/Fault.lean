import DatasetCatalog.Value.Basic

/-!
# Faults of a document

What keeps a document from being read as a model, and where. All faults of a document are found at
once, in the order of the model's entries.
-/

namespace DatasetCatalog.Document

inductive Step where
  | key (name : String)
  | index (i : Nat)
deriving DecidableEq, Repr

inductive FaultKind where
  | missing
  | notText
  /-- A text that UTF-8 cannot write, or octets that are no UTF-8. -/
  | unreadableText
  | textTooShort
  | textTooLong
  | notInt
  | unreadableInt
  /-- A whole number of too many digits, or a double beyond the words of a machine. -/
  | oversizedInt
  | fractionalInt
  | notFinite
  | notFloat
  | unreadableFloat
  | notBool
  | unreadableBool
  | notMember
  | notLiteral
  | notList
  | listTooLong
  | notObject
  /-- Not an object, where an object of any entries is asked for. -/
  | notEntries
  | belowMinimum
  | aboveMaximum
  | notMoment
  | unreadableMoment
  | unreadableDate
  | malformedJson
  | rule (message : String)
deriving DecidableEq, Repr

structure Fault where
  path : List Step
  kind : FaultKind
deriving DecidableEq, Repr

def Fault.within (step : Step) (f : Fault) : Fault := { f with path := step :: f.path }

/-- A result, or all faults that were found. -/
inductive Checked (α : Type) where
  | ok (a : α)
  | faults (found : List Fault)

namespace Checked

variable {α β : Type}

def fault (kind : FaultKind) : Checked α := .faults [⟨[], kind⟩]

def map (f : α → β) : Checked α → Checked β
  | .ok a => .ok (f a)
  | .faults found => .faults found

def bind (c : Checked α) (f : α → Checked β) : Checked β :=
  match c with
  | .ok a => f a
  | .faults found => .faults found

/-- Faults of both sides are kept, the first side's before the second's. -/
def apply : Checked (α → β) → Checked α → Checked β
  | .ok f, .ok a => .ok (f a)
  | .ok _, .faults found => .faults found
  | .faults found, .ok _ => .faults found
  | .faults found, .faults more => .faults (found ++ more)

def within (step : Step) : Checked α → Checked α
  | .ok a => .ok a
  | .faults found => .faults (found.map (Fault.within step))

def toExcept : Checked α → Except (List Fault) α
  | .ok a => .ok a
  | .faults found => .error found

def traverseFrom (f : α → Checked β) : Nat → List α → Checked (List β)
  | _, [] => .ok []
  | i, a :: rest =>
    ((f a).within (.index i)).map (fun b bs => b :: bs) |>.apply (traverseFrom f (i + 1) rest)

def traverse (f : α → Checked β) (as : List α) : Checked (List β) := traverseFrom f 0 as

end Checked

end DatasetCatalog.Document
