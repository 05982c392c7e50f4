import DatasetCatalog.Document.Fault

/-!
# Readers of documents

A reader turns a value into a result together with what was given: the value in normal form, an
object holding only the entries that were present. Reading what was given reads the same again.
Entries of an object that no reader asks for are ignored.
-/

namespace DatasetCatalog.Document

structure Reading (α : Type) where
  value : α
  given : Value

abbrev Reader (α : Type) := Value → Checked (Reading α)

structure EntriesReader (α : Type) where
  read : List (String × Value) → Checked (α × List (String × Value))

namespace EntriesReader

variable {α β : Type}

instance : Functor EntriesReader where
  map f r := ⟨fun entries => (r.read entries).map fun (a, given) => (f a, given)⟩

instance : Pure EntriesReader := ⟨fun a => ⟨fun _ => .ok (a, [])⟩⟩

instance : Seq EntriesReader where
  seq f r := ⟨fun entries =>
    ((f.read entries).map fun (g, first) => fun (a, second) => (g a, first ++ second)).apply
      ((r ()).read entries)⟩

end EntriesReader

variable {α : Type}

/-- Read an entry if it is there; otherwise the result is `absent`. The entry is given under the
first of its names and found under the first that is present. -/
def entry (key : String) (aliases : List String) (absent : Checked α) (r : Reader α) :
    EntriesReader α where
  read entries :=
    match (aliases ++ [key]).findSome? fun k => (entries.lookup k).map fun v => (k, v) with
    | some (k, v) => ((r v).within (.key k)).map fun reading => (reading.value, [(key, reading.given)])
    | none => (absent.within (.key key)).map fun a => (a, [])

def required (key : String) (r : Reader α) : EntriesReader α :=
  entry key [] (.fault .missing) r

def withDefault (key : String) (default : α) (r : Reader α) : EntriesReader α :=
  entry key [] (.ok default) r

/-- A rule of the model as a whole, checked when all entries are in order. -/
def EntriesReader.where? (r : EntriesReader α) (rule : α → Option String) : EntriesReader α where
  read entries :=
    match r.read entries with
    | .ok (a, given) =>
      match rule a with
      | some message => .fault (.rule message)
      | none => .ok (a, given)
    | .faults found => .faults found

def model (r : EntriesReader α) : Reader α
  | .object entries => (r.read entries).map fun (a, given) => ⟨a, .object given⟩
  | _ => .fault .notObject

def nullable (r : Reader α) : Reader (Option α)
  | .null => .ok ⟨none, .null⟩
  | v => (r v).map fun reading => ⟨some reading.value, reading.given⟩

def listOf (r : Reader α) : Reader (List α)
  | .list items => (Checked.traverse r items).map fun readings =>
    ⟨readings.map (·.value), .list (readings.map (·.given))⟩
  | _ => .fault .notList

/-- Refuse results of which `bad` holds. -/
def refuse (r : Reader α) (bad : α → Bool) (kind : FaultKind) : Reader α := fun v =>
  match r v with
  | .ok reading => if bad reading.value then .fault kind else .ok reading
  | .faults found => .faults found

def anyValue : Reader Value := fun v => .ok ⟨v, v⟩

def member (all : List α) (name : α → String) (kind : FaultKind) : Reader α
  | .text s =>
    match all.find? fun a => name a == s with
    | some a => .ok ⟨a, .text (name a)⟩
    | none => .fault kind
  | _ => .fault kind

def Reader.value (r : Reader α) (v : Value) : Except (List Fault) α :=
  ((r v).map (·.value)).toExcept

end DatasetCatalog.Document
