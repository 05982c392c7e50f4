import DatasetCatalog.Service.Intent
import DatasetCatalog.Service.Reading

/-!
# Answering questions

A question goes to the pipeline together with a summary of the dataset; the intent that comes back
is resolved, checked, rendered as SQL and run. Each stage that finds fault ends the matter with
errors in the outcome.
-/

namespace DatasetCatalog.Service

variable {ε : Type}

/-- The answers of the pipeline to its three calls. -/
structure Pipeline where
  extract : Value := .object []
  validate : Value := .object [("valid", .bool true)]
  render : Value := .object []

structure Seen where
  question : Option (Value × Value) := none
  validated : Option Value := none
  rendered : Option (Value × String) := none

structure Asked where
  seen : Seen
  outcome : Except Error Outcome

def Asked.broken (seen : Seen) (b : Breakdown) : Asked := ⟨seen, .error (.broken b)⟩

def Asked.faulty (seen : Seen) (o : Outcome) (errors : List Value) : Asked :=
  ⟨seen, .ok { o with errors }⟩

def unknownText (unknown : List Value) : Value :=
  .text ("Unknown fields: " ++ ", ".intercalate (unknown.map Value.display))

def answerWith (h : Host ε) (userId id : String) (seen : Seen) (o : Outcome) : Run ε Asked := do
  let ran ← match o.sql with
    | .text sql => (runSql h userId id sql none).attempt
    | .bytes _ => (getDataset userId id *> throw (.broken .badType)).attempt
    | _ => (getDataset userId id *> throw (.broken .noSuchPart)).attempt
  match ran with
  | .ok result => return ⟨seen, .ok { o with result := some result }⟩
  | .error (.refused cause) => return .faulty seen o [.text cause.message]
  | .error e => return ⟨seen, .error e⟩

/-- What follows once the labels of the intent are resolved. -/
def answerResolved (h : Host ε) (userId id : String) (p : Pipeline) (d : Dataset) (seen : Seen)
    (o : Outcome) : Run ε Asked := do
  let seen := { seen with validated := some o.intent }
  match checkErrors p.validate with
  | .error b => return .broken seen b
  | .ok (e :: errors) => return .faulty seen o (e :: errors)
  | .ok [] =>
    let seen := { seen with rendered := some (o.intent, d.id) }
    match part p.render "sql" with
    | .error b => return .broken seen b
    | .ok sql =>
      if !sql.truthy then
        return .faulty seen o [.text "The intent pipeline produced no SQL."]
      else answerWith h userId id seen { o with sql }

def ask (h : Host ε) (userId id : String) (question : Value) (p : Pipeline) : Run ε Asked := do
  match ← (getDataset userId id).attempt with
  | .error e => return ⟨{}, .error e⟩
  | .ok d =>
    let seen : Seen := { question := some (question, d.summary) }
    match extraction p.extract with
    | .error b => return .broken seen b
    | .ok o =>
      if !o.intent.truthy then
        return .faulty seen o [.text "No intent could be extracted from the question."]
      else
        match resolveIntent d.fields o.intent with
        | .error b => return .broken seen b
        | .ok (intent, []) => answerResolved h userId id p d seen { o with intent }
        | .ok (_, unknown) => return .faulty seen o [unknownText unknown]

end DatasetCatalog.Service
