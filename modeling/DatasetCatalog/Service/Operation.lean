import DatasetCatalog.Service.Asking
import DatasetCatalog.Service.Editing

/-!
# Operations

What users can ask of the service, as data, and what they get for it. Sequences of operations are
lists, so what holds after any number of them can be said by induction.
-/

namespace DatasetCatalog.Service

open Document

inductive Operation where
  | create (userId : String) (request : CreateRequest)
  | update (userId id : String) (changes : Reading UpdateRequest)
  | delete (userId id : String)
  | get (userId id : String)
  | refresh (userId id : String)
  | search (userId : String) (params : SearchParams)
  | preview (userId id : String) (limit timeoutMs : Option Int)
  | query (userId id : String) (request : QueryRequest) (timeoutMs : Option Int)
  | runSql (userId id sql : String) (timeoutMs : Option Int)
  | ask (userId id : String) (question : Value) (pipeline : Pipeline)

inductive Answer where
  | done
  | dataset (d : Dataset)
  /-- An analysis was asked for, and whether it is over. -/
  | scheduled (isOver : Bool)
  | search (r : SearchResult)
  | preview (r : PreviewResult)
  | query (r : QueryResult)
  | asked (a : Asked)

variable {ε : Type}

def perform (h : Host ε) : Operation → Run ε Answer
  | .create userId request => .dataset <$> create h userId request
  | .update userId id changes => .dataset <$> update h userId id changes
  | .delete userId id => do
    delete userId id
    return .done
  | .get userId id => .dataset <$> getDataset userId id
  | .refresh userId id => .scheduled <$> refresh h userId id
  | .search userId params => .search <$> search userId params
  | .preview userId id limit timeoutMs => .preview <$> preview h userId id limit timeoutMs
  | .query userId id request timeoutMs => .query <$> query h userId id request timeoutMs
  | .runSql userId id sql timeoutMs => .query <$> runSql h userId id sql timeoutMs
  | .ask userId id question pipeline => .asked <$> ask h userId id question pipeline

end DatasetCatalog.Service
