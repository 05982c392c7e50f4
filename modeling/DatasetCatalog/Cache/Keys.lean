import DatasetCatalog.Number.DoubleText

/-!
# Cache keys and tags

The tag of a dataset is on its metadata, its previews and its query results alike.
-/

namespace DatasetCatalog.Cache

def previewTag : String := "preview"

def queryTag : String := "query"

def datasetTag (id : String) : String := "dataset:" ++ id

def userTag (userId : String) : String := "user:" ++ userId

def datasetKey (id : String) : String := "dataset:" ++ id

def previewKey (id : String) (limit : Int) : String :=
  "dataset:preview:" ++ id ++ ":" ++ Number.intText limit

def queryKey (id hash : String) : String := "dataset:query:" ++ id ++ ":" ++ hash

end DatasetCatalog.Cache
