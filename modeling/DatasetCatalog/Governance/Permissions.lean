import DatasetCatalog.Error
import DatasetCatalog.Model.Dataset

/-!
# Permissions

The creator of a dataset holds every role on it; anyone else the highest role among their entries.
A role includes those below it.
-/

namespace DatasetCatalog

def Role.higher (a b : Role) : Role := if a.level < b.level then b else a

def grantedRole (permissions : List Permission) (userId : String) : Option Role :=
  (permissions.filter (·.userId == userId)).foldl
    (fun best p => some (match best with
      | none => p.role
      | some r => r.higher p.role)) none

def Dataset.roleOf (d : Dataset) (userId : String) : Option Role :=
  if d.userId == userId then some .owner else grantedRole d.permissions userId

def Dataset.permits (d : Dataset) (userId : String) (required : Role) : Bool :=
  (d.roleOf userId).any fun role => required.level ≤ role.level

def Dataset.require (d : Dataset) (userId : String) (required : Role) : Except Error Unit :=
  if d.permits userId required then .ok () else .error (.permissionDenied userId d.id required)

end DatasetCatalog
