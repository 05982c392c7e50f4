import DatasetCatalog.Service.Metadata

/-!
# Running operations

An operation takes a world to a result and the next world. The equations here say so for the parts
that operations are put together from, so that an operation is run by rewriting.
-/

namespace DatasetCatalog.Service

variable {ε α β : Type}

namespace Run

theorem bind_apply (x : Run ε α) (f : α → Run ε β) (w : World ε) :
    (x >>= f) w = match x w with
      | (.ok a, w') => f a w'
      | (.error e, w') => (.error e, w') := by
  change (ExceptT.bindCont f (x w).1) (x w).2 = _
  rcases x w with ⟨_ | _, w'⟩ <;> rfl

theorem pure_apply (a : α) (w : World ε) : (pure a : Run ε α) w = (.ok a, w) := rfl

theorem get_apply (w : World ε) : (get : Run ε (World ε)) w = (.ok w, w) := rfl

theorem modify_apply (f : World ε → World ε) (w : World ε) :
    (modify f : Run ε Unit) w = (.ok (), f w) := rfl

theorem ofExcept_apply (a : Except Error α) (w : World ε) :
    (Run.ofExcept a : Run ε α) w = (a, w) := rfl

theorem attempt_apply (x : Run ε α) (w : World ε) : x.attempt w = (.ok (x w).1, (x w).2) := rfl

end Run

/-- What a call reads of a dataset. -/
def readDataset (r : Store.Repository) (id : String) : Except Error Dataset :=
  match r.find? id with
  | .ok (some d) => .ok d
  | .ok none => .error (.datasetNotFound id)
  | .error e => .error e

theorem readDataset_eq_ok {r : Store.Repository} {id : String} {d : Dataset} :
    readDataset r id = .ok d ↔ r.find? id = .ok (some d) := by
  unfold readDataset
  split <;> rename_i h <;> simp [h]

theorem load_apply (id : String) (w : World ε) :
    load id w = (readDataset w.repository id, w) := by
  simp only [load, readDataset, Run.bind_apply, Run.get_apply, Run.ofExcept_apply]
  rcases w.repository.find? id with e | _ | d <;> rfl

theorem cached_apply (key : String) (ttl : Float) (tags : List String) (compute : Run ε Cached)
    (w : World ε) :
    cached key ttl tags compute w =
      match w.cache.begin w.clock key (some ttl) tags with
      | (.hit v, cache) => (.ok v, { w with cache })
      | (.joined _, cache) => (.error (.crashed "deadlock"), { w with cache })
      | (.leads lead, cache) =>
        match compute { w with cache } with
        | (.ok v, w) => (.ok v, { w with cache := w.cache.finish w.clock lead v })
        | (.error e, w) => (.error e, { w with cache := w.cache.land lead }) := by
  simp only [cached, Run.bind_apply, Run.get_apply]
  rcases w.cache.begin w.clock key (some ttl) tags with ⟨b, cache⟩
  cases b with
  | hit v => rfl
  | joined ticket => rfl
  | leads lead =>
    simp only [setCache, Run.bind_apply, Run.modify_apply, Run.attempt_apply]
    rcases compute { w with cache } with ⟨_ | _, w'⟩ <;> rfl

end DatasetCatalog.Service
