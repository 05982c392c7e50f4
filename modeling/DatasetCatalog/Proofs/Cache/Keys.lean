import DatasetCatalog.Cache.Keys
import DatasetCatalog.Proofs.Json.Injectivity

/-!
# What keys tell

Datasets of different ids have different keys, and a key of previews or query results is the key of
a dataset only if the id of that dataset has a colon. A key of previews tells the dataset and the
limit; a key of query results tells the dataset and the digest, unless the id has a colon.
-/

namespace DatasetCatalog.Cache

theorem datasetKey_injective {a b : String} (h : datasetKey a = datasetKey b) : a = b :=
  (String.append_right_inj "dataset:").mp h

/-- Only an id with a colon has the key of something else. -/
theorem datasetKey_ne {id : String} (h : ':' ∉ id.toList) {kind : String} (hk : ':' ∈ kind.toList)
    (rest : String) : datasetKey (kind ++ rest) ≠ datasetKey id := by
  intro he
  apply h
  rw [← datasetKey_injective he, String.toList_append]
  exact List.mem_append_left _ hk

theorem previewKey_ne {id : String} (h : ':' ∉ id.toList) (other : String) (limit : Int) :
    previewKey other limit ≠ datasetKey id := by
  have hhead : "dataset:preview:" = "dataset:" ++ "preview:" := by simp
  have hkey : previewKey other limit =
      datasetKey ("preview:" ++ (other ++ (":" ++ Number.intText limit))) := by
    unfold previewKey datasetKey
    rw [hhead, String.append_assoc, String.append_assoc, String.append_assoc]
  rw [hkey]
  exact datasetKey_ne h (by simp) (other ++ (":" ++ Number.intText limit))

theorem queryKey_ne {id : String} (h : ':' ∉ id.toList) (other hash : String) :
    queryKey other hash ≠ datasetKey id := by
  have hhead : "dataset:query:" = "dataset:" ++ "query:" := by simp
  have hkey : queryKey other hash = datasetKey ("query:" ++ (other ++ (":" ++ hash))) := by
    unfold queryKey datasetKey
    rw [hhead, String.append_assoc, String.append_assoc, String.append_assoc]
  rw [hkey]
  exact datasetKey_ne h (by simp) (other ++ (":" ++ hash))

/-- The first separator stands at one place. -/
theorem append_cons_inj_left {α : Type} {c : α} {as as' bs bs' : List α}
    (h : as ++ c :: bs = as' ++ c :: bs') (ha : c ∉ as) (ha' : c ∉ as') :
    as = as' ∧ bs = bs' := by
  induction as generalizing as' with
  | nil =>
    cases as' with
    | nil => exact ⟨rfl, (List.cons.inj h).2⟩
    | cons a rest =>
      obtain ⟨rfl, _⟩ := List.cons.inj h
      exact absurd List.mem_cons_self ha'
  | cons a rest ih =>
    cases as' with
    | nil =>
      obtain ⟨rfl, _⟩ := List.cons.inj h
      exact absurd List.mem_cons_self ha
    | cons a' rest' =>
      obtain ⟨rfl, hrest⟩ := List.cons.inj h
      obtain ⟨rfl, hbs⟩ := ih hrest (fun hc => ha (List.mem_cons_of_mem _ hc))
        (fun hc => ha' (List.mem_cons_of_mem _ hc))
      exact ⟨rfl, hbs⟩

theorem no_colon_intText (n : Int) : ':' ∉ (Number.intText n).toList := by
  intro h
  rcases Json.mem_intText h with hsign | hdigit
  · exact absurd hsign (by decide)
  · exact absurd hdigit (by decide)

theorem toList_previewKey (id : String) (limit : Int) : (previewKey id limit).toList =
    "dataset:preview:".toList ++ (id.toList ++ ':' :: (Number.intText limit).toList) := by
  have hcolon : ":".toList = [':'] := by simp
  unfold previewKey
  simp only [String.toList_append, hcolon, List.append_assoc, List.singleton_append]

theorem toList_queryKey (id hash : String) : (queryKey id hash).toList =
    "dataset:query:".toList ++ (id.toList ++ ':' :: hash.toList) := by
  have hcolon : ":".toList = [':'] := by simp
  unfold queryKey
  simp only [String.toList_append, hcolon, List.append_assoc, List.singleton_append]

/-- The limit stands behind the last colon. -/
theorem previewKey_injective {id id' : String} {limit limit' : Int}
    (h : previewKey id limit = previewKey id' limit') : id = id' ∧ limit = limit' := by
  have hchars := congrArg String.toList h
  rw [toList_previewKey, toList_previewKey, List.append_cancel_left_eq] at hchars
  have hreversed := congrArg List.reverse hchars
  rw [List.reverse_append, List.reverse_append, List.reverse_cons, List.reverse_cons,
    List.append_assoc, List.append_assoc] at hreversed
  have hnone (n : Int) : ':' ∉ (Number.intText n).toList.reverse := fun hmem =>
    no_colon_intText n (List.mem_reverse.mp hmem)
  obtain ⟨hlimits, hids⟩ := append_cons_inj_left hreversed (hnone limit) (hnone limit')
  refine ⟨String.toList_injective (List.reverse_injective hids), Json.intText_injective ?_⟩
  exact String.toList_injective (List.reverse_injective hlimits)

theorem queryKey_injective {id id' hash hash' : String} (hid : ':' ∉ id.toList)
    (hid' : ':' ∉ id'.toList) (h : queryKey id hash = queryKey id' hash') :
    id = id' ∧ hash = hash' := by
  have hchars := congrArg String.toList h
  rw [toList_queryKey, toList_queryKey, List.append_cancel_left_eq] at hchars
  obtain ⟨hids, hhashes⟩ := append_cons_inj_left hchars hid hid'
  exact ⟨String.toList_injective hids, String.toList_injective hhashes⟩

theorem previewKey_ne_queryKey (id id' hash : String) (limit : Int) :
    previewKey id limit ≠ queryKey id' hash := by
  intro h
  have hchars := congrArg String.toList h
  rw [toList_previewKey, toList_queryKey] at hchars
  have hletter := congrArg (fun cs : List Char => cs[8]?) hchars
  cases hletter

end DatasetCatalog.Cache
