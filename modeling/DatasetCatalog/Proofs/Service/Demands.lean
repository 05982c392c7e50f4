import DatasetCatalog.Proofs.Query.RequestKeys
import DatasetCatalog.Proofs.Service.Plans

/-!
# What the key of a demand tells

Rows are kept under a key that does not show the demand itself. Where ids have no colon and no two
of the digested texts have one digest, the key tells the demand, but for the order in a request and
the blanks around SQL.
-/

namespace DatasetCatalog

namespace Digest

/-- A digest is written in hexadecimal digits. -/
theorem no_colon_sha256Text (s : String) : ':' ∉ (sha256Text s).toList := by
  rw [sha256Text, sha256, String.toList_ofList, List.mem_flatMap]
  rintro ⟨word, _, h⟩
  rcases List.mem_append.mp h with h | h
  · exact absurd (List.eq_of_mem_replicate h) (by decide)
  · obtain ⟨n, hn⟩ := Json.exists_digitChar h
    exact absurd hn.symm (Nat.digitChar_ne ':' rfl)

end Digest

namespace Service

open Cache Query

/-- The text whose digest the key holds. -/
def Demand.Hashes : Demand → String → Prop
  | .preview _ _, _ => False
  | .query _ r, text => canonicalText r = .ok text
  | .sql _ free, text => text = Text.strip free

/-- The demand is for the same rows of the same dataset: limits are equal, requests differ in order
at most, and SQL differs at most in the blanks around it. -/
inductive Demand.Same : Demand → Demand → Prop
  | preview (id : String) (limit : Int) : Same (.preview id limit) (.preview id limit)
  | query (id : String) {r r' : QueryRequest} : r.Same r' → Same (.query id r) (.query id r')
  | sql (id : String) {sql sql' : String} : Text.strip sql = Text.strip sql' →
    Same (.sql id sql) (.sql id sql')

def Demand.IsFiniteJson : Demand → Prop
  | .query _ r => r.IsFiniteJson
  | _ => True

section Keys
variable {id key : String}

theorem key_query_ok {r : QueryRequest} (h : (Demand.query id r).key = .ok key) :
    ∃ text, canonicalText r = .ok text ∧ key = queryKey id (Digest.sha256Text text) := by
  obtain ⟨hash, hhash, rfl⟩ := map_eq_ok h
  obtain ⟨text, htext, rfl⟩ := requestHash_eq_ok.mp hhash
  exact ⟨text, htext, rfl⟩

theorem key_sql_ok {sql : String} (h : (Demand.sql id sql).key = .ok key) :
    key = queryKey id ("sql:" ++ Digest.sha256Text (Text.strip sql)) :=
  (Except.ok.inj h).symm

/-- The key of previews is not the key of anything else. -/
theorem eq_of_key_preview {limit : Int} {demand : Demand}
    (h : demand.key = .ok (previewKey id limit)) : demand = .preview id limit := by
  cases demand with
  | preview other n =>
    obtain ⟨rfl, rfl⟩ := previewKey_injective (Except.ok.inj h)
    rfl
  | query other r =>
    obtain ⟨_, _, hkey⟩ := key_query_ok h
    exact absurd hkey (previewKey_ne_queryKey _ _ _ _)
  | sql other sql => exact absurd (key_sql_ok h) (previewKey_ne_queryKey _ _ _ _)

/-- The digest of a request is not the name of any SQL. -/
theorem key_query_ne_key_sql {id' : String} {r : QueryRequest} {sql : String}
    (hid : ':' ∉ id.toList) (hid' : ':' ∉ id'.toList) (h : (Demand.query id r).key = .ok key) :
    (Demand.sql id' sql).key ≠ .ok key := by
  intro h'
  obtain ⟨text, _, rfl⟩ := key_query_ok h
  obtain ⟨_, hhash⟩ := queryKey_injective hid hid' (key_sql_ok h')
  apply Digest.no_colon_sha256Text text
  rw [hhash, String.toList_append]
  exact List.mem_append_left _ (by decide)

/-- Demands of one key are the same. -/
theorem Demand.same_of_key {demand demand' : Demand} (h : demand.key = .ok key)
    (h' : demand'.key = .ok key) (hid : ':' ∉ demand.id.toList) (hid' : ':' ∉ demand'.id.toList)
    (hfinite : demand.IsFiniteJson) (hfinite' : demand'.IsFiniteJson)
    (hdigest : ∀ text text', demand.Hashes text → demand'.Hashes text' →
      Digest.sha256Text text = Digest.sha256Text text' → text = text') : demand.Same demand' := by
  cases demand with
  | preview id limit =>
    cases h
    rw [eq_of_key_preview h']
    exact .preview id limit
  | query id r =>
    cases demand' with
    | preview id' limit =>
      cases h'
      cases eq_of_key_preview h
    | query id' r' =>
      obtain ⟨text, htext, rfl⟩ := key_query_ok h
      obtain ⟨text', htext', hkey⟩ := key_query_ok h'
      obtain ⟨rfl, hdigests⟩ := queryKey_injective hid hid' hkey
      obtain rfl := hdigest text text' htext htext' hdigests
      exact .query id (same_of_canonicalText hfinite hfinite' htext htext')
    | sql id' sql => exact absurd h' (key_query_ne_key_sql hid hid' h)
  | sql id sql =>
    cases demand' with
    | preview id' limit =>
      cases h'
      cases eq_of_key_preview h
    | query id' r => exact absurd h (key_query_ne_key_sql hid' hid h')
    | sql id' sql' =>
      obtain ⟨rfl, hhash⟩ :=
        queryKey_injective hid hid' ((key_sql_ok h).symm.trans (key_sql_ok h'))
      have hdigests := (String.append_right_inj "sql:").mp hhash
      exact .sql id (hdigest _ _ rfl rfl hdigests)

end Keys

end Service

end DatasetCatalog
