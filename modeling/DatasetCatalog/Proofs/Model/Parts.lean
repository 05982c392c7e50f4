import DatasetCatalog.Proofs.Model.Formats

/-!
# The parts of a dataset

A dataset is read part by part, each part from the entry of its key. What holds of every part holds
of the dataset: it reads back from its document, a patch changes only the parts that it states, and
what lasts in every part comes back from the JSON form of the document.
-/

namespace DatasetCatalog

open Document Time

/-- One part of a dataset: the entry it is kept in, what stands for it where the entry may be
missing, and its format. -/
structure Dataset.Part where
  {α : Type}
  key : String
  default : Defaults → Option α := fun _ => none
  format : Format α
  get : Dataset → α

namespace Dataset

namespace Part

/-- The reader of the part among entries. -/
def reader (p : Part) (defaults : Defaults) : EntriesReader p.α :=
  match p.default defaults with
  | none => required p.key p.format.reader
  | some a => withDefault p.key a p.format.reader

/-- What the part is in a dataset is read from some entries. -/
def Reads (p : Part) (defaults : Defaults) (entries : List (String × Value)) (d : Dataset) : Prop :=
  (p.reader defaults).Reads entries (p.get d)

variable {p : Part} {defaults : Defaults} {entries : List (String × Value)} {d : Dataset}

theorem reads_of_lookup {v : Value} (hv : entries.lookup p.key = some v) :
    p.Reads defaults entries d ↔ Document.Reads p.format.reader v (p.get d) := by
  unfold Reads reader
  cases p.default defaults with
  | none => rw [EntriesReader.reads_required, hv, Option.elim_some]
  | some a => rw [EntriesReader.reads_withDefault, hv, Option.elim_some]

theorem reads_of_lookup_none (hv : entries.lookup p.key = none) :
    p.Reads defaults entries d ↔ p.default defaults = some (p.get d) := by
  unfold Reads reader
  cases p.default defaults with
  | none =>
    rw [EntriesReader.reads_required, hv, Option.elim_none]
    simp
  | some a =>
    rw [EntriesReader.reads_withDefault, hv, Option.elim_none, Option.some.injEq]
    exact eq_comm

end Part

/-- The time of the last change, which every patch states. -/
def updatedAtPart : Part :=
  ⟨"updated_at", fun defaults => some defaults.now, .moment, (·.updatedAt)⟩

/-- The parts of a dataset. -/
def parts : List Part :=
  [⟨"id", fun defaults => some defaults.id, .text, (·.id)⟩,
   ⟨"user_id", fun _ => none, .text, (·.userId)⟩,
   ⟨"name", fun _ => none, .textAtMost 100, (·.name)⟩,
   ⟨"display_name", fun _ => none, .textBetween 1 200, (·.displayName)⟩,
   ⟨"description", fun _ => some none, (Format.textAtMost 1000).nullable nofun nofun,
    (·.description)⟩,
   ⟨"type", fun _ => none, .named, (·.type)⟩,
   ⟨"table_config", fun _ => some none, TableConfig.documentFormat.nullable nofun nofun,
    (·.tableConfig)⟩,
   ⟨"sql_config", fun _ => some none, SqlConfig.documentFormat.nullable nofun nofun,
    (·.sqlConfig)⟩,
   ⟨"view_config", fun _ => some none, ViewConfig.documentFormat.nullable nofun nofun,
    (·.viewConfig)⟩,
   ⟨"fields", fun _ => some [], Field.documentFormat.listOf, (·.fields)⟩,
   ⟨"metadata", fun _ => some {}, DatasetMetadata.documentFormat, (·.metadata)⟩,
   ⟨"category", fun _ => some "default", .text, (·.category)⟩,
   ⟨"tags", fun _ => some [], Format.text.listAtMost 20, (·.tags)⟩,
   ⟨"permissions", fun _ => some [], Permission.documentFormat.listOf, (·.permissions)⟩,
   ⟨"quality_score", fun _ => some none, (Format.intBetween 0 100).nullable nofun nofun,
    (·.qualityScore)⟩,
   ⟨"quality_issues", fun _ => some [], QualityIssue.documentFormat.listOf, (·.qualityIssues)⟩,
   ⟨"status", fun _ => some .processing, .named, (·.status)⟩,
   ⟨"last_error", fun _ => some none, Format.text.nullable nofun nofun, (·.lastError)⟩,
   ⟨"version", fun _ => some 1, .int, (·.version)⟩,
   ⟨"created_at", fun defaults => some defaults.now, .moment, (·.createdAt)⟩,
   updatedAtPart]

/-- The document has the entry of every part. -/
theorem lookup_document {p : Part} (hp : p ∈ parts) (d : Dataset) :
    d.document.lookup p.key = some (p.format.write (p.get d)) := by
  revert p
  simp only [parts, List.forall_mem_cons]
  iterate 21 apply And.intro rfl
  exact nofun

/-- What stands for a missing entry is in order. -/
theorem inOrder_default (defaults : Defaults) : ∀ p ∈ parts, ∀ a : p.α,
    p.default defaults = some a → p.format.inOrder a := by
  have hnone {α : Type} {q : α → Prop} (o : Option α) (ho : some none = some o) :
      ∀ b, o = some b → q b := by
    cases ho
    exact nofun
  have hnil {α : Type} {q : α → Prop} (as : List α) (has : some [] = some as) :
      ∀ b ∈ as, q b := by
    cases has
    exact nofun
  have htags {q : String → Prop} (as : List String) (has : some [] = some as) :
      (∀ b ∈ as, q b) ∧ as.length ≤ 20 := by
    cases has
    exact ⟨nofun, Nat.zero_le 20⟩
  simp only [parts, List.forall_mem_cons]
  exact ⟨fun _ _ => trivial, nofun, nofun, nofun, hnone, nofun, hnone, hnone, hnone, hnil,
    fun _ _ => trivial, fun _ _ => trivial, htags, hnil, hnone, hnil, fun _ _ => trivial, hnone,
    fun _ _ => trivial, fun _ _ => trivial, fun _ _ => trivial, nofun⟩

/-- A dataset is its parts. -/
theorem eq_of_parts {d d' : Dataset} (h : ∀ p ∈ parts, p.get d' = p.get d) : d' = d := by
  simp only [parts, List.forall_mem_cons] at h
  cases d
  cases d'
  simp_all only [updatedAtPart]

/-- But for the time of the last change, two datasets have the parts of some keys in common. -/
structure Agree (keys : String → Prop) (d d' : Dataset) : Prop where
  id : keys "id" → d'.id = d.id
  userId : keys "user_id" → d'.userId = d.userId
  name : keys "name" → d'.name = d.name
  displayName : keys "display_name" → d'.displayName = d.displayName
  description : keys "description" → d'.description = d.description
  type : keys "type" → d'.type = d.type
  tableConfig : keys "table_config" → d'.tableConfig = d.tableConfig
  sqlConfig : keys "sql_config" → d'.sqlConfig = d.sqlConfig
  viewConfig : keys "view_config" → d'.viewConfig = d.viewConfig
  fields : keys "fields" → d'.fields = d.fields
  metadata : keys "metadata" → d'.metadata = d.metadata
  category : keys "category" → d'.category = d.category
  tags : keys "tags" → d'.tags = d.tags
  permissions : keys "permissions" → d'.permissions = d.permissions
  qualityScore : keys "quality_score" → d'.qualityScore = d.qualityScore
  qualityIssues : keys "quality_issues" → d'.qualityIssues = d.qualityIssues
  status : keys "status" → d'.status = d.status
  lastError : keys "last_error" → d'.lastError = d.lastError
  version : keys "version" → d'.version = d.version
  createdAt : keys "created_at" → d'.createdAt = d.createdAt

theorem agree_of_parts {keys : String → Prop} {d d' : Dataset}
    (h : ∀ p ∈ parts, keys p.key → p.key ≠ "updated_at" → p.get d' = p.get d) :
    Agree keys d d' := by
  simp only [parts, List.forall_mem_cons] at h
  obtain ⟨hid, huserId, hname, hdisplayName, hdescription, htype, htableConfig, hsqlConfig,
    hviewConfig, hfields, hmetadata, hcategory, htags, hpermissions, hqualityScore, hqualityIssues, hstatus,
    hlastError, hversion, hcreatedAt, -⟩ := h
  constructor
  · exact fun hkey => hid hkey (by decide)
  · exact fun hkey => huserId hkey (by decide)
  · exact fun hkey => hname hkey (by decide)
  · exact fun hkey => hdisplayName hkey (by decide)
  · exact fun hkey => hdescription hkey (by decide)
  · exact fun hkey => htype hkey (by decide)
  · exact fun hkey => htableConfig hkey (by decide)
  · exact fun hkey => hsqlConfig hkey (by decide)
  · exact fun hkey => hviewConfig hkey (by decide)
  · exact fun hkey => hfields hkey (by decide)
  · exact fun hkey => hmetadata hkey (by decide)
  · exact fun hkey => hcategory hkey (by decide)
  · exact fun hkey => htags hkey (by decide)
  · exact fun hkey => hpermissions hkey (by decide)
  · exact fun hkey => hqualityScore hkey (by decide)
  · exact fun hkey => hqualityIssues hkey (by decide)
  · exact fun hkey => hstatus hkey (by decide)
  · exact fun hkey => hlastError hkey (by decide)
  · exact fun hkey => hversion hkey (by decide)
  · exact fun hkey => hcreatedAt hkey (by decide)

theorem Agree.refl (keys : String → Prop) (d : Dataset) : Agree keys d d := by
  constructor <;> exact fun _ => rfl

theorem Agree.mono {keys keys' : String → Prop} {d d' : Dataset} (h : Agree keys d d')
    (hkeys : ∀ key, keys' key → keys key) : Agree keys' d d' := by
  constructor
  · exact fun hkey => h.id (hkeys _ hkey)
  · exact fun hkey => h.userId (hkeys _ hkey)
  · exact fun hkey => h.name (hkeys _ hkey)
  · exact fun hkey => h.displayName (hkeys _ hkey)
  · exact fun hkey => h.description (hkeys _ hkey)
  · exact fun hkey => h.type (hkeys _ hkey)
  · exact fun hkey => h.tableConfig (hkeys _ hkey)
  · exact fun hkey => h.sqlConfig (hkeys _ hkey)
  · exact fun hkey => h.viewConfig (hkeys _ hkey)
  · exact fun hkey => h.fields (hkeys _ hkey)
  · exact fun hkey => h.metadata (hkeys _ hkey)
  · exact fun hkey => h.category (hkeys _ hkey)
  · exact fun hkey => h.tags (hkeys _ hkey)
  · exact fun hkey => h.permissions (hkeys _ hkey)
  · exact fun hkey => h.qualityScore (hkeys _ hkey)
  · exact fun hkey => h.qualityIssues (hkeys _ hkey)
  · exact fun hkey => h.status (hkeys _ hkey)
  · exact fun hkey => h.lastError (hkeys _ hkey)
  · exact fun hkey => h.version (hkeys _ hkey)
  · exact fun hkey => h.createdAt (hkeys _ hkey)

section Reading
variable {defaults : Defaults} {entries : List (String × Value)} {d d' : Dataset}

/-- A dataset is read if all its parts are, and no rule has a complaint. -/
theorem ofDocument_eq_ok_iff : Dataset.ofDocument defaults entries = .ok d ↔
    (∀ p ∈ parts, p.Reads defaults entries d) ∧ d.complaint? = none := by
  rw [Dataset.ofDocument, value_eq_ok_iff, reads_model, Dataset.reader,
    EntriesReader.reads_where?, EntriesReader.reads_iff]
  simp only [EntriesReader.exists_reads_seq, EntriesReader.exists_reads_map, parts,
    List.forall_mem_cons]
  constructor
  · rintro ⟨⟨_, hupdated, _, hcreated, _, hversion, _, herror, _, hstatus, _, hissues, _, hscore,
    _, hpermissions, _, htags, _, hcategory, _, hmetadata, _, hfields, _, hview, _, hsql,
    _, htable, _, htype, _, hdescription, _, hdisplayName, _, hname, _, huser, _, hid, rfl⟩, hrule⟩
    exact ⟨⟨hid, huser, hname, hdisplayName, hdescription, htype, htable, hsql, hview, hfields,
      hmetadata, hcategory, htags, hpermissions, hscore, hissues, hstatus, herror, hversion,
      hcreated, hupdated, List.forall_mem_nil _⟩, hrule⟩
  · rintro ⟨⟨hid, huser, hname, hdisplayName, hdescription, htype, htable, hsql, hview, hfields,
      hmetadata, hcategory, htags, hpermissions, hscore, hissues, hstatus, herror, hversion,
      hcreated, hupdated, -⟩, hrule⟩
    exact ⟨⟨_, hupdated, _, hcreated, _, hversion, _, herror, _, hstatus, _, hissues, _, hscore,
    _, hpermissions, _, htags, _, hcategory, _, hmetadata, _, hfields, _, hview, _, hsql,
    _, htable, _, htype, _, hdescription, _, hdisplayName, _, hname, _, huser, _, hid, rfl⟩, hrule⟩

/-- What a document may hold: every part is in order, and no rule has a complaint. -/
structure InOrder (d : Dataset) : Prop where
  parts : ∀ p ∈ parts, p.format.inOrder (p.get d)
  complaint? : d.complaint? = none

theorem inOrder_of_ofDocument (h : Dataset.ofDocument defaults entries = .ok d) : d.InOrder := by
  obtain ⟨hparts, hrule⟩ := ofDocument_eq_ok_iff.mp h
  refine ⟨fun p hp => ?_, hrule⟩
  have hread := hparts p hp
  cases hv : entries.lookup p.key with
  | none => exact inOrder_default defaults p hp _ ((Part.reads_of_lookup_none hv).mp hread)
  | some v => exact p.format.inOrder_of_reads ((Part.reads_of_lookup hv).mp hread)

/-- A part comes back as it was written. -/
theorem Part.eq_of_lookup {p : Part} {a : p.α} (hv : entries.lookup p.key = some (p.format.write a))
    (h : p.Reads defaults entries d) : p.get d = a :=
  ((p.format.readsBack _ _).mp ((Part.reads_of_lookup hv).mp h)).1

/-- A part comes back from the document if the entry of the part is still there. -/
theorem eq_of_reads_document {p : Part} (hp : p ∈ Dataset.parts)
    (hentry : entries.lookup p.key = d.document.lookup p.key)
    (h : p.Reads defaults entries d') : p.get d' = p.get d :=
  Part.eq_of_lookup (hentry.trans (lookup_document hp d)) h

/-- A dataset is in order if its document can be read. -/
theorem inOrder_of_isSome (h : (Dataset.ofDocument defaults d.document).toOption.isSome = true) :
    d.InOrder := by
  cases hread : Dataset.ofDocument defaults d.document with
  | error faults =>
    rw [hread] at h
    cases h
  | ok d' =>
    have hsame : d' = d := eq_of_parts fun p hp =>
      eq_of_reads_document hp rfl ((ofDocument_eq_ok_iff.mp hread).1 p hp)
    exact hsame ▸ inOrder_of_ofDocument hread

end Reading

section Patches
variable {d d' : Dataset} {patch : List (String × Value)} {now : Moment}

/-- A patch changes only the parts that it states, and the time of the last change. -/
theorem eq_of_patched (h : d.patched patch now = .ok d') {p : Part} (hp : p ∈ parts)
    (hpatch : patch.lookup p.key = none) (hkey : p.key ≠ "updated_at") : p.get d' = p.get d := by
  refine eq_of_reads_document hp ?_ ((ofDocument_eq_ok_iff.mp h).1 p hp)
  rw [Value.lookup_putEntry_of_ne hkey, Value.lookup_mergeEntries_of_none hpatch]

theorem agree_of_patched (h : d.patched patch now = .ok d') :
    Agree (patch.lookup · = none) d d' :=
  agree_of_parts fun _ hp => eq_of_patched h hp

/-- A patch makes a dataset that is in order, if it states whatever that one has of its own. -/
theorem patched_of_states (hd' : d'.InOrder) (hkeys : (patch.map Prod.fst).Nodup)
    (hupdated : d'.updatedAt = now)
    (h : ∀ p ∈ parts, p.key ≠ "updated_at" → patch.lookup p.key = some (p.format.write (p.get d')) ∨
      patch.lookup p.key = none ∧ p.get d' = p.get d) : d.patched patch now = .ok d' := by
  refine ofDocument_eq_ok_iff.mpr ⟨fun p hp => ?_, hd'.complaint?⟩
  have hread : Document.Reads p.format.reader (p.format.write (p.get d')) (p.get d') :=
    (p.format.readsBack _ _).mpr ⟨rfl, hd'.parts p hp⟩
  refine (Part.reads_of_lookup ?_).mpr hread
  by_cases hkey : p.key = "updated_at"
  · rw [← lookup_document hp d', hkey, Value.lookup_putEntry_self, ← hupdated]
    rfl
  · rw [Value.lookup_putEntry_of_ne hkey]
    rcases h p hp hkey with hstated | ⟨hnone, hsame⟩
    · exact Value.lookup_mergeEntries_of_nodup hkeys hstated _
    · rw [Value.lookup_mergeEntries_of_none hnone, hsame]
      exact lookup_document hp d

/-- No other part is kept under the key of the time of the last change, or depends on it. -/
theorem get_withUpdatedAt (t : Moment) : ∀ p ∈ parts, p = updatedAtPart ∨
    p.key ≠ "updated_at" ∧ p.get { d with updatedAt := t } = p.get d := by
  simp only [parts, List.forall_mem_cons]
  iterate 20 apply And.intro (.inr ⟨by decide, trivial⟩)
  exact ⟨.inl trivial, nofun⟩

/-- Whether a patch is in order does not depend on the time. -/
theorem patched_at (h : d.patched patch now = .ok d') (now' : Moment) :
    d.patched patch now' = .ok { d' with updatedAt := now' } := by
  obtain ⟨hparts, hrule⟩ := ofDocument_eq_ok_iff.mp h
  refine ofDocument_eq_ok_iff.mpr ⟨fun p hp => ?_, hrule⟩
  rcases get_withUpdatedAt (d := d') now' p hp with rfl | ⟨hkey, hget⟩
  · have hself := Value.lookup_putEntry_self "updated_at" (.moment now')
      (Value.mergeEntries d.document patch)
    rw [Part.reads_of_lookup (p := updatedAtPart) hself]
    exact (moment_readsBack now' now').mpr ⟨rfl, trivial⟩
  · have hread := hparts p hp
    obtain ⟨v, hv⟩ := Option.isSome_iff_exists.mp (Value.isSome_lookup_mergeEntries
      (Option.isSome_iff_exists.mpr ⟨_, lookup_document hp d⟩) patch)
    have hentry (t : Moment) : (Value.putEntry "updated_at" (.moment t)
        (Value.mergeEntries d.document patch)).lookup p.key = some v := by
      rw [Value.lookup_putEntry_of_ne hkey, hv]
    rw [Part.reads_of_lookup (hentry now)] at hread
    rw [Part.reads_of_lookup (hentry now'), hget]
    exact hread

end Patches

section Forms
variable {defaults : Defaults} {d d' : Dataset} {v : Value}

/-- Every part comes back from the JSON form of the document. -/
def Lasting (d : Dataset) : Prop := ∀ p ∈ parts, p.format.lasting (p.get d)

theorem lookup_form (hv : (Value.object d.document).HasForm v) {p : Part} (hp : p ∈ parts) :
    ∃ w, v.entries.lookup p.key = some w ∧ (p.format.write (p.get d)).HasForm w := by
  obtain ⟨forms, rfl, hforms⟩ := hv.object
  exact hforms p.key _ (lookup_document hp d)

theorem InOrder.ofDocument_form (hd : d.InOrder) (hlasting : d.Lasting)
    (hv : (Value.object d.document).HasForm v) :
    Dataset.ofDocument defaults v.entries = .ok d := by
  refine ofDocument_eq_ok_iff.mpr ⟨fun p hp => ?_, hd.complaint?⟩
  obtain ⟨w, hw, hform⟩ := lookup_form hv hp
  rw [Part.reads_of_lookup hw]
  exact p.format.reads_form (hlasting p hp) hform (hd.parts p hp)

theorem lasting_of_form (hv : (Value.object d.document).HasForm v)
    (h : Dataset.ofDocument defaults v.entries = .ok d') : d'.Lasting := by
  intro p hp
  obtain ⟨w, hw, hform⟩ := lookup_form hv hp
  have hread := (ofDocument_eq_ok_iff.mp h).1 p hp
  rw [Part.reads_of_lookup hw] at hread
  exact p.format.lasting_of_reads hform hread

theorem InOrder.eq_of_form (hd : d.InOrder) (hv : (Value.object d.document).HasForm v)
    (h : Dataset.ofDocument defaults v.entries = .ok d') {p : Part} (hp : p ∈ Dataset.parts)
    (hlasting : p.format.lasting (p.get d)) : p.get d' = p.get d := by
  obtain ⟨w, hw, hform⟩ := lookup_form hv hp
  have hread := (ofDocument_eq_ok_iff.mp h).1 p hp
  rw [Part.reads_of_lookup hw] at hread
  exact (p.format.reads_form_iff hlasting (hd.parts p hp) hform).mp hread

/-- A part that lasts in two datasets is the same in them if their documents have one form. -/
theorem InOrder.eq_of_forms (hd : d.InOrder) (hd' : d'.InOrder)
    (hv : (Value.object d.document).HasForm v) (hv' : (Value.object d'.document).HasForm v)
    {p : Part} (hp : p ∈ Dataset.parts) (hlasting : p.format.lasting (p.get d))
    (hlasting' : p.format.lasting (p.get d')) : p.get d' = p.get d := by
  obtain ⟨w, hw, hform⟩ := lookup_form hv hp
  obtain ⟨w', hw', hform'⟩ := lookup_form hv' hp
  obtain rfl : w = w' := Option.some.inj (hw.symm.trans hw')
  have hread := p.format.reads_form hlasting' hform' (hd'.parts p hp)
  exact (p.format.reads_form_iff hlasting (hd.parts p hp) hform).mp hread

end Forms

end Dataset

end DatasetCatalog
