import DatasetCatalog.Proofs.Model.Encoding

/-!
# Requests to change a dataset

What a request states is read twice: as part of the request, and as part of the dataset, after it
was laid over the document. The dataset refuses more, but what it reads is what the request read,
with the same values where something was left out.
-/

namespace DatasetCatalog

open Document Time

section Stated
variable {d d' : Dataset} {patch : List (String × Value)} {now : Moment}

/-- A part that a patch states is read from what it states. -/
theorem Dataset.reads_of_patched (h : d.patched patch now = .ok d')
    (hkeys : (patch.map Prod.fst).Nodup) {p : Dataset.Part} (hp : p ∈ Dataset.parts)
    (hkey : p.key ≠ "updated_at") {v : Value} (hv : patch.lookup p.key = some v) :
    Document.Reads p.format.reader v (p.get d') := by
  have hread := (Dataset.ofDocument_eq_ok_iff.mp h).1 p hp
  have hentry : (Value.putEntry "updated_at" (.moment now)
      (Value.mergeEntries d.document patch)).lookup p.key = some v := by
    rw [Value.lookup_putEntry_of_ne hkey, Value.lookup_mergeEntries_of_nodup hkeys hv]
  exact (Dataset.Part.reads_of_lookup hentry).mp hread

end Stated

section Refinement
variable {α : Type} {r r' : Reader α} {v : Value}

/-- What a reader that refuses null reads is read as well where null is let pass. -/
theorem reads_nullable_some {a : α} (h : Reads r v a) (hr : RefusesNull r) :
    Reads (nullable r) v (some a) := by
  have hv : v ≠ .null := by
    rintro rfl
    obtain ⟨given, h⟩ := h
    exact hr _ h
  exact (reads_nullable_of_ne hv).mpr ⟨a, rfl, h⟩

theorem reads_nullable_of_refined (hr : ∀ {a}, Reads r' v a → Reads r v a) {o : Option α}
    (h : Reads (nullable r') v o) : Reads (nullable r) v o := by
  by_cases hv : v = .null
  · subst hv
    exact reads_nullable_null.mpr (reads_nullable_null.mp h)
  · obtain ⟨a, rfl, ha⟩ := (reads_nullable_of_ne hv).mp h
    exact (reads_nullable_of_ne hv).mpr ⟨a, rfl, hr ha⟩

theorem reads_text_of_atMost {high : Nat} {s : String} (h : Reads (textAtMost high) v s) :
    Reads text v s :=
  (reads_refuse.mp h).1

theorem reads_text_of_between {low high : Nat} {s : String}
    (h : Reads (textBetween low high) v s) : Reads text v s :=
  (reads_refuse.mp (reads_refuse.mp h).1).1

end Refinement

/-- Each value of a request is read from its own entry. -/
structure UpdateRequest.ReadFrom (entries : List (String × Value)) (u : UpdateRequest) : Prop where
  name : (withDefault "name" none (nullable text)).Reads entries u.name
  displayName : (withDefault "display_name" none (nullable text)).Reads entries u.displayName
  description : (withDefault "description" none (nullable text)).Reads entries u.description
  type : (withDefault "type" none (nullable named)).Reads entries u.type
  tableConfig : (withDefault "table_config" none
    (nullable (model TableConfig.reader))).Reads entries u.tableConfig
  sqlConfig : (withDefault "sql_config" none
    (nullable (model SqlConfig.reader))).Reads entries u.sqlConfig
  viewConfig : (withDefault "view_config" none
    (nullable (model ViewConfig.reader))).Reads entries u.viewConfig
  fields : (withDefault "fields" none
    (nullable (listOf (model Field.reader)))).Reads entries u.fields
  category : (withDefault "category" none (nullable text)).Reads entries u.category
  tags : (withDefault "tags" none (nullable (listOf text))).Reads entries u.tags
  permissions : (withDefault "permissions" none
    (nullable (listOf (model Permission.reader)))).Reads entries u.permissions
  status : (withDefault "status" none (nullable named)).Reads entries u.status

/-- A dataset after changes. What was sent is as the request says, and all else is as it was, but
for the time of the last change. -/
structure Dataset.EditedBy (sent : String → Bool) (u : UpdateRequest) (now : Moment)
    (d d' : Dataset) : Prop where
  name : some d'.name = if sent "name" then u.name else some d.name
  displayName :
    some d'.displayName = if sent "display_name" then u.displayName else some d.displayName
  description : d'.description = if sent "description" then u.description else d.description
  type : some d'.type = if sent "type" then u.type else some d.type
  tableConfig : d'.tableConfig = if sent "table_config" then u.tableConfig else d.tableConfig
  sqlConfig : d'.sqlConfig = if sent "sql_config" then u.sqlConfig else d.sqlConfig
  viewConfig : d'.viewConfig = if sent "view_config" then u.viewConfig else d.viewConfig
  fields : some d'.fields = if sent "fields" then u.fields else some d.fields
  category : some d'.category = if sent "category" then u.category else some d.category
  tags : some d'.tags = if sent "tags" then u.tags else some d.tags
  permissions :
    some d'.permissions = if sent "permissions" then u.permissions else some d.permissions
  status : some d'.status = if sent "status" then u.status else some d.status
  updatedAt : d'.updatedAt = now
  others : Agree (· ∉ UpdateRequest.keys) d d'

section Given
variable {v : Value} {changes : Reading UpdateRequest}
  (hread : model UpdateRequest.reader v = .ok changes)
include hread

/-- The entries of changes are those that were given, in some entries that were sent. -/
theorem UpdateRequest.read_given :
    ∃ entries, UpdateRequest.reader.read entries = .ok (changes.value, changes.given.entries) := by
  cases v with
  | object entries =>
    obtain ⟨⟨a, given⟩, hentries, rfl⟩ := Checked.map_eq_ok hread
    exact ⟨entries, hentries⟩
  | _ => cases hread

theorem UpdateRequest.nodup_given : (changes.given.entries.map Prod.fst).Nodup := by
  obtain ⟨_, hread⟩ := UpdateRequest.read_given hread
  exact (UpdateRequest.names_reader hread).nodup (by decide)

theorem UpdateRequest.lookup_given_eq_none {key : String} (hkey : key ∉ UpdateRequest.keys) :
    changes.given.entries.lookup key = none := by
  obtain ⟨_, hread⟩ := UpdateRequest.read_given hread
  exact UpdateRequest.names_reader.lookup_eq_none hkey hread

/-- What was sent of the request is what is given of it. -/
theorem UpdateRequest.isSome_given {key : String} (hkey : key ∈ UpdateRequest.keys) :
    (changes.given.entries.lookup key).isSome = (v.entries.lookup key).isSome :=
  Mirror.isSome_lookup (UpdateRequest.echoes.mirrors hread) (by simp) hkey

/-- Nothing is given exactly if nothing was sent that a request may state. -/
theorem UpdateRequest.given_eq_nil_iff : changes.given.entries = [] ↔
    ∀ key ∈ UpdateRequest.keys, (v.entries.lookup key).isSome = false := by
  constructor
  · intro hempty key hkey
    rw [← UpdateRequest.isSome_given hread hkey, hempty]
    rfl
  · intro hnone
    cases hentries : changes.given.entries with
    | nil => rfl
    | cons e rest =>
      have hfound : changes.given.entries.lookup e.1 = some e.2 := by
        rw [hentries]
        exact List.lookup_cons_self
      have hkey : e.1 ∈ UpdateRequest.keys := by
        by_contra hkey
        rw [UpdateRequest.lookup_given_eq_none hread hkey] at hfound
        cases hfound
      have hsent := hnone e.1 hkey
      rw [← UpdateRequest.isSome_given hread hkey, hfound] at hsent
      cases hsent

/-- The request reads again from what is given. -/
theorem UpdateRequest.readFrom_given : changes.value.ReadFrom changes.given.entries := by
  have hagain := UpdateRequest.echoes.again hread
  obtain ⟨_, given, _, hgiven, _⟩ := UpdateRequest.echoes.mirrors hread
  rw [hgiven] at hagain ⊢
  obtain ⟨value, _⟩ := changes
  have hparts := reads_model.mp ⟨_, hagain⟩
  rw [UpdateRequest.reader, EntriesReader.reads_iff] at hparts
  simp only [EntriesReader.exists_reads_seq, EntriesReader.exists_reads_map] at hparts
  obtain ⟨_, status, _, permissions, _, tags, _, category, _, fields, _, view, _, sql, _, table,
    _, type, _, description, _, displayName, _, name, rfl⟩ := hparts
  exact ⟨name, displayName, description, type, table, sql, view, fields, category, tags,
    permissions, status⟩

/-- What is given takes the place of what was there, and what is not given has no value. -/
theorem UpdateRequest.asked_or_kept {α : Type} {r : Reader (Option α)} {key : String}
    (hkey : key ∈ UpdateRequest.keys) {asked current next : Option α}
    (hasked : (withDefault key none r).Reads changes.given.entries asked)
    (hnext : next = if (v.entries.lookup key).isSome then asked else current) :
    (changes.given.entries.lookup key).isSome = true ∧ next = asked ∨
      asked = none ∧ next = current := by
  rw [← UpdateRequest.isSome_given hread hkey] at hnext
  rw [EntriesReader.reads_withDefault] at hasked
  cases hgiven : changes.given.entries.lookup key with
  | none =>
    rw [hgiven] at hasked hnext
    exact .inr ⟨hasked, hnext⟩
  | some w =>
    rw [hgiven] at hnext
    exact .inl ⟨rfl, hnext⟩

theorem UpdateRequest.given_nonempty {name : String} (hname : changes.value.name = some name) :
    changes.given.entries.isEmpty = false := by
  have hasked := (UpdateRequest.readFrom_given hread).name
  rw [EntriesReader.reads_withDefault, hname] at hasked
  cases hentries : changes.given.entries with
  | nil =>
    rw [hentries] at hasked
    cases hasked
  | cons e rest => rfl

variable {d d' : Dataset} {now : Moment} (h : d.patched changes.given.entries now = .ok d')
include h

/-- A part that the request may state is what the request reads for it, if that was sent. -/
theorem Dataset.edited_part {p : Dataset.Part} (hp : p ∈ Dataset.parts)
    (hkey : p.key ∈ UpdateRequest.keys) {β : Type} (r : Reader β) (f : p.α → Option β)
    (hrefined : ∀ {w a}, Reads p.format.reader w a → Reads (nullable r) w (f a)) {asked : Option β}
    (hasked : (withDefault p.key none (nullable r)).Reads changes.given.entries asked) :
    f (p.get d') = if (v.entries.lookup p.key).isSome then asked else f (p.get d) := by
  have hne : p.key ≠ "updated_at" := ne_of_mem_of_not_mem hkey (by decide)
  rw [← UpdateRequest.isSome_given hread hkey]
  cases hgiven : changes.given.entries.lookup p.key with
  | none =>
    rw [Dataset.eq_of_patched h hp hgiven hne]
    rfl
  | some w =>
    have hstated := Dataset.reads_of_patched h (UpdateRequest.nodup_given hread) hp hne hgiven
    rw [EntriesReader.reads_withDefault, hgiven, Option.elim_some] at hasked
    exact (hrefined hstated).unique hasked

/-- Changes that a dataset takes are made as they were asked for. -/
theorem Dataset.editedBy_of_patched :
    d.EditedBy (fun key => (v.entries.lookup key).isSome) changes.value now d' := by
  have hparts : ∀ p ∈ Dataset.parts, p.key ∈ UpdateRequest.keys → ∀ {β : Type} (r : Reader β)
      (f : p.α → Option β), (∀ {w a}, Reads p.format.reader w a → Reads (nullable r) w (f a)) →
      ∀ {asked : Option β},
        (withDefault p.key none (nullable r)).Reads changes.given.entries asked →
        f (p.get d') = if (v.entries.lookup p.key).isSome then asked else f (p.get d) :=
    fun p hp hkey _ r f hrefined _ hasked => edited_part hread h hp hkey r f hrefined hasked
  have hrequest := UpdateRequest.readFrom_given hread
  simp only [Dataset.parts, List.forall_mem_cons] at hparts
  obtain ⟨_, _, name, displayName, description, type, table, sql, view, fields, _, category, tags,
    permissions, _, _, status, _⟩ := hparts
  exact
    { name := name (by decide) text some
        (fun ha => reads_nullable_some (reads_text_of_atMost ha) (by rintro _ ⟨⟩)) hrequest.name
      displayName := displayName (by decide) text some
        (fun ha => reads_nullable_some (reads_text_of_between ha) (by rintro _ ⟨⟩))
        hrequest.displayName
      description := description (by decide) text (fun o => o)
        (reads_nullable_of_refined reads_text_of_atMost) hrequest.description
      type := type (by decide) named some
        (fun ha => reads_nullable_some ha (by rintro _ ⟨⟩)) hrequest.type
      tableConfig := table (by decide) _ (fun o => o) (fun ha => ha) hrequest.tableConfig
      sqlConfig := sql (by decide) _ (fun o => o) (fun ha => ha) hrequest.sqlConfig
      viewConfig := view (by decide) _ (fun o => o) (fun ha => ha) hrequest.viewConfig
      fields := fields (by decide) _ some
        (fun ha => reads_nullable_some ha (by rintro _ ⟨⟩)) hrequest.fields
      category := category (by decide) text some
        (fun ha => reads_nullable_some ha (by rintro _ ⟨⟩)) hrequest.category
      tags := tags (by decide) (listOf text) some
        (fun ha => reads_nullable_some (reads_listAtMost.mp ha).1 (by rintro _ ⟨⟩)) hrequest.tags
      permissions := permissions (by decide) _ some
        (fun ha => reads_nullable_some ha (by rintro _ ⟨⟩)) hrequest.permissions
      status := status (by decide) named some
        (fun ha => reads_nullable_some ha (by rintro _ ⟨⟩)) hrequest.status
      updatedAt := congrArg Dataset.updatedAt
        (Except.ok.inj (h.symm.trans (Dataset.patched_at h now)))
      others := (Dataset.agree_of_patched h).mono fun key hkey =>
        UpdateRequest.lookup_given_eq_none hread hkey }

/-- A changed dataset has the name of the request, or keeps its own. -/
theorem UpdateRequest.name_of_changed : d'.name = changes.value.name.getD d.name := by
  rcases UpdateRequest.asked_or_kept hread (by decide) (UpdateRequest.readFrom_given hread).name
    (Dataset.editedBy_of_patched hread h).name with ⟨_, hname⟩ | ⟨hnone, hname⟩
  · rw [← hname]
    rfl
  · rw [hnone]
    exact Option.some.inj hname

theorem Dataset.userId_of_patched : d'.userId = d.userId :=
  (Dataset.editedBy_of_patched hread h).others.userId (by decide)

end Given

end DatasetCatalog
