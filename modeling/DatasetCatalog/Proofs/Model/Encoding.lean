import DatasetCatalog.Proofs.Document.Echoes
import DatasetCatalog.Proofs.Model.Parts

/-!
# The data model and its documents

What was read as a dataset is read back from its document, under either name of a schema. What was
read as changes gives back the entries that were sent, at every level, and reads them as the same
changes.
-/

namespace DatasetCatalog

open Document

section Scalars

theorem given_of_text {v : Value} {s : String} {given : Value} (h : text v = .ok ⟨s, given⟩) :
    given = .text s := by
  cases v with
  | text s =>
    cases h
    rfl
  | bytes octets =>
    simp only [text] at h
    split at h
    · cases h
      rfl
    · cases h
  | _ => cases h

theorem text_echoes : Echoes text .scalar :=
  .of_readsBack text_readsBack given_of_text nofun

theorem int_echoes : Echoes int .scalar := by
  refine .of_readsBack int_readsBack (fun {v n given} h => ?_) nofun
  obtain ⟨_, _, he⟩ := Checked.map_eq_ok h
  cases he
  rfl

theorem bool_echoes : Echoes bool .scalar := by
  refine .of_readsBack bool_readsBack (fun {v b given} h => ?_) nofun
  obtain ⟨_, _, he⟩ := Checked.map_eq_ok h
  cases he
  rfl

theorem given_of_member {α : Type} {all : List α} {name : α → String} {kind : FaultKind} {v : Value}
    {a : α} {given : Value} (h : member all name kind v = .ok ⟨a, given⟩) :
    given = .text (name a) := by
  cases v with
  | text s =>
    simp only [member] at h
    split at h
    · cases h
      rfl
    · cases h
  | _ => cases h

theorem given_of_named {α : Type} [Named α] {v : Value} {a : α} {given : Value}
    (h : (named : Reader α) v = .ok ⟨a, given⟩) : given = .named a :=
  given_of_member h

theorem named_echoes {α : Type} [Named α] : Echoes (named : Reader α) .scalar :=
  .of_readsBack named_readsBack given_of_named nofun

theorem anyValue_echoes : Echoes anyValue .free where
  mirrors hv := by
    cases hv
    rfl
  again hv := by
    cases hv
    rfl

end Scalars

section Parts

def FieldFormat.mirror : Mirror := .object
  [{ key := "type", content := .scalar },
   { key := "pattern", content := .nullable .scalar },
   { key := "decimal_places", content := .nullable .scalar },
   { key := "thousands_separator", content := .nullable .scalar }]

def Field.mirror : Mirror := .object
  [{ key := "name", content := .scalar },
   { key := "display_name", content := .scalar },
   { key := "type", content := .scalar },
   { key := "field_type", content := .scalar },
   { key := "aggregation_type", content := .nullable .scalar },
   { key := "dimension_level", content := .nullable .scalar },
   { key := "is_nullable", content := .scalar },
   { key := "is_primary_key", content := .scalar },
   { key := "sample_values", content := .listOf .free },
   { key := "expression", content := .nullable .scalar },
   { key := "format", content := .nullable FieldFormat.mirror },
   { key := "description", content := .nullable .scalar },
   { key := "hidden", content := .scalar }]

def Filter.mirror : Mirror := .object
  [{ key := "field", content := .scalar },
   { key := "operator", content := .scalar },
   { key := "value", content := .free }]

def ComputedField.mirror : Mirror := .object
  [{ key := "name", content := .scalar },
   { key := "display_name", content := .scalar },
   { key := "expression", content := .scalar },
   { key := "type", content := .scalar },
   { key := "description", content := .nullable .scalar }]

def TableConfig.mirror : Mirror := .object
  [{ key := "datasource_id", content := .scalar },
   { key := "table_name", content := .scalar },
   { key := "schema_name", aliases := ["schema"], content := .nullable .scalar }]

def SqlConfig.mirror : Mirror := .object
  [{ key := "datasource_id", content := .scalar }, { key := "sql", content := .scalar }]

def ViewConfig.mirror : Mirror := .object
  [{ key := "base_dataset_id", content := .scalar },
   { key := "filters", content := .listOf Filter.mirror },
   { key := "computed_fields", content := .listOf ComputedField.mirror }]

def Permission.mirror : Mirror := .object
  [{ key := "user_id", content := .scalar }, { key := "role", content := .scalar }]

/-- What of changes is given goes with what was sent. -/
def UpdateRequest.mirror : Mirror := .object
  [{ key := "name", content := .nullable .scalar },
   { key := "display_name", content := .nullable .scalar },
   { key := "description", content := .nullable .scalar },
   { key := "type", content := .nullable .scalar },
   { key := "table_config", content := .nullable TableConfig.mirror },
   { key := "sql_config", content := .nullable SqlConfig.mirror },
   { key := "view_config", content := .nullable ViewConfig.mirror },
   { key := "fields", content := .nullable (.listOf Field.mirror) },
   { key := "category", content := .nullable .scalar },
   { key := "tags", content := .nullable (.listOf .scalar) },
   { key := "permissions", content := .nullable (.listOf Permission.mirror) },
   { key := "status", content := .nullable .scalar }]

open EntriesReader (echoes_entry)

theorem FieldFormat.echoes : Echoes (model FieldFormat.reader) FieldFormat.mirror :=
  (echoes_entry text_echoes _ _ _).map _
    |>.seq (echoes_entry (text_echoes.nullable nofun) _ _ _) (by decide)
    |>.seq (echoes_entry (int_echoes.nullable nofun) _ _ _) (by decide)
    |>.seq (echoes_entry (bool_echoes.nullable nofun) _ _ _) (by decide)
    |>.model (by decide)

theorem Field.echoes : Echoes (model Field.reader) Field.mirror :=
  (echoes_entry text_echoes _ _ _).map _
    |>.seq (echoes_entry text_echoes _ _ _) (by decide)
    |>.seq (echoes_entry named_echoes _ _ _) (by decide)
    |>.seq (echoes_entry named_echoes _ _ _) (by decide)
    |>.seq (echoes_entry (named_echoes.nullable nofun) _ _ _) (by decide)
    |>.seq (echoes_entry (named_echoes.nullable nofun) _ _ _) (by decide)
    |>.seq (echoes_entry bool_echoes _ _ _) (by decide)
    |>.seq (echoes_entry bool_echoes _ _ _) (by decide)
    |>.seq (echoes_entry anyValue_echoes.listOf _ _ _) (by decide)
    |>.seq (echoes_entry (text_echoes.nullable nofun) _ _ _) (by decide)
    |>.seq (echoes_entry (FieldFormat.echoes.nullable nofun) _ _ _) (by decide)
    |>.seq (echoes_entry (text_echoes.nullable nofun) _ _ _) (by decide)
    |>.seq (echoes_entry bool_echoes _ _ _) (by decide)
    |>.where? _
    |>.model (by decide)

theorem Filter.echoes : Echoes (model Filter.reader) Filter.mirror :=
  (echoes_entry text_echoes _ _ _).map _
    |>.seq (echoes_entry text_echoes _ _ _) (by decide)
    |>.seq (echoes_entry anyValue_echoes _ _ _) (by decide)
    |>.model (by decide)

theorem ComputedField.echoes : Echoes (model ComputedField.reader) ComputedField.mirror :=
  (echoes_entry text_echoes _ _ _).map _
    |>.seq (echoes_entry text_echoes _ _ _) (by decide)
    |>.seq (echoes_entry text_echoes _ _ _) (by decide)
    |>.seq (echoes_entry named_echoes _ _ _) (by decide)
    |>.seq (echoes_entry (text_echoes.nullable nofun) _ _ _) (by decide)
    |>.model (by decide)

theorem TableConfig.echoes : Echoes (model TableConfig.reader) TableConfig.mirror :=
  (echoes_entry text_echoes _ _ _).map _
    |>.seq (echoes_entry text_echoes _ _ _) (by decide)
    |>.seq (echoes_entry (text_echoes.nullable nofun) _ _ _) (by decide)
    |>.model (by decide)

theorem SqlConfig.echoes : Echoes (model SqlConfig.reader) SqlConfig.mirror :=
  (echoes_entry text_echoes _ _ _).map _
    |>.seq (echoes_entry (text_echoes.refuse _ _) _ _ _) (by decide)
    |>.model (by decide)

theorem ViewConfig.echoes : Echoes (model ViewConfig.reader) ViewConfig.mirror :=
  (echoes_entry text_echoes _ _ _).map _
    |>.seq (echoes_entry Filter.echoes.listOf _ _ _) (by decide)
    |>.seq (echoes_entry ComputedField.echoes.listOf _ _ _) (by decide)
    |>.model (by decide)

theorem Permission.echoes : Echoes (model Permission.reader) Permission.mirror :=
  (echoes_entry text_echoes _ _ _).map _
    |>.seq (echoes_entry named_echoes _ _ _) (by decide)
    |>.model (by decide)

theorem UpdateRequest.echoes : Echoes (model UpdateRequest.reader) UpdateRequest.mirror :=
  (echoes_entry (text_echoes.nullable nofun) _ _ _).map _
    |>.seq (echoes_entry (text_echoes.nullable nofun) _ _ _) (by decide)
    |>.seq (echoes_entry (text_echoes.nullable nofun) _ _ _) (by decide)
    |>.seq (echoes_entry (named_echoes.nullable nofun) _ _ _) (by decide)
    |>.seq (echoes_entry (TableConfig.echoes.nullable nofun) _ _ _) (by decide)
    |>.seq (echoes_entry (SqlConfig.echoes.nullable nofun) _ _ _) (by decide)
    |>.seq (echoes_entry (ViewConfig.echoes.nullable nofun) _ _ _) (by decide)
    |>.seq (echoes_entry (Field.echoes.listOf.nullable nofun) _ _ _) (by decide)
    |>.seq (echoes_entry (text_echoes.nullable nofun) _ _ _) (by decide)
    |>.seq (echoes_entry (text_echoes.listOf.nullable nofun) _ _ _) (by decide)
    |>.seq (echoes_entry (Permission.echoes.listOf.nullable nofun) _ _ _) (by decide)
    |>.seq (echoes_entry (named_echoes.nullable nofun) _ _ _) (by decide)
    |>.model (by decide)

end Parts

section Documents
variable {defaults : Defaults} {d : Dataset} {schemaKey : String}

/-- The schema is found under either of its names. -/
theorem TableConfig.reads_documentWith (hkey : schemaKey = "schema_name" ∨ schemaKey = "schema")
    (c : TableConfig) : Reads (model TableConfig.reader) (c.documentWith schemaKey) c := by
  rcases hkey with rfl | rfl
  · exact (TableConfig.readsBack c c).mpr ⟨rfl, trivial⟩
  · have hschema : [("datasource_id", Value.text c.datasourceId), ("table_name", .text c.tableName),
        ("schema", .ofOption .text c.schemaName)].lookup "schema" =
          some (.ofOption .text c.schemaName) := rfl
    have hnullable := text_readsBack.nullable fun s hs => by cases hs
    rw [TableConfig.documentWith, reads_model, EntriesReader.reads_iff, TableConfig.reader]
    simp only [EntriesReader.exists_reads_seq, EntriesReader.exists_reads_map,
      EntriesReader.reads_required, EntriesReader.reads_entry_of_alias hschema, List.lookup_cons,
      String.reduceBEq, Option.elim_some, text_readsBack _ _, hnullable _ _, implies_true, and_true,
      exists_eq_left]

theorem TableConfig.write_ne_null (c : TableConfig) :
    TableConfig.documentFormat.write c ≠ .null :=
  nofun

theorem TableConfig.not_isDouble_write (c : TableConfig) :
    ¬(TableConfig.documentFormat.write c).IsDouble :=
  nofun

def Dataset.tableConfigPart : Dataset.Part :=
  ⟨"table_config", fun _ => some none,
    TableConfig.documentFormat.nullable TableConfig.write_ne_null TableConfig.not_isDouble_write,
    (·.tableConfig)⟩

/-- The name of the schema shows in no other entry of the document. -/
theorem Dataset.lookup_documentWith (schemaKey : String) (d : Dataset) : ∀ p ∈ Dataset.parts,
    p = Dataset.tableConfigPart ∨
      (d.documentWith schemaKey).lookup p.key = some (p.format.write (p.get d)) := by
  simp only [Dataset.parts, List.forall_mem_cons]
  iterate 6 apply And.intro (.inr rfl)
  apply And.intro (.inl rfl)
  iterate 14 apply And.intro (.inr rfl)
  exact List.forall_mem_nil _

/-- A dataset that is in order is read from its document, whatever stands for missing entries. -/
theorem Dataset.InOrder.ofDocument_documentWith (hd : d.InOrder)
    (hkey : schemaKey = "schema_name" ∨ schemaKey = "schema") :
    Dataset.ofDocument defaults (d.documentWith schemaKey) = .ok d := by
  refine Dataset.ofDocument_eq_ok_iff.mpr ⟨fun p hp => ?_, hd.complaint?⟩
  rcases Dataset.lookup_documentWith schemaKey d p hp with rfl | hentry
  · have hentry : (d.documentWith schemaKey).lookup "table_config" =
        some (.ofOption (TableConfig.documentWith schemaKey) d.tableConfig) := rfl
    rw [Dataset.Part.reads_of_lookup hentry]
    change Reads (nullable (model TableConfig.reader)) _ d.tableConfig
    cases d.tableConfig with
    | none => exact reads_nullable_null.mpr rfl
    | some c =>
      have hne : c.documentWith schemaKey ≠ .null := nofun
      exact (reads_nullable_of_ne hne).mpr ⟨c, rfl, c.reads_documentWith hkey⟩
  · rw [Dataset.Part.reads_of_lookup hentry]
    exact (p.format.readsBack _ _).mpr ⟨rfl, hd.parts p hp⟩

end Documents

/-- Whatever was read as a dataset is read back from its document. Whatever was read as changes
gives the entries that were sent, and is read back from these with the same entries given. -/
theorem survives_encoding (v : Value) :
    (∀ defaults d, (model (Dataset.reader defaults)).value v = .ok d →
      ∀ defaults' schemaKey, schemaKey = "schema_name" ∨ schemaKey = "schema" →
        (model (Dataset.reader defaults')).value (.object (d.documentWith schemaKey)) = .ok d) ∧
    ∀ changes, model UpdateRequest.reader v = .ok changes →
      UpdateRequest.mirror v changes.given ∧
        model UpdateRequest.reader changes.given = .ok changes := by
  constructor
  · intro defaults d hread defaults' schemaKey hkey
    obtain ⟨entries, rfl, -⟩ := exists_entries_of_reads_model (value_eq_ok_iff.mp hread)
    exact (Dataset.inOrder_of_ofDocument hread).ofDocument_documentWith hkey
  · intro changes hread
    exact ⟨UpdateRequest.echoes.mirrors hread, UpdateRequest.echoes.again hread⟩

theorem survives_encoding_of_schema :
    let config : Value := .object
      [("datasource_id", .text "s"), ("table_name", .text "t"), ("schema", .null)]
    let sent : Value := .object
      [("user_id", .text "u"), ("name", .text "sales"), ("display_name", .text "Sales"),
        ("type", .text "table"), ("quality_score", .text " 7"),
        ("table_config", .object [("datasource_id", .text "s"), ("table_name", .text "t"),
          ("schema", .text "main")]), ("other", .int 1)]
    let changed : Value := .object [("description", .null), ("table_config", config)]
    let defaults : Defaults := ⟨"d", Time.Moment.start2024⟩
    (∃ d, (model (Dataset.reader defaults)).value sent = .ok d ∧ d.qualityScore = some 7 ∧
      Dataset.ofDocument defaults (d.documentWith "schema") = .ok d) ∧
    ∃ changes, model UpdateRequest.reader changed = .ok changes ∧
      changes.given.entries.map Prod.fst = ["description", "table_config"] ∧
      UpdateRequest.mirror changed changes.given ∧
      model UpdateRequest.reader changes.given = .ok changes := by
  intro config sent changed defaults
  have htest : ((model (Dataset.reader defaults)).value sent).toOption.any
      (fun d => decide (d.qualityScore = some 7)) = true := by
    decide +kernel
  have hchanges : ∃ changes, model UpdateRequest.reader changed = .ok changes ∧
      changes.given.entries.map Prod.fst = ["description", "table_config"] := ⟨_, rfl, rfl⟩
  obtain ⟨d, hd, hscore⟩ := exists_ok_of_any htest
  obtain ⟨changes, hchanges, hkeys⟩ := hchanges
  have hback := (survives_encoding sent).1 defaults d hd defaults "schema" (.inr rfl)
  exact ⟨⟨d, hd, of_decide_eq_true hscore, hback⟩, changes, hchanges, hkeys,
    (survives_encoding changed).2 changes hchanges⟩

end DatasetCatalog
