import DatasetCatalog.Proofs.Json.Forms
import DatasetCatalog.Proofs.Json.Injectivity
import DatasetCatalog.Proofs.Success
import DatasetCatalog.Query.Canonical

/-!
# What a canonical text tells

The text that names a request tells its limit and, but for their order, its measures, its dimensions
and its filters. Of a filter it tells the field, the operator and the text of the value.
-/

namespace DatasetCatalog

section Order
variable {α β : Type} {R : α → β → Prop}

/-- The items of one list are related to those of the other, but for their order. -/
def UpToOrder (R : α → β → Prop) (as : List α) (bs : List β) : Prop :=
  ∃ cs : List β, List.Forall₂ R as cs ∧ cs.Perm bs

namespace UpToOrder
variable {as as' : List α} {bs bs' : List β}

theorem of_perm (ha : as'.Perm as) (hb : bs'.Perm bs) (h : List.Forall₂ R as' bs') :
    UpToOrder R as bs := by
  obtain ⟨cs, hpairs, hcs⟩ := List.perm_comp_forall₂ ha.symm h
  exact ⟨cs, hpairs, hcs.trans hb⟩

/-- A relation that tells the items of two lists apart makes one a permutation of the other. -/
theorem perm {R : α → α → Prop} {as bs : List α} (h : UpToOrder R as bs)
    (hR : ∀ a ∈ as, ∀ b ∈ bs, R a b → a = b) : as.Perm bs := by
  obtain ⟨cs, hpairs, hcs⟩ := h
  have hsame : List.Forall₂ (· = ·) as cs := by
    refine List.forall₂_iff_zip.mpr ⟨hpairs.length_eq, fun {a c} hac => ?_⟩
    obtain ⟨ha, hc⟩ := List.of_mem_zip hac
    exact hR a ha c (hcs.subset hc) ((List.forall₂_iff_zip.mp hpairs).2 hac)
  rw [List.forall₂_eq_eq_eq] at hsame
  rw [hsame]
  exact hcs

end UpToOrder

end Order

/-- The JSON form of a filter, by its parts. -/
theorem Filter.jsonFormIn_ok {f : Filter} {room : Nat} {form : Value}
    (h : f.document.jsonFormIn (room + 2) = .ok form) :
    ∃ v, f.value.jsonFormIn (room + 1) = .ok v ∧
      form = .object [("field", .text f.field), ("operator", .text f.operator), ("value", v)] := by
  obtain ⟨_, hentries, rfl⟩ := Value.jsonFormIn_object_ok h
  obtain ⟨field, _, hfield, hentries₁, rfl⟩ := Value.jsonEntriesIn_cons_ok hentries
  obtain ⟨operator, _, hoperator, hentries₂, rfl⟩ := Value.jsonEntriesIn_cons_ok hentries₁
  obtain ⟨v, _, hv, hentries₃, rfl⟩ := Value.jsonEntriesIn_cons_ok hentries₂
  obtain rfl := Value.jsonEntriesIn_nil_ok hentries₃
  cases hfield
  cases hoperator
  exact ⟨v, hv, rfl⟩

namespace Query

open Json

/-- The text whose digest names a request. -/
def canonicalText (r : QueryRequest) : Except Error String := do
  (canonicalJson (← canonicalDocument r)).mapError .broken

theorem canonicalText_eq_ok {r : QueryRequest} {text : String} : canonicalText r = .ok text ↔
    ∃ document, canonicalDocument r = .ok document ∧ canonicalJson document = .ok text := by
  constructor
  · intro h
    obtain ⟨document, hdocument, htext⟩ := bind_eq_ok h
    exact ⟨document, hdocument, mapError_eq_ok htext⟩
  · rintro ⟨document, hdocument, htext⟩
    rw [canonicalText, hdocument]
    exact congrArg (Except.mapError Error.broken) htext

theorem map_snd_of_keyed {fs : List Filter} {keyed : List (String × Filter)}
    (h : List.Forall₂ (fun f e => (do return (← filterText f, f)) = Except.ok e) fs keyed) :
    keyed.map (·.2) = fs := by
  induction h with
  | nil => rfl
  | cons hpair _ ih =>
    obtain ⟨text, _, hkey⟩ := bind_eq_ok hpair
    cases hkey
    rw [List.map_cons, ih]

theorem sortFilters_perm {fs sorted : List Filter} (h : sortFilters fs = .ok sorted) :
    sorted.Perm fs := by
  obtain ⟨keyed, hkeyed, hsorted⟩ := bind_eq_ok h
  cases hsorted
  rw [← map_snd_of_keyed (forall₂_of_mapM hkeyed)]
  exact (List.mergeSort_perm keyed _).map _

theorem canonicalRequest_ok {r c : QueryRequest} (h : canonicalRequest r = .ok c) :
    ∃ filters : List Filter, filters.Perm r.filters ∧
      c = { r with
        measures := sortTexts r.measures
        dimensions := sortTexts r.dimensions
        filters } := by
  obtain ⟨filters, hfilters, h⟩ := bind_eq_ok h
  refine ⟨filters, sortFilters_perm (mapError_eq_ok hfilters), ?_⟩
  split at h
  · cases h
  · exact (Except.ok.inj h).symm

theorem canonicalRequest_of_sorted {r : QueryRequest} {filters : List Filter}
    (hfilters : sortFilters r.filters = .ok filters) (hlimit : r.limit.any (· < 1) = false) :
    canonicalRequest r = .ok { r with
      measures := sortTexts r.measures
      dimensions := sortTexts r.dimensions
      filters } := by
  rw [canonicalRequest, hfilters]
  simp only [hlimit, Bool.false_eq_true, if_false]
  rfl

/-- The canonical document of a request, by its parts. -/
theorem canonicalDocument_ok {r : QueryRequest} {document : Value}
    (h : canonicalDocument r = .ok document) :
    ∃ (filters : List Filter) (forms : List Value), filters.Perm r.filters ∧
      List.Forall₂ (fun f form => f.document.jsonFormIn (maxFreeDepth + 1) = .ok form) filters
        forms ∧
      document = .object
        [("measures", .list ((sortTexts r.measures).map .text)),
         ("dimensions", .list ((sortTexts r.dimensions).map .text)),
         ("filters", .list forms),
         ("limit", .ofOption .int r.limit)] := by
  obtain ⟨c, hc, hform⟩ := bind_eq_ok h
  obtain ⟨filters, hperm, rfl⟩ := canonicalRequest_ok hc
  have hobject := mapError_eq_ok (mapError_eq_ok hform)
  obtain ⟨_, hentries, rfl⟩ := Value.jsonFormIn_object_ok hobject
  obtain ⟨measures, _, hmeasures, hentries₁, rfl⟩ := Value.jsonEntriesIn_cons_ok hentries
  obtain ⟨dimensions, _, hdimensions, hentries₂, rfl⟩ := Value.jsonEntriesIn_cons_ok hentries₁
  obtain ⟨list, _, hlist, hentries₃, rfl⟩ := Value.jsonEntriesIn_cons_ok hentries₂
  obtain ⟨limit, _, hlimit, hentries₄, rfl⟩ := Value.jsonEntriesIn_cons_ok hentries₃
  obtain rfl := Value.jsonEntriesIn_nil_ok hentries₄
  have htexts : ∀ {texts : List String} {form : Value},
      Value.jsonFormIn (maxFreeDepth + 2) (.list (texts.map .text)) = .ok form →
      form = .list (texts.map .text) := by
    intro texts form hform
    obtain ⟨forms, hforms, rfl⟩ := Value.jsonFormIn_list_ok hform
    rw [Value.jsonFormsIn_texts] at hforms
    cases hforms
    rfl
  obtain rfl := htexts hmeasures
  obtain rfl := htexts hdimensions
  obtain ⟨forms, hforms, rfl⟩ := Value.jsonFormIn_list_ok hlist
  have hpairs := List.forall₂_map_left_iff.mp (Value.forall₂_of_jsonFormsIn hforms)
  have hsame : limit = .ofOption .int r.limit := by
    rcases r with ⟨_, _, _, _ | n⟩
    · exact (Except.ok.inj hlimit).symm
    · exact (Except.ok.inj hlimit).symm
  subst hsame
  exact ⟨filters, forms, hperm, hpairs, rfl⟩

theorem requestHash_eq_ok {r : QueryRequest} {key : String} : requestHash r = .ok key ↔
    ∃ text, canonicalText r = .ok text ∧ Digest.sha256Text text = key := by
  have hdigest {document : Value} (hdocument : canonicalDocument r = .ok document) :
      digest document = (canonicalJson document).map Digest.sha256Text := by
    obtain ⟨_, _, _, _, rfl⟩ := canonicalDocument_ok hdocument
    rfl
  constructor
  · intro h
    obtain ⟨document, hdocument, hkey⟩ := bind_eq_ok h
    rw [hdigest hdocument] at hkey
    obtain ⟨text, htext, hkey⟩ := map_eq_ok (mapError_eq_ok hkey)
    exact ⟨text, canonicalText_eq_ok.mpr ⟨document, hdocument, htext⟩, hkey⟩
  · rintro ⟨text, htext, rfl⟩
    obtain ⟨document, hdocument, htext⟩ := canonicalText_eq_ok.mp htext
    rw [requestHash, hdocument]
    change (digest document).mapError Error.broken = _
    rw [hdigest hdocument, htext]
    rfl

theorem filterText_eq_ok {f : Filter} {text : String} :
    filterText f = .ok text ↔
      ∃ form, f.document.jsonFormIn (maxFreeDepth + 1) = .ok form ∧
        canonicalJson form = .ok text := by
  constructor
  · intro h
    obtain ⟨form, hform, htext⟩ := bind_eq_ok h
    exact ⟨form, mapError_eq_ok hform, htext⟩
  · rintro ⟨form, hform, htext⟩
    have hframe : filterFrame + maxFreeDepth = maxFreeDepth + 1 := rfl
    rw [filterText, formOf, Value.jsonForm, hframe, hform]
    exact htext

end Query

open Json Query

/-- Two filters have one canonical text. -/
def Filter.SameText (f g : Filter) : Prop :=
  ∃ text, filterText f = .ok text ∧ filterText g = .ok text

theorem Filter.SameText.symm {f g : Filter} (h : f.SameText g) : g.SameText f := by
  obtain ⟨text, hf, hg⟩ := h
  exact ⟨text, hg, hf⟩

/-- What the canonical text of a filter tells. -/
theorem Filter.SameText.parts {f g : Filter} (h : f.SameText g) :
    writeText f.field = writeText g.field ∧ writeText f.operator = writeText g.operator ∧
      ∃ v w, f.value.jsonFormIn maxFreeDepth = .ok v ∧ g.value.jsonFormIn maxFreeDepth = .ok w ∧
        write v = write w := by
  obtain ⟨text, hf, hg⟩ := h
  obtain ⟨form, hform, htext⟩ := filterText_eq_ok.mp hf
  obtain ⟨form', hform', htext'⟩ := filterText_eq_ok.mp hg
  obtain ⟨v, hv, rfl⟩ := Filter.jsonFormIn_ok hform
  obtain ⟨w, hw, rfl⟩ := Filter.jsonFormIn_ok hform'
  have hvalues := write_object_inj (by simp) (write_eq_of_canonicalJson htext htext')
  simp only [List.forall₂_cons, List.forall₂_nil_left_iff, and_true] at hvalues
  obtain ⟨hfield, hoperator, hvalue⟩ := hvalues
  exact ⟨hfield, hoperator, v, w, hv, hw, hvalue⟩

/-- Two requests have one canonical text, so they differ in order at most. -/
structure QueryRequest.SameText (r r' : QueryRequest) : Prop where
  measures : UpToOrder (fun a b => writeText a = writeText b) r.measures r'.measures
  dimensions : UpToOrder (fun a b => writeText a = writeText b) r.dimensions r'.dimensions
  filters : UpToOrder Filter.SameText r.filters r'.filters
  limit : r.limit = r'.limit

namespace Query

theorem sameText_of_forms {fs gs : List Filter} {forms forms' : List Value}
    (h : List.Forall₂ (fun f form => f.document.jsonFormIn (maxFreeDepth + 1) = .ok form) fs forms)
    (h' : List.Forall₂ (fun g form => g.document.jsonFormIn (maxFreeDepth + 1) = .ok form) gs
      forms') (ht : forms.all Value.hasText = true) (ht' : forms'.all Value.hasText = true)
    (hw : forms.map write = forms'.map write) : List.Forall₂ Filter.SameText fs gs := by
  induction h generalizing gs forms' with
  | nil =>
    cases h' with
    | nil => exact .nil
    | cons _ _ => cases hw
  | cons hf _ ih =>
    cases h' with
    | nil => cases hw
    | cons hg hrest' =>
      rw [List.map_cons, List.map_cons, List.cons.injEq] at hw
      rw [List.all_cons, Bool.and_eq_true] at ht ht'
      have htext := canonicalJson_eq_ok.mpr ⟨ht.1, congrArg String.ofList hw.1⟩
      refine .cons ⟨_, filterText_eq_ok.mpr ⟨_, hf, htext⟩, ?_⟩ (ih hrest' ht.2 ht'.2 hw.2)
      exact filterText_eq_ok.mpr ⟨_, hg, canonicalJson_eq_ok.mpr ⟨ht'.1, rfl⟩⟩

theorem upToOrder_of_sorted {as bs : List String}
    (h : ((sortTexts as).map Value.text).map write = ((sortTexts bs).map Value.text).map write) :
    UpToOrder (fun a b => writeText a = writeText b) as bs := by
  have hpairs :
      List.Forall₂ (fun a b => writeText a = writeText b) (sortTexts as) (sortTexts bs) := by
    rw [List.map_map, List.map_map, ← List.forall₂_eq_eq_eq, List.forall₂_map_left_iff,
      List.forall₂_map_right_iff] at h
    exact h
  exact .of_perm (List.mergeSort_perm as _) (List.mergeSort_perm bs _) hpairs

theorem sameText_of_canonicalText {r r' : QueryRequest} {text : String}
    (h : canonicalText r = .ok text) (h' : canonicalText r' = .ok text) :
    r.SameText r' := by
  obtain ⟨document, hdocument, htext⟩ := canonicalText_eq_ok.mp h
  obtain ⟨document', hdocument', htext'⟩ := canonicalText_eq_ok.mp h'
  obtain ⟨filters, forms, hperm, hforms, rfl⟩ := canonicalDocument_ok hdocument
  obtain ⟨filters', forms', hperm', hforms', rfl⟩ := canonicalDocument_ok hdocument'
  have hvalues := write_object_inj (by simp) (write_eq_of_canonicalJson htext htext')
  simp only [List.forall₂_cons, List.forall₂_nil_left_iff, and_true] at hvalues
  obtain ⟨hmeasures, hdimensions, hfilters, hlimit⟩ := hvalues
  refine ⟨upToOrder_of_sorted (write_list_inj hmeasures),
    upToOrder_of_sorted (write_list_inj hdimensions), .of_perm hperm hperm' ?_,
    write_ofOption_int_inj hlimit⟩
  have hwritable := (canonicalJson_eq_ok.mp htext).1
  have hwritable' := (canonicalJson_eq_ok.mp htext').1
  simp only [Value.hasText_object, List.all_cons, List.all_nil, Bool.and_eq_true,
    Value.hasText_list] at hwritable hwritable'
  exact sameText_of_forms hforms hforms' hwritable.2.2.1 hwritable'.2.2.1
    (write_list_inj hfilters)

end Query

end DatasetCatalog
