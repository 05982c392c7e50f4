import DatasetCatalog.Proofs.Json.Sameness
import DatasetCatalog.Proofs.Query.CanonicalForm

/-!
# Keys of requests

Requests of finite data share a key exactly when they are the same: their limits are equal, and they
differ at most in the order of measures, dimensions and filters and of the keys in their values. They
have keys unless a limit is out of order, a value too deep or a whole number too long.
-/

namespace DatasetCatalog

open Json Number Query

/-- The values of the filters are finite data. -/
def QueryRequest.IsFiniteJson (r : QueryRequest) : Prop := ∀ f ∈ r.filters, f.value.IsFiniteJson

/-- The filters compare the same field in the same way with values that are one in JSON. -/
structure Filter.Same (f g : Filter) : Prop where
  field : f.field = g.field
  operator : f.operator = g.operator
  value : f.value.SameJson g.value

/-- The requests differ in order at most. -/
structure QueryRequest.Same (r r' : QueryRequest) : Prop where
  measures : r.measures.Perm r'.measures
  dimensions : r.dimensions.Perm r'.dimensions
  filters : UpToOrder Filter.Same r.filters r'.filters
  limit : r.limit = r'.limit

namespace Query

section Filters

theorem write_document_eq {f g : Filter} (h : f.Same g) (hf : f.value.IsFiniteJson)
    (hg : g.value.IsFiniteJson) : write f.document = write g.document := by
  have hvalue : write f.value = write g.value := h.value.write_eq hf hg
  have hfields : writeFields f.document.entries = writeFields g.document.entries := by
    simp only [Filter.document, Value.entries, writeFields, h.field, h.operator, hvalue]
  change '\x7b' :: writeEntries (writeFields f.document.entries) ++ ['\x7d'] = _
  rw [hfields]
  rfl

/-- Filters of finite data are the same if they have one canonical text. -/
theorem same_of_sameText {f g : Filter} (h : f.SameText g) (hf : f.value.IsFiniteJson)
    (hg : g.value.IsFiniteJson) : f.Same g := by
  obtain ⟨hfield, hoperator, v, w, hv, hw, hvalues⟩ := h.parts
  rw [hf.isPlain.jsonFormIn_eq_self (Value.nesting_lt_of_jsonFormIn hv)] at hv
  rw [hg.isPlain.jsonFormIn_eq_self (Value.nesting_lt_of_jsonFormIn hw)] at hw
  cases hv
  cases hw
  exact ⟨writeText_inj hfield, writeText_inj hoperator, hf.sameJson hg hvalues⟩

/-- Within a document, the value of a filter stands in the filter. -/
theorem jsonFormIn_document {f : Filter} {room : Nat}
    (h : f.value.jsonFormIn (room + 1) = .ok f.value) :
    f.document.jsonFormIn (room + 2) = .ok f.document := by
  have hentries : Value.jsonEntriesIn (room + 1)
      [("field", .text f.field), ("operator", .text f.operator), ("value", f.value)] =
      .ok [("field", .text f.field), ("operator", .text f.operator), ("value", f.value)] := by
    apply Value.jsonEntriesIn_eq_self
    simp only [List.forall_mem_cons, List.not_mem_nil, false_imp_iff, implies_true, and_true]
    exact ⟨rfl, rfl, h⟩
  rw [Filter.document, Value.jsonFormIn, hentries]
  rfl

/-- The value is neither too deep nor has too long numbers for a filter that has a text. -/
structure IsWritable (f : Filter) : Prop where
  nesting : f.value.nesting < maxFreeDepth
  numbers : f.value.hasText = true

/-- The text by which a filter is sorted. -/
def sortKey (f : Filter) : String := String.ofList (write f.document)

theorem filterText_of_isWritable {f : Filter} (hf : f.value.IsFiniteJson) (h : IsWritable f) :
    filterText f = .ok (sortKey f) := by
  have hform := jsonFormIn_document (hf.isPlain.jsonFormIn_eq_self h.nesting)
  have hdocument : f.document.hasText = true := by
    rw [Filter.document, Value.hasText_object]
    simp only [List.all_cons, List.all_nil, h.numbers]
    rfl
  exact filterText_eq_ok.mpr ⟨f.document, hform, canonicalJson_eq_ok.mpr ⟨hdocument, rfl⟩⟩

theorem isWritable_of_filterText {f : Filter} {text : String} (hf : f.value.IsFiniteJson)
    (h : filterText f = .ok text) : IsWritable f := by
  obtain ⟨form, hform, htext⟩ := filterText_eq_ok.mp h
  obtain ⟨v, hv, rfl⟩ := Filter.jsonFormIn_ok hform
  have hnesting := Value.nesting_lt_of_jsonFormIn hv
  rw [hf.isPlain.jsonFormIn_eq_self hnesting] at hv
  cases hv
  have hnumbers := (canonicalJson_eq_ok.mp htext).1
  simp only [Value.hasText_object, List.all_cons, List.all_nil, Bool.and_eq_true] at hnumbers
  exact ⟨hnesting, hnumbers.2.2.1⟩

end Filters

section Sorting

/-- Texts are sorted alike in whatever order they stand. -/
theorem sortTexts_eq_of_perm {as bs : List String} (h : as.Perm bs) :
    sortTexts as = sortTexts bs := by
  apply List.Perm.eq_of_pairwise (fun _ _ _ _ => String.le_antisymm) (pairwise_mergeSort_key id as)
    (pairwise_mergeSort_key id bs)
  exact (List.mergeSort_perm as _).trans (h.trans (List.mergeSort_perm bs _).symm)

/-- Filters are sorted by their texts. -/
theorem sortFilters_of_isWritable {fs : List Filter} (hfs : ∀ f ∈ fs, f.value.IsFiniteJson)
    (h : ∀ f ∈ fs, IsWritable f) :
    ∃ sorted, sortFilters fs = .ok sorted ∧ sorted.Perm fs ∧
      sorted.map sortKey = sortTexts (fs.map sortKey) := by
  let keyed := fs.map fun f => (sortKey f, f)
  have hkeyed : (fs.mapM fun f => do return (← filterText f, f)) = .ok keyed := by
    induction fs with
    | nil => rfl
    | cons f rest ih =>
      obtain ⟨hf, hrest⟩ := List.forall_mem_cons.mp hfs
      obtain ⟨hwritable, hothers⟩ := List.forall_mem_cons.mp h
      rw [List.mapM_cons, filterText_of_isWritable hf hwritable, ih hrest hothers]
      rfl
  have hsorted : sortFilters fs =
      .ok ((keyed.mergeSort fun a b => decide (a.1 ≤ b.1)).map (·.2)) := by
    rw [sortFilters, hkeyed]
    rfl
  refine ⟨_, hsorted, sortFilters_perm hsorted, ?_⟩
  have htexts : ∀ e ∈ keyed.mergeSort fun a b => decide (a.1 ≤ b.1),
      sortKey e.2 = e.1 := by
    intro e he
    obtain ⟨f, _, rfl⟩ := List.mem_map.mp (List.mem_mergeSort.mp he)
    rfl
  have hfirst : keyed.map (·.1) = fs.map sortKey := by
    rw [List.map_map]
    rfl
  have hsort : (keyed.mergeSort fun a b => decide (a.1 ≤ b.1)).map (·.1) =
      sortTexts (keyed.map (·.1)) := List.map_mergeSort fun _ _ _ _ => rfl
  rw [List.map_map, ← hfirst, ← hsort]
  exact List.map_congr_left htexts

end Sorting

section Requests

/-- What a request has to be for it to have a key. -/
structure Accepted (r : QueryRequest) : Prop where
  limit : ∀ n, r.limit = some n → 1 ≤ n ∧ isWritable n = true
  filters : ∀ f ∈ r.filters, IsWritable f

theorem accepted_iff {r : QueryRequest} : Accepted r ↔
    (∀ n, r.limit = some n → 1 ≤ n ∧ n.natAbs < 10 ^ maxDigits) ∧
      ∀ f ∈ r.filters, f.value.nesting < maxFreeDepth ∧
        ∀ n ∈ f.value.wholeNumbers, n.natAbs < 10 ^ maxDigits := by
  constructor
  · intro h
    exact ⟨fun n hn => ⟨(h.limit n hn).1, isWritable_iff.mp (h.limit n hn).2⟩,
      fun f hf => ⟨(h.filters f hf).nesting, Value.hasText_iff.mp (h.filters f hf).numbers⟩⟩
  · rintro ⟨hlimit, hfilters⟩
    exact ⟨fun n hn => ⟨(hlimit n hn).1, isWritable_iff.mpr (hlimit n hn).2⟩,
      fun f hf => ⟨(hfilters f hf).1, Value.hasText_iff.mpr (hfilters f hf).2⟩⟩

theorem accepted_of_requestHash {r : QueryRequest} {key : String} (hr : r.IsFiniteJson)
    (h : requestHash r = .ok key) : Accepted r := by
  obtain ⟨text, htext, _⟩ := requestHash_eq_ok.mp h
  obtain ⟨document, hdocument, htext⟩ := canonicalText_eq_ok.mp htext
  obtain ⟨c, hc, _⟩ := bind_eq_ok hdocument
  obtain ⟨sorted, hsorted, hlimit⟩ := bind_eq_ok hc
  obtain ⟨keyed, hkeyed, _⟩ := bind_eq_ok (mapError_eq_ok hsorted)
  obtain ⟨_, _, _, _, rfl⟩ := canonicalDocument_ok hdocument
  have hnumbers := (canonicalJson_eq_ok.mp htext).1
  simp only [Value.hasText_object, List.all_cons, List.all_nil, Bool.and_eq_true] at hnumbers
  constructor
  · intro n hn
    constructor
    · by_contra hsmall
      rw [hn, Option.any_some, decide_eq_true (not_le.mp hsmall), if_pos rfl] at hlimit
      cases hlimit
    · rw [hn] at hnumbers
      exact List.all_eq_true.mp hnumbers.2.2.2.1 n (List.mem_singleton_self n)
  · intro f hf
    obtain ⟨e, he⟩ := exists_of_mem_of_mapM hkeyed hf
    obtain ⟨text, htext, _⟩ := bind_eq_ok he
    exact isWritable_of_filterText (hr f hf) htext

theorem jsonFormIn_texts (room : Nat) (texts : List String) :
    Value.jsonFormIn (room + 2) (.list (texts.map .text)) = .ok (.list (texts.map .text)) := by
  rw [Value.jsonFormIn, Value.jsonFormsIn_texts]
  rfl

theorem jsonFormIn_filters {fs : List Filter} (hfs : ∀ f ∈ fs, f.value.IsFiniteJson)
    (h : ∀ f ∈ fs, IsWritable f) :
    Value.jsonFormIn (maxFreeDepth + 2) (.list (fs.map Filter.document)) =
      .ok (.list (fs.map Filter.document)) := by
  have hforms : Value.jsonFormsIn (maxFreeDepth + 1) (fs.map Filter.document) =
      .ok (fs.map Filter.document) := by
    apply Value.jsonFormsIn_eq_self
    intro v hv
    obtain ⟨f, hf, rfl⟩ := List.mem_map.mp hv
    exact jsonFormIn_document ((hfs f hf).isPlain.jsonFormIn_eq_self (h f hf).nesting)
  rw [Value.jsonFormIn, hforms]
  rfl

/-- The request with its parts in the order of their texts, filters apart. -/
def arranged (r : QueryRequest) (filters : List Filter) : QueryRequest :=
  { r with measures := sortTexts r.measures, dimensions := sortTexts r.dimensions, filters }

/-- A request that is accepted is named by the text of its arranged parts. -/
theorem canonicalDocument_of_accepted {r : QueryRequest} (hr : r.IsFiniteJson) (h : Accepted r) :
    ∃ filters : List Filter,
      filters.Perm r.filters ∧ filters.map sortKey = sortTexts (r.filters.map sortKey) ∧
      canonicalDocument r = .ok (arranged r filters).document := by
  obtain ⟨filters, hsorted, hperm, htexts⟩ := sortFilters_of_isWritable hr h.filters
  refine ⟨filters, hperm, htexts, ?_⟩
  have hlimit : r.limit.any (· < 1) = false := by
    rw [Option.any_eq_false]
    intro n hn
    exact decide_eq_false (not_lt.mpr (h.limit n hn).1)
  have hfilters := jsonFormIn_filters (fun f hf => hr f (hperm.mem_iff.mp hf))
    (fun f hf => h.filters f (hperm.mem_iff.mp hf))
  have hnumber : Value.jsonFormIn (maxFreeDepth + 2) (.ofOption .int r.limit) =
      .ok (.ofOption .int r.limit) := by
    cases r.limit <;> rfl
  have hentries : Value.jsonEntriesIn (maxFreeDepth + 2) (arranged r filters).document.entries =
      .ok (arranged r filters).document.entries := by
    apply Value.jsonEntriesIn_eq_self
    simp only [QueryRequest.document, Value.entries, arranged, List.forall_mem_cons,
      List.not_mem_nil, false_imp_iff, implies_true, and_true]
    exact ⟨jsonFormIn_texts _ _, jsonFormIn_texts _ _, hfilters, hnumber⟩
  have hform : (arranged r filters).document.jsonForm requestFrame =
      .ok (arranged r filters).document := by
    have hroom : requestFrame + maxFreeDepth = maxFreeDepth + 2 + 1 := rfl
    rw [Value.jsonForm, hroom]
    exact congrArg (Except.map Value.object) hentries
  rw [canonicalDocument, canonicalRequest_of_sorted hsorted hlimit]
  change (formOf requestFrame (arranged r filters).document).mapError Error.broken = _
  rw [formOf, hform]
  rfl

theorem hasText_texts (texts : List String) : (Value.list (texts.map .text)).hasText = true := by
  rw [Value.hasText_list, List.all_map]
  exact List.all_eq_true.mpr fun _ _ => rfl

/-- What is in order can be written. -/
theorem hasText_arranged {r : QueryRequest} (h : Accepted r) {fs : List Filter}
    (hfs : fs.Perm r.filters) : (arranged r fs).document.hasText = true := by
  have hfilters : (Value.list (fs.map Filter.document)).hasText = true := by
    rw [Value.hasText_list, List.all_map, List.all_eq_true]
    intro f hf
    have hnumbers := (h.filters f (hfs.mem_iff.mp hf)).numbers
    rw [Function.comp_apply, Filter.document, Value.hasText_object]
    simp only [List.all_cons, List.all_nil, hnumbers]
    rfl
  have hlimit : (Value.ofOption .int r.limit).hasText = true := by
    cases hn : r.limit with
    | none => rfl
    | some n => exact List.all_eq_true.mpr fun k hk => List.mem_singleton.mp hk ▸ (h.limit n hn).2
  rw [QueryRequest.document, arranged, Value.hasText_object]
  simp only [List.all_cons, List.all_nil, hasText_texts, hfilters, hlimit, Bool.and_self]

theorem write_arranged {r r' : QueryRequest} {fs gs : List Filter}
    (hmeasures : r.measures.Perm r'.measures) (hdimensions : r.dimensions.Perm r'.dimensions)
    (hfilters : fs.map sortKey = gs.map sortKey) (hlimit : r.limit = r'.limit) :
    write (arranged r fs).document = write (arranged r' gs).document := by
  have hitems : writeItems (fs.map Filter.document) = writeItems (gs.map Filter.document) := by
    rw [writeItems_eq_map, writeItems_eq_map, List.map_map, List.map_map]
    apply List.map_injective_iff.mpr fun _ _ => String.ofList_injective
    rw [List.map_map, List.map_map]
    exact hfilters
  have hfields : writeFields (arranged r fs).document.entries =
      writeFields (arranged r' gs).document.entries := by
    simp only [QueryRequest.document, Value.entries, arranged, writeFields, write, hitems, hlimit,
      sortTexts_eq_of_perm hmeasures, sortTexts_eq_of_perm hdimensions]
  change '\x7b' :: writeEntries (writeFields (arranged r fs).document.entries) ++ ['\x7d'] = _
  rw [hfields]
  rfl

/-- A request that is accepted has the text of its arranged parts. -/
theorem canonicalText_of_accepted {r : QueryRequest} (hr : r.IsFiniteJson) (h : Accepted r) :
    ∃ filters : List Filter, filters.map sortKey = sortTexts (r.filters.map sortKey) ∧
      canonicalText r = .ok (String.ofList (write (arranged r filters).document)) := by
  obtain ⟨filters, hperm, htexts, hdocument⟩ := canonicalDocument_of_accepted hr h
  refine ⟨filters, htexts, canonicalText_eq_ok.mpr ⟨_, hdocument, ?_⟩⟩
  exact canonicalJson_eq_ok.mpr ⟨hasText_arranged h hperm, rfl⟩

theorem exists_requestHash_iff {r : QueryRequest} (hr : r.IsFiniteJson) :
    (∃ key, requestHash r = .ok key) ↔ Accepted r := by
  constructor
  · rintro ⟨key, hkey⟩
    exact accepted_of_requestHash hr hkey
  · intro h
    obtain ⟨filters, _, htext⟩ := canonicalText_of_accepted hr h
    exact ⟨_, requestHash_eq_ok.mpr ⟨_, htext, rfl⟩⟩

/-- The same requests have one canonical text. -/
theorem canonicalText_eq_of_same {r r' : QueryRequest} (hr : r.IsFiniteJson)
    (hr' : r'.IsFiniteJson) (h : Accepted r) (h' : Accepted r') (hsame : r.Same r') :
    canonicalText r = canonicalText r' := by
  obtain ⟨fs, hfs, htext⟩ := canonicalText_of_accepted hr h
  obtain ⟨gs, hgs, htext'⟩ := canonicalText_of_accepted hr' h'
  have hperm : (r.filters.map sortKey).Perm (r'.filters.map sortKey) := by
    obtain ⟨cs, hpairs, hcs⟩ := hsame.filters
    have hmap : r.filters.map sortKey = cs.map sortKey := by
      refine map_eq_map_iff_zip.mpr ⟨hpairs.length_eq, fun {f g} hfg => ?_⟩
      obtain ⟨hf, hg⟩ := List.of_mem_zip hfg
      exact congrArg String.ofList (write_document_eq ((List.forall₂_iff_zip.mp hpairs).2 hfg)
        (hr f hf) (hr' g (hcs.mem_iff.mp hg)))
    rw [hmap]
    exact hcs.map _
  have hwritten := write_arranged hsame.measures hsame.dimensions
    (hfs.trans ((sortTexts_eq_of_perm hperm).trans hgs.symm)) hsame.limit
  rw [htext, htext', hwritten]

theorem same_of_canonicalText {r r' : QueryRequest} {text : String} (hr : r.IsFiniteJson)
    (hr' : r'.IsFiniteJson) (h : canonicalText r = .ok text) (h' : canonicalText r' = .ok text) :
    r.Same r' := by
  obtain ⟨hmeasures, hdimensions, hfilters, hlimit⟩ := sameText_of_canonicalText h h'
  refine ⟨?_, ?_, ?_, hlimit⟩
  · exact hmeasures.perm fun _ _ _ _ => writeText_inj
  · exact hdimensions.perm fun _ _ _ _ => writeText_inj
  · obtain ⟨cs, hpairs, hcs⟩ := hfilters
    refine ⟨cs, List.forall₂_iff_zip.mpr ⟨hpairs.length_eq, fun {f g} hfg => ?_⟩, hcs⟩
    obtain ⟨hf, hg⟩ := List.of_mem_zip hfg
    exact same_of_sameText ((List.forall₂_iff_zip.mp hpairs).2 hfg) (hr f hf)
      (hr' g (hcs.mem_iff.mp hg))

/-- Requests of finite data have keys if their limits are in order, no value is too deep and no whole
number too long, and share one exactly when they are the same. -/
theorem requestHash_eq_iff_same {r r' : QueryRequest} (hr : r.IsFiniteJson) (hr' : r'.IsFiniteJson)
    (hdigest : ∀ text text', canonicalText r = .ok text → canonicalText r' = .ok text' →
      Digest.sha256Text text = Digest.sha256Text text' → text = text') :
    ((∃ key, requestHash r = .ok key) ↔
      (∀ n, r.limit = some n → 1 ≤ n ∧ n.natAbs < 10 ^ maxDigits) ∧
      ∀ f ∈ r.filters, f.value.nesting < maxFreeDepth ∧
        ∀ n ∈ f.value.wholeNumbers, n.natAbs < 10 ^ maxDigits) ∧
    ∀ key key', requestHash r = .ok key → requestHash r' = .ok key' →
      (key = key' ↔ r.Same r') := by
  refine ⟨(exists_requestHash_iff hr).trans accepted_iff, fun key key' hkey hkey' => ?_⟩
  obtain ⟨text, htext, rfl⟩ := requestHash_eq_ok.mp hkey
  obtain ⟨text', htext', rfl⟩ := requestHash_eq_ok.mp hkey'
  constructor
  · intro hdigests
    obtain rfl := hdigest text text' htext htext' hdigests
    exact same_of_canonicalText hr hr' htext htext'
  · intro hsame
    have htexts := canonicalText_eq_of_same hr hr' (accepted_of_requestHash hr hkey)
      (accepted_of_requestHash hr' hkey') hsame
    rw [Except.ok.inj (htext.symm.trans (htexts.trans htext'))]

theorem requestHash_eq_of_rearranged_request :
    let year : Filter := ⟨"year", "in", .list [.int 2023, .float 2024]⟩
    let price (bounds : List (String × Value)) : Filter := ⟨"price", "between", .object bounds⟩
    let r : QueryRequest :=
      { measures := ["revenue", "cost"]
        filters := [year, price [("low", .int 1), ("high", .null)]]
        limit := some 5 }
    let r' : QueryRequest :=
      { measures := ["cost", "revenue"]
        filters := [price [("high", .null), ("low", .int 1)], year]
        limit := some 5 }
    ∃ key, requestHash r = .ok key ∧ requestHash r' = .ok key := by
  intro year price r r'
  have hyear : year.value.IsFiniteJson := by
    refine .list ?_
    simp only [List.forall_mem_cons, List.not_mem_nil, false_imp_iff, implies_true, and_true]
    exact ⟨.int 2023, .float rfl⟩
  have hprice (bounds : List (String × Value)) (hkeys : (bounds.map Prod.fst).Nodup)
      (hbounds : ∀ e ∈ bounds, e = ("low", .int 1) ∨ e = ("high", .null)) :
      (price bounds).value.IsFiniteJson := by
    refine .object hkeys fun e he => ?_
    rcases hbounds e he with rfl | rfl
    · exact .int 1
    · exact .null
  have hr : r.IsFiniteJson := by
    simp only [QueryRequest.IsFiniteJson, r, List.forall_mem_cons, List.not_mem_nil,
      false_imp_iff, implies_true, and_true]
    exact ⟨hyear, hprice _ (by decide) (by simp)⟩
  have hmeasures : r.measures.Perm r'.measures := .swap "cost" "revenue" []
  have hr' : r'.IsFiniteJson := by
    simp only [QueryRequest.IsFiniteJson, r', List.forall_mem_cons, List.not_mem_nil,
      false_imp_iff, implies_true, and_true]
    exact ⟨hprice _ (by decide) (by simp), hyear⟩
  have hyears : year.Same year := by
    refine ⟨rfl, rfl, .list rfl ?_⟩
    simp only [List.zip_cons_cons, List.zip_nil_left, List.forall_mem_cons, List.not_mem_nil,
      false_imp_iff, implies_true, and_true]
    exact ⟨.int 2023, .float 2024⟩
  have hprices : (price [("low", .int 1), ("high", .null)]).Same
      (price [("high", .null), ("low", .int 1)]) := by
    refine ⟨rfl, rfl, .object (.swap "high" "low" []) ?_⟩
    simp only [List.forall_mem_cons, List.not_mem_nil, false_imp_iff, implies_true, and_true]
    exact ⟨⟨nofun, fun _ => .int 1⟩, fun _ => .null, nofun⟩
  have hsame : r.Same r' :=
    ⟨hmeasures, .refl _, ⟨_, .cons hyears (.cons hprices .nil), .swap _ _ []⟩, rfl⟩
  have haccepted (q : QueryRequest) (hlimit : q.limit = some 5)
      (hfilters : (q.filters.all fun f => decide (f.value.nesting ≤ 1) && f.value.hasText) = true) :
      Accepted q := by
    constructor
    · intro n hn
      obtain rfl := Option.some.inj (hlimit.symm.trans hn)
      decide
    · intro f hf
      have hf := List.all_eq_true.mp hfilters f hf
      rw [Bool.and_eq_true, decide_eq_true_eq] at hf
      exact ⟨Nat.lt_of_le_of_lt hf.1 (by decide), hf.2⟩
  have ha : Accepted r := haccepted r rfl (by decide +kernel)
  have ha' : Accepted r' := haccepted r' rfl (by decide +kernel)
  have htexts := canonicalText_eq_of_same hr hr' ha ha' hsame
  obtain ⟨hkey, hkeys⟩ := requestHash_eq_iff_same hr hr' fun _ _ ht ht' _ =>
    Except.ok.inj (ht.symm.trans (htexts.trans ht'))
  obtain ⟨key, hr₁⟩ := hkey.mpr (accepted_iff.mp ha)
  obtain ⟨key', hr₂⟩ := (exists_requestHash_iff hr').mpr ha'
  refine ⟨key, hr₁, ?_⟩
  rw [(hkeys key key' hr₁ hr₂).mpr hsame]
  exact hr₂

end Requests

end Query

end DatasetCatalog
