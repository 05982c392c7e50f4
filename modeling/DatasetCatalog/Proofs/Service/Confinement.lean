import DatasetCatalog.Proofs.Service.Evaluation
import DatasetCatalog.Service.Analysis
import DatasetCatalog.Service.Reading

/-!
# What a run does to the world

What a run leaves of the world it starts in, put together from what its steps leave. Much of what
the service does reads its state and changes at most its surroundings: it loads datasets, follows
views, and has statements run by a host that is confined to the surroundings.
-/

namespace DatasetCatalog.Service

variable {ε α β : Type}

/-- A relation of worlds that holds along a run if it holds along each step. -/
class World.Sequential (R : World ε → World ε → Prop) : Prop where
  refl : ∀ w, R w w
  trans : ∀ {w w' w''}, R w w' → R w' w'' → R w w''

/-- Whether a run fails or not, the relation holds between the worlds before and after it. -/
def Run.Within (R : World ε → World ε → Prop) (x : Run ε α) : Prop := ∀ w, R w (x w).2

namespace Run.Within
variable {R S : World ε → World ε → Prop}

theorem mono {x : Run ε α} (hx : x.Within R) (h : ∀ {w w'}, R w w' → S w w') : x.Within S :=
  fun w => h (hx w)

variable [World.Sequential R]

theorem pure (a : α) : Within R (Pure.pure a : Run ε α) := World.Sequential.refl

theorem throw (e : Error) : Within R (MonadExcept.throw e : Run ε α) := World.Sequential.refl

theorem ofExcept (a : Except Error α) : Within R (Run.ofExcept a : Run ε α) :=
  World.Sequential.refl

theorem get : Within R (get : Run ε (World ε)) := World.Sequential.refl

omit [World.Sequential R] in
theorem modify {f : World ε → World ε} (hf : ∀ w, R w (f w)) :
    Within R (modify f : Run ε Unit) := hf

theorem bind {x : Run ε α} {f : α → Run ε β} (hx : x.Within R) (hf : ∀ a, (f a).Within R) :
    (x >>= f).Within R := by
  intro w
  have hw := hx w
  rw [bind_apply]
  rcases hxw : x w with ⟨_ | a, w'⟩
  · rw [hxw] at hw
    exact hw
  · rw [hxw] at hw
    exact World.Sequential.trans hw (hf a w')

theorem map {x : Run ε α} (hx : x.Within R) (f : α → β) : (f <$> x).Within R :=
  bind hx fun a => pure (f a)

/-- What follows a check may rely on it. -/
theorem afterExcept {a : Except Error α} {f : α → Run ε β}
    (hf : ∀ b, a = .ok b → (f b).Within R) : (Run.ofExcept a >>= f).Within R := by
  cases a with
  | error e => exact throw e
  | ok b => exact hf b rfl

/-- A check that may fail comes before the rest. -/
theorem refuseIf {c : Prop} [Decidable c] {e : Error} {next : PUnit → Run ε α}
    (h : ∀ u, (next u).Within R) :
    Within R (if c then MonadExcept.throw e >>= next else next ⟨⟩) := by
  split
  · exact bind (throw e) h
  · exact h ⟨⟩

/-- A step that is only taken under a condition comes before the rest. -/
theorem whenFirst {c : Prop} {_ : Decidable c} {x : Run ε Unit} {next : Unit → Run ε α}
    (hx : x.Within R) (hnext : ∀ u, (next u).Within R) :
    Within R (if c then x >>= next else next ()) := by
  split
  · exact bind hx hnext
  · exact hnext ()

theorem when {c : Prop} {_ : Decidable c} {x : Run ε Unit} (hx : x.Within R) :
    Within R (if c then x else Pure.pure ()) := by
  split
  · exact hx
  · exact pure ()

theorem clampLimit (limit : Int) : Within R (clampLimit limit : Run ε Int) :=
  refuseIf fun _ => bind get fun _ => pure _

theorem timeoutOr (timeoutMs : Option Int) : Within R (timeoutOr timeoutMs : Run ε Int) :=
  bind get fun _ => pure _

omit [World.Sequential R] in
theorem attempt {x : Run ε α} (hx : x.Within R) : x.attempt.Within R := hx

theorem load (id : String) : (Service.load id : Run ε Dataset).Within R := by
  intro w
  rw [load_apply]
  exact World.Sequential.refl w

section Following
variable {resolve : String → Run ε Dataset} (hresolve : ∀ id, (resolve id).Within R)
include hresolve

/-- Following the views of a dataset does what looking datasets up does. -/
theorem compileSource (fuel : Nat) (seen : List String) (d : Dataset) :
    Within R (Query.compileSource (some resolve) fuel seen d : Run ε Query.Source) := by
  induction fuel generalizing seen d with
  | zero => exact throw _
  | succ fuel ih =>
    unfold Query.compileSource
    split
    · exact refuseIf fun _ => ofExcept _
    · exact refuseIf fun _ => pure _
    · refine refuseIf fun _ => bind (hresolve _) fun base => ?_
      exact bind (ih _ base) fun source => ofExcept _
    · exact refuseIf fun _ => throw _

theorem compilePreview (fuel : Nat) (d : Dataset) (limit : Int) : Within R
    (Query.compilePreview (some resolve) fuel d limit : Run ε Query.Statement) :=
  bind (compileSource hresolve fuel [] d) fun _ => pure _

theorem compileQuery (fuel : Nat) (r : QueryRequest) (d : Dataset) : Within R
    (Query.compileQuery (some resolve) fuel r d : Run ε Query.Statement) := by
  refine bind (ofExcept _) fun columns => ?_
  refine bind (compileSource hresolve fuel [] d) fun source => ?_
  exact bind (ofExcept _) fun conditions => pure _

theorem datasourceAlong (start : String) (fuel : Nat) (seen : List String) (d : Dataset) :
    (datasourceAlong resolve start fuel seen d).Within R := by
  induction fuel generalizing seen d with
  | zero => exact throw _
  | succ fuel ih =>
    unfold Service.datasourceAlong
    split
    · refine refuseIf fun _ => bind get fun w => bind (ofExcept _) ?_
      rintro (_ | source)
      · exact throw _
      · exact pure source
    · refine refuseIf fun _ => ?_
      split
      · exact bind (hresolve _) fun base => ih _ base
      · exact throw _

omit hresolve in
theorem chainBound : (chainBound : Run ε Nat).Within R := bind get fun _ => pure _

theorem datasourceFor (d : Dataset) : (datasourceFor resolve d).Within R :=
  bind chainBound fun bound => datasourceAlong hresolve d.id bound [] d

end Following

theorem checkSource (hget : ∀ userId id, (getDataset userId id : Run ε Dataset).Within R)
    (ownerId readerId : String) (datasourceId : Option String) (view : Option ViewConfig) :
    (checkSource ownerId readerId datasourceId view : Run ε Unit).Within R := by
  have hbase (c : ViewConfig) :
      Within R (getDataset readerId c.baseDatasetId >>= fun _ => Pure.pure () : Run ε Unit) :=
    bind (hget _ _) fun _ => pure _
  unfold Service.checkSource
  cases datasourceId with
  | none =>
    cases view with
    | none => exact pure _
    | some c => exact hbase c
  | some id =>
    refine bind get fun w => bind (ofExcept _) fun source => refuseIf fun _ => ?_
    cases view with
    | none => exact pure _
    | some c => exact hbase c

theorem checkNameFree (ownerId name : String) :
    (checkNameFree ownerId name : Run ε Unit).Within R := by
  refine bind get fun w => bind (ofExcept _) fun n => ?_
  split
  · exact throw _
  · exact pure _

theorem sample {h : Host ε}
    (hexecute : ∀ source statement timeoutMs, (h.execute source statement timeoutMs).Within R)
    (d : Dataset) : (Service.sample h d).Within R := by
  refine bind get fun w => bind chainBound fun bound => ?_
  refine bind (compilePreview load bound d _) fun statement => ?_
  exact bind (datasourceFor load d) fun source => hexecute source statement _

section Caching
variable (hcache : ∀ w cache, R w { w with cache })
include hcache

/-- Where the cache does not matter, a call through it does what its computation does. -/
theorem cached {compute : Run ε Cached} (hcompute : compute.Within R) (key : String) (ttl : Float)
    (tags : List String) : (Service.cached key ttl tags compute).Within R := by
  intro w
  rw [cached_apply]
  rcases w.cache.begin w.clock key (some ttl) tags with ⟨v | ticket | lead, cache⟩
  · exact hcache w cache
  · exact hcache w cache
  · have hdone := World.Sequential.trans (hcache w cache) (hcompute { w with cache })
    rcases hrun : compute { w with cache } with ⟨e | v, w'⟩
    · simp only [hrun] at hdone ⊢
      exact World.Sequential.trans hdone (hcache w' _)
    · simp only [hrun] at hdone ⊢
      exact World.Sequential.trans hdone (hcache w' _)

theorem getDataset (userId id : String) : (Service.getDataset userId id : Run ε Dataset).Within R := by
  refine bind get fun w => bind ?_ fun found => ?_
  · exact cached hcache (bind (load id) fun d => pure _) _ _ _
  · cases found with
    | dataset d => exact bind (ofExcept _) fun _ => pure _
    | preview r => exact throw _
    | query r => exact throw _

end Caching

end Run.Within

/-- At most the surroundings have changed. -/
def World.Keeps (w w' : World ε) : Prop := ∃ e, w' = { w with surroundings := e }

theorem World.Keeps.refl (w : World ε) : w.Keeps w := ⟨w.surroundings, rfl⟩

theorem World.Keeps.trans {w w' w'' : World ε} (h : w.Keeps w') (h' : w'.Keeps w'') :
    w.Keeps w'' := by
  obtain ⟨e, rfl⟩ := h
  obtain ⟨e', rfl⟩ := h'
  exact ⟨e', rfl⟩

instance : World.Sequential (World.Keeps (ε := ε)) := ⟨World.Keeps.refl, World.Keeps.trans⟩

/-- Nothing but the cache has changed. -/
def World.OnlyCaches (w w' : World ε) : Prop := ∃ cache, w' = { w with cache }

theorem World.OnlyCaches.trans {w w' w'' : World ε} (h : w.OnlyCaches w')
    (h' : w'.OnlyCaches w'') : w.OnlyCaches w'' := by
  obtain ⟨cache, rfl⟩ := h
  obtain ⟨cache', rfl⟩ := h'
  exact ⟨cache', rfl⟩

instance : World.Sequential (World.OnlyCaches (ε := ε)) :=
  ⟨fun w => ⟨w.cache, rfl⟩, World.OnlyCaches.trans⟩

theorem getDataset_onlyCaches (userId id : String) :
    (getDataset userId id : Run ε Dataset).Within World.OnlyCaches :=
  .getDataset (fun _ cache => ⟨cache, rfl⟩) userId id

def Run.Confined (x : Run ε α) : Prop := x.Within World.Keeps

structure Host.Confined (h : Host ε) : Prop where
  execute : ∀ source statement timeoutMs, (h.execute source statement timeoutMs).Confined
  beforeUpdate : ∀ id, (h.beforeUpdate id).Confined

theorem load_confined (id : String) : (load id : Run ε Dataset).Confined := .load id

theorem sample_confined {h : Host ε} (hh : h.Confined) (d : Dataset) : (sample h d).Confined :=
  .sample hh.execute d

end DatasetCatalog.Service
