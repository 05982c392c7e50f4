import DatasetCatalog.Governance.Permissions
import DatasetCatalog.Store.Query

/-!
# Roles and who has them

The role of a user on a dataset is the greatest one that they have, as its creator or by an entry of
theirs. So neither the order of the entries nor their number matters, and an entry more takes
nothing from anybody. Those who may view a dataset are those to whom it is listed.
-/

namespace DatasetCatalog

theorem Role.eq_of_level_eq {a b : Role} (h : a.level = b.level) : a = b := by
  cases a <;> cases b <;> first | rfl | cases h

theorem Role.level_le_owner (r : Role) : r.level ≤ Role.owner.level := by
  cases r <;> decide

theorem Role.viewer_level_le (r : Role) : Role.viewer.level ≤ r.level := by
  cases r <;> decide

/-- A role in the place of the best one so far, unless that is higher. -/
def Role.orHigher (role : Role) : Option Role → Role
  | none => role
  | some r => r.higher role

/-- The highest of the roles that are held, or none if no role is held. -/
def Role.IsHighest (held : Role → Prop) : Option Role → Prop
  | none => ∀ r, ¬held r
  | some r => held r ∧ ∀ r', held r' → r'.level ≤ r.level

namespace Role.IsHighest
variable {held held' : Role → Prop} {best best' : Option Role}

theorem unique (h : IsHighest held best) (h' : IsHighest held best') : best = best' := by
  cases best with
  | none =>
    cases best' with
    | none => rfl
    | some r' => exact absurd h'.1 (h r')
  | some r =>
    cases best' with
    | none => exact absurd h.1 (h' r)
    | some r' =>
      have hle := h.2 r' h'.1
      have hge := h'.2 r h.1
      exact congrArg some (eq_of_level_eq (Nat.le_antisymm hge hle))

theorem congr (hsame : ∀ r, held r ↔ held' r) (h : IsHighest held best) :
    IsHighest held' best := by
  obtain rfl : held = held' := funext fun r => propext (hsame r)
  exact h

/-- A role is reached by the highest one if it is reached at all. -/
theorem any_iff (h : IsHighest held best) (required : Role) :
    (best.any fun r => required.level ≤ r.level) = true ↔
      ∃ r, held r ∧ required.level ≤ r.level := by
  cases best with
  | none =>
    constructor
    · intro hany
      cases hany
    · intro hex
      obtain ⟨r, hr, _⟩ := hex
      exact absurd hr (h r)
  | some top =>
    rw [Option.any_some, decide_eq_true_iff]
    constructor
    · intro hle
      exact ⟨top, h.1, hle⟩
    · intro hex
      obtain ⟨r, hr, hle⟩ := hex
      exact Nat.le_trans hle (h.2 r hr)

/-- No role that is held is higher than the highest. -/
theorem exists_ge (h : IsHighest held best) {role : Role} (hrole : held role) :
    ∃ top, best = some top ∧ role.level ≤ top.level := by
  cases best with
  | none => exact absurd hrole (h role)
  | some top => exact ⟨top, rfl, h.2 role hrole⟩

/-- One role more takes the place of the highest only where it is higher. -/
theorem insert (h : IsHighest held best) (role : Role) :
    IsHighest (fun r => held r ∨ r = role) (some (role.orHigher best)) := by
  cases best with
  | none =>
    refine ⟨.inr rfl, ?_⟩
    intro r hr
    rcases hr with hr | rfl
    · exact absurd hr (h r)
    · exact Nat.le_refl _
  | some top =>
    obtain ⟨htop, hmax⟩ := h
    simp only [orHigher, higher]
    split
    · rename_i hlt
      refine ⟨.inr rfl, ?_⟩
      intro r hr
      rcases hr with hr | rfl
      · exact Nat.le_trans (hmax r hr) (Nat.le_of_lt hlt)
      · exact Nat.le_refl _
    · rename_i hge
      refine ⟨.inl htop, ?_⟩
      intro r hr
      rcases hr with hr | rfl
      · exact hmax r hr
      · exact Nat.le_of_not_lt hge

end Role.IsHighest

/-- The fold that looks for the highest role, begun with the highest of some roles. -/
theorem isHighest_foldl (permissions : List Permission) {held : Role → Prop} {best : Option Role}
    (h : Role.IsHighest held best) :
    Role.IsHighest (fun r => held r ∨ ∃ p ∈ permissions, p.role = r)
      (permissions.foldl (fun best p => some (p.role.orHigher best)) best) := by
  induction permissions generalizing held best with
  | nil => exact h.congr fun r => by simp
  | cons p rest ih =>
    apply (ih (h.insert p.role)).congr
    intro r
    simp only [List.mem_cons, or_and_right, exists_or, exists_eq_left, or_assoc, eq_comm (a := r)]

/-- The roles that a user has on a dataset: the creator every one, and all users those of their
entries. -/
def Dataset.Grants (d : Dataset) (userId : String) (role : Role) : Prop :=
  d.userId = userId ∨ ∃ p ∈ d.permissions, p.userId = userId ∧ p.role = role

theorem isHighest_grantedRole (permissions : List Permission) (userId : String) :
    Role.IsHighest (fun r => ∃ p ∈ permissions, p.userId = userId ∧ p.role = r)
      (grantedRole permissions userId) := by
  have hnone : Role.IsHighest (fun _ => False) none := fun _ => id
  apply (isHighest_foldl (permissions.filter (·.userId == userId)) hnone).congr
  intro r
  simp only [false_or, List.mem_filter, beq_iff_eq, and_assoc]

theorem Dataset.isHighest_roleOf (d : Dataset) (userId : String) :
    Role.IsHighest (d.Grants userId) (d.roleOf userId) := by
  unfold Dataset.roleOf
  split
  · rename_i hcreator
    exact ⟨.inl (beq_iff_eq.mp hcreator), fun r _ => r.level_le_owner⟩
  · rename_i hother
    apply (isHighest_grantedRole d.permissions userId).congr
    intro r
    have hne : d.userId ≠ userId := fun h => hother (beq_iff_eq.mpr h)
    exact ⟨.inr, fun h => h.resolve_left hne⟩

/-- Who may do something is the creator, or has an entry with a role that is enough. -/
theorem Dataset.permits_iff (d : Dataset) (userId : String) (required : Role) :
    d.permits userId required = true ↔ d.userId = userId ∨
      ∃ p ∈ d.permissions, p.userId = userId ∧ required.level ≤ p.role.level := by
  rw [Dataset.permits, (d.isHighest_roleOf userId).any_iff]
  constructor
  · intro h
    obtain ⟨r, hgrants, hle⟩ := h
    rcases hgrants with hcreator | ⟨p, hp, huser, rfl⟩
    · exact .inl hcreator
    · exact .inr ⟨p, hp, huser, hle⟩
  · intro h
    rcases h with hcreator | ⟨p, hp, huser, hle⟩
    · exact ⟨.owner, .inl hcreator, required.level_le_owner⟩
    · exact ⟨p.role, .inr ⟨p, hp, huser, rfl⟩, hle⟩

theorem Dataset.require_eq_ok_iff {d : Dataset} {userId : String} {required : Role} :
    d.require userId required = .ok () ↔ d.permits userId required = true := by
  unfold Dataset.require
  split
  · rename_i h
    exact iff_of_true rfl h
  · rename_i h
    exact iff_of_false nofun h

/-- Datasets with the same creator and the same entries, in whatever order and number, give each
user the same role. -/
theorem Dataset.roleOf_congr {d d' : Dataset} (hcreator : d'.userId = d.userId)
    (hentries : ∀ p, p ∈ d'.permissions ↔ p ∈ d.permissions) (userId : String) :
    d'.roleOf userId = d.roleOf userId := by
  apply (d'.isHighest_roleOf userId).unique
  apply (d.isHighest_roleOf userId).congr
  intro r
  simp only [Dataset.Grants, hcreator, hentries]

theorem Store.accepts_accessibleTo {d : Dataset} {userId : String} :
    DatasetQuery.accepts { accessibleTo := some userId } d = Store.accessible d userId := by
  simp [DatasetQuery.accepts, constrains]

theorem Store.accessible_iff {d : Dataset} {userId : String} :
    Store.accessible d userId = true ↔
      d.userId = userId ∨ ∃ p ∈ d.permissions, p.userId = userId := by
  simp only [Store.accessible, Bool.or_eq_true, beq_iff_eq, List.any_eq_true]

/-- A user's role is the greatest that they have as creator or by an entry, so it reaches what is
required if one of these does. Neither order nor repetition of the entries changes it, and one entry
more lowers it for nobody. The datasets listed to a user are those that the user may view. -/
theorem Dataset.role_is_greatest_granted (d : Dataset) (userId : String) :
    (∀ required, d.permits userId required = true ↔ d.userId = userId ∨
      ∃ p ∈ d.permissions, p.userId = userId ∧ required.level ≤ p.role.level) ∧
    Role.IsHighest (d.Grants userId) (d.roleOf userId) ∧
    (∀ permissions, (∀ p, p ∈ permissions ↔ p ∈ d.permissions) →
      Dataset.roleOf { d with permissions } userId = d.roleOf userId) ∧
    (∀ before after entry, d.permissions = before ++ after → ∀ role, d.roleOf userId = some role →
      ∃ role', Dataset.roleOf { d with permissions := before ++ entry :: after } userId = some role' ∧
        role.level ≤ role'.level) ∧
    (Store.DatasetQuery.accepts { accessibleTo := some userId } d = true ↔
      d.require userId .viewer = .ok ()) := by
  refine ⟨d.permits_iff userId, d.isHighest_roleOf userId, ?_, ?_, ?_⟩
  · intro permissions hsame
    apply Dataset.roleOf_congr
    · rfl
    · exact hsame
  · intro before after entry hentries role hrole
    have hgrants : d.Grants userId role := by
      have hhighest := d.isHighest_roleOf userId
      rw [hrole] at hhighest
      exact hhighest.1
    have hmore : Dataset.Grants { d with permissions := before ++ entry :: after } userId role := by
      apply hgrants.imp_right
      intro h
      obtain ⟨p, hp, huser⟩ := h
      refine ⟨p, ?_, huser⟩
      rw [hentries, List.mem_append] at hp
      exact List.mem_append.mpr (hp.imp_right (List.mem_cons_of_mem entry))
    exact (Dataset.isHighest_roleOf _ userId).exists_ge hmore
  · rw [Store.accepts_accessibleTo, Store.accessible_iff, Dataset.require_eq_ok_iff,
      d.permits_iff]
    simp only [Role.viewer_level_le, and_true]

/-- Of two entries for one user the greater counts, in either order, and a lesser one between them
changes nothing. -/
theorem Dataset.role_is_greatest_granted_of_two_entries :
    let d : Dataset :=
      { id := "t", userId := "u", name := "sales", displayName := "Sales", type := .table
        permissions := [⟨"v", .editor⟩, ⟨"v", .viewer⟩], createdAt := .start2024
        updatedAt := .start2024 }
    d.roleOf "v" = some .editor ∧
      Dataset.roleOf { d with permissions := [⟨"v", .viewer⟩, ⟨"v", .editor⟩, ⟨"v", .viewer⟩] } "v" =
        some .editor ∧
      (∃ role', Dataset.roleOf
        { d with permissions := [⟨"v", .editor⟩, ⟨"v", .viewer⟩, ⟨"v", .viewer⟩] } "v" = some role' ∧
          Role.editor.level ≤ role'.level) ∧
      d.permits "v" .editor = true ∧ d.require "v" .viewer = .ok () := by
  intro d
  have hrole : d.roleOf "v" = some .editor := rfl
  obtain ⟨hpermits, _, hsame, hmore, hlisted⟩ := d.role_is_greatest_granted "v"
  refine ⟨hrole, ?_, ?_, ?_, ?_⟩
  · rw [hsame _ fun p => ?_, hrole]
    simp only [d, List.mem_cons, List.not_mem_nil, or_false]
    constructor
    · intro h
      rcases h with rfl | rfl | rfl
      · exact .inr rfl
      · exact .inl rfl
      · exact .inr rfl
    · intro h
      rcases h with rfl | rfl
      · exact .inr (.inl rfl)
      · exact .inl rfl
  · exact hmore [⟨"v", .editor⟩] [⟨"v", .viewer⟩] ⟨"v", .viewer⟩ rfl .editor hrole
  · exact (hpermits .editor).mpr (.inr ⟨⟨"v", .editor⟩, List.mem_cons_self, rfl, Nat.le_refl _⟩)
  · exact hlisted.mp rfl

end DatasetCatalog
