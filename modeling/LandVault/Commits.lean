import LandVault.Library.Discipline
import LandVault.Transactions

/-!
# What transactions of the backend commit

The database as it is used by every request: an UPDATE names the row that it found, and
holds its lock until the transaction ends, so the row is still there when the UPDATE is
committed; an upsert of a counter names its next value, for the same reason. Audit
entries alone are committed by statements of their own.
-/

set_option autoImplicit false

namespace LandVault

open Kernel Kernel.Audit Library.Programs Library.ReadCommitted Python

/-! ## What writes do to the rows of a class -/

namespace Entity

/-- The lock of a row. -/
def lock : (e : Entity) → e.Id → Key
  | .user => .userRow
  | .tenant => .tenantRow
  | .session => .sessionRow
  | .invitation => .invitationRow
  | .delegation => .delegationRow
  | .parcel => .parcelRow
  | .geometry => .geometryRow
  | .evidence => .evidenceRow

theorem lock_mem_guards (e : Entity) (stored row : e.Row) :
    e.lock (e.mapper.key row) ∈ (e.mapper.update stored row).guards := by
  cases e <;> exact List.mem_append_left _ List.mem_cons_self

/-- A write inserts a row of the class, or updates one, or leaves the class alone. -/
theorem write_cases (e : Entity) (w : Write) :
    (∀ t : Tables, e.mapper.rows (t.apply w) = e.mapper.rows t) ∨
      (∃ row, w = e.mapper.insert row) ∨ ∃ stored row, w = e.mapper.update stored row := by
  cases e <;> cases w <;>
    first
    | exact .inl fun _ => rfl
    | exact .inr (.inl ⟨_, rfl⟩)
    | exact .inr (.inr ⟨_, _, rfl⟩)

/-- Every row of `t` that has the key is a row of `t'`. -/
def Lasts (e : Entity) (key : e.Id) (t t' : Tables) : Prop :=
  ∀ row ∈ e.mapper.rows t, e.mapper.key row = key → row ∈ e.mapper.rows t'

variable {e : Entity} {key : e.Id} {t t' : Tables}

theorem Lasts.apply (lasts : e.Lasts key t t') (w : Write) :
    e.Lasts key (t.apply w) (t'.apply w) := by
  intro row member named
  rcases e.write_cases w with same | ⟨new, rfl⟩ | ⟨stored, new, rfl⟩
  · rw [same] at member ⊢
    exact lasts row member named
  · rw [rows_insert] at member ⊢
    refine List.mem_append.mpr ((List.mem_append.mp member).imp_left fun old => ?_)
    exact lasts row old named
  · rw [rows_update] at member ⊢
    obtain ⟨old, stored, rfl⟩ := List.mem_map.mp member
    refine List.mem_map.mpr ⟨old, lasts old stored ?_, rfl⟩
    split at named
    · rename_i same
      exact (e.mapper.key_assign _ _ same.symm).symm.trans named
    · exact named

theorem Lasts.applyAll (lasts : e.Lasts key t t') (ws : List Write) :
    e.Lasts key (engine.applyAll t ws) (engine.applyAll t' ws) := by
  induction ws generalizing t t' with
  | nil => exact lasts
  | cons w ws ih => exact ih (lasts.apply w)

/-- A write leaves the rows alone whose locks it does not hold. -/
theorem lasts_of_free {w : Write} (free : e.lock key ∉ w.guards) : e.Lasts key t (t.apply w) := by
  intro row member named
  rcases e.write_cases w with same | ⟨new, rfl⟩ | ⟨stored, new, rfl⟩
  · rwa [same]
  · rw [rows_insert]
    exact List.mem_append_left _ member
  · rw [rows_update]
    refine List.mem_map.mpr ⟨row, member, if_neg fun same => free ?_⟩
    rw [← named, same]
    exact e.lock_mem_guards stored new

/-- A row stays where its lock is held. -/
theorem frame {stored row : e.Row} {w' : Write} {ws : List Write}
    (free : ∀ k ∈ (e.mapper.update stored row).guards, k ∉ w'.guards)
    (found : stored ∈ e.mapper.rows (engine.applyAll t ws) ∧ e.mapper.key row = e.mapper.key stored) :
    stored ∈ e.mapper.rows (engine.applyAll (t.apply w') ws) ∧
      e.mapper.key row = e.mapper.key stored := by
  have lasts := (lasts_of_free (t := t) (free _ (e.lock_mem_guards stored row))).applyAll ws
  exact ⟨lasts stored found.1 found.2.symm, found.2⟩

end Entity

/-! ## Counters -/

namespace Tables

theorem find?_setCounter (code code' : String) (value : Nat) (rows : List (String × Nat)) :
    ((setCounter code value rows).find? (·.1 = code')).map (·.2) =
      if code = code' then some value else (rows.find? (·.1 = code')).map (·.2) := by
  induction rows with
  | nil => by_cases same : code = code' <;> simp [setCounter, same]
  | cons row rows ih =>
      by_cases here : row.1 = code
      · by_cases same : code = code'
        · simp [setCounter, here, same]
        · have other : row.1 ≠ code' := here ▸ same
          simp [setCounter, here, same]
      · by_cases same : code = code'
        · have other : row.1 ≠ code' := same ▸ here
          simp only [setCounter, here, if_false, List.find?_cons, other, decide_false, ih]
        · by_cases found : row.1 = code' <;>
            simp_all [setCounter]

/-- What a write does to a counter. -/
theorem counter_apply (t : Tables) (w : Write) (code : String) :
    (t.apply w).counter code =
      match w with
      | .upsertCounter code' value => if code' = code then some value else t.counter code
      | _ => t.counter code := by
  cases w with
  | upsertCounter code' value => exact find?_setCounter code' code value _
  | _ => rfl

theorem counter_applyAll_congr {t t' : Tables} {code : String}
    (same : t.counter code = t'.counter code) (ws : List Write) :
    (engine.applyAll t ws).counter code = (engine.applyAll t' ws).counter code := by
  induction ws generalizing t t' with
  | nil => exact same
  | cons w ws ih =>
      refine ih ?_
      have applied : (t.apply w).counter code = (t'.apply w).counter code := by
        rw [counter_apply, counter_apply]
        cases w <;> simp [same]
      exact applied

end Tables

/-! ## The discipline -/

/-- What a write relies on. -/
def Stands (t : Tables) : Write → Prop
  | .updateParcel stored row => stored ∈ t.parcels ∧ row.parcelId = stored.parcelId
  | .updateGeometry stored row => stored ∈ t.parcelGeometries ∧ row.geometryId = stored.geometryId
  | .updateEvidence stored row => stored ∈ t.evidenceRecords ∧ row.evidenceId = stored.evidenceId
  | .updateTenant stored row => stored ∈ t.tenants ∧ row.id = stored.id
  | .updateUser stored row => stored ∈ t.identityUsers ∧ row.id = stored.id
  | .updateSession stored row => stored ∈ t.identitySessions ∧ row.id = stored.id
  | .updateInvitation stored row => stored ∈ t.invitations ∧ row.id = stored.id
  | .updateDelegation stored row => stored ∈ t.delegations ∧ row.id = stored.id
  | .upsertCounter code value => value = (t.counter code).getD 0 + 1
  | _ => True

theorem Entity.stands_update {e : Entity} {t : Tables} {stored row : e.Row} :
    Stands t (e.mapper.update stored row) ↔
      stored ∈ e.mapper.rows t ∧ e.mapper.key row = e.mapper.key stored := by
  cases e <;> exact .rfl

theorem Entity.stands_insert (e : Entity) (t : Tables) (row : e.Row) :
    Stands t (e.mapper.insert row) := by
  cases e <;> trivial

theorem stands_frame {t : Tables} {w w' : Write} {ws : List Write}
    (free : ∀ k ∈ w.guards, k ∉ w'.guards) (stands : Stands (engine.applyAll t ws) w) :
    Stands (engine.applyAll (t.apply w') ws) w := by
  cases w with
  | updateParcel => exact Entity.frame (e := .parcel) free stands
  | updateGeometry => exact Entity.frame (e := .geometry) free stands
  | updateEvidence => exact Entity.frame (e := .evidence) free stands
  | updateTenant => exact Entity.frame (e := .tenant) free stands
  | updateUser => exact Entity.frame (e := .user) free stands
  | updateSession => exact Entity.frame (e := .session) free stands
  | updateInvitation => exact Entity.frame (e := .invitation) free stands
  | updateDelegation => exact Entity.frame (e := .delegation) free stands
  | upsertCounter code value =>
      have kept : (t.apply w').counter code = t.counter code := by
        rw [Tables.counter_apply]
        cases w' with
        | upsertCounter code' value' =>
            refine if_neg fun same => ?_
            subst same
            exact free _ List.mem_cons_self List.mem_cons_self
        | _ => rfl
      exact stands.trans (by rw [Tables.counter_applyAll_congr kept])
  | _ => trivial

/-- An audit entry. -/
def Audits (w : Write) : Prop := ∃ row, w = .insertAudit row

/-- The discipline of the backend, for the batches of writes that its transactions commit. -/
def committing (batch : List Write → Prop) (nil : batch []) : Discipline engine where
  stands := Stands
  stands_frame := stands_frame
  alone := Audits
  alone_stands := by
    rintro t _ ⟨row, rfl⟩
    trivial
  batch := batch
  batch_nil := nil

end LandVault
