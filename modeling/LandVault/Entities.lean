import LandVault.Evidence.EvidenceRepository
import LandVault.Identity.Repositories
import LandVault.Registry.Repositories
import LandVault.Spatial.Repositories

/-!
# The mapped classes together

The eight classes that the repositories load and flush, and what their operations do to
each other: a write of one class leaves the rows of the others alone, and the identity
map has one list for each. A record stays visible to a transaction that could see it.
-/

set_option autoImplicit false

namespace LandVault

open Evidence Identity Kernel Registry Spatial Library.ReadCommitted Python

/-- In a column without repetitions, a value names at most one row. -/
theorem find?_eq_some_iff {R K : Type} [DecidableEq K] {column : R → K} {rows : List R}
    (distinct : (rows.map column).Nodup) {value : K} {row : R} :
    rows.find? (column · = value) = some row ↔ row ∈ rows ∧ column row = value := by
  constructor
  · intro found
    exact ⟨List.mem_of_find?_eq_some found, by simpa using List.find?_some found⟩
  · rintro ⟨stored, rfl⟩
    cases found : rows.find? (column · = column row) with
    | none => simpa using List.find?_eq_none.mp found row stored
    | some other =>
        have same : column other = column row := by simpa using List.find?_some found
        rw [List.inj_on_of_nodup_map distinct (List.mem_of_find?_eq_some found) stored same]

inductive Entity where
  | user | tenant | session | invitation | delegation | parcel | geometry | evidence
  deriving DecidableEq

namespace Entity

abbrev Row : Entity → Type
  | .user => UserRecord
  | .tenant => TenantRecord
  | .session => SessionRecord
  | .invitation => InvitationRecord
  | .delegation => DelegationRecord
  | .parcel => ParcelRecord
  | .geometry => ParcelGeometryRecord
  | .evidence => EvidenceRecordModel

abbrev Id : Entity → Type
  | .tenant => String
  | _ => UUID

instance (e : Entity) : DecidableEq e.Id :=
  match e with
  | .tenant => inferInstanceAs (DecidableEq String)
  | .user | .session | .invitation | .delegation | .parcel | .geometry | .evidence =>
      inferInstanceAs (DecidableEq UUID)

def mapper : (e : Entity) → Mapper e.Row e.Id
  | .user => userMapper
  | .tenant => tenantMapper
  | .session => sessionMapper
  | .invitation => invitationMapper
  | .delegation => delegationMapper
  | .parcel => parcelMapper
  | .geometry => geometryMapper
  | .evidence => evidenceMapper

/-! ## The identity map -/

@[simp] theorem loaded_remember (e : Entity) (rows : List e.Row) (memo : Memo) :
    e.mapper.loaded (e.mapper.remember rows memo) = rows := by
  cases e <;> rfl

theorem loaded_remember_of_ne {e e' : Entity} (different : e' ≠ e) (rows : List e.Row)
    (memo : Memo) : e'.mapper.loaded (e.mapper.remember rows memo) = e'.mapper.loaded memo := by
  cases e <;> cases e' <;> first | rfl | exact absurd rfl different

@[simp] theorem scope_remember (e : Entity) (rows : List e.Row) (memo : Memo) :
    (e.mapper.remember rows memo).scope = memo.scope := by
  cases e <;> rfl

@[simp] theorem loaded_reads (e : Entity) (memo : Memo) (reads : List Read) :
    e.mapper.loaded { memo with reads } = e.mapper.loaded memo := by
  cases e <;> rfl

@[simp] theorem reads_remember (e : Entity) (rows : List e.Row) (memo : Memo) :
    (e.mapper.remember rows memo).reads = memo.reads := by
  cases e <;> rfl

section Keep

variable {e : Entity} {memo : Memo}

@[simp] theorem scope_keep (row : e.Row) : (e.mapper.keep row memo).scope = memo.scope := by
  simp [Mapper.keep]

@[simp] theorem reads_keep (row : e.Row) :
    (e.mapper.keep row memo).reads = e.mapper.noted row :: memo.reads := by
  simp [Mapper.keep]

theorem loaded_keep (row : e.Row) : e.mapper.loaded (e.mapper.keep row memo) =
    row :: (e.mapper.loaded memo).filter (e.mapper.key · ≠ e.mapper.key row) :=
  (e.loaded_reads _ _).trans (e.loaded_remember _ _)

theorem mem_loaded_keep {row other : e.Row} :
    other ∈ e.mapper.loaded (e.mapper.keep row memo) ↔
      other = row ∨ other ∈ e.mapper.loaded memo ∧ e.mapper.key other ≠ e.mapper.key row := by
  simp [loaded_keep]

theorem loaded_keep_of_ne {e' : Entity} (different : e' ≠ e) (row : e.Row) :
    e'.mapper.loaded (e.mapper.keep row memo) = e'.mapper.loaded memo :=
  (e'.loaded_reads _ _).trans (loaded_remember_of_ne different _ _)

end Keep

/-! ## Tables -/

theorem rows_insert (e : Entity) (t : Tables) (row : e.Row) :
    e.mapper.rows (t.apply (e.mapper.insert row)) = e.mapper.rows t ++ [row] := by
  cases e <;> rfl

theorem rows_insert_of_ne {e e' : Entity} (different : e' ≠ e) (t : Tables) (row : e.Row) :
    e'.mapper.rows (t.apply (e.mapper.insert row)) = e'.mapper.rows t := by
  cases e <;> cases e' <;> first | rfl | exact absurd rfl different

theorem rows_update (e : Entity) (t : Tables) (stored row : e.Row) :
    e.mapper.rows (t.apply (e.mapper.update stored row)) =
      Tables.replaceRow e.mapper.key e.mapper.assign row (e.mapper.rows t) := by
  cases e <;> rfl

theorem rows_update_of_ne {e e' : Entity} (different : e' ≠ e) (t : Tables) (stored row : e.Row) :
    e'.mapper.rows (t.apply (e.mapper.update stored row)) = e'.mapper.rows t := by
  cases e <;> cases e' <;> first | rfl | exact absurd rfl different

theorem mem_seen {e : Entity} {t : Tables} {scope : Scope} {row : e.Row} :
    row ∈ e.mapper.seen t scope ↔ row ∈ e.mapper.rows t ∧ e.mapper.sees t scope row = true :=
  List.mem_filter

theorem sees_merge (e : Entity) (t : Tables) (scope : Scope) (loaded new stored : e.Row) :
    e.mapper.sees t scope (e.mapper.merge loaded new stored) = e.mapper.sees t scope stored := by
  cases e <;> rfl

/-- The rows after an edit of one of them. -/
theorem mem_rows_update {e : Entity} {t : Tables} {loaded new row : e.Row}
    (member : row ∈ e.mapper.rows t)
    (edit : e.mapper.merge loaded new loaded = new) :
    (e.mapper.key row ≠ e.mapper.key loaded →
      row ∈ e.mapper.rows (t.apply (e.mapper.update loaded new))) ∧
    (row = loaded → new ∈ e.mapper.rows (t.apply (e.mapper.update loaded new))) := by
  have key : e.mapper.key new = e.mapper.key loaded := by
    rw [← edit]
    exact e.mapper.key_merge loaded new loaded
  rw [Entity.rows_update]
  constructor
  · intro different
    exact List.mem_map.mpr ⟨row, member, by simp [key, different]⟩
  · rintro rfl
    exact List.mem_map.mpr ⟨row, member, by simp [key, e.mapper.assign_of_merge edit]⟩

/-- No identifier occurs twice. -/
theorem keys_nodup (e : Entity) {t : Tables} (unique : t.keys.Nodup) :
    ((e.mapper.rows t).map e.mapper.key).Nodup := by
  have records : t.recordKeys.Nodup := unique.of_append_left.of_append_left
  have identities : t.identityKeys.Nodup := unique.of_append_left.of_append_right
  cases e with
  | parcel =>
      refine .of_map Key.parcelId ?_
      rw [List.map_map]
      exact records.of_append_left.of_append_left.of_append_left.of_append_left.of_append_left
        |>.of_append_right
  | geometry =>
      refine .of_map Key.geometryId ?_
      rw [List.map_map]
      exact records.of_append_left.of_append_left.of_append_right
  | delegation =>
      refine .of_map Key.delegationId ?_
      rw [List.map_map]
      exact identities.of_append_right
  | invitation =>
      refine .of_map Key.invitationId ?_
      rw [List.map_map]
      exact identities.of_append_left.of_append_left.of_append_right
  | session =>
      refine .of_map Key.sessionId ?_
      rw [List.map_map]
      exact identities.of_append_left.of_append_left.of_append_left.of_append_left.of_append_right
  | user =>
      refine .of_map Key.userId ?_
      rw [List.map_map]
      exact identities.of_append_left.of_append_left.of_append_left.of_append_left.of_append_left
        |>.of_append_left.of_append_left.of_append_right
  | tenant =>
      refine .of_map Key.tenantId ?_
      rw [List.map_map]
      exact identities.of_append_left.of_append_left.of_append_left.of_append_left.of_append_left
        |>.of_append_left.of_append_left.of_append_left.of_append_right
  | evidence =>
      refine .of_map Key.evidenceId ?_
      rw [List.map_map]
      exact identities.of_append_left.of_append_left.of_append_left.of_append_left.of_append_left
        |>.of_append_left.of_append_left.of_append_left.of_append_left

/-- A write takes no row out of the sight of a transaction. -/
theorem sees_apply (e : Entity) {t : Tables} {scope : Scope} {row : e.Row} (w : Write)
    (sees : e.mapper.sees t scope row = true) : e.mapper.sees (t.apply w) scope row = true := by
  cases e with
  | session =>
      have users : ∀ user ∈ t.identityUsers, ∃ user' ∈ (t.apply w).identityUsers,
          user'.id = user.id ∧ user'.tenantId = user.tenantId := by
        intro user member
        cases w with
        | insertUser row => exact ⟨user, List.mem_append_left _ member, rfl, rfl⟩
        | updateUser stored row =>
            refine ⟨_, List.mem_map_of_mem member, ?_⟩
            dsimp only
            split <;> exact ⟨rfl, rfl⟩
        | _ => exact ⟨user, member, rfl, rfl⟩
      obtain ⟨user, member, same, visible⟩ :
          ∃ user ∈ t.identityUsers, user.id = row.userId ∧ scope.sees user.tenantId = true := by
        simpa [mapper, sessionMapper] using sees
      obtain ⟨user', member', id, tenantId⟩ := users user member
      refine List.any_eq_true.mpr ⟨user', member', ?_⟩
      simp [id, tenantId, same, visible]
  | _ => exact sees

end Entity

namespace Tables

variable {t : Tables}

/-- No subject has two users. -/
theorem identitySubjects_nodup (unique : t.keys.Nodup) :
    (t.identityUsers.map (·.identitySubject)).Nodup := by
  have identities : t.identityKeys.Nodup := unique.of_append_left.of_append_right
  refine .of_map Key.userSubject ?_
  rw [List.map_map]
  exact identities.of_append_left.of_append_left.of_append_left.of_append_left.of_append_left
    |>.of_append_left.of_append_right

/-- No refresh token has two sessions. -/
theorem refreshTokenHashes_nodup (unique : t.keys.Nodup) :
    (t.identitySessions.map (·.refreshTokenHash)).Nodup := by
  have identities : t.identityKeys.Nodup := unique.of_append_left.of_append_right
  refine .of_map Key.refreshHash ?_
  rw [List.map_map]
  exact identities.of_append_left.of_append_left.of_append_left.of_append_right

end Tables
end LandVault
