import LandVault.Evidence.Attribution
import LandVault.Evidence.EvidenceRecord
import LandVault.Kernel.AuditPostgres
import LandVault.Library.Lineage
import LandVault.Library.ReadCommitted
import LandVault.Registry.History
import LandVault.Spatial.ParcelGeometry

/-!
# The database of the backend

The tables of the migrations, the writes that the repositories issue, and the
entries of the unique indexes, as an instance of a read-committed database.

Three unique indexes are partial: a row enters and leaves them as its columns change.
Their entries are kept in `partialIndexes`, next to the tables. An UPDATE names the
row it found when it had its lock and the row it leaves; it writes the columns that the
repositories assign, and no others.

A session remembers the settings of its transaction (row-level security) and the
records it has loaded, which its identity map may or may not hand out again. It also
remembers what its transaction has read and written. No statement uses that; conditions on the
order of requests are stated with it.
-/

set_option autoImplicit false

namespace LandVault

open Kernel Kernel.Audit Evidence Identity Registry Spatial Python Library.Programs
open Library.ReadCommitted

/-! ## Tables -/

/-- An entry of a partial unique index. -/
inductive PartialKey where
  | parcelNumber (number : String)
  | activeGeometry (parcelId : UUID)
  | pendingInvitation (tenantId email : String)
  deriving DecidableEq

/-- What a write may have to lock: entries of unique indexes, and rows. -/
inductive Key where
  | auditId (id : UUID)
  | auditHash (hash : String)
  | parcelId (id : UUID)
  | parcelRow (id : UUID)
  | ownershipId (id : UUID)
  | statusId (id : UUID)
  | counterRow (countryCode : String)
  | geometryId (id : UUID)
  | geometryRow (id : UUID)
  | entry (key : PartialKey)
  | attributionId (id : UUID)
  | supersedesOnce (id : UUID)
  | evidenceId (id : UUID)
  | evidenceRow (id : UUID)
  | tenantId (id : String)
  | tenantRow (id : String)
  | userId (id : UUID)
  | userSubject (subject : String)
  | userEmail (email : String)
  | userRow (id : UUID)
  | sessionId (id : UUID)
  | refreshHash (hash : String)
  | sessionRow (id : UUID)
  | invitationId (id : UUID)
  | tokenHash (hash : String)
  | invitationRow (id : UUID)
  | delegationId (id : UUID)
  | delegationRow (id : UUID)
  deriving DecidableEq

/-- The name of the index that an entry belongs to. -/
def Key.index : Key → String
  | .auditId _ => "audit_log_pkey"
  | .auditHash _ => "audit_log_hash_key"
  | .parcelId _ | .parcelRow _ => "parcels_pkey"
  | .entry (.parcelNumber _) => "ix_parcels_number_unique"
  | .ownershipId _ => "parcel_ownership_history_pkey"
  | .statusId _ => "parcel_status_history_pkey"
  | .counterRow _ => "registry_parcel_counters_pkey"
  | .geometryId _ | .geometryRow _ => "parcel_geometries_pkey"
  | .entry (.activeGeometry _) => "ix_parcel_geometries_one_active_per_parcel"
  | .attributionId _ => "evidence_actor_attributions_pkey"
  | .supersedesOnce _ => "uq_evidence_actor_attributions_supersedes_once"
  | .evidenceId _ | .evidenceRow _ => "evidence_records_pkey"
  | .tenantId _ | .tenantRow _ => "tenants_pkey"
  | .userId _ | .userRow _ => "identity_users_pkey"
  | .userSubject _ => "identity_users_keycloak_subject_key"
  | .userEmail _ => "identity_users_email_key"
  | .sessionId _ | .sessionRow _ => "identity_sessions_pkey"
  | .refreshHash _ => "identity_sessions_refresh_token_hash_key"
  | .invitationId _ | .invitationRow _ => "identity_invitations_pkey"
  | .tokenHash _ => "identity_invitations_token_hash_key"
  | .entry (.pendingInvitation _ _) => "ix_identity_invitations_pending_email"
  | .delegationId _ | .delegationRow _ => "identity_delegations_pkey"

structure Tables where
  auditLog : List AuditLogRecord := []
  tenants : List TenantRecord := []
  identityUsers : List UserRecord := []
  identitySessions : List SessionRecord := []
  invitations : List InvitationRecord := []
  delegations : List DelegationRecord := []
  parcels : List ParcelRecord := []
  ownershipHistory : List OwnershipRecord := []
  statusHistory : List StatusRecord := []
  parcelCounters : List (String × Nat) := []
  parcelGeometries : List ParcelGeometryRecord := []
  evidenceRecords : List EvidenceRecordModel := []
  attributions : List EvidenceActorAttributionModel := []
  partialIndexes : List PartialKey := []

inductive Write where
  | insertAudit (row : AuditLogRecord)
  | insertParcel (row : ParcelRecord)
  | updateParcel (stored row : ParcelRecord)
  | insertOwnership (row : OwnershipRecord)
  | insertStatus (row : StatusRecord)
  | upsertCounter (countryCode : String) (lastAllocated : Nat)
  | insertGeometry (row : ParcelGeometryRecord)
  | updateGeometry (stored row : ParcelGeometryRecord)
  | insertAttribution (row : EvidenceActorAttributionModel)
  | insertEvidence (row : EvidenceRecordModel)
  | updateEvidence (stored row : EvidenceRecordModel)
  | insertTenant (row : TenantRecord)
  | updateTenant (stored row : TenantRecord)
  | insertUser (row : UserRecord)
  | updateUser (stored row : UserRecord)
  | insertSession (row : SessionRecord)
  | updateSession (stored row : SessionRecord)
  | insertInvitation (row : InvitationRecord)
  | updateInvitation (stored row : InvitationRecord)
  | insertDelegation (row : DelegationRecord)
  | updateDelegation (stored row : DelegationRecord)

namespace Write

/-- The entry of a row in the partial index on `parcel_number`. -/
def numberEntry (row : ParcelRecord) : List PartialKey :=
  row.parcelNumber.toList.map .parcelNumber

/-- The entry of a row in the partial index on the parcels of active geometries. -/
def activeEntry (row : ParcelGeometryRecord) : List PartialKey :=
  if row.status = .active then [.activeGeometry row.parcelId] else []

/-- The entry of a row in the partial index on the emails of pending invitations. -/
def pendingEntry (row : InvitationRecord) : List PartialKey :=
  if row.status = .pending then [.pendingInvitation row.tenantId row.invitedEmail] else []

/-- The entries that a new row adds to the indexes whose columns never change. -/
def rowEntries : Write → List Key
  | .insertAudit row => [.auditId row.id, .auditHash row.hash]
  | .insertParcel row => [.parcelId row.parcelId]
  | .insertOwnership row => [.ownershipId row.id]
  | .insertStatus row => [.statusId row.id]
  | .insertGeometry row => [.geometryId row.geometryId]
  | .insertAttribution row => .attributionId row.id :: row.supersedesId.toList.map .supersedesOnce
  | .insertEvidence row => [.evidenceId row.evidenceId]
  | .insertTenant row => [.tenantId row.id]
  | .insertUser row => [.userId row.id, .userSubject row.identitySubject, .userEmail row.email]
  | .insertSession row => [.sessionId row.id, .refreshHash row.refreshTokenHash]
  | .insertInvitation row => [.invitationId row.id, .tokenHash row.tokenHash]
  | .insertDelegation row => [.delegationId row.id]
  | _ => []

/-- The entries that a write adds to the partial indexes. -/
def enters : Write → List PartialKey
  | .insertParcel row => numberEntry row
  | .updateParcel stored row => (numberEntry row).filter (· ∉ numberEntry stored)
  | .insertGeometry row => activeEntry row
  | .updateGeometry stored row => (activeEntry row).filter (· ∉ activeEntry stored)
  | .insertInvitation row => pendingEntry row
  | .updateInvitation stored row => (pendingEntry row).filter (· ∉ pendingEntry stored)
  | _ => []

/-- The entries that a write removes from the partial indexes. -/
def removes : Write → List PartialKey
  | .updateParcel stored row => (numberEntry stored).filter (· ∉ numberEntry row)
  | .updateGeometry stored row => (activeEntry stored).filter (· ∉ activeEntry row)
  | .updateInvitation stored row => (pendingEntry stored).filter (· ∉ pendingEntry row)
  | _ => []

/-- The entries of unique indexes that a write adds. -/
def adds (w : Write) : List Key := w.rowEntries ++ w.enters.map .entry

/-- The row that a write locks besides its entries. -/
def locks : Write → List Key
  | .updateParcel _ row => [.parcelRow row.parcelId]
  | .updateGeometry _ row => [.geometryRow row.geometryId]
  | .upsertCounter countryCode _ => [.counterRow countryCode]
  | .updateEvidence _ row => [.evidenceRow row.evidenceId]
  | .updateTenant _ row => [.tenantRow row.id]
  | .updateUser _ row => [.userRow row.id]
  | .updateSession _ row => [.sessionRow row.id]
  | .updateInvitation _ row => [.invitationRow row.id]
  | .updateDelegation _ row => [.delegationRow row.id]
  | _ => []

def guards (w : Write) : List Key := w.locks ++ (w.adds ++ w.removes.map .entry)

end Write

namespace Tables

/-- The counter of a country code, if it has a row. -/
def counter (t : Tables) (countryCode : String) : Option Nat :=
  (t.parcelCounters.find? (·.1 = countryCode)).map (·.2)

/-- Replace the counter of a country code, or add it. -/
def setCounter (countryCode : String) (value : Nat) : List (String × Nat) → List (String × Nat)
  | [] => [(countryCode, value)]
  | row :: rows =>
      if row.1 = countryCode then (countryCode, value) :: rows
      else row :: setCounter countryCode value rows

/-- Change the row with the identifier of `row`. -/
def replaceParcel (row : ParcelRecord) (rows : List ParcelRecord) : List ParcelRecord :=
  rows.map fun stored =>
    if stored.parcelId = row.parcelId then row else stored

def replaceGeometry (row : ParcelGeometryRecord) (rows : List ParcelGeometryRecord) :
    List ParcelGeometryRecord :=
  rows.map fun stored => if stored.geometryId = row.geometryId then row else stored

/-- Write the assigned columns of the row with the identifier of `row`. -/
def replaceRow {R K : Type} [DecidableEq K] (id : R → K) (assign : R → R → R) (row : R)
    (rows : List R) : List R :=
  rows.map fun stored => if id stored = id row then assign row stored else stored

/-- The columns of `evidence_records` that an UPDATE may write. -/
def assignEvidence (row stored : EvidenceRecordModel) : EvidenceRecordModel :=
  { stored with
    status := row.status
    sha256 := row.sha256
    wormGrade := row.wormGrade
    legalHold := row.legalHold
    legalHoldReason := row.legalHoldReason
    legalHoldBy := row.legalHoldBy }

/-- The columns of `tenants` that an UPDATE may write. -/
def assignTenant (row stored : TenantRecord) : TenantRecord :=
  { stored with
    name := row.name
    status := row.status
    ownerUserId := row.ownerUserId
    suspensionReason := row.suspensionReason
    suspendedAt := row.suspendedAt
    archivedAt := row.archivedAt
    updatedAt := row.updatedAt }

/-- The columns of `identity_users` that an UPDATE may write. -/
def assignUser (row stored : UserRecord) : UserRecord :=
  { stored with
    roles := row.roles
    accountStatus := row.accountStatus
    suspensionReason := row.suspensionReason
    lastLoginAt := row.lastLoginAt
    updatedAt := row.updatedAt
    version := row.version }

/-- The columns of `identity_sessions` that an UPDATE may write. -/
def assignSession (row stored : SessionRecord) : SessionRecord :=
  { stored with
    status := row.status, revokedAt := row.revokedAt, revokedReason := row.revokedReason }

/-- The columns of `identity_invitations` that an UPDATE may write. -/
def assignInvitation (row stored : InvitationRecord) : InvitationRecord :=
  { stored with
    status := row.status, acceptedAt := row.acceptedAt, revokedAt := row.revokedAt }

/-- The columns of `identity_delegations` that an UPDATE may write. -/
def assignDelegation (row stored : DelegationRecord) : DelegationRecord :=
  { stored with
    status := row.status
    expiresAt := row.expiresAt
    revokedAt := row.revokedAt
    revokedBy := row.revokedBy
    updatedAt := row.updatedAt }

/-- The rows after a write, without the partial indexes. -/
def writeRow (t : Tables) : Write → Tables
  | .insertAudit row => { t with auditLog := t.auditLog ++ [row] }
  | .insertParcel row => { t with parcels := t.parcels ++ [row] }
  | .updateParcel _ row => { t with parcels := replaceParcel row t.parcels }
  | .insertOwnership row => { t with ownershipHistory := t.ownershipHistory ++ [row] }
  | .insertStatus row => { t with statusHistory := t.statusHistory ++ [row] }
  | .upsertCounter countryCode value =>
      { t with parcelCounters := setCounter countryCode value t.parcelCounters }
  | .insertGeometry row => { t with parcelGeometries := t.parcelGeometries ++ [row] }
  | .updateGeometry _ row => { t with parcelGeometries := replaceGeometry row t.parcelGeometries }
  | .insertAttribution row => { t with attributions := t.attributions ++ [row] }
  | .insertEvidence row => { t with evidenceRecords := t.evidenceRecords ++ [row] }
  | .updateEvidence _ row =>
      { t with evidenceRecords := replaceRow (·.evidenceId) assignEvidence row t.evidenceRecords }
  | .insertTenant row => { t with tenants := t.tenants ++ [row] }
  | .updateTenant _ row => { t with tenants := replaceRow (·.id) assignTenant row t.tenants }
  | .insertUser row => { t with identityUsers := t.identityUsers ++ [row] }
  | .updateUser _ row =>
      { t with identityUsers := replaceRow (·.id) assignUser row t.identityUsers }
  | .insertSession row => { t with identitySessions := t.identitySessions ++ [row] }
  | .updateSession _ row =>
      { t with identitySessions := replaceRow (·.id) assignSession row t.identitySessions }
  | .insertInvitation row => { t with invitations := t.invitations ++ [row] }
  | .updateInvitation _ row =>
      { t with invitations := replaceRow (·.id) assignInvitation row t.invitations }
  | .insertDelegation row => { t with delegations := t.delegations ++ [row] }
  | .updateDelegation _ row =>
      { t with delegations := replaceRow (·.id) assignDelegation row t.delegations }

/-- One write. -/
def apply (t : Tables) (w : Write) : Tables :=
  { t.writeRow w with
    partialIndexes := w.enters ++ t.partialIndexes.filter (· ∉ w.removes) }

/-- The entries of the unique indexes on the tables of evidence records and identities. -/
def identityKeys (t : Tables) : List Key :=
  t.evidenceRecords.map (Key.evidenceId ·.evidenceId) ++ t.tenants.map (Key.tenantId ·.id) ++
    t.identityUsers.map (Key.userId ·.id) ++ t.identityUsers.map (Key.userSubject ·.identitySubject) ++
    t.identityUsers.map (Key.userEmail ·.email) ++ t.identitySessions.map (Key.sessionId ·.id) ++
    t.identitySessions.map (Key.refreshHash ·.refreshTokenHash) ++
    t.invitations.map (Key.invitationId ·.id) ++ t.invitations.map (Key.tokenHash ·.tokenHash) ++
    t.delegations.map (Key.delegationId ·.id)

/-- The entries of the unique indexes on the other tables. -/
def recordKeys (t : Tables) : List Key :=
  t.auditLog.map (Key.auditId ·.id) ++ t.auditLog.map (Key.auditHash ·.hash) ++
    t.parcels.map (Key.parcelId ·.parcelId) ++ t.ownershipHistory.map (Key.ownershipId ·.id) ++
    t.statusHistory.map (Key.statusId ·.id) ++ t.parcelGeometries.map (Key.geometryId ·.geometryId) ++
    t.attributions.map (Key.attributionId ·.id) ++
    (t.attributions.filterMap (·.supersedesId)).map Key.supersedesOnce

/-- The entries of the unique indexes that every row has. -/
def rowKeys (t : Tables) : List Key := t.recordKeys ++ t.identityKeys

/-- The entries of all unique indexes. -/
def keys (t : Tables) : List Key := t.rowKeys ++ t.partialIndexes.map .entry

end Tables

/-! ## Sessions -/

/-- What a transaction knows of rows that may change, or that others may add to. -/
inductive Read where
  | parcel (row : ParcelRecord)
  | geometry (row : ParcelGeometryRecord)
  | evidence (row : EvidenceRecordModel)
  | tenant (row : TenantRecord)
  | user (row : UserRecord)
  | session (row : SessionRecord)
  | invitation (row : InvitationRecord)
  | delegation (row : DelegationRecord)
  | latestOwnership (parcelId : UUID) (row : Option OwnershipRecord)
  | latestStatus (parcelId : UUID) (row : Option StatusRecord)

structure Memo where
  scope : Scope := .unset
  parcels : List ParcelRecord := []
  geometries : List ParcelGeometryRecord := []
  evidenceRecords : List EvidenceRecordModel := []
  tenants : List TenantRecord := []
  users : List UserRecord := []
  sessions : List SessionRecord := []
  invitations : List InvitationRecord := []
  delegations : List DelegationRecord := []
  reads : List Read := []

/-- How a service outside the database fails: with an `IdentityProviderError`, or with
any other error. -/
inductive Failure where
  | identityProvider (code message : String)
  | other (message : String)

def Failure.error : Failure → PyExc
  | .identityProvider code message => .identityProvider code message
  | .other message => .outside message

/-- `IdentityProviderTokens`. -/
structure IdentityProviderTokens where
  subject : String
  email : String
  accessToken : String
  expiresIn : Int
  idpRefreshToken : String

/-- What the outside world supplies to a statement: an identifier that `uuid4`
returns, the application's clock, the row that comes first among equals, whether the
identity map has lost the record that is asked for, a token of `secrets`, and the
answers of the identity provider and of the storage of evidence, which gives a content
for each key. -/
structure Env where
  uuid : UUID
  now : DateTime
  pick : Nat := 0
  lost : Bool := false
  token : String := ""
  subject : Except Failure String := .ok ""
  tokens : Except Failure IdentityProviderTokens := .error (.other "")
  put : Except Failure Unit := .ok ()
  content : String → Except Failure (List UInt8) := fun _ => .ok []

/-! ## The unique indexes as writes change them -/

theorem replaceParcel_ids (row : ParcelRecord) (rows : List ParcelRecord) :
    (Tables.replaceParcel row rows).map (·.parcelId) = rows.map (·.parcelId) := by
  simp only [Tables.replaceParcel, List.map_map]
  refine List.map_congr_left fun stored _ => ?_
  simp only [Function.comp]
  split <;> simp_all

theorem replaceGeometry_ids (row : ParcelGeometryRecord) (rows : List ParcelGeometryRecord) :
    (Tables.replaceGeometry row rows).map (·.geometryId) = rows.map (·.geometryId) := by
  simp only [Tables.replaceGeometry, List.map_map]
  refine List.map_congr_left fun stored _ => ?_
  simp only [Function.comp]
  split <;> simp_all

theorem replaceRow_column {R K C : Type} [DecidableEq K] {id : R → K} {assign : R → R → R}
    {column : R → C} (kept : ∀ row stored, column (assign row stored) = column stored) (row : R)
    (rows : List R) : (Tables.replaceRow id assign row rows).map column = rows.map column := by
  simp only [Tables.replaceRow, List.map_map]
  refine List.map_congr_left fun stored _ => ?_
  simp only [Function.comp]
  split
  · exact kept row stored
  · rfl

theorem entry_notMem_rowEntries (w : Write) (key : PartialKey) : Key.entry key ∉ w.rowEntries := by
  cases w <;> simp [Write.rowEntries]

theorem entry_notMem_rowKeys (t : Tables) (key : PartialKey) : Key.entry key ∉ t.rowKeys := by
  simp [Tables.rowKeys, Tables.recordKeys, Tables.identityKeys]

theorem entry_injective : Function.Injective Key.entry := fun _ _ same => by cases same; rfl

/-- The entries that every row has, one table at a time. -/
theorem rowKeys_writeRow (t : Tables) (w : Write) :
    (t.writeRow w).rowKeys.Perm (w.rowEntries ++ t.rowKeys) := by
  refine List.perm_iff_count.mpr fun k => ?_
  simp only [Tables.rowKeys, List.count_append]
  cases w with
  | updateParcel stored row =>
      have same := congrArg (List.map Key.parcelId) (replaceParcel_ids row t.parcels)
      simp only [List.map_map, Function.comp_def] at same
      simp [Tables.writeRow, Tables.recordKeys, Tables.identityKeys, Write.rowEntries, same]
  | updateGeometry stored row =>
      have same := congrArg (List.map Key.geometryId) (replaceGeometry_ids row t.parcelGeometries)
      simp only [List.map_map, Function.comp_def] at same
      simp [Tables.writeRow, Tables.recordKeys, Tables.identityKeys, Write.rowEntries, same]
  | updateEvidence stored row | updateTenant stored row | updateUser stored row
  | updateSession stored row | updateInvitation stored row | updateDelegation stored row =>
      simp only [Tables.writeRow, Tables.recordKeys, Tables.identityKeys, Write.rowEntries,
        List.count_nil, zero_add]
      repeat rw [replaceRow_column]
      all_goals exact fun _ _ => rfl
  | insertAttribution row =>
      cases superseded : row.supersedesId <;>
        simp [Tables.writeRow, Tables.recordKeys, Tables.identityKeys, Write.rowEntries, superseded,
          List.count_append, List.count_cons] <;> omega
  | upsertCounter countryCode value =>
      simp [Tables.writeRow, Tables.recordKeys, Tables.identityKeys, Write.rowEntries]
  | insertEvidence row | insertTenant row | insertUser row | insertSession row
  | insertInvitation row | insertDelegation row =>
      simp only [Tables.writeRow, Tables.recordKeys, Tables.identityKeys, Write.rowEntries,
        List.map_append, List.map_cons, List.map_nil, List.count_append, List.count_cons,
        List.count_nil]
      omega
  | _ =>
      simp [Tables.writeRow, Tables.recordKeys, Tables.identityKeys, Write.rowEntries,
        List.count_append, List.count_cons]
      omega

theorem keys_apply (t : Tables) (w : Write) :
    (t.apply w).keys.Perm (w.adds ++ t.keys.filter (· ∉ w.removes.map .entry)) := by
  have rows : t.rowKeys.filter (· ∉ w.removes.map .entry) = t.rowKeys := by
    refine List.filter_eq_self.mpr fun k inRow => ?_
    have kept : k ∉ w.removes.map .entry := fun removed => by
      obtain ⟨key, _, rfl⟩ := List.mem_map.mp removed
      exact entry_notMem_rowKeys t key inRow
    simpa using kept
  have entries : (t.partialIndexes.map Key.entry).filter (· ∉ w.removes.map .entry) =
      (t.partialIndexes.filter (· ∉ w.removes)).map .entry := by
    rw [List.filter_map]
    congr 1
    refine List.filter_congr fun key _ => ?_
    simp only [Function.comp_apply, List.mem_map_of_injective entry_injective]
  rw [Tables.keys, Tables.keys, List.filter_append, rows, entries]
  refine List.perm_iff_count.mpr fun k => ?_
  have added := (rowKeys_writeRow t w).count_eq k
  have same : (t.apply w).rowKeys = (t.writeRow w).rowKeys := rfl
  simp only [same, Write.adds, List.count_append] at added ⊢
  simp only [Tables.apply, List.map_append, List.count_append]
  omega

theorem adds_nodup (w : Write) : w.adds.Nodup := by
  have number : ∀ row, (Write.numberEntry row).Nodup := by
    intro row
    cases given : row.parcelNumber <;> simp [Write.numberEntry, given]
  have active : ∀ row, (Write.activeEntry row).Nodup := by
    intro row
    unfold Write.activeEntry
    split <;> simp
  have pending : ∀ row, (Write.pendingEntry row).Nodup := by
    intro row
    unfold Write.pendingEntry
    split <;> simp
  have rows : w.rowEntries.Nodup := by
    cases w with
    | insertAttribution row => cases given : row.supersedesId <;> simp [Write.rowEntries, given]
    | _ => simp [Write.rowEntries]
  have entered : w.enters.Nodup := by
    cases w with
    | insertParcel row => exact number row
    | updateParcel stored row => exact (number row).filter _
    | insertGeometry row => exact active row
    | updateGeometry stored row => exact (active row).filter _
    | insertInvitation row => exact pending row
    | updateInvitation stored row => exact (pending row).filter _
    | _ => simp [Write.enters]
  refine rows.append (entered.map entry_injective) fun k inRow inEntries => ?_
  obtain ⟨key, _, rfl⟩ := List.mem_map.mp inEntries
  exact entry_notMem_rowEntries w key inRow

/-- The database as an engine. -/
def engine : Engine Tables Write Key Memo PyExc where
  apply := Tables.apply
  guards := Write.guards
  adds := Write.adds
  removes := fun w => w.removes.map .entry
  keys := Tables.keys
  fresh := {}
  settled := fun memo => { memo with scope := .unset, reads := [] }
  violation := fun k => uniqueViolation k.index
  disconnected := .disconnected
  pendingRollback := .pendingRollback
  adds_guarded := fun w k added => by simp [Write.guards, added]
  removes_guarded := fun w k removed => by simp [Write.guards, removed]
  adds_nodup := adds_nodup
  keys_apply := keys_apply

/-! ## What the unique indexes say of the rows -/

namespace Tables

variable {t : Tables}

/-- No hash is stored twice. -/
theorem auditHashes_nodup (unique : t.keys.Nodup) : (t.auditLog.map (·.hash)).Nodup := by
  have rows : (t.auditLog.map (Key.auditId ·.id) ++ t.auditLog.map (Key.auditHash ·.hash)).Nodup :=
    unique.of_append_left.of_append_left.of_append_left.of_append_left.of_append_left
      |>.of_append_left.of_append_left.of_append_left
  refine List.Nodup.of_map Key.auditHash ?_
  rw [List.map_map]
  exact rows.of_append_right

theorem attributionIds_nodup (unique : t.keys.Nodup) : (t.attributions.map (·.id)).Nodup := by
  refine List.Nodup.of_map Key.attributionId ?_
  rw [List.map_map]
  exact unique.of_append_left.of_append_left.of_append_left.of_append_right

/-- No attribution is superseded twice. -/
theorem supersedes_nodup (unique : t.keys.Nodup) :
    (t.attributions.filterMap (·.supersedesId)).Nodup :=
  .of_map Key.supersedesOnce unique.of_append_left.of_append_left.of_append_right

theorem supersedesOnce_mem_keys {superseded : UUID} (present : .supersedesOnce superseded ∈ t.keys) :
    ∃ row ∈ t.attributions, row.supersedesId = some superseded := by
  simpa [keys, rowKeys, recordKeys, identityKeys] using present

end Tables

/-! ## Requests -/

abbrev DbStatement : Type → Type 1 := Statement Tables Write Memo Env PyExc

/-- What a request does: a program of statements. -/
abbrev Request (α : Type) : Type 1 := Program DbStatement PyExc α

/-- The rows of a table that row-level security lets a statement see. -/
def visible {R : Type} (tenantId : R → String) (table : Tables → List R)
    (view : View Tables Memo Env) : List R :=
  (table view.tables).filter fun row => view.memo.scope.sees (tenantId row)

/-- A statement that answers and changes nothing. -/
def select {β : Type} (answer : View Tables Memo Env → Except PyExc β) : Request β :=
  .perform <| .query fun view =>
    (answer view).map fun value => { memo := view.memo, answer := .ok value }

/-- A value that the outside world supplies. -/
def choose {β : Type} (pick : Env → β) : Request β := .perform (.choose pick)

abbrev DbSession : Type := Session Write Memo PyExc

abbrev Database (ι : Type) : Type := Db ι Tables Key

/-- The database as a machine for requests. -/
abbrev postgres (ι : Type) [DecidableEq ι] :
    Machine ι DbStatement PyExc (Database ι) DbSession (Choice Env) :=
  engine.machine

/-- A session that has done nothing yet. -/
def freshSession : DbSession := { memo := {} }

end LandVault
