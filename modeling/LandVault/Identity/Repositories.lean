import LandVault.Kernel.Mapping
import LandVault.Kernel.Uow

/-!
# The repositories of the Identity context

`app/contexts/identity/adapters/postgres_repositories.py`, over the mapped classes of
`adapters/orm.py` and the policies and constraints of their migrations. A user, a tenant
or a session and its row are the same record; an invitation and a delegation name their
principals as texts, which become identifiers on the way in.
-/

set_option autoImplicit false

namespace LandVault.Identity

open Kernel Library.Programs Library.ReadCommitted Python

/-! ## Mapped classes -/

def userMapper : Mapper UserRecord UUID where
  table := "identity_users"
  rows := (·.identityUsers)
  sees := fun _ scope row => scope.sees row.tenantId
  key := (·.id)
  loaded := (·.users)
  remember := fun users memo => { memo with users }
  merge := fun loaded new stored =>
    { stored with
      roles := merged loaded.roles new.roles stored.roles
      accountStatus := merged loaded.accountStatus new.accountStatus stored.accountStatus
      suspensionReason := merged loaded.suspensionReason new.suspensionReason stored.suspensionReason
      lastLoginAt := merged loaded.lastLoginAt new.lastLoginAt stored.lastLoginAt
      updatedAt := merged loaded.updatedAt new.updatedAt stored.updatedAt
      version := merged loaded.version new.version stored.version }
  clean := fun loaded new => new = loaded
  assign := Tables.assignUser
  insert := .insertUser
  update := .updateUser
  values := fun row =>
    if row.country.length ≤ 2 then .ok ()
    else .error (.database "value too long for type character varying(2)")
  foreign := fun t row => tenantExists "fk_identity_users_tenant" t row.tenantId
  noted := .user
  assign_of_merge := fun edit => by rw [← edit]; simp [Tables.assignUser]

def tenantMapper : Mapper TenantRecord String where
  table := "tenants"
  rows := (·.tenants)
  sees := fun _ scope row => scope.sees row.id
  key := (·.id)
  loaded := (·.tenants)
  remember := fun tenants memo => { memo with tenants }
  merge := fun loaded new stored =>
    { stored with
      name := merged loaded.name new.name stored.name
      status := merged loaded.status new.status stored.status
      ownerUserId := merged loaded.ownerUserId new.ownerUserId stored.ownerUserId
      suspensionReason := merged loaded.suspensionReason new.suspensionReason stored.suspensionReason
      suspendedAt := merged loaded.suspendedAt new.suspendedAt stored.suspendedAt
      archivedAt := merged loaded.archivedAt new.archivedAt stored.archivedAt
      updatedAt := merged loaded.updatedAt new.updatedAt stored.updatedAt }
  clean := fun loaded new => new = loaded
  assign := Tables.assignTenant
  insert := .insertTenant
  update := .updateTenant
  foreign := fun t row =>
    optionalUserExists "tenants_owner_user_id_fkey" t row.ownerUserId
  noted := .tenant
  assign_of_merge := fun edit => by rw [← edit]; simp [Tables.assignTenant]

/-- The policy of `identity_sessions` looks up the user of the session. -/
def sessionMapper : Mapper SessionRecord UUID where
  table := "identity_sessions"
  rows := (·.identitySessions)
  sees := fun t scope row =>
    t.identityUsers.any fun user => user.id == row.userId && scope.sees user.tenantId
  key := (·.id)
  loaded := (·.sessions)
  remember := fun sessions memo => { memo with sessions }
  merge := fun loaded new stored =>
    { stored with
      status := merged loaded.status new.status stored.status
      revokedAt := merged loaded.revokedAt new.revokedAt stored.revokedAt
      revokedReason := merged loaded.revokedReason new.revokedReason stored.revokedReason }
  clean := fun loaded new => new = loaded
  assign := Tables.assignSession
  insert := .insertSession
  update := .updateSession
  foreign := fun t row => userExists "identity_sessions_user_id_fkey" t row.userId
  noted := .session
  assign_of_merge := fun edit => by rw [← edit]; simp [Tables.assignSession]

def invitationMapper : Mapper InvitationRecord UUID where
  table := "identity_invitations"
  rows := (·.invitations)
  sees := fun _ scope row => scope.sees row.tenantId
  key := (·.id)
  loaded := (·.invitations)
  remember := fun invitations memo => { memo with invitations }
  merge := fun loaded new stored =>
    { stored with
      status := merged loaded.status new.status stored.status
      acceptedAt := merged loaded.acceptedAt new.acceptedAt stored.acceptedAt
      revokedAt := merged loaded.revokedAt new.revokedAt stored.revokedAt }
  clean := fun loaded new => new = loaded
  assign := Tables.assignInvitation
  insert := .insertInvitation
  update := .updateInvitation
  foreign := fun t row =>
    (userExists "identity_invitations_invited_by_fkey" t row.invitedBy).bind fun _ =>
      tenantExists "fk_identity_invitations_tenant" t row.tenantId
  noted := .invitation
  assign_of_merge := fun edit => by rw [← edit]; simp [Tables.assignInvitation]

def delegationMapper : Mapper DelegationRecord UUID where
  table := "identity_delegations"
  rows := (·.delegations)
  sees := fun _ scope row => scope.sees row.tenantId
  key := (·.id)
  loaded := (·.delegations)
  remember := fun delegations memo => { memo with delegations }
  merge := fun loaded new stored =>
    { stored with
      status := merged loaded.status new.status stored.status
      expiresAt := merged loaded.expiresAt new.expiresAt stored.expiresAt
      revokedAt := merged loaded.revokedAt new.revokedAt stored.revokedAt
      revokedBy := merged loaded.revokedBy new.revokedBy stored.revokedBy
      updatedAt := merged loaded.updatedAt new.updatedAt stored.updatedAt }
  clean := fun loaded new => new = loaded
  assign := Tables.assignDelegation
  insert := .insertDelegation
  update := .updateDelegation
  foreign := fun t row =>
    (tenantExists "identity_delegations_tenant_id_fkey" t row.tenantId).bind fun _ =>
      (userExists "identity_delegations_delegator_user_id_fkey" t row.delegatorUserId).bind fun _ =>
        (userExists "identity_delegations_delegate_user_id_fkey" t row.delegateUserId).bind fun _ =>
          optionalUserExists "identity_delegations_revoked_by_fkey" t row.revokedBy
  noted := .delegation
  assign_of_merge := fun edit => by rw [← edit]; simp [Tables.assignDelegation]

/-! ## Repositories -/

namespace UserRepository

/-- `add`: the row takes its times from the server, and the other columns that the
repository leaves out are null. -/
def add (user : UserRecord) : Request UserRecord :=
  userMapper.add fun view =>
    { user with
      suspensionReason := none
      lastLoginAt := none
      createdAt := .now view.startedAt
      updatedAt := .now view.startedAt }

/-- `get`. -/
def get (userId : String) : Request (Option UserRecord) :=
  match UUID.parse userId with
  | none => pure none
  | some key => userMapper.get key

/-- `get_by_email`, for a `str.lower`. Postgres does not read an email with U+0000. -/
def getByEmail (lower : String → String) (email : String) : Request (Option UserRecord) := do
  Program.ofExcept (bindTexts [lower (stripText email)])
  userMapper.scalarOneOrNone (·.email = lower (stripText email))

/-- `get_by_identity_subject`. -/
def getByIdentitySubject (subject : String) : Request (Option UserRecord) :=
  userMapper.scalarOneOrNone (·.identitySubject = subject)

/-- `update`. -/
def update (user : UserRecord) (expectedVersion : Int) : Request UserRecord := do
  match ← userMapper.get user.id with
  | none => throw (stale user)
  | some record =>
      if record.version ≠ expectedVersion then throw (stale user)
      userMapper.flush record
        { record with
          roles := user.roles
          accountStatus := user.accountStatus
          suspensionReason := user.suspensionReason
          lastLoginAt := user.lastLoginAt
          updatedAt := user.updatedAt
          version := expectedVersion + 1 }
where
  stale (user : UserRecord) : PyExc := .optimisticLock ("stale version for user " ++ user.id.str)

end UserRepository

namespace SessionRepository

/-- `add`. -/
def add (session : SessionRecord) : Request SessionRecord :=
  sessionMapper.add fun view =>
    { session with createdAt := .now view.startedAt, revokedAt := none, revokedReason := none }

/-- `get_by_refresh_hash`. -/
def getByRefreshHash (refreshHash : String) : Request (Option SessionRecord) :=
  sessionMapper.scalarOneOrNone (·.refreshTokenHash = refreshHash)

/-- `update`. -/
def update (session : SessionRecord) : Request SessionRecord := do
  match ← sessionMapper.get session.id with
  | none => throw (notFoundError "session" session.id.str)
  | some record =>
      sessionMapper.flush record
        { record with
          status := session.status
          revokedAt := session.revokedAt
          revokedReason := session.revokedReason }

/-- The loop of `revoke_all_active_for_user`, and its flush. -/
def revokeEach (reason : String) (now : DateTime) : List SessionRecord → Request Unit
  | [] => pure ()
  | record :: records => do
      let _ ← sessionMapper.flush record (record.revoke reason now)
      revokeEach reason now records

/-- `revoke_all_active_for_user`. -/
def revokeAllActiveForUser (userId : UUID) (reason : String) : Request Unit := do
  let records ← sessionMapper.select fun row => row.userId = userId && row.status = .active
  let now ← choose fun env => env.now
  revokeEach reason now records

end SessionRepository

namespace InvitationRepository

/-- `add`. -/
def add (invitation : Invitation) : Request InvitationRecord := do
  let row ← Program.ofExcept invitation.toRecord
  invitationMapper.add fun view => row view.startedAt

/-- `get`. -/
def get (invitationId : String) : Request (Option InvitationRecord) :=
  match UUID.parse invitationId with
  | none => pure none
  | some key => invitationMapper.get key

/-- `get_by_token_hash`. -/
def getByTokenHash (tokenHash : String) : Request (Option InvitationRecord) :=
  invitationMapper.scalarOneOrNone (·.tokenHash = tokenHash)

/-- `list_for_tenant`. -/
def listForTenant (tenantId : String) : Request (List InvitationRecord) := do
  let records ← invitationMapper.select (·.tenantId = tenantId)
  pure (newestFirst (·.createdAt) records)

/-- `get_pending_by_email`, for a `str.lower`. -/
def getPendingByEmail (lower : String → String) (tenantId email : String) :
    Request (Option InvitationRecord) :=
  invitationMapper.scalarOneOrNone fun row =>
    row.tenantId = tenantId && row.invitedEmail = lower (stripText email) && row.status = .pending

/-- `update`. -/
def update (invitation : InvitationRecord) : Request InvitationRecord := do
  match ← invitationMapper.get invitation.id with
  | none => throw (notFoundError "invitation" invitation.id.str)
  | some record =>
      invitationMapper.flush record
        { record with
          status := invitation.status
          acceptedAt := invitation.acceptedAt
          revokedAt := invitation.revokedAt }

end InvitationRepository

namespace TenantRepository

/-- `add`. -/
def add (tenant : TenantRecord) : Request TenantRecord :=
  tenantMapper.add fun view =>
    { tenant with
      suspensionReason := none
      suspendedAt := none
      archivedAt := none
      createdAt := .now view.startedAt
      updatedAt := .now view.startedAt }

/-- `get`. -/
def get (tenantId : String) : Request (Option TenantRecord) := tenantMapper.get tenantId

/-- `list_all`. -/
def listAll : Request (List TenantRecord) := do
  let records ← tenantMapper.select fun _ => true
  pure (newestFirst (·.createdAt) records)

/-- `update`. -/
def update (tenant : TenantRecord) : Request TenantRecord := do
  match ← tenantMapper.get tenant.id with
  | none => throw (notFoundError "tenant" tenant.id)
  | some record =>
      tenantMapper.flush record
        { record with
          name := tenant.name
          status := tenant.status
          ownerUserId := tenant.ownerUserId
          suspensionReason := tenant.suspensionReason
          suspendedAt := tenant.suspendedAt
          archivedAt := tenant.archivedAt
          updatedAt := tenant.updatedAt }

end TenantRepository

namespace DelegationRepository

/-- `add`. -/
def add (delegation : Delegation) : Request Delegation := do
  let row ← Program.ofExcept delegation.toRecord
  let record ← delegationMapper.add fun view => row view.startedAt
  pure (DelegationRecord.delegation record)

/-- `get`. -/
def get (delegationId : String) : Request (Option Delegation) :=
  match UUID.parse delegationId with
  | none => pure none
  | some key => do
      let record ← delegationMapper.get key
      pure (record.map DelegationRecord.delegation)

/-- `list_for_tenant`. -/
def listForTenant (tenantId : String) : Request (List Delegation) := do
  let records ← delegationMapper.select (·.tenantId = tenantId)
  pure ((newestFirst (·.createdAt) records).map DelegationRecord.delegation)

/-- `list_active_for_delegate`. -/
def listActiveForDelegate (tenantId : String) (delegateUserId : UUID) :
    Request (List Delegation) := do
  let records ← delegationMapper.select fun row =>
    row.tenantId = tenantId && row.delegateUserId = delegateUserId && row.status = .active
  pure (records.map DelegationRecord.delegation)

/-- `update`. -/
def update (delegation : Delegation) : Request Delegation := do
  match ← delegationMapper.get delegation.id with
  | none => throw (notFoundError "delegation" delegation.id.str)
  | some record =>
      let revokedBy ← Program.ofExcept (toOptionalUuid delegation.revokedBy)
      let record ← delegationMapper.flush record
        { record with
          status := delegation.status
          expiresAt := delegation.expiresAt
          revokedAt := delegation.revokedAt
          revokedBy
          updatedAt := delegation.updatedAt }
      pure (DelegationRecord.delegation record)

end DelegationRepository
end LandVault.Identity
