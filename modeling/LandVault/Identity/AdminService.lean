import LandVault.Identity.Repositories
import LandVault.Python.Isoformat

/-!
# Role assignment, invitations, tenants and delegations

`AdminService` (`app/contexts/identity/application/admin_service.py`). Rank bounds what
a caller may grant; every refusal of an operation that grants something is audited
before it is answered.
-/

set_option autoImplicit false

namespace LandVault.Identity

open Kernel Kernel.Audit Library.Programs Library.ReadCommitted Python

/-- What the driver stores of a time: it raises where UTC has no `datetime` for it. -/
def storedTime : ZonedTime → Except PyExc DateTime
  | .within time => .ok time
  | .early | .late => .error (.database "date value out of range")

/-- What the Identity context takes from outside, besides the audit log: `str.lower`;
`datetime.fromisoformat`, which reads more texts in some releases than the documentation
lists, and raises `ValueError` (`none`) or gives a time without a zone (`some none`) or one
with a zone; and the order in which `list` enumerates a set. The first two are as documented
in `Python.lower` and `Python.fromisoformat`. -/
structure IdentityPlatform extends Platform where
  lower : String → String
  fromisoformat : Str → Option (Option ZonedTime)
  arrange : List String → List String := id
  arrange_perm : ∀ elements, (arrange elements).Perm elements := by exact fun _ => .refl _

/-! ## Answers -/

/-- `_bad_request`. -/
def badRequest (detail : String) : PyExc := .http 400 detail

/-- `_conflict`. -/
def conflict (detail : String) : PyExc := .http 409 detail

def forbidden (detail : String) : PyExc := .http 403 detail

def notFound (detail : String) : PyExc := .http 404 detail

/-- `public_view`. -/
structure UserView where
  userId : String
  email : String
  fullName : String
  country : String
  tenantId : String
  organizationId : Option String
  roles : List String
  accountStatus : String
  createdAt : Timestamp
  lastLoginAt : Option DateTime

def UserRecord.publicView (user : UserRecord) : UserView where
  userId := user.id.str
  email := user.email
  fullName := user.fullName
  country := user.country
  tenantId := user.tenantId
  organizationId := user.organizationId
  roles := user.roles
  accountStatus := user.accountStatus.value
  createdAt := user.createdAt
  lastLoginAt := user.lastLoginAt

/-- `_invitation_summary`. -/
structure InvitationSummary where
  invitationId : String
  email : String
  role : String
  status : InvitationStatus
  expiresAt : DateTime
  createdAt : Timestamp

def invitationSummary (invitation : InvitationRecord) : InvitationSummary where
  invitationId := invitation.id.str
  email := invitation.invitedEmail
  role := invitation.role
  status := invitation.status
  expiresAt := invitation.expiresAt
  createdAt := invitation.createdAt

/-- The answer of `create_invitation`. -/
structure CreatedInvitation where
  invitationId : String
  email : String
  role : String
  expiresAt : DateTime
  token : String

/-- `_tenant_summary`. -/
structure TenantSummary where
  tenantId : String
  name : String
  status : TenantStatus
  ownerUserId : Option String
  suspensionReason : Option String
  createdAt : Timestamp
  updatedAt : Timestamp

def tenantSummary (tenant : TenantRecord) : TenantSummary where
  tenantId := tenant.id
  name := tenant.name
  status := tenant.status
  ownerUserId := tenant.ownerUserId.map UUID.str
  suspensionReason := tenant.suspensionReason
  createdAt := tenant.createdAt
  updatedAt := tenant.updatedAt

/-- `_delegation_summary`; `effective` is absent where it is not computed. -/
structure DelegationSummary where
  delegation : Delegation
  effective : Option Bool := none
  ineffectiveReason : Option String := none

/-- The summary with what `delegation_is_effective` says. -/
def effectiveSummary (delegation : Delegation) (delegator : Option UserRecord)
    (tenant : Option TenantRecord) (now : DateTime) : DelegationSummary where
  delegation := delegation
  effective := some (delegationIsEffective delegation delegator tenant now)
  ineffectiveReason := ineffectiveReason delegation delegator tenant now

/-! ## Roles -/

/-- `assign_role`. -/
def assignRole (platform : IdentityPlatform) (ctx : ExecutionContext) (targetUserId role : String) :
    Request UserView := do
  if !allRoles.contains role then throw (badRequest ("unknown role: " ++ role))
  if targetUserId = ctx.principalId then
    denied "cannot_change_own_role" (forbidden "cannot change your own role")
  if highestRank ctx.roles < highestRank [role] then
    denied "role_exceeds_assigner_rank" (forbidden "cannot grant a role higher than your own")
  match ← UserRepository.get targetUserId with
  | none => throw (notFound "user not found")
  | some user =>
      let now ← choose fun env => env.now
      let assigned ← Program.ofExcept (user.assignRole role now)
      let updated ← UserRepository.update assigned user.version
      let _ ← audit platform.toPlatform ctx
        { action := "identity.role.assigned"
          resourceType := "user"
          resourceId := some updated.id.str
          decision := some "PERMIT"
          payload := some <| .details
            [("previous_roles", .texts user.roles),
             ("new_role", .text role),
             ("assigned_by", .text ctx.principalId)] }
      pure updated.publicView
where
  denied (reason : String) (answer : PyExc) : Request Unit := do
    let _ ← audit platform.toPlatform ctx
      { action := "identity.role.assign_denied"
        resourceType := "user"
        resourceId := some targetUserId
        decision := some "DENY"
        payload := some <| .details [("reason", .text reason), ("role", .text role)] }
    throw answer

/-! ## Invitations -/

/-- `INVITATION_TTL_SECONDS`, in days. -/
def invitationTtlDays : Nat := 7

/-- `except ValueError as exc: raise _bad_request(str(exc))`. -/
def orBadRequest {α : Type} : Except PyExc α → Request α
  | .ok value => pure value
  | .error (.value message) => throw (badRequest message)
  | .error error => throw error

/-- `datetime.now(UTC) + timedelta(...)`, of a number of days. -/
def expiryAfter (days : Nat) : Request DateTime := do
  let now ← choose fun env => env.now
  match now.addDays days with
  | some time => pure time
  | none => throw .overflow

/-- `create_invitation`. -/
def createInvitation (platform : IdentityPlatform) (ctx : ExecutionContext) (email role : String) :
    Request CreatedInvitation := do
  if !allRoles.contains role then throw (badRequest ("unknown role: " ++ role))
  let normalizedEmail ← orBadRequest (parseEmail platform.lower email)
  if highestRank ctx.roles < highestRank [role] then do
    let _ ← audit platform.toPlatform ctx
      { action := "identity.invitation.denied"
        resourceType := "invitation"
        decision := some "DENY"
        payload := some <| .details
          [("reason", .text "role_exceeds_inviter_rank"),
           ("role", .text role),
           ("email", .text normalizedEmail)] }
    throw (forbidden "cannot invite a role higher than your own")
  if (← UserRepository.getByEmail platform.lower normalizedEmail).isSome then
    throw (conflict "Email already registered")
  if !truthy ctx.tenantId then throw (badRequest "caller has no tenant to invite into")
  let tenantId := ctx.tenantId.getD ""
  if (← InvitationRepository.getPendingByEmail platform.lower tenantId normalizedEmail).isSome then
    throw (conflict "An invitation is already pending for this email")
  let token ← choose fun env => env.token
  let expiresAt ← expiryAfter invitationTtlDays
  let (uuid4, now) ← choose fun env => (env.uuid, env.now)
  let invitation ← InvitationRepository.add
    { id := uuid4
      tenantId
      invitedEmail := normalizedEmail
      role
      invitedBy := ctx.principalId
      tokenHash := platform.sha256 token
      expiresAt
      createdAt := .clock now }
  let _ ← audit platform.toPlatform ctx
    { action := "identity.invitation.created"
      resourceType := "invitation"
      resourceId := some invitation.id.str
      decision := some "PERMIT"
      payload := some <| .details [("email", .text normalizedEmail), ("role", .text role)] }
  pure { invitationId := invitation.id.str, email := invitation.invitedEmail
         role := invitation.role, expiresAt := invitation.expiresAt, token }

/-- `list_invitations`. -/
def listInvitations (ctx : ExecutionContext) : Request (List InvitationSummary) := do
  if !truthy ctx.tenantId then return []
  let invitations ← InvitationRepository.listForTenant (ctx.tenantId.getD "")
  pure (invitations.map invitationSummary)

/-- `revoke_invitation`. -/
def revokeInvitation (platform : IdentityPlatform) (ctx : ExecutionContext)
    (invitationId : String) : Request InvitationSummary := do
  match ← InvitationRepository.get invitationId with
  | none => throw (notFound "invitation not found")
  | some invitation =>
      if !inScope ctx invitation.tenantId then throw (notFound "invitation not found")
      if invitation.status ≠ .pending then throw (conflict "invitation is not pending")
      let now ← choose fun env => env.now
      let invitation ← InvitationRepository.update (invitation.revoke now)
      let _ ← audit platform.toPlatform ctx
        { action := "identity.invitation.revoked"
          resourceType := "invitation"
          resourceId := some invitation.id.str
          decision := some "PERMIT"
          payload := some <| .details [("revoked_by", .text ctx.principalId)] }
      pure (invitationSummary invitation)

/-! ## Tenants -/

/-- `get_my_tenant`. -/
def getMyTenant (ctx : ExecutionContext) : Request TenantSummary := do
  if !truthy ctx.tenantId then throw (notFound "no tenant")
  match ← TenantRepository.get (ctx.tenantId.getD "") with
  | none => throw (notFound "no tenant")
  | some tenant => pure (tenantSummary tenant)

/-- `list_tenants`. -/
def listTenants : Request (List TenantSummary) := do
  let tenants ← TenantRepository.listAll
  pure (tenants.map tenantSummary)

/-- `get_tenant`. -/
def getTenant (tenantId : String) : Request TenantSummary := do
  match ← TenantRepository.get tenantId with
  | none => throw (notFound "tenant not found")
  | some tenant => pure (tenantSummary tenant)

/-- `except ValueError as exc: raise _conflict(str(exc))`. -/
def orConflict {α : Type} : Except PyExc α → Request α
  | .ok value => pure value
  | .error (.value message) => throw (conflict message)
  | .error error => throw error

/-- What `suspend_tenant`, `reactivate_tenant` and `archive_tenant` share: a change of
the tenant, and the action and payload of its entry. -/
def changeTenant (platform : IdentityPlatform) (ctx : ExecutionContext) (tenantId : String)
    (change : TenantRecord → DateTime → Except PyExc TenantRecord) (action : String)
    (payload : List (String × Detail)) : Request TenantSummary := do
  match ← TenantRepository.get tenantId with
  | none => throw (notFound "tenant not found")
  | some tenant =>
      let now ← choose fun env => env.now
      let changed ← orConflict (change tenant now)
      let tenant ← TenantRepository.update changed
      let _ ← audit platform.toPlatform ctx
        { action
          resourceType := "tenant"
          resourceId := some tenant.id
          decision := some "PERMIT"
          payload := some (.details payload) }
      pure (tenantSummary tenant)

/-- `suspend_tenant`. -/
def suspendTenant (platform : IdentityPlatform) (ctx : ExecutionContext)
    (tenantId reason : String) : Request TenantSummary :=
  changeTenant platform ctx tenantId (fun tenant now => tenant.suspend reason now)
    "identity.tenant.suspended" [("reason", .text reason), ("suspended_by", .text ctx.principalId)]

/-- `reactivate_tenant`. -/
def reactivateTenant (platform : IdentityPlatform) (ctx : ExecutionContext) (tenantId : String) :
    Request TenantSummary :=
  changeTenant platform ctx tenantId TenantRecord.reactivate "identity.tenant.reactivated"
    [("reactivated_by", .text ctx.principalId)]

/-- `archive_tenant`. -/
def archiveTenant (platform : IdentityPlatform) (ctx : ExecutionContext) (tenantId : String) :
    Request TenantSummary :=
  changeTenant platform ctx tenantId (fun tenant now => .ok (tenant.archive now))
    "identity.tenant.archived" [("archived_by", .text ctx.principalId)]

/-! ## Delegations -/

/-- The checks of an `expires_at`. -/
def parseExpiry (platform : IdentityPlatform) (expiresAt : Option Str) :
    Request (Option ZonedTime) :=
  match expiresAt with
  | none => pure none
  | some text =>
      match platform.fromisoformat text with
      | none => throw (badRequest "expires_at must be an ISO-8601 datetime")
      | some none => throw (.typeError "can't compare offset-naive and offset-aware datetimes")
      | some (some zoned) => do
          let now ← choose fun env => env.now
          if zoned.notAfter now then throw (badRequest "expires_at must be in the future")
          pure (some zoned)

/-- The `expires_at` of a row. -/
def storedExpiry : Option ZonedTime → Except PyExc (Option DateTime)
  | none => .ok none
  | some zoned => (storedTime zoned).map some

/-- `create_delegation`. -/
def createDelegation (platform : IdentityPlatform) (ctx : ExecutionContext)
    (delegateUserId : Str) (delegatedRoles : List String) (scope : String)
    (expiresAt : Option Str) : Request DelegationSummary := do
  if delegateUserId = Str.ofText ctx.principalId then throw (badRequest "cannot delegate to yourself")
  if delegatedRoles.isEmpty || delegatedRoles.any fun role => !allRoles.contains role then
    throw (badRequest "delegated_roles must be a non-empty list of known roles")
  if !validScopes.contains scope then throw (badRequest ("unknown scope: " ++ scope))
  let expiresDt ← parseExpiry platform expiresAt
  if !truthy ctx.tenantId then throw (badRequest "caller has no tenant to delegate within")
  let tenantId := ctx.tenantId.getD ""
  if highestRank ctx.roles < highestRank delegatedRoles then
    denied
      [("reason", .text "role_exceeds_delegator_rank"),
       ("delegated_roles", .texts delegatedRoles),
       ("delegate_user_id", .text (jsonbText delegateUserId))]
      (forbidden "cannot delegate a role higher than your own")
  match (← UserRepository.get (jsonbText delegateUserId)).filter fun user =>
      some user.tenantId == ctx.tenantId with
  | none =>
      denied
        [("reason", .text "delegate_not_found_in_tenant"),
         ("delegate_user_id", .text (jsonbText delegateUserId))]
        (notFound "user not found")
      throw (notFound "user not found")
  | some delegate =>
      if !delegate.canAuthenticate then throw (badRequest "delegate account is not active")
      let (uuid4, now) ← choose fun env => (env.uuid, env.now)
      let expiry ← Program.ofExcept (storedExpiry expiresDt)
      let delegation ← DelegationRepository.add
        { id := uuid4
          tenantId
          delegatorUserId := ctx.principalId
          delegateUserId := jsonbText delegateUserId
          delegatedRoles
          scope
          createdAt := .clock now
          updatedAt := .clock now
          expiresAt := expiry }
      let _ ← audit platform.toPlatform ctx
        { action := "identity.delegation.created"
          resourceType := "delegation"
          resourceId := some delegation.id.str
          decision := some "PERMIT"
          payload := some <| .details
            [("delegate_user_id", .text (jsonbText delegateUserId)),
             ("delegated_roles", .texts delegatedRoles),
             ("scope", .text scope),
             ("expires_at", .text (expiresAt.map jsonbText))] }
      pure { delegation }
where
  denied (payload : List (String × Detail)) (answer : PyExc) : Request Unit := do
    let _ ← audit platform.toPlatform ctx
      { action := "identity.delegation.denied"
        resourceType := "delegation"
        decision := some "DENY"
        payload := some (.details payload) }
    throw answer

/-- The loop of `list_delegations`. -/
def summarizeEach (tenant : Option TenantRecord) (now : DateTime) :
    List Delegation → Request (List DelegationSummary)
  | [] => pure []
  | delegation :: delegations => do
      let delegator ← UserRepository.get delegation.delegatorUserId
      let summaries ← summarizeEach tenant now delegations
      pure (effectiveSummary delegation delegator tenant now :: summaries)

/-- `list_delegations`. -/
def listDelegations (ctx : ExecutionContext) : Request (List DelegationSummary) := do
  if !truthy ctx.tenantId then return []
  let tenantId := ctx.tenantId.getD ""
  let tenant ← TenantRepository.get tenantId
  let delegations ← DelegationRepository.listForTenant tenantId
  let now ← choose fun env => env.now
  summarizeEach tenant now delegations

/-- The delegation of a request, if it is in the caller's scope. -/
def delegationInScope (ctx : ExecutionContext) (delegationId : String) : Request Delegation := do
  match ← DelegationRepository.get delegationId with
  | none => throw (notFound "delegation not found")
  | some delegation =>
      if inScope ctx delegation.tenantId then pure delegation
      else throw (notFound "delegation not found")

/-- The entry of a delegation that grants nothing any more. -/
def auditInvalidated (platform : IdentityPlatform) (ctx : ExecutionContext)
    (delegation : Delegation) (reason : Option String) : Request Unit := do
  let _ ← audit platform.toPlatform ctx
    { action := "identity.delegation.invalidated"
      resourceType := "delegation"
      resourceId := some delegation.id.str
      decision := some "DENY"
      payload := some <| .details [("reason", .text reason)] }
  pure ()

/-- `get_delegation`. -/
def getDelegation (platform : IdentityPlatform) (ctx : ExecutionContext) (delegationId : String) :
    Request DelegationSummary := do
  let delegation ← delegationInScope ctx delegationId
  let delegator ← UserRepository.get delegation.delegatorUserId
  let tenant ← TenantRepository.get delegation.tenantId
  let now ← choose fun env => env.now
  if !delegationIsEffective delegation delegator tenant now && delegation.status = .active then
    auditInvalidated platform ctx delegation (ineffectiveReason delegation delegator tenant now)
  pure (effectiveSummary delegation delegator tenant now)

/-- `revoke_delegation`. -/
def revokeDelegation (platform : IdentityPlatform) (ctx : ExecutionContext)
    (delegationId : String) : Request DelegationSummary := do
  let delegation ← delegationInScope ctx delegationId
  if delegation.status ≠ .active then throw (conflict "delegation is not active")
  let now ← choose fun env => env.now
  let delegation ← DelegationRepository.update (delegation.revoke ctx.principalId now)
  let _ ← audit platform.toPlatform ctx
    { action := "identity.delegation.revoked"
      resourceType := "delegation"
      resourceId := some delegation.id.str
      decision := some "PERMIT"
      payload := some <| .details [("revoked_by", .text ctx.principalId)] }
  pure { delegation }

/-- `extend_delegation`. -/
def extendDelegation (platform : IdentityPlatform) (ctx : ExecutionContext)
    (delegationId : String) (newExpiresAt : Option Str) : Request DelegationSummary := do
  let delegation ← delegationInScope ctx delegationId
  if delegation.status ≠ .active then throw (conflict "delegation is not active")
  let newDt ← parseExpiry platform newExpiresAt
  match (← UserRepository.get delegation.delegatorUserId).filter UserRecord.canAuthenticate with
  | none =>
      auditInvalidated platform ctx delegation "delegator_inactive"
      throw (conflict "delegator is no longer active; cannot extend")
  | some delegator =>
      if highestRank delegator.roles < highestRank delegation.delegatedRoles then
        auditInvalidated platform ctx delegation "authority_lost"
        throw (conflict "delegator no longer has sufficient authority; cannot extend")
      let now ← choose fun env => env.now
      let expiry ← Program.ofExcept (storedExpiry newDt)
      let delegation ← DelegationRepository.update (delegation.extend expiry now)
      let _ ← audit platform.toPlatform ctx
        { action := "identity.delegation.modified"
          resourceType := "delegation"
          resourceId := some delegation.id.str
          decision := some "PERMIT"
          payload := some <| .details
            [("new_expires_at", .text (newExpiresAt.map jsonbText)),
             ("extended_by", .text ctx.principalId)] }
      pure { delegation }

end LandVault.Identity
