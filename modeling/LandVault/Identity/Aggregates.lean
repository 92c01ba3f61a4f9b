import LandVault.Identity.Authority
import LandVault.Python.Datetime

/-!
# Users, tenants, invitations, delegations and sessions

The aggregates of `app/contexts/identity/domain` and their rows. An aggregate and its
row have the same columns, with identifiers and points in time kept as such; where an
aggregate holds a principal as the text that a caller gave, it is generic in it.

Rank orders the roles for the hierarchy checks, and `delegationIsEffective` says what
a delegation grants at a moment.
-/

set_option autoImplicit false

namespace LandVault.Identity

open LandVault.Kernel LandVault.Python

/-! ## Ranks -/

/-- `ALL_ROLES`. -/
def allRoles : List String :=
  [Role.generalUser, .fieldAgent, .communityValidator, .governmentObserver, .surveyor,
    .surveyorPartner, .licensedSurveyor, .complianceOfficer, .surveyorGeneral, .superAdmin].map
    Role.value

/-- `ROLE_RANK.get(role, 0)`. -/
def roleRank (role : String) : Int :=
  match role with
  | "field_agent" | "community_validator" | "government_observer" => 10
  | "surveyor" | "surveyor_partner" => 20
  | "licensed_surveyor" => 30
  | "compliance_officer" | "surveyor_general" => 40
  | "super_admin" => 100
  | _ => 0

/-- `highest_rank`. -/
def highestRank : List String → Int
  | [] => -1
  | role :: roles => roles.foldl (fun highest role => max highest (roleRank role)) (roleRank role)

/-! ## Emails -/

/-- `_EMAIL_RE.match`, of a text without a newline at its end. -/
def matchesEmail (value : String) : Bool :=
  match value.toList.splitOn '@' with
  | [name, domain] =>
      name != [] && name.all (!isSpace ·) && domain.all (!isSpace ·) &&
        domain.tail.dropLast.contains '.'
  | _ => false

/-- `Email.parse(raw).value`, for a `str.lower`. -/
def parseEmail (lower : String → String) (raw : String) : Except PyExc String :=
  let value := lower (stripText raw)
  if matchesEmail value then .ok value
  else .error (.value ("invalid email: " ++ reprString value))

/-! ## Users -/

inductive AccountStatus where
  | active | suspended | pending
  deriving DecidableEq

def AccountStatus.value : AccountStatus → String
  | .active => "active"
  | .suspended => "suspended"
  | .pending => "pending"

/-- `User`, and its row in `identity_users`. -/
structure UserRecord where
  id : UUID
  tenantId : String
  identitySubject : String := ""
  email : String := ""
  fullName : String := ""
  country : String := ""
  organizationId : Option String := none
  roles : List String := [Role.generalUser.value]
  accountStatus : AccountStatus := .active
  suspensionReason : Option String := none
  lastLoginAt : Option DateTime := none
  version : Int := 1
  createdAt : Timestamp := .now 0
  updatedAt : Timestamp := .now 0
  deriving DecidableEq

namespace UserRecord

/-- `User.new`, for an identifier of `uuid4`, the time, and a `str.lower`. -/
def new (lower : String → String) (id : UUID) (now : DateTime)
    (identitySubject email fullName country tenantId : String) : UserRecord :=
  { id, tenantId, identitySubject
    email := lower (stripText email)
    fullName := stripText fullName
    country := upper country
    createdAt := .clock now
    updatedAt := .clock now }

def canAuthenticate (user : UserRecord) : Bool := user.accountStatus == .active

def markLoggedIn (user : UserRecord) (now : DateTime) : UserRecord :=
  { user with lastLoginAt := some now, updatedAt := .clock now }

def suspend (user : UserRecord) (reason : String) (now : DateTime) : UserRecord :=
  { user with
    accountStatus := .suspended, suspensionReason := some reason, updatedAt := .clock now }

def assignRole (user : UserRecord) (role : String) (now : DateTime) : Except PyExc UserRecord :=
  if allRoles.contains role then
    .ok { user with
      roles := if user.roles.contains role then user.roles else user.roles ++ [role]
      updatedAt := .clock now }
  else .error (.value ("unknown role: " ++ role))

end UserRecord

/-! ## Tenants -/

inductive TenantStatus where
  | active | suspended | archived
  deriving DecidableEq

/-- `Tenant`, and its row in `tenants`. -/
structure TenantRecord where
  id : String
  name : String := ""
  ownerUserId : Option UUID := none
  status : TenantStatus := .active
  suspensionReason : Option String := none
  suspendedAt : Option Timestamp := none
  archivedAt : Option Timestamp := none
  createdAt : Timestamp := .now 0
  updatedAt : Timestamp := .now 0
  deriving DecidableEq

namespace TenantRecord

/-- `Tenant.new`, for an identifier of `uuid4` and the time. -/
def new (id : UUID) (now : DateTime) (name : String) : TenantRecord :=
  { id := id.str, name := stripText name, createdAt := .clock now, updatedAt := .clock now }

def isActive (tenant : TenantRecord) : Bool := tenant.status == .active

def suspend (tenant : TenantRecord) (reason : String) (now : DateTime) :
    Except PyExc TenantRecord :=
  if tenant.status = .archived then .error (.value "cannot suspend an archived tenant")
  else .ok { tenant with
    status := .suspended
    suspensionReason := some reason
    suspendedAt := some (.clock now)
    updatedAt := .clock now }

def reactivate (tenant : TenantRecord) (now : DateTime) : Except PyExc TenantRecord :=
  if tenant.status = .archived then .error (.value "cannot reactivate an archived tenant")
  else .ok { tenant with
    status := .active, suspensionReason := none, suspendedAt := none, updatedAt := .clock now }

def archive (tenant : TenantRecord) (now : DateTime) : TenantRecord :=
  { tenant with status := .archived, archivedAt := some (.clock now), updatedAt := .clock now }

end TenantRecord

/-! ## Invitations -/

inductive InvitationStatus where
  | pending | accepted | revoked
  deriving DecidableEq

/-- An invitation whose inviter is given as `P`. -/
structure InvitationOf (P : Type) where
  id : UUID
  tenantId : String
  invitedEmail : String
  role : String
  invitedBy : P
  tokenHash : String
  expiresAt : DateTime
  status : InvitationStatus := .pending
  createdAt : Timestamp
  acceptedAt : Option Timestamp := none
  revokedAt : Option Timestamp := none
  deriving DecidableEq

/-- `Invitation`. -/
abbrev Invitation := InvitationOf String

/-- `InvitationRecord`. -/
abbrev InvitationRecord := InvitationOf UUID

section

variable {P : Type}

def InvitationOf.isRedeemableAt (invitation : InvitationOf P) (when : DateTime) : Bool :=
  invitation.status == .pending && when.position < invitation.expiresAt.position

def InvitationOf.accept (invitation : InvitationOf P) (now : DateTime) : InvitationOf P :=
  { invitation with status := .accepted, acceptedAt := some (.clock now) }

def InvitationOf.revoke (invitation : InvitationOf P) (now : DateTime) : InvitationOf P :=
  { invitation with status := .revoked, revokedAt := some (.clock now) }

end

/-- The row that `add` makes of an invitation, for each start of its transaction. -/
def Invitation.toRecord (invitation : Invitation) : Except PyExc (Nat → InvitationRecord) :=
  (toUuid invitation.invitedBy).map fun invitedBy now =>
    { id := invitation.id
      tenantId := invitation.tenantId
      invitedEmail := invitation.invitedEmail
      role := invitation.role
      invitedBy
      tokenHash := invitation.tokenHash
      expiresAt := invitation.expiresAt
      status := invitation.status
      createdAt := .now now }

/-! ## Delegations -/

inductive DelegationStatus where
  | active | revoked
  deriving DecidableEq

/-- `VALID_SCOPES`. -/
def validScopes : List String := ["tenant_governance", "role_assignment", "invitation_management"]

/-- A delegation whose principals are given as `P`. -/
structure DelegationOf (P : Type) where
  id : UUID
  tenantId : String
  delegatorUserId : P
  delegateUserId : P
  delegatedRoles : List String
  scope : String
  status : DelegationStatus := .active
  createdAt : Timestamp
  updatedAt : Timestamp
  expiresAt : Option DateTime := none
  revokedAt : Option Timestamp := none
  revokedBy : Option P := none
  deriving DecidableEq

/-- `Delegation`. -/
abbrev Delegation := DelegationOf String

/-- `DelegationRecord`. -/
abbrev DelegationRecord := DelegationOf UUID

/-- `_delegation_from_record`. -/
def DelegationRecord.delegation (record : DelegationRecord) : Delegation :=
  { id := record.id
    tenantId := record.tenantId
    delegatorUserId := record.delegatorUserId.str
    delegateUserId := record.delegateUserId.str
    delegatedRoles := record.delegatedRoles
    scope := record.scope
    status := record.status
    createdAt := record.createdAt
    updatedAt := record.updatedAt
    expiresAt := record.expiresAt
    revokedAt := record.revokedAt
    revokedBy := record.revokedBy.map UUID.str }

/-- The row that `add` makes of a delegation, for each start of its transaction. -/
def Delegation.toRecord (delegation : Delegation) : Except PyExc (Nat → DelegationRecord) :=
  (toUuid delegation.delegatorUserId).bind fun delegatorUserId =>
    (toUuid delegation.delegateUserId).map fun delegateUserId now =>
      { id := delegation.id
        tenantId := delegation.tenantId
        delegatorUserId
        delegateUserId
        delegatedRoles := delegation.delegatedRoles
        scope := delegation.scope
        status := delegation.status
        createdAt := .now now
        updatedAt := .now now
        expiresAt := delegation.expiresAt }

def Delegation.revoke (delegation : Delegation) (revokedBy : String) (now : DateTime) :
    Delegation :=
  { delegation with
    status := .revoked
    revokedAt := some (.clock now)
    revokedBy := some revokedBy
    updatedAt := .clock now }

def Delegation.extend (delegation : Delegation) (expiresAt : Option DateTime) (now : DateTime) :
    Delegation :=
  { delegation with expiresAt, updatedAt := .clock now }

/-- `delegation_is_effective`: the reason why not, if it is not. -/
def ineffectiveReason (delegation : Delegation) (delegator : Option UserRecord)
    (tenant : Option TenantRecord) (now : DateTime) : Option String :=
  if delegation.status ≠ .active then some "revoked"
  else if delegation.expiresAt.any (·.position ≤ now.position) then some "expired"
  else
    match delegator with
    | none => some "delegator_inactive"
    | some delegator =>
        if !delegator.canAuthenticate then some "delegator_inactive"
        else if delegator.tenantId ≠ delegation.tenantId then some "tenant_mismatch"
        else if !tenant.any (·.isActive) then some "tenant_suspended"
        else if highestRank delegator.roles < highestRank delegation.delegatedRoles then
          some "authority_lost"
        else none

def delegationIsEffective (delegation : Delegation) (delegator : Option UserRecord)
    (tenant : Option TenantRecord) (now : DateTime) : Bool :=
  (ineffectiveReason delegation delegator tenant now).isNone

/-! ## Sessions -/

inductive SessionStatus where
  | active | revoked
  deriving DecidableEq

/-- `Session`, and its row in `identity_sessions`. -/
structure SessionRecord where
  id : UUID
  userId : UUID
  refreshTokenHash : String
  idpRefreshToken : String
  expiresAt : DateTime
  status : SessionStatus := .active
  createdAt : Timestamp
  rotatedFrom : Option UUID := none
  userAgent : Option String := none
  ipAddress : Option String := none
  revokedAt : Option Timestamp := none
  revokedReason : Option String := none
  deriving DecidableEq

def SessionRecord.isActiveAt (session : SessionRecord) (when : DateTime) : Bool :=
  session.status == .active && when.position < session.expiresAt.position

def SessionRecord.revoke (session : SessionRecord) (reason : String) (now : DateTime) :
    SessionRecord :=
  { session with status := .revoked, revokedAt := some (.clock now), revokedReason := some reason }

/-! ## Small facts -/

theorem roleRank_nonneg (role : String) : 0 ≤ roleRank role := by
  unfold roleRank
  split <;> decide

/-- The highest rank is at most a bound when every rank is. -/
theorem highestRank_le_iff {roles : List String} {bound : Int} (atLeast : -1 ≤ bound) :
    highestRank roles ≤ bound ↔ ∀ role ∈ roles, roleRank role ≤ bound := by
  have fold : ∀ (roles : List String) (start : Int),
      roles.foldl (fun highest role => max highest (roleRank role)) start ≤ bound ↔
        start ≤ bound ∧ ∀ role ∈ roles, roleRank role ≤ bound := by
    intro roles
    induction roles with
    | nil => simp
    | cons role roles ih =>
        intro start
        simp only [List.foldl_cons, ih, max_le_iff, List.forall_mem_cons, and_assoc]
  cases roles with
  | nil => simpa [highestRank] using atLeast
  | cons role roles => simp only [highestRank, fold, List.forall_mem_cons]

@[simp] theorem highestRank_singleton (role : String) : highestRank [role] = roleRank role := rfl

theorem roleRank_le_highestRank {role : String} {roles : List String} (member : role ∈ roles) :
    roleRank role ≤ highestRank roles := by
  have atLeast : -1 ≤ highestRank roles := by
    by_contra below
    cases roles with
    | nil => cases member
    | cons first rest =>
        have low : highestRank (first :: rest) ≤ -1 := by omega
        have bound := (highestRank_le_iff le_rfl).mp low first List.mem_cons_self
        have := roleRank_nonneg first
        omega
  exact (highestRank_le_iff atLeast).mp le_rfl role member

end LandVault.Identity
