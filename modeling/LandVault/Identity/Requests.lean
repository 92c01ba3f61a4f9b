import LandVault.Identity.AuthService
import LandVault.Identity.Hydration

/-!
# The endpoints of the Identity context

`app/contexts/identity/api/auth_router.py` and `admin_router.py`. Every request first
gets its execution context, passes its gate, and then runs in its unit of work. No
endpoint suspends a user; `suspendUser` is an operator who does, through the aggregate
and the repository.
-/

set_option autoImplicit false

namespace LandVault.Identity

open Kernel Kernel.Audit Library.Programs Library.ReadCommitted Python

inductive AuthRequest where
  | register (email password fullName : String) (country : Option String)
  | login (email : String) (userAgent ip : Option String)
  | acceptInvitation (token : Str) (password fullName : String)
      (country userAgent ip : Option String)
  | acceptInvitationSupabase (token : Str) (fullName : String) (country : Option String)
  | refresh (refreshToken : String) (userAgent ip : Option String)
  | logout (refreshToken : Option String)
  | myTenant

inductive AdminRequest where
  | assignRole (userId role : String)
  | createInvitation (email role : String)
  | listInvitations
  | revokeInvitation (invitationId : String)
  | createDelegation (delegateUserId : Str) (delegatedRoles : List String) (scope : String)
      (expiresAt : Option Str)
  | listDelegations
  | getDelegation (delegationId : String)
  | revokeDelegation (delegationId : String)
  | extendDelegation (delegationId : String) (expiresAt : Option Str)
  | listTenants
  | getTenant (tenantId : String)
  | suspendTenant (tenantId reason : String)
  | reactivateTenant (tenantId : String)
  | archiveTenant (tenantId : String)

/-- A request with the token it carries, or what an operator does. -/
inductive IdentityRequest where
  | auth (token : Option Claims) (request : AuthRequest)
  | admin (token : Option Claims) (request : AdminRequest)
  | hydrate (identitySubject : String)
  | suspendUser (userId reason : String)

/-- What a request is answered with. -/
inductive IdentityAnswer where
  | tokens (response : TokenResponse)
  | user (view : UserView)
  | created (invitation : CreatedInvitation)
  | invitation (summary : InvitationSummary)
  | invitations (summaries : List InvitationSummary)
  | delegation (summary : DelegationSummary)
  | delegations (summaries : List DelegationSummary)
  | tenant (summary : TenantSummary)
  | tenants (summaries : List TenantSummary)
  | attributes (attrs : Option Attributes)
  | done

/-- What the service does for a request of `auth_router`. -/
def AuthRequest.serve (platform : IdentityPlatform) (ctx : ExecutionContext) :
    AuthRequest → Request IdentityAnswer
  | .register email password fullName country => do
      return .tokens (← Identity.registerLocal platform ctx email password fullName country)
  | .login email userAgent ip => do
      return .tokens (← Identity.loginLocal platform ctx email userAgent ip)
  | .acceptInvitation token password fullName country userAgent ip => do
      return .tokens (← Identity.acceptInvitation platform ctx token password fullName country userAgent ip)
  | .acceptInvitationSupabase token fullName country => do
      let user ← Identity.acceptInvitationSupabase platform ctx token ctx.principalId
        (ctx.email.getD "") fullName country
      return .user user.publicView
  | .refresh refreshToken userAgent ip => do
      return .tokens (← Identity.refresh platform ctx refreshToken userAgent ip)
  | .logout refreshToken => do
      Identity.logout platform ctx refreshToken
      return .done
  | .myTenant => do return .tenant (← Identity.getMyTenant ctx)

/-- The dependency of an endpoint of `auth_router`. -/
def AuthRequest.gate (ctx : ExecutionContext) : AuthRequest → Request Unit
  | .acceptInvitationSupabase _ _ _ | .logout _ | .myTenant => requireAuth ctx
  | _ => pure ()

/-- What the service does for a request of `admin_router`. -/
def AdminRequest.serve (platform : IdentityPlatform) (ctx : ExecutionContext) :
    AdminRequest → Request IdentityAnswer
  | .assignRole userId role => do return .user (← Identity.assignRole platform ctx userId role)
  | .createInvitation email role => do return .created (← Identity.createInvitation platform ctx email role)
  | .listInvitations => do return .invitations (← Identity.listInvitations ctx)
  | .revokeInvitation invitationId => do
      return .invitation (← Identity.revokeInvitation platform ctx invitationId)
  | .createDelegation delegateUserId delegatedRoles scope expiresAt => do
      return .delegation
        (← Identity.createDelegation platform ctx delegateUserId delegatedRoles scope expiresAt)
  | .listDelegations => do return .delegations (← Identity.listDelegations ctx)
  | .getDelegation delegationId => do return .delegation (← Identity.getDelegation platform ctx delegationId)
  | .revokeDelegation delegationId => do
      return .delegation (← Identity.revokeDelegation platform ctx delegationId)
  | .extendDelegation delegationId expiresAt => do
      return .delegation (← Identity.extendDelegation platform ctx delegationId expiresAt)
  | .listTenants => do return .tenants (← Identity.listTenants)
  | .getTenant tenantId => do return .tenant (← Identity.getTenant tenantId)
  | .suspendTenant tenantId reason => do
      return .tenant (← Identity.suspendTenant platform ctx tenantId reason)
  | .reactivateTenant tenantId => do return .tenant (← Identity.reactivateTenant platform ctx tenantId)
  | .archiveTenant tenantId => do return .tenant (← Identity.archiveTenant platform ctx tenantId)

/-- The roles of which an endpoint of `admin_router` requires one. -/
def AdminRequest.roles : AdminRequest → List String
  | .listTenants | .getTenant _ | .suspendTenant _ _ | .reactivateTenant _ | .archiveTenant _ =>
      [Role.superAdmin.value]
  | _ => governanceRoles

/-- What an operator does who suspends a user. -/
def suspendUser (userId reason : String) : Request IdentityAnswer := do
  match ← UserRepository.get userId with
  | none => throw (notFound "user not found")
  | some user =>
      let now ← choose fun env => env.now
      let user ← UserRepository.update (user.suspend reason now) user.version
      return .user user.publicView

/-- A request from its context to its answer. -/
def IdentityRequest.handle (platform : IdentityPlatform) : IdentityRequest → Request IdentityAnswer
  | .auth token request => do
      let ctx ← currentContext platform token
      request.gate ctx
      getDbSession ctx (request.serve platform ctx)
  | .admin token request => do
      let ctx ← currentContext platform token
      requireRole platform request.roles ctx
      getDbSession ctx (request.serve platform ctx)
  | .hydrate identitySubject => do
      return .attributes (← buildProductionContextHydrator platform identitySubject)
  | .suspendUser userId reason => getDbSession anonymous (Identity.suspendUser userId reason)

end LandVault.Identity
