import LandVault.Identity.AdminService

/-!
# From a token to an execution context

The context hydrators (`app/contexts/identity/context_hydration.py`) and the policy
enforcement point (`app/kernel/authorization/pep.py`). A verified token only proves its
subject; everything else about the caller is looked up on every request, in a
transaction of its own that is rolled back.
-/

set_option autoImplicit false

namespace LandVault.Identity

open Kernel Kernel.Audit Library.Programs Library.ReadCommitted Python

/-! ## Hydrators -/

/-- The attributes of a principal; `delegatedRoles` is absent when there are none. -/
structure Attributes where
  principalId : String
  email : String
  country : String
  tenantId : String
  organizationId : Option String
  roles : List String
  delegatedRoles : Option (List String) := none

/-- `_attrs_for`, of a user who can authenticate. -/
def attrsFor (user : UserRecord) : Attributes where
  principalId := user.id.str
  email := user.email
  country := user.country
  tenantId := user.tenantId
  organizationId := user.organizationId
  roles := user.roles

/-- The loop of `_resolve_delegated_roles`: the roles that effective delegations grant. -/
def grantEach (tenant : TenantRecord) (now : DateTime) : List Delegation → Request (List String)
  | [] => pure []
  | delegation :: delegations => do
      let delegator ← UserRepository.get delegation.delegatorUserId
      let granted ← grantEach tenant now delegations
      if delegationIsEffective delegation delegator (some tenant) now then
        pure (delegation.delegatedRoles ++ granted)
      else pure granted

/-- `_resolve_delegated_roles`: a set, without repetitions. -/
def resolveDelegatedRoles (user : UserRecord) (tenant : TenantRecord) :
    Request (List String) := do
  let active ← DelegationRepository.listActiveForDelegate tenant.id user.id
  if active.isEmpty then return []
  let now ← choose fun env => env.now
  let granted ← grantEach tenant now active
  pure granted.dedup

/-- The attributes of a user, with the roles that were delegated. -/
def withDelegated (platform : IdentityPlatform) (user : UserRecord) (delegated : List String) :
    Attributes :=
  if delegated.isEmpty then attrsFor user
  else
    { attrsFor user with
      roles := platform.arrange (user.roles ++ delegated).dedup
      delegatedRoles := some (delegated.insertionSort (· ≤ ·)) }

/-- `build_context_hydrator`, with or without the repositories of tenants and delegations. -/
def buildContextHydrator (platform : IdentityPlatform) (tenants delegations : Bool)
    (identitySubject : String) : Request (Option Attributes) := do
  match (← UserRepository.getByIdentitySubject identitySubject).filter UserRecord.canAuthenticate with
  | none => pure none
  | some user =>
      if !tenants then return some (attrsFor user)
      match (← TenantRepository.get user.tenantId).filter TenantRecord.isActive with
      | none => pure none
      | some tenant =>
          if !delegations then return some (attrsFor user)
          let delegated ← resolveDelegatedRoles user tenant
          pure (some (withDelegated platform user delegated))

/-- `build_production_context_hydrator`. -/
def buildProductionContextHydrator (platform : IdentityPlatform) (identitySubject : String) :
    Request (Option Attributes) := do
  setConfig .superAdmin
  match (← UserRepository.getByIdentitySubject identitySubject).filter UserRecord.canAuthenticate with
  | none =>
      rollback
      pure none
  | some user =>
      match (← TenantRepository.get user.tenantId).filter TenantRecord.isActive with
      | none =>
          rollback
          pure none
      | some tenant =>
          let delegated ← resolveDelegatedRoles user tenant
          rollback
          pure (some (withDelegated platform user delegated))

/-! ## The policy enforcement point -/

/-- What a verified access token says. -/
structure Claims where
  subject : String
  email : Option String := none

/-- `ANONYMOUS`. -/
def anonymous : ExecutionContext := { principalId := anonymousPrincipalId }

/-- The context of a caller whose attributes are known, or not. -/
def contextOf (claims : Claims) (attrs : Option Attributes) : ExecutionContext :=
  match attrs with
  | none => { principalId := claims.subject, email := claims.email }
  | some attrs =>
      { principalId := attrs.principalId
        email := attrs.email
        country := attrs.country
        tenantId := attrs.tenantId
        roles := attrs.roles
        delegatedRoles := attrs.delegatedRoles.getD [] }

/-- `_build_context_from_token`, of a token that was verified or is absent. -/
def currentContext (platform : IdentityPlatform) (token : Option Claims) :
    Request ExecutionContext :=
  match token with
  | none => pure anonymous
  | some claims => do
      let attrs ← buildProductionContextHydrator platform claims.subject
      pure (contextOf claims attrs)

/-- `require_auth`. -/
def requireAuth (ctx : ExecutionContext) : Request Unit :=
  if ctx.isAnonymous then throw (.http 401 "Not authenticated") else pure ()

/-- `repr` of a list of texts. -/
def reprStrings (texts : List String) : String :=
  "[" ++ ", ".intercalate (texts.map reprString) ++ "]"

/-- `require_role`. -/
def requireRole (platform : IdentityPlatform) (roles : List String) (ctx : ExecutionContext) :
    Request Unit := do
  requireAuth ctx
  if ctx.hasAnyRole roles then return ()
  let _ ← audit platform.toPlatform ctx
    { action := "authz.deny"
      resourceType := "role_gate"
      decision := some "DENY"
      payload := some <| .details
        [("required", .texts (platform.arrange roles)), ("actual", .texts ctx.roles)] }
  throw (forbidden ("requires one of roles: " ++ reprStrings (platform.arrange roles)))

end LandVault.Identity
