import LandVault.Kernel.Postgres
import LandVault.Python.Values

/-!
# Roles, country codes and the authority of a principal

From `app/contexts/identity/domain/value_objects.py`, with the three checks that
the Registry, Spatial and Evidence services repeat: whether a resource is in the
caller's scope, whether the caller may change it, and which authority an audit
entry names.
-/

set_option autoImplicit false

namespace LandVault.Identity

open LandVault.Kernel LandVault.Python

/-! ## Roles -/

inductive Role where
  | generalUser | fieldAgent | communityValidator | governmentObserver | surveyor
  | surveyorPartner | licensedSurveyor | complianceOfficer | surveyorGeneral | superAdmin
  deriving DecidableEq

def Role.value : Role → String
  | .generalUser => "general_user"
  | .fieldAgent => "field_agent"
  | .communityValidator => "community_validator"
  | .governmentObserver => "government_observer"
  | .surveyor => "surveyor"
  | .surveyorPartner => "surveyor_partner"
  | .licensedSurveyor => "licensed_surveyor"
  | .complianceOfficer => "compliance_officer"
  | .surveyorGeneral => "surveyor_general"
  | .superAdmin => "super_admin"

/-- `GOVERNANCE_ROLES`, in the order of `sorted`. -/
def governanceRoles : List String :=
  [Role.complianceOfficer.value, Role.superAdmin.value, Role.surveyorGeneral.value]

/-! ## Country codes -/

/-- `_ISO_3166_RE.match`: two upper-case letters; the `$` of the pattern also
matches before a final newline. -/
def matchesIso3166 (value : String) : Bool :=
  match value.toList with
  | [a, b] => isLetter a && isLetter b
  | [a, b, '\n'] => isLetter a && isLetter b
  | _ => false
where
  isLetter (c : Char) : Bool := 'A' ≤ c && c ≤ 'Z'

/-- `CountryCode`. -/
structure CountryCode where
  value : String
  valid : matchesIso3166 value = true

def CountryCode.new (value : String) : Except PyExc CountryCode :=
  if valid : matchesIso3166 value = true then .ok ⟨value, valid⟩
  else .error (.value ("invalid country code: " ++ reprString value))

/-! ## Authority over a resource -/

/-- `_in_scope`. -/
def inScope (ctx : ExecutionContext) (resourceTenantId : String) : Bool :=
  some resourceTenantId == ctx.tenantId || ctx.hasAnyRole [Role.superAdmin.value]

theorem tenant_of_truthy {ctx : ExecutionContext} (tenanted : ¬ (!truthy ctx.tenantId) = true) :
    ctx.tenantId = some (ctx.tenantId.getD "") := by
  obtain ⟨tenantId, same, _⟩ := truthy_iff.mp (by simpa using tenanted)
  simp [same]

/-- `_can_mutate`, for a resource that the principal `createdBy` registered. -/
def canMutate (ctx : ExecutionContext) (createdBy : String) : Bool :=
  createdBy == ctx.principalId || ctx.hasAnyRole governanceRoles

/-- `_effective_authority`. -/
def effectiveAuthority (ctx : ExecutionContext) (createdBy : String) : String :=
  if createdBy == ctx.principalId then "creator"
  else
    match governanceRoles.filter fun role => ctx.roles.contains role with
    | [] => "unknown"
    | granted => "governance:" ++ ",".intercalate granted

end LandVault.Identity
