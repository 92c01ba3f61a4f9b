import Mathlib.Data.List.Basic

/-!
# The execution context

Who a request runs for (`app/kernel/context.py`): the verified principal, with the
attributes that the modelled code reads. `delegatedRoles` is
`attributes["delegated_roles"]`, empty when absent.
-/

set_option autoImplicit false

namespace LandVault.Kernel

/-- `ANONYMOUS_PRINCIPAL_ID`. -/
def anonymousPrincipalId : String := "anonymous"

structure ExecutionContext where
  principalId : String
  email : Option String := none
  country : Option String := none
  tenantId : Option String := none
  roles : List String := []
  delegatedRoles : List String := []

namespace ExecutionContext

def isAnonymous (ctx : ExecutionContext) : Bool := ctx.principalId == anonymousPrincipalId

def hasAnyRole (ctx : ExecutionContext) (roles : List String) : Bool :=
  roles.any fun role => ctx.roles.contains role

end ExecutionContext
end LandVault.Kernel
