import LandVault.Identity.Invitations
import LandVault.Rows

/-!
# What a client can make the operations of `AuthService` raise

The operations answer, or end with an error that the endpoint answers, whatever strings
they are given: emails, countries and names are checked, and the `ValueError` of a value
object is turned into a 400 or a 401. A login hands on the `ValueError` of an email that
does not parse, and a redemption the `UnicodeEncodeError` of a token with a lone surrogate,
which it hashes before anything else. Registrations and redemptions end in a login as well,
with an email that has been parsed before.
-/

set_option autoImplicit false

namespace LandVault

open Kernel Identity Library.Programs Library.ReadCommitted Python

/-- An answer of the endpoint, an error of a port, or a clock without room for the
lifetime of a refresh token. -/
def Translated (choices : List (Choice Env)) (e : PyExc) : Prop :=
  e.isHttp = true ∨ FromPort e ∨
    e = .overflow ∧ ∃ choice ∈ choices, choice.env.now.addDays refreshTokenTtlDays = none

section Rules

variable {ι α : Type} [DecidableEq ι] {platform : IdentityPlatform} {ctx : ExecutionContext}
  {C : Choice Env → Prop} {index : ι}

variable {X : PyExc → Prop} {db : Database ι} {s : DbSession} {Q : α → Prop}

end Rules

/-! ## Errors that are not translated -/

/-- Run by itself on the tables, the operation ends with an answer or with an error that is
translated or comes from a port. -/
def Total (platform : IdentityPlatform) (t : Tables) (ctx : ExecutionContext)
    (request : AuthRequest) : Prop :=
  ∀ clock choices db s e, play (postgres Unit) () choices { tables := t, clock } freshSession
    (getDbSession ctx (request.serve platform ctx)) = some (.error e, db, s) → Translated choices e

end LandVault
