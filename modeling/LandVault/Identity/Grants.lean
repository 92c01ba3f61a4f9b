import LandVault.Identity.Turns

/-!
# Where roles and delegations come from

A user keeps the roles that they have, for no request takes one away. A user who is new
has the default role, or that of an invitation; and one who is not can only have been
assigned another one. A delegation that is new was granted by the caller of the request
that has added it.
-/

set_option autoImplicit false

namespace LandVault

open Kernel Identity Library.ReadCommitted Python Relation

/-- The context of a caller whose token was verified, at this moment. -/
def Tables.context (t : Tables) (platform : IdentityPlatform) (now : DateTime) (claims : Claims) :
    ExecutionContext :=
  contextOf claims (t.hydrated platform now claims.subject)

/-- The request assigns the user a role that they lack: its target names them, in a
spelling that is not the caller's own identifier, and the caller passes the gate and has
the rank of the role. -/
structure Assigns (platform : IdentityPlatform) (t : Tables) (request : IdentityRequest)
    (claims : Claims) (user : UserRecord) (role : String) : Prop where
  asks : ∃ target, request = .admin (some claims) (.assignRole target role) ∧
    UUID.parse target = some user.id ∧ ∃ now, target ≠ (t.context platform now claims).principalId ∧
      (t.context platform now claims).hasAnyRole governanceRoles = true ∧
      roleRank role ≤ highestRank (t.context platform now claims).roles
  known : role ∈ allRoles
  lacks : role ∉ user.roles

/-- What a request comes with. -/
def Identity.IdentityRequest.presents (platform : IdentityPlatform) : IdentityRequest → Presented
  | .auth _ request => request.presents platform
  | _ => {}

/-- How a user has come to their roles in one request. -/
inductive Descends (platform : IdentityPlatform) (t : Tables) (request : IdentityRequest)
    (user' : UserRecord) : Prop where
  | kept {user : UserRecord} (stored : user ∈ t.identityUsers) (id : user'.id = user.id)
      (roles : user'.roles = user.roles)
  | assigned {claims : Claims} {user : UserRecord} {role : String}
      (stored : user ∈ t.identityUsers) (id : user'.id = user.id)
      (assigns : Assigns platform t request claims user role)
      (roles : user'.roles = user.roles ++ [role])
  | registered (registers : (request.presents platform).registers = true)
      (fresh : ∀ user ∈ t.identityUsers, user.id ≠ user'.id)
      (roles : user'.roles = [Role.generalUser.value])
  | redeemed {invitation : InvitationRecord} {inviter : UserRecord}
      (fresh : ∀ user ∈ t.identityUsers, user.id ≠ user'.id)
      (presents : (request.presents platform).invitation = some invitation.tokenHash)
      (vouched : Vouched t invitation inviter) (roles : user'.roles = [invitation.role])

section Steps

variable {platform : IdentityPlatform} {t u : Tables} {request : IdentityRequest}

/-- Only the identifier and the roles count. -/
theorem Descends.congr {user user' : UserRecord} (descends : Descends platform t request user)
    (id : user'.id = user.id) (roles : user'.roles = user.roles) :
    Descends platform t request user' := by
  cases descends with
  | kept stored sameId sameRoles => exact .kept stored (id.trans sameId) (roles.trans sameRoles)
  | assigned stored sameId assigns sameRoles =>
      exact .assigned stored (id.trans sameId) assigns (roles.trans sameRoles)
  | registered registers fresh sameRoles =>
      exact .registered registers (fun user stored => id ▸ fresh user stored) (roles.trans sameRoles)
  | redeemed fresh presents vouched sameRoles =>
      exact .redeemed (fun user stored => id ▸ fresh user stored) presents vouched
        (roles.trans sameRoles)

/-! ## Users -/

/-- Every user is still there, and every user is accounted for. -/
structure Succeeds (platform : IdentityPlatform) (t : Tables) (request : IdentityRequest)
    (u : Tables) : Prop where
  persists : ∀ user ∈ t.identityUsers, ∃ user' ∈ u.identityUsers, user'.id = user.id
  descends : ∀ user' ∈ u.identityUsers, Descends platform t request user'

theorem Succeeds.of_users (same : u.identityUsers = t.identityUsers) :
    Succeeds platform t request u where
  persists _ stored := ⟨_, same ▸ stored, rfl⟩
  descends _ stored := .kept (same ▸ stored) rfl rfl

theorem Succeeds.insertUser (succeeds : Succeeds platform t request u) {row : UserRecord}
    (descends : Descends platform t request row) :
    Succeeds platform t request (u.apply (.insertUser row)) where
  persists user stored := by
    obtain ⟨user', stored', id⟩ := succeeds.persists user stored
    exact ⟨user', List.mem_append_left _ stored', id⟩
  descends user' stored := by
    rcases List.mem_append.mp stored with old | new
    · exact succeeds.descends user' old
    · cases List.mem_singleton.mp new
      exact descends

theorem Succeeds.updateUser (succeeds : Succeeds platform t request u) {user new : UserRecord}
    (descends : ∀ user', user'.id = new.id → user'.roles = new.roles →
      Descends platform t request user') :
    Succeeds platform t request (u.apply (.updateUser user new)) where
  persists other stored := by
    obtain ⟨other', stored', id⟩ := succeeds.persists other stored
    refine ⟨_, List.mem_map_of_mem stored', ?_⟩
    split <;> exact id
  descends user' stored := by
    obtain ⟨other, stored', rfl⟩ := List.mem_map.mp stored
    split
    · rename_i same
      exact descends _ same rfl
    · exact succeeds.descends other stored'

/-- An identifier that is new to the tables of a chain is new to those it started on. -/
theorem Succeeds.fresh (succeeds : Succeeds platform t request u) {id : UUID}
    (fresh : ∀ user ∈ u.identityUsers, user.id ≠ id) : ∀ user ∈ t.identityUsers, user.id ≠ id := by
  intro user stored same
  obtain ⟨user', stored', id'⟩ := succeeds.persists user stored
  exact fresh user' stored' (id'.trans same)

theorem Enrolled.succeeds (enrolled : Enrolled (request.presents platform) t u) : Succeeds platform t request u := by
  induction enrolled with
  | refl => exact .of_users rfl
  | tail _ write ih =>
      obtain ⟨w, enrols, rfl⟩ := write
      cases enrols with
      | register registers fresh roles =>
          exact ih.insertUser (.registered registers (ih.fresh fresh) roles)
      | redeem vouched presented fresh roles _ =>
          exact ih.insertUser (.redeemed (ih.fresh fresh) presented vouched roles)
      | stamp stored id roles _ =>
          exact ih.updateUser fun user' id' roles' =>
            (ih.descends _ stored).congr (id'.trans id) (roles'.trans roles)
      | addTenant | nameOwner | accept _ | withdraw _ | issue _ | revoke _ =>
          exact ⟨ih.persists, ih.descends⟩

theorem Caller.of_governance {token : Option Claims} {ctx : ExecutionContext} {roles : List String}
    (caller : Caller platform t token ctx) (admitted : ctx.hasAnyRole roles = true) :
    ∃ claims now, token = some claims ∧ ctx = t.context platform now claims := by
  cases caller with
  | anonymous => simp [ExecutionContext.hasAnyRole, Identity.anonymous] at admitted
  | token claims now => exact ⟨claims, now, rfl, rfl⟩

theorem Administered.succeeds {token : Option Claims} {call : AdminRequest}
    {ctx : ExecutionContext} (caller : Caller platform t token ctx)
    (admitted : ctx.hasAnyRole call.roles = true) (administered : Administered ctx call t u) :
    Succeeds platform t (.admin token call) u := by
  rcases administered with rfl | ⟨w, administers, rfl⟩
  · exact .of_users rfl
  cases administers with
  | @assignRole target role user now stored named other known ranked =>
      obtain ⟨claims, now', rfl, rfl⟩ := caller.of_governance admitted
      refine Succeeds.updateUser (.of_users rfl) fun user' id roles => ?_
      by_cases holds : role ∈ user.roles
      · exact .kept stored id (by simpa [UserRecord.withRole, holds] using roles)
      · refine .assigned stored id ⟨⟨target, rfl, named, now', other, admitted, ranked⟩, known, holds⟩ ?_
        simpa [UserRecord.withRole, holds] using roles
  | _ => exact .of_users rfl

/-- **The step lemma for users.** -/
theorem Step.succeeds (step : Step platform t request u) :
    Succeeds platform t request u := by
  cases step with
  | nothing => exact .of_users rfl
  | admin caller _ admitted stages => exact stages.succeeds caller admitted
  | auth _ stages => exact Enrolled.succeeds stages
  | suspend stages =>
      rcases stages with rfl | ⟨user, new, stored, id, roles, rfl⟩
      · exact .of_users rfl
      · exact Succeeds.updateUser (.of_users rfl) fun user' id' roles' =>
          .kept stored (id'.trans id) (roles'.trans roles)

/-- What a request does to the roles of a user who is there. -/
theorem Descends.of_stored (unique : t.keys.Nodup) {user user' : UserRecord}
    (descends : Descends platform t request user') (stored : user ∈ t.identityUsers)
    (id : user'.id = user.id) :
    user'.roles = user.roles ∨
      ∃ claims role, Assigns platform t request claims user role ∧ user'.roles = user.roles ++ [role] := by
  have named : ∀ {other}, other ∈ t.identityUsers → user'.id = other.id → other = user :=
    fun stored' id' => List.inj_on_of_nodup_map (Entity.keys_nodup .user unique) stored' stored
      (id'.symm.trans id)
  cases descends with
  | kept stored' id' roles =>
      cases named stored' id'
      exact .inl roles
  | assigned stored' id' assigns roles =>
      cases named stored' id'
      exact .inr ⟨_, _, assigns, roles⟩
  | registered _ fresh _ => exact absurd id.symm (fresh user stored)
  | redeemed fresh _ _ _ => exact absurd id.symm (fresh user stored)

/-- No request takes a role away. -/
theorem Step.grows (unique : t.keys.Nodup) (step : Step platform t request u) {user : UserRecord}
    (stored : user ∈ t.identityUsers) :
    ∃ user' ∈ u.identityUsers, user'.id = user.id ∧ ∀ role ∈ user.roles, role ∈ user'.roles := by
  obtain ⟨user', stored', id⟩ := step.succeeds.persists user stored
  refine ⟨user', stored', id, fun role holds => ?_⟩
  rcases (step.succeeds.descends user' stored').of_stored unique stored id with
    same | ⟨claims, granted, _, added⟩
  · exact same ▸ holds
  · exact added ▸ List.mem_append_left _ holds

/-! ## Delegations -/

/-- How a delegation has come to be there. -/
inductive Delegated (platform : IdentityPlatform) (t : Tables) (request : IdentityRequest)
    (row' : DelegationRecord) : Prop where
  | kept {row : DelegationRecord} (stored : row ∈ t.delegations) (grant : row.SameGrant row')
  | created {claims : Claims} {now : DateTime} {delegate : Str} {scope : String}
      {expiresAt : Option Str}
      (asks : request = .admin (some claims) (.createDelegation delegate row'.delegatedRoles scope expiresAt))
      (admitted : (t.context platform now claims).hasAnyRole governanceRoles = true)
      (ranked : highestRank row'.delegatedRoles ≤ highestRank (t.context platform now claims).roles)
      (delegator : UUID.parse (t.context platform now claims).principalId = some row'.delegatorUserId)

theorem Delegated.of_delegations (same : u.delegations = t.delegations) :
    ∀ row' ∈ u.delegations, Delegated platform t request row' :=
  fun _ stored => .kept (same ▸ stored) ⟨rfl, rfl, rfl, rfl, rfl⟩

theorem Enrolled.delegations {given : Presented} (enrolled : Enrolled given t u) :
    u.delegations = t.delegations := by
  induction enrolled with
  | refl => rfl
  | tail _ write ih =>
      obtain ⟨w, enrols, rfl⟩ := write
      cases enrols <;> exact ih

theorem Delegated.of_update {stored new : DelegationRecord} :
    ∀ row' ∈ (t.apply (.updateDelegation stored new)).delegations,
      Delegated platform t request row' := by
  intro row' member
  obtain ⟨row, member', rfl⟩ := List.mem_map.mp member
  refine .kept member' ?_
  split <;> exact ⟨rfl, rfl, rfl, rfl, rfl⟩

theorem Administered.delegated {token : Option Claims} {call : AdminRequest} {ctx : ExecutionContext}
    (caller : Caller platform t token ctx) (admitted : ctx.hasAnyRole call.roles = true)
    (administered : Administered ctx call t u) :
    ∀ row' ∈ u.delegations, Delegated platform t (.admin token call) row' := by
  rcases administered with rfl | ⟨w, administers, rfl⟩
  · exact .of_delegations rfl
  cases administers with
  | createDelegation known ranked grants tenant delegator =>
      obtain ⟨claims, now, rfl, rfl⟩ := caller.of_governance admitted
      subst grants
      intro row' member
      rcases List.mem_append.mp member with old | new
      · exact .kept old ⟨rfl, rfl, rfl, rfl, rfl⟩
      · cases List.mem_singleton.mp new
        exact .created rfl admitted ranked delegator
  | revokeDelegation | extendDelegation => exact .of_update
  | _ => exact .of_delegations rfl

/-- **The step lemma for delegations.** -/
theorem Step.delegated (step : Step platform t request u) :
    ∀ row' ∈ u.delegations, Delegated platform t request row' := by
  cases step with
  | nothing => exact .of_delegations rfl
  | admin caller _ admitted stages => exact stages.delegated caller admitted
  | auth _ stages => exact .of_delegations stages.delegations
  | suspend stages =>
      rcases stages with rfl | ⟨_, _, _, _, _, rfl⟩
      · exact .of_delegations rfl
      · exact .of_delegations rfl

/-! ## Callers -/

/-- A caller who passes a gate has a user who may act, and acts in the name of that user
with its roles and the delegated ones. -/
theorem Tables.context_user (unique : t.keys.Nodup) {now : DateTime} {claims : Claims}
    {roles : List String} (admitted : (t.context platform now claims).hasAnyRole roles = true) :
    ∃ user, t.MayAct claims.subject user ∧
      (t.context platform now claims).principalId = user.id.str ∧
      ∀ role ∈ (t.context platform now claims).roles, role ∈ user.roles ∨ t.Delegates now user role := by
  cases hydrated : t.hydrated platform now claims.subject with
  | none => simp [Tables.context, hydrated, contextOf, ExecutionContext.hasAnyRole] at admitted
  | some attrs =>
      obtain ⟨user, mayAct, exact, _⟩ :=
        (t.exact_hydrated platform unique now claims.subject).some_of hydrated
      obtain ⟨user', found, rfl⟩ := Option.map_eq_some_iff.mp hydrated
      cases (Tables.principal_eq_some unique).mpr mayAct ▸ found
      refine ⟨user, mayAct, ?_, fun role holds => ?_⟩
      · simp only [Tables.context, hydrated, contextOf, withDelegated]
        split <;> rfl
      · simp only [Tables.context, hydrated, contextOf] at holds
        exact (exact role).mp holds

end Steps
end LandVault
