import LandVault.Identity.Staging

/-!
# What an administrator may write

`Administers` lists the writes of `AdminService`, each with what the service has checked
of the caller and of the tables before it. Every operation stages one of them or
nothing, and nothing at all where it answers with an error.
-/

set_option autoImplicit false

namespace LandVault

open Kernel Kernel.Audit Identity Library.Programs Library.ReadCommitted Python

/-! ## Writes -/

/-- The row of a user to whom a role was assigned. -/
def Identity.UserRecord.withRole (user : UserRecord) (role : String) (now : DateTime) : UserRecord :=
  { user with
    roles := if user.roles.contains role then user.roles else user.roles ++ [role]
    updatedAt := .clock now
    version := user.version + 1 }

/-- The columns of a delegation that are written once. -/
structure Identity.DelegationRecord.SameGrant (stored new : DelegationRecord) : Prop where
  id : new.id = stored.id
  tenantId : new.tenantId = stored.tenantId
  delegatorUserId : new.delegatorUserId = stored.delegatorUserId
  delegateUserId : new.delegateUserId = stored.delegateUserId
  delegatedRoles : new.delegatedRoles = stored.delegatedRoles

/-- The writes that `AdminService` may stage for a call, over the tables that its
transaction sees. -/
inductive Administers (ctx : ExecutionContext) (u : Tables) : AdminRequest → Write → Prop where
  | assignRole {target role : String} {user : UserRecord} {now : DateTime}
      (stored : user ∈ u.identityUsers) (named : UUID.parse target = some user.id)
      (other : target ≠ ctx.principalId) (known : role ∈ allRoles)
      (ranked : highestRank [role] ≤ highestRank ctx.roles) :
      Administers ctx u (.assignRole target role) (.updateUser user (user.withRole role now))
  | createInvitation {email role : String} {row : InvitationRecord}
      (known : role ∈ allRoles) (ranked : highestRank [role] ≤ highestRank ctx.roles)
      (grants : row.role = role) (tenant : ctx.tenantId = some row.tenantId)
      (inviter : UUID.parse ctx.principalId = some row.invitedBy) :
      Administers ctx u (.createInvitation email role) (.insertInvitation row)
  | revokeInvitation {id : String} {row : InvitationRecord} {now : DateTime}
      (stored : row ∈ u.invitations) (inside : inScope ctx row.tenantId = true) :
      Administers ctx u (.revokeInvitation id) (.updateInvitation row (row.revoke now))
  | createDelegation {delegate : Str} {scope : String} {roles : List String} {expiresAt : Option Str}
      {row : DelegationRecord} (known : ∀ role ∈ roles, role ∈ allRoles)
      (ranked : highestRank roles ≤ highestRank ctx.roles) (grants : row.delegatedRoles = roles)
      (tenant : ctx.tenantId = some row.tenantId)
      (delegator : UUID.parse ctx.principalId = some row.delegatorUserId) :
      Administers ctx u (.createDelegation delegate roles scope expiresAt) (.insertDelegation row)
  | revokeDelegation {id : String} {row new : DelegationRecord} (stored : row ∈ u.delegations)
      (inside : inScope ctx row.tenantId = true) (grant : row.SameGrant new) :
      Administers ctx u (.revokeDelegation id) (.updateDelegation row new)
  | extendDelegation {id : String} {expiresAt : Option Str} {row new : DelegationRecord}
      (stored : row ∈ u.delegations) (inside : inScope ctx row.tenantId = true)
      (grant : row.SameGrant new) :
      Administers ctx u (.extendDelegation id expiresAt) (.updateDelegation row new)
  | changeTenant {call : AdminRequest} {stored new : TenantRecord}
      (asks : call.roles = [Role.superAdmin.value]) (id : new.id = stored.id)
      (opens : new.status = .active → call = .reactivateTenant new.id) :
      Administers ctx u call (.updateTenant stored new)

/-- The call has staged nothing, or one of its writes. -/
def Administered (ctx : ExecutionContext) (call : AdminRequest) (u u' : Tables) : Prop :=
  u' = u ∨ ∃ w, Administers ctx u call w ∧ u' = u.apply w

theorem mem_allRoles {role : String} (known : ¬ (!allRoles.contains role) = true) :
    role ∈ allRoles := by
  simpa using known

theorem Identity.Invitation.toRecord_eq {invitation : Invitation} {row : Nat → InvitationRecord}
    (made : invitation.toRecord = .ok row) :
    ∃ invitedBy, UUID.parse invitation.invitedBy = some invitedBy ∧ row = fun now =>
      { id := invitation.id
        tenantId := invitation.tenantId
        invitedEmail := invitation.invitedEmail
        role := invitation.role
        invitedBy
        tokenHash := invitation.tokenHash
        expiresAt := invitation.expiresAt
        status := invitation.status
        createdAt := .now now } := by
  obtain ⟨invitedBy, parsed, rfl⟩ := map_eq_ok made
  exact ⟨invitedBy, toUuid_ok parsed, rfl⟩

theorem Identity.Delegation.toRecord_eq {delegation : Delegation} {row : Nat → DelegationRecord}
    (made : delegation.toRecord = .ok row) :
    ∃ delegatorUserId delegateUserId,
      UUID.parse delegation.delegatorUserId = some delegatorUserId ∧
      UUID.parse delegation.delegateUserId = some delegateUserId ∧ row = fun now =>
        { id := delegation.id
          tenantId := delegation.tenantId
          delegatorUserId
          delegateUserId
          delegatedRoles := delegation.delegatedRoles
          scope := delegation.scope
          status := delegation.status
          createdAt := .now now
          updatedAt := .now now
          expiresAt := delegation.expiresAt } := by
  obtain ⟨delegator, parsed, made⟩ := bind_eq_ok made
  obtain ⟨delegate, parsed', rfl⟩ := map_eq_ok made
  exact ⟨delegator, delegate, toUuid_ok parsed, toUuid_ok parsed', rfl⟩

/-- A time that is still to come at a moment of the request. -/
def Identity.StillToCome (C : Env → Prop) (time : DateTime) : Prop :=
  ∃ env, C env ∧ env.now.position < time.position

/-- The row of an invitation that `create_invitation` accepts, and its answer. -/
structure Identity.InvitationAccepted (C : Env → Prop) (platform : IdentityPlatform)
    (ctx : ExecutionContext) (role : String) (answer : CreatedInvitation)
    (row : InvitationRecord) : Prop where
  pending : row.status = .pending
  grants : row.role = role
  tenant : ctx.tenantId = some row.tenantId
  inviter : UUID.parse ctx.principalId = some row.invitedBy
  expires : StillToCome C row.expiresAt
  id : answer.invitationId = row.id.str
  token : row.tokenHash = platform.sha256 answer.token
  known : role ∈ allRoles
  ranked : highestRank [role] ≤ highestRank ctx.roles

/-- The row of a delegation that `create_delegation` accepts. -/
structure Identity.DelegationAccepted (C : Env → Prop) (ctx : ExecutionContext)
    (roles : List String) (row : DelegationRecord) : Prop where
  active : row.status = .active
  grants : row.delegatedRoles = roles
  tenant : ctx.tenantId = some row.tenantId
  delegator : UUID.parse ctx.principalId = some row.delegatorUserId
  expires : ∀ time, row.expiresAt = some time → StillToCome C time
  known : ∀ role ∈ roles, role ∈ allRoles
  ranked : highestRank roles ≤ highestRank ctx.roles

section Rules

variable {allowed : Tables → Prop} {C : Env → Prop} {x : Transaction} {u : Tables}
  {db : Database Unit} {s : DbSession} {platform : IdentityPlatform} {ctx : ExecutionContext}
  {α : Type}

/-! ## Parts that stage nothing -/

theorem Staged.expiryAfter (staged : Staged x u db s) (days : Nat) :
    Keeps allowed C
      (fun time db s => Staged x u db s ∧ ∃ env, C env ∧ env.now.addDays days = some time)
      (Failed x u) (Identity.expiryAfter days) db s := by
  refine staged.choose.bind ?_
  rintro now db s ⟨staged, env, chosen, rfl⟩
  split
  · rename_i time added
    exact ⟨staged, env, chosen, added⟩
  · exact ⟨rfl, .inr staged⟩

theorem Staged.orBadRequest (staged : Staged x u db s) (result : Except PyExc α) :
    Keeps allowed C (fun value db s => Staged x u db s ∧ result = .ok value)
      (Raising x (Unchanged u)) (Identity.orBadRequest result) db s := by
  unfold Identity.orBadRequest
  split
  · exact ⟨staged, rfl⟩
  · exact staged.raise rfl
  · exact staged.raise rfl

theorem Staged.parseExpiry (staged : Staged x u db s) (expiresAt : Option Str) :
    Keeps allowed C
      (fun expiry db s => Staged x u db s ∧ ∀ zoned, expiry = some zoned →
        ∃ env, C env ∧ zoned.notAfter env.now = false)
      (Raising x (Unchanged u)) (Identity.parseExpiry platform expiresAt) db s := by
  unfold Identity.parseExpiry
  split
  · exact ⟨staged, nofun⟩
  · split
    · exact staged.raise rfl
    · exact staged.raise rfl
    · refine staged.choose.bind ?_
      rintro now db s ⟨staged, env, chosen, rfl⟩
      refine .ite (fun _ => staged.raise rfl) fun later => ⟨staged, ?_⟩
      rintro zoned ⟨⟩
      exact ⟨env, chosen, by simpa using later⟩

/-- The driver stores the time that was checked, or raises. -/
theorem Staged.storedExpiry (staged : Staged x u db s) {expiry : Option ZonedTime}
    (later : ∀ zoned, expiry = some zoned → ∃ env, C env ∧ zoned.notAfter env.now = false) :
    Keeps allowed C
      (fun stored db s => Staged x u db s ∧ ∀ time, stored = some time → StillToCome C time)
      (Failed x u) (Program.ofExcept (Identity.storedExpiry expiry)) db s := by
  cases expiry with
  | none => exact ⟨staged, nofun⟩
  | some zoned =>
      cases zoned with
      | early | late => exact ⟨rfl, .inr staged⟩
      | within time =>
          obtain ⟨env, chosen, after⟩ := later _ rfl
          refine ⟨staged, ?_⟩
          rintro _ ⟨⟩
          exact ⟨env, chosen, by simpa [ZonedTime.notAfter] using after⟩

/-- A row in the caller's scope that a call names. -/
theorem Staged.delegationInScope (staged : Staged x u db s) (delegationId : String) :
    Keeps allowed C
      (fun delegation db s => Staged x u db s ∧ ∃ row ∈ delegationMapper.seen u x.scope,
        UUID.parse delegationId = some row.id ∧ delegation = row.delegation ∧
        inScope ctx row.tenantId = true)
      (Raising x (Unchanged u)) (Identity.delegationInScope ctx delegationId) db s := by
  refine keeps_then (staged.getDelegation delegationId) ?_
  rintro found db s ⟨staged, rfl⟩
  cases parsed : UUID.parse delegationId with
  | none => exact staged.raise rfl
  | some key =>
      cases answered : Entity.lookup .delegation u x.scope key with
      | none =>
          simp only [Option.bind_some, answered]
          exact staged.raise rfl
      | some row =>
          obtain ⟨visible, rfl⟩ := Entity.mem_of_lookup answered
          simp only [Option.bind_some, answered]
          refine .ite (fun inside => ?_) fun _ => staged.raise rfl
          exact ⟨staged, row, visible, rfl, rfl, inside⟩

theorem Staged.auditInvalidated (staged : Staged x u db s) (delegation : Delegation)
    (reason : Option String) :
    Keeps allowed C (fun _ => Staged x u) (Failed x u)
      (Identity.auditInvalidated platform ctx delegation reason) db s :=
  (staged.audit _ _ _).bind fun _ _ _ staged => staged

/-! ## The operations -/

theorem Staged.assignRole (staged : Staged x u db s) (target role : String) :
    Keeps allowed C (fun _ => Ready x (Administered ctx (.assignRole target role) u))
      (Raising x (Unchanged u)) (Identity.assignRole platform ctx target role) db s := by
  have denied : ∀ {db s}, Staged x u db s → ∀ reason answer,
      Keeps allowed C (fun _ _ _ => False) (Raising x (Unchanged u))
        (assignRole.denied platform ctx target role reason answer) db s :=
    fun staged _ _ => staged.audited _ fun _ _ staged => staged.raise rfl
  refine .ite (fun _ => staged.raise rfl) fun known => ?_
  refine .ite (fun _ => keeps_never (denied staged _ _)) fun other => ?_
  refine .ite (fun _ => keeps_never (denied staged _ _)) fun ranked => ?_
  refine keeps_then (staged.getUser target) ?_
  rintro found db s ⟨staged, answered⟩
  cases found with
  | none => exact staged.raise rfl
  | some user =>
      obtain ⟨key, named, found⟩ := Option.bind_eq_some_iff.mp answered.symm
      obtain ⟨visible, rfl⟩ := Entity.mem_of_lookup found
      refine staged.choose.bind ?_
      rintro now db s ⟨staged, _⟩
      have assigns : user.assignRole role now = .ok
          { user with
            roles := if user.roles.contains role then user.roles else user.roles ++ [role]
            updatedAt := .clock now } := by
        simp [UserRecord.assignRole, mem_allRoles known]
      refine keeps_then (staged.ofExcept fun e raised => by simp [assigns] at raised) ?_
      rintro assigned db s ⟨staged, made⟩
      cases assigns.symm.trans made
      refine keeps_then (staged.updateUser _ _) ?_
      rintro updated db s' ⟨record, visible', same, _, rfl, after⟩
      cases Entity.seen_unique .user staged.keys visible' visible same
      refine after.audited _ fun db s after => after.ready (.inr ⟨_, ?_, rfl⟩)
      exact .assignRole (Entity.mem_rows_of_seen (e := .user) visible) named other
        (mem_allRoles known) (not_lt.mp ranked)

theorem Staged.createsInvitation (staged : Staged x u db s) (email role : String) :
    Keeps allowed C
      (fun answer => Ready x fun u' => ∃ row, InvitationAccepted C platform ctx role answer row ∧
        u' = u.apply (.insertInvitation row))
      (Raising x (Unchanged u)) (Identity.createInvitation platform ctx email role) db s := by
  refine .ite (fun _ => staged.raise rfl) fun known => ?_
  refine (staged.orBadRequest _).bind ?_
  rintro normalizedEmail db s ⟨staged, _⟩
  refine .ite (fun _ => staged.audited _ fun _ _ staged => staged.raise rfl) fun ranked => ?_
  refine keeps_then (staged.getByEmail _ _) ?_
  rintro found db s ⟨staged, _⟩
  refine .ite (fun _ => staged.raise rfl) fun _ => ?_
  refine .ite (fun _ => staged.raise rfl) fun tenanted => ?_
  refine keeps_then (staged.scalarOneOrNone .invitation _) ?_
  rintro found db s ⟨staged, _⟩
  refine .ite (fun _ => staged.raise rfl) fun _ => ?_
  refine staged.choose.bind ?_
  rintro token db s ⟨staged, _⟩
  refine keeps_then (staged.expiryAfter _) ?_
  rintro expiresAt db s ⟨staged, env, chosen, added⟩
  refine staged.choose.bind ?_
  rintro ⟨uuid4, now⟩ db s ⟨staged, _⟩
  refine keeps_then (staged.addInvitation _) ?_
  rintro _ db s ⟨_, startedAt, made, rfl, staged⟩
  obtain ⟨invitedBy, inviter, rfl⟩ := Invitation.toRecord_eq made
  refine staged.audited _ fun db s staged => staged.ready ⟨_, ?_, rfl⟩
  exact
    { pending := rfl
      grants := rfl
      tenant := tenant_of_truthy tenanted
      inviter
      expires := ⟨env, chosen, lt_of_lt_of_le (by simp [invitationTtlDays]) (DateTime.le_addDays added)⟩
      id := rfl
      token := rfl
      known := mem_allRoles known
      ranked := not_lt.mp ranked }

theorem Staged.createInvitation (staged : Staged x u db s) (email role : String) :
    Keeps allowed C (fun _ => Ready x (Administered ctx (.createInvitation email role) u))
      (Raising x (Unchanged u)) (Identity.createInvitation platform ctx email role) db s := by
  refine (staged.createsInvitation email role).mono (fun answer _ _ ready => ready.mono ?_)
    fun _ _ _ raising => raising
  rintro _ ⟨row, accepted, rfl⟩
  exact .inr ⟨_, .createInvitation accepted.known accepted.ranked accepted.grants accepted.tenant
    accepted.inviter, rfl⟩

theorem Staged.revokeInvitation (staged : Staged x u db s) (invitationId : String) :
    Keeps allowed C (fun _ => Ready x (Administered ctx (.revokeInvitation invitationId) u))
      (Raising x (Unchanged u)) (Identity.revokeInvitation platform ctx invitationId) db s := by
  refine keeps_then (staged.getInvitation invitationId) ?_
  rintro found db s ⟨staged, answered⟩
  cases found with
  | none => exact staged.raise rfl
  | some invitation =>
      obtain ⟨key, named, found⟩ := Option.bind_eq_some_iff.mp answered.symm
      obtain ⟨visible, rfl⟩ := Entity.mem_of_lookup found
      refine .ite (fun _ => staged.raise rfl) fun inside => ?_
      refine .ite (fun _ => staged.raise rfl) fun _ => ?_
      refine staged.choose.bind ?_
      rintro now db s ⟨staged, _⟩
      refine keeps_then (staged.updateInvitation _) ?_
      rintro updated db s' ⟨record, visible', same, rfl, after⟩
      cases Entity.seen_unique .invitation staged.keys visible' visible same
      refine after.audited _ fun db s after => after.ready (.inr ⟨_, ?_, rfl⟩)
      exact .revokeInvitation (Entity.mem_rows_of_seen (e := .invitation) visible)
        (by simpa using inside)

theorem Staged.createsDelegation (staged : Staged x u db s) (delegate : Str)
    (roles : List String) (scope : String) (expiresAt : Option Str) :
    Keeps allowed C
      (fun answer => Ready x fun u' => ∃ row, DelegationAccepted C ctx roles row ∧
        answer.delegation = row.delegation ∧ u' = u.apply (.insertDelegation row))
      (Raising x (Unchanged u))
      (Identity.createDelegation platform ctx delegate roles scope expiresAt) db s := by
  have denied : ∀ {db s}, Staged x u db s → ∀ payload answer,
      Keeps allowed C (fun _ _ _ => False) (Raising x (Unchanged u))
        (createDelegation.denied platform ctx payload answer) db s :=
    fun staged _ _ => staged.audited _ fun _ _ staged => staged.raise rfl
  refine .ite (fun _ => staged.raise rfl) fun _ => ?_
  refine .ite (fun _ => staged.raise rfl) fun known => ?_
  refine .ite (fun _ => staged.raise rfl) fun _ => ?_
  refine (staged.parseExpiry _).bind ?_
  rintro expiresDt db s ⟨staged, later⟩
  refine .ite (fun _ => staged.raise rfl) fun tenanted => ?_
  refine .ite (fun _ => keeps_never (denied staged _ _)) fun ranked => ?_
  refine keeps_then (staged.getUser _) ?_
  rintro found db s ⟨staged, _⟩
  split
  · exact keeps_never (denied staged _ _)
  · refine .ite (fun _ => staged.raise rfl) fun _ => ?_
    refine staged.choose.bind ?_
    rintro ⟨uuid4, now⟩ db s ⟨staged, _⟩
    refine keeps_then (staged.storedExpiry later) ?_
    rintro expiry db s ⟨staged, expires⟩
    refine keeps_then (staged.addDelegation _) ?_
    rintro _ db s ⟨_, startedAt, made, rfl, staged⟩
    obtain ⟨delegatorUserId, delegateUserId, delegator, _, rfl⟩ := Delegation.toRecord_eq made
    refine staged.audited _ fun db s staged => staged.ready ⟨_, ?_, rfl, rfl⟩
    simp only [Bool.or_eq_true, not_or] at known
    exact
      { active := rfl
        grants := rfl
        tenant := tenant_of_truthy tenanted
        delegator
        expires
        known := by simpa using known.2
        ranked := not_lt.mp ranked }

theorem Staged.createDelegation (staged : Staged x u db s) (delegate : Str)
    (roles : List String) (scope : String) (expiresAt : Option Str) :
    Keeps allowed C
      (fun _ => Ready x (Administered ctx (.createDelegation delegate roles scope expiresAt) u))
      (Raising x (Unchanged u))
      (Identity.createDelegation platform ctx delegate roles scope expiresAt) db s := by
  refine (staged.createsDelegation delegate roles scope expiresAt).mono
    (fun answer _ _ ready => ready.mono ?_) fun _ _ _ raising => raising
  rintro _ ⟨row, accepted, _, rfl⟩
  exact .inr ⟨_, .createDelegation accepted.known accepted.ranked accepted.grants accepted.tenant
    accepted.delegator, rfl⟩

theorem Staged.revokeDelegation (staged : Staged x u db s) (delegationId : String) :
    Keeps allowed C (fun _ => Ready x (Administered ctx (.revokeDelegation delegationId) u))
      (Raising x (Unchanged u)) (Identity.revokeDelegation platform ctx delegationId) db s := by
  refine (staged.delegationInScope delegationId).bind ?_
  rintro delegation db s ⟨staged, row, visible, _, rfl, inside⟩
  refine .ite (fun _ => staged.raise rfl) fun _ => ?_
  refine staged.choose.bind ?_
  rintro now db s ⟨staged, _⟩
  refine keeps_then (staged.updateDelegation _) ?_
  rintro updated db s' ⟨record, visible', new, same, rfl, id, tenantId, delegator, delegate, roles,
    after⟩
  cases Entity.seen_unique .delegation staged.keys visible' visible same
  refine after.audited _ fun db s after => after.ready (.inr ⟨_, ?_, rfl⟩)
  exact .revokeDelegation (Entity.mem_rows_of_seen (e := .delegation) visible) inside
    ⟨id, tenantId, delegator, delegate, roles⟩

theorem Staged.extendDelegation (staged : Staged x u db s) (delegationId : String)
    (newExpiresAt : Option Str) :
    Keeps allowed C
      (fun _ => Ready x (Administered ctx (.extendDelegation delegationId newExpiresAt) u))
      (Raising x (Unchanged u))
      (Identity.extendDelegation platform ctx delegationId newExpiresAt) db s := by
  refine (staged.delegationInScope delegationId).bind ?_
  rintro delegation db s ⟨staged, row, visible, _, rfl, inside⟩
  refine .ite (fun _ => staged.raise rfl) fun _ => ?_
  refine (staged.parseExpiry _).bind ?_
  rintro newDt db s ⟨staged, later⟩
  refine keeps_then (staged.getUser _) ?_
  rintro found db s ⟨staged, _⟩
  split
  · exact keeps_then (staged.auditInvalidated _ _) fun _ _ _ staged => staged.raise rfl
  · refine .ite (fun _ => keeps_then (staged.auditInvalidated _ _) fun _ _ _ staged =>
      staged.raise rfl) fun _ => ?_
    refine staged.choose.bind ?_
    rintro now db s ⟨staged, _⟩
    refine keeps_then (staged.storedExpiry later) ?_
    rintro expiry db s ⟨staged, _⟩
    refine keeps_then (staged.updateDelegation _) ?_
    rintro updated db s' ⟨record, visible', new, same, rfl, id, tenantId, delegator, delegate,
      roles, after⟩
    cases Entity.seen_unique .delegation staged.keys visible' visible same
    refine after.audited _ fun db s after => after.ready (.inr ⟨_, ?_, rfl⟩)
    exact .extendDelegation (Entity.mem_rows_of_seen (e := .delegation) visible) inside
      ⟨id, tenantId, delegator, delegate, roles⟩

theorem Staged.changeTenant (staged : Staged x u db s) {call : AdminRequest}
    (asks : call.roles = [Role.superAdmin.value]) (tenantId : String)
    {change : TenantRecord → DateTime → Except PyExc TenantRecord}
    (changes : ∀ tenant now changed, change tenant now = .ok changed → changed.id = tenant.id ∧
      (changed.status = .active → call = .reactivateTenant tenantId))
    (action : String) (payload : List (String × Detail)) :
    Keeps allowed C (fun _ => Ready x (Administered ctx call u)) (Raising x (Unchanged u))
      (Identity.changeTenant platform ctx tenantId change action payload) db s := by
  refine keeps_then (staged.lookup .tenant tenantId) ?_
  rintro found db s ⟨staged, answered⟩
  cases found with
  | none => exact staged.raise rfl
  | some tenant =>
      obtain ⟨_, named⟩ := Entity.mem_of_lookup (e := .tenant) answered.symm
      refine staged.choose.bind ?_
      rintro now db s ⟨staged, _⟩
      refine Meets.bind (N := fun changed db s => Staged x u db s ∧ change tenant now = .ok changed)
        ?_ ?_
      · unfold orConflict
        split
        · rename_i changed made
          exact ⟨staged, made⟩
        · exact staged.raise rfl
        · exact staged.raise rfl
      rintro changed db s ⟨staged, made⟩
      obtain ⟨sameId, opens⟩ := changes _ _ _ made
      refine keeps_then (staged.updateTenant _) ?_
      rintro updated db s ⟨record, _, recordId, updatedId, status, after⟩
      have id : updated.id = tenantId := updatedId.trans (recordId.trans (sameId.trans named))
      refine after.audited _ fun db s after => after.ready (.inr ⟨_, .changeTenant asks updatedId ?_, rfl⟩)
      exact fun active => id ▸ opens (status ▸ active)

theorem Staged.summarizeEach (staged : Staged x u db s) (tenant : Option TenantRecord)
    (now : DateTime) (delegations : List Delegation) :
    Keeps allowed C (fun _ => Staged x u) (Failed x u)
      (Identity.summarizeEach tenant now delegations) db s := by
  induction delegations generalizing db s with
  | nil => exact staged
  | cons delegation delegations ih =>
      refine (staged.getUser _).bind ?_
      rintro delegator db s ⟨staged, _⟩
      exact (ih staged).bind fun _ _ _ staged => staged

/-- **An operation of `AdminService`** stages one of its writes or nothing. -/
theorem Staged.administers (staged : Staged x u db s) (call : AdminRequest) :
    Keeps allowed C (fun _ => Ready x (Administered ctx call u)) (Raising x (Unchanged u))
      (call.serve platform ctx) db s := by
  have same : ∀ {db s}, Staged x u db s → Ready x (Administered ctx call u) db s :=
    fun staged => staged.ready (.inl rfl)
  cases call with
  | assignRole userId role => exact (staged.assignRole _ _).bind fun _ _ _ ready => ready
  | createInvitation email role => exact (staged.createInvitation _ _).bind fun _ _ _ ready => ready
  | revokeInvitation id => exact (staged.revokeInvitation _).bind fun _ _ _ ready => ready
  | createDelegation delegate roles scope expiresAt =>
      exact (staged.createDelegation _ _ _ _).bind fun _ _ _ ready => ready
  | revokeDelegation id => exact (staged.revokeDelegation _).bind fun _ _ _ ready => ready
  | extendDelegation id expiresAt =>
      exact (staged.extendDelegation _ _).bind fun _ _ _ ready => ready
  | suspendTenant id reason =>
      refine (staged.changeTenant rfl id ?_ _ _).bind fun _ _ _ ready => ready
      intro tenant now changed made
      unfold TenantRecord.suspend at made
      split at made <;> cases made
      exact ⟨rfl, nofun⟩
  | reactivateTenant id =>
      refine (staged.changeTenant rfl id ?_ _ _).bind fun _ _ _ ready => ready
      intro tenant now changed made
      unfold TenantRecord.reactivate at made
      split at made <;> cases made
      exact ⟨rfl, fun _ => rfl⟩
  | archiveTenant id =>
      refine (staged.changeTenant rfl id ?_ _ _).bind fun _ _ _ ready => ready
      intro tenant now changed made
      cases made
      exact ⟨rfl, nofun⟩
  | listInvitations =>
      refine Meets.bind (N := fun _ => Staged x u) (.ite (fun _ => staged) fun _ => ?_)
        fun _ _ _ staged => same staged
      exact keeps_then (staged.listInvitations _) fun _ _ _ staged => staged
  | listDelegations =>
      refine Meets.bind (N := fun _ => Staged x u) (.ite (fun _ => staged) fun _ => ?_)
        fun _ _ _ staged => same staged
      refine keeps_then (staged.lookup .tenant _) ?_
      rintro tenant db s ⟨staged, _⟩
      refine keeps_then (staged.listDelegations _) ?_
      rintro delegations db s ⟨staged, _⟩
      refine staged.choose.bind ?_
      rintro now db s ⟨staged, _⟩
      exact (staged.summarizeEach _ _ _).mono (fun _ _ _ staged => staged)
        fun _ _ _ failed => .of_failed failed
  | getDelegation id =>
      refine Meets.bind (N := fun _ => Staged x u) ?_ fun _ _ _ staged => same staged
      refine (staged.delegationInScope id).bind ?_
      rintro delegation db s ⟨staged, _⟩
      refine keeps_then (staged.getUser _) ?_
      rintro delegator db s ⟨staged, _⟩
      refine keeps_then (staged.lookup .tenant _) ?_
      rintro tenant db s ⟨staged, _⟩
      refine staged.choose.bind ?_
      rintro now db s ⟨staged, _⟩
      exact .ite (fun _ => keeps_then (staged.auditInvalidated _ _) fun _ _ _ staged => staged)
        fun _ => staged
  | listTenants =>
      refine Meets.bind (N := fun _ => Staged x u) ?_ fun _ _ _ staged => same staged
      exact keeps_then staged.listTenants fun _ _ _ staged => staged
  | getTenant id =>
      refine Meets.bind (N := fun _ => Staged x u) ?_ fun _ _ _ staged => same staged
      refine keeps_then (staged.lookup .tenant id) ?_
      rintro tenant db s ⟨staged, _⟩
      split
      · exact staged.raise rfl
      · exact staged

end Rules
end LandVault
