import LandVault.Identity.Grants

/-!
# What is accepted and what is honoured

A delegation is accepted where the roles of the caller's context rank high enough, and an
invitation likewise; the roles of the context are the stored ones together with those that
are delegated to the caller. What is accepted is honoured later where the stored roles of
the grantor rank high enough. Everything else that is asked of a grant at its use, the
hydrator and the service have asked at its creation.
-/

set_option autoImplicit false

namespace LandVault

open Kernel Kernel.Audit Identity Library.Programs Library.ReadCommitted Python

/-! ## Requests by themselves, and what they leave -/

/-- Run by itself on these tables, while the application's clock says `now`, a request can
end with this result and leave the tables `t'`. -/
def EndsIn {α : Type} (now : DateTime) (t : Tables) (request : Request α)
    (result : Except PyExc α) (t' : Tables) : Prop :=
  ∃ clock choices db s, (∀ choice ∈ choices, choice.env.now = now) ∧
    play (postgres Unit) () choices { tables := t, clock } freshSession request =
      some (result, db, s) ∧ db.tables = t'

theorem EndsIn.answered {α : Type} {now : DateTime} {t t' : Tables} {request : Request α}
    {result : Except PyExc α} (ends : EndsIn now t request result t') (unique : t.keys.Nodup)
    {Q : α → Assertion (Database Unit) DbSession} {E : PyExc → Assertion (Database Unit) DbSession}
    (keeps : ∀ db s, Idle t.records db s →
      Keeps (fun _ => True) (fun env => env.now = now) Q E request db s) :
    t'.keys.Nodup ∧ ∃ db s, db.tables = t' ∧ Answered Q E result db s := by
  obtain ⟨clock, choices, db, s, instant, played, rfl⟩ := ends
  have begun : Idle t.records { tables := t, clock } freshSession := ⟨rfl, rfl, rfl, rfl, rfl, unique⟩
  have coherent : Coherent engine ({ tables := t, clock } : Database Unit) := ⟨by simp, unique⟩
  have held : Held engine () ({ tables := t, clock } : Database Unit) freshSession :=
    ⟨by simp [freshSession], unique, fun _ => rfl, Nat.zero_le _⟩
  have ended := Meets.played (keeps _ _ begun) ⟨coherent, trivial⟩ held instant played
  exact ⟨ended.1.1.unique, db, s, rfl, ended.2.2⟩

/-! ## What is honoured -/

/-- An invitation can be redeemed now: it is open, and its inviter could still issue it. -/
def Tables.redeemable (t : Tables) (now : DateTime) (row : InvitationRecord) : Bool :=
  row.isRedeemableAt now &&
    (authorityLostReason row (t.identityUsers.find? (·.id = row.invitedBy))
      (t.tenants.find? (·.id = row.tenantId))).isNone

/-- The caller's stored roles, without those that are delegated to the caller, rank as
high as the roles that the caller grants. -/
def MayGrant (t : Tables) (ctx : ExecutionContext) (roles : List String) : Prop :=
  ∃ user ∈ t.identityUsers, user.id.str = ctx.principalId ∧
    highestRank roles ≤ highestRank user.roles

/-- A grantor who may act, in the tenant of what is granted. -/
structure Grantor (t : Tables) (id : UUID) (tenantId : String) (user : UserRecord) : Prop where
  stored : t.identityUsers.find? (·.id = id) = some user
  authenticates : user.canAuthenticate = true
  inside : user.tenantId = tenantId
  active : (t.tenants.find? (·.id = tenantId)).any TenantRecord.isActive = true

theorem Grantor.effective_iff {t : Tables} {row : DelegationRecord} {user : UserRecord}
    {now : DateTime} (grants : Grantor t row.delegatorUserId row.tenantId user)
    (active : row.status = .active)
    (expires : ∀ time, row.expiresAt = some time → now.position < time.position) :
    t.effective now row = true ↔ highestRank row.delegatedRoles ≤ highestRank user.roles := by
  have current : row.expiresAt.any (fun time => time.position ≤ now.position) = false := by
    rw [Option.any_eq_false]
    intro time stored
    rw [decide_eq_false_iff_not, not_le]
    exact expires time stored
  have tenant : (!(t.tenants.find? (·.id = row.tenantId)).any (·.isActive)) = false := by
    rw [grants.active]
    rfl
  simp only [Tables.effective, grants.stored, delegationIsEffective, ineffectiveReason,
    DelegationRecord.delegation, active, current, grants.authenticates, grants.inside, tenant]
  simp

theorem Grantor.redeemable_iff {t : Tables} {row : InvitationRecord} {user : UserRecord}
    {now : DateTime} (grants : Grantor t row.invitedBy row.tenantId user)
    (pending : row.status = .pending) (expires : now.position < row.expiresAt.position) :
    t.redeemable now row = true ↔ highestRank [row.role] ≤ highestRank user.roles := by
  have tenant : (!(t.tenants.find? (·.id = row.tenantId)).any (·.isActive)) = false := by
    rw [grants.active]
    rfl
  simp only [Tables.redeemable, grants.stored, authorityLostReason, Option.filter_some,
    InvitationOf.isRedeemableAt, pending, expires, grants.authenticates, tenant]
  simp [grants.inside]

/-! ## The caller -/

section Callers

variable {platform : IdentityPlatform} {t : Tables} {token : Option Claims}
  {ctx : ExecutionContext}

/-- A caller with a tenant is a user of it who may act. -/
theorem Caller.user (unique : t.keys.Nodup) (caller : Caller platform t token ctx)
    {tenantId : String} (tenant : ctx.tenantId = some tenantId) :
    ∃ user, ctx.principalId = user.id.str ∧ Grantor t user.id tenantId user := by
  cases caller with
  | anonymous => cases tenant
  | token claims now =>
      cases hydrated : t.hydrated platform now claims.subject with
      | none => simp [hydrated, contextOf] at tenant
      | some attrs =>
          obtain ⟨user, found, rfl⟩ := Option.map_eq_some_iff.mp hydrated
          obtain ⟨stored, _, authenticates, known, member, id, active⟩ :=
            (Tables.principal_eq_some unique).mp found
          have given : (withDelegated platform user (t.delegatedRoles now user)).principalId =
              user.id.str ∧ (withDelegated platform user (t.delegatedRoles now user)).tenantId =
                user.tenantId := by
            unfold withDelegated
            split <;> exact ⟨rfl, rfl⟩
          simp only [hydrated, contextOf, given.2, Option.some.injEq] at tenant ⊢
          subst tenant
          refine ⟨user, given.1, ?_, authenticates, rfl, ?_⟩
          · exact (find?_eq_some_iff (Entity.keys_nodup .user unique)).mpr ⟨stored, rfl⟩
          · have tenantFound : t.tenants.find? (·.id = user.tenantId) = some known :=
              (find?_eq_some_iff (Entity.keys_nodup .tenant unique)).mpr ⟨member, id⟩
            rw [tenantFound]
            exact active

/-- A grantor that is known by the identifier of the caller. -/
theorem Grantor.mayGrant_iff {user : UserRecord} {tenantId : String} {roles : List String}
    (unique : t.keys.Nodup) (grants : Grantor t user.id tenantId user)
    (named : ctx.principalId = user.id.str) :
    MayGrant t ctx roles ↔ highestRank roles ≤ highestRank user.roles := by
  have stored := List.mem_of_find?_eq_some grants.stored
  constructor
  · rintro ⟨other, member, same, ranked⟩
    have id : other.id = user.id := UUID.str_inj (same.trans named)
    cases List.inj_on_of_nodup_map (Entity.keys_nodup .user unique) member stored id
    exact ranked
  · exact fun ranked => ⟨user, stored, named.symm, ranked⟩

end Callers

/-! ## Redeeming -/

/-- No invitation of the token can be redeemed now. -/
def Unredeemable (platform : IdentityPlatform) (t : Tables) (now : DateTime) (token : String) :
    Prop :=
  token = "" ∨ ∀ row ∈ t.invitations, row.tokenHash = platform.sha256 token →
    t.redeemable now row = false

section Rules

variable {allowed : Tables → Prop} {C : Env → Prop} {x : Transaction} {u : Tables}
  {db : Database Unit} {s : DbSession} {platform : IdentityPlatform} {ctx : ExecutionContext}

/-- **Redemption is exact**: it answers with an invitation that can be redeemed now, and
refuses where there is none. -/
theorem Staged.redeems (staged : Staged x u db s) (super : x.scope = .superAdmin) {now : DateTime}
    (instant : ∀ env, C env → env.now = now) (token : String) :
    Keeps allowed C
      (fun invitation => Ready x fun _ => invitation ∈ u.invitations ∧
        invitation.tokenHash = platform.sha256 token ∧ u.redeemable now invitation = true)
      (Raising x fun _ _ => Unredeemable platform u now token)
      (Identity.authorizeInvitationRedemption platform ctx token) db s := by
  have users : Entity.user.mapper.seen u x.scope = u.identityUsers :=
    super ▸ Entity.seen_superAdmin .user (by decide) u
  have tenants : Entity.tenant.mapper.seen u x.scope = u.tenants :=
    super ▸ Entity.seen_superAdmin .tenant (by decide) u
  have invitations : Entity.invitation.mapper.seen u x.scope = u.invitations :=
    super ▸ Entity.seen_superAdmin .invitation (by decide) u
  refine .ite (fun empty => staged.raise (.inl empty)) fun _ => ?_
  refine keeps_then (staged.scalarOneOrNone .invitation _) ?_
  rintro found db s ⟨staged, one⟩
  rw [invitations] at one
  -- the token names at most the row that was found
  have only : ∀ row ∈ u.invitations, row.tokenHash = platform.sha256 token → found = some row := by
    intro row member named
    have listed : row ∈ found.toList := by
      rw [← one]
      exact List.mem_filter.mpr ⟨member, by simpa using named⟩
    simpa [eq_comm] using listed
  refine staged.choose.bind ?_
  rintro _ db s ⟨staged, env, chosen, rfl⟩
  rw [instant env chosen]
  split
  · rename_i closed
    refine keeps_then (staged.auditRedemptionDenied _ _) fun _ _ _ staged => staged.raise (.inr ?_)
    intro row member named
    have shut : row.isRedeemableAt now = false := by
      rw [only row member named, Option.filter_some] at closed
      split at closed
      · cases closed
      · rename_i shut
        simpa using shut
    simp [Tables.redeemable, shut]
  rename_i invitation kept
  obtain ⟨answered, redeemable⟩ := Option.filter_eq_some_iff.mp kept
  obtain ⟨member, named⟩ := mem_of_filter_eq one answered
  refine keeps_then (staged.getUser _) ?_
  rintro inviter db s ⟨staged, found⟩
  rw [UUID.parse_str, Option.bind_some, Entity.lookup, users] at found
  refine keeps_then (staged.lookup .tenant _) ?_
  rintro targetTenant db s ⟨staged, found'⟩
  rw [Entity.lookup, tenants] at found'
  have judged : u.redeemable now invitation =
      (authorityLostReason invitation inviter targetTenant).isNone := by
    rw [Tables.redeemable, redeemable, Bool.true_and, found, found']
    rfl
  split
  · rename_i reason lost
    refine staged.choose.bind ?_
    rintro now db s ⟨staged, _⟩
    refine keeps_then (staged.updateInvitation _) ?_
    rintro updated db s' ⟨record, _, _, _, after⟩
    refine keeps_then (after.auditRedemptionDenied _ _) fun _ _ _ after => after.raise (.inr ?_)
    intro row member named
    cases answered.symm.trans (only row member named)
    rw [judged, lost]
    rfl
  · rename_i kept
    exact staged.ready ⟨member, by simpa using named, by rw [judged, kept]; rfl⟩

end Rules

/-- A redemption of the token by somebody who is not signed in. -/
def redemption (platform : IdentityPlatform) (token : String) : Request InvitationRecord :=
  getDbSession anonymous (authorizeInvitationRedemption platform anonymous token)

theorem Tables.tokenHashes_nodup {t : Tables} (unique : t.keys.Nodup) :
    (t.invitations.map (·.tokenHash)).Nodup := by
  have identities : t.identityKeys.Nodup := unique.of_append_left.of_append_right
  refine .of_map Key.tokenHash ?_
  rw [List.map_map]
  exact identities.of_append_left.of_append_right

section Idle

variable {t : Tables} {db : Database Unit} {s : DbSession} {platform : IdentityPlatform}
  {ctx : ExecutionContext} {now : DateTime}

theorem Idle.redeems (idle : Idle t db s) (token : String) :
    Keeps (fun _ => True) (fun env => env.now = now)
      (fun invitation _ _ => invitation ∈ t.invitations ∧
        invitation.tokenHash = platform.sha256 token ∧ t.redeemable now invitation = true)
      (fun e _ _ => e.isHttp = true → Unredeemable platform t now token)
      (redemption platform token) db s := by
  refine (idle.getDbSession (C := fun env => env.now = now) anonymous
    (P := fun _ (invitation : InvitationRecord) _ => invitation ∈ t.invitations ∧
      invitation.tokenHash = platform.sha256 token ∧ t.redeemable now invitation = true)
    (R := fun _ _ _ => Unredeemable platform t now token) (fun _ _ _ _ => trivial)
    (fun _ _ _ _ => trivial) ?_).mono (fun _ _ _ ⟨_, _, _, _, _, found⟩ => found) ?_
  · intro x db s _ scope _ staged
    exact staged.redeems scope (fun _ same => same) token
  · rintro e db s (⟨_, _, _, _, _, _, refused⟩ | ⟨notHttp, _⟩) http
    · exact refused
    · simp [http] at notHttp

theorem Idle.createsDelegation (idle : Idle t db s) (delegate : Str) (roles : List String)
    (scope : String) (expiresAt : Option Str) :
    Keeps (fun _ => True) (fun env => env.now = now)
      (fun answer db _ => ∃ row, DelegationAccepted (fun env => env.now = now) ctx roles row ∧
        answer.delegation = row.delegation ∧ db.tables.records = t.apply (.insertDelegation row))
      (fun _ _ _ => True)
      (Kernel.getDbSession ctx (createDelegation platform ctx delegate roles scope expiresAt))
      db s := by
  refine (idle.getDbSession (C := fun env => env.now = now) ctx
    (P := fun _ (answer : DelegationSummary) u => ∃ row,
      DelegationAccepted (fun env => env.now = now) ctx roles row ∧
      answer.delegation = row.delegation ∧ u = t.apply (.insertDelegation row))
    (R := fun _ => Unchanged t) (fun _ _ _ _ => trivial) (fun _ _ _ _ => trivial) ?_).mono
      (fun _ _ _ ⟨_, _, _, _, _, created⟩ => created) fun _ _ _ _ => trivial
  intro x db s _ _ _ staged
  exact staged.createsDelegation delegate roles scope expiresAt

theorem Idle.createsInvitation (idle : Idle t db s) (email role : String) :
    Keeps (fun _ => True) (fun env => env.now = now)
      (fun answer db _ => ∃ row,
        InvitationAccepted (fun env => env.now = now) platform ctx role answer row ∧
        db.tables.records = t.apply (.insertInvitation row))
      (fun _ _ _ => True) (Kernel.getDbSession ctx (createInvitation platform ctx email role)) db s := by
  refine (idle.getDbSession (C := fun env => env.now = now) ctx
    (P := fun _ (answer : CreatedInvitation) u => ∃ row,
      InvitationAccepted (fun env => env.now = now) platform ctx role answer row ∧
      u = t.apply (.insertInvitation row))
    (R := fun _ => Unchanged t) (fun _ _ _ _ => trivial) (fun _ _ _ _ => trivial) ?_).mono
      (fun _ _ _ ⟨_, _, _, _, _, created⟩ => created) fun _ _ _ _ => trivial
  intro x db s _ _ _ staged
  exact staged.createsInvitation email role

end Idle

/-! ## What is accepted is honoured, or not -/

section Accepted

variable {platform : IdentityPlatform} {t t' : Tables} {token : Option Claims}
  {ctx : ExecutionContext} {now : DateTime}

/-- A grant keeps its grantor through what adds no user and no tenant. -/
theorem Grantor.congr {id : UUID} {tenantId : String} {user : UserRecord}
    (grants : Grantor t id tenantId user) (users : t'.identityUsers = t.identityUsers)
    (tenants : t'.tenants = t.tenants) : Grantor t' id tenantId user :=
  ⟨users ▸ grants.stored, grants.authenticates, grants.inside, tenants ▸ grants.active⟩

theorem delegation_honoured_iff (unique : t.keys.Nodup) (caller : Caller platform t token ctx)
    {delegate : Str} {scope : String} {roles : List String} {expiresAt : Option Str}
    {answer : DelegationSummary}
    (ends : EndsIn now t
      (getDbSession ctx (createDelegation platform ctx delegate roles scope expiresAt)) (.ok answer) t') :
    ∃ row ∈ t'.delegations, answer.delegation = row.delegation ∧
      (t'.effective now row = true ↔ MayGrant t ctx roles) := by
  obtain ⟨_, db, s, rfl, row, accepted, same, stored⟩ := ends.answered unique fun db s idle =>
    idle.createsDelegation delegate roles scope expiresAt
  obtain ⟨user, named, grants⟩ := caller.user unique accepted.tenant
  have delegator : row.delegatorUserId = user.id := by
    have parsed := accepted.delegator
    rw [named, UUID.parse_str] at parsed
    exact (Option.some.inj parsed).symm
  have after : Grantor db.tables.records row.delegatorUserId row.tenantId user := by
    rw [stored, delegator]
    exact grants.congr rfl rfl
  have member : row ∈ db.tables.records.delegations := by
    rw [stored]
    exact List.mem_append_right _ (List.mem_singleton_self row)
  refine ⟨row, member, same, ?_⟩
  rw [grants.mayGrant_iff unique named, ← accepted.grants]
  refine after.effective_iff accepted.active fun time expires => ?_
  obtain ⟨env, rfl, later⟩ := accepted.expires time expires
  exact later

theorem invitation_honoured_iff (unique : t.keys.Nodup) (caller : Caller platform t token ctx)
    {email role : String} {answer : CreatedInvitation}
    (ends : EndsIn now t (getDbSession ctx (createInvitation platform ctx email role)) (.ok answer) t') :
    ∃ row ∈ t'.invitations, answer.invitationId = row.id.str ∧
      row.tokenHash = platform.sha256 answer.token ∧
      (t'.redeemable now row = true ↔ MayGrant t ctx [role]) := by
  obtain ⟨_, db, s, rfl, row, accepted, stored⟩ := ends.answered unique fun db s idle =>
    idle.createsInvitation email role
  obtain ⟨user, named, grants⟩ := caller.user unique accepted.tenant
  have inviter : row.invitedBy = user.id := by
    have parsed := accepted.inviter
    rw [named, UUID.parse_str] at parsed
    exact (Option.some.inj parsed).symm
  have after : Grantor db.tables.records row.invitedBy row.tenantId user := by
    rw [stored, inviter]
    exact grants.congr rfl rfl
  have member : row ∈ db.tables.records.invitations := by
    rw [stored]
    exact List.mem_append_right _ (List.mem_singleton_self row)
  refine ⟨row, member, accepted.id, accepted.token, ?_⟩
  rw [grants.mayGrant_iff unique named, ← accepted.grants]
  obtain ⟨env, rfl, later⟩ := accepted.expires
  exact after.redeemable_iff accepted.pending later

/-- What the redemption of a token answers tells whether its invitation can be redeemed. -/
theorem redemption_tells (unique : t.keys.Nodup) {row : InvitationRecord}
    (stored : row ∈ t.invitations) {secret : String} (named : row.tokenHash = platform.sha256 secret)
    (given : secret ≠ "") {result : Except PyExc InvitationRecord}
    (ends : EndsAt now t (redemption platform secret) result) :
    (∀ invitation, result = .ok invitation → invitation = row ∧ t.redeemable now row = true) ∧
    ∀ e, result = .error e → e.isHttp = true → t.redeemable now row = false := by
  obtain ⟨db, s, answered⟩ := ends.answered unique fun db s idle => idle.redeems secret
  cases result with
  | ok invitation =>
      obtain ⟨member, hash, redeemable⟩ := answered
      refine ⟨?_, nofun⟩
      rintro _ ⟨⟩
      cases List.inj_on_of_nodup_map (Tables.tokenHashes_nodup unique) member stored
        (hash.trans named.symm)
      exact ⟨rfl, redeemable⟩
  | error e =>
      refine ⟨nofun, ?_⟩
      rintro _ ⟨⟩ http
      rcases answered http with empty | refused
      · exact absurd empty given
      · exact refused row stored named

end Accepted

theorem Idle.context {t : Tables} {db : Database Unit} {s : DbSession} (idle : Idle t db s)
    (platform : IdentityPlatform) (claims : Claims) (now : DateTime) :
    Keeps (fun _ => True) (fun env => env.now = now)
      (fun ctx _ _ => ctx = contextOf claims (t.hydrated platform now claims.subject))
      (fun _ _ _ => True) (Identity.currentContext platform (some claims)) db s := by
  refine ((idle.buildProductionContextHydrator (.at now) _).mono (fun _ _ _ found => found)
    fun _ _ _ _ => trivial).bind ?_
  rintro _ db s ⟨_, _, rfl, rfl⟩
  rfl

theorem EndsAt.context {platform : IdentityPlatform} {t : Tables} {claims : Claims}
    {ctx : ExecutionContext} {now : DateTime} (unique : t.keys.Nodup)
    (hydrated : EndsAt now t (currentContext platform (some claims)) (.ok ctx)) :
    ctx = contextOf claims (t.hydrated platform now claims.subject) := by
  obtain ⟨db, s, same⟩ := hydrated.answered unique fun db s idle => idle.context platform claims now
  exact same

theorem EndsAt.caller {platform : IdentityPlatform} {t : Tables} {token : Option Claims}
    {ctx : ExecutionContext} {now : DateTime} (unique : t.keys.Nodup)
    (hydrated : EndsAt now t (currentContext platform token) (.ok ctx)) :
    Caller platform t token ctx := by
  cases token with
  | none =>
      obtain ⟨clock, choices, db, s, _, played⟩ := hydrated
      cases choices with
      | nil =>
          cases played
          exact .anonymous
      | cons choice choices => cases played
  | some claims =>
      rw [hydrated.context unique]
      exact .token claims now

/-- **What is accepted is honoured exactly where the grantor's own roles suffice**: of
every delegation and every invitation that a hydrated caller creates. -/
theorem accepted_honoured_iff {platform : IdentityPlatform} {t : Tables} (unique : t.keys.Nodup)
    {token : Option Claims} {ctx : ExecutionContext} {earlier now : DateTime}
    (hydrated : EndsAt earlier t (currentContext platform token) (.ok ctx)) :
    (∀ delegate roles scope expiresAt answer t',
      EndsIn now t (getDbSession ctx (createDelegation platform ctx delegate roles scope expiresAt))
        (.ok answer) t' →
      ∃ row ∈ t'.delegations, answer.delegation = row.delegation ∧
        (t'.effective now row = true ↔ MayGrant t ctx roles)) ∧
    ∀ email role answer t',
      EndsIn now t (getDbSession ctx (createInvitation platform ctx email role)) (.ok answer) t' →
      ∃ row ∈ t'.invitations, answer.invitationId = row.id.str ∧
        row.tokenHash = platform.sha256 answer.token ∧
        (t'.redeemable now row = true ↔ MayGrant t ctx [role]) ∧
        (answer.token ≠ "" → ∀ result, EndsAt now t' (redemption platform answer.token) result →
          (∀ invitation, result = .ok invitation → invitation = row ∧ MayGrant t ctx [role]) ∧
          ∀ e, result = .error e → e.isHttp = true → ¬ MayGrant t ctx [role]) := by
  have caller := hydrated.caller unique
  constructor
  · intro delegate roles scope expiresAt answer t' ends
    exact delegation_honoured_iff unique caller ends
  · intro email role answer t' ends
    have unique' := (ends.answered unique fun db s idle => idle.createsInvitation email role).1
    obtain ⟨row, stored, id, hash, honoured⟩ := invitation_honoured_iff unique caller ends
    refine ⟨row, stored, id, hash, honoured, fun given result redeemed => ?_⟩
    obtain ⟨answers, refuses⟩ := redemption_tells unique' stored hash given redeemed
    refine ⟨fun invitation same => ?_, fun e same http mayGrant => ?_⟩
    · obtain ⟨same, redeemable⟩ := answers invitation same
      exact ⟨same, honoured.mp redeemable⟩
    · have refused := refuses e same http
      rw [honoured.mpr mayGrant] at refused
      cases refused

/-! ## An officer by delegation -/

/-- Officer 1 has delegated his role to user 2. -/
def deputyTables : Tables where
  tenants := [{ id := "t-1" }]
  identityUsers :=
    [{ id := sampleId 1, tenantId := "t-1", identitySubject := "s-1", email := "1"
       roles := [Role.complianceOfficer.value] },
     { id := sampleId 2, tenantId := "t-1", identitySubject := "s-2", email := "2" },
     { id := sampleId 3, tenantId := "t-1", identitySubject := "s-3", email := "3" }]
  delegations :=
    [{ id := sampleId 4, tenantId := "t-1", delegatorUserId := sampleId 1
       delegateUserId := sampleId 2, delegatedRoles := [Role.complianceOfficer.value]
       scope := "role_assignment", createdAt := .now 0, updatedAt := .now 0 }]

def deputyPlatform : IdentityPlatform := { samplePlatform with sha256 := actionDigest }

/-- What the outside world decides. -/
def deputyChoice : Choice Env := { env := { uuid := sampleId 9, now := sampleNow, token := "x" } }

/-- The context of the deputy. -/
def deputy : ExecutionContext :=
  contextOf { subject := "s-2" } (deputyTables.hydrated deputyPlatform sampleNow "s-2")

theorem deputy_hydrated : EndsAt sampleNow deputyTables
    (currentContext deputyPlatform (some { subject := "s-2" })) (.ok deputy) := by
  have ended : (play (postgres Unit) () (List.replicate 7 deputyChoice) { tables := deputyTables }
      freshSession (currentContext deputyPlatform (some { subject := "s-2" }))).any
        (·.1.toOption.isSome) = true := by
    decide +kernel
  rw [Option.any_eq_true] at ended
  obtain ⟨⟨result, db, s⟩, played, value⟩ := ended
  cases result with
  | error e => cases value
  | ok ctx =>
      have ends : EndsAt sampleNow deputyTables
          (currentContext deputyPlatform (some { subject := "s-2" })) (.ok ctx) :=
        ⟨0, _, db, s, fun choice member => by rw [List.eq_of_mem_replicate member]; rfl, played⟩
      rwa [ends.context (by decide)] at ends

/-- A request that the deputy's choices carry to an answer. -/
theorem endsIn_of_played {α : Type} {request : Request α} (steps : Nat) (φ : α → Tables → Prop)
    [∀ answer t', Decidable (φ answer t')]
    (ended : (play (postgres Unit) () (List.replicate steps deputyChoice) { tables := deputyTables }
      freshSession request).any (fun run => run.1.toOption.any fun answer =>
        decide (φ answer run.2.1.tables)) = true) :
    ∃ answer t', EndsIn sampleNow deputyTables request (.ok answer) t' ∧ φ answer t' := by
  rw [Option.any_eq_true] at ended
  obtain ⟨⟨result, db, s⟩, played, observed⟩ := ended
  cases result with
  | error e => cases observed
  | ok answer =>
      refine ⟨answer, db.tables, ⟨0, _, db, s, fun choice member => ?_, played, rfl⟩, ?_⟩
      · rw [List.eq_of_mem_replicate member]
        rfl
      · simpa [Except.toOption] using observed

/-- He delegates a role that ranks below his. -/
theorem deputy_delegates : ∃ answer t',
    EndsIn sampleNow deputyTables (getDbSession deputy (createDelegation deputyPlatform deputy
      (sampleId 3).str [Role.fieldAgent.value] "role_assignment" none)) (.ok answer) t' ∧
    ∃ row ∈ t'.delegations, answer.delegation = row.delegation ∧
      t'.effective sampleNow row = false :=
  endsIn_of_played 8 (fun (answer : DelegationSummary) t' => ∃ row ∈ t'.delegations,
    answer.delegation = row.delegation ∧ t'.effective sampleNow row = false) (by decide +kernel)

/-- He invites to that role. -/
theorem deputy_invites : ∃ answer t',
    EndsIn sampleNow deputyTables (getDbSession deputy (createInvitation deputyPlatform deputy
      "a@b.c" Role.fieldAgent.value)) (.ok answer) t' ∧
    ∀ row ∈ t'.invitations, t'.redeemable sampleNow row = false :=
  endsIn_of_played 11 (fun (_ : CreatedInvitation) t' => ∀ row ∈ t'.invitations, t'.redeemable sampleNow row = false)
    (by decide +kernel)

/-- **The deputy is accepted as a delegator, and the delegation grants nothing.** -/
theorem deputy_delegation_lost : ∃ ctx answer t',
    EndsAt sampleNow deputyTables (currentContext deputyPlatform (some { subject := "s-2" })) (.ok ctx) ∧
    EndsIn sampleNow deputyTables (getDbSession ctx (createDelegation deputyPlatform ctx
      (sampleId 3).str [Role.fieldAgent.value] "role_assignment" none)) (.ok answer) t' ∧
    ∃ row ∈ t'.delegations, answer.delegation = row.delegation ∧
      t'.effective sampleNow row = false := by
  obtain ⟨answer, t', ends, lost⟩ := deputy_delegates
  exact ⟨deputy, answer, t', deputy_hydrated, ends, lost⟩

/-- Both halves at the deputy: what he may grant himself is honoured, and nothing else. The
invitation that he has made cannot be redeemed, because he may not grant its role. -/
theorem accepted_honoured_iff_deputy :
    (∃ answer t',
      EndsIn sampleNow deputyTables (getDbSession deputy (createDelegation deputyPlatform deputy
        (sampleId 3).str [Role.fieldAgent.value] "role_assignment" none)) (.ok answer) t' ∧
      ∃ row ∈ t'.delegations, answer.delegation = row.delegation ∧
        (t'.effective sampleNow row = true ↔
          MayGrant deputyTables deputy [Role.fieldAgent.value])) ∧
    ∃ answer t',
      EndsIn sampleNow deputyTables (getDbSession deputy (createInvitation deputyPlatform deputy
        "a@b.c" Role.fieldAgent.value)) (.ok answer) t' ∧
      ∃ row ∈ t'.invitations, answer.invitationId = row.id.str ∧
        t'.redeemable sampleNow row = false ∧
        ¬ MayGrant deputyTables deputy [Role.fieldAgent.value] := by
  have unique : deputyTables.keys.Nodup := by decide
  constructor
  · obtain ⟨answer, t', ends, _⟩ := deputy_delegates
    exact ⟨answer, t', ends, (accepted_honoured_iff unique deputy_hydrated).1 _ _ _ _ _ _ ends⟩
  · obtain ⟨answer, t', ends, never⟩ := deputy_invites
    obtain ⟨row, stored, id, _, same, _⟩ :=
      (accepted_honoured_iff unique deputy_hydrated).2 _ _ _ _ ends
    have lost := never row stored
    refine ⟨answer, t', ends, row, stored, id, lost, fun mayGrant => ?_⟩
    rw [same.mpr mayGrant] at lost
    cases lost

end LandVault
