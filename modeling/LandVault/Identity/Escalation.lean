import LandVault.Identity.Grants

/-!
# How far authority goes

Over a whole run no user's rank, stored or hydrated, passes the highest rank that a user
had at its start: whoever assigns, invites or delegates gives at most what they have.
The self-assignment check compares texts, though, so a caller whose own identifier is
spelled otherwise may assign roles to themselves; and an assignment counts the roles
that the caller has by delegation, which stay with the assigned user when the delegation
has gone.
-/

set_option autoImplicit false

namespace LandVault

open Kernel Identity Registry Library.Programs Library.ReadCommitted Python

/-- The token with which a request comes. -/
def Identity.IdentityRequest.caller : IdentityRequest → Option Claims
  | .auth token _ | .admin token _ => token
  | .hydrate _ | .suspendUser _ _ => none

/-- What a hydrator answers is what the tables say. -/
theorem EndsAt.hydrated {platform : IdentityPlatform} {t : Tables} {now : DateTime} {subject : String}
    {attrs : Option Attributes} (unique : t.keys.Nodup)
    (ends : EndsAt now t (buildProductionContextHydrator platform subject) (.ok attrs)) :
    attrs = t.hydrated platform now subject := by
  obtain ⟨db, s, _, now', rfl, same⟩ := ends.answered unique fun db s idle =>
    idle.buildProductionContextHydrator (.at now) subject
  exact same

/-! ## Who stands behind a delegation -/

/-- A delegator whose authority makes a delegation effective. -/
structure Backs (t : Tables) (row : DelegationRecord) (delegator : UserRecord) : Prop where
  stored : delegator ∈ t.identityUsers
  id : delegator.id = row.delegatorUserId
  mayAct : t.MayAct delegator.identitySubject delegator
  ranked : highestRank row.delegatedRoles ≤ highestRank delegator.roles

theorem Tables.backs_of_effective {t : Tables} {now : DateTime} {row : DelegationRecord}
    (grants : t.effective now row = true) : ∃ delegator, Backs t row delegator := by
  simp only [effective, delegationIsEffective, ineffectiveReason, Option.isNone_iff_eq_none] at grants
  split at grants
  · cases grants
  split at grants
  · cases grants
  split at grants
  · cases grants
  rename_i delegator found
  split at grants
  · cases grants
  rename_i authenticates
  split at grants
  · cases grants
  rename_i sameTenant
  split at grants
  · cases grants
  rename_i active
  split at grants
  · cases grants
  rename_i ranked
  have stored := List.mem_of_find?_eq_some found
  obtain ⟨tenant, known, isActive⟩ : ∃ tenant, t.tenants.find? (·.id = row.tenantId) = some tenant ∧
      tenant.isActive = true := by
    simpa [Option.any_eq_true] using active
  refine ⟨delegator, stored, by simpa using List.find?_some found,
    ⟨stored, rfl, by simpa using authenticates, tenant, List.mem_of_find?_eq_some known, ?_, isActive⟩,
    not_lt.mp ranked⟩
  have tenantId : delegator.tenantId = row.tenantId := not_not.mp sameTenant
  have named : tenant.id = row.tenantId := by simpa using List.find?_some known
  rw [named, tenantId]

/-! ## The ceiling -/

namespace Tables

/-- The highest rank of a user's own roles, or 0. -/
def ceiling (t : Tables) : Int :=
  (t.identityUsers.map fun user => highestRank user.roles).foldr max 0

theorem ceiling_nonneg (t : Tables) : 0 ≤ t.ceiling := by
  unfold ceiling
  induction t.identityUsers with
  | nil => exact le_rfl
  | cons user users ih => exact le_max_of_le_right ih

theorem rank_le_ceiling {t : Tables} {user : UserRecord} (stored : user ∈ t.identityUsers) :
    highestRank user.roles ≤ t.ceiling := by
  unfold ceiling
  generalize t.identityUsers = users at stored
  induction stored with
  | head users => exact le_max_left _ _
  | tail first _ ih => exact le_max_of_le_right ih

/-- No user's own roles are above the bound. -/
def Below (bound : Int) (t : Tables) : Prop :=
  ∀ user ∈ t.identityUsers, highestRank user.roles ≤ bound

/-- Hydration adds no rank that nobody has. -/
theorem Below.hydrated {platform : IdentityPlatform} {t : Tables} {bound : Int}
    (below : t.Below bound) (nonneg : 0 ≤ bound) (unique : t.keys.Nodup) {now : DateTime}
    {subject : String} {attrs : Attributes} (same : t.hydrated platform now subject = some attrs) :
    highestRank attrs.roles ≤ bound := by
  obtain ⟨user, mayAct, exact, _⟩ := (t.exact_hydrated platform unique now subject).some_of same
  refine (highestRank_le_iff (by omega)).mpr fun role holds => ?_
  rcases (exact role).mp holds with direct | ⟨row, _, _, _, reported, granted⟩
  · exact (roleRank_le_highestRank direct).trans (below user mayAct.1)
  · obtain ⟨delegator, backs⟩ := backs_of_effective (Option.some.inj reported)
    exact ((roleRank_le_highestRank granted).trans backs.ranked).trans (below delegator backs.stored)

end Tables

section Ceiling

variable {platform : IdentityPlatform} {t u : Tables} {request : IdentityRequest} {bound : Int}

theorem Assigns.below {claims : Claims} {user : UserRecord} {role : String}
    (assigns : Assigns platform t request claims user role) (below : t.Below bound)
    (nonneg : 0 ≤ bound) (unique : t.keys.Nodup) : roleRank role ≤ bound := by
  obtain ⟨target, _, _, now, _, admitted, ranked⟩ := assigns.asks
  refine ranked.trans ?_
  cases same : t.hydrated platform now claims.subject with
  | none => simp [Tables.context, same, contextOf, ExecutionContext.hasAnyRole] at admitted
  | some attrs =>
      simp only [Tables.context, same, contextOf]
      exact below.hydrated nonneg unique same

theorem Descends.below {user' : UserRecord} (descends : Descends platform t request user')
    (below : t.Below bound) (nonneg : 0 ≤ bound) (unique : t.keys.Nodup) :
    highestRank user'.roles ≤ bound := by
  cases descends with
  | kept stored _ roles => exact roles ▸ below _ stored
  | assigned stored _ assigns roles =>
      rw [roles, highestRank_le_iff (by omega)]
      intro role holds
      rcases List.mem_append.mp holds with old | new
      · exact (roleRank_le_highestRank old).trans (below _ stored)
      · cases List.mem_singleton.mp new
        exact assigns.below below nonneg unique
  | registered _ _ roles =>
      rw [roles]
      exact nonneg
  | redeemed _ _ vouched roles =>
      rw [roles]
      exact vouched.ranked.trans (below _ vouched.stored)

/-- **The step lemma for ranks.** -/
theorem Step.below (step : Step platform t request u) (below : t.Below bound) (nonneg : 0 ≤ bound)
    (unique : t.keys.Nodup) : u.Below bound :=
  fun user' stored => (step.succeeds.descends user' stored).below below nonneg unique

end Ceiling

/-- The request assigns a role to the user of its own caller. -/
def AssignsOwn (platform : IdentityPlatform) (request : IdentityRequest) (t : Tables) : Prop :=
  ∃ claims user role, user ∈ t.identityUsers ∧ user.identitySubject = claims.subject ∧
    Assigns platform t request claims user role

theorem assigns_records {platform : IdentityPlatform} {t : Tables} {request : IdentityRequest}
    {claims : Claims} {user : UserRecord} {role : String} :
    Assigns platform t.records request claims user role ↔ Assigns platform t request claims user role :=
  ⟨fun ⟨asks, known, lacks⟩ => ⟨asks, known, lacks⟩, fun ⟨asks, known, lacks⟩ => ⟨asks, known, lacks⟩⟩

/-- The request leaves the own roles of its caller as they are. -/
def KeepsOwnRoles (request : IdentityRequest) (t t' : Tables) : Prop :=
  ∀ claims, request.caller = some claims → ∀ user ∈ t.identityUsers,
    user.identitySubject = claims.subject →
    ∃ user' ∈ t'.identityUsers, user'.id = user.id ∧ user'.roles = user.roles

theorem Step.keepsOwnRoles {platform : IdentityPlatform} {t u : Tables} {request : IdentityRequest}
    (step : Step platform t request u) (unique : t.keys.Nodup)
    (others : ¬ AssignsOwn platform request t) : KeepsOwnRoles request t u := by
  intro claims asks user stored own
  obtain ⟨user', stored', id⟩ := step.succeeds.persists user stored
  refine ⟨user', stored', id, ?_⟩
  rcases (step.succeeds.descends user' stored').of_stored unique stored id with
    same | ⟨claims', role, assigns, _⟩
  · exact same
  · obtain ⟨target, rfl, _⟩ := assigns.asks
    cases asks
    exact absurd ⟨claims, user, role, stored, own, assigns⟩ others

/-- **The ceiling over whole runs.** No stored and no hydrated role passes the highest rank
of the start; and as long as nobody assigns a role to themselves, no caller changes their
own roles. -/
theorem privilege_ceiling {platform : IdentityPlatform} {t t' : Tables} (unique : t.keys.Nodup)
    {admitted : IdentityRequest → Tables → Prop} (runs : Runs platform admitted t t') :
    (∀ user ∈ t'.identityUsers, highestRank user.roles ≤ t.ceiling) ∧
    (∀ now subject attrs,
      EndsAt now t' (buildProductionContextHydrator platform subject) (.ok (some attrs)) →
      highestRank attrs.roles ≤ t.ceiling) ∧
    ∀ request t'' answer, ¬ AssignsOwn platform request t' →
      Leaves t' (request.handle platform) t'' answer → KeepsOwnRoles request t' t'' := by
  have unique' := runs.unique unique
  have initial : t.records.Below t.ceiling := fun _ => Tables.rank_le_ceiling
  have kept : t'.records.Below t.ceiling :=
    runs.keeps unique initial fun t₁ request u unique₁ _ below step =>
      step.below below t.ceiling_nonneg (Tables.records_keys_nodup unique₁)
  have below : t'.Below t.ceiling := kept
  refine ⟨below, ?_, ?_⟩
  · intro now subject attrs ends
    exact below.hydrated t.ceiling_nonneg unique' (ends.hydrated unique').symm
  · intro request t'' answer others leaves
    refine (step_of_leaves unique' leaves).2.keepsOwnRoles (Tables.records_keys_nodup unique') ?_
    rintro ⟨claims, user, role, stored, own, assigns⟩
    exact others ⟨claims, user, role, stored, own, assigns_records.mp assigns⟩

/-- A compliance officer, a surveyor and a general user of one tenant. -/
def office : Tables where
  tenants := [{ id := "t-1" }]
  identityUsers :=
    [{ id := sampleId 1, tenantId := "t-1", identitySubject := "s-1", email := "1"
       roles := [Role.complianceOfficer.value] },
     { id := sampleId 2, tenantId := "t-1", identitySubject := "s-2", email := "2"
       roles := [Role.surveyor.value] },
     { id := sampleId 3, tenantId := "t-1", identitySubject := "s-3", email := "3" }]

/-- The officer makes the general user a field agent. -/
def appointment : IdentityRequest :=
  .admin (some { subject := "s-1" })
    (.assignRole "00000000-0000-0000-0000-000000000003" Role.fieldAgent.value)

theorem not_assignsOwn_appointment : ¬ AssignsOwn samplePlatform appointment office := by
  rintro ⟨claims, user, role, stored, own, ⟨target, same, named, _⟩, _, _⟩
  cases same
  have third : user.id = sampleId 3 := by
    refine Option.some.inj (named.symm.trans ?_)
    decide +kernel
  simp only [office, List.mem_cons, List.not_mem_nil, or_false] at stored
  rcases stored with rfl | rfl | rfl
  · exact absurd third (by decide)
  · exact absurd third (by decide)
  · exact absurd own (by decide)

theorem privilege_ceiling_sample :
    ∃ t', Runs samplePlatform (fun request t => ¬ AssignsOwn samplePlatform request t) office t' ∧
      Role.fieldAgent.value ∈ t'.identityUsers.flatMap (·.roles) ∧
      ∀ user ∈ t'.identityUsers, highestRank user.roles ≤ 40 := by
  obtain ⟨t', appointed, answer, leaves⟩ := leaves_of_playedTables (sampleId 9) 14 appointment office
    (fun t' => Role.fieldAgent.value ∈ t'.identityUsers.flatMap (·.roles)) (by decide +kernel)
  have runs : Runs samplePlatform (fun request t => ¬ AssignsOwn samplePlatform request t) office t' :=
    .step .start not_assignsOwn_appointment leaves
  have ceiling := privilege_ceiling (by decide : office.keys.Nodup) runs
  refine ⟨t', runs, appointed, fun user stored => (ceiling.1 user stored).trans ?_⟩
  decide

/-- The officer names themselves, without hyphens. -/
def selfAssignment : IdentityRequest :=
  .admin (some { subject := "s-1" })
    (.assignRole "00000000000000000000000000000001" Role.surveyorGeneral.value)

/-- The officer becomes a surveyor general by a request of their own. -/
theorem selfAssignment_changesOwnRoles :
    office.keys.Nodup ∧ ∃ t' answer,
      Leaves office (selfAssignment.handle samplePlatform) t' answer ∧
      ¬ KeepsOwnRoles selfAssignment office t' := by
  refine ⟨by decide, ?_⟩
  obtain ⟨t', changed, answer, leaves⟩ := leaves_of_playedTables (sampleId 9) 14 selfAssignment office
    (fun t' => ∀ user ∈ t'.identityUsers, user.id = sampleId 1 →
      user.roles ≠ [Role.complianceOfficer.value]) (by decide +kernel)
  refine ⟨t', answer, leaves, fun keeps => ?_⟩
  obtain ⟨user', stored, id, roles⟩ := keeps { subject := "s-1" } rfl _ List.mem_cons_self rfl
  exact changed user' stored id roles

/-! ## Borrowed authority -/

/-- The request assigns a role above the stored roles of its caller, who has the rank by
delegation only. -/
def AssignsBorrowed (platform : IdentityPlatform) (request : IdentityRequest) (t : Tables) : Prop :=
  ∃ claims granter user role, granter ∈ t.identityUsers ∧
    granter.identitySubject = claims.subject ∧ user ∈ t.identityUsers ∧
    Assigns platform t request claims user role ∧ highestRank granter.roles < roleRank role

/-- The granter gives the role to the user by this request: as the caller who assigns it,
or as the inviter of the invitation that is redeemed. -/
inductive Grants (platform : IdentityPlatform) (t : Tables) (request : IdentityRequest)
    (user granter : UserRecord) (role : String) : Prop where
  | assignment {claims : Claims} {target : String} (stored : granter ∈ t.identityUsers)
      (asks : request = .admin (some claims) (.assignRole target role))
      (named : UUID.parse target = some user.id) (own : granter.identitySubject = claims.subject)
  | redemption {invitation : InvitationRecord} (stored : granter ∈ t.identityUsers)
      (presents : (request.presents platform).invitation = some invitation.tokenHash)
      (invited : invitation ∈ t.invitations) (grants : invitation.role = role)
      (inviter : granter.id = invitation.invitedBy)

/-- The request is a registration, and the user is new with it. -/
structure NewlyRegistered (t : Tables) (request : IdentityRequest) (user : UserRecord) : Prop where
  asks : ∃ token email password fullName country,
    request = .auth token (.register email password fullName country)
  fresh : ∀ other ∈ t.identityUsers, other.id ≠ user.id

/-- The request gives the user the role: the default one, which is nobody's to give, or one
for which the stored roles of its granter suffice. -/
def GivesOwned (platform : IdentityPlatform) (t : Tables) (request : IdentityRequest)
    (user : UserRecord) (role : String) : Prop :=
  role = Role.generalUser.value ∧ NewlyRegistered t request user ∨
    ∃ granter, Grants platform t request user granter role ∧ roleRank role ≤ highestRank granter.roles

/-- Every role that a user has now and had not before is the default role of a
registration, or was given by a granter whose own stored roles suffice for it. -/
def GrantsOwned (platform : IdentityPlatform) (request : IdentityRequest) (t t' : Tables) : Prop :=
  ∀ user' ∈ t'.identityUsers, ∀ role ∈ user'.roles,
    (∃ user ∈ t.identityUsers, user.id = user'.id ∧ role ∈ user.roles) ∨
      GivesOwned platform t request user' role

theorem asks_of_registers {platform : IdentityPlatform} {request : IdentityRequest}
    (registers : (request.presents platform).registers = true) :
    ∃ token email password fullName country,
      request = .auth token (.register email password fullName country) := by
  cases request with
  | auth token request =>
      cases request with
      | register email password fullName country => exact ⟨token, email, password, fullName, country, rfl⟩
      | acceptInvitation token' | acceptInvitationSupabase token' =>
          simp only [IdentityRequest.presents, AuthRequest.presents, presentsInvitation] at registers
          split at registers <;> cases registers
      | _ => cases registers
  | _ => cases registers

theorem Step.grantsOwned {platform : IdentityPlatform} {t u : Tables} {request : IdentityRequest}
    (step : Step platform t request u) (unique : t.keys.Nodup)
    (owned : ¬ AssignsBorrowed platform request t) : GrantsOwned platform request t u := by
  intro user' stored role holds
  cases step.succeeds.descends user' stored with
  | kept stored' id roles => exact .inl ⟨_, stored', id.symm, roles ▸ holds⟩
  | @assigned claims user added stored' id assigns roles =>
      rw [roles] at holds
      rcases List.mem_append.mp holds with old | new
      · exact .inl ⟨_, stored', id.symm, old⟩
      cases List.mem_singleton.mp new
      obtain ⟨target, asks, named, now, _, admitted, _⟩ := assigns.asks
      obtain ⟨granter, mayAct, _⟩ := Tables.context_user unique admitted
      refine .inr (.inr ⟨granter, .assignment mayAct.1 asks (id ▸ named) mayAct.2.1, ?_⟩)
      by_contra above
      exact owned ⟨claims, granter, user, role, mayAct.1, mayAct.2.1, stored', assigns,
        not_le.mp above⟩
  | registered registers fresh roles =>
      rw [roles] at holds
      exact .inr (.inl ⟨List.mem_singleton.mp holds, asks_of_registers registers, fresh⟩)
  | redeemed _ presents vouched roles =>
      rw [roles] at holds
      cases List.mem_singleton.mp holds
      exact .inr (.inr ⟨_, .redemption vouched.stored presents vouched.invited rfl vouched.named,
        vouched.ranked⟩)

/-- Whether a row was loaded does not matter to who gives a role. -/
theorem givesOwned_of_records {platform : IdentityPlatform} {t : Tables} {request : IdentityRequest}
    {user : UserRecord} {role : String} (gives : GivesOwned platform t.records request user role) :
    GivesOwned platform t request user role := by
  refine gives.imp (fun ⟨same, registers⟩ => ⟨same, registers.asks, registers.fresh⟩) ?_
  rintro ⟨granter, given, enough⟩
  refine ⟨granter, ?_, enough⟩
  cases given with
  | assignment stored asks named own => exact .assignment stored asks named own
  | redemption stored presents invited grants inviter =>
      exact .redemption stored presents invited grants inviter

/-- Requests of a run, up to the tables of one moment and on from the next. -/
def Moment (platform : IdentityPlatform) (admitted : IdentityRequest → Tables → Prop)
    (t t' : Tables) (φ : Tables → IdentityRequest → Prop) : Prop :=
  ∃ t₁ request t₂ answer, Runs platform admitted t t₁ ∧ admitted request t₁ ∧
    Leaves t₁ (request.handle platform) t₂ answer ∧ Runs platform admitted t₂ t' ∧ φ t₁ request

/-- **Delegated authority is not made permanent.** As long as nobody assigns a role
above their own stored ones, every role was given by somebody whose stored roles
sufficed for it at that moment, whatever delegations there were: a role that a user has
at the end is from the start, or from such a moment of the run, or the default of the
registration that made the user. -/
theorem authority_not_borrowed {platform : IdentityPlatform} {t t' : Tables} (unique : t.keys.Nodup)
    (runs : Runs platform (fun request t => ¬ AssignsBorrowed platform request t) t t') :
    (∀ request t'' answer, ¬ AssignsBorrowed platform request t' →
      Leaves t' (request.handle platform) t'' answer → GrantsOwned platform request t' t'') ∧
    ∀ user' ∈ t'.identityUsers, ∀ role ∈ user'.roles,
      (∃ user ∈ t.identityUsers, user.id = user'.id ∧ role ∈ user.roles) ∨
      Moment platform (fun request t => ¬ AssignsBorrowed platform request t) t t'
        fun t₁ request => ∃ user, user.id = user'.id ∧ GivesOwned platform t₁ request user role := by
  have grants : ∀ {t₁ request t₂ answer}, t₁.keys.Nodup → ¬ AssignsBorrowed platform request t₁ →
      Leaves t₁ (request.handle platform) t₂ answer → GrantsOwned platform request t₁ t₂ := by
    intro t₁ request t₂ answer unique₁ owned leaves user' stored role holds
    have step := (step_of_leaves unique₁ leaves).2
    refine (step.grantsOwned (Tables.records_keys_nodup unique₁) ?_ user' stored role holds).imp id
      givesOwned_of_records
    rintro ⟨claims, granter, user, role, stored, own, stored', assigns, above⟩
    exact owned ⟨claims, granter, user, role, stored, own, stored', assigns_records.mp assigns, above⟩
  refine ⟨fun request t'' answer => grants (runs.unique unique), ?_⟩
  induction runs with
  | start => exact fun user' stored role holds => .inl ⟨user', stored, rfl, holds⟩
  | @step t₁ t₂ request answer before owned leaves ih =>
      intro user' stored role holds
      rcases grants (before.unique unique) owned leaves user' stored role holds with
        ⟨user, stored₁, id, held⟩ | gives
      · rcases ih user stored₁ role held with ⟨first, initial, id', held'⟩ | moment
        · exact .inl ⟨first, initial, id'.trans id, held'⟩
        · obtain ⟨t₃, earlier, t₄, answer', before', owned', leaves', after, someone, named, gives⟩ :=
            moment
          exact .inr ⟨t₃, earlier, t₄, answer', before', owned', leaves', .step after owned leaves,
            someone, named.trans id, gives⟩
      · exact .inr ⟨t₁, request, t₂, answer, before, owned, leaves, .start, user', rfl, gives⟩

/-- Without delegations, an appointment borrows no authority. -/
theorem not_assignsBorrowed_appointment : ¬ AssignsBorrowed samplePlatform appointment office := by
  rintro ⟨claims, granter, user, role, stored, own, _, ⟨⟨target, same, _⟩, _, _⟩, above⟩
  cases same
  simp only [office, List.mem_cons, List.not_mem_nil, or_false] at stored
  rcases stored with rfl | rfl | rfl
  · exact absurd above (by decide)
  · exact absurd own (by decide)
  · exact absurd own (by decide)

theorem authority_not_borrowed_sample :
    ∃ t', Runs samplePlatform (fun request t => ¬ AssignsBorrowed samplePlatform request t) office t' ∧
      ∃ user ∈ t'.identityUsers, Role.fieldAgent.value ∈ user.roles ∧
        Moment samplePlatform (fun request t => ¬ AssignsBorrowed samplePlatform request t) office t'
          fun t₁ request => ∃ user₁, user₁.id = user.id ∧
            GivesOwned samplePlatform t₁ request user₁ Role.fieldAgent.value := by
  obtain ⟨t', ⟨user, appointed, holds⟩, answer, leaves⟩ := leaves_of_playedTables (sampleId 9) 14
    appointment office (fun t' => ∃ user ∈ t'.identityUsers, Role.fieldAgent.value ∈ user.roles)
    (by decide +kernel)
  have runs : Runs samplePlatform (fun request t => ¬ AssignsBorrowed samplePlatform request t)
      office t' := .step .start not_assignsBorrowed_appointment leaves
  refine ⟨t', runs, user, appointed, holds, ?_⟩
  rcases (authority_not_borrowed (by decide : office.keys.Nodup) runs).2 user appointed _ holds
    with ⟨before, stored, _, held⟩ | moment
  · have nobody : ∀ before ∈ office.identityUsers, Role.fieldAgent.value ∉ before.roles := by decide
    exact absurd held (nobody before stored)
  · exact moment

/-- The officer delegates their role to the surveyor. -/
def deputation : IdentityRequest :=
  .admin (some { subject := "s-1" })
    (.createDelegation "00000000-0000-0000-0000-000000000002" [Role.complianceOfficer.value]
      "role_assignment" none)

/-- The surveyor, as a deputy, makes the general user a compliance officer. -/
def borrowedAppointment : IdentityRequest :=
  .admin (some { subject := "s-2" })
    (.assignRole "00000000-0000-0000-0000-000000000003" Role.complianceOfficer.value)

/-- The deputy, whose own rank is 20, gives away a role of rank 40. -/
theorem borrowedAppointment_not_owned :
    office.keys.Nodup ∧ ∃ t₁ t₂ answer, Runs samplePlatform (fun _ _ => True) office t₁ ∧
      Leaves t₁ (borrowedAppointment.handle samplePlatform) t₂ answer ∧
      ¬ GrantsOwned samplePlatform borrowedAppointment t₁ t₂ := by
  refine ⟨by decide, ?_⟩
  obtain ⟨t₁, t₂, answer, runs, leaves, ⟨user, stored, third, holds⟩, nobody, low⟩ :=
    leaves_after_playedRun [(sampleId 8, 13, deputation)] (sampleId 9) 16 borrowedAppointment office
      (fun t₁ t₂ =>
        (∃ user ∈ t₂.identityUsers, user.id = sampleId 3 ∧ Role.complianceOfficer.value ∈ user.roles) ∧
        (∀ user ∈ t₁.identityUsers, user.id = sampleId 3 →
          Role.complianceOfficer.value ∉ user.roles) ∧
        ∀ user ∈ t₁.identityUsers, user.identitySubject = "s-2" →
          highestRank user.roles < roleRank Role.complianceOfficer.value)
      (by decide +kernel)
  refine ⟨t₁, t₂, answer, runs, leaves, fun owned => ?_⟩
  rcases owned user stored _ holds with
    ⟨before, stored₁, id, held⟩ | ⟨default, _⟩ | ⟨granter, given, enough⟩
  · exact nobody before stored₁ (id.trans third) held
  · exact absurd default (by decide)
  · cases given with
    | assignment stored₁ asks _ own =>
        cases asks
        exact absurd enough (not_le.mpr (low granter stored₁ own))
    | redemption _ presents => cases presents

/-! ## Delegates at the gates -/

/-- The roles of which one admits a caller: `GOVERNANCE_ROLES`, `PARCEL_REGISTRANT_ROLES`
and the role of a super admin. -/
def gates : List (List String) :=
  [governanceRoles, parcelRegistrantRoles, [Role.superAdmin.value]]

/-- Where the delegated roles pass a gate, the delegator passes it with the roles that
they are hydrated with at that moment. -/
def GatesKept (platform : IdentityPlatform) (t : Tables) : Prop :=
  ∀ now, ∀ row ∈ t.delegations, t.effective now row = true → ∀ gate ∈ gates,
    (∃ role ∈ row.delegatedRoles, role ∈ gate) →
    ∃ delegator ∈ t.identityUsers, delegator.id = row.delegatorUserId ∧ ∀ attrs,
      EndsAt now t (buildProductionContextHydrator platform delegator.identitySubject) (.ok attrs) →
      ∃ given, attrs = some given ∧ ∃ role ∈ given.roles, role ∈ gate

/-- The roles open the gate of parcel registration, and by rank alone it could be that
none of a delegator's does. -/
def OpensBelowRank (roles : List String) : Prop :=
  (∃ role ∈ roles, role ∈ parcelRegistrantRoles) ∧ ∀ role ∈ roles, roleRank role < 30

/-- The request delegates such roles, and its caller may register parcels by delegation
only. -/
def DelegatesUnbacked (platform : IdentityPlatform) (request : IdentityRequest) (t : Tables) : Prop :=
  ∃ claims delegate roles scope expiresAt now delegator,
    request = .admin (some claims) (.createDelegation delegate roles scope expiresAt) ∧
    (t.context platform now claims).hasAnyRole governanceRoles = true ∧
    highestRank roles ≤ highestRank (t.context platform now claims).roles ∧
    delegator ∈ t.identityUsers ∧ delegator.identitySubject = claims.subject ∧
    OpensBelowRank roles ∧ ∀ role ∈ delegator.roles, role ∉ parcelRegistrantRoles

/-- A delegation of such roles has a delegator who may register parcels by their own
roles. -/
def Backed (t : Tables) (row : DelegationRecord) : Prop :=
  OpensBelowRank row.delegatedRoles → ∃ delegator ∈ t.identityUsers,
    delegator.id = row.delegatorUserId ∧ ∃ role ∈ delegator.roles, role ∈ parcelRegistrantRoles

theorem mem_governanceRoles_of_rank {role : String} (high : 40 ≤ roleRank role) :
    role ∈ governanceRoles := by
  unfold roleRank at high
  split at high <;> first | omega | decide

theorem rank_of_mem_governanceRoles {role : String} (member : role ∈ governanceRoles) :
    40 ≤ roleRank role := by
  revert role
  decide

theorem eq_superAdmin_of_rank {role : String} (high : 100 ≤ roleRank role) :
    role = Role.superAdmin.value := by
  unfold roleRank at high
  split at high <;> first | omega | rfl

theorem mem_parcelRegistrantRoles_of_rank {role : String} (high : 30 ≤ roleRank role) :
    role ∈ parcelRegistrantRoles := by
  unfold roleRank at high
  split at high <;> first | omega | decide

/-- A list of roles that has a rank has a role of that rank. -/
theorem exists_role_of_rank {roles : List String} {rank : Int} (nonneg : 0 ≤ rank)
    (high : rank ≤ highestRank roles) : ∃ role ∈ roles, rank ≤ roleRank role := by
  by_contra none
  have low : ∀ role ∈ roles, roleRank role ≤ rank - 1 := by
    intro role member
    by_contra above
    exact none ⟨role, member, by omega⟩
  have := (highestRank_le_iff (by omega)).mpr low
  omega

/-- Where the delegation is backed, some role of the delegator's own passes the gate. -/
theorem Backs.passes {t : Tables} (unique : t.keys.Nodup) {row : DelegationRecord}
    {delegator : UserRecord} (backs : Backs t row delegator) (backed : Backed t row)
    {gate : List String} (listed : gate ∈ gates)
    (opens : ∃ role ∈ row.delegatedRoles, role ∈ gate) : ∃ role ∈ delegator.roles, role ∈ gate := by
  obtain ⟨opener, granted, member⟩ := opens
  have reached : ∀ {rank}, 0 ≤ rank → rank ≤ roleRank opener →
      ∃ role ∈ delegator.roles, rank ≤ roleRank role := fun nonneg low =>
    exists_role_of_rank nonneg ((low.trans (roleRank_le_highestRank granted)).trans backs.ranked)
  simp only [gates, List.mem_cons, List.not_mem_nil, or_false] at listed
  rcases listed with rfl | rfl | rfl
  · obtain ⟨role, held, high⟩ := reached (by decide) (rank_of_mem_governanceRoles member)
    exact ⟨role, held, mem_governanceRoles_of_rank high⟩
  · by_cases low : ∀ role ∈ row.delegatedRoles, roleRank role < 30
    · obtain ⟨owner, stored, id, role, held, registrant⟩ := backed ⟨⟨opener, granted, member⟩, low⟩
      have same : owner = delegator := List.inj_on_of_nodup_map (Entity.keys_nodup .user unique) stored
        backs.stored (id.trans backs.id.symm)
      exact ⟨role, same ▸ held, registrant⟩
    · push Not at low
      obtain ⟨high, granted', above⟩ := low
      obtain ⟨role, held, rank⟩ := exists_role_of_rank (by decide)
        ((above.trans (roleRank_le_highestRank granted')).trans backs.ranked)
      exact ⟨role, held, mem_parcelRegistrantRoles_of_rank rank⟩
  · cases List.mem_singleton.mp member
    have top : (100 : Int) ≤ roleRank Role.superAdmin.value := by decide
    obtain ⟨role, held, high⟩ := reached (by decide) top
    exact ⟨role, held, by simp [eq_superAdmin_of_rank high]⟩

theorem Delegated.backed {platform : IdentityPlatform} {t u : Tables} {request : IdentityRequest}
    (unique : t.keys.Nodup) (step : Step platform t request u)
    (admitted : ¬ DelegatesUnbacked platform request t)
    (backed : ∀ row ∈ t.delegations, Backed t row) : ∀ row ∈ u.delegations, Backed u row := by
  have kept : ∀ {row row'}, Backed t row → row'.delegatorUserId = row.delegatorUserId →
      row'.delegatedRoles = row.delegatedRoles → Backed u row' := by
    intro row row' backed owner roles opens
    obtain ⟨delegator, stored, id, role, held, registrant⟩ := backed (roles ▸ opens)
    obtain ⟨delegator', stored', id', grown⟩ := step.grows unique stored
    exact ⟨delegator', stored', id'.trans (id.trans owner.symm), role, grown role held, registrant⟩
  intro row' member
  cases step.delegated row' member with
  | kept stored grant => exact kept (backed _ stored) grant.delegatorUserId grant.delegatedRoles
  | @created claims now delegate scope expiresAt asks passes ranked owner =>
      obtain ⟨delegator, mayAct, principal, _⟩ := Tables.context_user unique passes
      rw [principal, UUID.parse_str] at owner
      have owned : Backed t row' := by
        intro opens
        by_contra unbacked
        push Not at unbacked
        exact admitted ⟨claims, delegate, _, scope, expiresAt, now, delegator, asks, passes, ranked,
          mayAct.1, mayAct.2.1, opens, unbacked delegator mayAct.1 (Option.some.inj owner)⟩
      exact kept owned rfl rfl

/-- **A delegate passes no gate that the delegator cannot pass**, as long as nobody
delegates the registration of parcels who may register them by delegation only. -/
theorem gates_kept {platform : IdentityPlatform} {t t' : Tables} (unique : t.keys.Nodup)
    (initial : t.delegations = [])
    (runs : Runs platform (fun request t => ¬ DelegatesUnbacked platform request t) t t') :
    GatesKept platform t' := by
  have unique' := runs.unique unique
  have start : ∀ row ∈ t.records.delegations, Backed t.records row := by
    intro row member
    rw [show t.records.delegations = [] from initial] at member
    cases member
  have backed : ∀ row ∈ t'.records.delegations, Backed t'.records row := by
    refine runs.keeps (I := fun t => ∀ row ∈ t.delegations, Backed t row) unique start ?_
    intro t₁ request u unique₁ admitted backed step
    exact Delegated.backed (Tables.records_keys_nodup unique₁) step admitted backed
  intro now row member effective gate listed opens
  obtain ⟨delegator, backs⟩ := Tables.backs_of_effective effective
  obtain ⟨role, held, passes⟩ := backs.passes unique' (backed row member) listed opens
  refine ⟨delegator, backs.stored, backs.id, fun attrs ends => ?_⟩
  have same := ends.hydrated unique'
  have exact := t'.exact_hydrated platform unique' now delegator.identitySubject
  cases attrs with
  | none => exact absurd ⟨delegator, backs.mayAct⟩ (exact.none_iff.mp same.symm)
  | some given =>
      obtain ⟨user, mayAct, roles, _⟩ := exact.some_of same.symm
      have named : user = delegator := List.inj_on_of_nodup_map (Tables.identitySubjects_nodup unique')
        mayAct.1 backs.stored mayAct.2.1
      exact ⟨given, rfl, role, (roles role).mpr (.inl (named ▸ held)), passes⟩

theorem not_delegatesUnbacked_deputation : ¬ DelegatesUnbacked samplePlatform deputation office := by
  rintro ⟨claims, delegate, roles, scope, expiresAt, now, delegator, asks, _, _, _, _, ⟨_, low⟩, _⟩
  cases asks
  exact absurd (low _ List.mem_cons_self) (by decide)

theorem gates_kept_sample :
    ∃ t', t'.delegations ≠ [] ∧
      Runs samplePlatform (fun request t => ¬ DelegatesUnbacked samplePlatform request t) office t' ∧
      GatesKept samplePlatform t' := by
  obtain ⟨t', granted, answer, leaves⟩ := leaves_of_playedTables (sampleId 8) 13 deputation office
    (fun t' => t'.delegations ≠ []) (by decide +kernel)
  have runs : Runs samplePlatform (fun request t => ¬ DelegatesUnbacked samplePlatform request t)
      office t' := .step .start not_delegatesUnbacked_deputation leaves
  exact ⟨t', granted, runs, gates_kept (by decide) rfl runs⟩

/-- The deputy makes the general user a field agent by delegation. -/
def pettyDeputation : IdentityRequest :=
  .admin (some { subject := "s-2" })
    (.createDelegation "00000000-0000-0000-0000-000000000003" [Role.fieldAgent.value]
      "role_assignment" none)

/-- The officer revokes the delegation to the deputy. -/
def recalling : IdentityRequest :=
  .admin (some { subject := "s-1" }) (.revokeDelegation "00000000-0000-0000-0000-000000000008")

/-- What a subject is hydrated with, played with one choice for all statements. -/
def playedHydration (steps : Nat) (subject : String) (t : Tables) : Option (Option Attributes) :=
  match play (postgres Unit) () (List.replicate steps { env := { uuid := sampleId 0, now := sampleNow } })
    { tables := t } freshSession (buildProductionContextHydrator samplePlatform subject) with
  | some (.ok attrs, _) => some attrs
  | _ => none

theorem endsAt_of_playedHydration {steps : Nat} {subject : String} {t : Tables}
    {attrs : Option Attributes} (played : playedHydration steps subject t = some attrs) :
    EndsAt sampleNow t (buildProductionContextHydrator samplePlatform subject) (.ok attrs) := by
  unfold playedHydration at played
  split at played
  · rename_i given left ended
    cases played
    exact ⟨0, _, _, _, fun choice member => by rw [List.eq_of_mem_replicate member], ended⟩
  · cases played

/-- After the revocation the field agent's delegation still grants, and its delegator is a mere
surveyor. -/
theorem recalled_run : ∃ t', Runs samplePlatform (fun _ _ => True) office t' ∧
    (∃ row ∈ t'.delegations, t'.effective sampleNow row = true ∧
      Role.fieldAgent.value ∈ row.delegatedRoles ∧ row.delegatorUserId = sampleId 2) ∧
    (∀ user ∈ t'.identityUsers, user.id = sampleId 2 → user.identitySubject = "s-2") ∧
    (playedHydration 5 "s-2" t').map (Option.map (·.roles)) = some (some [Role.surveyor.value]) :=
  exists_playedRun
    [(sampleId 8, 13, deputation), (sampleId 9, 15, pettyDeputation), (sampleId 10, 14, recalling)] office
    (fun t' =>
      (∃ row ∈ t'.delegations, t'.effective sampleNow row = true ∧
        Role.fieldAgent.value ∈ row.delegatedRoles ∧ row.delegatorUserId = sampleId 2) ∧
      (∀ user ∈ t'.identityUsers, user.id = sampleId 2 → user.identitySubject = "s-2") ∧
      (playedHydration 5 "s-2" t').map (Option.map (·.roles)) = some (some [Role.surveyor.value]))
    (by decide +kernel)

/-- With the deputy recalled, the general user may still register parcels, and the
surveyor may not. -/
theorem recalled_not_gatesKept :
    office.keys.Nodup ∧ office.delegations = [] ∧
      ∃ t', Runs samplePlatform (fun _ _ => True) office t' ∧ ¬ GatesKept samplePlatform t' := by
  refine ⟨by decide, rfl, ?_⟩
  obtain ⟨t', runs, ⟨row, stored, effective, granted, owner⟩, subjects, hydrated⟩ := recalled_run
  refine ⟨t', runs, fun kept => ?_⟩
  obtain ⟨delegator, stored', id, admitted⟩ := kept sampleNow row stored effective
    parcelRegistrantRoles (by decide) ⟨_, granted, by decide⟩
  have named := subjects delegator stored' (id.trans owner)
  obtain ⟨attrs, played, roles⟩ := Option.map_eq_some_iff.mp hydrated
  obtain ⟨given, rfl, role, held, passes⟩ := admitted attrs (named ▸ endsAt_of_playedHydration played)
  have only : given.roles = [Role.surveyor.value] := Option.some.inj roles
  rw [only, List.mem_singleton] at held
  rw [held] at passes
  exact absurd passes (by decide)

end LandVault
