import LandVault.Identity.Administration

/-!
# What registration, login and refresh may write

`Enrols` lists the writes of `AuthService` and of an operator who suspends a user. A new
user has the default role, or the role of an invitation whose inviter still outranks it.
A session is issued as active, and the only change of one is its revocation.
-/

set_option autoImplicit false

namespace LandVault

open Kernel Kernel.Audit Identity Library.Programs Library.ReadCommitted Python Relation

/-! ## Writes -/

/-- An invitation that may be redeemed, with the user who answers for it. -/
structure Vouched (u : Tables) (invitation : InvitationRecord) (inviter : UserRecord) : Prop where
  invited : invitation ∈ u.invitations
  stored : inviter ∈ u.identityUsers
  named : inviter.id = invitation.invitedBy
  authenticates : inviter.canAuthenticate = true
  ranked : highestRank [invitation.role] ≤ highestRank inviter.roles
  tenantId : inviter.tenantId = invitation.tenantId

/-- What a request comes with: that it is a registration, and the hashes of the tokens that it
presents, of an invitation that it redeems, of a session that it refreshes. -/
structure Presented where
  registers : Bool := false
  invitation : Option String := none
  session : Option String := none

/-- The user may be given a session: they can authenticate, and their tenant is active. -/
def Eligible (u : Tables) (userId : UUID) : Prop :=
  ∃ user ∈ u.identityUsers, user.id = userId ∧ user.canAuthenticate = true ∧
    ∃ tenant ∈ u.tenants, tenant.id = user.tenantId ∧ tenant.isActive = true

/-- The user has an active session whose token is presented, and can authenticate. -/
def Rotates (given : Presented) (u₀ : Tables) (userId : UUID) : Prop :=
  ∃ session ∈ u₀.identitySessions, given.session = some session.refreshTokenHash ∧
    session.status = .active ∧ session.userId = userId ∧
    ∃ user ∈ u₀.identityUsers, user.id = userId ∧ user.canAuthenticate = true

/-- A write over the tables `u` of a transaction that started on `u₀`, for a request that
presents these tokens. -/
inductive Enrols (given : Presented) (u₀ u : Tables) : Write → Prop where
  | addTenant {row : TenantRecord} : Enrols given u₀ u (.insertTenant row)
  | nameOwner {stored new : TenantRecord}
      (status : ∀ tenant ∈ u.tenants, tenant.id = new.id → tenant.status = new.status) :
      Enrols given u₀ u (.updateTenant stored new)
  | register {row : UserRecord} (registers : given.registers = true)
      (fresh : ∀ user ∈ u.identityUsers, user.id ≠ row.id)
      (roles : row.roles = [Role.generalUser.value]) : Enrols given u₀ u (.insertUser row)
  | redeem {row : UserRecord} {invitation : InvitationRecord} {inviter : UserRecord}
      (vouched : Vouched u₀ invitation inviter)
      (presented : given.invitation = some invitation.tokenHash)
      (fresh : ∀ user ∈ u.identityUsers, user.id ≠ row.id) (roles : row.roles = [invitation.role])
      (tenantId : row.tenantId = invitation.tenantId) : Enrols given u₀ u (.insertUser row)
  | accept {row : InvitationRecord} {now : DateTime} (stored : row ∈ u.invitations) :
      Enrols given u₀ u (.updateInvitation row (row.accept now))
  | withdraw {row : InvitationRecord} {now : DateTime} (stored : row ∈ u.invitations) :
      Enrols given u₀ u (.updateInvitation row (row.revoke now))
  | stamp {user new : UserRecord} (stored : user ∈ u.identityUsers) (id : new.id = user.id)
      (roles : new.roles = user.roles)
      (status : ∀ other ∈ u.identityUsers, other.id = new.id →
        other.accountStatus = new.accountStatus) : Enrols given u₀ u (.updateUser user new)
  | issue {row : SessionRecord} (active : row.status = .active)
      (licensed : Eligible u row.userId ∨ Rotates given u₀ row.userId) :
      Enrols given u₀ u (.insertSession row)
  | revoke {row : SessionRecord} {reason : String} {now : DateTime}
      (stored : row ∈ u.identitySessions) :
      Enrols given u₀ u (.updateSession row (row.revoke reason now))

/-- A chain of such writes. -/
abbrev Enrolled (given : Presented) (u₀ : Tables) : Tables → Prop :=
  ReflTransGen (fun u u' => ∃ w, Enrols given u₀ u w ∧ u' = u.apply w) u₀

theorem Enrolled.write {given : Presented} {u₀ u : Tables} {w : Write} (chain : Enrolled given u₀ u)
    (enrols : Enrols given u₀ u w) : Enrolled given u₀ (u.apply w) :=
  chain.tail ⟨w, enrols, rfl⟩

/-- No write of a chain makes a user ineligible. -/
theorem Enrols.eligible {given : Presented} {u₀ u : Tables} {w : Write} (enrols : Enrols given u₀ u w)
    {userId : UUID} (eligible : Eligible u userId) : Eligible (u.apply w) userId := by
  obtain ⟨user, stored, id, authenticates, tenant, kept, named, active⟩ := eligible
  cases enrols with
  | addTenant =>
      exact ⟨user, stored, id, authenticates, tenant, List.mem_append_left _ kept, named, active⟩
  | @nameOwner owned new status =>
      refine ⟨user, stored, id, authenticates, _, List.mem_map_of_mem kept, ?_⟩
      split
      · rename_i same
        refine ⟨named, ?_⟩
        rw [TenantRecord.isActive, status tenant kept same] at active
        exact active
      · exact ⟨named, active⟩
  | register | redeem =>
      exact ⟨user, List.mem_append_left _ stored, id, authenticates, tenant, kept, named, active⟩
  | @stamp other new _ _ _ status =>
      refine ⟨_, List.mem_map_of_mem stored, ?_⟩
      split
      · rename_i same
        refine ⟨id, ?_, tenant, kept, named, active⟩
        rw [UserRecord.canAuthenticate, status user stored same] at authenticates
        exact authenticates
      · exact ⟨id, authenticates, tenant, kept, named, active⟩
  | accept | withdraw | issue | revoke =>
      exact ⟨user, stored, id, authenticates, tenant, kept, named, active⟩

/-- The tokens of an answer belong to a session of a user who may have it. -/
def Issued (given : Presented) (u₀ : Tables) (tokens : TokenResponse) (u : Tables) : Prop :=
  Enrolled given u₀ u ∧ ∃ row ∈ u.identitySessions, row.id.str = tokens.sessionId ∧
    (Eligible u row.userId ∨ Rotates given u₀ row.userId)

/-- An identifier under which a user is added names no user before. -/
theorem fresh_of_keys {u : Tables} {row : UserRecord}
    (unique : (u.apply (.insertUser row)).keys.Nodup) : ∀ user ∈ u.identityUsers, user.id ≠ row.id := by
  have keys : ((u.identityUsers ++ [row]).map (·.id)).Nodup := Entity.keys_nodup .user unique
  intro user stored same
  rw [List.map_append, List.nodup_append] at keys
  exact keys.2.2 _ (List.mem_map_of_mem stored) _ (List.mem_singleton_self _) same

theorem vouched_of_authorityLostReason {u : Tables} {invitation : InvitationRecord}
    {inviter : Option UserRecord} {targetTenant : Option TenantRecord}
    (kept : authorityLostReason invitation inviter targetTenant = none)
    (invited : invitation ∈ u.invitations)
    (found : ∀ user, inviter = some user → user ∈ u.identityUsers ∧ user.id = invitation.invitedBy) :
    ∃ user, Vouched u invitation user := by
  unfold authorityLostReason at kept
  split at kept
  · cases kept
  · rename_i user answered
    obtain ⟨same, authenticates⟩ := Option.filter_eq_some_iff.mp answered
    obtain ⟨stored, named⟩ := found user same
    split at kept
    · cases kept
    · rename_i ranked
      split at kept
      · cases kept
      · rename_i tenantId
        exact ⟨user, invited, stored, named, authenticates, not_lt.mp ranked,
          not_ne_iff.mp tenantId⟩

theorem parseEmail_error {lower : String → String} {raw : String} {e : PyExc}
    (raised : parseEmail lower raw = .error e) : ∃ message, e = .value message := by
  simp only [parseEmail] at raised
  split at raised <;> cases raised
  exact ⟨_, rfl⟩

section Rules

variable {allowed : Tables → Prop} {C : Env → Prop} {x : Transaction} {u₀ u : Tables}
  {db : Database Unit} {s : DbSession} {platform : IdentityPlatform} {ctx : ExecutionContext}
  {given : Presented}

/-- What is left of an operation of `AuthService` that ends with an error. -/
abbrev Left (given : Presented) (u₀ : Tables) : PyExc → Tables → Prop := fun _ => Enrolled given u₀

/-! ## Parts -/

theorem Staged.validateProfile (staged : Staged x u db s) (chain : Enrolled given u₀ u)
    (fullName : String) (country : Option String) :
    Keeps allowed C (fun _ => Staged x u) (Raising x (Left given u₀))
      (Identity.validateProfile fullName country) db s := by
  refine .ite (fun _ => staged.raise chain) fun _ => ?_
  generalize CountryCode.new _ = checked
  refine ((staged.orBadRequest checked).mono (fun _ _ _ holds => holds) fun _ _ _ raising =>
    raising.mono fun _ u' same => same ▸ chain).bind ?_
  rintro code db s ⟨staged, _⟩
  exact staged

theorem Staged.validateCredentials (staged : Staged x u db s) (chain : Enrolled given u₀ u)
    (password fullName : String) (country : Option String) :
    Keeps allowed C (fun _ => Staged x u) (Raising x (Left given u₀))
      (Identity.validateCredentials password fullName country) db s :=
  .ite (fun _ => staged.raise chain) fun _ => staged.validateProfile chain fullName country

theorem Staged.createIdpUser (staged : Staged x u db s) (chain : Enrolled given u₀ u) :
    Keeps allowed C (fun _ => Staged x u) (Raising x (Left given u₀)) Identity.createIdpUser db s := by
  refine staged.choose.bind ?_
  rintro answer db s ⟨staged, _⟩
  split
  · exact staged
  · exact .ite (fun _ => staged.raise chain) fun _ => staged.raise chain
  · exact staged.raise chain

/-- Issuing tokens adds a session, and marks the user as logged in unless that fails. -/
theorem Staged.issueTokens (staged : Staged x u db s) (chain : Enrolled given u₀ u) {user : UserRecord}
    (stored : user ∈ userMapper.seen u x.scope)
    (licensed : Eligible u user.id ∨ Rotates given u₀ user.id) (tokens : IdentityProviderTokens)
    (userAgent ip : Option String) (rotatedFrom : Option UUID) :
    Keeps allowed C (fun tokens => Ready x (Issued given u₀ tokens)) (Raising x (Left given u₀))
      (Identity.issueTokens platform ctx user tokens userAgent ip rotatedFrom) db s := by
  refine staged.choose.bind ?_
  rintro token db s ⟨staged, _⟩
  refine keeps_then (staged.expiryAfter _) ?_
  rintro expiresAt db s ⟨staged, _⟩
  refine staged.choose.bind ?_
  rintro ⟨uuid4, now⟩ db s ⟨staged, _⟩
  refine keeps_then (staged.add .session _) ?_
  rintro session db s ⟨⟨v, env, _, _, added⟩, _, _, staged⟩
  have owner : session.userId = user.id := by rw [added]
  have issues : Enrols given u₀ u (.insertSession session) :=
    .issue (by rw [added]) (owner.symm ▸ licensed)
  have issued : Enrolled given u₀ (u.apply (.insertSession session)) := chain.write issues
  have licensed' : Eligible (u.apply (.insertSession session)) session.userId ∨
      Rotates given u₀ session.userId := owner.symm ▸ licensed.imp issues.eligible id
  have visible : user ∈ userMapper.seen (u.apply (.insertSession session)) x.scope := stored
  refine staged.choose.bind ?_
  rintro now db s ⟨staged, _⟩
  let Granted (u' : Tables) : Prop := Enrolled given u₀ u' ∧ session ∈ u'.identitySessions ∧
    (Eligible u' session.userId ∨ Rotates given u₀ session.userId)
  have granted : Granted (u.apply (.insertSession session)) :=
    ⟨issued, List.mem_append_right _ (List.mem_singleton_self _), licensed'⟩
  refine Meets.bind (N := fun _ db s => ∃ u', Granted u' ∧ Live x u' db s) ?_ ?_
  · -- whatever the update of the user raises is swallowed
    refine Meets.handle (N := fun _ db s => ∃ u', Granted u' ∧ Live x u' db s)
      ((staged.updateUser _ _).mono ?_ ?_) fun e db s live => live
    · rintro updated db s' ⟨record, visible', same, _, rfl, after⟩
      cases Entity.seen_unique .user staged.keys visible' visible same
      have member := Entity.mem_rows_of_seen (e := .user) visible
      have stamps {new : UserRecord} (same : new.id = user.id) (roles : new.roles = user.roles)
          (status : new.accountStatus = user.accountStatus) :
          Enrols given u₀ (u.apply (.insertSession session)) (.updateUser user new) :=
        .stamp member same roles fun other stored' id => by
          cases List.inj_on_of_nodup_map (Entity.keys_nodup .user staged.keys) stored' member
            (id.trans same)
          exact status.symm
      refine ⟨_, ?_, .inl after⟩
      refine ⟨issued.write (stamps rfl rfl rfl), granted.2.1, licensed'.imp (fun eligible => ?_) id⟩
      refine Enrols.eligible (stamps ?_ ?_ ?_) eligible <;> rfl
    · rintro e db s' ⟨_, lost⟩
      exact ⟨_, granted, lost.symm⟩
  rintro marked db s ⟨u', ⟨chain', member, licensed'⟩, live⟩
  refine keeps_then (live.audit _ _ _) fun _ db s live => ?_
  exact live.ready ⟨chain', session, member, rfl, licensed'⟩

/-! ## Login and registration -/

theorem Staged.loginLocal (staged : Staged x u db s) (chain : Enrolled given u₀ u) (email : String)
    (userAgent ip : Option String) :
    Keeps allowed C (fun tokens => Ready x (Issued given u₀ tokens)) (Raising x (Left given u₀))
      (Identity.loginLocal platform ctx email userAgent ip) db s := by
  have failed : ∀ {db s}, Staged x u db s → ∀ normalized reason,
      Keeps allowed C (fun tokens => Ready x (Issued given u₀ tokens)) (Raising x (Left given u₀))
        (loginLocal.failed platform ctx normalized reason) db s :=
    fun staged _ _ => staged.audited _ fun _ _ staged => staged.raise chain
  refine keeps_then (staged.ofExcept fun e raised => ?_) ?_
  · obtain ⟨message, rfl⟩ := parseEmail_error raised
    rfl
  rintro normalized db s ⟨staged, _⟩
  refine staged.choose.bind ?_
  rintro answer db s ⟨staged, _⟩
  split
  · exact failed staged _ _
  · exact staged.raise chain
  · refine keeps_then (staged.scalarOneOrNone .user _) ?_
    rintro found db s ⟨staged, one⟩
    split
    · exact failed staged _ _
    · rename_i user kept
      obtain ⟨answered, authenticates⟩ := Option.filter_eq_some_iff.mp kept
      refine keeps_then (staged.lookup .tenant _) ?_
      rintro tenant db s ⟨staged, located⟩
      split
      · exact failed staged _ _
      · rename_i found' kept'
        obtain ⟨rfl, active⟩ := Option.filter_eq_some_iff.mp kept'
        obtain ⟨visibleTenant, named⟩ := Entity.mem_of_lookup (e := .tenant) located.symm
        have visible := (mem_of_filter_eq one answered).1
        have eligible : Eligible u user.id :=
          ⟨user, Entity.mem_rows_of_seen (e := .user) visible, rfl, authenticates, found',
            Entity.mem_rows_of_seen (e := .tenant) visibleTenant, named, active⟩
        exact staged.issueTokens chain visible (.inl eligible) _ _ _ _

theorem Staged.registerLocal (staged : Staged x u db s) (registers : given.registers = true)
    (email password fullName : String) (country : Option String) :
    Keeps allowed C (fun tokens => Ready x (Issued given u tokens)) (Raising x (Left given u))
      (Identity.registerLocal platform ctx email password fullName country) db s := by
  refine ((staged.orBadRequest _).mono (fun _ _ _ holds => holds) fun _ _ _ raising =>
    raising.mono fun _ u' same => same ▸ .refl).bind ?_
  rintro normalizedEmail db s ⟨staged, _⟩
  refine (staged.validateCredentials .refl _ _ _).bind ?_
  rintro ⟨fullNameClean, countryCode⟩ db s staged
  refine keeps_then (staged.getByEmail _ _) ?_
  rintro found db s ⟨staged, _⟩
  refine .ite (fun _ => staged.raise .refl) fun _ => ?_
  refine (staged.createIdpUser .refl).bind fun subject db s staged => ?_
  refine staged.choose.bind ?_
  rintro ⟨tenantId, now⟩ db s ⟨staged, _⟩
  refine keeps_then (staged.add .tenant _) ?_
  rintro tenant db s ⟨⟨v, env, _, _, founding⟩, _, _, staged⟩
  have founded : Enrolled given u (u.apply (.insertTenant tenant)) := Enrolled.write .refl .addTenant
  refine staged.choose.bind ?_
  rintro ⟨userId, now⟩ db s ⟨staged, _⟩
  refine keeps_then (staged.add .user _) ?_
  rintro user db s ⟨⟨v, env, _, _, added⟩, _, _, staged⟩
  have registered : Enrolled given u ((u.apply (.insertTenant tenant)).apply (.insertUser user)) :=
    founded.write (.register registers (fresh_of_keys staged.keys) (by rw [added]; rfl))
  refine keeps_then (staged.updateTenant _) ?_
  rintro owned db s' ⟨record, _, recordId, ownedId, status, after⟩
  have named : owned.id = tenant.id := by rw [ownedId, recordId, founding]
  have names : Enrols given u ((u.apply (.insertTenant tenant)).apply (.insertUser user))
      (.updateTenant record owned) := by
    refine .nameOwner fun other stored id => ?_
    have member : tenant ∈ ((u.apply (.insertTenant tenant)).apply (.insertUser user)).tenants :=
      List.mem_append_right _ (List.mem_singleton_self _)
    cases List.inj_on_of_nodup_map (Entity.keys_nodup .tenant staged.keys) stored member
      (id.trans named)
    rw [status, founding]
  refine keeps_then (after.audit _ _ _) fun _ db s after => ?_
  exact after.loginLocal (registered.write names) _ _ _

/-! ## Redeeming an invitation -/

theorem Staged.auditRedemptionDenied (staged : Staged x u db s)
    (invitation : Option InvitationRecord) (reason : String) :
    Keeps allowed C (fun _ => Staged x u) (Failed x u)
      (Identity.auditRedemptionDenied platform ctx invitation reason) db s :=
  (staged.audit _ _ _).bind fun _ _ _ staged => staged

theorem Staged.authorizeInvitationRedemption (staged : Staged x u db s) (token : String) :
    Keeps allowed C
      (fun invitation db s => Staged x u db s ∧ invitation ∈ invitationMapper.seen u x.scope ∧
        invitation.tokenHash = platform.sha256 token ∧ ∃ inviter, Vouched u invitation inviter)
      (Raising x (Left given u)) (Identity.authorizeInvitationRedemption platform ctx token) db s := by
  refine .ite (fun _ => staged.raise .refl) fun _ => ?_
  refine keeps_then (staged.scalarOneOrNone .invitation _) ?_
  rintro found db s ⟨staged, one⟩
  refine staged.choose.bind ?_
  rintro now db s ⟨staged, _⟩
  split
  · exact keeps_then (staged.auditRedemptionDenied _ _) fun _ _ _ staged => staged.raise .refl
  rename_i invitation kept
  obtain ⟨answered, _⟩ := Option.filter_eq_some_iff.mp kept
  obtain ⟨visible, named⟩ := mem_of_filter_eq one answered
  have invited : invitation ∈ u.invitations := Entity.mem_rows_of_seen (e := .invitation) visible
  refine keeps_then (staged.getUser _) ?_
  rintro inviter db s ⟨staged, found⟩
  refine keeps_then (staged.lookup .tenant _) ?_
  rintro targetTenant db s ⟨staged, _⟩
  split
  · refine staged.choose.bind ?_
    rintro now db s ⟨staged, _⟩
    refine keeps_then (staged.updateInvitation _) ?_
    rintro updated db s' ⟨record, visible', same, rfl, after⟩
    cases Entity.seen_unique .invitation staged.keys visible' visible same
    refine keeps_then (after.auditRedemptionDenied _ _) fun _ db s after => after.raise ?_
    exact Enrolled.write .refl (.withdraw invited)
  · rename_i kept
    refine ⟨staged, visible, by simpa using named, vouched_of_authorityLostReason kept invited ?_⟩
    rintro user rfl
    rw [UUID.parse_str] at found
    obtain ⟨visible, named⟩ := Entity.mem_of_lookup (e := .user) found.symm
    exact ⟨Entity.mem_rows_of_seen (e := .user) visible, named⟩

theorem Staged.provisionUserFromInvitation (staged : Staged x u db s)
    {invitation : InvitationRecord} (visible : invitation ∈ invitationMapper.seen u x.scope)
    {inviter : UserRecord} (vouched : Vouched u invitation inviter)
    (presented : given.invitation = some invitation.tokenHash)
    (identitySubject email fullName country : String) :
    Keeps allowed C (fun _ db s => ∃ u', Enrolled given u u' ∧ Staged x u' db s) (Raising x (Left given u))
      (Identity.provisionUserFromInvitation platform ctx invitation identitySubject email fullName
        country) db s := by
  have denied : ∀ {db s}, Staged x u db s → ∀ reason (answer : PyExc) {rest : Unit → Request UserRecord},
      Keeps allowed C (fun _ db s => ∃ u', Enrolled given u u' ∧ Staged x u' db s) (Raising x (Left given u))
        ((Identity.auditRedemptionDenied platform ctx (some invitation) reason).bind fun _ =>
          (throw answer : Request Unit).bind rest) db s :=
    fun staged _ _ _ => keeps_then (staged.auditRedemptionDenied _ _) fun _ _ _ staged =>
      staged.raise .refl
  refine .ite (fun _ => denied staged _ _) fun _ => ?_
  refine keeps_then (staged.scalarOneOrNone .user _) ?_
  rintro found db s ⟨staged, _⟩
  refine .ite (fun _ => denied staged _ _) fun _ => ?_
  refine keeps_then (staged.getByEmail _ _) ?_
  rintro found db s ⟨staged, _⟩
  refine .ite (fun _ => staged.raise .refl) fun _ => ?_
  refine staged.choose.bind ?_
  rintro ⟨uuid4, now⟩ db s ⟨staged, _⟩
  refine keeps_then (staged.add .user _) ?_
  rintro user db s ⟨⟨v, env, _, _, added⟩, _, _, staged⟩
  have redeemed : Enrolled given u (u.apply (.insertUser user)) :=
    Enrolled.write .refl (.redeem vouched presented (fresh_of_keys staged.keys) (by rw [added]) (by rw [added]; rfl))
  have visible' : invitation ∈ invitationMapper.seen (u.apply (.insertUser user)) x.scope := visible
  refine staged.choose.bind ?_
  rintro now db s ⟨staged, _⟩
  refine keeps_then (staged.updateInvitation _) ?_
  rintro updated db s' ⟨record, visible'', same, rfl, after⟩
  cases Entity.seen_unique .invitation staged.keys visible'' visible' same
  refine keeps_then (after.audit _ _ _) fun _ db s after => ?_
  refine keeps_then (after.audit _ _ _) fun _ db s after => ?_
  exact ⟨_, redeemed.write (.accept (Entity.mem_rows_of_seen (e := .invitation) visible')), after⟩

/-- The hash of an invitation's token, as far as the token has one. -/
def presentsInvitation (platform : IdentityPlatform) (token : Str) : Presented :=
  match encodeToken token with
  | .ok text => { invitation := platform.sha256 text }
  | .error _ => {}

theorem Staged.encodeToken (staged : Staged x u db s) (platform : IdentityPlatform) (token : Str) :
    Keeps allowed C
      (fun text db s => Staged x u db s ∧
        presentsInvitation platform token = { invitation := platform.sha256 text })
      (Failed x u) (Program.ofExcept (Identity.encodeToken token)) db s := by
  refine (staged.ofExcept fun e raised => ?_).mono ?_ fun _ _ _ failed => failed
  · rw [encodeToken_error raised]
    rfl
  · rintro text db s ⟨staged, encoded⟩
    exact ⟨staged, by rw [presentsInvitation, encoded]⟩

theorem Staged.acceptInvitation (staged : Staged x u db s) (token : Str) (password fullName : String)
    (country userAgent ip : Option String) :
    Keeps allowed C (fun tokens => Ready x (Issued (presentsInvitation platform token) u tokens))
      (Raising x (Left (presentsInvitation platform token) u))
      (Identity.acceptInvitation platform ctx token password fullName country userAgent ip) db s := by
  refine keeps_then (staged.encodeToken platform token) ?_
  rintro text db s ⟨staged, presents⟩
  rw [presents]
  refine (staged.authorizeInvitationRedemption text).bind ?_
  rintro invitation db s ⟨staged, visible, named, inviter, vouched⟩
  refine (staged.validateCredentials .refl _ _ _).bind ?_
  rintro ⟨fullNameClean, countryCode⟩ db s staged
  refine keeps_then (staged.getByEmail _ _) ?_
  rintro found db s ⟨staged, _⟩
  refine .ite (fun _ => staged.raise .refl) fun _ => ?_
  refine (staged.createIdpUser .refl).bind fun subject db s staged => ?_
  refine (staged.provisionUserFromInvitation visible vouched (congrArg some named.symm) _ _ _ _).bind ?_
  rintro user db s ⟨u', chain, staged⟩
  exact staged.loginLocal chain _ _ _

theorem Staged.acceptInvitationSupabase (staged : Staged x u db s) (token : Str)
    (identitySubject verifiedEmail fullName : String) (country : Option String) :
    Keeps allowed C (fun _ => Ready x (Enrolled (presentsInvitation platform token) u))
      (Raising x (Left (presentsInvitation platform token) u))
      (Identity.acceptInvitationSupabase platform ctx token identitySubject verifiedEmail fullName
        country) db s := by
  refine keeps_then (staged.encodeToken platform token) ?_
  rintro text db s ⟨staged, presents⟩
  rw [presents]
  refine (staged.authorizeInvitationRedemption text).bind ?_
  rintro invitation db s ⟨staged, visible, named, inviter, vouched⟩
  refine (staged.validateProfile .refl _ _).bind ?_
  rintro ⟨fullNameClean, countryCode⟩ db s staged
  dsimp only
  split
  · exact staged.raise .refl
  · exact staged.raise .refl
  · refine (staged.provisionUserFromInvitation visible vouched (congrArg some named.symm) _ _ _ _).mono ?_
      fun _ _ _ raising => raising
    rintro user db s ⟨u', chain, staged⟩
    exact staged.ready chain

/-! ## Refresh and logout -/

/-- Every session of the user is revoked, and no other session has changed. -/
structure Contained (userId : UUID) (u u' : Tables) : Prop where
  revoked : ∀ row ∈ u.identitySessions, row.userId = userId →
    ∃ row' ∈ u'.identitySessions, row'.id = row.id ∧ row'.status = .revoked
  others : ∀ row ∈ u.identitySessions, row.userId ≠ userId → row ∈ u'.identitySessions

/-- The sessions after one of them was revoked. -/
theorem identitySessions_revoke (unique : u.keys.Nodup) {row : SessionRecord}
    (stored : row ∈ u.identitySessions) (reason : String) (now : DateTime) :
    (u.apply (.updateSession row (row.revoke reason now))).identitySessions =
      u.identitySessions.map fun other => if other = row then row.revoke reason now else other := by
  refine List.map_congr_left fun other member => ?_
  by_cases same : other = row
  · subst same
    simp [SessionRecord.revoke, Tables.assignSession]
  · have different : other.id ≠ (row.revoke reason now).id := fun id =>
      same (List.inj_on_of_nodup_map (Entity.keys_nodup .session unique) member stored id)
    simp [same, different]

theorem Staged.revokeEach (staged : Staged x u db s) (chain : Enrolled given u₀ u) (reason : String)
    (now : DateTime) {records : List SessionRecord}
    (visible : ∀ row ∈ records, row ∈ sessionMapper.seen u x.scope)
    (distinct : (records.map (·.id)).Nodup) :
    Keeps allowed C
      (fun _ db s => ∃ u', Staged x u' db s ∧ Enrolled given u₀ u' ∧
        u'.identitySessions = u.identitySessions.map fun row =>
          if row ∈ records then row.revoke reason now else row)
      (Aborted x) (SessionRepository.revokeEach reason now records) db s := by
  induction records generalizing u db s with
  | nil => exact ⟨u, staged, chain, by simp⟩
  | cons record records ih =>
      obtain ⟨fresh, distinct⟩ := List.nodup_cons.mp distinct
      have seen := visible record List.mem_cons_self
      have stored : record ∈ u.identitySessions := Entity.mem_rows_of_seen (e := .session) seen
      have others : ∀ row ∈ records, row ≠ record := by
        rintro row member rfl
        exact fresh (List.mem_map_of_mem member)
      have sessions := identitySessions_revoke staged.keys stored reason now
      refine ((staged.flush .session seen ?_).mono (fun _ _ _ after => after)
        fun _ _ _ failed => failed.aborted).bind ?_
      · simp [Entity.mapper, sessionMapper, SessionRecord.revoke]
      rintro flushed db s ⟨rfl, after⟩
      have rest := ih after (chain.write (.revoke stored)) ?_ distinct
      · refine rest.mono ?_ fun _ _ _ aborted => aborted
        rintro _ db s ⟨u', after, chain, same⟩
        refine ⟨u', after, chain, ?_⟩
        rw [same]
        refine (congrArg (List.map _) sessions).trans ?_
        rw [List.map_map]
        refine List.map_congr_left fun row _ => ?_
        by_cases mine : row = record
        · subst mine
          have notAgain : row.revoke reason now ∉ records := fun member =>
            fresh (List.mem_map.mpr ⟨_, member, rfl⟩)
          simp [notAgain]
        · simp [mine]
      · intro row member
        have before := Entity.mem_seen (e := .session).mp (visible row (List.mem_cons_of_mem _ member))
        refine Entity.mem_seen (e := .session).mpr ⟨?_, Entity.sees_apply .session _ before.2⟩
        show row ∈ (u.apply (.updateSession record (record.revoke reason now))).identitySessions
        rw [sessions]
        exact List.mem_map.mpr ⟨row, before.1, by simp [others row member]⟩

/-- Who sees a session sees every session of its user. -/
theorem seen_of_sameUser {scope : Scope} {row other : SessionRecord}
    (visible : row ∈ sessionMapper.seen u scope) (stored : other ∈ u.identitySessions)
    (same : other.userId = row.userId) : other ∈ sessionMapper.seen u scope := by
  refine Entity.mem_seen (e := .session).mpr ⟨stored, ?_⟩
  have sees := (Entity.mem_seen (e := .session).mp visible).2
  simp only [Entity.mapper, sessionMapper] at sees ⊢
  rw [same]
  exact sees

theorem Staged.revokeAllActiveForUser (staged : Staged x u db s) (given : Presented)
    {session : SessionRecord} (visible : session ∈ sessionMapper.seen u x.scope) (reason : String) :
    Keeps allowed C
      (fun _ db s => ∃ u', Staged x u' db s ∧ Enrolled given u u' ∧ Contained session.userId u u')
      (Aborted x) (SessionRepository.revokeAllActiveForUser session.userId reason) db s := by
  refine ((staged.selected .session _).mono (fun _ _ _ found => found)
    fun _ _ _ failed => failed.aborted).bind ?_
  rintro records db s ⟨staged, rfl⟩
  refine staged.choose.bind ?_
  rintro now db s ⟨staged, _⟩
  refine (staged.revokeEach (.refl : Enrolled given u u) reason now (fun row member => List.mem_of_mem_filter member)
    ?_).mono ?_ fun _ _ _ aborted => aborted
  · refine (Entity.keys_nodup .session staged.keys).sublist (List.Sublist.map _ ?_)
    exact List.filter_sublist.trans List.filter_sublist
  rintro _ db s ⟨u', after, chain, same⟩
  refine ⟨u', after, chain, ?_, ?_⟩
  · intro row stored mine
    refine ⟨_, same ▸ List.mem_map_of_mem stored, ?_⟩
    cases status : row.status with
    | revoked => simp [status]
    | active =>
        have chosen := seen_of_sameUser visible stored mine
        simp [chosen, mine, status, SessionRecord.revoke]
  · intro row stored other
    exact same ▸ List.mem_map.mpr ⟨row, stored, by simp [other]⟩

/-- The session that a refresh token names, as a request with these settings sees it. -/
def KnownSession (platform : IdentityPlatform) (scope : Scope) (u : Tables) (refreshToken : String)
    (session : SessionRecord) : Prop :=
  session ∈ sessionMapper.seen u scope ∧ session.refreshTokenHash = platform.sha256 refreshToken

/-- What `refresh` leaves where it answers with an error: its writes, and after a replay
all sessions of the user revoked. -/
def Refused (platform : IdentityPlatform) (scope : Scope) (u : Tables) (refreshToken : String)
    (e : PyExc) (u' : Tables) : Prop :=
  Enrolled { session := platform.sha256 refreshToken } u u' ∧
    ∀ session, KnownSession platform scope u refreshToken session →
      refreshToken ≠ "" → session.status ≠ .active →
      e = unauthenticated "Refresh token reuse detected" ∧ Contained session.userId u u'

theorem Staged.revokeAndReject (staged : Staged x u db s) {session : SessionRecord}
    (visible : session ∈ sessionMapper.seen u x.scope) (reason detail : String)
    {Q : TokenResponse → Assertion (Database Unit) DbSession} {R : PyExc → Tables → Prop}
    (rejects : ∀ e u', Enrolled given u u' → R e u') :
    Keeps allowed C Q (Raising x R) (Identity.revokeAndReject session reason detail) db s := by
  refine staged.choose.bind ?_
  rintro now db s ⟨staged, _⟩
  refine keeps_then (staged.updateSession _) ?_
  rintro updated db s' ⟨record, visible', same, rfl, after⟩
  cases Entity.seen_unique .session staged.keys visible' visible same
  refine after.raise (rejects _ _ (Enrolled.write .refl ?_))
  exact .revoke (Entity.mem_rows_of_seen (e := .session) visible)

/-- **A refresh** answers with tokens only where the session was active. -/
theorem Staged.refresh (staged : Staged x u db s) (refreshToken : String)
    (userAgent ip : Option String) :
    Keeps allowed C
      (fun tokens => Ready x fun u' =>
        Issued { session := platform.sha256 refreshToken } u tokens u' ∧ ∃ session,
        KnownSession platform x.scope u refreshToken session ∧ session.status = .active)
      (Raising x (Refused platform x.scope u refreshToken))
      (Identity.refresh platform ctx refreshToken userAgent ip) db s := by
  refine .ite (fun empty => ?_) fun _ => ?_
  · exact staged.raise ⟨.refl, fun _ _ given => absurd empty given⟩
  refine keeps_then (staged.scalarOneOrNone .session _) ?_
  rintro found db s ⟨staged, one⟩
  have known : ∀ session, KnownSession platform x.scope u refreshToken session →
      found = some session := by
    rintro session ⟨visible, hash⟩
    have member : session ∈ found.toList :=
      one ▸ List.mem_filter.mpr ⟨visible, by simpa using hash⟩
    simpa using member
  cases found with
  | none =>
      refine staged.audited _ fun _ _ staged => staged.raise ⟨.refl, fun session mine => ?_⟩
      exact nomatch known session mine
  | some session =>
      obtain ⟨visible, hash⟩ := mem_of_filter_eq one rfl
      have stored : session ∈ u.identitySessions := Entity.mem_rows_of_seen (e := .session) visible
      have mine : KnownSession platform x.scope u refreshToken session :=
        ⟨visible, by simpa using hash⟩
      refine .ite (fun replayed => ?_) fun fresh => ?_
      · -- the sessions of the user are revoked, and the 401 commits that
        refine ((staged.revokeAllActiveForUser { session := platform.sha256 refreshToken } visible _).mono (fun _ _ _ after => after)
          fun _ _ _ aborted => .of_aborted aborted).bind ?_
        rintro _ db s ⟨u', after, chain, contained⟩
        refine after.audited _ fun _ _ after => after.raise ⟨chain, fun other theirs _ _ => ?_⟩
        cases known other theirs
        exact ⟨rfl, contained⟩
      have active : session.status = .active := not_ne_iff.mp fresh
      have refuses : ∀ e u', Enrolled { session := platform.sha256 refreshToken } u u' →
          Refused platform x.scope u refreshToken e u' := by
        intro e u' chain
        refine ⟨chain, fun other theirs _ replayed => ?_⟩
        cases known other theirs
        exact absurd active replayed
      refine staged.choose.bind ?_
      rintro now db s ⟨staged, _⟩
      refine .ite (fun _ => ?_) fun _ => ?_
      · exact staged.revokeAndReject visible _ _ refuses
      refine keeps_then (staged.getUser _) ?_
      rintro user db s ⟨staged, answered⟩
      split
      · exact staged.revokeAndReject visible _ _ refuses
      · rename_i user kept
        obtain ⟨rfl, authenticates⟩ := Option.filter_eq_some_iff.mp kept
        rw [UUID.parse_str] at answered
        obtain ⟨visibleUser, named⟩ := Entity.mem_of_lookup (e := .user) answered.symm
        have rotates : Rotates { session := platform.sha256 refreshToken } u user.id :=
          ⟨session, stored, congrArg some mine.2.symm, active, named.symm, user,
            Entity.mem_rows_of_seen (e := .user) visibleUser, rfl, authenticates⟩
        refine staged.choose.bind ?_
        rintro tokens db s ⟨staged, _⟩
        split
        · exact staged.revokeAndReject visible _ _ refuses
        · exact staged.raise (refuses _ _ .refl)
        · refine staged.choose.bind ?_
          rintro now db s ⟨staged, _⟩
          refine keeps_then (staged.updateSession _) ?_
          rintro updated db s' ⟨record, visible', same, rfl, after⟩
          cases Entity.seen_unique .session staged.keys visible' visible same
          have revoked : Enrolled { session := platform.sha256 refreshToken } u
              (u.apply (.updateSession session (session.revoke "rotated" now))) :=
            Enrolled.write .refl (.revoke stored)
          refine (after.issueTokens revoked visibleUser (.inr rotates) _ _ _ _).mono ?_ ?_
          · exact fun _ db s ready => ready.mono fun _ issued => ⟨issued, session, mine, active⟩
          · exact fun e db s raising => raising.mono refuses

theorem Staged.logout (staged : Staged x u db s) (refreshToken : Option String) :
    Keeps allowed C (fun _ => Ready x (Enrolled given u)) (Raising x (Left given u))
      (Identity.logout platform ctx refreshToken) db s := by
  refine .ite (fun _ => staged.ready .refl) fun _ => ?_
  refine keeps_then (staged.scalarOneOrNone .session _) ?_
  rintro found db s ⟨staged, one⟩
  split
  · exact staged.ready .refl
  · rename_i session kept
    obtain ⟨answered, _⟩ := Option.filter_eq_some_iff.mp kept
    have visible := (mem_of_filter_eq one answered).1
    refine staged.choose.bind ?_
    rintro now db s ⟨staged, _⟩
    refine keeps_then (staged.updateSession _) ?_
    rintro updated db s' ⟨record, visible', same, rfl, after⟩
    cases Entity.seen_unique .session staged.keys visible' visible same
    refine after.audited _ fun _ _ after => after.ready (Enrolled.write .refl ?_)
    exact .revoke (Entity.mem_rows_of_seen (e := .session) visible)

/-! ## All operations -/

/-- What a request comes with. -/
def Identity.AuthRequest.presents (platform : IdentityPlatform) : AuthRequest → Presented
  | .register _ _ _ _ => { registers := true }
  | .acceptInvitation token _ _ _ _ _ | .acceptInvitationSupabase token _ _ =>
      presentsInvitation platform token
  | .refresh refreshToken _ _ => { session := platform.sha256 refreshToken }
  | _ => {}

/-- What an operation of `AuthService` has staged when it answers. -/
def Identity.AuthRequest.Answered (platform : IdentityPlatform) (request : AuthRequest) (u : Tables) :
    IdentityAnswer → Tables → Prop
  | .tokens tokens => Issued (request.presents platform) u tokens
  | _ => Enrolled (request.presents platform) u

theorem Identity.AuthRequest.Answered.enrolled {request : AuthRequest} {answer : IdentityAnswer}
    {u' : Tables} (answered : request.Answered platform u answer u') :
    Enrolled (request.presents platform) u u' := by
  cases answer with
  | tokens tokens => exact answered.1
  | _ => exact answered

/-- **An operation of `AuthService`** stages a chain of its writes. -/
theorem Staged.enrols (staged : Staged x u db s) (request : AuthRequest) :
    Keeps allowed C (fun answer => Ready x (request.Answered platform u answer))
      (Raising x (Left (request.presents platform) u)) (request.serve platform ctx) db s := by
  cases request with
  | register email password fullName country =>
      exact (staged.registerLocal rfl _ _ _ _).bind fun _ _ _ ready => ready
  | login email userAgent ip =>
      exact (staged.loginLocal .refl _ _ _).bind fun _ _ _ ready => ready
  | acceptInvitation token password fullName country userAgent ip =>
      exact (staged.acceptInvitation _ _ _ _ _ _).bind fun _ _ _ ready => ready
  | acceptInvitationSupabase token fullName country =>
      exact (staged.acceptInvitationSupabase _ _ _ _ _).bind fun _ _ _ ready => ready
  | refresh refreshToken userAgent ip =>
      refine ((staged.refresh _ _ _).mono (fun _ _ _ ready => ready) ?_).bind ?_
      · exact fun _ _ _ raising => raising.mono fun _ _ left => left.1
      · exact fun _ _ _ ready => ready.mono fun _ left => left.1
  | logout refreshToken => exact (staged.logout _).bind fun _ _ _ ready => ready
  | myTenant =>
      refine Meets.bind (N := fun _ => Staged x u) ?_ fun _ _ _ staged => staged.ready .refl
      refine .ite (fun _ => staged.raise .refl) fun _ => ?_
      refine keeps_then (staged.lookup .tenant _) ?_
      rintro tenant db s ⟨staged, _⟩
      split
      · exact staged.raise .refl
      · exact staged

/-- A suspension leaves everything, or changes a user who keeps their roles. -/
def Suspended (t u : Tables) : Prop :=
  u = t ∨ ∃ user new, user ∈ t.identityUsers ∧ new.id = user.id ∧ new.roles = user.roles ∧
    u = t.apply (.updateUser user new)

theorem Staged.suspendUser (staged : Staged x u db s) (userId reason : String) :
    Keeps allowed C (fun _ => Ready x (Suspended u)) (Raising x fun _ => Suspended u)
      (Identity.suspendUser userId reason) db s := by
  refine keeps_then (staged.getUser userId) ?_
  rintro found db s ⟨staged, answered⟩
  split
  · exact staged.raise (.inl rfl)
  · rename_i user
    obtain ⟨key, _, found⟩ := Option.bind_eq_some_iff.mp answered.symm
    obtain ⟨visible, rfl⟩ := Entity.mem_of_lookup found
    refine staged.choose.bind ?_
    rintro now db s ⟨staged, _⟩
    refine keeps_then (staged.updateUser _ _) ?_
    rintro updated db s' ⟨record, visible', same, _, rfl, after⟩
    cases Entity.seen_unique .user staged.keys visible' visible same
    refine after.ready (.inr ⟨_, _, Entity.mem_rows_of_seen (e := .user) visible, ?_, ?_, rfl⟩)
    · rfl
    · rfl

end Rules
end LandVault
