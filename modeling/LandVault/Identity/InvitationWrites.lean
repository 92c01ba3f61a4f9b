import LandVault.Identity.Enrolment
import LandVault.Issues

/-!
# Which invitations are written, and which errors are the services' own

Every request of the Identity context, wherever it runs: an invitation is inserted with an
email that was parsed, and an UPDATE keeps the tenant and the email of the row that it
finds. The errors of the operations of `AuthService` are answers or come from a port,
apart from three: that of an email which a login cannot parse, that of a token which
cannot be encoded, and that of a clock too late for the lifetime of a refresh token.
-/

set_option autoImplicit false

namespace LandVault

open Kernel Kernel.Audit Identity Library.Programs Library.ReadCommitted Python

/-- Postgres takes every role and every scope. -/
theorem hasNul_allRoles : ∀ role ∈ allRoles, hasNul role = false := by decide

theorem hasNul_validScopes : ∀ scope ∈ validScopes, hasNul scope = false := by decide

/-- What every write keeps of the invitations. -/
def KeepsInvitations (lower : String → String) : Write → Prop
  | .insertInvitation row => ∃ raw, parseEmail lower raw = .ok row.invitedEmail
  | .updateInvitation stored row =>
      row.tenantId = stored.tenantId ∧ row.invitedEmail = stored.invitedEmail
  | _ => True

/-- Answers, and the errors of the ports. -/
structure Tolerates (X : PyExc → Prop) : Prop where
  http : ∀ status detail, X (.http status detail)
  port : ∀ e, FromPort e → X e

section Rules

variable {ι α : Type} [DecidableEq ι] {C : Choice Env → Prop} {index : ι} {X : PyExc → Prop}
  {platform : IdentityPlatform} {ctx : ExecutionContext}

/-! ## Repositories -/

theorem issues_getUser (ports : ∀ e, FromPort e → X e) (userId : String) :
    Issues (KeepsInvitations platform.lower) C index (fun _ => True) X (UserRepository.get userId) := by
  unfold UserRepository.get
  split
  · trivial
  · exact issues_get ports .user _

theorem issues_updateUser (user : UserRecord) (expectedVersion : Int) :
    Issues (KeepsInvitations platform.lower) C index (fun _ => True) (fun _ => True)
      (UserRepository.update user expectedVersion) :=
  issues_update (fun _ _ => trivial) .user trivial fun _ =>
    .ite (fun _ => trivial) fun _ => issues_flush (fun _ _ => trivial) .user fun _ => trivial

theorem issues_updateSession (ports : ∀ e, FromPort e → X e) (session : SessionRecord) :
    Issues (KeepsInvitations platform.lower) C index (fun _ => True) X
      (SessionRepository.update session) :=
  issues_update ports .session (ports _ (.notFound _ _)) fun _ =>
    issues_flush ports .session fun _ => trivial

theorem issues_updateTenant (ports : ∀ e, FromPort e → X e) (tenant : TenantRecord) :
    Issues (KeepsInvitations platform.lower) C index (fun _ => True) X
      (TenantRepository.update tenant) :=
  issues_update ports .tenant (ports _ (.notFound _ _)) fun _ =>
    issues_flush ports .tenant fun _ => trivial

/-- The columns that an UPDATE of an invitation writes are neither its tenant nor its email. -/
theorem issues_updateInvitation (ports : ∀ e, FromPort e → X e) (invitation : InvitationRecord) :
    Issues (KeepsInvitations platform.lower) C index (fun _ => True) X
      (InvitationRepository.update invitation) :=
  issues_update ports .invitation (ports _ (.notFound _ _)) fun _ =>
    issues_flush ports .invitation fun _ => ⟨rfl, rfl⟩

theorem issues_revokeAllActiveForUser (ports : ∀ e, FromPort e → X e) (userId : UUID)
    (reason : String) :
    Issues (KeepsInvitations platform.lower) C index (fun _ => True) X
      (SessionRepository.revokeAllActiveForUser userId reason) := by
  refine (issues_select ports .session _).bind fun records _ => ?_
  refine (issues_choose _).bind fun now _ => ?_
  induction records with
  | nil => trivial
  | cons record records ih =>
      exact (issues_flush ports .session fun _ => trivial).bind fun _ _ => ih

theorem issues_getByEmail (ports : ∀ e, FromPort e → X e) (email : String) :
    Issues (KeepsInvitations platform.lower) C index (fun _ => True) X
      (UserRepository.getByEmail platform.lower email) := by
  refine Wherever.bind (N := fun _ => True) (.ofExcept (fun _ _ => trivial) fun e raised => ?_)
    fun _ _ => issues_scalarOneOrNone ports .user _
  exact ports e (.refusal (isRefusal_of_bindTexts raised))

/-! ## Parts of the services -/

theorem issues_orBadRequest (tolerates : Tolerates X) {result : Except PyExc α}
    (values : ∀ e, result = .error e → ∃ message, e = .value message) :
    Issues (KeepsInvitations platform.lower) C index (fun value => result = .ok value) X
      (orBadRequest result) := by
  unfold orBadRequest
  split
  · rfl
  · exact tolerates.http _ _
  · rename_i e notValue
    obtain ⟨message, rfl⟩ := values e rfl
    exact absurd rfl (notValue message)

theorem issues_expiryAfter (days : Nat)
    (clock : ∀ choice : Choice Env, C choice → choice.env.now.addDays days = none → X .overflow) :
    Issues (KeepsInvitations platform.lower) C index (fun _ => True) X (expiryAfter days) := by
  refine (issues_choose _).bind ?_
  rintro now ⟨choice, chosen, rfl⟩
  split
  · trivial
  · rename_i late
    exact clock choice chosen late

theorem countryCode_error {text : String} {e : PyExc} (raised : CountryCode.new text = .error e) :
    ∃ message, e = .value message := by
  unfold CountryCode.new at raised
  split at raised <;> cases raised
  exact ⟨_, rfl⟩

theorem issues_validateProfile (tolerates : Tolerates X) (fullName : String)
    (country : Option String) :
    Issues (KeepsInvitations platform.lower) C index (fun _ => True) X
      (validateProfile fullName country) := by
  refine .ite (fun _ => tolerates.http _ _) fun _ => ?_
  have value := @countryCode_error (upper ((orElse country defaultCountry).getD ""))
  generalize CountryCode.new _ = checked at value ⊢
  exact (issues_orBadRequest tolerates fun _ raised => value raised).bind fun _ _ => trivial

theorem issues_validateCredentials (tolerates : Tolerates X) (password fullName : String)
    (country : Option String) :
    Issues (KeepsInvitations platform.lower) C index (fun _ => True) X
      (validateCredentials password fullName country) :=
  .ite (fun _ => tolerates.http _ _) fun _ => issues_validateProfile tolerates fullName country

/-- A failure of the provider is answered, or comes from the provider. -/
theorem issues_createIdpUser (tolerates : Tolerates X) :
    Issues (KeepsInvitations platform.lower) C index (fun _ => True) X createIdpUser := by
  refine (issues_choose _).bind fun answer given => ?_
  split
  · trivial
  · exact .ite (fun _ => tolerates.http _ _) fun _ => tolerates.http _ _
  · rename_i failure notProvider
    cases failure with
    | identityProvider code message => exact absurd rfl (notProvider code message)
    | other message => exact tolerates.port _ (.outside message)

/-- The clock leaves room for the lifetime of a refresh token, or that may be raised. -/
def Roomy (C : Choice Env → Prop) (X : PyExc → Prop) : Prop :=
  ∀ choice : Choice Env, C choice → choice.env.now.addDays refreshTokenTtlDays = none → X .overflow

/-- Whatever the update of the user raises, among it a stale version, is swallowed. -/
theorem issues_issueTokens (tolerates : Tolerates X) (roomy : Roomy C X) (user : UserRecord)
    (tokens : IdentityProviderTokens) (userAgent ip : Option String) (rotatedFrom : Option UUID) :
    Issues (KeepsInvitations platform.lower) C index (fun _ => True) X
      (issueTokens platform ctx user tokens userAgent ip rotatedFrom) := by
  refine (issues_choose _).bind fun token _ => ?_
  refine (issues_expiryAfter _ roomy).bind fun expiresAt _ => ?_
  refine (issues_choose _).bind fun drawn _ => ?_
  refine (issues_add tolerates.port .session fun _ => trivial).bind fun session _ => ?_
  refine (issues_choose _).bind fun now _ => ?_
  refine Wherever.bind (N := fun _ => True) ?_ fun marked _ => ?_
  · exact (issues_updateUser _ _).handle fun _ _ => trivial
  · exact (issues_audit tolerates.port _ _ _).bind fun _ _ => trivial

/-! ## Operations of `AuthService` -/

/-- The error of an email that does not parse is not translated. -/
theorem issues_loginLocal (tolerates : Tolerates X) (roomy : Roomy C X) {email : String}
    (parses : ∀ e, parseEmail platform.lower email = .error e → X e) (userAgent ip : Option String) :
    Issues (KeepsInvitations platform.lower) C index (fun _ => True) X
      (loginLocal platform ctx email userAgent ip) := by
  have failed : ∀ normalized reason, Issues (KeepsInvitations platform.lower) C index
      (fun _ => True) X (loginLocal.failed platform ctx normalized reason) :=
    fun _ _ => (issues_audit tolerates.port _ _ _).bind fun _ _ => tolerates.http _ _
  refine Wherever.bind (N := fun _ => True) (.ofExcept (fun _ _ => trivial) parses)
    fun normalized _ => ?_
  refine (issues_choose _).bind fun answer given => ?_
  split
  · exact failed _ _
  · rename_i failure notProvider
    cases failure with
    | identityProvider code message => exact absurd rfl (notProvider code message)
    | other message => exact tolerates.port _ (.outside message)
  · refine (issues_scalarOneOrNone tolerates.port .user _).bind fun found _ => ?_
    split
    · exact failed _ _
    · refine (issues_get tolerates.port .tenant _).bind fun tenant _ => ?_
      split
      · exact failed _ _
      · exact issues_issueTokens tolerates roomy _ _ _ _ _

/-- A registration logs in with the email that it has parsed. -/
theorem issues_registerLocal (tolerates : Tolerates X) (roomy : Roomy C X) {email : String}
    (parses : ∀ normalized e, parseEmail platform.lower email = .ok normalized →
      parseEmail platform.lower normalized = .error e → X e)
    (password fullName : String) (country : Option String) :
    Issues (KeepsInvitations platform.lower) C index (fun _ => True) X
      (registerLocal platform ctx email password fullName country) := by
  refine (issues_orBadRequest tolerates fun _ raised => parseEmail_error raised).bind
    fun normalizedEmail parsed => ?_
  refine (issues_validateCredentials tolerates _ _ _).bind fun profile _ => ?_
  refine (issues_getByEmail tolerates.port _).bind fun found _ => ?_
  refine .ite (fun _ => tolerates.http _ _) fun _ => ?_
  refine (issues_createIdpUser tolerates).bind fun subject _ => ?_
  refine (issues_choose _).bind fun drawn _ => ?_
  refine (issues_add tolerates.port .tenant fun _ => trivial).bind fun tenant _ => ?_
  refine (issues_choose _).bind fun drawn' _ => ?_
  refine (issues_add tolerates.port .user fun _ => trivial).bind fun user _ => ?_
  refine (issues_updateTenant tolerates.port _).bind fun owned _ => ?_
  refine (issues_audit tolerates.port _ _ _).bind fun entry _ => ?_
  exact issues_loginLocal tolerates roomy (fun e raised => parses _ e parsed raised) _ _

theorem issues_auditRedemptionDenied (ports : ∀ e, FromPort e → X e)
    (invitation : Option InvitationRecord) (reason : String) :
    Issues (KeepsInvitations platform.lower) C index (fun _ => True) X
      (auditRedemptionDenied platform ctx invitation reason) :=
  (issues_audit ports _ _ _).bind fun _ _ => trivial

theorem issues_authorizeInvitationRedemption (tolerates : Tolerates X) (token : String) :
    Issues (KeepsInvitations platform.lower) C index (fun _ => True) X
      (authorizeInvitationRedemption platform ctx token) := by
  refine .ite (fun _ => tolerates.http _ _) fun _ => ?_
  refine (issues_scalarOneOrNone tolerates.port .invitation _).bind fun invitation _ => ?_
  refine (issues_choose _).bind fun now _ => ?_
  split
  · exact (issues_auditRedemptionDenied tolerates.port _ _).bind fun _ _ => tolerates.http _ _
  · refine (issues_getUser tolerates.port _).bind fun inviter _ => ?_
    refine (issues_get tolerates.port .tenant _).bind fun targetTenant _ => ?_
    split
    · refine (issues_choose _).bind fun now _ => ?_
      refine (issues_updateInvitation tolerates.port _).bind fun _ _ => ?_
      exact (issues_auditRedemptionDenied tolerates.port _ _).bind fun _ _ => tolerates.http _ _
    · trivial

theorem issues_provisionUserFromInvitation (tolerates : Tolerates X) (invitation : InvitationRecord)
    (identitySubject email fullName country : String) :
    Issues (KeepsInvitations platform.lower) C index (fun _ => True) X
      (provisionUserFromInvitation platform ctx invitation identitySubject email fullName country) := by
  refine .ite (fun _ => ?_) fun _ => ?_
  · exact (issues_auditRedemptionDenied tolerates.port _ _).bind fun _ _ => tolerates.http _ _
  refine (issues_scalarOneOrNone tolerates.port .user _).bind fun known _ => ?_
  refine .ite (fun _ => ?_) fun _ => ?_
  · exact (issues_auditRedemptionDenied tolerates.port _ _).bind fun _ _ => tolerates.http _ _
  refine (issues_getByEmail tolerates.port _).bind fun found _ => ?_
  refine .ite (fun _ => tolerates.http _ _) fun _ => ?_
  refine (issues_choose _).bind fun drawn _ => ?_
  refine (issues_add tolerates.port .user fun _ => trivial).bind fun user _ => ?_
  refine (issues_choose _).bind fun now _ => ?_
  refine (issues_updateInvitation tolerates.port _).bind fun _ _ => ?_
  refine (issues_audit tolerates.port _ _ _).bind fun _ _ => ?_
  exact (issues_audit tolerates.port _ _ _).bind fun _ _ => trivial

/-- What `accept_invitation` does with the invitation that it may redeem. -/
def Identity.acceptAuthorized (platform : IdentityPlatform) (ctx : ExecutionContext)
    (password fullName : String) (country userAgent ip : Option String)
    (invitation : InvitationRecord) : Request TokenResponse := do
  let (fullNameClean, countryCode) ← validateCredentials password fullName country
  if (← UserRepository.getByEmail platform.lower invitation.invitedEmail).isSome then
    throw (conflict "Email already registered")
  let subject ← createIdpUser
  let _ ← provisionUserFromInvitation platform ctx invitation subject invitation.invitedEmail
    fullNameClean countryCode
  loginLocal platform ctx invitation.invitedEmail userAgent ip

theorem Identity.acceptInvitation_eq (token : Str) (password fullName : String)
    (country userAgent ip : Option String) :
    acceptInvitation platform ctx token password fullName country userAgent ip =
      (Program.ofExcept (encodeToken token)).bind fun token =>
        (authorizeInvitationRedemption platform ctx token).bind
          (acceptAuthorized platform ctx password fullName country userAgent ip) := rfl

theorem issues_acceptAuthorized (tolerates : Tolerates X) (roomy : Roomy C X)
    {invitation : InvitationRecord}
    (parses : ∀ e, parseEmail platform.lower invitation.invitedEmail = .error e → X e)
    (password fullName : String) (country userAgent ip : Option String) :
    Issues (KeepsInvitations platform.lower) C index (fun _ => True) X
      (acceptAuthorized platform ctx password fullName country userAgent ip invitation) := by
  refine (issues_validateCredentials tolerates _ _ _).bind fun profile _ => ?_
  refine (issues_getByEmail tolerates.port _).bind fun found _ => ?_
  refine .ite (fun _ => tolerates.http _ _) fun _ => ?_
  refine (issues_createIdpUser tolerates).bind fun subject _ => ?_
  refine (issues_provisionUserFromInvitation tolerates _ _ _ _ _).bind fun user _ => ?_
  exact issues_loginLocal tolerates roomy parses _ _

theorem issues_acceptInvitationSupabase (tolerates : Tolerates X) {token : Str}
    (encodes : ∀ e, encodeToken token = .error e → X e)
    (identitySubject verifiedEmail fullName : String) (country : Option String) :
    Issues (KeepsInvitations platform.lower) C index (fun _ => True) X
      (acceptInvitationSupabase platform ctx token identitySubject verifiedEmail fullName country) := by
  refine Wherever.bind (N := fun _ => True) (.ofExcept (fun _ _ => trivial) encodes)
    fun token _ => ?_
  refine (issues_authorizeInvitationRedemption tolerates _).bind fun invitation _ => ?_
  refine (issues_validateProfile tolerates _ _).bind ?_
  rintro ⟨fullNameClean, countryCode⟩ _
  dsimp only
  split
  · exact tolerates.http _ _
  · rename_i e notValue raised
    obtain ⟨message, rfl⟩ := parseEmail_error raised
    exact absurd rfl (notValue message)
  · exact issues_provisionUserFromInvitation tolerates _ _ _ _ _

theorem issues_revokeAndReject (tolerates : Tolerates X) (session : SessionRecord)
    (reason detail : String) :
    Issues (KeepsInvitations platform.lower) C index (fun _ => True) X
      (revokeAndReject session reason detail) := by
  refine (issues_choose _).bind fun now _ => ?_
  exact (issues_updateSession tolerates.port _).bind fun _ _ => tolerates.http _ _

theorem issues_refresh (tolerates : Tolerates X) (roomy : Roomy C X) (refreshToken : String)
    (userAgent ip : Option String) :
    Issues (KeepsInvitations platform.lower) C index (fun _ => True) X
      (refresh platform ctx refreshToken userAgent ip) := by
  refine .ite (fun _ => tolerates.http _ _) fun _ => ?_
  refine (issues_scalarOneOrNone tolerates.port .session _).bind fun found _ => ?_
  cases found with
  | none => exact (issues_audit tolerates.port _ _ _).bind fun _ _ => tolerates.http _ _
  | some session =>
      refine .ite (fun _ => ?_) fun _ => ?_
      · refine (issues_revokeAllActiveForUser tolerates.port _ _).bind fun _ _ => ?_
        exact (issues_audit tolerates.port _ _ _).bind fun _ _ => tolerates.http _ _
      refine (issues_choose _).bind fun now _ => ?_
      refine .ite (fun _ => issues_revokeAndReject tolerates _ _ _) fun _ => ?_
      refine (issues_getUser tolerates.port _).bind fun user _ => ?_
      split
      · exact issues_revokeAndReject tolerates _ _ _
      · refine (issues_choose _).bind fun answer given => ?_
        split
        · exact issues_revokeAndReject tolerates _ _ _
        · rename_i failure notProvider
          cases failure with
          | identityProvider code message => exact absurd rfl (notProvider code message)
          | other message => exact tolerates.port _ (.outside message)
        · refine (issues_choose _).bind fun now _ => ?_
          refine (issues_updateSession tolerates.port _).bind fun _ _ => ?_
          exact issues_issueTokens tolerates roomy _ _ _ _ _

theorem issues_logout (tolerates : Tolerates X) (refreshToken : Option String) :
    Issues (KeepsInvitations platform.lower) C index (fun _ => True) X
      (logout platform ctx refreshToken) := by
  refine .ite (fun _ => trivial) fun _ => ?_
  refine (issues_scalarOneOrNone tolerates.port .session _).bind fun found _ => ?_
  split
  · trivial
  · refine (issues_choose _).bind fun now _ => ?_
    refine (issues_updateSession tolerates.port _).bind fun _ _ => ?_
    exact (issues_audit tolerates.port _ _ _).bind fun _ _ => trivial

theorem issues_getMyTenant (tolerates : Tolerates X) :
    Issues (KeepsInvitations platform.lower) C index (fun _ => True) X (getMyTenant ctx) := by
  refine .ite (fun _ => tolerates.http _ _) fun _ => ?_
  refine (issues_get tolerates.port .tenant _).bind fun tenant _ => ?_
  split
  · exact tolerates.http _ _
  · trivial

/-! ## Operations of `AdminService` -/

theorem tolerates_all : Tolerates fun _ => True := ⟨fun _ _ => trivial, fun _ _ => trivial⟩

/-- The request keeps the invitations, however it ends. -/
abbrev Innocuous (platform : IdentityPlatform) (C : Choice Env → Prop) (index : ι)
    (request : Request α) : Prop :=
  Issues (KeepsInvitations platform.lower) C index (fun _ => True) (fun _ => True) request

/-- An invitation is stored with the email that was parsed. -/
theorem innocuous_createInvitation (email role : String) :
    Innocuous platform C index (createInvitation platform ctx email role) := by
  refine .ite (fun _ => trivial) fun _ => ?_
  refine (issues_orBadRequest tolerates_all fun _ raised => parseEmail_error raised).bind
    fun normalizedEmail parsed => ?_
  refine .ite (fun _ => (issues_audit tolerates_all.port _ _ _).bind fun _ _ => trivial) fun _ => ?_
  refine (issues_getByEmail tolerates_all.port _).bind fun found _ => ?_
  refine .ite (fun _ => trivial) fun _ => .ite (fun _ => trivial) fun _ => ?_
  refine (issues_scalarOneOrNone tolerates_all.port .invitation _).bind fun found _ => ?_
  refine .ite (fun _ => trivial) fun _ => ?_
  refine (issues_choose _).bind fun token _ => ?_
  refine (issues_expiryAfter _ fun _ _ _ => trivial).bind fun expiresAt _ => ?_
  refine (issues_choose _).bind fun drawn _ => ?_
  refine Wherever.bind (N := fun _ => True) ?_ fun invitation _ => ?_
  · refine Wherever.bind (N := fun row => ∀ now, (row now).invitedEmail = normalizedEmail)
      (.ofExcept (fun row made => ?_) fun _ _ => trivial) fun row same => ?_
    · obtain ⟨invitedBy, _, rfl⟩ := Invitation.toRecord_eq made
      exact fun _ => rfl
    · exact issues_add tolerates_all.port .invitation fun v => ⟨email, by rw [same, parsed]⟩
  · exact (issues_audit tolerates_all.port _ _ _).bind fun _ _ => trivial

theorem innocuous_revokeInvitation (invitationId : String) :
    Innocuous platform C index (revokeInvitation platform ctx invitationId) := by
  refine Wherever.bind (N := fun _ => True) ?_ fun found _ => ?_
  · unfold InvitationRepository.get
    split
    · trivial
    · exact issues_get tolerates_all.port .invitation _
  split
  · trivial
  · refine .ite (fun _ => trivial) fun _ => .ite (fun _ => trivial) fun _ => ?_
    refine (issues_choose _).bind fun now _ => ?_
    refine (issues_updateInvitation tolerates_all.port _).bind fun _ _ => ?_
    exact (issues_audit tolerates_all.port _ _ _).bind fun _ _ => trivial

theorem innocuous_assignRole (targetUserId role : String) :
    Innocuous platform C index (assignRole platform ctx targetUserId role) := by
  have denied : ∀ reason answer, Issues (KeepsInvitations platform.lower) C index (fun _ => False)
      (fun _ => True) (assignRole.denied platform ctx targetUserId role reason answer) :=
    fun _ _ => (issues_audit tolerates_all.port _ _ _).bind fun _ _ => trivial
  refine .ite (fun _ => trivial) fun _ => ?_
  refine .ite (fun _ => (denied _ _).bind fun _ never => never.elim) fun _ => ?_
  refine .ite (fun _ => (denied _ _).bind fun _ never => never.elim) fun _ => ?_
  refine (issues_getUser tolerates_all.port _).bind fun found _ => ?_
  split
  · trivial
  · refine (issues_choose _).bind fun now _ => ?_
    refine Wherever.bind (N := fun _ => True) (.ofExcept (fun _ _ => trivial) fun _ _ => trivial)
      fun assigned _ => ?_
    refine (issues_updateUser _ _).bind fun updated _ => ?_
    exact (issues_audit tolerates_all.port _ _ _).bind fun _ _ => trivial

theorem innocuous_parseExpiry (expiresAt : Option Str) :
    Innocuous platform C index (parseExpiry platform expiresAt) := by
  unfold parseExpiry
  split
  · trivial
  · split
    · trivial
    · trivial
    · exact (issues_choose _).bind fun _ _ => .ite (fun _ => trivial) fun _ => trivial

theorem innocuous_createDelegation (delegateUserId : Str) (delegatedRoles : List String)
    (scope : String) (expiresAt : Option Str) :
    Innocuous platform C index
      (createDelegation platform ctx delegateUserId delegatedRoles scope expiresAt) := by
  have denied : ∀ payload answer, Issues (KeepsInvitations platform.lower) C index (fun _ => False)
      (fun _ => True) (createDelegation.denied platform ctx payload answer) :=
    fun _ _ => (issues_audit tolerates_all.port _ _ _).bind fun _ _ => trivial
  refine .ite (fun _ => trivial) fun _ => .ite (fun _ => trivial) fun _ => ?_
  refine .ite (fun _ => trivial) fun _ => ?_
  refine (innocuous_parseExpiry _).bind fun expiresDt _ => ?_
  refine .ite (fun _ => trivial) fun _ => ?_
  refine .ite (fun _ => (denied _ _).bind fun _ never => never.elim) fun _ => ?_
  refine (issues_getUser tolerates_all.port _).bind fun found _ => ?_
  split
  · exact (denied _ _).bind fun _ never => never.elim
  · refine .ite (fun _ => trivial) fun _ => ?_
    refine (issues_choose _).bind fun drawn _ => ?_
    refine Wherever.bind (N := fun _ => True) (.ofExcept (fun _ _ => trivial) fun _ _ => trivial)
      fun expiry _ => ?_
    refine Wherever.bind (N := fun _ => True) ?_ fun delegation _ => ?_
    · refine Wherever.bind (N := fun _ => True) (.ofExcept (fun _ _ => trivial) fun _ _ => trivial)
        fun row _ => ?_
      exact (issues_add tolerates_all.port .delegation fun _ => trivial).bind fun _ _ => trivial
    · exact (issues_audit tolerates_all.port _ _ _).bind fun _ _ => trivial

theorem innocuous_delegationInScope (delegationId : String) :
    Innocuous platform C index (delegationInScope ctx delegationId) := by
  refine Wherever.bind (N := fun _ => True) ?_ fun found _ => ?_
  · unfold DelegationRepository.get
    split
    · trivial
    · exact (issues_get tolerates_all.port .delegation _).bind fun _ _ => trivial
  split
  · trivial
  · exact .ite (fun _ => trivial) fun _ => trivial

theorem innocuous_updateDelegation (delegation : Delegation) :
    Innocuous platform C index (DelegationRepository.update delegation) := by
  refine issues_update tolerates_all.port .delegation trivial fun record => ?_
  refine Wherever.bind (N := fun _ => True) (.ofExcept (fun _ _ => trivial) fun _ _ => trivial)
    fun revokedBy _ => ?_
  exact (issues_flush tolerates_all.port .delegation fun _ => trivial).bind fun _ _ => trivial

theorem innocuous_auditInvalidated (delegation : Delegation) (reason : Option String) :
    Innocuous platform C index (auditInvalidated platform ctx delegation reason) :=
  (issues_audit tolerates_all.port _ _ _).bind fun _ _ => trivial

theorem innocuous_revokeDelegation (delegationId : String) :
    Innocuous platform C index (revokeDelegation platform ctx delegationId) := by
  refine (innocuous_delegationInScope _).bind fun delegation _ => ?_
  refine .ite (fun _ => trivial) fun _ => ?_
  refine (issues_choose _).bind fun now _ => ?_
  refine (innocuous_updateDelegation _).bind fun _ _ => ?_
  exact (issues_audit tolerates_all.port _ _ _).bind fun _ _ => trivial

theorem innocuous_extendDelegation (delegationId : String) (newExpiresAt : Option Str) :
    Innocuous platform C index (extendDelegation platform ctx delegationId newExpiresAt) := by
  refine (innocuous_delegationInScope _).bind fun delegation _ => ?_
  refine .ite (fun _ => trivial) fun _ => ?_
  refine (innocuous_parseExpiry _).bind fun newDt _ => ?_
  refine (issues_getUser tolerates_all.port _).bind fun found _ => ?_
  split
  · exact (innocuous_auditInvalidated _ _).bind fun _ _ => trivial
  · refine .ite (fun _ => (innocuous_auditInvalidated _ _).bind fun _ _ => trivial) fun _ => ?_
    refine (issues_choose _).bind fun now _ => ?_
    refine Wherever.bind (N := fun _ => True) (.ofExcept (fun _ _ => trivial) fun _ _ => trivial)
      fun expiry _ => ?_
    refine (innocuous_updateDelegation _).bind fun _ _ => ?_
    exact (issues_audit tolerates_all.port _ _ _).bind fun _ _ => trivial

theorem innocuous_changeTenant (tenantId : String)
    (change : TenantRecord → DateTime → Except PyExc TenantRecord) (action : String)
    (payload : List (String × Detail)) :
    Innocuous platform C index (changeTenant platform ctx tenantId change action payload) := by
  refine (issues_get tolerates_all.port .tenant _).bind fun found _ => ?_
  split
  · trivial
  · refine (issues_choose _).bind fun now _ => ?_
    refine Wherever.bind (N := fun _ => True) ?_ fun changed _ => ?_
    · unfold orConflict
      split <;> trivial
    refine (issues_updateTenant tolerates_all.port _).bind fun _ _ => ?_
    exact (issues_audit tolerates_all.port _ _ _).bind fun _ _ => trivial

theorem innocuous_select {β : Type} (e : Entity) (condition : e.Row → Bool)
    (arrange : List e.Row → List β) :
    Innocuous platform C index
      ((e.mapper.select condition).bind fun records => .ret (arrange records)) :=
  (issues_select tolerates_all.port e condition).bind fun _ _ => trivial

theorem innocuous_listDelegations : Innocuous platform C index (listDelegations ctx) := by
  refine .ite (fun _ => trivial) fun _ => ?_
  refine (issues_get tolerates_all.port .tenant _).bind fun tenant _ => ?_
  refine (innocuous_select .delegation _ _).bind fun (delegations : List Delegation) _ => ?_
  refine (issues_choose _).bind fun now _ => ?_
  induction delegations with
  | nil => trivial
  | cons delegation delegations ih =>
      exact (issues_getUser tolerates_all.port _).bind fun _ _ => ih.bind fun _ _ => trivial

theorem innocuous_getDelegation (delegationId : String) :
    Innocuous platform C index (getDelegation platform ctx delegationId) := by
  refine (innocuous_delegationInScope _).bind fun delegation _ => ?_
  refine (issues_getUser tolerates_all.port _).bind fun delegator _ => ?_
  refine (issues_get tolerates_all.port .tenant _).bind fun tenant _ => ?_
  refine (issues_choose _).bind fun now _ => ?_
  exact .ite (fun _ => (innocuous_auditInvalidated _ _).bind fun _ _ => trivial) fun _ => trivial

theorem innocuous_admin (call : AdminRequest) :
    Innocuous platform C index (call.serve platform ctx) := by
  have listed {β : Type} {first : Request β} {rest : β → IdentityAnswer}
      (innocuous : Innocuous platform C index first) :
      Innocuous platform C index (first.bind fun b => .ret (rest b)) :=
    innocuous.bind fun _ _ => trivial
  cases call with
  | assignRole userId role => exact listed (innocuous_assignRole _ _)
  | createInvitation email role => exact listed (innocuous_createInvitation _ _)
  | listInvitations =>
      have selected : Innocuous platform C index (listInvitations ctx) :=
        .ite (fun _ => trivial) fun _ =>
          Wherever.bind (N := fun _ => True) (innocuous_select .invitation _ _) fun _ _ => trivial
      exact listed selected
  | revokeInvitation id => exact listed (innocuous_revokeInvitation _)
  | createDelegation delegate roles scope expiresAt =>
      exact listed (innocuous_createDelegation _ _ _ _)
  | listDelegations => exact listed innocuous_listDelegations
  | getDelegation id => exact listed (innocuous_getDelegation _)
  | revokeDelegation id => exact listed (innocuous_revokeDelegation _)
  | extendDelegation id expiresAt => exact listed (innocuous_extendDelegation _ _)
  | listTenants =>
      have selected : Innocuous platform C index listTenants :=
        Wherever.bind (N := fun _ => True) (innocuous_select .tenant _ _) fun _ _ => trivial
      exact listed selected
  | getTenant id =>
      refine listed ((issues_get tolerates_all.port .tenant _).bind fun found _ => ?_)
      split <;> trivial
  | suspendTenant id reason => exact listed (innocuous_changeTenant _ _ _ _)
  | reactivateTenant id => exact listed (innocuous_changeTenant _ _ _ _)
  | archiveTenant id => exact listed (innocuous_changeTenant _ _ _ _)

/-! ## Requests -/

theorem innocuous_auth (request : AuthRequest) :
    Innocuous platform C index (request.serve platform ctx) := by
  have answered {β : Type} {first : Request β} {rest : β → IdentityAnswer}
      (innocuous : Innocuous platform C index first) :
      Innocuous platform C index (first.bind fun b => .ret (rest b)) :=
    innocuous.bind fun _ _ => trivial
  have roomy : Roomy C fun _ => True := fun _ _ _ => trivial
  cases request with
  | register email password fullName country =>
      exact answered (issues_registerLocal tolerates_all roomy (fun _ _ _ _ => trivial) _ _ _)
  | login email userAgent ip =>
      exact answered (issues_loginLocal tolerates_all roomy (fun _ _ => trivial) _ _)
  | acceptInvitation token password fullName country userAgent ip =>
      rw [AuthRequest.serve, acceptInvitation_eq]
      refine answered (Wherever.bind (N := fun _ => True)
        (.ofExcept (fun _ _ => trivial) fun _ _ => trivial) fun token _ => ?_)
      exact (issues_authorizeInvitationRedemption tolerates_all _).bind fun _ _ =>
        issues_acceptAuthorized tolerates_all roomy (fun _ _ => trivial) _ _ _ _ _
  | acceptInvitationSupabase token fullName country =>
      exact answered (issues_acceptInvitationSupabase tolerates_all (fun _ _ => trivial) _ _ _ _)
  | refresh refreshToken userAgent ip => exact answered (issues_refresh tolerates_all roomy _ _ _)
  | logout refreshToken => exact answered (issues_logout tolerates_all _)
  | myTenant => exact answered (issues_getMyTenant tolerates_all)

theorem innocuous_grantEach (tenant : TenantRecord) (now : DateTime) (active : List Delegation) :
    Innocuous platform C index (grantEach tenant now active) := by
  induction active with
  | nil => trivial
  | cons delegation active ih =>
      refine (issues_getUser tolerates_all.port _).bind fun _ _ => ih.bind fun _ _ => ?_
      exact .ite (fun _ => trivial) fun _ => trivial

theorem innocuous_hydrator (subject : String) :
    Innocuous platform C index (buildProductionContextHydrator platform subject) := by
  have left {attrs : Option Attributes} : Innocuous platform C index
      (rollback.bind fun _ => Program.ret attrs) :=
    issues_rollback.bind fun _ _ => trivial
  refine (issues_setConfig tolerates_all.port _).bind fun _ _ => ?_
  refine (issues_scalarOneOrNone tolerates_all.port .user _).bind fun found _ => ?_
  split
  · exact left
  · refine (issues_get tolerates_all.port .tenant _).bind fun tenant _ => ?_
    split
    · exact left
    · refine Wherever.bind (N := fun _ => True) ?_ fun _ _ => left
      refine (innocuous_select .delegation _ _).bind fun (active : List Delegation) _ => ?_
      refine .ite (fun _ => trivial) fun _ => ?_
      refine (issues_choose _).bind fun now _ => ?_
      exact (innocuous_grantEach _ _ _).bind fun _ _ => trivial

/-- **Every request keeps the invitations**, wherever it runs. -/
theorem innocuous_handle (request : IdentityRequest) :
    Innocuous platform C index (request.handle platform) := by
  have context (token : Option Claims) :
      Innocuous platform C index (currentContext platform token) := by
    cases token with
    | none => trivial
    | some claims => exact (innocuous_hydrator _).bind fun _ _ => trivial
  have authenticated (ctx : ExecutionContext) : Innocuous platform C index (requireAuth ctx) :=
    .ite (fun _ => trivial) fun _ => trivial
  cases request with
  | auth token request =>
      refine (context token).bind fun ctx _ => ?_
      refine Wherever.bind (N := fun _ => True) ?_ fun _ _ =>
        issues_getDbSession tolerates_all.port ctx (innocuous_auth request)
      cases request with
      | acceptInvitationSupabase | logout | myTenant => exact authenticated ctx
      | _ => trivial
  | admin token call =>
      refine (context token).bind fun ctx _ => ?_
      refine Wherever.bind (N := fun _ => True) ?_ fun _ _ =>
        issues_getDbSession tolerates_all.port ctx (innocuous_admin call)
      refine (authenticated ctx).bind fun _ _ => .ite (fun _ => trivial) fun _ => ?_
      exact (issues_audit tolerates_all.port _ _ _).bind fun _ _ => trivial
  | hydrate subject => exact (innocuous_hydrator _).bind fun _ _ => trivial
  | suspendUser userId reason =>
      refine issues_getDbSession tolerates_all.port _ ?_
      refine (issues_getUser tolerates_all.port _).bind fun found _ => ?_
      split
      · trivial
      · refine (issues_choose _).bind fun now _ => ?_
        exact (issues_updateUser _ _).bind fun _ _ => trivial

end Rules
end LandVault
