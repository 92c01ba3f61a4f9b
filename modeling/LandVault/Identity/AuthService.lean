import LandVault.Identity.AdminService

/-!
# Registration, invitations, login and refresh

`AuthService` (`app/contexts/identity/application/auth_service.py`). The identity
provider is outside: it answers, refuses with an `IdentityProviderError`, or fails in
another way. A refresh token is stored as its digest; a refresh revokes the session it
names and issues another one that names it as its predecessor.
-/

set_option autoImplicit false

namespace LandVault.Identity

open Kernel Kernel.Audit Library.Programs Library.ReadCommitted Python

/-- `_unauthenticated`. -/
def unauthenticated (detail : String) : PyExc := .http 401 detail

/-- `REFRESH_TOKEN_TTL_SECONDS`, in days. -/
def refreshTokenTtlDays : Nat := 30

/-- `DEFAULT_COUNTRY`. -/
def defaultCountry : String := "NG"

/-- The body of a token response. -/
structure TokenResponse where
  accessToken : String
  expiresIn : Int
  refreshToken : String
  refreshExpiresAt : DateTime
  sessionId : String
  user : UserView

/-- An answer of a service outside the database. -/
def awaitOutside {α : Type} (answer : Env → Except Failure α) : Request (Except Failure α) :=
  choose answer

/-- `_validate_profile`. -/
def validateProfile (fullName : String) (country : Option String) : Request (String × String) := do
  if fullName = "" || isBlankText fullName then throw (badRequest "full_name required")
  let code ← orBadRequest (CountryCode.new (upper ((orElse country defaultCountry).getD "")))
  pure (stripText fullName, code.value)

/-- `_validate_credentials`. -/
def validateCredentials (password fullName : String) (country : Option String) :
    Request (String × String) := do
  if password.length < 8 then throw (badRequest "password must be at least 8 characters")
  validateProfile fullName country

/-- `_create_idp_user`. -/
def createIdpUser : Request String := do
  match ← awaitOutside fun env => env.subject with
  | .ok subject => pure subject
  | .error (.identityProvider code message) =>
      if code = "identity.email_taken" then throw (conflict "Email already registered")
      throw (badRequest message)
  | .error failure => throw failure.error

/-- `_issue_tokens`. An exception of the update of the user is swallowed. -/
def issueTokens (platform : IdentityPlatform) (ctx : ExecutionContext) (user : UserRecord)
    (idpTokens : IdentityProviderTokens) (userAgent ip : Option String)
    (rotatedFrom : Option UUID) : Request TokenResponse := do
  let token ← choose fun env => env.token
  let expiresAt ← expiryAfter refreshTokenTtlDays
  let (uuid4, now) ← choose fun env => (env.uuid, env.now)
  let session ← SessionRepository.add
    { id := uuid4
      userId := user.id
      refreshTokenHash := platform.sha256 token
      idpRefreshToken := idpTokens.idpRefreshToken
      expiresAt
      createdAt := .clock now
      rotatedFrom
      userAgent
      ipAddress := ip }
  let now ← choose fun env => env.now
  let marked := user.markLoggedIn now
  let user ← tryCatch (UserRepository.update marked marked.version) fun _ => pure marked
  let _ ← audit platform.toPlatform ctx
    { action := "identity.login.success"
      resourceType := "user"
      resourceId := some user.id.str
      decision := some "PERMIT"
      payload := some <| .details
        [("session_id", .text session.id.str), ("rotated_from", .text (rotatedFrom.map UUID.str))] }
  pure { accessToken := idpTokens.accessToken, expiresIn := idpTokens.expiresIn
         refreshToken := token, refreshExpiresAt := expiresAt, sessionId := session.id.str
         user := user.publicView }

/-! ## Login -/

/-- `login_local`. -/
def loginLocal (platform : IdentityPlatform) (ctx : ExecutionContext) (email : String)
    (userAgent ip : Option String) : Request TokenResponse := do
  let normalized ← Program.ofExcept (parseEmail platform.lower email)
  match ← awaitOutside fun env => env.tokens with
  | .error (.identityProvider code _) => failed normalized code
  | .error failure => throw failure.error
  | .ok idpTokens =>
      match (← UserRepository.getByIdentitySubject idpTokens.subject).filter
          UserRecord.canAuthenticate with
      | none => failed normalized "account_not_found_or_inactive"
      | some user =>
          match (← TenantRepository.get user.tenantId).filter TenantRecord.isActive with
          | none => failed normalized "tenant_not_active"
          | some _ => issueTokens platform ctx user idpTokens userAgent ip none
where
  failed (normalized reason : String) : Request TokenResponse := do
    let _ ← audit platform.toPlatform ctx
      { action := "identity.login.failed"
        resourceType := "user"
        decision := some "DENY"
        payload := some <| .details [("email", .text normalized), ("reason", .text reason)] }
    throw (unauthenticated "Invalid email or password")

/-! ## Registration -/

/-- `register_local`. -/
def registerLocal (platform : IdentityPlatform) (ctx : ExecutionContext)
    (email password fullName : String) (country : Option String) : Request TokenResponse := do
  let normalizedEmail ← orBadRequest (parseEmail platform.lower email)
  let (fullNameClean, countryCode) ← validateCredentials password fullName country
  if (← UserRepository.getByEmail platform.lower normalizedEmail).isSome then
    throw (conflict "Email already registered")
  let subject ← createIdpUser
  let (uuid4, now) ← choose fun env => (env.uuid, env.now)
  let tenant := TenantRecord.new uuid4 now (fullNameClean ++ "'s Organization")
  let _ ← TenantRepository.add tenant
  let (uuid4, now) ← choose fun env => (env.uuid, env.now)
  let user := UserRecord.new platform.lower uuid4 now subject normalizedEmail fullNameClean
    countryCode tenant.id
  let _ ← UserRepository.add user
  let _ ← TenantRepository.update { tenant with ownerUserId := some user.id }
  let _ ← audit platform.toPlatform ctx
    { action := "identity.user.registered"
      resourceType := "user"
      resourceId := some user.id.str
      payload := some <| .details [("country", .text countryCode)] }
  loginLocal platform ctx normalizedEmail none none

/-! ## Redeeming an invitation -/

/-- The `encode` of `hash_token`, which is the first thing done with the token of an
invitation. A `UnicodeEncodeError` is a `ValueError`. -/
def encodeToken (token : Str) : Except PyExc String :=
  match token.text with
  | some text => .ok text
  | none => .error (.value token.encodeError)

theorem encodeToken_error {token : Str} {e : PyExc} (raised : encodeToken token = .error e) :
    e = .value token.encodeError := by
  unfold encodeToken at raised
  split at raised <;> cases raised
  rfl

/-- The entry of a redemption that is refused. -/
def auditRedemptionDenied (platform : IdentityPlatform) (ctx : ExecutionContext)
    (invitation : Option InvitationRecord) (reason : String) : Request Unit := do
  let _ ← audit platform.toPlatform ctx
    { action := "identity.invitation.redemption_denied"
      resourceType := "invitation"
      resourceId := invitation.map fun invitation => invitation.id.str
      decision := some "DENY"
      payload := some <| .details [("reason", .text reason)] }
  pure ()

/-- Why an invitation grants nothing any more, if it does not. -/
def authorityLostReason (invitation : InvitationRecord) (inviter : Option UserRecord)
    (targetTenant : Option TenantRecord) : Option String :=
  match inviter.filter UserRecord.canAuthenticate with
  | none => some "inviter_inactive"
  | some inviter =>
      if highestRank inviter.roles < highestRank [invitation.role] then
        some "inviter_authority_lost"
      else if inviter.tenantId ≠ invitation.tenantId then some "tenant_mismatch"
      else if !targetTenant.any (·.isActive) then some "tenant_not_active"
      else none

/-- `_authorize_invitation_redemption`. -/
def authorizeInvitationRedemption (platform : IdentityPlatform) (ctx : ExecutionContext)
    (token : String) : Request InvitationRecord := do
  if token = "" then throw (unauthenticated "Invalid or expired invitation")
  let invitation ← InvitationRepository.getByTokenHash (platform.sha256 token)
  let now ← choose fun env => env.now
  match invitation.filter (·.isRedeemableAt now) with
  | none =>
      auditRedemptionDenied platform ctx invitation "invalid_or_expired"
      throw (unauthenticated "Invalid or expired invitation")
  | some invitation =>
      let inviter ← UserRepository.get invitation.invitedBy.str
      let targetTenant ← TenantRepository.get invitation.tenantId
      match authorityLostReason invitation inviter targetTenant with
      | some reason =>
          let now ← choose fun env => env.now
          let _ ← InvitationRepository.update (invitation.revoke now)
          auditRedemptionDenied platform ctx (some invitation) reason
          throw (unauthenticated "Invalid or expired invitation")
      | none => pure invitation

/-- `_provision_user_from_invitation`. -/
def provisionUserFromInvitation (platform : IdentityPlatform) (ctx : ExecutionContext)
    (invitation : InvitationRecord) (identitySubject email fullName country : String) :
    Request UserRecord := do
  if email ≠ invitation.invitedEmail then do
    auditRedemptionDenied platform ctx (some invitation) "email_mismatch"
    throw (unauthenticated "Invalid or expired invitation")
  if (← UserRepository.getByIdentitySubject identitySubject).isSome then do
    auditRedemptionDenied platform ctx (some invitation) "identity_already_provisioned"
    throw (conflict "This identity is already a registered LandVault user")
  if (← UserRepository.getByEmail platform.lower email).isSome then
    throw (conflict "Email already registered")
  let (uuid4, now) ← choose fun env => (env.uuid, env.now)
  let user :=
    { UserRecord.new platform.lower uuid4 now identitySubject email fullName country
        invitation.tenantId with roles := [invitation.role] }
  let _ ← UserRepository.add user
  let now ← choose fun env => env.now
  let _ ← InvitationRepository.update (invitation.accept now)
  let _ ← audit platform.toPlatform ctx
    { action := "identity.user.registered"
      resourceType := "user"
      resourceId := some user.id.str
      payload := some <| .details
        [("country", .text country), ("via_invitation", .text invitation.id.str)] }
  let _ ← audit platform.toPlatform ctx
    { action := "identity.invitation.accepted"
      resourceType := "invitation"
      resourceId := some invitation.id.str
      decision := some "PERMIT"
      payload := some <| .details [("user_id", .text user.id.str)] }
  pure user

/-- `accept_invitation`. -/
def acceptInvitation (platform : IdentityPlatform) (ctx : ExecutionContext)
    (token : Str) (password fullName : String) (country userAgent ip : Option String) :
    Request TokenResponse := do
  let token ← Program.ofExcept (encodeToken token)
  let invitation ← authorizeInvitationRedemption platform ctx token
  let (fullNameClean, countryCode) ← validateCredentials password fullName country
  if (← UserRepository.getByEmail platform.lower invitation.invitedEmail).isSome then
    throw (conflict "Email already registered")
  let subject ← createIdpUser
  let _ ← provisionUserFromInvitation platform ctx invitation subject invitation.invitedEmail
    fullNameClean countryCode
  loginLocal platform ctx invitation.invitedEmail userAgent ip

/-- `accept_invitation_supabase`. -/
def acceptInvitationSupabase (platform : IdentityPlatform) (ctx : ExecutionContext)
    (token : Str) (identitySubject verifiedEmail fullName : String) (country : Option String) :
    Request UserRecord := do
  let token ← Program.ofExcept (encodeToken token)
  let invitation ← authorizeInvitationRedemption platform ctx token
  let (fullNameClean, countryCode) ← validateProfile fullName country
  match parseEmail platform.lower verifiedEmail with
  | .error (.value _) => throw (unauthenticated "Invalid or expired invitation")
  | .error error => throw error
  | .ok normalizedEmail =>
      provisionUserFromInvitation platform ctx invitation identitySubject normalizedEmail
        fullNameClean countryCode

/-! ## Refresh and logout -/

/-- Revoke the session of a refresh that fails, and answer 401. -/
def revokeAndReject (session : SessionRecord) (reason detail : String) : Request TokenResponse := do
  let now ← choose fun env => env.now
  let _ ← SessionRepository.update (session.revoke reason now)
  throw (unauthenticated detail)

/-- `refresh`. -/
def refresh (platform : IdentityPlatform) (ctx : ExecutionContext) (refreshToken : String)
    (userAgent ip : Option String) : Request TokenResponse := do
  if refreshToken = "" then throw (unauthenticated "Missing refresh token")
  match ← SessionRepository.getByRefreshHash (platform.sha256 refreshToken) with
  | none =>
      let _ ← audit platform.toPlatform ctx
        { action := "identity.refresh.unknown_token"
          resourceType := "session"
          decision := some "DENY" }
      throw (unauthenticated "Invalid refresh token")
  | some session =>
      if session.status ≠ .active then do
        SessionRepository.revokeAllActiveForUser session.userId "refresh_token_replay"
        let _ ← audit platform.toPlatform ctx
          { action := "identity.refresh.replay_detected"
            resourceType := "user"
            resourceId := some session.userId.str
            decision := some "DENY" }
        throw (unauthenticated "Refresh token reuse detected")
      let now ← choose fun env => env.now
      if !session.isActiveAt now then
        return ← revokeAndReject session "expired" "Refresh token expired"
      match (← UserRepository.get session.userId.str).filter UserRecord.canAuthenticate with
      | none => revokeAndReject session "user_inactive" "Account inactive"
      | some user =>
          match ← awaitOutside fun env => env.tokens with
          | .error (.identityProvider _ _) =>
              revokeAndReject session "idp_refresh_rejected" "Session could not be refreshed"
          | .error failure => throw failure.error
          | .ok idpTokens =>
              let now ← choose fun env => env.now
              let _ ← SessionRepository.update (session.revoke "rotated" now)
              issueTokens platform ctx user idpTokens userAgent ip (some session.id)

/-- `logout`. -/
def logout (platform : IdentityPlatform) (ctx : ExecutionContext) (refreshToken : Option String) :
    Request Unit := do
  if !truthy refreshToken then return ()
  match (← SessionRepository.getByRefreshHash (platform.sha256 (refreshToken.getD ""))).filter
      fun session => session.status == .active with
  | none => pure ()
  | some session =>
      let now ← choose fun env => env.now
      let _ ← SessionRepository.update (session.revoke "user_logout" now)
      let _ ← audit platform.toPlatform ctx
        { action := "identity.logout"
          resourceType := "session"
          resourceId := some session.id.str }
      pure ()

end LandVault.Identity
