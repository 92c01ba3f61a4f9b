import LandVault.Identity.Turns

/-!
# Replayed refresh tokens

Who presents a refresh token whose session is not active any more is answered with 401,
and the revocation of all sessions of its user is committed with that answer. A revoked
session stays revoked, for a session is issued once and only ever revoked, so none of
these tokens is exchanged again.
-/

set_option autoImplicit false

namespace LandVault

open Kernel Kernel.Audit Identity Library.Programs Library.ReadCommitted Python Relation

/-! ## Sessions along a run -/

/-- Every session is still there, with its token and its user, and revoked if it was. -/
def SessionsKept (t u : Tables) : Prop :=
  ∀ row ∈ t.identitySessions, ∃ row' ∈ u.identitySessions, row'.id = row.id ∧
    row'.refreshTokenHash = row.refreshTokenHash ∧ (row.status = .revoked → row'.status = .revoked)

theorem SessionsKept.of_eq {t u : Tables} (same : u.identitySessions = t.identitySessions) :
    SessionsKept t u :=
  fun row stored => ⟨row, same ▸ stored, rfl, rfl, id⟩

theorem SessionsKept.trans {t u v : Tables} (first : SessionsKept t u) (second : SessionsKept u v) :
    SessionsKept t v := by
  intro row stored
  obtain ⟨row', stored', id, hash, revoked⟩ := first row stored
  obtain ⟨row'', stored'', id', hash', revoked'⟩ := second row' stored'
  exact ⟨row'', stored'', id'.trans id, hash'.trans hash, fun lost => revoked' (revoked lost)⟩

theorem Enrols.sessionsKept {given : Presented} {u₀ u : Tables} {w : Write}
    (enrols : Enrols given u₀ u w) : SessionsKept u (u.apply w) := by
  cases enrols with
  | issue => exact fun row stored => ⟨row, List.mem_append_left _ stored, rfl, rfl, id⟩
  | revoke =>
      intro row stored
      refine ⟨_, List.mem_map_of_mem stored, ?_⟩
      split
      · exact ⟨rfl, rfl, fun _ => rfl⟩
      · exact ⟨rfl, rfl, id⟩
  | addTenant | nameOwner | register | redeem | accept | withdraw | stamp => exact .of_eq rfl

theorem Enrolled.sessionsKept {given : Presented} {t u : Tables} (enrolled : Enrolled given t u) :
    SessionsKept t u := by
  induction enrolled with
  | refl => exact .of_eq rfl
  | tail _ write ih =>
      obtain ⟨w, enrols, rfl⟩ := write
      exact ih.trans enrols.sessionsKept

/-- **The step lemma for sessions.** -/
theorem Step.sessionsKept {platform : IdentityPlatform} {t u : Tables} {request : IdentityRequest}
    (step : Step platform t request u) : SessionsKept t u := by
  cases step with
  | nothing => exact .of_eq rfl
  | admin _ _ _ stages =>
      rcases stages with rfl | ⟨w, administers, rfl⟩
      · exact .of_eq rfl
      · cases administers <;> exact .of_eq rfl
  | auth _ stages => exact stages.sessionsKept
  | suspend stages =>
      rcases stages with rfl | ⟨_, _, _, _, _, rfl⟩
      · exact .of_eq rfl
      · exact .of_eq rfl

theorem Runs.sessionsKept {platform : IdentityPlatform} {admitted : IdentityRequest → Tables → Prop}
    {t t' : Tables} (runs : Runs platform admitted t t') (unique : t.keys.Nodup) :
    SessionsKept t t' :=
  runs.keeps (I := SessionsKept t) unique (.of_eq rfl)
    fun _ _ _ _ _ kept step => kept.trans step.sessionsKept

/-! ## A refresh from its token to its answer -/

/-- The session that a refresh finds for its token, whatever the moment. -/
def Finds (platform : IdentityPlatform) (t : Tables) (token : Option Claims) (refreshToken : String)
    (session : SessionRecord) : Prop :=
  ∀ ctx, Caller platform t token ctx → KnownSession platform (scopeOf ctx) t refreshToken session

section Rules

variable {t : Tables} {db : Database Unit} {s : DbSession} {platform : IdentityPlatform}

/-- A refresh is answered with tokens for an active session only. After any answer of
its own, what it was to leave is left. -/
theorem Idle.refresh (idle : Idle t db s) (token : Option Claims) (refreshToken : String)
    (userAgent ip : Option String) :
    Keeps (Step platform t (.auth token (.refresh refreshToken userAgent ip))) (fun _ => True)
      (fun _ _ _ => ∃ ctx session, Caller platform t token ctx ∧
        KnownSession platform (scopeOf ctx) t refreshToken session ∧ session.status = .active)
      (fun e db _ => e.isHttp = true → ∃ ctx, Caller platform t token ctx ∧
        Refused platform (scopeOf ctx) t refreshToken e db.tables.records)
      (IdentityRequest.handle platform (.auth token (.refresh refreshToken userAgent ip))) db s := by
  refine ((idle.currentContext token).mono (fun _ _ _ after => after) ?_).bind ?_
  · rintro e db s ⟨notHttp, _⟩ http
    simp [notHttp] at http
  rintro ctx db s ⟨idle, caller⟩
  have allows (u : Tables)
      (enrolled : Enrolled { session := platform.sha256 refreshToken } t u) :
      Step platform t (.auth token (.refresh refreshToken userAgent ip)) u :=
    .auth caller enrolled
  refine (idle.getDbSession (C := fun _ => True) ctx
    (P := fun x tokens u =>
      (AuthRequest.refresh refreshToken userAgent ip).Answered platform t tokens u ∧ ∃ session,
      KnownSession platform x.scope t refreshToken session ∧ session.status = .active)
    (R := fun x e u => Refused platform x.scope t refreshToken e u)
    (fun _ _ u after => allows u after.1.enrolled) (fun _ _ u refused => allows u refused.1) ?_).mono ?_ ?_
  · rintro x db s rfl _ _ staged
    have refreshed : Keeps (Step platform x.base (.auth token (.refresh refreshToken userAgent ip)))
        (fun _ => True)
        (fun tokens => Ready x fun u =>
          Issued { session := platform.sha256 refreshToken } x.base tokens u ∧ ∃ session,
          KnownSession platform x.scope x.base refreshToken session ∧ session.status = .active)
        (Raising x (Refused platform x.scope x.base refreshToken))
        (Identity.refresh platform ctx refreshToken userAgent ip) db s :=
      staged.refresh refreshToken userAgent ip
    exact refreshed.bind fun _ _ _ ready => ready
  · rintro _ db s ⟨x, _, scope, _, _, _, session, known, active⟩
    exact ⟨ctx, session, caller, scope ▸ known, active⟩
  · rintro e db s (⟨_, x, _, scope, _, _, refused⟩ | ⟨notHttp, _⟩) http
    · exact ⟨ctx, caller, scope ▸ refused⟩
    · simp [notHttp] at http

end Rules

theorem Caller.of_records {platform : IdentityPlatform} {t : Tables} {token : Option Claims}
    {ctx : ExecutionContext} (caller : Caller platform t.records token ctx) :
    Caller platform t token ctx := by
  cases caller with
  | anonymous => exact .anonymous
  | token claims now => exact .token claims now

/-- The answer of a request was given by its service, with a value or an `HTTPException`. -/
def Served : Except PyExc IdentityAnswer → Prop
  | .ok _ => True
  | .error e => e.isHttp = true

/-- **A replay is contained.** Once a refresh has been answered whose token names a
session that is not active, the answer was 401, all sessions that its user had are
revoked and those of others unchanged; and after any run that follows they are still
revoked, and no refresh exchanges one of their tokens. -/
theorem replay_contained {platform : IdentityPlatform} {t t' : Tables} (unique : t.keys.Nodup)
    {token : Option Claims} {refreshToken : String} {userAgent ip : Option String}
    {answer : Except PyExc IdentityAnswer} {session : SessionRecord} (given : refreshToken ≠ "")
    (finds : Finds platform t token refreshToken session) (inactive : session.status ≠ .active)
    (leaves : Leaves t (IdentityRequest.handle platform
      (.auth token (.refresh refreshToken userAgent ip))) t' (some answer))
    (served : Served answer) :
    answer = .error (unauthenticated "Refresh token reuse detected") ∧
    Contained session.userId t t' ∧
    ∀ t'', Runs platform (fun _ _ => True) t' t'' →
      ∀ row ∈ t.identitySessions, row.userId = session.userId →
        (∃ row' ∈ t''.identitySessions, row'.id = row.id ∧ row'.status = .revoked) ∧
        ∀ token' refreshToken' userAgent' ip' t₃ tokens,
          platform.sha256 refreshToken' = row.refreshTokenHash →
          ¬ Leaves t'' (IdentityRequest.handle platform
            (.auth token' (.refresh refreshToken' userAgent' ip'))) t₃ (some (.ok tokens)) := by
  obtain ⟨unique', _, ended⟩ := leaves.of_keeps unique .nothing fun _ _ idle =>
    idle.refresh token refreshToken userAgent ip
  obtain ⟨db, s, rfl, answered⟩ := ended answer rfl
  have sameSession : ∀ {ctx other}, Caller platform t.records token ctx →
      KnownSession platform (scopeOf ctx) t.records refreshToken other → other = session := by
    intro ctx other caller known
    have mine := finds ctx caller.of_records
    refine List.inj_on_of_nodup_map (Tables.refreshTokenHashes_nodup unique) ?_ ?_
      (known.2.trans mine.2.symm)
    · exact Entity.mem_rows_of_seen (e := .session) known.1
    · exact Entity.mem_rows_of_seen (e := .session) mine.1
  obtain ⟨reason, contained⟩ : answer = .error (unauthenticated "Refresh token reuse detected") ∧
      Contained session.userId t db.tables := by
    cases answer with
    | ok tokens =>
        obtain ⟨ctx, other, caller, known, active⟩ := answered
        exact absurd (sameSession caller known ▸ active) inactive
    | error e =>
        obtain ⟨ctx, caller, _, refused⟩ := answered served
        obtain ⟨rfl, contained⟩ := refused session (finds ctx caller.of_records) given inactive
        exact ⟨rfl, contained.revoked, contained.others⟩
  refine ⟨reason, contained, fun t'' runs row stored mine => ?_⟩
  have unique'' := runs.unique unique'
  obtain ⟨row', stored', id, hash, _⟩ := (step_of_leaves unique leaves).2.sessionsKept row stored
  obtain ⟨same, stored₁, id₁, revoked⟩ := contained.revoked row stored mine
  cases List.inj_on_of_nodup_map (Entity.keys_nodup .session unique') stored₁ stored' (id₁.trans id.symm)
  obtain ⟨row'', stored'', id', hash', stays⟩ := runs.sessionsKept unique' row' stored'
  refine ⟨⟨row'', stored'', id'.trans id, stays revoked⟩, ?_⟩
  intro token' refreshToken' userAgent' ip' t₃ tokens presented exchanged
  obtain ⟨_, _, ended'⟩ := exchanged.of_keeps unique'' .nothing fun _ _ idle =>
    idle.refresh token' refreshToken' userAgent' ip'
  obtain ⟨db', s', _, ctx, other, _, known, active⟩ := ended' _ rfl
  have found : other = row'' := by
    refine List.inj_on_of_nodup_map (Tables.refreshTokenHashes_nodup unique'') ?_ stored'' ?_
    · exact Entity.mem_rows_of_seen (e := .session) known.1
    · exact known.2.trans (presented.trans (hash'.trans hash).symm)
  rw [found, stays revoked] at active
  cases active

/-- A user with a session that was revoked, and the one that took its place. -/
def rotatedTables : Tables where
  tenants := [{ id := "t-1" }]
  identityUsers := [{ id := sampleId 1, tenantId := "t-1", identitySubject := "s-1", email := "1" }]
  identitySessions :=
    [{ id := sampleId 2, userId := sampleId 1, refreshTokenHash := "old", idpRefreshToken := ""
       expiresAt := sampleNow, status := .revoked, createdAt := .now 0 },
     { id := sampleId 3, userId := sampleId 1, refreshTokenHash := "new", idpRefreshToken := ""
       expiresAt := sampleNow, createdAt := .now 0 }]

/-- The old token comes back. -/
def replay : IdentityRequest := .auth none (.refresh "old" none none)

theorem replay_contained_sample :
    ∃ t', Leaves rotatedTables (replay.handle samplePlatform) t'
        (some (.error (unauthenticated "Refresh token reuse detected"))) ∧
      ∃ row ∈ t'.identitySessions, row.id = sampleId 3 ∧ row.status = .revoked := by
  have observed : (play (postgres Unit) ()
      (List.replicate 9 { env := { uuid := sampleId 9, now := sampleNow } })
      { tables := rotatedTables } freshSession (replay.handle samplePlatform)).any
      (fun run => match run.1 with | .ok _ => true | .error e => e.isHttp) = true := by
    decide +kernel
  obtain ⟨⟨answer, db, s⟩, played, given⟩ := (Option.any_eq_true _ _).mp observed
  have served : Served answer := by
    cases answer with
    | ok _ => trivial
    | error e => exact given
  have leaves := Leaves.of_play played
  have finds : Finds samplePlatform rotatedTables none "old"
      { id := sampleId 2, userId := sampleId 1, refreshTokenHash := "old", idpRefreshToken := ""
        expiresAt := sampleNow, status := .revoked, createdAt := .now 0 } := by
    rintro ctx ⟨⟩
    exact ⟨by decide, rfl⟩
  obtain ⟨rfl, _, after⟩ := replay_contained (by decide : rotatedTables.keys.Nodup)
    (by decide) finds (by decide) leaves served
  refine ⟨_, leaves, ?_⟩
  exact (after _ .start _ (List.mem_cons_of_mem _ List.mem_cons_self) rfl).1

end LandVault
