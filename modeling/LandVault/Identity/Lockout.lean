import LandVault.Identity.Grants

/-!
# Tokens of a locked-out tenant

Registration, login and a redeemed invitation give tokens only to a user whose tenant is
active, for they end in the same login. A refresh does not look at the tenant: it
rotates the session of every user who can authenticate. So a tenant that is suspended or
archived gets no tokens as long as none of its sessions is refreshed.
-/

set_option autoImplicit false

namespace LandVault

open Kernel Kernel.Audit Identity Library.Programs Library.ReadCommitted Python Relation

/-- The request presents the refresh token of an active session whose user can
authenticate, while that user has no active tenant. -/
def RefreshesLocked (platform : IdentityPlatform) (request : IdentityRequest) (t : Tables) : Prop :=
  ∃ session ∈ t.identitySessions, ∃ user ∈ t.identityUsers,
    (request.presents platform).session = some session.refreshTokenHash ∧
    session.status = .active ∧ session.userId = user.id ∧ user.canAuthenticate = true ∧
    ∀ tenant ∈ t.tenants, tenant.id = user.tenantId → tenant.isActive = false

/-- The request reactivates the tenant. -/
def Reopens (tenantId : String) (request : IdentityRequest) : Prop :=
  ∃ token, request = .admin token (.reactivateTenant tenantId)

/-- The tenant is there, and is suspended or archived. -/
def LockedOut (tenantId : String) (t : Tables) : Prop :=
  ∃ tenant ∈ t.tenants, tenant.id = tenantId ∧ tenant.isActive = false

/-! ## Sessions and their users -/

/-- Every user of the tables is still there, in the same tenant. -/
def UsersKept (t u : Tables) : Prop :=
  ∀ user ∈ t.identityUsers, ∃ user' ∈ u.identityUsers, user'.id = user.id ∧ user'.tenantId = user.tenantId

theorem UsersKept.trans {t u v : Tables} (first : UsersKept t u) (second : UsersKept u v) :
    UsersKept t v := by
  intro user stored
  obtain ⟨user', stored', id, tenantId⟩ := first user stored
  obtain ⟨user'', stored'', id', tenantId'⟩ := second user' stored'
  exact ⟨user'', stored'', id'.trans id, tenantId'.trans tenantId⟩

theorem UsersKept.apply (t : Tables) (w : Write) : UsersKept t (t.apply w) := by
  intro user stored
  cases w with
  | insertUser row => exact ⟨user, List.mem_append_left _ stored, rfl, rfl⟩
  | updateUser _ row =>
      refine ⟨_, List.mem_map_of_mem stored, ?_⟩
      split <;> exact ⟨rfl, rfl⟩
  | _ => exact ⟨user, stored, rfl, rfl⟩

section Steps

variable {platform : IdentityPlatform} {t u : Tables} {request : IdentityRequest}

theorem Enrolled.usersKept {given : Presented} (enrolled : Enrolled given t u) : UsersKept t u := by
  induction enrolled with
  | refl => exact fun user stored => ⟨user, stored, rfl, rfl⟩
  | tail _ write ih =>
      obtain ⟨w, _, rfl⟩ := write
      exact ih.trans (.apply _ w)

theorem Enrolled.eligible {given : Presented} (enrolled : Enrolled given t u) {userId : UUID}
    (eligible : Eligible t userId) : Eligible u userId := by
  induction enrolled with
  | refl => exact eligible
  | tail _ write ih =>
      obtain ⟨w, enrols, rfl⟩ := write
      exact enrols.eligible ih

theorem Step.usersKept (step : Step platform t request u) : UsersKept t u := by
  have refl : UsersKept t t := fun user stored => ⟨user, stored, rfl, rfl⟩
  cases step with
  | nothing => exact refl
  | admin _ _ _ stages =>
      rcases stages with rfl | ⟨w, _, rfl⟩
      · exact refl
      · exact .apply t w
  | auth _ stages => exact Enrolled.usersKept stages
  | suspend stages =>
      rcases stages with rfl | ⟨_, _, _, _, _, rfl⟩
      · exact refl
      · exact .apply t _

/-- A session of `u` is one of `t`, or its user may have it. -/
def Accounted (t u : Tables) : Prop :=
  ∀ row ∈ u.identitySessions, (∃ old ∈ t.identitySessions, old.id = row.id ∧ old.userId = row.userId) ∨
    Eligible u row.userId

theorem Accounted.of_eq (same : u.identitySessions = t.identitySessions) : Accounted t u :=
  fun row stored => .inl ⟨row, same ▸ stored, rfl, rfl⟩

/-- A refresh that is not of a locked-out tenant rotates the session of an eligible user. -/
theorem Rotates.eligible {userId : UUID} (rotates : Rotates (request.presents platform) t userId)
    (open' : ¬ RefreshesLocked platform request t) : Eligible t userId := by
  obtain ⟨session, stored, presented, active, owner, user, stored', rfl, authenticates⟩ := rotates
  by_contra ineligible
  refine open' ⟨session, stored, user, stored', presented, active, owner, authenticates, ?_⟩
  intro tenant kept named
  by_contra notLocked
  exact ineligible ⟨user, stored', rfl, authenticates, tenant, kept, named, by simpa using notLocked⟩

theorem Enrolled.accounted (open' : ¬ RefreshesLocked platform request t)
    (enrolled : Enrolled (request.presents platform) t u) : Accounted t u := by
  induction enrolled with
  | refl => exact .of_eq rfl
  | @tail u v before write ih =>
      obtain ⟨w, enrols, rfl⟩ := write
      -- what is known of a session before the write is known of it afterwards
      have carried : ∀ row ∈ u.identitySessions, ∀ row' : SessionRecord, row'.id = row.id →
          row'.userId = row.userId →
          (∃ old ∈ t.identitySessions, old.id = row'.id ∧ old.userId = row'.userId) ∨
            Eligible (u.apply w) row'.userId := by
        intro row stored row' id owner
        rw [id, owner]
        exact (ih row stored).imp_right enrols.eligible
      intro row' stored
      cases enrols with
      | @issue row active licensed =>
          rcases List.mem_append.mp stored with old | new
          · exact carried row' old row' rfl rfl
          · cases List.mem_singleton.mp new
            refine .inr (Enrols.eligible (.issue active licensed) ?_)
            exact licensed.elim id fun rotates => Enrolled.eligible before (rotates.eligible open')
      | revoke =>
          obtain ⟨row, stored', rfl⟩ := List.mem_map.mp stored
          refine carried row stored' _ ?_ ?_ <;> split <;> rfl
      | addTenant | nameOwner | register | redeem | accept | withdraw | stamp =>
          exact carried row' stored row' rfl rfl

/-- **The step lemma for sessions.** -/
theorem Step.accounted (step : Step platform t request u)
    (open' : ¬ RefreshesLocked platform request t) : Accounted t u := by
  cases step with
  | nothing => exact .of_eq rfl
  | admin _ _ _ stages =>
      rcases stages with rfl | ⟨w, administers, rfl⟩
      · exact .of_eq rfl
      · cases administers <;> exact .of_eq rfl
  | auth _ stages => exact Enrolled.accounted open' stages
  | suspend stages =>
      rcases stages with rfl | ⟨_, _, _, _, _, rfl⟩
      · exact .of_eq rfl
      · exact .of_eq rfl

/-! ## The tenant along a run -/

theorem LockedOut.updateTenant {tenantId : String} (locked : LockedOut tenantId t)
    {stored new : TenantRecord}
    (stays : ∀ tenant ∈ t.tenants, tenant.id = tenantId → tenant.isActive = false →
      tenant.id = new.id → new.isActive = false) :
    LockedOut tenantId (t.apply (.updateTenant stored new)) := by
  obtain ⟨tenant, kept, named, inactive⟩ := locked
  refine ⟨_, List.mem_map_of_mem kept, ?_⟩
  split
  · rename_i same
    exact ⟨named, stays tenant kept named inactive same⟩
  · exact ⟨named, inactive⟩

theorem Enrolled.lockedOut {given : Presented} {tenantId : String} (enrolled : Enrolled given t u)
    (locked : LockedOut tenantId t) : LockedOut tenantId u := by
  induction enrolled with
  | refl => exact locked
  | tail _ write ih =>
      obtain ⟨w, enrols, rfl⟩ := write
      cases enrols with
      | addTenant =>
          obtain ⟨tenant, kept, holds⟩ := ih
          exact ⟨tenant, List.mem_append_left _ kept, holds⟩
      | nameOwner status =>
          refine ih.updateTenant fun tenant kept _ inactive same => ?_
          rw [TenantRecord.isActive, ← status tenant kept same]
          exact inactive
      | register | redeem | accept | withdraw | stamp | issue | revoke => exact ih

/-- **The step lemma for tenants.** Only a reactivation opens a tenant. -/
theorem Step.lockedOut {tenantId : String} (step : Step platform t request u)
    (shut : ¬ Reopens tenantId request) (locked : LockedOut tenantId t) : LockedOut tenantId u := by
  cases step with
  | nothing => exact locked
  | admin _ _ _ stages =>
      rcases stages with rfl | ⟨w, administers, rfl⟩
      · exact locked
      cases administers with
      | changeTenant _ _ opens =>
          refine locked.updateTenant fun tenant _ named _ same => ?_
          by_contra active
          have call := opens (by simpa [TenantRecord.isActive] using active)
          exact shut ⟨_, by rw [call, ← same, named]⟩
      | _ => exact locked
  | auth _ stages => exact Enrolled.lockedOut stages locked
  | suspend stages =>
      rcases stages with rfl | ⟨_, _, _, _, _, rfl⟩
      · exact locked
      · exact locked

/-- A user who may have a session is no member of a tenant that is locked out. -/
theorem Eligible.elsewhere {tenantId : String} (unique : t.keys.Nodup) {userId : UUID}
    (eligible : Eligible t userId) (locked : LockedOut tenantId t) :
    ∀ user ∈ t.identityUsers, user.id = userId → user.tenantId ≠ tenantId := by
  intro user stored id inside
  obtain ⟨member, stored', id', _, tenant, kept, named, active⟩ := eligible
  obtain ⟨other, kept', named', inactive⟩ := locked
  cases List.inj_on_of_nodup_map (Entity.keys_nodup .user unique) stored stored' (id.trans id'.symm)
  cases List.inj_on_of_nodup_map (Entity.keys_nodup .tenant unique) kept kept'
    (named.trans (inside.trans named'.symm))
  rw [active] at inactive
  cases inactive

end Steps

/-! ## Runs -/

/-- Where a request has led from `t` to `u`, every session that is new and every answer
with tokens is for a user who can authenticate and whose tenant is active. -/
structure Licensed (t : Tables) (request : IdentityRequest) (u : Tables)
    (answer : Option (Except PyExc IdentityAnswer)) : Prop where
  sessions : ∀ row ∈ u.identitySessions, (∀ old ∈ t.identitySessions, old.id ≠ row.id) →
    Eligible u row.userId
  tokens : ∀ token call tokens, request = .auth token call → answer = some (.ok (.tokens tokens)) →
    ∃ row ∈ u.identitySessions, row.id.str = tokens.sessionId ∧ Eligible u row.userId

theorem licensed_of_leaves {platform : IdentityPlatform} {t u : Tables} {request : IdentityRequest}
    {answer : Option (Except PyExc IdentityAnswer)} (unique : t.keys.Nodup)
    (open' : ¬ RefreshesLocked platform request t)
    (leaves : Leaves t (request.handle platform) u answer) : Licensed t request u answer where
  sessions row stored fresh := by
    rcases (step_of_leaves unique leaves).2.accounted open' row stored with
      ⟨old, stored', id, _⟩ | eligible
    · exact absurd id (fresh old stored')
    · exact eligible
  tokens token call tokens asked answered := by
    subst asked
    obtain ⟨_, _, ended⟩ := leaves.of_keeps unique .nothing fun _ _ idle => idle.serves token call
    obtain ⟨db, s, rfl, enrolled, row, stored, named, licensed⟩ := ended _ answered
    refine ⟨row, stored, named, ?_⟩
    exact licensed.elim id fun rotates =>
      Enrolled.eligible enrolled (@Rotates.eligible _ _ (.auth token call) _ rotates open')

/-- Since `t` the tenant has stayed locked out, and none of its members has got a session. -/
structure Shut (tenantId : String) (t u : Tables) : Prop where
  locked : LockedOut tenantId u
  sessions : ∀ row ∈ u.identitySessions, (∃ old ∈ t.identitySessions, old.id = row.id) ∨
    ∃ user ∈ u.identityUsers, user.id = row.userId ∧ user.tenantId ≠ tenantId

/-- **Tokens need an active tenant**, as long as no session of a locked-out tenant is
refreshed: then every request gives sessions and tokens only to users who can
authenticate and whose tenant is active; and a tenant that is suspended or archived stays
so, and none of its members gets a session or tokens, until it is reactivated. -/
theorem tokens_need_active_tenant {platform : IdentityPlatform} {t t' : Tables}
    (unique : t.keys.Nodup)
    (runs : Runs platform (fun request t => ¬ RefreshesLocked platform request t) t t') :
    (∀ request t'' answer, ¬ RefreshesLocked platform request t' →
      Leaves t' (request.handle platform) t'' answer → Licensed t' request t'' answer) ∧
    ∀ tenantId, LockedOut tenantId t' → ∀ t₁,
      Runs platform (fun request t => ¬ RefreshesLocked platform request t ∧
        ¬ Reopens tenantId request) t' t₁ →
      Shut tenantId t' t₁ ∧
      ∀ token call t₂ tokens, ¬ RefreshesLocked platform (.auth token call) t₁ →
        Leaves t₁ (IdentityRequest.handle platform (.auth token call)) t₂ (some (.ok (.tokens tokens))) →
        ∃ row ∈ t₂.identitySessions, row.id.str = tokens.sessionId ∧
          ∀ user ∈ t₂.identityUsers, user.id = row.userId → user.tenantId ≠ tenantId := by
  have unique' := runs.unique unique
  refine ⟨fun request t'' answer => licensed_of_leaves unique', fun tenantId locked t₁ runs₁ => ?_⟩
  have shut : Shut tenantId t' t₁ := by
    induction runs₁ with
    | start => exact ⟨locked, fun row stored => .inl ⟨row, stored, rfl⟩⟩
    | @step t₂ t₃ request answer before admits leaves ih =>
        have unique₂ := before.unique unique'
        obtain ⟨unique₃, step⟩ := step_of_leaves unique₂ leaves
        have locked₃ : LockedOut tenantId t₃ := step.lockedOut admits.2 ih.locked
        refine ⟨locked₃, fun row stored => ?_⟩
        rcases step.accounted admits.1 row stored with ⟨old, stored', id, owner⟩ | eligible
        · refine (ih.sessions old stored').imp ?_ ?_
          · rintro ⟨first, initial, same⟩
            exact ⟨first, initial, same.trans id⟩
          · rintro ⟨user, kept, named, outside⟩
            obtain ⟨user', kept', same, tenantId'⟩ := step.usersKept user kept
            exact ⟨user', kept', same.trans (named.trans owner), tenantId'.trans_ne outside⟩
        · obtain ⟨user, kept, named, _⟩ := id eligible
          exact .inr ⟨user, kept, named, eligible.elsewhere unique₃ locked₃ user kept named⟩
  refine ⟨shut, fun token call t₂ tokens open' leaves => ?_⟩
  have unique₁ := runs₁.unique unique'
  obtain ⟨unique₂, step⟩ := step_of_leaves unique₁ leaves
  obtain ⟨row, stored, named, eligible⟩ :=
    (licensed_of_leaves unique₁ open' leaves).tokens token call tokens rfl rfl
  have reopens : ¬ Reopens tenantId (.auth token call) := nofun
  exact ⟨row, stored, named, eligible.elsewhere unique₂ (step.lockedOut reopens shut.locked)⟩

/-! ## A tenant that is suspended -/

def housePlatform : IdentityPlatform := { samplePlatform with sha256 := actionDigest }

/-- A super administrator, and a member of another tenant with a session. -/
def house : Tables where
  tenants := [{ id := "t-1" }, { id := "t-2" }]
  identityUsers :=
    [{ id := sampleId 1, tenantId := "t-1", identitySubject := "s-1", email := "a@b.c"
       roles := [Role.superAdmin.value] },
     { id := sampleId 2, tenantId := "t-2", identitySubject := "s-2", email := "m@b.c" }]
  identitySessions :=
    [{ id := sampleId 3, userId := sampleId 2, refreshTokenHash := "old", idpRefreshToken := ""
       expiresAt := { DateTime.newYear with year := 2027, date := by decide }, createdAt := .now 0 }]

/-- The tenant of the member is suspended. -/
def closure : IdentityRequest := .admin (some { subject := "s-1" }) (.suspendTenant "t-2" "fraud")

/-- The member refreshes the session. -/
def rotation : IdentityRequest := .auth none (.refresh "old" none none)

/-- A login by password. -/
def login (email : String) : IdentityRequest := .auth none (.login email none none)

/-- What a request is answered with and leaves, where the identity provider accepts this
subject. -/
def playedHouse (subject : String) (uuid : UUID) (steps : Nat) (request : IdentityRequest)
    (t : Tables) : Option (Except PyExc IdentityAnswer × Tables) :=
  let env : Env :=
    { uuid, now := sampleNow, token := "new", tokens := .ok ⟨subject, "", "access", 3600, "idp"⟩ }
  (play (postgres Unit) () (List.replicate steps { env }) { tables := t } freshSession
    (request.handle housePlatform)).map fun run => (run.1, run.2.1.tables)

theorem leaves_of_playedHouse {subject : String} {uuid : UUID} {steps : Nat} {request : IdentityRequest}
    {t t' : Tables} {answer : Except PyExc IdentityAnswer}
    (played : playedHouse subject uuid steps request t = some (answer, t')) :
    Leaves t (request.handle housePlatform) t' (some answer) := by
  obtain ⟨⟨result, db, s⟩, ended, same⟩ := Option.map_eq_some_iff.mp played
  cases same
  exact .of_play ended

theorem closure_admitted : ¬ RefreshesLocked housePlatform closure house := by
  rintro ⟨_, _, _, _, presented, _⟩
  cases presented

/-- What a login is answered with: a refusal, or tokens. -/
def refusesLogin : Except PyExc IdentityAnswer → Bool
  | .error e => e = unauthenticated "Invalid email or password"
  | .ok _ => false

def issuesTokens : Except PyExc IdentityAnswer → Bool
  | .ok (.tokens _) => true
  | _ => false

theorem login_admitted (email : String) (t : Tables) :
    ¬ RefreshesLocked housePlatform (login email) t := by
  rintro ⟨_, _, _, _, presented, _⟩
  cases presented

/-- The tenant of the member is suspended, the member's login is refused, and that of the
administrator is answered with tokens. -/
theorem exists_closed : ∃ t' t₁ t₂ answer tokens,
    Leaves house (closure.handle housePlatform) t' (some answer) ∧ LockedOut "t-2" t' ∧
    Leaves t' ((login "m@b.c").handle housePlatform) t₁
      (some (.error (unauthenticated "Invalid email or password"))) ∧
    Leaves t₁ ((login "a@b.c").handle housePlatform) t₂ (some (.ok (.tokens tokens))) := by
  have observed : ((playedHouse "s-2" (sampleId 9) 14 closure house).bind fun closed =>
      (playedHouse "s-2" (sampleId 10) 8 (login "m@b.c") closed.2).bind fun refused =>
        (playedHouse "s-1" (sampleId 11) 15 (login "a@b.c") refused.2).map fun served =>
          decide (∃ tenant ∈ closed.2.tenants, tenant.id = "t-2" ∧ tenant.isActive = false) &&
            refusesLogin refused.1 && issuesTokens served.1) = some true := by
    decide +kernel
  obtain ⟨⟨answer, t'⟩, closed, rest⟩ := Option.bind_eq_some_iff.mp observed
  obtain ⟨⟨denial, t₁⟩, refused, rest⟩ := Option.bind_eq_some_iff.mp rest
  obtain ⟨⟨response, t₂⟩, served, holds⟩ := Option.map_eq_some_iff.mp rest
  simp only [Bool.and_eq_true, decide_eq_true_eq] at holds
  obtain ⟨⟨locked, denied⟩, issued⟩ := holds
  have refusal : denial = .error (unauthenticated "Invalid email or password") := by
    cases denial with
    | ok _ => cases denied
    | error e => exact congrArg _ (of_decide_eq_true denied)
  obtain ⟨tokens, rfl⟩ : ∃ tokens, response = .ok (.tokens tokens) := by
    cases response with
    | error e => cases issued
    | ok answer =>
        cases answer with
        | tokens tokens => exact ⟨tokens, rfl⟩
        | _ => cases issued
  exact ⟨t', t₁, t₂, answer, tokens, leaves_of_playedHouse closed, locked,
    refusal ▸ leaves_of_playedHouse refused, leaves_of_playedHouse served⟩

/-- After the suspension a login gives the member nothing, and the session that the
administrator gets is not the member's. -/
theorem tokens_need_active_tenant_sample : ∃ t' t₁ t₂ tokens,
    Runs housePlatform (fun request t => ¬ RefreshesLocked housePlatform request t) house t' ∧
    Leaves t' ((login "m@b.c").handle housePlatform) t₁
      (some (.error (unauthenticated "Invalid email or password"))) ∧
    Shut "t-2" t' t₁ ∧
    Leaves t₁ ((login "a@b.c").handle housePlatform) t₂ (some (.ok (.tokens tokens))) ∧
    ∃ row ∈ t₂.identitySessions, row.id.str = tokens.sessionId ∧
      ∀ user ∈ t₂.identityUsers, user.id = row.userId → user.tenantId ≠ "t-2" := by
  obtain ⟨t', t₁, t₂, answer, tokens, closes, locked, refuses, serves⟩ := exists_closed
  have runs : Runs housePlatform (fun request t => ¬ RefreshesLocked housePlatform request t) house t' :=
    .step .start closure_admitted closes
  have after : Runs housePlatform (fun request t => ¬ RefreshesLocked housePlatform request t ∧
      ¬ Reopens "t-2" request) t' t₁ := .step .start ⟨login_admitted _ _, nofun⟩ refuses
  obtain ⟨shut, licensed⟩ :=
    (tokens_need_active_tenant (by decide : house.keys.Nodup) runs).2 "t-2" locked t₁ after
  exact ⟨t', t₁, t₂, tokens, runs, refuses, shut, serves,
    licensed none _ t₂ tokens (login_admitted _ _) serves⟩

/-- The refresh after the suspension gives the member a session. -/
theorem rotation_not_licensed :
    house.keys.Nodup ∧ ∃ t₁ t₂ answer, Runs housePlatform (fun _ _ => True) house t₁ ∧
      LockedOut "t-2" t₁ ∧ Leaves t₁ (rotation.handle housePlatform) t₂ (some answer) ∧
      ¬ Licensed t₁ rotation t₂ (some answer) := by
  refine ⟨by decide, ?_⟩
  have observed : ((playedHouse "s-2" (sampleId 9) 14 closure house).bind fun run₁ =>
      (playedHouse "s-2" (sampleId 10) 19 rotation run₁.2).map fun run₂ => decide
        ((∃ tenant ∈ run₁.2.tenants, tenant.id = "t-2" ∧ tenant.isActive = false) ∧
          (∀ tenant ∈ run₂.2.tenants, tenant.id = "t-2" → tenant.isActive = false) ∧
          (∀ old ∈ run₁.2.identitySessions, old.id ≠ sampleId 10) ∧
          (∃ row ∈ run₂.2.identitySessions, row.id = sampleId 10 ∧ row.userId = sampleId 2) ∧
          ∀ user ∈ run₂.2.identityUsers, user.id = sampleId 2 → user.tenantId = "t-2")) =
        some true := by
    decide +kernel
  obtain ⟨⟨answer₁, t₁⟩, closed, rest⟩ := Option.bind_eq_some_iff.mp observed
  obtain ⟨⟨answer₂, t₂⟩, rotated, holds⟩ := Option.map_eq_some_iff.mp rest
  obtain ⟨locked, shut, fresh, ⟨row, stored, id, owner⟩, member⟩ := of_decide_eq_true holds
  refine ⟨t₁, t₂, answer₂, .step .start trivial (leaves_of_playedHouse closed), locked,
    leaves_of_playedHouse rotated, fun licensed => ?_⟩
  obtain ⟨user, stored', id', _, tenant, kept, named, active⟩ :=
    licensed.sessions row stored fun old earlier => id ▸ fresh old earlier
  have inactive := shut tenant kept (named.trans (member user stored' (id'.trans owner)))
  rw [active] at inactive
  cases inactive

end LandVault
