import LandVault.Identity.Acceptance
import LandVault.Identity.InvitationWrites
import LandVault.Uncontended

/-!
# The expiry of a delegation

The text of an expiry is parsed, compared with the clock, and stored as a time in UTC. A
text without a zone cannot be compared with the clock, and a time after the year 9999 in
UTC cannot be stored: either raises something that is no answer. Every other text is
answered or stored, and what is stored is read back as the time that it denotes: the
delegation counts until that time and is expired from then on.
-/

set_option autoImplicit false

namespace LandVault

open Kernel Kernel.Audit Identity Library.Programs Library.ReadCommitted Python

/-- The expiry is none, or passes the check of `parse_expiry` at this time. -/
def Passes (platform : IdentityPlatform) (now : DateTime) : Option Str → Option ZonedTime → Prop
  | none, expiry => expiry = none
  | some text, expiry => ∃ time, platform.fromisoformat text = some (some time) ∧
      time.notAfter now = false ∧ expiry = some time

/-- There is a time at which the expiry passes. -/
def Ahead (platform : IdentityPlatform) (expiresAt : Option Str) : Prop :=
  ∃ now expiry, Passes platform now expiresAt expiry

/-- The text, if there is one, denotes a time with a zone that has a date in UTC, or no
time at all; and JSONB takes it, where it denotes a time that can be ahead. -/
def Storable (platform : IdentityPlatform) (expiresAt : Option Str) : Prop :=
  ∀ text, expiresAt = some text →
    platform.fromisoformat text ≠ some none ∧ platform.fromisoformat text ≠ some (some .late) ∧
      (Ahead platform expiresAt → hasNul (jsonbText text) = false)

/-- An answer, or something that was drawn and is taken. -/
def Orderly (e : PyExc) : Prop := e.isHttp = true ∨ Collision e

/-- The caller is a user, and the tenant it acts in is stored. -/
structure Acting (t : Tables) (ctx : ExecutionContext) : Prop where
  user : ∃ user ∈ t.identityUsers, ctx.principalId = user.id.str
  tenant : ∀ tenantId, ctx.tenantId = some tenantId → tenantId ∈ t.tenants.map (·.id)

/-- What the constraints of the database say of the tables: the unique indexes, and the
foreign keys of the delegations. -/
structure Referential (t : Tables) : Prop where
  unique : t.keys.Nodup
  delegations : ∀ row ∈ t.delegations, delegationMapper.foreign t row = .ok ()

theorem Acting.plain {t : Tables} {ctx : ExecutionContext} (acting : Acting t ctx) :
    hasNul ctx.principalId = false := by
  obtain ⟨user, _, named⟩ := acting.user
  exact named ▸ hasNul_str _

section Rules

variable {platform : IdentityPlatform} {t : Tables} {scope : Scope} {ctx : ExecutionContext}
  {C : Choice Env → Prop} {X : PyExc → Prop} {db : Database Unit} {s : DbSession}

theorem Consults.getUser (consults : Consults t scope db s)
    (works : ∀ choice, C choice → choice.fails = false) (unique : t.keys.Nodup) (userId : String) :
    Settles C (fun found db s => Consults t scope db s ∧ ∀ user ∈ found,
        user ∈ t.identityUsers ∧ UUID.parse userId = some user.id) X
      (UserRepository.get userId) db s := by
  unfold UserRepository.get
  split
  · exact ⟨consults, by simp⟩
  · rename_i key parsed
    refine (consults.get works unique .user key).mono ?_ fun _ _ _ raised => raised
    rintro _ db s ⟨consults, rfl⟩
    refine ⟨consults, fun user found => ?_⟩
    obtain ⟨visible, same⟩ := Entity.mem_of_lookup found
    exact ⟨Entity.mem_rows_of_seen (e := .user) visible, by rw [parsed]; exact congrArg some same.symm⟩

theorem Consults.parseExpiry (consults : Consults t scope db s) {expiresAt : Option Str}
    (zoned : ∀ text, expiresAt = some text → platform.fromisoformat text ≠ some none) :
    Settles C (fun expiry db s => Consults t scope db s ∧ ∃ now, Passes platform now expiresAt expiry)
      Orderly (Identity.parseExpiry platform expiresAt) db s := by
  cases expiresAt with
  | none => exact ⟨consults, .newYear, rfl⟩
  | some text =>
      unfold Identity.parseExpiry
      dsimp only
      split
      · exact consults.calm.throw (.inl rfl)
      · rename_i naive
        exact absurd naive (zoned text rfl)
      · rename_i time aware
        refine (consults.choose _).bind ?_
        rintro now db s ⟨consults, _⟩
        refine .ite (fun _ => consults.calm.throw (.inl rfl)) fun after => ?_
        exact ⟨consults, now, time, aware, by simpa using after, rfl⟩

/-- What passes and is storable is stored. -/
theorem Storable.stores {expiresAt : Option Str} (storable : Storable platform expiresAt)
    {now : DateTime} {expiry : Option ZonedTime} (passes : Passes platform now expiresAt expiry) :
    ∃ stored, storedExpiry expiry = .ok stored := by
  cases expiresAt with
  | none => exact ⟨none, by rw [show expiry = none from passes]; rfl⟩
  | some text =>
      obtain ⟨time, reads, after, rfl⟩ := passes
      cases time with
      | early => cases after
      | within time => exact ⟨some time, rfl⟩
      | late => exact absurd reads (storable text rfl).2.1

/-- The row of a delegation to a user of the tenant. -/
theorem Consults.addDelegation (consults : Consults t (scopeOf ctx) db s)
    (works : ∀ choice, C choice → choice.fails = false) (acting : Acting t ctx) {tenantId : String}
    (tenant : ctx.tenantId = some tenantId) {delegate : UserRecord}
    (stored : delegate ∈ t.identityUsers) {delegation : Delegation}
    (within : delegation.tenantId = tenantId) (by' : delegation.delegatorUserId = ctx.principalId)
    (names : UUID.parse delegation.delegateUserId = some delegate.id) :
    Settles C (fun added db s => Calm db s ∧ added.id = delegation.id)
      (fun e => e = engine.violation (.delegationId delegation.id) ∧
        Key.delegationId delegation.id ∈ t.keys)
      (DelegationRepository.add delegation) db s := by
  obtain ⟨user, member, named⟩ := acting.user
  have made : ∃ row, delegation.toRecord = .ok row ∧ ∀ startedAt,
      (row startedAt).id = delegation.id ∧ (row startedAt).tenantId = tenantId ∧
        (row startedAt).delegatorUserId = user.id ∧ (row startedAt).delegateUserId = delegate.id ∧
        (row startedAt).revokedBy = none := by
    have delegator : toUuid delegation.delegatorUserId = .ok user.id := by
      rw [by', named, toUuid, UUID.parse_str]
    have delegate : toUuid delegation.delegateUserId = .ok delegate.id := by
      rw [toUuid, names]
    exact ⟨_, by rw [Delegation.toRecord, delegator, delegate]; rfl,
      fun _ => ⟨rfl, within, rfl, rfl, rfl⟩⟩
  obtain ⟨row, made, fields⟩ := made
  obtain ⟨id, tenant', delegator, delegate', revoked⟩ := fields s.startedAt
  unfold DelegationRepository.add
  rw [made]
  refine (consults.add works .delegation (row s.startedAt) (fun _ => rfl) rfl ?_ ?_ ?_).bind ?_
  · have sees := sees_own tenant
    rwa [← tenant'] at sees
  · have users {id : UserRecord} (known : id ∈ t.identityUsers) :
        (t.identityUsers.map (·.id)).contains id.id = true :=
      List.contains_iff_mem.mpr (List.mem_map_of_mem known)
    have tenants : (t.tenants.map (·.id)).contains tenantId = true :=
      List.contains_iff_mem.mpr (acting.tenant tenantId tenant)
    simp only [Entity.mapper, delegationMapper, userExists, optionalUserExists, tenantExists, tenant',
      delegator, delegate', revoked, tenants, users member, users stored, if_true, Except.bind]
  · intro k added present
    have entry : k = .delegationId (row s.startedAt).id := by
      simpa [engine, Write.adds, Write.rowEntries, Write.enters, Entity.mapper, delegationMapper]
        using added
    exact ⟨by rw [entry, id], by rw [← id, ← entry]; exact present⟩
  · rintro added db s ⟨calm, rfl⟩
    exact ⟨calm, id⟩

/-- The entry of an operation, with texts that Postgres takes. -/
theorem Calm.audited (calm : Calm db s) (works : ∀ choice, C choice → choice.fails = false)
    (acting : Acting t ctx) {action resourceType : String} {resourceId decision : Option String}
    {members : List (String × Detail)}
    (words : ∀ text ∈ action :: resourceType :: decision.toList, hasNul text = false)
    (resource : ∀ text ∈ resourceId, hasNul text = false)
    (payload : ∀ member ∈ members, ∀ text ∈ member.1 :: member.2.strings, hasNul text = false) :
    Settles C (fun _ => Calm) Orderly (Kernel.audit platform.toPlatform ctx
      { action := action
        resourceType := resourceType
        resourceId := resourceId
        decision := decision
        payload := some (.details members) }) db s :=
  (calm.audit works _ (plain_texts acting.plain words resource payload)).mono
    (fun _ _ _ calm => calm) fun _ _ _ raised => ⟨.inr raised.1, raised.2⟩

theorem plain_str (id : UUID) : ∀ text ∈ some id.str, hasNul text = false := by
  simp [hasNul_str]

/-- What is created with a storable expiry is answered or stored. -/
theorem Consults.createDelegation (consults : Consults t (scopeOf ctx) db s)
    (works : ∀ choice, C choice → choice.fails = false) (unique : t.keys.Nodup)
    (acting : Acting t ctx) {expiresAt : Option Str} (storable : Storable platform expiresAt)
    {delegateUserId : Str}
    (plain : Ahead platform expiresAt → hasNul (jsonbText delegateUserId) = false)
    (delegatedRoles : List String) (delegationScope : String) :
    Settles C (fun _ => Calm) Orderly
      (Identity.createDelegation platform ctx delegateUserId delegatedRoles delegationScope expiresAt)
      db s := by
  have denied {db s} (calm : Calm db s) {payload : List (String × Detail)} {answer : PyExc}
      (http : answer.isHttp = true)
      (plain : ∀ member ∈ payload, ∀ text ∈ member.1 :: member.2.strings, hasNul text = false) :
      Settles C (fun _ _ _ => False) Orderly
        (createDelegation.denied platform ctx payload answer) db s :=
    (calm.audited works acting (by decide) (by simp) plain).bind fun _ _ _ calm =>
      calm.throw (.inl http)
  refine .ite (fun _ => consults.calm.throw (.inl rfl)) fun _ => ?_
  refine .ite (fun _ => consults.calm.throw (.inl rfl)) fun listed => ?_
  refine .ite (fun _ => consults.calm.throw (.inl rfl)) fun known => ?_
  refine (consults.parseExpiry fun text given => (storable text given).1).bind ?_
  rintro expiry db s ⟨consults, now, passes⟩
  have plain := plain ⟨now, expiry, passes⟩
  have roles : ∀ role ∈ delegatedRoles, hasNul role = false := by
    intro role member
    simp only [Bool.or_eq_true, not_or, List.any_eq_true, not_exists, not_and] at listed
    exact hasNul_allRoles role (by simpa using listed.2 role member)
  have words : ∀ text ∈ ["reason", "role_exceeds_delegator_rank", "delegate_not_found_in_tenant",
      "delegated_roles", "delegate_user_id", "scope", "expires_at"], hasNul text = false := by
    decide
  simp only [List.forall_mem_cons] at words
  refine .ite (fun _ => consults.calm.throw (.inl rfl)) fun tenanted => ?_
  refine .ite (fun _ => (denied consults.calm rfl ?_).bind fun _ _ _ never => never.elim) fun _ => ?_
  · simpa [Detail.strings, words, plain] using roles
  refine (consults.getUser works unique _).bind ?_
  rintro found db s ⟨consults, known'⟩
  split
  · refine (denied consults.calm rfl ?_).bind fun _ _ _ never => never.elim
    simp [Detail.strings, words, plain]
  · rename_i delegate member
    obtain ⟨member, names⟩ := known' delegate (Option.filter_eq_some_iff.mp member).1
    refine .ite (fun _ => consults.calm.throw (.inl rfl)) fun _ => ?_
    refine (consults.choose _).bind ?_
    rintro ⟨uuid, now'⟩ db s ⟨consults, _⟩
    obtain ⟨stored, parsed⟩ := storable.stores passes
    rw [parsed]
    refine ((consults.addDelegation works acting (tenant_of_truthy tenanted) member rfl rfl names).mono
      (fun _ _ _ added => added) ?_).bind fun added _ _ calm => ?_
    · exact fun e _ _ raised => ⟨.inr ⟨_, rfl, raised.1.1⟩, raised.2⟩
    · refine (calm.1.audited works acting (by decide) (plain_str _) ?_).bind fun _ _ _ calm => calm
      have expires : ∀ text ∈ expiresAt, hasNul (jsonbText text) = false := fun text given =>
        (storable text given).2.2 ⟨now, expiry, passes⟩
      have inScope : hasNul delegationScope = false := hasNul_validScopes _ (by simpa using known)
      simpa [Detail.strings, words, plain, inScope] using And.intro roles expires

theorem toOptionalUuid_str (id : Option UUID) : toOptionalUuid (id.map UUID.str) = .ok id := by
  cases id with
  | none => rfl
  | some id =>
      have nonempty : id.str ≠ "" := by
        intro empty
        have length := congrArg String.length empty
        simp [UUID.str, Library.Numerals.fixed_length] at length
      rw [Option.map_some, toOptionalUuid, if_neg nonempty, toUuid, UUID.parse_str]
      rfl

/-- A delegation that is extended keeps its foreign keys. -/
theorem Consults.extendRow (consults : Consults t scope db s)
    (works : ∀ choice, C choice → choice.fails = false) (referential : Referential t)
    {row : DelegationRecord} (visible : row ∈ Entity.delegation.mapper.seen t scope)
    (expiry : Option DateTime) (now : DateTime) :
    Settles C (fun _ => Calm) X (DelegationRepository.update (row.delegation.extend expiry now)) db
      s := by
  refine (consults.get works referential.unique .delegation row.id).bind ?_
  rintro _ db s ⟨consults, rfl⟩
  have found : Entity.delegation.lookup t scope row.id = some row :=
    Entity.lookup_of_mem (e := .delegation) referential.unique visible
  rw [found]
  have kept : toOptionalUuid (row.delegation.extend expiry now).revokedBy = .ok row.revokedBy :=
    toOptionalUuid_str row.revokedBy
  have foreign := referential.delegations row (Entity.mem_rows_of_seen (e := .delegation) visible)
  refine Concludes.bind (N := fun revokedBy db s => Consults t scope db s ∧ revokedBy = row.revokedBy)
    (by rw [kept]; exact ⟨consults, rfl⟩) ?_
  rintro _ db s ⟨consults, rfl⟩
  refine Concludes.bind (consults.flush works referential.unique .delegation visible ?_ foreign
    fun _ _ => rfl) ?_
  · simp [Entity.mapper, delegationMapper]
  · exact fun _ _ _ flushed => flushed.1

/-- The delegation of an identifier in the caller's scope. -/
theorem Consults.delegationInScope (consults : Consults t (scopeOf ctx) db s)
    (works : ∀ choice, C choice → choice.fails = false) (unique : t.keys.Nodup)
    (delegationId : String) :
    Settles C (fun delegation db s => Consults t (scopeOf ctx) db s ∧
        ∃ row ∈ Entity.delegation.mapper.seen t (scopeOf ctx), delegation = row.delegation) Orderly
      (Identity.delegationInScope ctx delegationId) db s := by
  refine Concludes.bind (N := fun found db s => Consults t (scopeOf ctx) db s ∧
    ∀ delegation ∈ found, ∃ row ∈ Entity.delegation.mapper.seen t (scopeOf ctx),
      delegation = row.delegation) ?_ ?_
  · unfold DelegationRepository.get
    split
    · exact ⟨consults, by simp⟩
    · refine (consults.get works unique .delegation _).bind ?_
      rintro _ db s ⟨consults, rfl⟩
      refine ⟨consults, fun delegation member => ?_⟩
      obtain ⟨row, found, rfl⟩ := Option.map_eq_some_iff.mp member
      exact ⟨row, (Entity.mem_of_lookup found).1, rfl⟩
  · rintro found db s ⟨consults, known⟩
    cases found with
    | none => exact consults.calm.throw (.inl rfl)
    | some delegation =>
        exact .ite (fun _ => ⟨consults, known delegation rfl⟩) fun _ =>
          consults.calm.throw (.inl rfl)

/-- What is extended to a storable expiry is answered or stored. -/
theorem Consults.extendDelegation (consults : Consults t (scopeOf ctx) db s)
    (works : ∀ choice, C choice → choice.fails = false) (referential : Referential t)
    (acting : Acting t ctx) {newExpiresAt : Option Str} (storable : Storable platform newExpiresAt)
    (delegationId : String) :
    Settles C (fun _ => Calm) Orderly
      (Identity.extendDelegation platform ctx delegationId newExpiresAt) db s := by
  have words : ∀ text ∈ ["reason", "delegator_inactive", "authority_lost", "new_expires_at",
      "extended_by"], hasNul text = false := by
    decide
  simp only [List.forall_mem_cons] at words
  refine (consults.delegationInScope works referential.unique delegationId).bind ?_
  rintro _ db s ⟨consults, row, visible, rfl⟩
  refine .ite (fun _ => consults.calm.throw (.inl rfl)) fun _ => ?_
  refine (consults.parseExpiry fun text given => (storable text given).1).bind ?_
  rintro expiry db s ⟨consults, now, passes⟩
  refine (consults.getUser works referential.unique _).bind ?_
  rintro delegator db s ⟨consults, _⟩
  have invalidated {db s} (calm : Calm db s) {reason : String} (plain : hasNul reason = false) :
      Settles C (fun _ => Calm) Orderly (auditInvalidated platform ctx row.delegation reason) db s := by
    refine (calm.audited works acting (by decide) (plain_str _) ?_).bind fun _ _ _ calm => calm
    simp [Detail.strings, words, plain]
  split
  · exact (invalidated consults.calm words.2.1).bind fun _ _ _ calm => calm.throw (.inl rfl)
  · refine .ite (fun _ => (invalidated consults.calm words.2.2.1).bind fun _ _ _ calm =>
      calm.throw (.inl rfl)) fun _ => ?_
    refine (consults.choose _).bind ?_
    rintro now' db s ⟨consults, _⟩
    obtain ⟨stored, parsed⟩ := storable.stores passes
    rw [parsed]
    refine (consults.extendRow works referential visible stored now').bind fun _ _ _ calm => ?_
    refine (calm.audited works acting (by decide) (plain_str _) ?_).bind fun _ _ _ calm => calm
    have expires : ∀ text ∈ newExpiresAt, hasNul (jsonbText text) = false := fun text given =>
      (storable text given).2.2 ⟨now, expiry, passes⟩
    simpa [Detail.strings, words, acting.plain] using expires

/-! ## Readers -/

theorem Consults.summarizeEach (consults : Consults t scope db s)
    (works : ∀ choice, C choice → choice.fails = false) (unique : t.keys.Nodup) (now : DateTime)
    {rows : List DelegationRecord} {tenantId : String} (sees : scope.sees tenantId = true)
    (within : ∀ row ∈ rows, row.tenantId = tenantId) :
    Settles C (fun summaries db s => Consults t scope db s ∧
        summaries.map DelegationSummary.report = rows.map (t.report now)) X
      (Identity.summarizeEach (Entity.lookup .tenant t scope tenantId) now
        (rows.map DelegationRecord.delegation)) db s := by
  induction rows generalizing db s with
  | nil => exact ⟨consults, rfl⟩
  | cons row rows ih =>
      have own := within row List.mem_cons_self
      have get : UserRepository.get row.delegation.delegatorUserId =
          userMapper.get row.delegatorUserId := UserRepository.get_str _
      refine Concludes.bind (N := fun found db s => Consults t scope db s ∧
        found = Entity.lookup .user t scope row.delegatorUserId) ?_ ?_
      · rw [get]
        exact consults.get works unique .user _
      rintro _ db s ⟨consults, rfl⟩
      refine (ih consults fun row member => within row (List.mem_cons_of_mem _ member)).bind ?_
      rintro summaries db s ⟨consults, same⟩
      have effective := effective_of_sees unique (own ▸ sees : scope.sees row.tenantId = true) now
      rw [own] at effective
      refine ⟨consults, ?_⟩
      rw [List.map_cons, same, List.map_cons]
      simp only [DelegationSummary.report, effectiveSummary, Tables.report, effective]

/-- Whoever lists the delegations of a tenant is told of each whether it counts. -/
theorem Consults.listDelegations (consults : Consults t (scopeOf ctx) db s)
    (works : ∀ choice, C choice → choice.fails = false) (unique : t.keys.Nodup) {now : DateTime}
    (clock : ∀ choice, C choice → choice.env.now = now) :
    Settles C (fun summaries db s => Calm db s ∧
        ((!truthy ctx.tenantId) = true ∧ summaries = [] ∨
          (summaries.map DelegationSummary.report).Perm
            ((t.delegations.filter (some ·.tenantId = ctx.tenantId)).map (t.report now)))) X
      (Identity.listDelegations ctx) db s := by
  refine .ite (fun untenanted => ⟨consults.calm, .inl ⟨untenanted, rfl⟩⟩) fun tenanted => ?_
  have tenant := tenant_of_truthy tenanted
  have sees : (scopeOf ctx).sees (ctx.tenantId.getD "") = true := sees_own tenant
  refine (consults.get works unique .tenant _).bind ?_
  rintro _ db s ⟨consults, rfl⟩
  have listed : Settles C (fun found db s => Consults t (scopeOf ctx) db s ∧
      ∃ rows : List DelegationRecord, found = rows.map DelegationRecord.delegation ∧
        rows.Perm (t.delegations.filter (some ·.tenantId = ctx.tenantId))) X
      (DelegationRepository.listForTenant (ctx.tenantId.getD "")) db s := by
    refine (consults.select works unique .delegation _).bind ?_
    rintro _ db s ⟨consults, rfl⟩
    refine ⟨consults, _, rfl, (List.perm_insertionSort _ _).trans (.of_eq ?_)⟩
    refine (List.filter_filter ..).trans (List.filter_congr fun row _ => ?_)
    rw [tenant]
    by_cases mine : row.tenantId = ctx.tenantId.getD ""
    · have visible : Entity.delegation.mapper.sees t (scopeOf ctx) row = true := by
        show (scopeOf ctx).sees row.tenantId = true
        rw [mine]
        exact sees
      simp [mine, visible]
    · simp [mine]
  refine listed.bind ?_
  rintro _ db s ⟨consults, rows, rfl, perm⟩
  refine (consults.choose _).bind ?_
  rintro _ db s ⟨consults, choice, chosen, rfl⟩
  rw [clock choice chosen]
  refine (consults.summarizeEach works unique now sees fun row member => ?_).mono ?_ fun _ _ _ raised => raised
  · have own := (List.mem_filter.mp (perm.mem_iff.mp member)).2
    rw [tenant] at own
    simpa using own
  · rintro summaries db s ⟨consults, same⟩
    exact ⟨consults.calm, .inr (same ▸ perm.map _)⟩

end Rules

/-! ## Expired from an instant on -/

/-- The expiry has come. -/
def Identity.DelegationOf.ExpiredAt {P : Type} (delegation : DelegationOf P) (now : DateTime) :
    Prop :=
  ∃ expiry, delegation.expiresAt = some expiry ∧ expiry.position ≤ now.position

theorem any_expired_iff {P : Type} {delegation : DelegationOf P} {now : DateTime} :
    delegation.expiresAt.any (·.position ≤ now.position) = true ↔ delegation.ExpiredAt now := by
  simp [DelegationOf.ExpiredAt, Option.any_eq_true]

theorem ineffectiveReason_expired_iff {delegation : Delegation} {delegator : Option UserRecord}
    {tenant : Option TenantRecord} {now : DateTime} :
    ineffectiveReason delegation delegator tenant now = some "expired" ↔
      delegation.status = .active ∧ delegation.ExpiredAt now := by
  rw [← any_expired_iff]
  unfold ineffectiveReason
  by_cases active : delegation.status = .active
  · rw [if_neg (not_not.mpr active)]
    by_cases expired : delegation.expiresAt.any (·.position ≤ now.position) = true
    · simp [active, expired]
    · simp only [expired, Bool.false_eq_true, if_false, and_false, iff_false]
      cases delegator with
      | none => simp
      | some delegator => dsimp only; split_ifs <;> simp
  · simp [active]

/-- The expiry is all that depends on the time. -/
theorem ineffectiveReason_unexpired (delegation : Delegation) {now now' : DateTime}
    (before : ¬ delegation.ExpiredAt now) (before' : ¬ delegation.ExpiredAt now')
    (delegator : Option UserRecord) (tenant : Option TenantRecord) :
    ineffectiveReason delegation delegator tenant now =
      ineffectiveReason delegation delegator tenant now' := by
  rw [← any_expired_iff] at before before'
  simp only [ineffectiveReason, before, before', Bool.false_eq_true, if_false]

/-- How the expiries of the tables are read: by whom a delegation is judged, by the
hydrator, and by whoever lists. -/
structure ReadsExpiry (platform : IdentityPlatform) (t : Tables) : Prop where
  reason : ∀ row ∈ t.delegations, ∀ delegator tenant now,
    ineffectiveReason row.delegation delegator tenant now = some "expired" ↔
      row.status = .active ∧ row.ExpiredAt now
  expired : ∀ row ∈ t.delegations, ∀ now, row.ExpiredAt now → t.effective now row = false
  unexpired : ∀ row ∈ t.delegations, ∀ now now', ¬ row.ExpiredAt now → ¬ row.ExpiredAt now' →
    t.effective now row = t.effective now' row
  hydrated : ∀ now subject result,
    EndsAt now t (buildProductionContextHydrator platform subject) result →
    result = .error .disconnected ∨ ∃ attrs, result = .ok attrs ∧ Exact t now subject attrs
  listed : ∀ now ctx result, EndsWorking now t (getDbSession ctx (listDelegations ctx)) result →
    ∃ summaries, result = .ok summaries ∧ ((!truthy ctx.tenantId) = true ∧ summaries = [] ∨
      (summaries.map DelegationSummary.report).Perm
        ((t.delegations.filter (some ·.tenantId = ctx.tenantId)).map (t.report now)))

theorem readsExpiry (platform : IdentityPlatform) {t : Tables} (unique : t.keys.Nodup) :
    ReadsExpiry platform t where
  reason := fun _ _ _ _ _ => ineffectiveReason_expired_iff
  expired := by
    intro row _ now expired
    rw [Tables.effective, delegationIsEffective]
    by_cases active : row.status = .active
    · rw [ineffectiveReason_expired_iff.mpr ⟨active, expired⟩]
      rfl
    · have revoked : row.delegation.status ≠ .active := active
      unfold ineffectiveReason
      rw [if_pos revoked]
      rfl
  unexpired := by
    intro row _ now now' before before'
    rw [Tables.effective, Tables.effective, delegationIsEffective, delegationIsEffective,
      ineffectiveReason_unexpired row.delegation before before']
  hydrated := by
    intro now subject result ends
    obtain ⟨db, s, answered⟩ := ends.answered unique fun db s idle =>
      idle.buildProductionContextHydrator (.at now) subject
    cases result with
    | ok attrs =>
        obtain ⟨_, _, rfl, rfl⟩ := answered
        exact .inr ⟨_, rfl, t.exact_hydrated platform unique _ subject⟩
    | error e => exact .inl (congrArg _ answered.1)
  listed := by
    intro now ctx result ends
    have all := (ends_of_concludes fun clock => settles_getDbSession (X := fun _ => False)
      (fun _ => And.left) ctx clock fun _ _ consults =>
        consults.listDelegations (fun _ => And.left) unique fun _ => And.right).1 result ends
    cases result with
    | ok summaries => exact ⟨summaries, rfl, all.1 summaries rfl⟩
    | error e => exact (all.2 e rfl).elim

/-! ## Texts that raise -/

/-- Whoever delegates to this user until this expiry, in any state that the database admits,
is answered. -/
def CreateAnswered (platform : IdentityPlatform) (delegateUserId : Str) (expiresAt : Option Str) :
    Prop :=
  ∀ t ctx now, Referential t → Acting t ctx → ∀ delegatedRoles scope e, EndsWorking now t
    (getDbSession ctx
      (createDelegation platform ctx delegateUserId delegatedRoles scope expiresAt)) (.error e) →
      Orderly e

/-- Whoever extends a delegation to this expiry is answered. -/
def ExtendAnswered (platform : IdentityPlatform) (expiresAt : Option Str) : Prop :=
  ∀ t ctx now, Referential t → Acting t ctx → ∀ delegationId e, EndsWorking now t
    (getDbSession ctx (extendDelegation platform ctx delegationId expiresAt)) (.error e) → Orderly e

/-- No time without a zone. -/
def Zoned (platform : IdentityPlatform) (expiresAt : Option Str) : Prop :=
  ∀ text, expiresAt = some text → platform.fromisoformat text ≠ some none

section Answers

variable {platform : IdentityPlatform} {expiresAt : Option Str}

theorem createAnswered_storable {delegateUserId : Str} (storable : Storable platform expiresAt)
    (plain : Ahead platform expiresAt → hasNul (jsonbText delegateUserId) = false) :
    CreateAnswered platform delegateUserId expiresAt := by
  intro t ctx now referential acting delegatedRoles scope e ends
  exact ((ends_of_concludes fun clock => settles_getDbSession (Q := fun _ => True)
    (fun _ => And.left) ctx clock fun _ _ consults =>
      (consults.createDelegation (fun _ => And.left) referential.unique acting storable
        plain delegatedRoles scope).mono (fun _ _ _ calm => ⟨calm, trivial⟩)
        fun _ _ _ raised => raised).1 _ ends).2 e rfl

theorem extendAnswered_storable (storable : Storable platform expiresAt) :
    ExtendAnswered platform expiresAt := by
  intro t ctx now referential acting delegationId e ends
  exact ((ends_of_concludes fun clock => settles_getDbSession (Q := fun _ => True)
    (fun _ => And.left) ctx clock fun _ _ consults =>
      (consults.extendDelegation (fun _ => And.left) referential acting storable delegationId).mono
        (fun _ _ _ calm => ⟨calm, trivial⟩) fun _ _ _ raised => raised).1 _ ends).2 e rfl

/-- What never passes is storable, unless it has no zone. -/
theorem storable_of_not_ahead (zoned : Zoned platform expiresAt)
    (behind : ¬ Ahead platform expiresAt) : Storable platform expiresAt := by
  refine fun text given => ⟨zoned text given, fun late => behind ?_, fun ahead => absurd ahead behind⟩
  subst given
  exact ⟨.newYear, some .late, .late, late, rfl, rfl⟩

theorem not_orderly_database (message : String) : ¬ Orderly (.database message) := by
  rintro (http | ⟨_, _, same⟩)
  · cases http
  · cases same

theorem not_orderly_typeError (message : String) : ¬ Orderly (.typeError message) := by
  rintro (http | ⟨_, _, same⟩)
  · cases http
  · cases same

end Answers

section Raising

variable {platform : IdentityPlatform} {t : Tables} {ctx : ExecutionContext}
  {C : Choice Env → Prop} {X : PyExc → Prop} {db : Database Unit} {s : DbSession}
  {expiresAt : Option Str} {expiry : Option ZonedTime} {now : DateTime}

theorem storedExpiry_error {e : PyExc} (failed : storedExpiry expiry = .error e) :
    ∃ message, e = .database message := by
  cases expiry with
  | none => cases failed
  | some time =>
      cases time with
      | within time => cases failed
      | early | late =>
          cases failed
          exact ⟨_, rfl⟩

/-- The database does not take the time of the expiry, or not its text. -/
def Unstorable (expiresAt : Option Str) (expiry : Option ZonedTime) : Prop :=
  (∃ message, storedExpiry expiry = .error (.database message)) ∨
    ∃ text, expiresAt = some text ∧ hasNul (jsonbText text) = true

theorem Consults.parseExpiry_passes (consults : Consults t (scopeOf ctx) db s)
    (clock : ∀ choice, C choice → choice.env.now = now)
    (passes : Passes platform now expiresAt expiry) :
    Settles C (fun parsed db s => Consults t (scopeOf ctx) db s ∧ parsed = expiry) X
      (Identity.parseExpiry platform expiresAt) db s := by
  cases expiresAt with
  | none => exact ⟨consults, passes.symm⟩
  | some text =>
      obtain ⟨time, reads, after, rfl⟩ := passes
      unfold Identity.parseExpiry
      dsimp only
      rw [reads]
      refine (consults.choose _).bind ?_
      rintro _ db s ⟨consults, choice, chosen, rfl⟩
      rw [clock choice chosen]
      exact .ite (fun passed => by rw [after] at passed; cases passed) fun _ => ⟨consults, rfl⟩

/-- A time without a zone cannot be compared. -/
theorem Consults.parseExpiry_naive (consults : Consults t (scopeOf ctx) db s) {text : Str}
    (naive : platform.fromisoformat text = some none) :
    Settles C (fun _ _ _ => False)
      (· = .typeError "can't compare offset-naive and offset-aware datetimes")
      (Identity.parseExpiry platform (some text)) db s := by
  unfold Identity.parseExpiry
  dsimp only
  rw [naive]
  exact consults.calm.throw rfl

theorem Consults.getUser_found (consults : Consults t (scopeOf ctx) db s)
    (works : ∀ choice, C choice → choice.fails = false) (unique : t.keys.Nodup) {id : UUID}
    {user : UserRecord} (found : Entity.user.lookup t (scopeOf ctx) id = some user) :
    Settles C (fun got db s => Consults t (scopeOf ctx) db s ∧ got = some user) X
      (UserRepository.get id.str) db s := by
  rw [UserRepository.get_str]
  exact (consults.get works unique .user id).mono (fun _ _ _ got => ⟨got.1, got.2.trans found⟩)
    fun _ _ _ raised => raised

/-! ### Delegating -/

section Delegating

variable (delegateUserId : Str) (scope : String) (delegatedRoles : List String)
  (other : delegateUserId ≠ Str.ofText ctx.principalId)
  (listed : (delegatedRoles.isEmpty || delegatedRoles.any fun role => !allRoles.contains role) = false)
  (known : validScopes.contains scope = true)

include other listed known

theorem Consults.createDelegation_naive (consults : Consults t (scopeOf ctx) db s) {text : Str}
    (naive : platform.fromisoformat text = some none) :
    Settles C (fun _ _ _ => False)
      (· = .typeError "can't compare offset-naive and offset-aware datetimes")
      (Identity.createDelegation platform ctx delegateUserId delegatedRoles scope (some text)) db s := by
  refine .ite (fun same => absurd same other) fun _ => ?_
  refine .ite (fun unknown => by rw [listed] at unknown; cases unknown) fun _ => ?_
  refine .ite (fun unknown => by rw [known] at unknown; cases unknown) fun _ => ?_
  exact (consults.parseExpiry_naive naive).bind fun _ _ _ never => never.elim

/-- A refusal that names a user with U+0000 is not written down. -/
theorem Consults.createDelegation_nul (consults : Consults t (scopeOf ctx) db s)
    (works : ∀ choice, C choice → choice.fails = false)
    (clock : ∀ choice, C choice → choice.env.now = now)
    (passes : Passes platform now expiresAt expiry) (tenanted : truthy ctx.tenantId = true)
    (outranked : highestRank ctx.roles < highestRank delegatedRoles)
    (nul : hasNul (jsonbText delegateUserId) = true) :
    Settles C (fun _ _ _ => False) (fun e => ∃ message, e = .database message)
      (Identity.createDelegation platform ctx delegateUserId delegatedRoles scope expiresAt) db s := by
  refine .ite (fun same => absurd same other) fun _ => ?_
  refine .ite (fun unknown => by rw [listed] at unknown; cases unknown) fun _ => ?_
  refine .ite (fun unknown => by rw [known] at unknown; cases unknown) fun _ => ?_
  refine (consults.parseExpiry_passes clock passes).bind ?_
  rintro _ db s ⟨consults, rfl⟩
  refine .ite (fun untenanted => by rw [tenanted] at untenanted; cases untenanted) fun _ => ?_
  refine .ite (fun _ => ?_) fun ranked => absurd outranked ranked
  refine Concludes.bind (N := fun _ _ _ => False) ?_ fun _ _ _ never => never.elim
  refine (consults.calm.audit_refused works _ (List.mem_append_right _ ?_) nul).bind
    fun _ _ _ never => never.elim
  exact Payload.mem_texts [("reason", _), ("delegated_roles", _)] [] _ (by simp)

/-- The row of a delegation whose expiry the database refuses, or the entry of it. -/
theorem Consults.createDelegation_refused (consults : Consults t (scopeOf ctx) db s)
    (works : ∀ choice, C choice → choice.fails = false)
    (clock : ∀ choice, C choice → choice.env.now = now)
    (fresh : ∀ choice, C choice → Key.delegationId choice.env.uuid ∉ t.keys) (unique : t.keys.Nodup)
    (acting : Acting t ctx) (passes : Passes platform now expiresAt expiry)
    (refused : Unstorable expiresAt expiry) (tenanted : truthy ctx.tenantId = true)
    (ranked : highestRank delegatedRoles ≤ highestRank ctx.roles) (id : UUID) {delegate : UserRecord}
    (named : delegateUserId = Str.ofText id.str)
    (found : Entity.user.lookup t (scopeOf ctx) id = some delegate)
    (within : some delegate.tenantId = ctx.tenantId) (active : delegate.canAuthenticate = true) :
    Settles C (fun _ _ _ => False) (fun e => ∃ message, e = .database message)
      (Identity.createDelegation platform ctx delegateUserId delegatedRoles scope expiresAt) db s := by
  refine .ite (fun same => absurd same other) fun _ => ?_
  refine .ite (fun unknown => by rw [listed] at unknown; cases unknown) fun _ => ?_
  refine .ite (fun unknown => by rw [known] at unknown; cases unknown) fun _ => ?_
  refine (consults.parseExpiry_passes clock passes).bind ?_
  rintro expiry db s ⟨consults, rfl⟩
  refine .ite (fun untenanted => by rw [tenanted] at untenanted; cases untenanted) fun given => ?_
  refine .ite (fun outranked => absurd ranked (not_le.mpr outranked)) fun _ => ?_
  rw [named, jsonbText_ofText]
  refine (consults.getUser_found works unique found).bind ?_
  rintro _ db s ⟨consults, rfl⟩
  have kept : (some delegate).filter (fun user => some user.tenantId == ctx.tenantId) =
      some delegate := by
    simp [within]
  rw [kept]
  refine .ite (fun inactive => by rw [active] at inactive; cases inactive) fun _ => ?_
  refine (consults.choose _).bind ?_
  rintro _ db s ⟨consults, choice, chosen, rfl⟩
  rcases refused with ⟨message, late⟩ | ⟨text, rfl, nul⟩
  · rw [late]
    exact consults.calm.throw ⟨message, rfl⟩
  · cases stored : storedExpiry expiry with
    | error e =>
        obtain ⟨message, rfl⟩ := storedExpiry_error stored
        exact consults.calm.throw ⟨message, rfl⟩
    | ok time =>
        obtain ⟨member, same⟩ := Entity.mem_of_lookup (e := .user) found
        refine Concludes.bind (N := fun time' db s => Consults t (scopeOf ctx) db s ∧ time' = time)
          ⟨consults, rfl⟩ ?_
        rintro _ db s ⟨consults, rfl⟩
        refine Concludes.bind (N := fun _ => Calm) ?_ fun added db s calm => ?_
        · refine (consults.addDelegation works acting (tenant_of_truthy given)
            (Entity.mem_rows_of_seen (e := .user) member) rfl rfl ?_).mono
              (fun _ _ _ added => added.1) fun e _ _ raised => absurd raised.1.2 (fresh choice chosen)
          exact (UUID.parse_str id).trans (congrArg some same.symm)
        · refine (calm.audit_refused works _ (List.mem_append_right _ ?_) nul).bind
            fun _ _ _ never => never.elim
          exact Payload.mem_texts [("delegate_user_id", _), ("delegated_roles", _), ("scope", _)] []
            _ (by simp)

end Delegating

/-! ### Extending -/

section Extending

variable {delegationId : String} {key : UUID} {row : DelegationRecord}
  (parsed : UUID.parse delegationId = some key)
  (found : Entity.delegation.lookup t (scopeOf ctx) key = some row)
  (inside : inScope ctx row.tenantId = true) (live : row.status = .active)

include parsed found inside live

theorem Consults.delegationInScope_found (consults : Consults t (scopeOf ctx) db s)
    (works : ∀ choice, C choice → choice.fails = false) (unique : t.keys.Nodup) :
    Settles C (fun delegation db s => Consults t (scopeOf ctx) db s ∧ delegation = row.delegation ∧
        ¬ delegation.status ≠ .active) X (Identity.delegationInScope ctx delegationId) db s := by
  refine Concludes.bind (N := fun found db s => Consults t (scopeOf ctx) db s ∧
    found = some row.delegation) ?_ ?_
  · unfold DelegationRepository.get
    rw [parsed]
    refine (consults.get works unique .delegation key).bind ?_
    rintro _ db s ⟨consults, rfl⟩
    rw [found]
    exact ⟨consults, rfl⟩
  · rintro _ db s ⟨consults, rfl⟩
    refine .ite (fun _ => ⟨consults, rfl, not_not.mpr live⟩) fun outside => ?_
    exact absurd inside outside

theorem Consults.extendDelegation_naive (consults : Consults t (scopeOf ctx) db s)
    (works : ∀ choice, C choice → choice.fails = false) (unique : t.keys.Nodup) {text : Str}
    (naive : platform.fromisoformat text = some none) :
    Settles C (fun _ _ _ => False)
      (· = .typeError "can't compare offset-naive and offset-aware datetimes")
      (Identity.extendDelegation platform ctx delegationId (some text)) db s := by
  refine (consults.delegationInScope_found parsed found inside live works unique).bind ?_
  rintro _ db s ⟨consults, rfl, live⟩
  refine .ite (fun revoked => absurd revoked live) fun _ => ?_
  exact (consults.parseExpiry_naive naive).bind fun _ _ _ never => never.elim

theorem Consults.extendDelegation_refused (consults : Consults t (scopeOf ctx) db s)
    (works : ∀ choice, C choice → choice.fails = false)
    (clock : ∀ choice, C choice → choice.env.now = now) (referential : Referential t)
    (passes : Passes platform now expiresAt expiry) (refused : Unstorable expiresAt expiry)
    {delegator : UserRecord}
    (found' : Entity.user.lookup t (scopeOf ctx) row.delegatorUserId = some delegator)
    (active : delegator.canAuthenticate = true)
    (ranked : highestRank row.delegatedRoles ≤ highestRank delegator.roles) :
    Settles C (fun _ _ _ => False) (fun e => ∃ message, e = .database message)
      (Identity.extendDelegation platform ctx delegationId expiresAt) db s := by
  have visible := (Entity.mem_of_lookup found).1
  refine (consults.delegationInScope_found parsed found inside live works referential.unique).bind ?_
  rintro _ db s ⟨consults, rfl, live⟩
  refine .ite (fun revoked => absurd revoked live) fun _ => ?_
  refine (consults.parseExpiry_passes clock passes).bind ?_
  rintro expiry db s ⟨consults, rfl⟩
  refine (consults.getUser_found works referential.unique found').bind ?_
  rintro _ db s ⟨consults, rfl⟩
  rw [Option.filter_some, if_pos active]
  refine .ite (fun outranked => absurd ranked (not_le.mpr outranked)) fun _ => ?_
  refine (consults.choose _).bind ?_
  rintro now' db s ⟨consults, _⟩
  rcases refused with ⟨message, late⟩ | ⟨text, rfl, nul⟩
  · rw [late]
    exact consults.calm.throw ⟨message, rfl⟩
  · cases stored : storedExpiry expiry with
    | error e =>
        obtain ⟨message, rfl⟩ := storedExpiry_error stored
        exact consults.calm.throw ⟨message, rfl⟩
    | ok time =>
        refine Concludes.bind (N := fun time' db s => Consults t (scopeOf ctx) db s ∧ time' = time)
          ⟨consults, rfl⟩ ?_
        rintro _ db s ⟨consults, rfl⟩
        refine (consults.extendRow works referential visible _ now').bind fun _ db s calm => ?_
        refine (calm.audit_refused works _ (List.mem_append_right _ ?_) nul).bind
          fun _ _ _ never => never.elim
        exact Payload.mem_texts [] [("extended_by", _)] _ (by simp)

end Extending

end Raising

/-! ### The surveyor's delegation -/

/-- The surveyor of the sample, who delegates. -/
def delegating : ExecutionContext where
  principalId := (sampleId 1).str
  tenantId := some "t-1"
  roles := [Role.licensedSurveyor.value]

theorem referential_delegatingTables : Referential delegatingTables where
  unique := by decide
  delegations := by
    intro row member
    obtain rfl := List.mem_singleton.mp member
    rfl

theorem acting_delegating : Acting delegatingTables delegating where
  user := ⟨_, List.mem_cons_self, rfl⟩
  tenant := by
    rintro _ ⟨⟩
    exact List.mem_cons_self

/-- What the outside world chooses while the clock says `now`: an identifier that no row
has. -/
def drawing (now : DateTime) : Choice Env := { env := { uuid := sampleId 9, now } }

def Draws (now : DateTime) (choice : Choice Env) : Prop := choice = drawing now

/-- A request of the surveyor that raises whatever is drawn so. -/
theorem exists_raised {α : Type} (now : DateTime) {request : Request α} {X : PyExc → Prop}
    (raises : ∀ db s, Consults delegatingTables (scopeOf delegating) db s →
      Settles (Draws now) (fun _ _ _ => False) X request db s) :
    ∃ e, X e ∧ EndsWorking now delegatingTables (getDbSession delegating request) (.error e) := by
  have concludes := settles_getDbSession (Q := fun _ => False) (X := X)
    (fun choice drawn => by rw [show choice = _ from drawn]; rfl) delegating 0 fun db s consults =>
      (raises db s consults).mono (fun _ _ _ never => never.elim) fun _ _ _ raised => raised
  obtain ⟨choices, result, db, s, admitted, played, ended⟩ := concludes.exists_play
    (show Draws now (drawing now) from rfl)
  cases result with
  | ok answer => exact ended.elim
  | error e =>
      refine ⟨e, ended, 0, choices, db, s, fun choice member => ?_, played⟩
      rw [show choice = _ from admitted choice member]
      exact ⟨rfl, rfl⟩

section Surveyor

variable {platform : IdentityPlatform} {expiresAt : Option Str} {expiry : Option ZonedTime}
  {now : DateTime}

theorem works_drawing : ∀ choice, Draws now choice → choice.fails = false := by
  rintro _ rfl
  rfl

theorem clock_drawing : ∀ choice, Draws now choice → choice.env.now = now := by
  rintro _ rfl
  rfl

theorem fresh_drawing :
    ∀ choice, Draws now choice → Key.delegationId choice.env.uuid ∉ delegatingTables.keys := by
  rintro _ rfl
  show Key.delegationId (sampleId 9) ∉ delegatingTables.keys
  decide

/-- The surveyor delegates to somebody else until a time without a zone. -/
theorem raises_naive {delegateUserId text : Str}
    (other : delegateUserId ≠ Str.ofText delegating.principalId)
    (naive : platform.fromisoformat text = some none) (now : DateTime) :
    EndsWorking now delegatingTables (getDbSession delegating (createDelegation platform delegating
      delegateUserId [Role.surveyor.value] "role_assignment" (some text)))
      (.error (.typeError "can't compare offset-naive and offset-aware datetimes")) := by
  obtain ⟨_, rfl, ends⟩ := exists_raised now fun _ _ consults =>
    consults.createDelegation_naive delegateUserId "role_assignment" [Role.surveyor.value] other
      (by decide) (by decide) naive
  exact ends

theorem not_createAnswered_naive {delegateUserId text : Str}
    (other : delegateUserId ≠ Str.ofText delegating.principalId)
    (naive : platform.fromisoformat text = some none) :
    ¬ CreateAnswered platform delegateUserId (some text) := fun answered =>
  not_orderly_typeError _ (answered _ _ _ referential_delegatingTables acting_delegating
    _ _ _ (raises_naive other naive .newYear))

theorem not_createAnswered_nul {delegateUserId : Str} (passes : Passes platform now expiresAt expiry)
    (nul : hasNul (jsonbText delegateUserId) = true) :
    ¬ CreateAnswered platform delegateUserId expiresAt := by
  intro answered
  have other : delegateUserId ≠ Str.ofText delegating.principalId := by
    rintro rfl
    rw [jsonbText_ofText, acting_delegating.plain] at nul
    cases nul
  obtain ⟨_, ⟨message, rfl⟩, ends⟩ := exists_raised now fun _ _ consults =>
    consults.createDelegation_nul delegateUserId "role_assignment" [Role.superAdmin.value] other
      (by decide) (by decide) works_drawing clock_drawing passes (by decide) (by decide) nul
  exact not_orderly_database _ (answered _ _ _ referential_delegatingTables acting_delegating
    _ _ _ ends)

/-- The user to whom the surveyor delegates. -/
theorem lookup_delegate : Entity.user.lookup delegatingTables (scopeOf delegating) (sampleId 2) =
    some { id := sampleId 2, tenantId := "t-1", identitySubject := "s-2", email := "2" } := rfl

theorem delegate_other : Str.ofText (sampleId 2).str ≠ Str.ofText delegating.principalId := by
  intro same
  have strs := congrArg jsonbText same
  rw [jsonbText_ofText, jsonbText_ofText] at strs
  exact absurd (UUID.str_inj (show (sampleId 2).str = (sampleId 1).str from strs)) (by decide)

theorem not_createAnswered_refused (passes : Passes platform now expiresAt expiry)
    (refused : Unstorable expiresAt expiry) :
    ¬ CreateAnswered platform (Str.ofText (sampleId 2).str) expiresAt := by
  intro answered
  have raises : ∀ db s, Consults delegatingTables (scopeOf delegating) db s → Settles (Draws now)
      (fun _ _ _ => False) (fun e => ∃ message, e = .database message)
      (Identity.createDelegation platform delegating (Str.ofText (sampleId 2).str)
        [Role.surveyor.value] "role_assignment" expiresAt) db s := by
    intro db s consults
    refine consults.createDelegation_refused (Str.ofText (sampleId 2).str) "role_assignment"
      [Role.surveyor.value] ?_ ?_ ?_ works_drawing clock_drawing fresh_drawing
      referential_delegatingTables.unique acting_delegating passes refused ?_ ?_
      (sampleId 2) ?_ lookup_delegate ?_ ?_
    · exact delegate_other
    · decide
    · decide
    · decide
    · decide
    · rfl
    · rfl
    · rfl
  obtain ⟨_, ⟨message, rfl⟩, ends⟩ := exists_raised now raises
  exact not_orderly_database _ (answered _ _ _ referential_delegatingTables acting_delegating
    _ _ _ ends)

theorem not_extendAnswered_naive {text : Str} (naive : platform.fromisoformat text = some none) :
    ¬ ExtendAnswered platform (some text) := by
  intro answered
  obtain ⟨_, rfl, ends⟩ := exists_raised .newYear fun _ _ consults =>
    consults.extendDelegation_naive (UUID.parse_str (sampleId 3)) rfl rfl rfl works_drawing
      referential_delegatingTables.unique naive
  exact not_orderly_typeError _ (answered _ _ _ referential_delegatingTables acting_delegating _ _
    ends)

theorem not_extendAnswered_refused (passes : Passes platform now expiresAt expiry)
    (refused : Unstorable expiresAt expiry) : ¬ ExtendAnswered platform expiresAt := by
  intro answered
  obtain ⟨_, ⟨message, rfl⟩, ends⟩ := exists_raised now fun _ _ consults =>
    consults.extendDelegation_refused (UUID.parse_str (sampleId 3)) rfl rfl rfl works_drawing
      clock_drawing referential_delegatingTables passes refused rfl rfl (by decide)
  exact not_orderly_database _ (answered _ _ _ referential_delegatingTables acting_delegating _ _
    ends)

/-- An expiry that is not storable raises at some time. -/
theorem storable_of_answered {Answered : Prop}
    (naive : ∀ text, expiresAt = some text → platform.fromisoformat text = some none → ¬ Answered)
    (refused : ∀ now expiry, Passes platform now expiresAt expiry → Unstorable expiresAt expiry →
      ¬ Answered) (answered : Answered) : Storable platform expiresAt := by
  rintro text rfl
  refine ⟨fun zoneless => naive text rfl zoneless answered, fun late => ?_, fun ahead => ?_⟩
  · exact refused .newYear (some .late) ⟨.late, late, rfl, rfl⟩ (.inl ⟨_, rfl⟩) answered
  · obtain ⟨now, expiry, passes⟩ := ahead
    refine Bool.not_eq_true _ ▸ fun nul => ?_
    exact refused now expiry passes (.inr ⟨text, rfl, nul⟩) answered

end Surveyor

/-- **An expiry is answered or stored exactly where it is storable**: whoever creates a
delegation to a user whose identifier JSONB takes, or extends one, in whatever state. For an
identifier that it does not take, that is where the expiry never passes its check. And in
every state that requests reach, every stored expiry is read as the instant that it denotes. -/
theorem expiry_answered_iff (platform : IdentityPlatform) (expiresAt : Option Str) :
    ((∀ delegateUserId, hasNul (jsonbText delegateUserId) = false →
        CreateAnswered platform delegateUserId expiresAt) ↔ Storable platform expiresAt) ∧
    (∀ delegateUserId, hasNul (jsonbText delegateUserId) = true →
      (CreateAnswered platform delegateUserId expiresAt ↔
        Zoned platform expiresAt ∧ ¬ Ahead platform expiresAt)) ∧
    (ExtendAnswered platform expiresAt ↔ Storable platform expiresAt) ∧
    ∀ {ι : Type} [DecidableEq ι] {tables : Tables} (requests : ι → IdentityRequest)
      {w : World ι DbStatement PyExc IdentityAnswer (Database ι) DbSession}, tables.keys.Nodup →
      World.Reaches (postgres ι) (World.start { tables } freshSession fun index =>
        (requests index).handle platform) w →
      ReadsExpiry platform w.db.tables := by
  refine ⟨⟨fun answered => ?_, fun storable _ plain => ?_⟩, fun delegateUserId nul => ⟨fun answered =>
    ⟨?_, ?_⟩, fun behind => ?_⟩, ⟨fun answered => ?_, extendAnswered_storable⟩, ?_⟩
  · have own := answered (Str.ofText (sampleId 2).str) (by simp [hasNul_str])
    refine storable_of_answered ?_ (fun _ _ => not_createAnswered_refused) own
    rintro text rfl
    exact not_createAnswered_naive delegate_other
  · exact createAnswered_storable storable fun _ => plain
  · rintro text rfl naive
    refine not_createAnswered_naive ?_ naive answered
    rintro rfl
    rw [jsonbText_ofText, acting_delegating.plain] at nul
    cases nul
  · rintro ⟨now, expiry, passes⟩
    exact not_createAnswered_nul passes nul answered
  · exact createAnswered_storable (storable_of_not_ahead behind.1 behind.2) fun ahead =>
      absurd ahead behind.2
  · refine storable_of_answered ?_ (fun _ _ => not_extendAnswered_refused) answered
    rintro text rfl
    exact not_extendAnswered_naive
  · intro ι _ tables requests w unique reaches
    exact readsExpiry platform <| (Wherever.advances (D := writing (KeepsInvitations platform.lower))
      (fun _ all => all) unique (fun index => innocuous_handle (requests index)) reaches).unique unique

/-- The last hour of the year in UTC. -/
def lastHour : DateTime := ⟨2026, 12, 31, 23, 0, 0, 0, by decide, by decide⟩

/-- The same instant, as a text with another zone. -/
def zonedExpiry : Str := "2027-01-01T00:00:00+01:00"

theorem reads_zonedExpiry :
    deputyPlatform.fromisoformat zonedExpiry = some (some (.within lastHour)) := rfl

theorem storable_zonedExpiry : Storable deputyPlatform (some zonedExpiry) := by
  rintro text ⟨⟩
  rw [reads_zonedExpiry]
  exact ⟨by simp, by simp, fun _ => by decide⟩

/-- The officer's request to delegate until then. -/
def delegatingUntil : IdentityRequest :=
  .admin (some { subject := "s-1" })
    (.createDelegation (Str.ofText (sampleId 3).str) [Role.fieldAgent.value] "role_assignment"
      (some zonedExpiry))

/-- A time with a zone is answered, for a delegation that is created and for one that is
extended. It is stored as the instant that it denotes, and the delegation counts until then. -/
theorem expiry_answered_iff_zoned :
    CreateAnswered deputyPlatform (Str.ofText (sampleId 3).str) (some zonedExpiry) ∧
    ExtendAnswered deputyPlatform (some zonedExpiry) ∧
    ∃ w, World.Reaches (postgres Unit) (World.start { tables := deputyTables } freshSession
        fun _ : Unit => delegatingUntil.handle deputyPlatform) w ∧
      ∃ row ∈ w.db.tables.delegations, row.expiresAt = some lastHour ∧
        w.db.tables.effective sampleNow row = true ∧
        w.db.tables.effective lastHour row = false := by
  have answered := expiry_answered_iff deputyPlatform (some zonedExpiry)
  refine ⟨answered.1.mpr storable_zonedExpiry _ (by simp [hasNul_str]),
    answered.2.2.1.mpr storable_zonedExpiry, ?_⟩
  have observed : World.Observed (postgres Unit) .always (World.start { tables := deputyTables }
      freshSession fun _ : Unit => delegatingUntil.handle deputyPlatform)
      (List.replicate 14 (.step () deputyChoice)) []
      (fun w _ => (w.db.tables.delegations.any fun row =>
        row.expiresAt = some lastHour && w.db.tables.effective sampleNow row) = true) := by
    decide +kernel
  obtain ⟨w, _, reaches, _, stored⟩ := observed.runs
  simp only [List.any_eq_true, Bool.and_eq_true, decide_eq_true_eq] at stored
  obtain ⟨row, member, expiry, effective⟩ := stored
  have reads := answered.2.2.2 (fun _ => delegatingUntil) (by decide) reaches
  exact ⟨w, reaches, row, member, expiry, effective,
    reads.expired row member _ ⟨_, expiry, le_rfl⟩⟩

/-- The surveyor delegates until a time without a zone, and a `TypeError` is raised. -/
theorem naive_expiry_raises :
    EndsWorking sampleNow delegatingTables (getDbSession delegating (createDelegation samplePlatform
      delegating (Str.ofText (sampleId 2).str) [Role.surveyor.value] "role_assignment"
      (some "2027-01-01T00:00:00")))
      (.error (.typeError "can't compare offset-naive and offset-aware datetimes")) ∧
    ¬ CreateAnswered samplePlatform (Str.ofText (sampleId 2).str) (some "2027-01-01T00:00:00") := by
  have naive : samplePlatform.fromisoformat "2027-01-01T00:00:00" = some none := rfl
  exact ⟨raises_naive delegate_other naive sampleNow, not_createAnswered_naive delegate_other naive⟩

end LandVault
