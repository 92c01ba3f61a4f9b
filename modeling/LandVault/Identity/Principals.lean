import LandVault.Identity.Administration

/-!
# What a principal may do now

The roles of a principal as a function of the tables and the time: the roles that its
user has, and those that the delegations to it grant at this moment. Both context
hydrators compute this function, and the delegations that they count are those that
`list_delegations` and `get_delegation` report as effective. Nothing is remembered
between two requests, so what changes a row, or the time that passes, changes the next
hydration.
-/

set_option autoImplicit false

namespace LandVault

open Kernel Kernel.Audit Identity Library.Programs Library.ReadCommitted Python

namespace Tables

/-! ## Roles as a function of the tables -/

/-- The user of a subject, if it can authenticate and its tenant is active. -/
def principal (t : Tables) (subject : String) : Option UserRecord :=
  ((t.identityUsers.find? (·.identitySubject = subject)).filter UserRecord.canAuthenticate).filter
    fun user => (t.tenants.find? (·.id = user.tenantId)).any TenantRecord.isActive

/-- A delegation grants its roles at this moment. -/
def effective (t : Tables) (now : DateTime) (row : DelegationRecord) : Bool :=
  delegationIsEffective row.delegation (t.identityUsers.find? (·.id = row.delegatorUserId))
    (t.tenants.find? (·.id = row.tenantId)) now

/-- A delegation grants its roles to the user at this moment. -/
def grants (t : Tables) (now : DateTime) (user : UserRecord) (row : DelegationRecord) : Bool :=
  row.tenantId = user.tenantId && row.delegateUserId = user.id && t.effective now row

/-- The roles that are delegated to the user. -/
def delegatedRoles (t : Tables) (now : DateTime) (user : UserRecord) : List String :=
  ((t.delegations.filter (t.grants now user)).flatMap (·.delegatedRoles)).dedup

/-- The attributes of a subject. -/
def hydrated (platform : IdentityPlatform) (t : Tables) (now : DateTime) (subject : String) :
    Option Attributes :=
  (t.principal subject).map fun user => withDelegated platform user (t.delegatedRoles now user)

theorem status_of_effective {t : Tables} {now : DateTime} {row : DelegationRecord}
    (effective : t.effective now row = true) : row.status = .active := by
  by_contra inactive
  simp [Tables.effective, delegationIsEffective, ineffectiveReason, DelegationRecord.delegation,
    inactive] at effective

/-- The rows that the hydrator asks for lose no delegation that grants anything. -/
theorem filter_grants {t : Tables} {now : DateTime} {user : UserRecord} :
    ((t.delegations.filter fun row => row.tenantId = user.tenantId &&
      row.delegateUserId = user.id && row.status = .active).filter (t.effective now)) =
      t.delegations.filter (t.grants now user) := by
  rw [List.filter_filter]
  refine List.filter_congr fun row _ => ?_
  cases effective : t.effective now row with
  | false => simp [grants, effective]
  | true => simp [grants, effective, status_of_effective effective]

section Hydrated

variable {platform : IdentityPlatform} {t : Tables} {now : DateTime} {subject : String}
  {user : UserRecord} {tenant : TenantRecord}

theorem hydrated_of_unknown
    (unknown : (t.identityUsers.find? (·.identitySubject = subject)).filter
      UserRecord.canAuthenticate = none) : t.hydrated platform now subject = none := by
  rw [hydrated, principal, unknown]
  rfl

theorem hydrated_of_inactive
    (authenticated : (t.identityUsers.find? (·.identitySubject = subject)).filter
      UserRecord.canAuthenticate = some user)
    (inactive : (t.tenants.find? (·.id = user.tenantId)).filter TenantRecord.isActive = none) :
    t.hydrated platform now subject = none := by
  have missing : (t.tenants.find? (·.id = user.tenantId)).any TenantRecord.isActive = false := by
    cases found : t.tenants.find? (·.id = user.tenantId) with
    | none => rfl
    | some tenant => simpa [found, Option.filter_some] using inactive
  rw [hydrated, principal, authenticated, Option.filter_some, missing]
  rfl

theorem hydrated_of_active
    (authenticated : (t.identityUsers.find? (·.identitySubject = subject)).filter
      UserRecord.canAuthenticate = some user)
    (active : (t.tenants.find? (·.id = user.tenantId)).filter TenantRecord.isActive = some tenant) :
    t.hydrated platform now subject =
      some (withDelegated platform user (t.delegatedRoles now user)) := by
  obtain ⟨found, isActive⟩ := Option.filter_eq_some_iff.mp active
  have known : (t.tenants.find? (·.id = user.tenantId)).any TenantRecord.isActive = true := by
    rw [found]
    exact isActive
  rw [hydrated, principal, authenticated, Option.filter_some, known]
  rfl

end Hydrated
end Tables

/-! ## Repositories -/

theorem Identity.UserRepository.get_str (id : UUID) :
    UserRepository.get id.str = userMapper.get id := by
  simp [UserRepository.get]

/-- The application's clock says one of these times. -/
structure Instant (C : Env → Prop) (I : DateTime → Prop) : Prop where
  now : ∀ {env}, C env → I env.now
  some : ∃ now, I now

theorem Instant.at (now : DateTime) : Instant (fun env => env.now = now) (· = now) :=
  ⟨id, now, rfl⟩

section Rules

variable {allowed : Tables → Prop} {C : Env → Prop} {x : Transaction} {u : Tables}
  {db : Database Unit} {s : DbSession} {platform : IdentityPlatform} {I : DateTime → Prop}

/-- What `scalar_one_or_none` answers where the condition names at most one row. -/
theorem Staged.one (staged : Staged x u db s) (e : Entity) {condition : e.Row → Bool}
    (single : ∀ row ∈ e.mapper.seen u x.scope, ∀ other ∈ e.mapper.seen u x.scope,
      condition row = true → condition other = true → row = other) :
    Keeps allowed C
      (fun found db s => Staged x u db s ∧ found = (e.mapper.seen u x.scope).find? condition)
      (Cut x u) (e.mapper.scalarOneOrNone condition) db s := by
  refine (staged.select e condition).bind ?_
  rintro rows db s ⟨staged, same⟩
  have distinct : (e.mapper.seen u x.scope).Nodup :=
    ((e.keys_nodup staged.keys).of_map).filter _
  have head : rows.head? = (e.mapper.seen u x.scope).find? condition := by
    rw [same, List.head?_filter]
  match rows with
  | [] => exact ⟨staged, head⟩
  | [record] => exact ⟨staged, head⟩
  | record :: other :: rest =>
      have both : ∀ row ∈ record :: other :: rest,
          row ∈ e.mapper.seen u x.scope ∧ condition row = true :=
        fun row member => List.mem_filter.mp (same ▸ member)
      have first := both record (by simp)
      have second := both other (by simp)
      cases single _ first.1 _ second.1 first.2 second.2
      have repeated : (record :: record :: rest).Nodup := same ▸ distinct.filter _
      simp at repeated

/-! ## Hydrators -/

/-- The user of a subject. -/
theorem Staged.getByIdentitySubject (staged : Staged x u db s) (super : x.scope = .superAdmin)
    (subject : String) :
    Keeps allowed C
      (fun found db s => Staged x u db s ∧
        found = u.identityUsers.find? (·.identitySubject = subject))
      (Cut x u) (UserRepository.getByIdentitySubject subject) db s := by
  have rows : Entity.user.mapper.seen u x.scope = u.identityUsers :=
    super ▸ Entity.seen_superAdmin .user (by decide) u
  rw [← rows]
  refine staged.one .user fun row seen other seen' mine theirs => ?_
  rw [rows] at seen seen'
  simp only [decide_eq_true_eq] at mine theirs
  exact List.inj_on_of_nodup_map (Tables.identitySubjects_nodup staged.keys) seen seen'
    (mine.trans theirs.symm)

theorem Staged.getTenant (staged : Staged x u db s) (super : x.scope = .superAdmin) (id : String) :
    Keeps allowed C
      (fun found db s => Staged x u db s ∧ found = u.tenants.find? (·.id = id))
      (Cut x u) (TenantRepository.get id) db s := by
  have rows : Entity.tenant.mapper.seen u x.scope = u.tenants :=
    super ▸ Entity.seen_superAdmin .tenant (by decide) u
  rw [← rows]
  exact staged.get .tenant id

/-- The delegator of a row. -/
theorem Staged.getDelegator (staged : Staged x u db s) (super : x.scope = .superAdmin)
    (row : DelegationRecord) :
    Keeps allowed C
      (fun found db s => Staged x u db s ∧
        found = u.identityUsers.find? (·.id = row.delegatorUserId))
      (Cut x u) (UserRepository.get row.delegation.delegatorUserId) db s := by
  have rows : Entity.user.mapper.seen u x.scope = u.identityUsers :=
    super ▸ Entity.seen_superAdmin .user (by decide) u
  rw [← rows]
  have get : UserRepository.get row.delegation.delegatorUserId = userMapper.get row.delegatorUserId :=
    UserRepository.get_str _
  rw [get]
  exact staged.get .user row.delegatorUserId

theorem Staged.grantEach (staged : Staged x u db s) (super : x.scope = .superAdmin)
    (tenant : TenantRecord) (now : DateTime) {rows : List DelegationRecord}
    (within : ∀ row ∈ rows, u.tenants.find? (·.id = row.tenantId) = some tenant) :
    Keeps allowed C
      (fun granted db s => Staged x u db s ∧
        granted = (rows.filter (u.effective now)).flatMap (·.delegatedRoles))
      (Cut x u) (grantEach tenant now (rows.map DelegationRecord.delegation)) db s := by
  induction rows generalizing db s with
  | nil => exact ⟨staged, rfl⟩
  | cons row rows ih =>
      refine (staged.getDelegator super row).bind ?_
      rintro delegator db s ⟨staged, rfl⟩
      refine (ih staged fun other member => within other (List.mem_cons_of_mem _ member)).bind ?_
      rintro granted db s ⟨staged, rfl⟩
      have same : delegationIsEffective row.delegation
          (u.identityUsers.find? (·.id = row.delegatorUserId)) (some tenant) now =
          u.effective now row := by
        rw [Tables.effective, within row List.mem_cons_self]
      refine .ite (fun grants => ⟨staged, ?_⟩) fun grants => ⟨staged, ?_⟩
      · rw [same] at grants
        simp [grants, DelegationRecord.delegation]
      · rw [same] at grants
        simp [grants]

theorem Staged.resolveDelegatedRoles (staged : Staged x u db s) (super : x.scope = .superAdmin)
    (instant : Instant C I) {user : UserRecord} {tenant : TenantRecord}
    (found : u.tenants.find? (·.id = user.tenantId) = some tenant) :
    Keeps allowed C
      (fun resolved db s => Staged x u db s ∧ ∃ now, I now ∧ resolved = u.delegatedRoles now user)
      (Cut x u) (resolveDelegatedRoles user tenant) db s := by
  have id : tenant.id = user.tenantId := by simpa using List.find?_some found
  have rows : Entity.delegation.mapper.seen u x.scope = u.delegations :=
    super ▸ Entity.seen_superAdmin .delegation (by decide) u
  refine Meets.bind (N := fun active db s => Staged x u db s ∧ active =
    (u.delegations.filter fun row => row.tenantId = user.tenantId &&
      row.delegateUserId = user.id && row.status = .active).map DelegationRecord.delegation)
    ((staged.select .delegation _).bind ?_) ?_
  · rintro records db s ⟨staged, rfl⟩
    exact ⟨staged, by rw [rows, id]⟩
  rintro active db s ⟨staged, rfl⟩
  refine .ite (fun empty => ?_) fun _ => ?_
  · have none : (u.delegations.filter fun row => row.tenantId = user.tenantId &&
        row.delegateUserId = user.id && row.status = .active) = [] := by simpa using empty
    obtain ⟨now, possible⟩ := instant.some
    refine ⟨staged, now, possible, ?_⟩
    rw [Tables.delegatedRoles, ← Tables.filter_grants, none]
    rfl
  · refine staged.choose.bind ?_
    rintro _ db s ⟨staged, env, chosen, rfl⟩
    refine (staged.grantEach super tenant _ ?_).bind ?_
    · intro row member
      have mine : row.tenantId = user.tenantId := by
        have conditions := (List.mem_filter.mp member).2
        simp only [Bool.and_eq_true, decide_eq_true_eq] at conditions
        exact conditions.1.1
      rw [mine, found]
    · rintro granted db s ⟨staged, rfl⟩
      rw [Tables.filter_grants]
      exact ⟨staged, env.now, instant.now chosen, rfl⟩

/-- **The hydrator of the tests** computes the attributes. -/
theorem Staged.buildContextHydrator (staged : Staged x u db s) (super : x.scope = .superAdmin)
    (instant : Instant C I) (subject : String) :
    Keeps allowed C
      (fun attrs db s => Staged x u db s ∧ ∃ now, I now ∧ attrs = u.hydrated platform now subject)
      (Cut x u) (buildContextHydrator platform true true subject) db s := by
  obtain ⟨now, possible⟩ := instant.some
  refine (staged.getByIdentitySubject super subject).bind ?_
  rintro found db s ⟨staged, rfl⟩
  split
  · rename_i unknown
    exact ⟨staged, now, possible, (Tables.hydrated_of_unknown unknown).symm⟩
  rename_i user authenticated
  refine (staged.getTenant super _).bind ?_
  rintro found db s ⟨staged, rfl⟩
  split
  · rename_i inactive
    exact ⟨staged, now, possible, (Tables.hydrated_of_inactive authenticated inactive).symm⟩
  · rename_i tenant active
    refine (staged.resolveDelegatedRoles super instant (Option.filter_eq_some_iff.mp active).1).bind
      ?_
    rintro resolved db s ⟨staged, now, possible, rfl⟩
    exact ⟨staged, now, possible, (Tables.hydrated_of_active authenticated active).symm⟩

/-- **The hydrator of production** computes them too, in a transaction of its own. -/
theorem Idle.buildProductionContextHydrator {t : Tables} (idle : Idle t db s)
    (instant : Instant C I) (subject : String) :
    Keeps allowed C
      (fun attrs db s => Idle t db s ∧ ∃ now, I now ∧ attrs = t.hydrated platform now subject)
      (fun e db _ => e = .disconnected ∧ db.tables.records = t)
      (buildProductionContextHydrator platform subject) db s := by
  obtain ⟨now, possible⟩ := instant.some
  refine (idle.setConfig .superAdmin fun _ _ same => ⟨rfl, same⟩).bind ?_
  rintro _ db s ⟨startedAt, _, staged⟩
  have cut : ∀ e db s, Cut ⟨t, .superAdmin, startedAt⟩ t e db s →
      e = .disconnected ∧ db.tables.records = t :=
    fun e db s cut => ⟨cut.1, cut.2.elim Broken.committed Staged.committed⟩
  -- each way out rolls back and answers
  have leave : ∀ {db s} attrs, Staged ⟨t, .superAdmin, startedAt⟩ t db s →
      (∃ now, I now ∧ attrs = t.hydrated platform now subject) →
      Keeps allowed C
        (fun attrs db s => Idle t db s ∧ ∃ now, I now ∧ attrs = t.hydrated platform now subject)
        (fun e db _ => e = .disconnected ∧ db.tables.records = t)
        (rollback.bind fun _ => pure attrs) db s :=
    fun attrs staged same => ((keeps_rollback staged.committed).mono (fun _ _ _ after => after)
      fun _ _ _ absurd => absurd.elim).bind fun _ _ _ after => ⟨after.1, same⟩
  refine ((staged.getByIdentitySubject rfl subject).mono (fun _ _ _ found => found) cut).bind ?_
  rintro found db s ⟨staged, rfl⟩
  split
  · rename_i unknown
    exact leave none staged ⟨now, possible, (Tables.hydrated_of_unknown unknown).symm⟩
  rename_i user authenticated
  refine ((staged.getTenant rfl _).mono (fun _ _ _ found => found) cut).bind ?_
  rintro found db s ⟨staged, rfl⟩
  split
  · rename_i inactive
    exact leave none staged
      ⟨now, possible, (Tables.hydrated_of_inactive authenticated inactive).symm⟩
  · rename_i tenant active
    refine ((staged.resolveDelegatedRoles rfl instant (Option.filter_eq_some_iff.mp active).1).mono
      (fun _ _ _ found => found) cut).bind ?_
    rintro resolved db s ⟨staged, now, possible, rfl⟩
    exact leave (some _) staged
      ⟨now, possible, (Tables.hydrated_of_active authenticated active).symm⟩

/-! ## What the administrators are told -/

/-- A key finds a row where its policy shows it. -/
theorem Entity.lookup_eq (e : Entity) (unique : u.keys.Nodup) (scope : Scope) (key : e.Id) :
    e.lookup u scope key =
      ((e.mapper.rows u).find? (e.mapper.key · = key)).filter (e.mapper.sees u scope) := by
  cases found : (e.mapper.rows u).find? (e.mapper.key · = key) with
  | none =>
      refine List.find?_eq_none.mpr fun row member => ?_
      exact List.find?_eq_none.mp found row (Entity.mem_rows_of_seen member)
  | some row =>
      have stored := List.mem_of_find?_eq_some found
      have named : e.mapper.key row = key := by simpa using List.find?_some found
      rw [Option.filter_some]
      split
      · rename_i sees
        exact named ▸ Entity.lookup_of_mem unique (Entity.mem_seen.mpr ⟨stored, sees⟩)
      · rename_i hidden
        refine List.find?_eq_none.mpr fun other member => ?_
        obtain ⟨stored', sees⟩ := Entity.mem_seen.mp member
        simp only [decide_eq_true_eq]
        rintro rfl
        cases List.inj_on_of_nodup_map (e.keys_nodup unique) stored' stored named.symm
        exact hidden sees

/-- A caller who sees a delegation judges it as the hydrator does: a delegator who is
hidden from the caller is in another tenant, and then the delegation grants nothing. -/
theorem effective_of_sees (unique : u.keys.Nodup) {scope : Scope} {row : DelegationRecord}
    (sees : scope.sees row.tenantId = true) (now : DateTime) :
    delegationIsEffective row.delegation (Entity.lookup .user u scope row.delegatorUserId)
      (Entity.lookup .tenant u scope row.tenantId) now = u.effective now row := by
  have tenant : Entity.lookup .tenant u scope row.tenantId =
      u.tenants.find? (·.id = row.tenantId) := by
    rw [Entity.lookup_eq .tenant unique]
    cases found : u.tenants.find? (·.id = row.tenantId) with
    | none =>
        have missing : (Entity.tenant.mapper.rows u).find?
            (Entity.tenant.mapper.key · = row.tenantId) = none := found
        rw [missing]
        rfl
    | some tenant =>
        have named : tenant.id = row.tenantId := by simpa using List.find?_some found
        have stored : (Entity.tenant.mapper.rows u).find?
            (Entity.tenant.mapper.key · = row.tenantId) = some tenant := found
        have visible : Entity.tenant.mapper.sees u scope tenant = true := by
          show scope.sees tenant.id = true
          rw [named]
          exact sees
        rw [stored, Option.filter_some, if_pos visible]
  have user : Entity.lookup .user u scope row.delegatorUserId =
      (u.identityUsers.find? (·.id = row.delegatorUserId)).filter
        fun user => scope.sees user.tenantId := Entity.lookup_eq .user unique _ _
  rw [tenant, user, Tables.effective]
  cases u.identityUsers.find? (·.id = row.delegatorUserId) with
  | none => rfl
  | some delegator =>
      rw [Option.filter_some]
      split
      · rfl
      · rename_i hidden
        have foreign : delegator.tenantId ≠ row.delegation.tenantId := by
          rintro same
          rw [same] at hidden
          exact hidden sees
        simp only [delegationIsEffective, ineffectiveReason, foreign, ne_eq, not_false_eq_true,
          if_true]
        split <;> [rfl; split <;> [rfl; split <;> rfl]]

/-- What a summary reports: the delegation, and whether it is effective. -/
def Identity.DelegationSummary.report (summary : DelegationSummary) : Delegation × Option Bool :=
  (summary.delegation, summary.effective)

/-- What is to be reported of a row. -/
def Tables.report (t : Tables) (now : DateTime) (row : DelegationRecord) : Delegation × Option Bool :=
  (row.delegation, some (t.effective now row))

theorem Staged.summarizeEach_reports (staged : Staged x u db s) (now : DateTime)
    {rows : List DelegationRecord} {tenantId : String} (sees : x.scope.sees tenantId = true)
    (within : ∀ row ∈ rows, row.tenantId = tenantId) :
    Keeps allowed C
      (fun summaries db s => Staged x u db s ∧
        summaries.map DelegationSummary.report = rows.map (u.report now))
      (Failed x u)
      (Identity.summarizeEach (Entity.lookup .tenant u x.scope tenantId) now
        (rows.map DelegationRecord.delegation)) db s := by
  induction rows generalizing db s with
  | nil => exact ⟨staged, rfl⟩
  | cons row rows ih =>
      have get : UserRepository.get row.delegation.delegatorUserId =
          userMapper.get row.delegatorUserId := UserRepository.get_str _
      refine Meets.bind (N := fun found db s => Staged x u db s ∧
        found = Entity.lookup .user u x.scope row.delegatorUserId) ?_ ?_
      · rw [get]
        exact staged.lookup .user _
      rintro delegator db s ⟨staged, rfl⟩
      refine (ih staged fun other member => within other (List.mem_cons_of_mem _ member)).bind ?_
      rintro summaries db s ⟨staged, same⟩
      refine ⟨staged, ?_⟩
      have mine := within row List.mem_cons_self
      rw [List.map_cons, List.map_cons, same]
      congr 1
      simp only [DelegationSummary.report, effectiveSummary, Tables.report, ← mine,
        effective_of_sees staged.keys (mine.symm ▸ sees)]

theorem Staged.listDelegations_reports (staged : Staged x u db s) {ctx : ExecutionContext}
    (scope : x.scope = scopeOf ctx) {tenantId : String} (tenant : ctx.tenantId = some tenantId)
    {now : DateTime} (instant : ∀ env, C env → env.now = now) :
    Keeps allowed C
      (fun summaries db s => Staged x u db s ∧ (tenantId ≠ "" →
        (summaries.map DelegationSummary.report).Perm
          ((u.delegations.filter (·.tenantId = tenantId)).map (u.report now))))
      (Failed x u) (Identity.listDelegations ctx) db s := by
  have sees : x.scope.sees tenantId = true := by
    rw [scope, scopeOf, tenant]
    dsimp only
    split
    · rfl
    · exact beq_self_eq_true tenantId
  have rows : (delegationMapper.seen u x.scope).filter (·.tenantId = tenantId) =
      u.delegations.filter (·.tenantId = tenantId) := by
    rw [Mapper.seen, List.filter_filter]
    refine List.filter_congr fun row _ => ?_
    by_cases mine : row.tenantId = tenantId
    · have visible : delegationMapper.sees u x.scope row = true := by
        show x.scope.sees row.tenantId = true
        rw [mine]
        exact sees
      simp [mine, visible]
    · simp [mine]
  refine .ite (fun untenanted => ⟨staged, fun nonempty => ?_⟩) fun _ => ?_
  · simp [tenant, truthy, nonempty] at untenanted
  rw [tenant]
  refine (staged.lookup .tenant tenantId).bind ?_
  rintro _ db s ⟨staged, rfl⟩
  refine (staged.listDelegations tenantId).bind ?_
  rintro _ db s ⟨staged, rfl⟩
  refine staged.choose.bind ?_
  rintro _ db s ⟨staged, env, chosen, rfl⟩
  rw [instant env chosen]
  refine (staged.summarizeEach_reports now sees ?_).mono ?_ fun _ _ _ failed => failed
  · intro row member
    have listed := (List.perm_insertionSort _ _).mem_iff.mp member
    simpa using (List.mem_filter.mp listed).2
  · rintro summaries db s ⟨staged, same⟩
    refine ⟨staged, fun _ => ?_⟩
    rw [same, rows]
    exact (List.perm_insertionSort _ _).map _

theorem Staged.getDelegation_reports (staged : Staged x u db s) {ctx : ExecutionContext}
    (delegationId : String) {now : DateTime} (instant : ∀ env, C env → env.now = now) :
    Keeps allowed C
      (fun summary db s => Staged x u db s ∧ ∃ row ∈ u.delegations,
        UUID.parse delegationId = some row.id ∧ summary.report = u.report now row)
      (Raising x (Unchanged u)) (Identity.getDelegation platform ctx delegationId) db s := by
  refine (staged.delegationInScope delegationId).bind ?_
  rintro _ db s ⟨staged, row, visible, named, rfl, _⟩
  have sees : x.scope.sees row.tenantId = true := (Entity.mem_seen (e := .delegation).mp visible).2
  have get : UserRepository.get row.delegation.delegatorUserId =
      userMapper.get row.delegatorUserId := UserRepository.get_str _
  rw [get]
  refine keeps_then (staged.lookup .user _) ?_
  rintro _ db s ⟨staged, rfl⟩
  refine keeps_then (staged.lookup .tenant _) ?_
  rintro _ db s ⟨staged, rfl⟩
  refine staged.choose.bind ?_
  rintro _ db s ⟨staged, env, chosen, rfl⟩
  have reported : ∀ {db s}, Staged x u db s → Staged x u db s ∧ ∃ row' ∈ u.delegations,
      UUID.parse delegationId = some row'.id ∧
      (effectiveSummary row.delegation (Entity.lookup .user u x.scope row.delegatorUserId)
        (Entity.lookup .tenant u x.scope row.tenantId) env.now).report = u.report now row' := by
    intro db s staged
    refine ⟨staged, row, Entity.mem_rows_of_seen (e := .delegation) visible, named, ?_⟩
    simp only [DelegationSummary.report, effectiveSummary, Tables.report,
      effective_of_sees staged.keys sees, instant env chosen]
  exact .ite (fun _ => keeps_then (staged.auditInvalidated _ _) fun _ _ _ staged =>
    reported staged) fun _ => reported staged

/-! ## In transactions of their own -/

theorem Idle.buildContextHydrator {t : Tables} (idle : Idle t db s) (instant : Instant C I)
    (subject : String) :
    Keeps allowed C (fun attrs _ _ => ∃ now, I now ∧ attrs = t.hydrated platform now subject)
      (fun e _ _ => e = .disconnected)
      (do Kernel.setConfig .superAdmin; Identity.buildContextHydrator platform true true subject) db s := by
  refine (idle.setConfig .superAdmin fun _ _ _ => rfl).bind ?_
  rintro _ db s ⟨startedAt, _, staged⟩
  exact (staged.buildContextHydrator rfl instant subject).mono (fun _ _ _ found => found.2)
    fun _ _ _ cut => cut.1

theorem Idle.listDelegations_reports {t : Tables} (idle : Idle t db s) {ctx : ExecutionContext}
    {tenantId : String} (tenant : ctx.tenantId = some tenantId) (nonempty : tenantId ≠ "")
    {now : DateTime} (instant : ∀ env, C env → env.now = now) :
    Keeps (fun _ => True) C
      (fun summaries _ _ => (summaries.map DelegationSummary.report).Perm
        ((t.delegations.filter (·.tenantId = tenantId)).map (t.report now)))
      (fun _ _ _ => True) (Kernel.getDbSession ctx (Identity.listDelegations ctx)) db s := by
  refine (idle.getDbSession ctx (P := fun _ summaries _ =>
      (summaries.map DelegationSummary.report).Perm
        ((t.delegations.filter (·.tenantId = tenantId)).map (t.report now)))
    (R := fun _ _ _ => True) (fun _ _ _ _ => trivial) (fun _ _ _ _ => trivial) ?_).mono
      (fun _ _ _ ⟨_, _, _, _, _, reported⟩ => reported) fun _ _ _ _ => trivial
  intro x db s _ scope _ staged
  exact (staged.listDelegations_reports scope tenant instant).mono
    (fun _ _ _ after => after.1.ready (after.2 nonempty)) fun _ _ _ failed => .of_failed failed

theorem Idle.getDelegation_reports {t : Tables} (idle : Idle t db s) {ctx : ExecutionContext}
    (delegationId : String) {now : DateTime} (instant : ∀ env, C env → env.now = now) :
    Keeps (fun _ => True) C
      (fun summary _ _ => ∃ row ∈ t.delegations, UUID.parse delegationId = some row.id ∧
        summary.report = t.report now row)
      (fun _ _ _ => True)
      (Kernel.getDbSession ctx (Identity.getDelegation platform ctx delegationId)) db s := by
  refine (idle.getDbSession ctx (P := fun _ summary _ => ∃ row ∈ t.delegations,
      UUID.parse delegationId = some row.id ∧ summary.report = t.report now row)
    (R := fun _ _ _ => True) (fun _ _ _ _ => trivial) (fun _ _ _ _ => trivial) ?_).mono
      (fun _ _ _ ⟨_, _, _, _, _, reported⟩ => reported) fun _ _ _ _ => trivial
  intro x db s _ scope _ staged
  exact (staged.getDelegation_reports delegationId instant).mono
    (fun _ _ _ after => after.1.ready after.2) fun _ _ _ raising => raising.mono fun _ _ _ => trivial

end Rules

/-! ## Hydration is exact -/

/-- A role that some effective delegation to the user, in the tenant of the user, grants. -/
def Tables.Delegates (t : Tables) (now : DateTime) (user : UserRecord) (role : String) : Prop :=
  ∃ row ∈ t.delegations, row.delegateUserId = user.id ∧ row.tenantId = user.tenantId ∧
    (t.report now row).2 = some true ∧ role ∈ row.delegatedRoles

theorem Tables.mem_delegatedRoles {t : Tables} {now : DateTime} {user : UserRecord} {role : String} :
    role ∈ t.delegatedRoles now user ↔ t.Delegates now user role := by
  simp only [delegatedRoles, List.mem_dedup, List.mem_flatMap, List.mem_filter, grants,
    Bool.and_eq_true, decide_eq_true_eq, Delegates, report, Option.some.injEq]
  constructor
  · rintro ⟨row, ⟨stored, ⟨tenant, delegate⟩, effective⟩, member⟩
    exact ⟨row, stored, delegate, tenant, effective, member⟩
  · rintro ⟨row, stored, delegate, tenant, effective, member⟩
    exact ⟨row, ⟨stored, ⟨tenant, delegate⟩, effective⟩, member⟩

/-- A user who may act: it can authenticate, and its tenant is there and active. -/
def Tables.MayAct (t : Tables) (subject : String) (user : UserRecord) : Prop :=
  user ∈ t.identityUsers ∧ user.identitySubject = subject ∧ user.canAuthenticate = true ∧
    ∃ tenant ∈ t.tenants, tenant.id = user.tenantId ∧ tenant.isActive = true

theorem Tables.principal_eq_some {t : Tables} (unique : t.keys.Nodup) {subject : String}
    {user : UserRecord} : t.principal subject = some user ↔ t.MayAct subject user := by
  have users : ∀ {user}, t.identityUsers.find? (·.identitySubject = subject) = some user ↔
      user ∈ t.identityUsers ∧ user.identitySubject = subject :=
    find?_eq_some_iff (identitySubjects_nodup unique)
  have tenants : ∀ {tenant : TenantRecord} {id : String}, t.tenants.find? (·.id = id) = some tenant ↔
      tenant ∈ t.tenants ∧ tenant.id = id :=
    find?_eq_some_iff (Entity.keys_nodup .tenant unique)
  simp only [principal, Option.filter_eq_some_iff, users, Option.any_eq_true, tenants, MayAct]
  constructor
  · rintro ⟨⟨⟨stored, named⟩, authenticates⟩, tenant, ⟨known, id⟩, active⟩
    exact ⟨stored, named, authenticates, tenant, known, id, active⟩
  · rintro ⟨stored, named, authenticates, tenant, known, id, active⟩
    exact ⟨⟨⟨stored, named⟩, authenticates⟩, tenant, ⟨known, id⟩, active⟩

/-- The attributes are exact: none where no user of the subject may act, and otherwise the
stored roles of the user with the delegated ones. -/
structure Exact (t : Tables) (now : DateTime) (subject : String) (attrs : Option Attributes) :
    Prop where
  none_iff : attrs = none ↔ ¬ ∃ user, t.MayAct subject user
  some_of : ∀ {given}, attrs = some given → ∃ user, t.MayAct subject user ∧
    (∀ role, role ∈ given.roles ↔ role ∈ user.roles ∨ t.Delegates now user role) ∧
    (given.delegatedRoles = none ↔ ¬ ∃ role, t.Delegates now user role) ∧
    ∀ delegated, given.delegatedRoles = some delegated →
      delegated.Pairwise (· ≤ ·) ∧ delegated.Nodup ∧
        ∀ role, role ∈ delegated ↔ t.Delegates now user role

theorem Tables.exact_hydrated (platform : IdentityPlatform) {t : Tables} (unique : t.keys.Nodup)
    (now : DateTime) (subject : String) : Exact t now subject (t.hydrated platform now subject) where
  none_iff := by
    rw [hydrated, Option.map_eq_none_iff, Option.eq_none_iff_forall_ne_some]
    simp only [ne_eq, principal_eq_some unique, not_exists]
  some_of := by
    intro given same
    obtain ⟨user, found, rfl⟩ := Option.map_eq_some_iff.mp same
    refine ⟨user, (principal_eq_some unique).mp found, ?_⟩
    unfold withDelegated
    split
    · rename_i empty
      have none : ∀ role, ¬ t.Delegates now user role := by
        intro role delegates
        have member := mem_delegatedRoles.mpr delegates
        simp [List.isEmpty_iff.mp empty] at member
      simp [attrsFor, none]
    · rename_i nonempty
      have some : ∃ role, t.Delegates now user role := by
        obtain ⟨role, member⟩ := List.exists_mem_of_ne_nil _
          (fun empty => nonempty (List.isEmpty_iff.mpr empty))
        exact ⟨role, mem_delegatedRoles.mp member⟩
      refine ⟨?_, by simp [some], ?_⟩
      · intro role
        simp [(platform.arrange_perm _).mem_iff, mem_delegatedRoles]
      · rintro delegated ⟨⟩
        have sorted := List.perm_insertionSort (· ≤ ·) (t.delegatedRoles now user)
        refine ⟨List.pairwise_insertionSort _ _, ?_, ?_⟩
        · exact sorted.nodup_iff.mpr (List.nodup_dedup _)
        · intro role
          rw [sorted.mem_iff, mem_delegatedRoles]

/-- **Hydration is exact and immediate.** Whatever the tables are, run on them at some
instant each hydrator ends with the same exact attributes, unless the connection breaks;
and whoever lists or gets the delegations of a tenant at this instant is told for each of
them whether it is among those that count. -/
theorem hydration_exact (platform : IdentityPlatform) {t : Tables} (unique : t.keys.Nodup)
    (now : DateTime) (subject : String) :
    (∃ attrs, Exact t now subject attrs ∧
      (∀ result, EndsAt now t (buildProductionContextHydrator platform subject) result →
        result = .ok attrs ∨ result = .error .disconnected) ∧
      ∀ result, EndsAt now t
          (do setConfig .superAdmin; buildContextHydrator platform true true subject) result →
        result = .ok attrs ∨ result = .error .disconnected) ∧
    (∀ ctx tenantId summaries, ctx.tenantId = some tenantId → tenantId ≠ "" →
      EndsAt now t (getDbSession ctx (listDelegations ctx)) (.ok summaries) →
      (summaries.map DelegationSummary.report).Perm
        ((t.delegations.filter (·.tenantId = tenantId)).map (t.report now))) ∧
    ∀ ctx delegationId summary,
      EndsAt now t (getDbSession ctx (getDelegation platform ctx delegationId)) (.ok summary) →
      ∃ row ∈ t.delegations, UUID.parse delegationId = some row.id ∧
        summary.report = t.report now row := by
  refine ⟨⟨t.hydrated platform now subject, t.exact_hydrated platform unique now subject, ?_, ?_⟩,
    ?_, ?_⟩
  · intro result ends
    obtain ⟨db, s, answered⟩ := ends.answered unique fun db s idle =>
      idle.buildProductionContextHydrator (.at now) subject
    cases result with
    | ok attrs =>
        obtain ⟨_, _, rfl, rfl⟩ := answered
        exact .inl rfl
    | error e => exact .inr (congrArg _ answered.1)
  · intro result ends
    obtain ⟨db, s, answered⟩ := ends.answered unique fun db s idle =>
      idle.buildContextHydrator (.at now) subject
    cases result with
    | ok attrs =>
        obtain ⟨_, rfl, rfl⟩ := answered
        exact .inl rfl
    | error e => exact .inr (congrArg _ answered)
  · intro ctx tenantId summaries tenant nonempty ends
    obtain ⟨db, s, reported⟩ := ends.answered unique fun db s idle =>
      idle.listDelegations_reports tenant nonempty fun _ same => same
    exact reported
  · intro ctx delegationId summary ends
    obtain ⟨db, s, reported⟩ := ends.answered unique fun db s idle =>
      idle.getDelegation_reports delegationId fun _ same => same
    exact reported

/-! ## A tenant in which a surveyor has delegated his role -/

/-- The digest tells the entries of a delegation apart by their identifiers. -/
def samplePlatform : IdentityPlatform where
  sha256 := digestAt 144
  normalise := id
  lower := lower
  fromisoformat := fromisoformat

/-- A digest that tells the entries of the requests apart by their actions. -/
def actionDigest : String → String := digestAt 27

def sampleId (id : Nat) : UUID := .ofInt id

def sampleNow : DateTime := .newYear

def delegatingTables : Tables where
  tenants := [{ id := "t-1" }]
  identityUsers :=
    [{ id := sampleId 1, tenantId := "t-1", identitySubject := "s-1", email := "1"
       roles := [Role.licensedSurveyor.value] },
     { id := sampleId 2, tenantId := "t-1", identitySubject := "s-2", email := "2" }]
  delegations :=
    [{ id := sampleId 3, tenantId := "t-1", delegatorUserId := sampleId 1
       delegateUserId := sampleId 2, delegatedRoles := [Role.surveyor.value]
       scope := "role_assignment", createdAt := .now 0, updatedAt := .now 0 }]

/-- The delegate is hydrated, with the role of the delegation. -/
theorem hydration_exact_sample :
    ∃ attrs, Exact delegatingTables sampleNow "s-2" attrs ∧
      EndsAt sampleNow delegatingTables (buildProductionContextHydrator samplePlatform "s-2")
        (.ok attrs) := by
  obtain ⟨⟨attrs, exact, production, _⟩, _⟩ :=
    hydration_exact samplePlatform (t := delegatingTables) (by decide) sampleNow "s-2"
  obtain ⟨⟨result, db, s⟩, played, succeeded⟩ : ∃ run, play (postgres Unit) ()
      (List.replicate 7 { env := { uuid := sampleId 0, now := sampleNow } })
      { tables := delegatingTables } freshSession
      (buildProductionContextHydrator samplePlatform "s-2") = some run ∧
      run.1.toOption.isSome = true := by
    have observed : (play (postgres Unit) ()
        (List.replicate 7 { env := { uuid := sampleId 0, now := sampleNow } })
        { tables := delegatingTables } freshSession
        (buildProductionContextHydrator samplePlatform "s-2")).map (·.1.toOption.isSome) =
        some true := by decide +kernel
    exact Option.map_eq_some_iff.mp observed
  have ends : EndsAt sampleNow delegatingTables
      (buildProductionContextHydrator samplePlatform "s-2") result :=
    ⟨0, _, db, s, fun choice member => by rw [List.eq_of_mem_replicate member], played⟩
  rcases production result ends with rfl | rfl
  · exact ⟨attrs, exact, ends⟩
  · simp [Except.toOption] at succeeded

end LandVault
