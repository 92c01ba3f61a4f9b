import LandVault.Concurrency
import LandVault.Identity.Lockout

/-!
# Archived tenants under concurrency

The aggregate of a tenant refuses to leave the status ARCHIVED, but it decides on a copy
that was read before, and the UPDATE writes the status whatever the row has by then. So
an archived tenant stays archived in every run in which no UPDATE finds an archived tenant
that its transaction has read before, with another status; a reactivation that has read
before the archival is committed undoes it.
-/

set_option autoImplicit false

namespace LandVault

open Kernel Kernel.Audit Identity Library.Programs Library.ReadCommitted Python

/-- The three requests that change the status of a tenant. -/
inductive TenantRequest where
  | suspend (tenantId reason : String)
  | reactivate (tenantId : String)
  | archive (tenantId : String)

def TenantRequest.serve (platform : IdentityPlatform) (ctx : ExecutionContext) :
    TenantRequest → Request TenantSummary
  | .suspend tenantId reason => suspendTenant platform ctx tenantId reason
  | .reactivate tenantId => reactivateTenant platform ctx tenantId
  | .archive tenantId => archiveTenant platform ctx tenantId

/-- What the checks of the aggregate ask of the status. -/
def Identity.TenantRecord.isArchived (tenant : TenantRecord) : Bool := tenant.status == .archived

/-! ## What the requests commit -/

/-- The write does not take a tenant out of its archive. -/
def KeepsArchived (w : Write) : Prop :=
  ∀ stored row, w = .updateTenant stored row → stored.status = .archived →
    row.status = .archived

/-- The change refuses an archived tenant, or archives it. -/
def Terminal (change : TenantRecord → DateTime → Except PyExc TenantRecord) : Prop :=
  ∀ tenant now changed, change tenant now = .ok changed →
    changed.id = tenant.id ∧ (tenant.status ≠ .archived ∨ changed.status = .archived)

theorem terminal_suspend (reason : String) :
    Terminal fun tenant now => tenant.suspend reason now := by
  intro tenant now changed made
  simp only [TenantRecord.suspend] at made
  split at made
  · cases made
  · cases made
    exact ⟨rfl, .inl ‹_›⟩

theorem terminal_reactivate : Terminal TenantRecord.reactivate := by
  intro tenant now changed made
  simp only [TenantRecord.reactivate] at made
  split at made
  · cases made
  · cases made
    exact ⟨rfl, .inl ‹_›⟩

theorem terminal_archive : Terminal fun tenant now => .ok (tenant.archive now) := by
  intro tenant now changed made
  cases made
  exact ⟨rfl, .inr rfl⟩

/-- The batches of the requests. -/
def Archiving (ws : List Write) : Prop := ∀ w ∈ ws, KeepsArchived w

theorem archiving_nil : Archiving [] := by simp [Archiving]

/-- What a tenant's UPDATE commits, where an archived tenant was read as one. -/
theorem keepsArchived_of_revises {t : Tables} {known : List Read} {read changed : TenantRecord}
    {record stored row : TenantRecord} (noted : Read.tenant read ∈ known)
    (id : changed.id = read.id) (named : record.id = changed.id)
    (guarded : read.status ≠ .archived ∨ changed.status = .archived)
    (renews : Renews .tenant (Fresh .tenant TenantRecord.isArchived) (.tenant record :: known) t
      record (Tables.assignTenant changed record) stored row) :
    KeepsArchived (.updateTenant stored row) := by
  rintro _ _ ⟨⟩ archived
  have noted : Entity.tenant.mapper.noted read ∈ .tenant record :: known :=
    List.mem_cons_of_mem _ noted
  have agrees : read.isArchived = stored.isArchived :=
    renews.agrees noted (id.symm.trans named.symm)
  have written : row.status = merged record.status changed.status stored.status := by
    rw [renews.merged]
    rfl
  rcases guarded with refused | archives
  · simp only [TenantRecord.isArchived, archived, beq_self_eq_true, beq_iff_eq] at agrees
    exact absurd agrees refused
  · rw [written, merged, archives, archived, ite_self]

section Requests

variable {ι : Type} [DecidableEq ι] {index : ι} {db : Database ι} {s : DbSession}

abbrev TenantUpholds {α : Type} (index : ι) (Q : α → Assertion (Database ι) DbSession)
    (request : Request α) : Assertion (Database ι) DbSession :=
  Upholds (Fresh .tenant TenantRecord.isArchived) (committing Archiving archiving_nil) index Q
    (Refusing Archiving) request

theorem Holding.changeTenant (holding : Holding (fun _ => True) [] [] db s)
    (platform : IdentityPlatform) (ctx : ExecutionContext) (tenantId : String)
    {change : TenantRecord → DateTime → Except PyExc TenantRecord} (terminal : Terminal change)
    (action : String) (payload : List (String × Detail)) :
    TenantUpholds index (fun _ _ s => Archiving s.pending)
      (Identity.changeTenant platform ctx tenantId change action payload) db s := by
  have lasting := lasting_true (committing Archiving archiving_nil)
  have tolerant : Tolerant (Refusing (ι := ι) Archiving) := tolerant_refusing
  have empty : ∀ {known : List Read} {db : Database ι} {s : DbSession} (e : PyExc),
      Holding (fun _ => True) known [] db s → Refusing Archiving e db s :=
    fun _ holding _ => holding.pending ▸ archiving_nil
  refine (holding.get lasting tolerant .tenant tenantId).bind ?_
  rintro found db s ⟨holding, named⟩
  cases found with
  | none => exact empty _ holding
  | some tenant =>
      refine (holding.choose lasting _).bind fun now db s holding => ?_
      refine Meets.bind (N := fun changed db s =>
        Holding (fun _ => True) [.tenant tenant] [] db s ∧ change tenant now = .ok changed) ?_ ?_
      · unfold orConflict
        split
        · exact ⟨holding, ‹_›⟩
        · exact empty _ holding
        · exact empty _ holding
      rintro changed db s ⟨holding, made⟩
      obtain ⟨id, guarded⟩ := terminal tenant now changed made
      refine (holding.updateTenant lasting tolerant changed).bind fun updated db s revises => ?_
      obtain ⟨known, ws, archiving, holding⟩ : ∃ known ws, Archiving ws ∧
          Holding (fun _ => True) known ws db s := by
        cases revises with
        | same _ _ holding => exact ⟨_, _, archiving_nil, holding⟩
        | writes named edited renews holding =>
            cases edited
            refine ⟨_, _, ?_, holding⟩
            rintro w member
            cases List.mem_singleton.mp member
            exact keepsArchived_of_revises List.mem_cons_self id named guarded renews
      refine (holding.audit lasting tolerant platform.toPlatform ctx _).bind ?_
      rintro _ db s ⟨holding, _⟩
      have pending : Archiving s.pending := holding.pending ▸ archiving
      exact pending

theorem Holding.tenantRequest (holding : Holding (fun _ => True) [] [] db s)
    (platform : IdentityPlatform) (ctx : ExecutionContext) (request : TenantRequest) :
    TenantUpholds index (fun _ _ s => Archiving s.pending) (request.serve platform ctx) db s := by
  cases request with
  | suspend tenantId reason => exact holding.changeTenant _ _ _ (terminal_suspend reason) _ _
  | reactivate tenantId => exact holding.changeTenant _ _ _ terminal_reactivate _ _
  | archive tenantId => exact holding.changeTenant _ _ _ terminal_archive _ _

end Requests

/-! ## Any number of requests in any order -/

/-- The tenant is there, and is archived. -/
def Archived (tenantId : String) (t : Tables) : Prop :=
  ∃ tenant ∈ t.tenants, tenant.id = tenantId ∧ tenant.status = .archived

theorem Archived.commit {tenantId : String} {t : Tables} {ws : List Write}
    (archived : Archived tenantId t) (makes : (committing Archiving archiving_nil).Makes t ws) :
    Archived tenantId (engine.applyAll t ws) := by
  have keeps : ∀ w ∈ ws, KeepsArchived w := by
    rcases makes.allowed with archiving | ⟨_, rfl, row, rfl⟩
    · exact archiving
    · rintro w member stored row rfl
      cases List.mem_singleton.mp member
  refine makes.induction (fun t w member unique stands archived => ?_) archived
  obtain ⟨tenant, kept, named, status⟩ := archived
  rcases Entity.write_cases .tenant w with same | ⟨new, rfl⟩ | ⟨stored, new, rfl⟩
  · have same : (t.apply w).tenants = t.tenants := same t
    exact ⟨tenant, same ▸ kept, named, status⟩
  · exact ⟨tenant, List.mem_append_left _ kept, named, status⟩
  · refine ⟨_, List.mem_map_of_mem kept, ?_⟩
    split
    · rename_i same
      obtain ⟨found, key⟩ := stands
      have found : stored = tenant :=
        List.inj_on_of_nodup_map (Entity.keys_nodup .tenant unique) found kept
          (key.symm.trans same.symm)
      have status : new.status = .archived := keeps _ member stored new rfl (found ▸ status)
      exact ⟨named, status⟩
    · exact ⟨named, status⟩

instance (tenantId : String) : DecidablePred (Archived tenantId) :=
  fun t => inferInstanceAs
    (Decidable (∃ tenant ∈ t.tenants, tenant.id = tenantId ∧ tenant.status = .archived))

/-- No member of the tenant is hydrated, and no login gives a member tokens. -/
structure ShutOut (platform : IdentityPlatform) (tenantId : String) (t : Tables) : Prop where
  hydrated : ∀ user ∈ t.identityUsers, user.tenantId = tenantId → ∀ now,
    t.hydrated platform now user.identitySubject = none
  login : ∀ email userAgent ip t' tokens,
    Leaves t (IdentityRequest.handle platform (.auth none (.login email userAgent ip))) t'
      (some (.ok (.tokens tokens))) →
    ∃ row ∈ t'.identitySessions, row.id.str = tokens.sessionId ∧
      ∀ user ∈ t'.identityUsers, user.id = row.userId → user.tenantId ≠ tenantId

theorem Archived.lockedOut {tenantId : String} {t : Tables} (archived : Archived tenantId t) :
    LockedOut tenantId t := by
  obtain ⟨tenant, kept, named, status⟩ := archived
  exact ⟨tenant, kept, named, by simp [TenantRecord.isActive, status]⟩

theorem Archived.shutOut (platform : IdentityPlatform) {tenantId : String} {t : Tables}
    (unique : t.keys.Nodup) (archived : Archived tenantId t) : ShutOut platform tenantId t where
  hydrated := by
    intro user stored inside now
    refine (t.exact_hydrated platform unique now user.identitySubject).none_iff.mpr ?_
    rintro ⟨member, known, subject, _, tenant, kept, named, active⟩
    cases List.inj_on_of_nodup_map (Tables.identitySubjects_nodup unique) stored known subject.symm
    obtain ⟨other, kept', named', status⟩ := archived
    cases List.inj_on_of_nodup_map (Entity.keys_nodup .tenant unique) kept kept'
      (named.trans (inside.trans named'.symm))
    simp [TenantRecord.isActive, status] at active
  login := by
    intro email userAgent ip t' tokens leaves
    have opens : ¬ RefreshesLocked platform (.auth none (.login email userAgent ip)) t := by
      rintro ⟨_, _, _, _, presented, _⟩
      cases presented
    obtain ⟨unique', step⟩ := step_of_leaves unique leaves
    have closed : ¬ Reopens tenantId (.auth none (.login email userAgent ip)) := by
      rintro ⟨_, reactivates⟩
      cases reactivates
    have locked : LockedOut tenantId t' := step.lockedOut closed archived.lockedOut
    obtain ⟨row, stored, named, eligible⟩ :=
      (licensed_of_leaves unique opens leaves).tokens _ _ tokens rfl rfl
    exact ⟨row, stored, named, eligible.elsewhere unique' locked⟩

/-- Any number of requests, about to start. -/
def tenantWorld {ι : Type} (platform : IdentityPlatform) (tables : Tables)
    (ctx : ι → ExecutionContext) (requests : ι → TenantRequest) :
    World ι DbStatement PyExc TenantSummary (Database ι) DbSession :=
  World.start { tables } freshSession fun index =>
    getDbSession (ctx index) ((requests index).serve platform (ctx index))

/-- **ARCHIVED is terminal** where each UPDATE finds archived what its transaction has read
as archived, and nothing else: once a committed state has the tenant archived, every later
one has, so no member is hydrated or gets tokens at a login. -/
theorem archived_terminal {ι : Type} [DecidableEq ι] (platform : IdentityPlatform)
    {tables : Tables} (unique : tables.keys.Nodup) (ctx : ι → ExecutionContext) (requests : ι → TenantRequest)
    {w w' : World ι DbStatement PyExc TenantSummary (Database ι) DbSession}
    (runs : World.Runs (postgres ι) (engine.freshly (Fresh .tenant TenantRecord.isArchived))
      (tenantWorld platform tables ctx requests) w)
    (later : World.Runs (postgres ι) (engine.freshly (Fresh .tenant TenantRecord.isArchived)) w w')
    {tenantId : String} (archived : Archived tenantId w.db.tables) :
    Archived tenantId w'.db.tables ∧ ShutOut platform tenantId w'.db.tables := by
  have start : Upheld (Fresh .tenant TenantRecord.isArchived) (committing Archiving archiving_nil)
      (fun _ _ _ _ => True) (tenantWorld platform tables ctx requests) :=
    upheld_start unique (lasting_true _) trivial fun index db _ =>
      getDbSession_upholds (Q := fun _ _ _ => True) (ctx index) (lasting_true _) trivial
        (fun _ _ holding => holding.tenantRequest platform (ctx index) (requests index))
        fun _ _ _ archiving _ => ⟨archiving, fun _ _ _ => trivial⟩
  have upheld : Upheld _ _ (fun _ _ _ _ => True) w := start.runs runs
  have kept : Archived tenantId w'.db.tables :=
    (advances_of_runs upheld later).induction (fun _ _ makes archived => archived.commit makes)
      archived
  exact ⟨kept, kept.shutOut platform (upheld.runs later).store.unique⟩

/-! ## A reactivation that has read too early -/

def suspendedTables : Tables where
  tenants := [{ id := "t-1", status := .suspended }]

def actionPlatform : IdentityPlatform := { samplePlatform with sha256 := actionDigest }

/-- The one request archives the tenant, the other reactivates it. -/
def competingRequests : Bool → TenantRequest
  | true => .archive "t-1"
  | false => .reactivate "t-1"

abbrev competingWorld : World Bool DbStatement PyExc TenantSummary (Database Bool) DbSession :=
  tenantWorld actionPlatform suspendedTables (fun _ => anonymous) competingRequests

/-- The archival, as the only request. -/
theorem archived_terminal_alone : ∃ w w', World.Runs (postgres Bool)
      (engine.freshly (Fresh .tenant TenantRecord.isArchived)) competingWorld w ∧
    World.Runs (postgres Bool) (engine.freshly (Fresh .tenant TenantRecord.isArchived)) w w' ∧
    (w.task true).succeeded = true ∧ Archived "t-1" w'.db.tables ∧
    ShutOut actionPlatform "t-1" w'.db.tables := by
  have observed : World.Observed (postgres Bool)
      (engine.freshly (Fresh .tenant TenantRecord.isArchived)) competingWorld
      (turns sampleNow true [sampleId 0, sampleId 0, sampleId 0, sampleId 0, sampleId 0, sampleId 0,
        sampleId 1, sampleId 2, sampleId 0])
      (turns sampleNow false [sampleId 0, sampleId 0, sampleId 0, sampleId 0])
      (fun w _ => (w.task true).succeeded = true ∧ Archived "t-1" w.db.tables) := by
    decide +kernel
  obtain ⟨w, w', runs, later, ended, archived⟩ := observed.runs
  obtain ⟨kept, shut⟩ :=
    archived_terminal actionPlatform (by decide) _ _ runs later archived
  exact ⟨w, w', runs, later, ended, kept, shut⟩

/-- The reactivation has read the tenant before it is archived. -/
theorem archival_undone : ∃ w w', World.Reaches (postgres Bool) competingWorld w ∧
    World.Reaches (postgres Bool) w w' ∧ Archived "t-1" w.db.tables ∧
    ¬ Archived "t-1" w'.db.tables := by
  have observed : World.Observed (postgres Bool) .always competingWorld
      (turns sampleNow false [sampleId 0, sampleId 0, sampleId 0] ++
        turns sampleNow true [sampleId 0, sampleId 0, sampleId 0, sampleId 0, sampleId 0,
          sampleId 0, sampleId 1, sampleId 2, sampleId 0])
      (turns sampleNow false [sampleId 0, sampleId 0, sampleId 0, sampleId 3, sampleId 4,
        sampleId 0])
      (fun w w' => Archived "t-1" w.db.tables ∧ ¬ Archived "t-1" w'.db.tables) := by
    decide +kernel
  exact observed.runs

end LandVault
