import LandVault.Evidence.AttributionChecks
import LandVault.Evidence.Listing
import LandVault.Library.Undisturbed

/-!
# The two checks of an actor reference

The service looks the principal up and compares its tenant with the tenant of the caller;
the trigger of the table compares it with the tenant of the row, which is that of the
evidence. For a caller of the tenant the two are one rule. A super administrator may act on
another tenant: there the service refuses the principals of the evidence's tenant, and
passes on those of his own, which the trigger rejects.
-/

set_option autoImplicit false

namespace LandVault.Evidence

open Identity Kernel Kernel.Audit Library.HashLinks Library.Lineage Library.Programs
open Library.ReadCommitted Python

/-! ## A session of the caller -/

/-- A session of the caller, whose transaction sees these tables. -/
structure Serves (t : Tables) (ctx : ExecutionContext) (db : Database Unit) (s : DbSession) :
    Prop where
  looks : Looks t (scopeOf ctx) db s
  active : s.active = true

/-- The session of the caller after its scope is set. -/
def callerSession (ctx : ExecutionContext) : DbSession :=
  { memo := { scope := scopeOf ctx }, active := true }

theorem serves_start (t : Tables) (ctx : ExecutionContext) (clock : Nat) :
    Serves t ctx { tables := t, clock } (callerSession ctx) :=
  ⟨⟨rfl, rfl, rfl⟩, rfl⟩

/-- An identifier that no attribution and no audit entry has. -/
def Spare (t : Tables) (uuid : UUID) : Prop :=
  uuid ∉ t.attributions.map (·.id) ∧ uuid ∉ t.auditLog.map (·.id)

/-- The connection works, and identifiers are new. -/
def Undisturbed (t : Tables) (choice : Choice Env) : Prop :=
  choice.fails = false ∧ Spare t choice.env.uuid

/-- What a request ends with, in every run that nothing disturbs. -/
abbrev Ends {α : Type} (C : Choice Env → Prop) (Q : α → Assertion (Database Unit) DbSession)
    (X : PyExc → Prop) (request : Request α) : Assertion (Database Unit) DbSession :=
  Concludes (postgres Unit) C () Q (fun e _ _ => X e) request

section Statements

variable {α β : Type} {t : Tables} {ctx : ExecutionContext} {C : Choice Env → Prop}
  {X : PyExc → Prop} {db : Database Unit} {s : DbSession}

theorem Serves.select (serves : Serves t ctx db s)
    (works : ∀ choice, C choice → choice.fails = false)
    {answer : View Tables Memo Env → Except PyExc β} {b : β}
    (answers : ∀ view : View Tables Memo Env, view.tables = t → view.memo.scope = scopeOf ctx →
      answer view = .ok b) :
    Ends C (fun found db s => Serves t ctx db s ∧ found = b) X (LandVault.select answer) db s := by
  refine concludes_read works serves.looks.whole serves.active fun choice _ =>
    ⟨s.memo, b, ?_, ?_, rfl⟩
  · rw [answers _ serves.looks.tables serves.looks.scope]
    rfl
  · exact ⟨⟨serves.looks.whole, serves.looks.tables, serves.looks.scope⟩, serves.active⟩

theorem Serves.choose (serves : Serves t ctx db s) (pick : Env → α) :
    Ends C (fun a db s => Serves t ctx db s ∧ ∃ choice, C choice ∧ a = pick choice.env) X
      (choose pick) db s :=
  concludes_choose fun choice chosen => ⟨serves, choice, chosen, rfl⟩

/-- The session after a write. -/
theorem Serves.wrote (serves : Serves t ctx db s) (w : Write) :
    Serves (t.apply w) ctx (db.acquire () (engine.guards w))
      { s with pending := s.pending ++ [w] } := by
  refine ⟨⟨serves.looks.whole, ?_, serves.looks.scope⟩, serves.active⟩
  have after : engine.view (db.acquire () (engine.guards w)) { s with pending := s.pending ++ [w] } =
      (engine.view db s).apply w := engine.applyAll_append _ _ _
  rw [after, serves.looks.tables]

/-! ## The principal -/

/-- The actor of the claim is a principal of the tenant. -/
def KnownIn (t : Tables) (tenantId : String) (claim : ActorClaim) : Prop :=
  ∃ user ∈ t.identityUsers, claim.actorPrincipalId.bind UUID.parse = some user.id ∧
    user.tenantId = tenantId

/-- The answer to a reference that the service refuses. -/
def invalidActor : PyExc :=
  badRequest ("actor_principal_id must reference an existing principal in the caller's own " ++
    "tenant")

/-- Who sees a tenant finds the tenant's principals. -/
theorem find_tenant_iff (unique : t.keys.Nodup) {scope : Scope} {tenantId : String}
    (sees : scope.sees tenantId = true) {id : UUID} :
    ((t.identityUsers.filter fun user => scope.sees user.tenantId).find? (·.id = id)).map
        (·.tenantId) = some tenantId ↔
      ∃ user ∈ t.identityUsers, id = user.id ∧ user.tenantId = tenantId := by
  constructor
  · intro found
    obtain ⟨user, found, same⟩ := Option.map_eq_some_iff.mp found
    have named : user.id = id := by simpa using List.find?_some found
    exact ⟨user, List.mem_of_mem_filter (List.mem_of_find?_eq_some found), named.symm, same⟩
  · rintro ⟨user, stored, rfl, rfl⟩
    have distinct : ((t.identityUsers.filter fun user => scope.sees user.tenantId).map
        (·.id)).Nodup := (Entity.keys_nodup .user unique).sublist (List.filter_sublist.map _)
    rw [(find?_eq_some_iff distinct).mpr ⟨List.mem_filter.mpr ⟨stored, sees⟩, rfl⟩, Option.map_some]

/-- The service accepts exactly the principals of the caller's tenant. -/
theorem Serves.verifyActorReference (serves : Serves t ctx db s)
    (works : ∀ choice, C choice → choice.fails = false) (unique : t.keys.Nodup) {own : String}
    (tenant : ctx.tenantId = some own) {claim : ActorClaim}
    (internal : claim.actorReferenceKind = internalPrincipal)
    (given : truthy claim.actorPrincipalId = true) :
    Ends C (fun _ db s => Serves t ctx db s ∧ KnownIn t own claim)
      (fun e => ¬ KnownIn t own claim ∧ e = invalidActor)
      (Evidence.verifyActorReference ctx claim) db s := by
  obtain ⟨principalId, named, nonempty⟩ := truthy_iff.mp given
  have sees : (scopeOf ctx).sees own = true := sees_of_inScope (by simp [inScope, tenant])
  unfold Evidence.verifyActorReference PrincipalTenantPort.getTenantId
  rw [named]
  simp only [internal, ne_eq, not_true_eq_false, if_false, nonempty]
  cases parsed : UUID.parse principalId with
  | none =>
      have unknown : ¬ KnownIn t own claim := by
        rintro ⟨user, _, names, _⟩
        simp [named, parsed] at names
      exact ⟨unknown, rfl⟩
  | some id =>
      have known : KnownIn t own claim ↔
          ∃ user ∈ t.identityUsers, id = user.id ∧ user.tenantId = own := by
        simp [KnownIn, named, parsed]
      rw [known, ← find_tenant_iff unique sees]
      refine (serves.select works (b := ((t.identityUsers.filter fun user =>
        (scopeOf ctx).sees user.tenantId).find? (·.id = id)).map (·.tenantId)) ?_).bind ?_
      · intro view tables scope
        rw [LandVault.visible, tables, scope]
      rintro found db s ⟨serves, same⟩
      rw [← same, tenant]
      by_cases mine : found = some own
      · simp only [mine, Option.isNone_some, bne_self_eq_false, Bool.or_self, Bool.false_eq_true,
          if_false]
        exact ⟨serves, trivial⟩
      · have refused : (found.isNone || found != some own) = true := by simp [mine]
        simp only [refused, if_true]
        exact ⟨mine, rfl⟩

/-! ## The row -/

/-- A caller who may attribute actors to the evidence, with a claim that names a principal
and is valid apart from that. -/
structure Entitled (t : Tables) (ctx : ExecutionContext) (record : EvidenceRecordModel)
    (claim : ActorClaim) : Prop where
  stored : record ∈ t.evidenceRecords
  inside : inScope ctx record.tenantId = true
  parcel : ∃ parcel ∈ t.parcels, parcel.parcelId = record.parcelId ∧
    inScope ctx parcel.tenantId = true ∧ canMutate ctx parcel.createdBy.str = true
  tenant : record.tenantId ∈ t.tenants.map (·.id)
  recorder : ∃ user ∈ t.identityUsers, UUID.parse ctx.principalId = some user.id
  internal : claim.actorReferenceKind = internalPrincipal
  valid : claim.check = .ok ()
  nulls : claim.NullsOmitted

variable {record : EvidenceRecordModel} {claim : ActorClaim}

theorem Entitled.given (entitled : Entitled t ctx record claim) :
    truthy claim.actorPrincipalId = true := by
  have shaped := (ActorClaim.check_ok entitled.valid).2
  unfold ActorClaim.checkReference at shaped
  rw [if_pos entitled.internal] at shaped
  cases given : truthy claim.actorPrincipalId with
  | true => rfl
  | false =>
      rw [given, Bool.not_false, if_pos rfl] at shaped
      cases shaped

theorem Serves.loadEvidenceInScope (serves : Serves t ctx db s)
    (works : ∀ choice, C choice → choice.fails = false) (unique : t.keys.Nodup)
    (entitled : Entitled t ctx record claim) {evidenceId : String}
    (parsed : UUID.parse evidenceId = some record.evidenceId) :
    Ends C (fun found db s => Serves t ctx db s ∧ found = record) X
      (Evidence.loadEvidenceInScope ctx evidenceId) db s := by
  have sees := sees_of_inScope entitled.inside
  have found : (t.evidenceRecords.filter fun record => (scopeOf ctx).sees record.tenantId).find?
      (·.evidenceId = record.evidenceId) = some record :=
    (find?_eq_some_iff ((Entity.keys_nodup .evidence unique).sublist
      (List.filter_sublist.map _))).mpr ⟨List.mem_filter.mpr ⟨entitled.stored, sees⟩, rfl⟩
  unfold Evidence.loadEvidenceInScope EvidenceRepository.get
  rw [parsed]
  refine (serves.select works (b := some record) ?_).bind ?_
  · intro view tables scope
    rw [LandVault.visible, tables, scope, found]
  rintro found db s ⟨serves, rfl⟩
  simp only [entitled.inside, if_true]
  exact ⟨serves, rfl⟩

theorem Serves.authorizeMutation (serves : Serves t ctx db s)
    (works : ∀ choice, C choice → choice.fails = false) (unique : t.keys.Nodup)
    (entitled : Entitled t ctx record claim) :
    Ends C (fun _ => Serves t ctx) X (Evidence.authorizeMutation ctx record) db s := by
  obtain ⟨parcel, stored, named, inside, mutates⟩ := entitled.parcel
  have found : (t.parcels.filter fun parcel => (scopeOf ctx).sees parcel.tenantId).find?
      (·.parcelId = record.parcelId) = some parcel :=
    (find?_eq_some_iff ((Entity.keys_nodup .parcel unique).sublist
      (List.filter_sublist.map _))).mpr
        ⟨List.mem_filter.mpr ⟨stored, sees_of_inScope inside⟩, named⟩
  unfold Evidence.authorizeMutation ParcelExistencePort.getParcelAuthority
  refine (serves.select works (b := some ⟨parcel.tenantId, parcel.createdBy.str⟩) ?_).bind ?_
  · intro view tables scope
    rw [driverUuid_str, Except.map, LandVault.visible, tables, scope, found]
    rfl
  rintro found db s ⟨serves, rfl⟩
  simp only [inside, mutates, Bool.not_true, Bool.false_eq_true, if_false]
  exact serves

/-- The error of the trigger about a reference across tenants. -/
def foreignActor (tenantId : String) : PyExc :=
  .database ("evidence_actor_attributions: actor_principal_id must reference a " ++
    "principal in the same tenant (" ++ tenantId ++ ") as the attribution")

/-- The trigger accepts exactly the principals of the row's tenant. -/
theorem checkSameTenant_eq (unique : t.keys.Nodup) {scope : Scope} {row : AttributionRow} {id : UUID}
    (sees : scope.sees row.tenantId = true) (actor : row.actorPrincipalId = some id)
    (named : claim.actorPrincipalId.bind UUID.parse = some id) :
    (KnownIn t row.tenantId claim → checkSameTenant scope t.identityUsers row = .ok ()) ∧
      (¬ KnownIn t row.tenantId claim →
        checkSameTenant scope t.identityUsers row = .error (foreignActor row.tenantId)) := by
  have known : KnownIn t row.tenantId claim ↔
      ∃ user ∈ t.identityUsers, id = user.id ∧ user.tenantId = row.tenantId := by
    simp [KnownIn, named]
  unfold checkSameTenant
  rw [known, ← find_tenant_iff unique sees, actor]
  exact ⟨fun own => if_pos own, fun other => if_neg other⟩

theorem Entitled.checkEvidenceTenant (entitled : Entitled t ctx record claim)
    (unique : t.keys.Nodup) {row : AttributionRow} (evidence : row.evidenceId = record.evidenceId)
    (tenant : row.tenantId = record.tenantId) :
    Evidence.checkEvidenceTenant (scopeOf ctx) t.evidenceRecords row = .ok () := by
  have found : (t.evidenceRecords.filter fun record => (scopeOf ctx).sees record.tenantId).find?
      (·.evidenceId = record.evidenceId) = some record :=
    (find?_eq_some_iff ((Entity.keys_nodup .evidence unique).sublist
      (List.filter_sublist.map _))).mpr
        ⟨List.mem_filter.mpr ⟨entitled.stored, sees_of_inScope entitled.inside⟩, rfl⟩
  unfold Evidence.checkEvidenceTenant
  simp only [evidence, found, Option.map_some, tenant, if_true]

/-- A row can supersede nothing, or the last row of a lineage that has room. -/
def Extends (t : Tables) (scope : Scope) (tenantId : String) : Option UUID → Prop
  | none => True
  | some superseded => superseded ∈ t.attributions.map (·.id) ∧
      (∀ row ∈ t.attributions, row.supersedesId ≠ some superseded) ∧
      ∀ row : AttributionRow, row.supersedesId = some superseded → row.tenantId = tenantId →
        row.id ∉ t.attributions.map (·.id) → rejectCycle scope t.attributions row = .ok ()

/-- A new row passes every check of the table but the one of its actor. -/
theorem Entitled.checkNewRow (entitled : Entitled t ctx record claim) (unique : t.keys.Nodup)
    {row : AttributionRow} {id : UUID} (evidence : row.evidenceId = record.evidenceId)
    (tenant : row.tenantId = record.tenantId) (actor : row.actorPrincipalId = some id)
    (named : claim.actorPrincipalId.bind UUID.parse = some id)
    (continues : Extends t (scopeOf ctx) record.tenantId row.supersedesId)
    (fresh : row.id ∉ t.attributions.map (·.id)) (passed : checkConstraints row = .ok ()) :
    KnownIn t record.tenantId claim →
      Evidence.checkNewRow (scopeOf ctx) t.identityUsers t.evidenceRecords t.attributions row =
        .ok () := by
  intro known
  have sees : (scopeOf ctx).sees row.tenantId = true := tenant ▸ sees_of_inScope entitled.inside
  have same := (checkSameTenant_eq unique sees actor named).1 (tenant ▸ known)
  have cycle : rejectCycle (scopeOf ctx) t.attributions row = .ok () := by
    cases given : row.supersedesId with
    | none => simp [rejectCycle, given]
    | some superseded =>
        rw [given] at continues
        exact continues.2.2 row given tenant fresh
  rw [Evidence.checkNewRow, entitled.checkEvidenceTenant unique evidence tenant]
  simp only [Except.bind, same, cycle, sees, if_true, passed]

theorem Entitled.checkForeignKeys (entitled : Entitled t ctx record claim) {row : AttributionRow}
    {id : UUID} (evidence : row.evidenceId = record.evidenceId)
    (tenant : row.tenantId = record.tenantId) (actor : row.actorPrincipalId = some id)
    (named : claim.actorPrincipalId.bind UUID.parse = some id)
    (recorder : UUID.parse ctx.principalId = some row.recordedBy)
    (continues : Extends t (scopeOf ctx) record.tenantId row.supersedesId)
    (known : KnownIn t record.tenantId claim) :
    Evidence.checkForeignKeys (t.tenants.map (·.id)) t.identityUsers t.evidenceRecords
      t.attributions row = .ok () := by
  obtain ⟨user, stored, same, _⟩ := known
  have actors : id ∈ t.identityUsers.map (·.id) :=
    List.mem_map.mpr ⟨user, stored, Option.some.inj (same.symm.trans named)⟩
  obtain ⟨user', stored', same'⟩ := entitled.recorder
  have recorders : row.recordedBy ∈ t.identityUsers.map (·.id) :=
    List.mem_map.mpr ⟨user', stored', Option.some.inj (same'.symm.trans recorder)⟩
  have evidences : record.evidenceId ∈ t.evidenceRecords.map (·.evidenceId) :=
    List.mem_map_of_mem entitled.stored
  have superseded : ¬ row.supersedesId.any
      (fun superseded => superseded ∉ t.attributions.map (·.id)) = true := by
    cases given : row.supersedesId with
    | none => simp
    | some superseded =>
        rw [given] at continues
        simpa using continues.1
  unfold Evidence.checkForeignKeys
  rw [if_neg (by simpa [tenant] using entitled.tenant), if_neg (by simpa [evidence] using evidences),
    if_neg (by simpa [actor] using actors), if_neg (by simpa using recorders), if_neg superseded]

/-- The unique indexes of the table have no entry of a new row. -/
theorem absent_of_spare {scope : Scope} {tenantId : String} {row : AttributionRow}
    (fresh : row.id ∉ t.attributions.map (·.id))
    (continues : Extends t scope tenantId row.supersedesId) :
    ∀ k ∈ engine.adds (.insertAttribution row), k ∉ engine.keys t := by
  intro k added present
  have entry : k = .attributionId row.id ∨
      ∃ superseded, row.supersedesId = some superseded ∧ k = .supersedesOnce superseded := by
    simpa [engine, Write.adds, Write.rowEntries, Write.enters, eq_comm] using added
  rcases entry with rfl | ⟨superseded, given, rfl⟩
  · have stored : ∃ other ∈ t.attributions, other.id = row.id := by
      simpa [engine, Tables.keys, Tables.rowKeys, Tables.recordKeys, Tables.identityKeys]
        using present
    exact fresh (List.mem_map.mpr stored)
  · obtain ⟨other, stored, names⟩ := Tables.supersedesOnce_mem_keys present
    rw [given] at continues
    exact continues.2.1 other stored names

/-- The digest of an entry is that of another one. -/
def digestTaken : PyExc := uniqueViolation "audit_log_hash_key"

/-- A staged entry about a new row: only its digest can be taken. -/
theorem Serves.auditStaged (serves : Serves t ctx db s)
    (works : ∀ choice, C choice → choice.fails = false) (platform : Platform) {call : AuditCall}
    {id : UUID} (entryId : call.entryId = some id.hex) (fresh : id ∉ t.auditLog.map (·.id)) :
    Ends C (fun _ _ _ => True) (· = digestTaken) (Kernel.auditStaged platform ctx call) db s := by
  refine Concludes.bind (N := fun _ => Serves t ctx) ?_ fun prevHash db s serves => ?_
  · refine concludes_read works serves.looks.whole serves.active fun choice _ => ⟨_, _, rfl, ?_⟩
    exact ⟨⟨serves.looks.whole, serves.looks.tables, serves.looks.scope⟩, serves.active⟩
  refine (serves.choose _).bind ?_
  rintro ⟨uuid, now⟩ db s ⟨serves, _⟩
  refine Concludes.bind (N := fun _ _ _ => True) ?_ fun _ _ _ _ => trivial
  refine concludes_write works serves.looks.whole serves.active fun choice _ => ?_
  have back := readBack_buildEntry platform.sha256 platform.normalise ctx call prevHash now uuid
    choice.env.uuid
  obtain ⟨record, made, entry⟩ := Option.map_eq_some_iff.mp back
  have stored : storedRecord platform (buildEntry platform.sha256 ctx call prevHash uuid now)
      choice.env.uuid = .ok (record.stored platform.normalise) := by
    rw [storedRecord, made]
  refine ⟨_, _, _, by rw [stored]; rfl, fun k added present => ?_, fun _ => trivial⟩
  have key : k = .auditId (record.stored platform.normalise).id ∨
      k = .auditHash (record.stored platform.normalise).hash := by
    simpa [engine, Write.adds, Write.rowEntries, Write.enters] using added
  rcases key with rfl | rfl
  · have describes : StoredFor platform ctx call (record.stored platform.normalise) :=
      ⟨_, _, _, _, stored⟩
    have named : (record.stored platform.normalise).id = id :=
      UUID.hex_inj (describes.entry.2.2.2.2.2.2 id entryId)
    have logged : ∃ other ∈ t.auditLog, other.id = (record.stored platform.normalise).id := by
      rw [serves.looks.tables] at present
      simpa [engine, Tables.keys, Tables.rowKeys, Tables.recordKeys, Tables.identityKeys]
        using present
    exact absurd (named ▸ List.mem_map.mpr logged) fresh
  · rfl

/-- The row that is made of an accepted claim. -/
theorem Entitled.exists_model (entitled : Entitled t ctx record claim) {newId id recorder : UUID}
    {now : DateTime} {auditRef : Option String} {target : Option UUID}
    {attribution : EvidenceActorAttribution}
    (accepted : EvidenceActorAttribution.new newId now claim record.tenantId record.evidenceId
      ctx.principalId auditRef target = .ok attribution)
    (named : claim.actorPrincipalId.bind UUID.parse = some id)
    (recorded : UUID.parse ctx.principalId = some recorder) :
    ∃ model, attribution.toModel = .ok model ∧ ∀ startedAt,
      (model startedAt).id = newId ∧ (model startedAt).tenantId = record.tenantId ∧
      (model startedAt).evidenceId = record.evidenceId ∧
      (model startedAt).actorPrincipalId = some id ∧ (model startedAt).recordedBy = recorder ∧
      (model startedAt).supersedesId = target := by
  obtain ⟨principalId, given, nonempty⟩ := truthy_iff.mp entitled.given
  have parsed : UUID.parse principalId = some id := by simpa [given] using named
  obtain ⟨_, _, accepted⟩ := bind_eq_ok accepted
  split at accepted
  · cases accepted
  cases accepted
  have actor : toOptionalUuid claim.actorPrincipalId = .ok (some id) := by
    rw [given, toOptionalUuid]
    simp only [nonempty, if_false, toUuid, parsed]
    rfl
  have recorder' : toUuid ctx.principalId = .ok recorder := by rw [toUuid, recorded]
  unfold EvidenceActorAttribution.toModel
  simp only [actor, recorder']
  exact ⟨_, rfl, fun _ => ⟨rfl, rfl, rfl, rfl, rfl, rfl⟩⟩

/-- The INSERT. -/
theorem Serves.insert (serves : Serves t ctx db s)
    (works : ∀ choice, C choice → choice.fails = false) (unique : t.keys.Nodup)
    (entitled : Entitled t ctx record claim) {newId : UUID} {now : DateTime}
    {auditRef : Option String} {target : Option UUID} {attribution : EvidenceActorAttribution}
    (accepted : EvidenceActorAttribution.new newId now claim record.tenantId record.evidenceId
      ctx.principalId auditRef target = .ok attribution) {own : String}
    (known : KnownIn t own claim)
    (continues : Extends t (scopeOf ctx) record.tenantId target)
    (fresh : newId ∉ t.attributions.map (·.id)) :
    Ends C (fun _ db s => KnownIn t record.tenantId claim ∧
        ∃ row, Serves (t.apply (.insertAttribution row)) ctx db s)
      (fun e => ¬ KnownIn t record.tenantId claim ∧ e = foreignActor record.tenantId)
      (EvidenceActorAttributionRepository.record attribution) db s := by
  obtain ⟨_, _, named, _⟩ := known
  obtain ⟨_, _, recorded⟩ := entitled.recorder
  obtain ⟨model, made, fields⟩ := entitled.exists_model accepted named recorded
  obtain ⟨id, tenant, evidence, actor, recorder, supersedes⟩ := fields s.startedAt
  have view : ∀ env, (⟨engine.view db s, s.memo, s.startedAt, env⟩ : View Tables Memo Env) =
      ⟨t, s.memo, s.startedAt, env⟩ := fun env => by rw [serves.looks.tables]
  have scope : s.memo.scope = scopeOf ctx := serves.looks.scope
  unfold EvidenceActorAttributionRepository.record
  rw [made]
  by_cases inside : KnownIn t record.tenantId claim
  · have fresh' : (model s.startedAt).id ∉ t.attributions.map (·.id) := id ▸ fresh
    have constraints : checkConstraints (model s.startedAt) = .ok () :=
      (accepted_passes_iff accepted made s.startedAt).mpr entitled.nulls
    have checks := entitled.checkNewRow unique evidence tenant actor named (supersedes ▸ continues)
      fresh' constraints inside
    have keys := entitled.checkForeignKeys evidence tenant actor named (recorder ▸ recorded)
      (supersedes ▸ continues) inside
    refine concludes_write works serves.looks.whole serves.active fun choice _ => ?_
    refine ⟨s.memo, (model s.startedAt).attribution, .insertAttribution (model s.startedAt), ?_, ?_,
      fun _ => ⟨inside, _, serves.wrote _⟩⟩
    · rw [view]
      simp only [scope, checks, keys, Except.map]
    · intro k added present
      rw [serves.looks.tables] at present
      exact absurd present (absent_of_spare fresh' (supersedes ▸ continues) k added)
  · have sees : (scopeOf ctx).sees (model s.startedAt).tenantId = true :=
      tenant ▸ sees_of_inScope entitled.inside
    have foreign := (checkSameTenant_eq unique sees actor named).2 (tenant ▸ inside)
    refine concludes_raise works serves.looks.whole serves.active fun choice _ =>
      ⟨foreignActor record.tenantId, ?_, inside, rfl⟩
    rw [view]
    simp only [scope, Evidence.checkNewRow, entitled.checkEvidenceTenant unique evidence tenant,
      Except.bind, foreign, Except.map, tenant]

/-- Whatever the target, a new row that the service passes on is refused by the trigger
alone, and exactly where the principal is not one of the evidence's tenant. -/
theorem Serves.recordNew (serves : Serves t ctx db s)
    (works : ∀ choice, C choice → choice.fails = false) (unique : t.keys.Nodup)
    (entitled : Entitled t ctx record claim) {own : String} (known : KnownIn t own claim)
    {target : Option UUID} (continues : Extends t (scopeOf ctx) record.tenantId target)
    (spare : ∀ choice, C choice → Spare t choice.env.uuid)
    (platform : Platform) (action : String)
    (lastDetail : EvidenceActorAttribution → String × Detail) :
    Ends C (fun _ _ _ => KnownIn t record.tenantId claim)
      (fun e => KnownIn t record.tenantId claim ∧ e = digestTaken ∨
        ¬ KnownIn t record.tenantId claim ∧ e = foreignActor record.tenantId)
      (Evidence.recordNew platform ctx claim record.tenantId record.evidenceId target action
        lastDetail) db s := by
  refine (serves.choose _).bind ?_
  rintro _ db s ⟨serves, first, chosen, rfl⟩
  refine (serves.choose _).bind ?_
  rintro _ db s ⟨serves, second, chosen', rfl⟩
  obtain ⟨attribution, accepted⟩ : ∃ attribution, EvidenceActorAttribution.new second.env.uuid
      second.env.now claim record.tenantId record.evidenceId ctx.principalId
      (some first.env.uuid.hex) target = .ok attribution := by
    have other : target ≠ some second.env.uuid := by
      rintro rfl
      exact (spare second chosen').1 continues.1
    rw [EvidenceActorAttribution.new, entitled.valid]
    exact ⟨_, if_neg other⟩
  simp only [accepted, orBadRequest]
  refine ((serves.insert works unique entitled accepted known continues
    (spare second chosen').1).mono (fun _ _ _ holds => holds) ?_).bind ?_
  · exact fun e _ _ foreign => .inr foreign
  rintro recorded db s ⟨inside, row, serves⟩
  refine ((serves.auditStaged works platform rfl (spare first chosen).2).mono
    (fun _ _ _ holds => holds) ?_).bind fun _ _ _ _ => inside
  exact fun e _ _ taken => .inl ⟨inside, taken⟩

/-! ## The walk -/

theorem Serves.walkToHead (serves : Serves t ctx db s)
    (works : ∀ choice, C choice → choice.fails = false) {chains : List (List AttributionRow)}
    (bounded : Bounded t.attributions chains) (attributionId : String)
    {before after : List AttributionRow} {current head : AttributionRow} {hops : Nat}
    (enough : after.length < hops) (member : before ++ current :: after ∈ chains)
    (visible : ∀ row ∈ before ++ current :: after, (scopeOf ctx).sees row.tenantId = true)
    (newest : (current :: after).getLast? = some head) :
    Ends C (fun found db s => Serves t ctx db s ∧ found = head.attribution) X
      (Evidence.walkToHead attributionId hops current.attribution) db s := by
  induction after generalizing before current hops db s with
  | nil =>
      obtain ⟨hops, rfl⟩ : ∃ n, hops = n + 1 := ⟨hops - 1, by omega⟩
      obtain rfl : current = head := by simpa using newest
      have found := bounded.successors member visible
      refine Concludes.bind (N := fun found db s => Serves t ctx db s ∧ found = none) ?_ ?_
      · refine (serves.select works (b := []) fun view tables scope => ?_).bind ?_
        · rw [LandVault.visible, tables, scope]
          exact congrArg _ found
        · rintro _ db s ⟨serves, rfl⟩
          exact ⟨serves, rfl⟩
      · rintro _ db s ⟨serves, rfl⟩
        exact ⟨serves, rfl⟩
  | cons next after ih =>
      obtain ⟨hops, rfl⟩ : ∃ n, hops = n + 1 := ⟨hops - 1, by omega⟩
      have found := bounded.successors member visible
      refine Concludes.bind
        (N := fun found db s => Serves t ctx db s ∧ found = some next.attribution) ?_ ?_
      · refine (serves.select works (b := [next]) fun view tables scope => ?_).bind ?_
        · rw [LandVault.visible, tables, scope]
          exact congrArg _ found
        · rintro _ db s ⟨serves, rfl⟩
          exact ⟨serves, rfl⟩
      · rintro _ db s ⟨serves, rfl⟩
        have member' : (before ++ [current]) ++ next :: after ∈ chains := by simpa using member
        exact ih serves (by simpa using enough) member' (by simpa using visible)
          (by simpa using newest)

/-- `_resolve_active_head`, from a row of a lineage. -/
theorem Serves.resolveActiveHead (serves : Serves t ctx db s)
    (works : ∀ choice, C choice → choice.fails = false) {chains : List (List AttributionRow)}
    (bounded : Bounded t.attributions chains) {attributionId : String} {chain : List AttributionRow}
    (member : chain ∈ chains) {row head : AttributionRow} (inChain : row ∈ chain)
    (parsed : UUID.parse attributionId = some row.id) (newest : chain.getLast? = some head)
    (seen : (scopeOf ctx).sees row.tenantId = true) :
    Ends C (fun found db s => Serves t ctx db s ∧ found = head.attribution) X
      (Evidence.resolveActiveHead attributionId) db s := by
  have visible : ∀ other ∈ chain, (scopeOf ctx).sees other.tenantId = true :=
    fun other inChain' => bounded.tenant member other inChain' row inChain ▸ seen
  have stored : row ∈ t.attributions.filter fun row => (scopeOf ctx).sees row.tenantId :=
    List.mem_filter.mpr ⟨bounded.chained.mem_rows member inChain, seen⟩
  have found : (t.attributions.filter fun row => (scopeOf ctx).sees row.tenantId).find?
      (·.id = row.id) = some row :=
    (find?_eq_some_iff (bounded.unique.sublist (List.filter_sublist.map _))).mpr ⟨stored, rfl⟩
  obtain ⟨before, after, rfl⟩ := List.append_of_mem inChain
  have short := bounded.short _ member
  have enough : after.length < maxLineageWalk := by
    rw [List.length_append, List.length_cons] at short
    have same : maxLineageWalk = maxCycleDepth := rfl
    omega
  unfold Evidence.resolveActiveHead EvidenceActorAttributionRepository.get
  rw [parsed]
  refine (serves.select works (b := some row.attribution) fun view tables scope => ?_).bind ?_
  · rw [LandVault.visible, tables, scope, found]
    rfl
  rintro _ db s ⟨serves, rfl⟩
  exact serves.walkToHead works bounded attributionId enough member visible (by simpa using newest)

/-- The last row of a lineage that has room. -/
theorem Bounded.extends {chains : List (List AttributionRow)}
    (bounded : Bounded t.attributions chains) {chain : List AttributionRow} (member : chain ∈ chains)
    {head : AttributionRow} (newest : chain.getLast? = some head) {scope : Scope}
    (seen : scope.sees head.tenantId = true) (room : chain.length < maxCycleDepth) :
    Extends t scope head.tenantId (some head.id) := by
  have last := List.mem_of_getLast? newest
  have stored := bounded.chained.mem_rows member last
  refine ⟨List.mem_map_of_mem stored, ?_, fun row names _ fresh => ?_⟩
  · exact (bounded.chained.head bounded.unique member last).mpr newest
  · refine (rejectCycle_iff bounded.unique (bounded.chained.lineage chain member)
      (fun r inChain => bounded.chained.mem_rows member inChain) newest (fun r inChain => ?_) names
      fresh).mpr room
    rw [bounded.tenant member r inChain head last]
    exact seen

end Statements

/-! ## The service and the trigger -/

def AttributionRequest.serve (platform : Platform) (ctx : ExecutionContext) :
    AttributionRequest → Request AttributionView
  | .record evidenceId claim => recordAttribution platform ctx evidenceId claim
  | .correct attributionId claim => correctAttribution platform ctx attributionId claim

def AttributionRequest.claim : AttributionRequest → ActorClaim
  | .record _ claim | .correct _ claim => claim

/-- The request names the evidence, or a row about it whose lineage has room. -/
def Concerns (t : Tables) (record : EvidenceRecordModel) : AttributionRequest → Prop
  | .record evidenceId _ => UUID.parse evidenceId = some record.evidenceId
  | .correct attributionId _ => ∃ row ∈ t.attributions,
      UUID.parse attributionId = some row.id ∧ row.evidenceId = record.evidenceId ∧
      ∀ chain, IsLineage (·.id) (·.supersedesId) chain → chain ⊆ t.attributions → row ∈ chain →
        chain.length < maxCycleDepth

/-- How a request ends whose principal is known to the caller's tenant, to the evidence's, to
both or to neither. -/
def Verdict (own inside : Prop) (tenantId : String) (e : PyExc) : Prop :=
  ¬ own ∧ e = invalidActor ∨ own ∧ inside ∧ e = digestTaken ∨
    own ∧ ¬ inside ∧ e = foreignActor tenantId

theorem Serves.serve {t : Tables} {ctx : ExecutionContext} {db : Database Unit} {s : DbSession}
    (serves : Serves t ctx db s) (platform : Platform) (unique : t.keys.Nodup)
    (reachable : boundedProtocol.invariant t) {own : String} (tenant : ctx.tenantId = some own)
    (tenanted : own ≠ "") {record : EvidenceRecordModel} {request : AttributionRequest}
    (entitled : Entitled t ctx record request.claim) (concerns : Concerns t record request) :
    Ends (Undisturbed t)
      (fun _ _ _ => KnownIn t own request.claim ∧ KnownIn t record.tenantId request.claim)
      (Verdict (KnownIn t own request.claim) (KnownIn t record.tenantId request.claim)
        record.tenantId)
      (request.serve platform ctx) db s := by
  have works : ∀ choice, Undisturbed t choice → choice.fails = false := fun _ => And.left
  have spare : ∀ choice, Undisturbed t choice → Spare t choice.env.uuid := fun _ => And.right
  have truthy' : truthy ctx.tenantId = true := truthy_iff.mpr ⟨own, tenant, tenanted⟩
  -- what both services do once they know what the new row supersedes
  have ends : ∀ {db : Database Unit} {s : DbSession} {claim : ActorClaim} {target : Option UUID}
      {action : String} {lastDetail : EvidenceActorAttribution → String × Detail},
      Serves t ctx db s → Entitled t ctx record claim →
      Extends t (scopeOf ctx) record.tenantId target →
      Ends (Undisturbed t) (fun _ _ _ => KnownIn t own claim ∧ KnownIn t record.tenantId claim)
        (Verdict (KnownIn t own claim) (KnownIn t record.tenantId claim) record.tenantId)
        (do
          Evidence.authorizeMutation ctx record
          Evidence.verifyActorReference ctx claim
          Evidence.recordNew platform ctx claim record.tenantId record.evidenceId target action
            lastDetail) db s := by
    intro db s claim target action lastDetail serves entitled continues
    refine (serves.authorizeMutation works unique entitled).bind fun _ db s serves => ?_
    refine ((serves.verifyActorReference works unique tenant entitled.internal entitled.given).mono
      (fun _ _ _ holds => holds) fun e _ _ refused => .inl refused).bind ?_
    rintro _ db s ⟨serves, known⟩
    refine (serves.recordNew works unique entitled known continues spare platform action
      lastDetail).mono (fun _ _ _ inside => ⟨known, inside⟩) ?_
    rintro e _ _ (⟨inside, taken⟩ | ⟨outside, foreign⟩)
    · exact .inr (.inl ⟨known, inside, taken⟩)
    · exact .inr (.inr ⟨known, outside, foreign⟩)
  cases request with
  | record evidenceId claim =>
      simp only [AttributionRequest.serve, Evidence.recordAttribution, truthy', Bool.not_true,
        Bool.false_eq_true, if_false]
      refine (serves.loadEvidenceInScope works unique entitled concerns).bind ?_
      rintro _ db s ⟨serves, rfl⟩
      exact ends serves entitled trivial
  | correct attributionId claim =>
      obtain ⟨row, present, parsed, about, room⟩ := concerns
      obtain ⟨⟨chains, bounded⟩, founded⟩ := reachable
      obtain ⟨chain, member, inChain⟩ :=
        List.mem_flatten.mp (bounded.chained.partition.mem_iff.mpr present)
      obtain ⟨head, newest⟩ : ∃ head, chain.getLast? = some head :=
        ⟨_, List.getLast?_eq_some_getLast (bounded.chained.nonempty chain member)⟩
      have last := List.mem_of_getLast? newest
      have ofRow : row.tenantId = record.tenantId :=
        (founded row present).tenant unique entitled.stored about
      have ofHead := bounded.constant member head last row inChain
      have headTenant : head.tenantId = record.tenantId := ofHead.1.trans ofRow
      have headEvidence : head.evidenceId = record.evidenceId := ofHead.2.trans about
      have seen : (scopeOf ctx).sees record.tenantId = true := sees_of_inScope entitled.inside
      have short := room chain (bounded.chained.lineage chain member)
        (fun r inChain => bounded.chained.mem_rows member inChain) inChain
      have continues : Extends t (scopeOf ctx) record.tenantId (some head.id) := by
        rw [← headTenant]
        exact bounded.extends member newest (headTenant ▸ seen) short
      simp only [AttributionRequest.serve, Evidence.correctAttribution, truthy', Bool.not_true,
        Bool.false_eq_true, if_false]
      refine (serves.resolveActiveHead works bounded member inChain parsed newest
        (ofRow ▸ seen)).bind ?_
      rintro _ db s ⟨serves, rfl⟩
      have sameTenant : head.attribution.tenantId = record.tenantId := headTenant
      have sameEvidence : head.attribution.evidenceId = record.evidenceId := headEvidence
      simp only [sameTenant, sameEvidence, entitled.inside, Bool.not_true, Bool.false_eq_true,
        if_false]
      refine (serves.loadEvidenceInScope works unique entitled (UUID.parse_str _)).bind ?_
      rintro _ db s ⟨serves, rfl⟩
      exact ends serves entitled continues

/-- **The service and the database agree on an actor's principal**, in every run that nothing
disturbs: the request stores the attribution if the principal exists in the tenant of the
evidence, unless the digest of its audit entry is that of another one, and answers 400
otherwise. -/
def AgreesOnActor (platform : Platform) (t : Tables) (ctx : ExecutionContext)
    (record : EvidenceRecordModel) (request : AttributionRequest) : Prop :=
  ∀ clock choices result db s, (∀ choice ∈ choices, Undisturbed t choice) →
    play (postgres Unit) () choices { tables := t, clock } (callerSession ctx)
      (request.serve platform ctx) = some (result, db, s) →
    (KnownIn t record.tenantId request.claim →
      (∃ view, result = .ok view) ∨ result = .error digestTaken) ∧
    (¬ KnownIn t record.tenantId request.claim → result = .error invalidActor)

/-- **One rule, checked against two tenants.** For every caller who may attribute actors to
the evidence, and every request that is valid otherwise, the service and the trigger agree
exactly where the evidence is of the caller's tenant, or the principal is of neither of the
two. -/
theorem actor_references_agree_iff (platform : Platform) {t : Tables} (unique : t.keys.Nodup)
    (reachable : boundedProtocol.invariant t) (left : ∃ uuid, Spare t uuid)
    {ctx : ExecutionContext} {own : String} (tenant : ctx.tenantId = some own)
    (tenanted : own ≠ "") {record : EvidenceRecordModel} {request : AttributionRequest}
    (entitled : Entitled t ctx record request.claim) (concerns : Concerns t record request) :
    AgreesOnActor platform t ctx record request ↔
      own = record.tenantId ∨
        (¬ KnownIn t own request.claim ∧ ¬ KnownIn t record.tenantId request.claim) := by
  have ends := fun clock => (serves_start t ctx clock).serve platform unique reachable tenant
    tenanted entitled concerns
  have apart : invalidActor ≠ digestTaken ∧ invalidActor ≠ foreignActor record.tenantId :=
    ⟨nofun, nofun⟩
  -- a principal is of one tenant
  have exclusive : KnownIn t own request.claim → KnownIn t record.tenantId request.claim →
      own = record.tenantId := by
    rintro ⟨user, stored, named, rfl⟩ ⟨user', stored', named', tenant'⟩
    have same : user.id = user'.id := Option.some.inj (named.symm.trans named')
    exact (List.inj_on_of_nodup_map (Entity.keys_nodup .user unique) stored stored' same) ▸ tenant'
  constructor
  · intro agrees
    by_cases same : own = record.tenantId
    · exact .inl same
    obtain ⟨uuid, spare⟩ := left
    let choice : Choice Env :=
      { env := { uuid, now := ⟨2026, 1, 1, 0, 0, 0, 0, by decide, by decide⟩ } }
    have admitted : Undisturbed t choice := ⟨rfl, spare⟩
    obtain ⟨choices, result, db, s, chosen, played, answered⟩ := (ends 0).exists_play admitted
    obtain ⟨inside, outside⟩ := agrees 0 choices result db s chosen played
    refine .inr ⟨fun known => ?_, fun known => ?_⟩
    · have other : ¬ KnownIn t record.tenantId request.claim := fun known' =>
        same (exclusive known known')
      have refused := outside other
      subst refused
      rcases answered with ⟨unknown, _⟩ | ⟨_, known', _⟩ | ⟨_, _, foreign⟩
      · exact unknown known
      · exact other known'
      · exact apart.2 foreign
    · have unknown : ¬ KnownIn t own request.claim := fun known' => same (exclusive known' known)
      rcases inside known with ⟨view, rfl⟩ | rfl
      · exact unknown answered.1
      · rcases answered with ⟨_, refused⟩ | ⟨known', _⟩ | ⟨known', _⟩
        · exact apart.1 refused.symm
        · exact unknown known'
        · exact unknown known'
  · intro condition clock choices result db s chosen played
    have answered := (ends clock).played chosen played
    have both : KnownIn t own request.claim ↔ KnownIn t record.tenantId request.claim := by
      rcases condition with rfl | ⟨unknown, unknown'⟩
      · exact Iff.rfl
      · exact iff_of_false unknown unknown'
    cases result with
    | ok view => exact ⟨fun _ => .inl ⟨view, rfl⟩, fun unknown => absurd answered.2 unknown⟩
    | error e =>
        rcases answered with ⟨unknown, rfl⟩ | ⟨_, known, rfl⟩ | ⟨known, unknown, _⟩
        · exact ⟨fun known => absurd (both.mpr known) unknown, fun _ => rfl⟩
        · exact ⟨fun _ => .inr rfl, fun unknown => absurd known unknown⟩
        · exact absurd (both.mp known) unknown

/-! ## A super administrator of another tenant -/

/-- The actor is the user `id`. -/
def principalClaim (id : UUID) : ActorClaim :=
  { attributionRole := reviewedBy, actorReferenceKind := internalPrincipal
    actorType := "INDIVIDUAL", basis := "field survey", actorPrincipalId := some id.str
    actorName := some "a" }

/-- A registrant of the evidence's tenant names himself. -/
theorem actor_references_agree_iff_own :
    AgreesOnActor ⟨id, id⟩ sampleTables sampleContext sampleRecord
      (.record (sampleUuid 3).str (principalClaim (sampleUuid 1))) := by
  have reachable : boundedProtocol.invariant sampleTables :=
    ⟨⟨[], ⟨trivial, by decide, by decide, ⟨.rfl, by simp, by simp⟩, by simp⟩⟩,
      fun row member => nomatch member⟩
  have left : ∃ uuid, Spare sampleTables uuid := ⟨sampleUuid 9, by decide, by decide⟩
  have entitled : Entitled sampleTables sampleContext sampleRecord
      (principalClaim (sampleUuid 1)) :=
    { stored := by decide
      inside := by decide
      parcel := ⟨_, List.mem_singleton_self _, rfl, by decide, by decide +kernel⟩
      tenant := by decide
      recorder := ⟨_, List.mem_singleton_self _, UUID.parse_str _⟩
      internal := rfl
      valid := by decide +kernel
      nulls := ⟨nofun, nofun⟩ }
  have concerns : Concerns sampleTables sampleRecord
      (.record (sampleUuid 3).str (principalClaim (sampleUuid 1))) := UUID.parse_str _
  exact (actor_references_agree_iff ⟨id, id⟩ (by decide) reachable left rfl (by decide)
    entitled concerns).mpr (.inl rfl)

/-- The same, with a super administrator of another tenant. -/
def crossTables : Tables :=
  { sampleTables with
    tenants := [{ id := "t-1" }, { id := "t-2" }]
    identityUsers :=
      [{ id := sampleUuid 1, tenantId := "t-1", identitySubject := "s-1", email := "1" },
       { id := sampleUuid 8, tenantId := "t-2", identitySubject := "s-8", email := "8" }] }

def visitor : ExecutionContext :=
  { principalId := (sampleUuid 8).str, tenantId := some "t-2", roles := [Role.superAdmin.value] }

/-- What the outside world decides in a run of these tables. -/
def visit : Choice Env :=
  { env := { uuid := sampleUuid 4, now := .newYear } }

/-- He names himself: the service passes the reference on, and the trigger rejects it. -/
theorem ownPrincipal_rejected : ¬ AgreesOnActor ⟨id, id⟩ crossTables visitor sampleRecord
    (.record (sampleUuid 3).str (principalClaim (sampleUuid 8))) := by
  intro agrees
  have rejected : (play (postgres Unit) () (List.replicate 6 visit) { tables := crossTables }
      (callerSession visitor) ((AttributionRequest.record (sampleUuid 3).str
        (principalClaim (sampleUuid 8))).serve ⟨id, id⟩ visitor)).map
          (fun run => run.1.map fun _ => ()) = some (.error (foreignActor "t-1")) := by
    decide +kernel
  obtain ⟨⟨result, db, s⟩, played, failed⟩ := Option.map_eq_some_iff.mp rejected
  have calm : ∀ choice ∈ List.replicate 6 visit, Undisturbed crossTables choice := by
    intro choice member
    rw [List.eq_of_mem_replicate member]
    exact ⟨rfl, by decide, by decide⟩
  have unknown : ¬ KnownIn crossTables "t-1" (principalClaim (sampleUuid 8)) := by
    rintro ⟨user, stored, named, tenant⟩
    have same : sampleUuid 8 = user.id := by simpa [principalClaim] using named
    simp only [crossTables, List.mem_cons, List.not_mem_nil, or_false] at stored
    rcases stored with rfl | rfl
    · exact absurd same (by decide)
    · exact absurd tenant (by decide)
  have answered := (agrees 0 _ result db s calm played).2 unknown
  subst answered
  cases failed

end LandVault.Evidence
