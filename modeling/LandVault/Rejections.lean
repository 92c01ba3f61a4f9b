import LandVault.Evidence.AttributionStaging
import LandVault.Identity.Principals
import LandVault.Registrations

/-!
# Rejected requests

The unit of work commits after an `HTTPException`. The services raise all of theirs
before the first write of the request; what the database refuses later is no
`HTTPException`, and is rolled back. One endpoint turns such an error into an
`HTTPException`, after a rollback of its own. So a rejected request leaves the tables as
they were, but for the entries of the audit log, which are added at once.
-/

set_option autoImplicit false

namespace LandVault

open Kernel Kernel.Audit Identity Registry Spatial Evidence Library.Programs
open Library.ReadCommitted Python

/-! ## The audit log -/

theorem Tables.auditLog_prefix_apply (t : Tables) (w : Write) :
    t.auditLog <+: (t.apply w).auditLog := by
  cases w with
  | insertAudit row => exact ⟨[row], rfl⟩
  | _ => exact List.prefix_rfl

/-- What the audit log holds stays there, whatever a request does. -/
def logProtocol (log : List AuditLogRecord) : Protocol Tables Write where
  invariant := fun t => log <+: t.auditLog

theorem Leaves.auditLog_prefix {α : Type} {t t' : Tables} {request : Request α}
    {answer : Option (Except PyExc α)} (leaves : Leaves t request t' answer)
    (unique : t.keys.Nodup) : t.auditLog <+: t'.auditLog := by
  have kept : ∀ (t₁ : Tables) (w : Write), (logProtocol t.auditLog).invariant t₁ →
      (logProtocol t.auditLog).invariant (engine.apply t₁ w) :=
    fun t₁ w before => before.trans (t₁.auditLog_prefix_apply w)
  exact (leaves.of_meets (p := logProtocol t.auditLog) unique List.prefix_rfl fun clock =>
    meets_always (fun _ => trivial) kept (fun _ _ _ => trivial) request).2.1

/-! ## What the end of the request cannot change -/

/-- Whether or not the transaction is committed now, the records are those of `t`. -/
structure Spared (t : Tables) (db : Database Unit) (s : DbSession) : Prop where
  committed : db.tables.records = t
  pending : s.broken = false → s.active = true → (engine.view db s).records = t

/-- After an `HTTPException`, a commit changes no record. -/
def Sparing (t : Tables) (e : PyExc) : Assertion (Database Unit) DbSession :=
  fun db s => e.isHttp = true → Spared t db s

section Rules

variable {α β : Type} {allowed : Tables → Prop} {C : Env → Prop} {x : Transaction} {t u : Tables}
  {db : Database Unit} {s : DbSession} {ctx : ExecutionContext}

theorem Ready.spared (ready : Ready x (· = x.base) db s) : Spared x.base db s := by
  rcases ready with lost | ⟨u, staged, rfl⟩
  · exact ⟨lost.committed, fun whole _ => by simp [lost.broken] at whole⟩
  · exact ⟨staged.committed, fun _ _ => staged.seen⟩

theorem Raising.sparing {e : PyExc} (raising : Raising x (Unchanged x.base) e db s) :
    Sparing x.base e db s := by
  intro http
  rcases raising with ⟨_, ready⟩ | ⟨notHttp, _⟩
  · exact ready.spared
  · simp [http] at notHttp

theorem Idle.spared (idle : Idle t db s) : Spared t db s :=
  ⟨idle.committed, fun _ active => by simp [idle.inactive] at active⟩

/-- The end of a transaction that is spared. -/
theorem Spared.commit (spared : Spared t db s) :
    Keeps (fun _ => True) C (fun _ db _ => db.tables.records = t) (fun e _ _ => e.isHttp = false)
      Kernel.commit db s := by
  refine meets_commit trivial (fun _ _ _ _ _ => ⟨trivial, trivial⟩) ?_
  intro db₁ choice answer db' s' turn _ _ committed _
  cases turn.rely.eq_of_subsingleton
  cases committed with
  | refused broken => rfl
  | idle whole inactive => exact spared.committed
  | failed whole active => rfl
  | committed whole active => exact spared.pending whole active

/-- A commit raises no `HTTPException`. -/
theorem commit_notHttp :
    Keeps (fun _ => True) C (fun _ _ _ => True) (fun e _ _ => e.isHttp = false) Kernel.commit db s := by
  refine meets_commit trivial (fun _ _ _ _ _ => ⟨trivial, trivial⟩) ?_
  intro db₁ choice answer db' s' turn _ _ committed _
  cases committed with
  | refused broken | failed whole active => rfl
  | idle whole inactive | committed whole active => trivial

/-- A request in its unit of work: an `HTTPException` leaves the records alone. -/
theorem Idle.sparing (idle : Idle t db s) (ctx : ExecutionContext) {request : Request β}
    (body : ∀ x db' s', x.base = t → Staged x t db' s' →
      Keeps (fun _ => True) C (fun _ _ _ => True) (Sparing t) request db' s') :
    Keeps (fun _ => True) C (fun _ _ _ => True)
      (fun e db' _ => e.isHttp = true → db'.tables.records = t)
      (Kernel.getDbSession ctx request) db s := by
  refine (idle.setConfig (scopeOf ctx) fun _ _ _ => nofun).bind ?_
  rintro _ db' s' ⟨startedAt, _, staged⟩
  refine Meets.handle (N := Sparing t) ?_ ?_
  · refine (body _ db' s' rfl staged).bind fun b db s _ => ?_
    refine (commit_notHttp.mono (fun _ _ _ _ => trivial) fun e db s notHttp => ?_).bind
      fun _ _ _ _ => trivial
    exact fun http => by simp [http] at notHttp
  · rintro e db s sparing
    cases e with
    | http status detail =>
        refine ((sparing rfl).commit.mono (fun _ _ _ same => same) fun e db s notHttp => ?_).bind
          fun _ db s same _ => same
        exact fun http => by simp [http] at notHttp
    | _ =>
        refine (keeps_rollback rfl).mono (fun _ _ _ after => after) (fun _ _ _ absurd => absurd.elim)
          |>.bind fun _ db s _ http => by cases http

/-- The endpoint answers a correction that came too late after a rollback. -/
theorem Staged.correctByEndpoint (staged : Staged x x.base db s) {platform : Platform}
    (attributionId : String) (claim : ActorClaim) :
    Keeps (fun _ => True) C (fun _ _ _ => True) (Sparing x.base)
      (correctEvidenceAttribution platform ctx attributionId claim) db s := by
  refine Meets.handle (N := Raising x (Unchanged x.base)) ?_ fun e db s raising => ?_
  · exact (staged.correctAttribution attributionId claim).mono (fun _ _ _ _ => trivial)
      fun _ _ _ raising => raising
  · refine .ite (fun violated => ?_) fun _ => raising.sparing
    have committed : db.tables.records = x.base := by
      rcases raising with ⟨_, ready⟩ | ⟨_, same⟩
      · exact ready.committed
      · exact same
    refine (keeps_rollback committed).mono (fun _ _ _ after => after)
      (fun _ _ _ absurd => absurd.elim) |>.bind fun _ db s after _ => after.1.spared

end Rules

/-! ## The services -/

/-- What the five services take from outside. -/
structure ServicePlatform extends IdentityPlatform, EvidencePlatform, SpatialPlatform

/-- A call of `ParcelService`, `SpatialService`, `EvidenceService`,
`EvidenceActorAttributionService` or `AdminService`, or of the endpoint around
`correct_attribution`. -/
inductive ServiceCall where
  | parcel (request : ParcelRequest)
  | geometry (request : SpatialRequest)
  | evidence (request : EvidenceRequest)
  | attribution (call : AttributionCall)
  | correction (attributionId : String) (claim : ActorClaim)
  | admin (request : AdminRequest)

inductive ServiceAnswer where
  | parcel (answer : ParcelAnswer)
  | geometry (view : GeometryView)
  | evidence (answer : EvidenceAnswer)
  | attribution (answer : AttributionAnswer)
  | admin (answer : IdentityAnswer)

namespace ServiceCall

def serve (platform : ServicePlatform) (ctx : ExecutionContext) :
    ServiceCall → Request ServiceAnswer
  | .parcel request => do
      return .parcel (← request.serve RealGeometryAdapter.referenceIsValid platform.toPlatform ctx)
  | .geometry request => do return .geometry (← request.serve platform.toSpatialPlatform ctx)
  | .evidence request => do return .evidence (← request.serve platform.toEvidencePlatform ctx)
  | .attribution call => do return .attribution (← call.serve platform.toPlatform ctx)
  | .correction attributionId claim => do
      return .attribution
        (.attribution (← correctEvidenceAttribution platform.toPlatform ctx attributionId claim))
  | .admin request => do return .admin (← request.serve platform.toIdentityPlatform ctx)

/-- A call in its unit of work. -/
def handle (platform : ServicePlatform) (ctx : ExecutionContext) (call : ServiceCall) :
    Request ServiceAnswer :=
  getDbSession ctx (call.serve platform ctx)

end ServiceCall

section Services

variable {C : Env → Prop} {x : Transaction} {db : Database Unit} {s : DbSession}
  {platform : ServicePlatform} {ctx : ExecutionContext}

/-- Every service raises its `HTTPException`s before it writes. -/
theorem Staged.serves (staged : Staged x x.base db s) (call : ServiceCall) :
    Keeps (fun _ => True) C (fun _ _ _ => True) (Sparing x.base) (call.serve platform ctx) db s := by
  have raising : ∀ {α β : Type} {Q : α → Assertion (Database Unit) DbSession} {request : Request α}
      {answer : α → β}, Keeps (fun _ => True) C Q (Raising x (Unchanged x.base)) request db s →
      Keeps (fun _ => True) C (fun _ _ _ => True) (Sparing x.base)
        (request.bind fun a => pure (answer a)) db s := fun keeps =>
    (keeps.mono (fun _ _ _ holds => holds) fun _ _ _ raising => raising.sparing).bind
      fun _ _ _ _ => trivial
  cases call with
  | parcel request => exact raising (staged.registers request)
  | geometry request =>
      cases request with
      | submit parcelId boundary => exact raising (staged.submitGeometry parcelId boundary)
      | getActive parcelId => exact raising (staged.getActiveGeometry parcelId)
  | evidence request => exact raising (staged.collects request)
  | attribution call => exact raising (staged.attributes call)
  | correction attributionId claim =>
      exact (staged.correctByEndpoint attributionId claim).bind fun _ _ _ _ => trivial
  | admin request => exact raising (staged.administers request)

end Services

/-- **A rejected request changes nothing**: where a call ends in an `HTTPException` of any
status, the tables have what they had, and the audit log has what it had and more. -/
theorem rejected_unchanged {platform : ServicePlatform} {ctx : ExecutionContext}
    {call : ServiceCall} {t t' : Tables} {status : Nat} {detail : String} (unique : t.keys.Nodup)
    (rejected : Leaves t (call.handle platform ctx) t' (some (.error (.http status detail)))) :
    t'.records = t.records ∧ t.auditLog <+: t'.auditLog := by
  refine ⟨?_, rejected.auditLog_prefix unique⟩
  obtain ⟨db, s, rfl, same⟩ := (rejected.of_keeps unique trivial fun db s idle =>
    idle.sparing ctx fun x db' s' same staged => by
      rw [← same] at staged ⊢
      exact staged.serves call).2.2 _ rfl
  exact same rfl

/-- What a request leaves that is played to its end. -/
theorem leaves_of_play {α : Type} (request : Request α) (t : Tables) (choices : List (Choice Env))
    (φ : Tables → Except PyExc α → Bool)
    (observed : (play (postgres Unit) () choices { tables := t } freshSession request).any
      (fun ended => φ ended.2.1.tables ended.1) = true) :
    ∃ t' result, φ t' result = true ∧ Leaves t request t' (some result) := by
  rw [Option.any_eq_true] at observed
  obtain ⟨⟨result, db, s⟩, played, holds⟩ := observed
  exact ⟨db.tables, result, holds, .of_play played⟩

/-- A parcel that someone else has registered. -/
def neighbourTables : Tables where
  tenants := [{ id := "t-1" }]
  parcels := [{ parcelId := sampleId 1, tenantId := "t-1", countryCode := "NG", origin := "o",
                createdBy := sampleId 2, createdAt := .now 0, updatedAt := .now 0 }]

def servicePlatform : ServicePlatform :=
  { samplePlatform with sha256 := actionDigest, hexdigest := fun _ => "", reprFloat := fun _ => "" }

def isForbidden {α : Type} : Except PyExc α → Bool
  | .error (.http 403 _) => true
  | _ => false

/-- A caller who may not archive the parcel is refused, and an entry says so. -/
theorem rejected_unchanged_neighbour : ∃ t' detail,
    Leaves neighbourTables (ServiceCall.handle servicePlatform
      { principalId := "p-3", tenantId := some "t-1" }
      (.parcel (.archive "00000000-0000-0000-0000-000000000001"))) t'
      (some (.error (.http 403 detail))) ∧
    t'.records = neighbourTables.records ∧ neighbourTables.auditLog <+: t'.auditLog := by
  obtain ⟨t', result, refused, leaves⟩ := leaves_of_play
    (ServiceCall.handle servicePlatform { principalId := "p-3", tenantId := some "t-1" }
      (.parcel (.archive "00000000-0000-0000-0000-000000000001"))) neighbourTables
    (List.replicate 6 { env := { uuid := sampleId 9, now := sampleNow } })
    (fun _ result => isForbidden result) (by decide +kernel)
  unfold isForbidden at refused
  split at refused
  · rename_i detail
    exact ⟨t', detail, leaves, rejected_unchanged (by decide) leaves⟩
  · cases refused

end LandVault
