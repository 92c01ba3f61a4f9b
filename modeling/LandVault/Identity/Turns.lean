import LandVault.Identity.Enrolment
import LandVault.Identity.Principals

/-!
# One request after another

What one request of the Identity context may leave of the tables it starts on, whether
it is answered, crashes, or is cut off: the context of its caller is hydrated, its gate
is passed, and what it commits is what its operation has staged. A run is a sequence of
such requests.
-/

set_option autoImplicit false

namespace LandVault

open Kernel Kernel.Audit Identity Library.Programs Library.ReadCommitted Python Relation

/-- The context of a caller: nobody's, or the one that the hydrator gives for the token at
some moment. -/
inductive Caller (platform : IdentityPlatform) (t : Tables) : Option Claims → ExecutionContext → Prop
    where
  | anonymous : Caller platform t none anonymous
  | token (claims : Claims) (now : DateTime) :
      Caller platform t (some claims) (contextOf claims (t.hydrated platform now claims.subject))

/-- What a request may leave, over the tables it starts on. -/
inductive Step (platform : IdentityPlatform) (t : Tables) : IdentityRequest → Tables → Prop where
  | nothing {request : IdentityRequest} : Step platform t request t
  | admin {token : Option Claims} {call : AdminRequest} {ctx : ExecutionContext} {u : Tables}
      (caller : Caller platform t token ctx) (authenticated : ctx.isAnonymous = false)
      (admitted : ctx.hasAnyRole call.roles = true) (stages : Administered ctx call t u) :
      Step platform t (.admin token call) u
  | auth {token : Option Claims} {request : AuthRequest} {ctx : ExecutionContext} {u : Tables}
      (caller : Caller platform t token ctx) (stages : Enrolled (request.presents platform) t u) :
      Step platform t (.auth token request) u
  | suspend {userId reason : String} {u : Tables} (stages : Suspended t u) :
      Step platform t (.suspendUser userId reason) u

section Rules

variable {allowed : Tables → Prop} {t : Tables} {db : Database Unit} {s : DbSession}
  {platform : IdentityPlatform} {ctx : ExecutionContext}

/-! ## Context and gate -/

theorem Idle.currentContext (idle : Idle t db s) (token : Option Claims) :
    Keeps allowed (fun _ => True) (fun ctx db s => Idle t db s ∧ Caller platform t token ctx)
      (fun e db _ => e.isHttp = false ∧ db.tables.records = t)
      (Identity.currentContext platform token) db s := by
  have always : Instant (fun _ => True) fun _ => True := ⟨fun _ => trivial, sampleNow, trivial⟩
  cases token with
  | none => exact ⟨idle, .anonymous⟩
  | some claims =>
      refine ((idle.buildProductionContextHydrator always _).mono (fun _ _ _ found => found) ?_).bind
        ?_
      · rintro e db s ⟨rfl, same⟩
        exact ⟨rfl, same⟩
      · rintro attrs db s ⟨idle, now, _, rfl⟩
        exact ⟨idle, .token claims now⟩

/-- What is left where a request is refused before its unit of work. -/
abbrev Untouched (t : Tables) : PyExc → Assertion (Database Unit) DbSession :=
  fun _ db _ => db.tables.records = t

theorem apart_idle : Apart (Idle t) := by
  intro db s db' s' idle same pending active broken _ memo held
  have unique := held.unique
  rw [Engine.view, pending, idle.pending] at unique
  exact ⟨same.trans idle.committed, memo.trans idle.fresh, pending.trans idle.pending,
    active.trans idle.inactive, broken.trans idle.whole, unique⟩

theorem Idle.requireAuth (idle : Idle t db s) :
    Keeps allowed (fun _ => True) (fun _ db s => Idle t db s ∧ ctx.isAnonymous = false)
      (Untouched t) (Identity.requireAuth ctx) db s :=
  .ite (fun _ => idle.committed) fun known => ⟨idle, by simpa using known⟩

theorem Idle.requireRole (idle : Idle t db s) (roles : List String) :
    Keeps allowed (fun _ => True)
      (fun _ db s => Idle t db s ∧ ctx.isAnonymous = false ∧ ctx.hasAnyRole roles = true)
      (Untouched t) (Identity.requireRole platform roles ctx) db s := by
  refine idle.requireAuth.bind ?_
  rintro _ db s ⟨idle, known⟩
  refine .ite (fun admitted => ⟨idle, known, admitted⟩) fun _ => ?_
  have audited (call : AuditCall) : Keeps allowed (fun _ => True) (fun _ => Idle t) (Untouched t)
      (Kernel.audit platform.toPlatform ctx call) db s :=
    (apart_idle.audit (C := fun _ => True) idle _ _ call).mono (fun _ _ _ idle => idle) fun _ _ _ failed =>
      failed.2.committed
  exact (audited _).bind fun _ db s idle => idle.committed

theorem Idle.gate (idle : Idle t db s) (request : AuthRequest) :
    Keeps allowed (fun _ => True) (fun _ => Idle t) (Untouched t) (request.gate ctx) db s := by
  have authenticated : Keeps allowed (fun _ => True) (fun _ => Idle t) (Untouched t)
      (Identity.requireAuth ctx) db s :=
    idle.requireAuth.mono (fun _ _ _ after => after.1) fun _ _ _ same => same
  cases request with
  | acceptInvitationSupabase _ _ _ | logout _ | myTenant => exact authenticated
  | _ => exact idle

/-! ## Requests -/

/-- A request of `auth_router` is answered with what its operation has staged. -/
theorem Idle.serves (idle : Idle t db s) (token : Option Claims) (request : AuthRequest) :
    Keeps (Step platform t (.auth token request)) (fun _ => True)
      (fun answer db _ => request.Answered platform t answer db.tables.records) (fun _ _ _ => True)
      (IdentityRequest.handle platform (.auth token request)) db s := by
  refine ((idle.currentContext token).mono (fun _ _ _ after => after) fun _ _ _ _ =>
    trivial).bind ?_
  rintro ctx db s ⟨idle, caller⟩
  refine ((idle.gate request).mono (fun _ _ _ after => after) fun _ _ _ _ => trivial).bind ?_
  intro _ db s idle
  have allows (u : Tables) (enrolled : Enrolled (request.presents platform) t u) :
      Step platform t (.auth token request) u :=
    .auth caller enrolled
  refine (idle.getDbSession (C := fun _ => True) ctx
    (P := fun _ answer => request.Answered platform t answer)
    (fun _ _ u answered => allows u answered.enrolled) (fun _ _ => allows) ?_).mono ?_
    fun _ _ _ _ => trivial
  · rintro x db s rfl _ _ staged
    exact staged.enrols request
  · rintro answer db s ⟨x, _, _, _, _, answered⟩
    exact answered

/-- **The step lemma.** A request leaves nothing, or what its operation has staged. -/
theorem Idle.handle (idle : Idle t db s) (request : IdentityRequest) :
    Keeps (Step platform t request) (fun _ => True) (fun _ _ _ => True) (fun _ _ _ => True)
      (request.handle platform) db s := by
  cases request with
  | auth token request =>
      exact (idle.serves token request).mono (fun _ _ _ _ => trivial) fun _ _ _ _ => trivial
  | admin token call =>
      refine ((idle.currentContext token).mono (fun _ _ _ after => after) fun _ _ _ _ =>
        trivial).bind ?_
      rintro ctx db s ⟨idle, caller⟩
      refine ((idle.requireRole call.roles).mono (fun _ _ _ after => after) fun _ _ _ _ =>
        trivial).bind ?_
      rintro _ db s ⟨idle, known, admitted⟩
      have allows (u : Tables) (administered : Administered ctx call t u) :
          Step platform t (.admin token call) u :=
        .admin caller known admitted administered
      have leaves (e : PyExc) (u : Tables) (same : Unchanged t e u) :
          Step platform t (.admin token call) u := by
        rw [show u = t from same]
        exact .nothing
      refine (idle.getDbSession (C := fun _ => True) ctx (fun _ _ => allows) (fun _ => leaves) ?_).mono
        (fun _ _ _ _ => trivial) fun _ _ _ _ => trivial
      rintro x db s rfl _ _ staged
      exact staged.administers call
  | hydrate subject =>
      have always : Instant (fun _ => True) fun _ => True := ⟨fun _ => trivial, sampleNow, trivial⟩
      exact ((idle.buildProductionContextHydrator always subject).mono (fun _ _ _ found => found)
        fun _ _ _ _ => trivial).bind fun _ _ _ _ => trivial
  | suspendUser userId reason =>
      have allows (u : Tables) (suspended : Suspended t u) :
          Step platform t (.suspendUser userId reason) u :=
        .suspend suspended
      refine (idle.getDbSession (C := fun _ => True) anonymous (fun _ _ => allows) (fun _ _ => allows)
        ?_).mono (fun _ _ _ _ => trivial) fun _ _ _ _ => trivial
      rintro x db s rfl _ _ staged
      exact staged.suspendUser userId reason

end Rules

/-! ## Runs -/

/-- The tables that a request leaves are among those of its step, without the audit log. -/
theorem step_of_leaves {platform : IdentityPlatform} {t t' : Tables} {request : IdentityRequest}
    {answer : Option (Except PyExc IdentityAnswer)} (unique : t.keys.Nodup)
    (leaves : Leaves t (request.handle platform) t' answer) :
    t'.keys.Nodup ∧ Step platform t.records request t'.records := by
  obtain ⟨unique', step, _⟩ := leaves.of_keeps unique .nothing fun _ _ idle => idle.handle request
  exact ⟨unique', step⟩

/-- Requests one after another, each on the tables that the one before has left. A
condition may be asked of each of them. -/
inductive Runs (platform : IdentityPlatform) (admitted : IdentityRequest → Tables → Prop)
    (t : Tables) : Tables → Prop where
  | start : Runs platform admitted t t
  | step {t' t'' : Tables} {request : IdentityRequest}
      {answer : Option (Except PyExc IdentityAnswer)} (before : Runs platform admitted t t')
      (admits : admitted request t') (leaves : Leaves t' (request.handle platform) t'' answer) :
      Runs platform admitted t t''

theorem Runs.unique {platform : IdentityPlatform} {admitted : IdentityRequest → Tables → Prop}
    {t t' : Tables} (runs : Runs platform admitted t t') (unique : t.keys.Nodup) : t'.keys.Nodup := by
  induction runs with
  | start => exact unique
  | step _ _ leaves ih => exact (step_of_leaves ih leaves).1

/-- **The run lemma.** What every step keeps, every run keeps. -/
theorem Runs.keeps {platform : IdentityPlatform} {admitted : IdentityRequest → Tables → Prop}
    {t t' : Tables} (runs : Runs platform admitted t t') (unique : t.keys.Nodup)
    {I : Tables → Prop} (initial : I t.records)
    (steps : ∀ t request u, t.keys.Nodup → admitted request t → I t.records →
      Step platform t.records request u → I u) :
    I t'.records := by
  induction runs with
  | start => exact initial
  | step before admits leaves ih =>
      exact steps _ _ _ (before.unique unique) admits ih (step_of_leaves (before.unique unique) leaves).2

/-! ## Requests that are played to their end -/

/-- What a request leaves that is played with one choice for all its statements. -/
def playedTables (uuid : UUID) (steps : Nat) (request : IdentityRequest) (t : Tables) :
    Option Tables :=
  (play (postgres Unit) () (List.replicate steps { env := { uuid, now := sampleNow } })
    { tables := t } freshSession (request.handle samplePlatform)).map (·.2.1.tables)

theorem leaves_of_playedTables (uuid : UUID) (steps : Nat) (request : IdentityRequest)
    (t : Tables) (φ : Tables → Prop) [DecidablePred φ]
    (observed : (playedTables uuid steps request t).any (fun t' => decide (φ t')) = true) :
    ∃ t', φ t' ∧ ∃ answer, Leaves t (request.handle samplePlatform) t' answer := by
  obtain ⟨t', played, holds⟩ : ∃ t', playedTables uuid steps request t = some t' ∧ φ t' := by
    simpa [Option.any_eq_true] using observed
  obtain ⟨⟨result, db, s⟩, ended, rfl⟩ := Option.map_eq_some_iff.mp played
  exact ⟨_, holds, _, .of_play ended⟩

/-- Several requests, one after another, each with its number of statements and the
identifier that it draws. -/
def playedRun (requests : List (UUID × Nat × IdentityRequest)) (t : Tables) : Option Tables :=
  requests.foldlM (fun t ⟨uuid, steps, request⟩ => playedTables uuid steps request t) t

theorem runs_of_playedRun {requests : List (UUID × Nat × IdentityRequest)} {t t' : Tables}
    (played : playedRun requests t = some t') : Runs samplePlatform (fun _ _ => True) t t' := by
  have prolonged : ∀ (requests : List (UUID × Nat × IdentityRequest)) (t₁ : Tables),
      Runs samplePlatform (fun _ _ => True) t t₁ → playedRun requests t₁ = some t' →
      Runs samplePlatform (fun _ _ => True) t t' := by
    intro requests
    induction requests with
    | nil =>
        intro t₁ before ended
        cases ended
        exact before
    | cons first requests ih =>
        intro t₁ before ended
        obtain ⟨t₂, middle, rest⟩ := Option.bind_eq_some_iff.mp ended
        obtain ⟨⟨result, db, s⟩, finished, rfl⟩ := Option.map_eq_some_iff.mp middle
        exact ih _ (.step before trivial (.of_play finished)) rest
  exact prolonged requests t .start played

/-- A run that ends in tables of which something holds. -/
theorem exists_playedRun (requests : List (UUID × Nat × IdentityRequest)) (t : Tables)
    (φ : Tables → Prop) [DecidablePred φ]
    (observed : (playedRun requests t).any (fun t' => decide (φ t')) = true) :
    ∃ t', Runs samplePlatform (fun _ _ => True) t t' ∧ φ t' := by
  rw [Option.any_eq_true] at observed
  obtain ⟨t', ran, holds⟩ := observed
  exact ⟨t', runs_of_playedRun ran, of_decide_eq_true holds⟩

/-- A run and one more request. -/
theorem leaves_after_playedRun (requests : List (UUID × Nat × IdentityRequest)) (uuid : UUID)
    (steps : Nat) (request : IdentityRequest) (t : Tables) (φ : Tables → Tables → Prop)
    [∀ t₁ t₂, Decidable (φ t₁ t₂)]
    (observed : ((playedRun requests t).bind fun t₁ =>
      (playedTables uuid steps request t₁).map fun t₂ => decide (φ t₁ t₂)) = some true) :
    ∃ t₁ t₂ answer, Runs samplePlatform (fun _ _ => True) t t₁ ∧
      Leaves t₁ (request.handle samplePlatform) t₂ answer ∧ φ t₁ t₂ := by
  obtain ⟨t₁, ran, rest⟩ := Option.bind_eq_some_iff.mp observed
  obtain ⟨t₂, played, holds⟩ := Option.map_eq_some_iff.mp rest
  obtain ⟨⟨result, db, s⟩, ended, rfl⟩ := Option.map_eq_some_iff.mp played
  exact ⟨t₁, _, _, runs_of_playedRun ran, .of_play ended, of_decide_eq_true holds⟩

end LandVault
