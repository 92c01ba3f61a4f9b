import LandVault.Kernel.Uow
import LandVault.Library.Sessions

/-!
# Outlines of the statements that every request issues

The rules of sessions, at the statements of the kernel: a SELECT, a value from outside,
the two ways to write an audit entry, and the unit of work around a request.
-/

set_option autoImplicit false

namespace LandVault.Kernel

open Audit Library.Programs Library.ReadCommitted

variable {ι β : Type} [DecidableEq ι] {p : Protocol Tables Write} {index : ι}
  {A : Admission ι DbStatement (Database ι) DbSession (Choice Env)}
  {P R : Assertion (Database ι) DbSession} {Q : β → Assertion (Database ι) DbSession}
  {X : PyExc → Assertion (Database ι) DbSession}

/-- A SELECT, with its errors told apart. -/
theorem select_attempted {answer : View Tables Memo Env → Except PyExc β}
    (resting : Resting p engine index P) (value : ∀ b, Kept p engine index (Q b))
    (failed : ∀ e, Kept p engine index (X e))
    (refused : ∀ db s, s.broken = true → P db s → X .pendingRollback db s)
    (fails : ∀ db s e, P db s → e = .disconnected ∨ (∃ view, answer view = .error e) →
      X e (db.release index) (s.abort e none))
    (answers : ∀ (db : Database ι) (s : DbSession) env b, Held engine index db s →
      s.active = true → P db s →
      answer ⟨engine.view db s, s.memo, s.startedAt, env⟩ = .ok b → Q b db s) :
    Valid A (p.contract engine) index Q X P (select answer) := by
  refine Valid.attempted resting value failed refused ?_ ?_ ?_
  · intro db s env e w _ _ holds raised
    cases raised with
    | disconnected => exact fails db s _ holds (.inl rfl)
    | run raised =>
        cases given : answer ⟨engine.view db s, s.memo, s.startedAt, env⟩ with
        | ok b => simp [given, Except.map] at raised
        | error e' =>
            simp only [given, Except.map, Except.error.injEq] at raised
            exact fails db s _ holds (.inr ⟨_, raised ▸ given⟩)
    | answer raised =>
        obtain ⟨b, _, same⟩ := map_eq_ok raised
        cases same
    | violation wrote _ _ =>
        obtain ⟨b, _, same⟩ := map_eq_ok wrote
        cases same
  · intro db s env memo b _ _ held active holds ran
    obtain ⟨b', answered, same⟩ := map_eq_ok ran
    cases same
    exact answers db s env b held active holds answered
  · intro db s env memo b w _ _ _ _ _ ran
    obtain ⟨b', _, same⟩ := map_eq_ok ran
    cases same

theorem choose_outline {pick : Env → β} (resting : Resting p engine index P)
    (failed : ∀ e, Kept p engine index (X e)) :
    Valid A (p.contract engine) index (fun _ => P) X P (choose pick) :=
  Valid.choose resting (fun _ => resting.kept) failed fun _ _ _ _ _ _ holds => holds

/-- The row is one that the call may store. -/
def StoredFor (platform : Platform) (ctx : ExecutionContext) (call : AuditCall)
    (row : AuditLogRecord) : Prop :=
  ∃ prevHash entryUuid now recordUuid, storedRecord platform
    (buildEntry platform.sha256 ctx call prevHash entryUuid now) recordUuid = .ok row

/-- What such a row says of the call: all of it, the identifier when it is the `hex` of one. -/
theorem StoredFor.entry {platform : Platform} {ctx : ExecutionContext} {call : AuditCall}
    {row : AuditLogRecord} (stored : StoredFor platform ctx call row) :
    row.entry.action = call.action ∧ row.entry.resourceType = call.resourceType ∧
      row.entry.resourceId = call.resourceId ∧ row.entry.decision = call.decision ∧
      row.entry.principalId = ctx.principalId ∧
      row.entry.payload = call.payloadOrEmpty.normalised platform.normalise ∧
      ∀ id : Python.UUID, call.entryId = some id.hex → row.entry.entryId = id.hex := by
  obtain ⟨prevHash, entryUuid, now, recordUuid, made⟩ := stored
  rw [storedRecord_eq made]
  refine ⟨rfl, rfl, rfl, rfl, rfl, rfl, fun id given => ?_⟩
  have plain := Python.UUID.isHex32_hex id
  have nonempty : id.hex ≠ "" := fun empty => by simp [empty, Python.isHex32] at plain
  simp [AuditCall.entryIdOr, given, nonempty]

/-- The errors with which the statements of `audit_staged` can be refused. -/
def StagingError (e : PyExc) : Prop :=
  e = .disconnected ∨ (∃ message, e = .value message) ∨
    e = uniqueViolation "audit_log_pkey" ∨ e = uniqueViolation "audit_log_hash_key"

/-- A staged entry joins the pending writes. -/
theorem auditStaged_attempted (platform : Platform) (ctx : ExecutionContext) (call : AuditCall)
    (resting : Resting p engine index P) (kept : Kept p engine index R)
    (failed : ∀ e, Kept p engine index (X e))
    (refused : ∀ db s, s.broken = true → P db s → X .pendingRollback db s)
    (fails : ∀ db s e w, P db s → StagingError e → X e (db.release index) (s.abort e w))
    (stages : ∀ (db : Database ι) (s : DbSession) row, P db s → StoredFor platform ctx call row →
      R (db.acquire index (engine.guards (.insertAudit row)))
        { s with pending := s.pending ++ [.insertAudit row] }) :
    Valid A (p.contract engine) index (fun _ => R) X P (auditStaged platform ctx call) := by
  refine Valid.bind (N := fun _ => P) ?_ fun prevHash =>
    Valid.bind (N := fun _ => P) (choose_outline resting failed) fun chosen =>
      Valid.bind (N := fun _ => R) ?_ fun _ => .ret (.refl _)
  · refine select_attempted resting (fun _ => resting.kept) failed refused ?_
      fun _ _ _ _ _ _ holds _ => holds
    rintro db s e holds (rfl | ⟨view, raised⟩)
    · exact fails db s _ none holds (.inl rfl)
    · cases raised
  · refine Valid.attempted resting (fun _ => kept) failed refused ?_ ?_ ?_
    · intro db s env e w _ _ holds raised
      refine fails db s e w holds ?_
      cases raised with
      | disconnected => exact .inl rfl
      | run raised =>
          unfold storedRecord at raised
          split at raised
          · cases raised
          · cases raised
            exact .inr (.inl ⟨_, rfl⟩)
      | answer raised =>
          obtain ⟨row, _, same⟩ := map_eq_ok raised
          cases same
      | @violation memo answer w k wrote added _ =>
          obtain ⟨row, _, same⟩ := map_eq_ok wrote
          cases same
          have entry : k = Key.auditId row.id ∨ k = Key.auditHash row.hash := by
            simpa [engine, Write.adds, Write.rowEntries, Write.enters] using added
          rcases entry with rfl | rfl
          · exact .inr (.inr (.inl rfl))
          · exact .inr (.inr (.inr rfl))
    · intro db s env memo b _ _ _ _ _ ran
      obtain ⟨row, _, same⟩ := map_eq_ok ran
      cases same
    · intro db s env memo b w _ _ _ _ holds ran _
      obtain ⟨row, made, same⟩ := map_eq_ok ran
      cases same
      exact stages db s row holds ⟨_, _, _, _, made⟩

/-- The unit of work: after an `HTTPException` it commits what is pending, after any
other exception it rolls back. -/
theorem getDbSession_outline_of (ctx : ExecutionContext) {request : Request β}
    {Begun : Assertion (Database ι) DbSession} {Done : β → Assertion (Database ι) DbSession}
    {Failed : PyExc → Assertion (Database ι) DbSession}
    (config : Valid A (p.contract engine) index (fun _ => Begun) X P (setConfig (scopeOf ctx)))
    (body : Valid A (p.contract engine) index Done Failed Begun request)
    (commits : ∀ b, Valid A (p.contract engine) index (fun _ => Q b) Failed (Done b) commit)
    (rejects : ∀ status detail, Valid A (p.contract engine) index
      (fun _ => X (.http status detail)) X (Failed (.http status detail)) commit)
    (rollsBack : ∀ e : PyExc, e.isHttp = false → Valid A (p.contract engine) index
      (fun _ => X e) X (Failed e) rollback) :
    Valid A (p.contract engine) index Q X P (getDbSession ctx request) := by
  refine config.bind fun _ => Valid.handle (N := Failed) ?_ fun e => ?_
  · exact body.bind fun b => (commits b).bind fun _ => .ret (.refl _)
  · cases e with
    | http status detail => exact (rejects status detail).bind fun _ => .throw (.refl _)
    | _ => exact (rollsBack _ rfl).bind fun _ => .throw (.refl _)

end LandVault.Kernel
