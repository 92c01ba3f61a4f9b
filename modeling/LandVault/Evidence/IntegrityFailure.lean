import LandVault.Library.Playing
import LandVault.Rejections

/-!
# An upload whose content was not stored as it was received

`upload_evidence` records a content, reads it back and compares the digests. Where they
differ it raises `EvidenceIntegrityError`, whose documentation says that the record stays
RECEIVED and unhashed as evidence of the failure. The error is no `HTTPException`, so the
unit of work rolls the record back; the entry `evidence.uploaded` was written in a session
of its own and stays.
-/

set_option autoImplicit false

namespace LandVault.Evidence

open Kernel Kernel.Audit Identity Library.Programs Library.ReadCommitted Python

/-! ## The upload up to the read-back -/

/-- `upload_evidence` up to the read-back: the record, and the digest of what storage
holds. -/
def receive (platform : EvidencePlatform) (ctx : ExecutionContext) (parcelId : String)
    (upload : Upload) (data : List UInt8) : Request (EvidenceRecord × String) := do
  if !truthy ctx.tenantId then
    throw (badRequest "caller has no tenant to record evidence within")
  if data.isEmpty then throw (badRequest "uploaded content is empty")
  let authority ← loadParcelAuthorityInScope ctx parcelId
  if !canMutate ctx authority.createdBy then
    let _ ← audit platform.toPlatform ctx
      { action := "evidence.upload_denied"
        resourceType := "parcel"
        resourceId := some parcelId
        decision := some "DENY"
        payload := some <| .details
          [("tenant_id", .text authority.tenantId),
           ("reason", .text "not_creator_and_not_governance")] }
    throw uploadForbidden
  let storageKey ← choose fun env =>
    "evidence/" ++ ctx.tenantId.getD "" ++ "/" ++ parcelId ++ "/" ++ env.uuid.hex
  StoragePort.put
  let (record, auditId) ← addRecord ctx parcelId upload data.length storageKey
  auditRecord platform.toPlatform ctx "evidence.uploaded" "PERMIT" record (some auditId)
    (uploadedPayload record)
  let readback ← StoragePort.get storageKey
  pure (record, platform.hexdigest readback)

/-- The rest of `upload_evidence`: the comparison, and the digest of the record. -/
def verify (platform : EvidencePlatform) (ctx : ExecutionContext) (data : List UInt8)
    (received : EvidenceRecord × String) : Request EvidenceView := do
  let (record, readbackSha256) := received
  if readbackSha256 ≠ platform.hexdigest data then
    auditRecord platform.toPlatform ctx "evidence.integrity_check_failed" "DENY" record none <|
      .details
        [("tenant_id", .text record.tenantId),
         ("upload_sha256", .text (platform.hexdigest data)),
         ("readback_sha256", .text readbackSha256)]
    throw (.evidenceIntegrity ("read-back hash does not match upload-time hash for evidence " ++
      record.evidenceId.str))
  let record ← Program.ofExcept (record.markHashed readbackSha256)
  storeHash platform.toPlatform ctx record

theorem uploadEvidence_eq (platform : EvidencePlatform) (ctx : ExecutionContext)
    (parcelId : String) (upload : Upload) (data : List UInt8) :
    uploadEvidence platform ctx parcelId upload data =
      (receive platform ctx parcelId upload data).bind (verify platform ctx data) := by
  unfold uploadEvidence receive
  simp only [Program.bind_eq]
  split
  · rfl
  split
  · rfl
  simp only [Program.bind_assoc]
  congr 1
  funext authority
  split
  · simp only [Program.bind_assoc]
    rfl
  simp only [Program.bind_assoc]
  rfl

/-! ## What the request leaves -/

/-- `get_db_session` around a request, once the scope is set. -/
def settled {α : Type} (request : Request α) : Request α :=
  tryCatch
    (do
      let answer ← request
      commit
      pure answer)
    fun
      | .http status detail => do
          commit
          throw (.http status detail)
      | error => do
          rollback
          throw error

theorem getDbSession_eq {α : Type} (ctx : ExecutionContext) (request : Request α) :
    getDbSession ctx request = (setConfig (scopeOf ctx)).bind fun _ => settled request :=
  rfl

/-- The log has an entry that the record was uploaded. -/
def Announced (t : Tables) (record : EvidenceRecord) : Prop :=
  ∃ entry ∈ t.auditLog, entry.action = "evidence.uploaded" ∧
    entry.resourceId = some record.evidenceId.str

/-- The record is stored as it was received, without a digest. -/
def Retained (t : Tables) (record : EvidenceRecord) : Prop :=
  ∃ row ∈ t.evidenceRecords, row.evidenceId = record.evidenceId ∧ row.status = .received ∧
    row.sha256 = none

/-- Every entry of an upload names a record that is stored. -/
def Accounted (t : Tables) : Prop :=
  ∀ entry ∈ t.auditLog, entry.action = "evidence.uploaded" →
    ∃ row ∈ t.evidenceRecords, entry.resourceId = some row.evidenceId.str

/-- A request that has stored `record`, has read back what does not hash to what it
received, and has ended, with its unit of work, in these tables. -/
def Mismatched (platform : EvidencePlatform) (ctx : ExecutionContext) (parcelId : String)
    (upload : Upload) (data : List UInt8) (t : Tables) (record : EvidenceRecord) (t' : Tables) :
    Prop :=
  ∃ clock before after readbackSha256 db s result db' s',
    play (postgres Unit) () before { tables := t, clock } freshSession
        ((setConfig (scopeOf ctx)).bind fun _ => receive platform ctx parcelId upload data) =
      some (.ok (record, readbackSha256), db, s) ∧
    readbackSha256 ≠ platform.hexdigest data ∧
    play (postgres Unit) () (before ++ after) { tables := t, clock } freshSession
        (getDbSession ctx (uploadEvidence platform ctx parcelId upload data)) =
      some (result, db', s') ∧
    db'.tables = t'

end LandVault.Evidence

namespace LandVault

open Kernel Kernel.Audit Identity Registry Evidence Library.Programs Library.ReadCommitted Python

section Rules

variable {α β : Type} {allowed : Tables → Prop} {C : Env → Prop} {x : Transaction} {u : Tables}
  {db : Database Unit} {s : DbSession} {platform : EvidencePlatform} {ctx : ExecutionContext}

theorem keeps_choose {L : Assertion (Database Unit) DbSession} {pick : Env → β}
    {E : PyExc → Assertion (Database Unit) DbSession} (holds : L db s) :
    Keeps allowed C (fun b db s => L db s ∧ ∃ env, C env ∧ b = pick env) E (choose pick) db s := by
  refine meets_choose trivial fun db₁ choice turn chosen => ?_
  cases turn.rely.eq_of_subsingleton
  exact ⟨holds, choice.env, chosen, rfl⟩

/-- An audit entry is in the log once it is written. -/
theorem Staged.logs (staged : Staged x u db s) (platform : Platform) (ctx : ExecutionContext)
    (call : AuditCall) :
    Keeps allowed C
      (fun _ db s => Staged x u db s ∧ ∃ entry ∈ db.tables.auditLog, entry.action = call.action ∧
        entry.resourceId = call.resourceId)
      (Failed x u) (Kernel.audit platform ctx call) db s := by
  have failed : ∀ e db s, e.isHttp = false ∧ Staged x u db s → Failed x u e db s :=
    fun e db s failed => ⟨failed.1, .inr failed.2⟩
  refine Meets.bind (N := fun _ => Staged x u) ?_ fun prevHash db s staged =>
    staged.choose.bind ?_
  · have reads : Keeps allowed C (fun _ => Staged x u) (fun e db s => e.isHttp = false ∧
        Staged x u db s) (.perform (.eager fun tables env =>
          .ok (none, lastHash tables.auditLog env.pick))) db s :=
      apart_staged.eager staged (fun _ _ _ raised => nomatch raised) fun _ _ _ _ ran => nomatch ran
    exact reads.mono (fun _ _ _ staged => staged) failed
  rintro ⟨uuid4, now⟩ db s ⟨staged, _⟩
  refine Meets.bind (N := fun _ db s => Staged x u db s ∧ ∃ entry ∈ db.tables.auditLog,
    entry.action = call.action ∧ entry.resourceId = call.resourceId) ?_ fun _ db s logged => logged
  refine meets_eager trivial ?_ ?_
  · intro db₁ env b w turn ran
    obtain ⟨row, _, same⟩ := map_eq_ok ran
    cases same
    have invariant : allowed db₁.tables.records := turn.invariant
    rw [← Tables.records_insertAudit db₁.tables row] at invariant
    exact ⟨invariant, trivial⟩
  · intro db₁ choice answer db' s' turn _ ran held
    cases turn.rely.eq_of_subsingleton
    cases ran with
    | disconnected => exact ⟨rfl, .inr staged⟩
    | raised raised => exact ⟨insertedRecord_notHttp (map_eq_error raised), .inr staged⟩
    | violation _ _ _ => exact ⟨rfl, .inr staged⟩
    | read ran =>
        obtain ⟨row, _, same⟩ := map_eq_ok ran
        cases same
    | wrote ran _ =>
        obtain ⟨row, made, same⟩ := map_eq_ok ran
        cases same
        have entry := storedRecord_eq (storedRecord_of_inserted made)
        refine ⟨apart_staged _ _ _ _ staged (Tables.records_insertAudit _ row) rfl rfl rfl rfl rfl
          held, row, List.mem_append_right _ (List.mem_singleton_self row), ?_, ?_⟩
        · exact congrArg AuditEntry.action entry
        · exact congrArg AuditEntry.resourceId entry

theorem Staged.logsRecord (staged : Staged x u db s) (action decision : String)
    (record : EvidenceRecord) (entryId : Option String) (payload : Payload) :
    Keeps allowed C
      (fun _ db s => Staged x u db s ∧ ∃ entry ∈ db.tables.auditLog, entry.action = action ∧
        entry.resourceId = some record.evidenceId.str)
      (Failed x u)
      (Evidence.auditRecord platform.toPlatform ctx action decision record entryId payload) db s :=
  (staged.logs _ _ _).bind fun _ _ _ logged => logged

/-- What storage holds is looked up outside the database. -/
theorem keeps_fetch {L : Assertion (Database Unit) DbSession} (holds : L db s)
    (staged : ∀ db s, L db s → Staged x u db s) (storageKey : String) :
    Keeps allowed C (fun _ => L) (Failed x u) (StoragePort.get storageKey) db s := by
  refine (keeps_choose holds).bind ?_
  rintro answer db s ⟨holds, _⟩
  cases answer with
  | ok data => exact holds
  | error failure => exact ⟨failure.error_notHttp, .inr (staged db s holds)⟩

/-- A new row has a key of its own. -/
theorem Staged.fresh {row : EvidenceRecordModel}
    (staged : Staged x (u.apply (.insertEvidence row)) db s) :
    ∀ stored ∈ u.evidenceRecords, stored.evidenceId ≠ row.evidenceId := by
  have unique : ((u.evidenceRecords ++ [row]).map (·.evidenceId)).Nodup :=
    Entity.keys_nodup .evidence staged.keys
  intro stored member same
  rw [List.map_append, List.nodup_append] at unique
  exact unique.2.2 _ (List.mem_map_of_mem member) _ (List.mem_singleton_self _) same

theorem Staged.addsRecord (staged : Staged x u db s) (parcelId : String) (upload : Upload)
    (sizeBytes : Int) (storageKey : String) :
    Keeps allowed C
      (fun added db s => Going x db s ∧
        ∀ stored ∈ u.evidenceRecords, stored.evidenceId ≠ added.1.evidenceId)
      (Raising x (Unchanged u)) (Evidence.addRecord ctx parcelId upload sizeBytes storageKey)
      db s := by
  refine staged.choose.bind ?_
  rintro auditId db s ⟨staged, _⟩
  refine staged.choose.bind ?_
  rintro ⟨evidenceId, now⟩ db s ⟨staged, _⟩
  refine (staged.orUnrecorded _).bind ?_
  rintro record db s ⟨staged, _⟩
  refine keeps_then (staged.addEvidence record) ?_
  rintro _ db s ⟨row, _, rfl, _, _, staged⟩
  exact ⟨⟨_, staged⟩, staged.fresh⟩

/-- The record is staged and announced, under an identifier of its own. -/
def Received (x : Transaction) (record : EvidenceRecord) : Assertion (Database Unit) DbSession :=
  fun db s => Going x db s ∧ Announced db.tables record ∧
    ∀ stored ∈ x.base.evidenceRecords, stored.evidenceId ≠ record.evidenceId

theorem Staged.receive (staged : Staged x x.base db s) (parcelId : String) (upload : Upload)
    (data : List UInt8) :
    Keeps allowed C (fun received => Received x received.1) (Raising x (Unchanged x.base))
      (Evidence.receive platform ctx parcelId upload data) db s := by
  refine .ite (fun _ => staged.raise rfl) fun _ => ?_
  refine .ite (fun _ => staged.raise rfl) fun _ => ?_
  refine (staged.parcelInScope parcelId).bind ?_
  rintro authority db s ⟨staged, _⟩
  refine .ite (fun _ => staged.audited _ fun _ _ staged => staged.raise rfl) fun _ => ?_
  refine staged.choose.bind ?_
  rintro storageKey db s ⟨staged, _⟩
  refine keeps_then staged.put fun _ db s staged => ?_
  refine (staged.addsRecord parcelId upload data.length storageKey).bind ?_
  rintro ⟨record, auditId⟩ db s ⟨⟨added, staged⟩, fresh⟩
  refine keeps_then (staged.logsRecord _ _ _ _ _) fun _ db s logged => ?_
  refine keeps_then (keeps_fetch (L := fun db s => Staged x added db s ∧
    Announced db.tables record) logged (fun _ _ logged => logged.1) storageKey) ?_
  rintro readback db s ⟨staged, announced⟩
  exact ⟨⟨added, staged⟩, announced, fresh⟩

/-- The same, from the start of the unit of work. -/
theorem keeps_received {t : Tables} (idle : Idle t db s) (parcelId : String) (upload : Upload)
    (data : List UInt8) :
    Keeps (fun _ => True) C
      (fun received db s => ∃ x : Transaction, x.base = t ∧ Received x received.1 db s)
      (fun _ _ _ => True)
      ((setConfig (scopeOf ctx)).bind fun _ => Evidence.receive platform ctx parcelId upload data)
      db s := by
  refine (idle.setConfig (scopeOf ctx) ?_).bind ?_
  · intros
    trivial
  rintro _ db s ⟨startedAt, _, staged⟩
  exact (Staged.receive (x := ⟨t, scopeOf ctx, startedAt⟩) staged parcelId upload data).mono
    (fun _ _ _ received => ⟨_, rfl, received⟩) fun _ _ _ _ => trivial

/-- Content that does not hash to what was received ends the request. -/
theorem Staged.verify_mismatch (staged : Staged x u db s) {data : List UInt8}
    {record : EvidenceRecord} {readbackSha256 : String}
    (differs : readbackSha256 ≠ platform.hexdigest data) :
    Keeps allowed C (fun _ _ _ => False) (Failed x u)
      (Evidence.verify platform ctx data (record, readbackSha256)) db s := by
  unfold Evidence.verify
  simp only [if_pos differs]
  exact (staged.auditRecord _ _ _ _ _).bind fun _ db s staged => ⟨rfl, .inr staged⟩

/-- What fails without an `HTTPException` is rolled back. -/
theorem keeps_settled {request : Request α}
    (fails : Keeps allowed C (fun _ _ _ => False) (Failed x u) request db s) :
    Keeps allowed C (fun _ _ _ => False) (fun _ db _ => db.tables.records = x.base)
      (Evidence.settled request) db s := by
  refine Meets.handle (N := Failed x u) (keeps_never fails) ?_
  rintro e db s failed
  have committed : db.tables.records = x.base := failed.aborted.2
  cases e with
  | http status detail => cases failed.1
  | _ =>
      exact ((keeps_rollback committed).mono (fun _ _ _ after => after)
        fun _ _ _ absurd => absurd.elim).bind fun _ db s after => after.1.committed

end Rules
end LandVault

namespace LandVault.Evidence

open Kernel Kernel.Audit Identity Registry Library.Programs Library.ReadCommitted Python

theorem play_settled {α β : Type} {choices rest : List (Choice Env)} {db db' : Database Unit}
    {s s' : DbSession} {program : Request β} {next : β → Request α} {b : β}
    (first : play (postgres Unit) () choices db s program = some (.ok b, db', s')) :
    play (postgres Unit) () (choices ++ rest) db s (settled (program.bind next)) =
      play (postgres Unit) () rest db' s' (settled (next b)) := by
  simp only [settled, Program.tryCatch_eq, Program.bind_eq, Program.bind_assoc]
  exact play_bind_handle first

/-- **A failed integrity check leaves no record, and an entry that names none**: whatever
the tables, the request and what storage does. -/
theorem mismatch_unaccounted {platform : EvidencePlatform} {ctx : ExecutionContext}
    {parcelId : String} {upload : Upload} {data : List UInt8} {t t' : Tables}
    {record : EvidenceRecord} (unique : t.keys.Nodup)
    (mismatched : Mismatched platform ctx parcelId upload data t record t') :
    ¬ Retained t' record ∧ ¬ Accounted t' := by
  obtain ⟨clock, before, after, readbackSha256, db, s, result, db', s', begun, differs, finished,
    rfl⟩ := mismatched
  have idle : Idle t.records { tables := t, clock } freshSession :=
    ⟨rfl, rfl, rfl, rfl, rfl, unique⟩
  obtain ⟨store, session, x, base, ⟨u, staged⟩, ⟨entry, logged, action, resource⟩, fresh⟩ :=
    Meets.played (keeps_received (C := fun _ => True) idle parcelId upload data)
      ⟨⟨by simp, unique⟩, trivial⟩
      ⟨by simp [freshSession], unique, fun _ => rfl, Nat.zero_le _⟩ (fun _ _ => trivial) begun
  have rest : play (postgres Unit) () after db s
      (settled (verify platform ctx data (record, readbackSha256))) = some (result, db', s') := by
    obtain ⟨first, second, _, db₁, s₁, rfl, opened, received⟩ := exists_play_bind begun
    rw [getDbSession_eq, uploadEvidence_eq, List.append_assoc, play_bind opened,
      play_settled received] at finished
    exact finished
  have committed : db'.tables.records = t.records := by
    have fails : Keeps (fun _ => True) (fun _ => True) (fun _ _ _ => False) (Failed x u)
        (verify platform ctx data (record, readbackSha256)) db s :=
      staged.verify_mismatch differs
    have ended := (Meets.played (keeps_settled fails) store session (fun _ _ => trivial) rest).2.2
    cases result with
    | ok view => exact ended.elim
    | error e => exact ended.trans base
  have kept : entry ∈ db'.tables.auditLog := by
    have always : Meets .always (fun _ => True) ((logProtocol db.tables.auditLog).contract engine :
        Contract (postgres Unit)) () (fun _ _ _ => True) (fun _ _ _ => True)
        (settled (verify platform ctx data (record, readbackSha256))) db s :=
      meets_always (fun _ => trivial)
        (fun t₁ w (before : _ <+: _) => before.trans (t₁.auditLog_prefix_apply w))
        (fun _ _ _ => trivial) _
    have stays : db.tables.auditLog <+: db'.tables.auditLog :=
      (Meets.played always ⟨store.1, List.prefix_rfl⟩ session (fun _ _ => trivial) rest).1.2
    exact stays.subset logged
  have same : db'.tables.evidenceRecords = x.base.evidenceRecords := by
    rw [base, ← committed]
    rfl
  constructor
  · rintro ⟨row, member, named, _⟩
    exact fresh row (same ▸ member) named
  · intro accounted
    obtain ⟨row, member, named⟩ := accounted entry kept action
    refine fresh row (same ▸ member) (UUID.str_inj ?_)
    exact (Option.some.inj (resource.symm.trans named)).symm

/-! ## Storage that gives back another byte -/

def uploadPlatform : EvidencePlatform where
  sha256 := actionDigest
  normalise := id
  hexdigest := fun data => String.ofList (data.map fun byte => Char.ofNat byte.toNat)

def uploadTables : Tables where
  tenants := [{ id := "t-1" }]
  identityUsers :=
    [{ id := sampleId 1, tenantId := "t-1", identitySubject := "s-1", email := "1" }]
  parcels :=
    [{ parcelId := sampleId 2, tenantId := "t-1", countryCode := "NG", origin := "o"
       createdBy := sampleId 1, createdAt := .now 0, updatedAt := .now 0 }]

/-- The creator of the parcel. -/
def uploader : ExecutionContext := { principalId := (sampleId 1).str, tenantId := some "t-1" }

def surveyPlan : Upload :=
  { filename := "plan.pdf", mimeType := "application/pdf", basis := "", evidenceType := "OTHER" }

/-- The outside world, with identifiers of its own for each half of the request. -/
def alters (id : UUID) : Choice Env :=
  { env := { uuid := id, now := sampleNow, content := fun _ => .ok [2] } }

/-- The request stores the record, reads back another byte, and ends with no record. -/
theorem altered_upload : ∃ record t',
    Mismatched uploadPlatform uploader (sampleId 2).str surveyPlan [1] uploadTables record t' ∧
      t'.evidenceRecords = [] := by
  have received : ((play (postgres Unit) () (List.replicate 11 (alters (sampleId 3)))
      { tables := uploadTables } freshSession ((setConfig (scopeOf uploader)).bind fun _ =>
        receive uploadPlatform uploader (sampleId 2).str surveyPlan [1])).bind
          fun run => run.1.toOption).any (fun received =>
            received.2 != uploadPlatform.hexdigest [1]) = true := by
    decide +kernel
  have ended : (play (postgres Unit) ()
      (List.replicate 11 (alters (sampleId 3)) ++ List.replicate 4 (alters (sampleId 4)))
      { tables := uploadTables } freshSession (getDbSession uploader
        (uploadEvidence uploadPlatform uploader (sampleId 2).str surveyPlan [1]))).any
          (fun run => run.2.1.tables.evidenceRecords == []) = true := by
    decide +kernel
  rw [Option.any_eq_true] at received ended
  obtain ⟨⟨record, readbackSha256⟩, first, differs⟩ := received
  obtain ⟨⟨begun, db, s⟩, played, value⟩ := Option.bind_eq_some_iff.mp first
  obtain ⟨⟨result, db', s'⟩, finished, empty⟩ := ended
  refine ⟨record, db'.tables, ⟨0, _, _, readbackSha256, db, s, result, db', s', ?_, ?_, finished,
    rfl⟩, by simpa using empty⟩
  · cases begun with
    | error e => cases value
    | ok found =>
        cases value
        exact played
  · simpa using differs

/-- So the record is not what is left of the failure. -/
theorem altered_upload_lost : ∃ record t',
    Mismatched uploadPlatform uploader (sampleId 2).str surveyPlan [1] uploadTables record t' ∧
      ¬ (Retained t' record ∧ Accounted t') := by
  obtain ⟨record, t', mismatched, empty⟩ := altered_upload
  refine ⟨record, t', mismatched, ?_⟩
  rintro ⟨⟨row, member, _⟩, _⟩
  simp [empty] at member

/-- Nor is the entry's record stored. -/
theorem mismatch_unaccounted_altered : ∃ record t',
    Mismatched uploadPlatform uploader (sampleId 2).str surveyPlan [1] uploadTables record t' ∧
      ¬ Retained t' record ∧ ¬ Accounted t' := by
  obtain ⟨record, t', mismatched, _⟩ := altered_upload
  exact ⟨record, t', mismatched, mismatch_unaccounted (by decide) mismatched⟩

end LandVault.Evidence
