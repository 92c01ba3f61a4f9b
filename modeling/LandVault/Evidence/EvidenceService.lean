import LandVault.Evidence.AttributionService
import LandVault.Evidence.EvidenceRepository

/-!
# Uploading, hashing and sealing evidence

`EvidenceService` (`app/contexts/evidence/application/evidence_service.py`). An upload
writes the content to storage, records it, reads it back and records its digest;
`record_upload` records a content that is in storage already, and `mark_hashed` a digest
that the caller gives.
-/

set_option autoImplicit false

namespace LandVault.Evidence

open Kernel Kernel.Audit Identity Library.JsonText Library.Programs Library.ReadCommitted Python

/-- What the Evidence context takes from outside, besides the audit log:
`hashlib.sha256(data).hexdigest()`. -/
structure EvidencePlatform extends Platform where
  hexdigest : List UInt8 → String

/-! ## Answers -/

/-- `_conflict`. -/
def conflict (detail : String) : PyExc := .http 409 detail

/-- `_not_found_parcel`. -/
def notFoundParcel : PyExc := .http 404 "parcel not found"

def uploadForbidden : PyExc :=
  .http 403 "only the parcel's creator or a governance role may submit evidence for it"

/-- `_evidence_view`: every field. -/
abbrev EvidenceView := EvidenceRecord

/-! ## What the operations share -/

/-- `_load_parcel_authority_in_scope`. -/
def loadParcelAuthorityInScope (ctx : ExecutionContext) (parcelId : String) :
    Request ParcelAuthorityInfo := do
  match ← ParcelExistencePort.getParcelAuthority parcelId with
  | none => throw notFoundParcel
  | some authority => if inScope ctx authority.tenantId then pure authority else throw notFoundParcel

/-- `_load_in_scope`. -/
def loadInScope (ctx : ExecutionContext) (evidenceId : String) : Request EvidenceRecord := do
  match ← PostgresEvidenceRepository.get evidenceId with
  | none => throw notFound
  | some record => if inScope ctx record.tenantId then pure record else throw notFound

/-- The answers to the errors of `EvidenceRecord`. -/
def orRefused {α : Type} : Except PyExc α → Request α
  | .ok value => pure value
  | .error (.evidenceSealed message) | .error (.evidenceLifecycle message) =>
      throw (conflict message)
  | .error (.value message) => throw (badRequest message)
  | .error error => throw error

/-- An entry about a record. -/
def auditRecord (platform : Platform) (ctx : ExecutionContext) (action decision : String)
    (record : EvidenceRecord) (entryId : Option String) (payload : Payload) : Request Unit := do
  let _ ← audit platform ctx
    { action
      entryId
      resourceType := "evidence_record"
      resourceId := some record.evidenceId.str
      decision := some decision
      payload := some payload }

/-- The payload of an upload; `size_bytes` is a number. -/
def uploadedPayload (record : EvidenceRecord) : Payload :=
  .dict
    [("tenant_id", .string record.tenantId),
     ("parcel_id", .string record.parcelId),
     ("evidence_type", .string record.evidenceType),
     ("size_bytes", .number (.int record.sizeBytes))]
    (by simp [Json.canonical])

/-! ## The operations -/

/-- What a caller says of a content. -/
structure Upload where
  filename : String
  mimeType : String
  basis : String
  evidenceType : String

/-- The record of an upload, stored under an `audit_ref` that is chosen before. -/
def addRecord (ctx : ExecutionContext) (parcelId : String) (upload : Upload) (sizeBytes : Int)
    (storageKey : String) : Request (EvidenceRecord × String) := do
  let auditId ← choose fun env => env.uuid.hex
  let (evidenceId, now) ← choose fun env => (env.uuid, env.now)
  let record ← orBadRequest <| EvidenceRecord.new evidenceId now (ctx.tenantId.getD "") parcelId
    ctx.principalId upload.filename upload.mimeType sizeBytes storageKey upload.basis
    upload.evidenceType (some auditId)
  let record ← PostgresEvidenceRepository.add record
  pure (record, auditId)

/-- The record with its digest. -/
def storeHash (platform : Platform) (ctx : ExecutionContext) (record : EvidenceRecord) :
    Request EvidenceView := do
  let record ← PostgresEvidenceRepository.markHashed record
  auditRecord platform ctx "evidence.hashed" "PERMIT" record none <|
    .details [("tenant_id", .text record.tenantId), ("sha256", .text record.sha256)]
  pure record

/-- `upload_evidence`. -/
def uploadEvidence (platform : EvidencePlatform) (ctx : ExecutionContext) (parcelId : String)
    (upload : Upload) (data : List UInt8) : Request EvidenceView := do
  if !truthy ctx.tenantId then
    throw (badRequest "caller has no tenant to record evidence within")
  if data.isEmpty then throw (badRequest "uploaded content is empty")
  let authority ← loadParcelAuthorityInScope ctx parcelId
  if !canMutate ctx authority.createdBy then
    let _ ← audit platform.toPlatform ctx
      { action := "evidence.upload_denied"
        resourceType := "parcel"
        resourceId := some parcelId
        decision := some "DENY"
        payload := some <| .details
          [("tenant_id", .text authority.tenantId),
           ("reason", .text "not_creator_and_not_governance")] }
    throw uploadForbidden
  let uploadSha256 := platform.hexdigest data
  let storageKey ← choose fun env =>
    "evidence/" ++ ctx.tenantId.getD "" ++ "/" ++ parcelId ++ "/" ++ env.uuid.hex
  StoragePort.put
  let (record, auditId) ← addRecord ctx parcelId upload data.length storageKey
  auditRecord platform.toPlatform ctx "evidence.uploaded" "PERMIT" record (some auditId)
    (uploadedPayload record)
  -- what storage holds by now, not what was received
  let readback ← StoragePort.get storageKey
  let readbackSha256 := platform.hexdigest readback
  if readbackSha256 ≠ uploadSha256 then
    auditRecord platform.toPlatform ctx "evidence.integrity_check_failed" "DENY" record none <|
      .details
        [("tenant_id", .text record.tenantId),
         ("upload_sha256", .text uploadSha256),
         ("readback_sha256", .text readbackSha256)]
    throw (.evidenceIntegrity ("read-back hash does not match upload-time hash for evidence " ++
      record.evidenceId.str))
  let record ← Program.ofExcept (record.markHashed readbackSha256)
  storeHash platform.toPlatform ctx record

/-- `record_upload`. -/
def recordUpload (platform : EvidencePlatform) (ctx : ExecutionContext) (parcelId : String)
    (upload : Upload) (sizeBytes : Int) (storageKey : String) : Request EvidenceView := do
  if !truthy ctx.tenantId then
    throw (badRequest "caller has no tenant to record evidence within")
  let (record, auditId) ← addRecord ctx parcelId upload sizeBytes storageKey
  auditRecord platform.toPlatform ctx "evidence.uploaded" "PERMIT" record (some auditId) <|
    .details
      [("tenant_id", .text record.tenantId),
       ("parcel_id", .text record.parcelId),
       ("evidence_type", .text record.evidenceType)]
  pure record

/-- `get_evidence`. -/
def getEvidence (ctx : ExecutionContext) (evidenceId : String) : Request EvidenceView :=
  loadInScope ctx evidenceId

/-- `list_evidence_for_parcel`. -/
def listEvidenceForParcel (ctx : ExecutionContext) (parcelId : String) :
    Request (List EvidenceView) := do
  let _ ← loadParcelAuthorityInScope ctx parcelId
  let records ← PostgresEvidenceRepository.listForParcel parcelId
  pure (records.filter fun record => inScope ctx record.tenantId)

/-- `mark_hashed`. -/
def markHashed (platform : EvidencePlatform) (ctx : ExecutionContext) (evidenceId sha256 : String) :
    Request EvidenceView := do
  let record ← loadInScope ctx evidenceId
  let record ← orRefused (record.markHashed sha256)
  storeHash platform.toPlatform ctx record

/-- `seal`. -/
def sealEvidence (platform : EvidencePlatform) (ctx : ExecutionContext)
    (evidenceId wormGrade : String) : Request EvidenceView := do
  let record ← loadInScope ctx evidenceId
  let record ← orRefused (record.sealRecord wormGrade)
  let record ← PostgresEvidenceRepository.sealRecord record
  auditRecord platform.toPlatform ctx "evidence.sealed" "PERMIT" record none <|
    .details [("tenant_id", .text record.tenantId), ("worm_grade", .text record.wormGrade)]
  pure record

/-- `apply_legal_hold`. -/
def applyLegalHold (platform : EvidencePlatform) (ctx : ExecutionContext)
    (evidenceId reason : String) : Request EvidenceView := do
  let record ← loadInScope ctx evidenceId
  let record ← orBadRequest (record.applyLegalHold reason ctx.principalId)
  let record ← PostgresEvidenceRepository.setLegalHold record
  auditRecord platform.toPlatform ctx "evidence.legal_hold.applied" "PERMIT" record none <|
    .details [("tenant_id", .text record.tenantId), ("reason", .text reason)]
  pure record

/-- `release_legal_hold`. -/
def releaseLegalHold (platform : EvidencePlatform) (ctx : ExecutionContext) (evidenceId : String) :
    Request EvidenceView := do
  let record ← loadInScope ctx evidenceId
  let record ← PostgresEvidenceRepository.setLegalHold record.releaseLegalHold
  auditRecord platform.toPlatform ctx "evidence.legal_hold.released" "PERMIT" record none <|
    .details [("tenant_id", .text record.tenantId)]
  pure record

/-! ## Requests -/

/-- A call of the service. -/
inductive EvidenceRequest where
  | upload (parcelId : String) (details : Upload) (data : List UInt8)
  | recordUpload (parcelId : String) (details : Upload) (sizeBytes : Int) (storageKey : String)
  | get (evidenceId : String)
  | listForParcel (parcelId : String)
  | markHashed (evidenceId sha256 : String)
  | sealRecord (evidenceId wormGrade : String)
  | applyLegalHold (evidenceId reason : String)
  | releaseLegalHold (evidenceId : String)

/-- What a call is answered with. -/
inductive EvidenceAnswer where
  | record (view : EvidenceView)
  | records (views : List EvidenceView)

def EvidenceRequest.serve (platform : EvidencePlatform) (ctx : ExecutionContext) :
    EvidenceRequest → Request EvidenceAnswer
  | .upload parcelId details data => do
      return .record (← uploadEvidence platform ctx parcelId details data)
  | .recordUpload parcelId details sizeBytes storageKey => do
      return .record (← Evidence.recordUpload platform ctx parcelId details sizeBytes storageKey)
  | .get evidenceId => do return .record (← getEvidence ctx evidenceId)
  | .listForParcel parcelId => do return .records (← listEvidenceForParcel ctx parcelId)
  | .markHashed evidenceId sha256 => do
      return .record (← Evidence.markHashed platform ctx evidenceId sha256)
  | .sealRecord evidenceId wormGrade => do
      return .record (← sealEvidence platform ctx evidenceId wormGrade)
  | .applyLegalHold evidenceId reason => do
      return .record (← Evidence.applyLegalHold platform ctx evidenceId reason)
  | .releaseLegalHold evidenceId => do
      return .record (← Evidence.releaseLegalHold platform ctx evidenceId)

end LandVault.Evidence
