import LandVault.Kernel.Postgres
import LandVault.Python.Values

/-!
# Evidence records

The aggregate of `app/contexts/evidence/domain/evidence_record.py` and its row. The
status moves from RECEIVED over HASHED to SEALED; a legal hold is orthogonal to it.
-/

set_option autoImplicit false

namespace LandVault.Evidence

open LandVault.Kernel LandVault.Python

inductive EvidenceStatus where
  | received | hashed | sealed
  deriving DecidableEq

def EvidenceStatus.value : EvidenceStatus → String
  | .received => "RECEIVED"
  | .hashed => "HASHED"
  | .sealed => "SEALED"

/-- `EVIDENCE_TYPES`. -/
def evidenceTypes : List String :=
  ["SURVEY_PLAN", "TITLE_DOCUMENT", "IDENTITY_DOCUMENT", "OTHER"]

/-- A record whose parcel is given as `I` and its principals as `P`. -/
structure EvidenceRecordOf (I P : Type) where
  evidenceId : UUID
  tenantId : String
  parcelId : I
  uploadedBy : P
  filename : String := ""
  mimeType : String := ""
  sizeBytes : Int := 1
  storageKey : String := ""
  basis : String := ""
  evidenceType : String := "OTHER"
  status : EvidenceStatus := .received
  sha256 : Option String := none
  wormGrade : Option String := none
  legalHold : Bool := false
  legalHoldReason : Option String := none
  legalHoldBy : Option P := none
  auditRef : Option String := none
  createdAt : Timestamp := .now 0
  deriving DecidableEq

/-- `EvidenceRecord`. -/
abbrev EvidenceRecord := EvidenceRecordOf String String

/-- `EvidenceRecordModel`. -/
abbrev EvidenceRecordModel := EvidenceRecordOf UUID UUID

namespace EvidenceRecord

/-- `EvidenceRecord.new`, given what `uuid4` returns and the time. -/
def new (evidenceId : UUID) (now : DateTime)
    (tenantId parcelId uploadedBy filename mimeType : String) (sizeBytes : Int)
    (storageKey basis evidenceType : String) (auditRef : Option String) :
    Except PyExc EvidenceRecord :=
  if !evidenceTypes.contains evidenceType then
    .error (.value ("unknown evidence_type: " ++ reprString evidenceType))
  else if sizeBytes ≤ 0 then .error (.value "size_bytes must be positive")
  else if storageKey = "" then
    .error (.value "storage_key is required — the storage write must precede this call")
  else
    .ok { evidenceId, tenantId, parcelId, uploadedBy, filename, mimeType, sizeBytes, storageKey,
          basis, evidenceType, auditRef, createdAt := .clock now }

/-- `_ensure_not_sealed`, before what a mutator does. -/
def ensureNotSealed (record : EvidenceRecord) (mutated : Except PyExc EvidenceRecord) :
    Except PyExc EvidenceRecord :=
  if record.status = .sealed then
    .error (.evidenceSealed "cannot modify a sealed evidence record")
  else mutated

def markHashed (record : EvidenceRecord) (sha256 : String) : Except PyExc EvidenceRecord :=
  record.ensureNotSealed <|
    if record.status ≠ .received then
      .error (.evidenceLifecycle ("cannot mark hashed from status " ++
        reprString record.status.value ++ "; expected " ++ reprString EvidenceStatus.received.value))
    else if sha256 = "" then .error (.value "sha256 is required")
    else .ok { record with sha256 := some sha256, status := .hashed }

def sealRecord (record : EvidenceRecord) (wormGrade : String) : Except PyExc EvidenceRecord :=
  record.ensureNotSealed <|
    if record.status ≠ .hashed then
      .error (.evidenceLifecycle ("cannot seal from status " ++
        reprString record.status.value ++ "; expected " ++ reprString EvidenceStatus.hashed.value))
    else if ["governance", "compliance"].contains wormGrade then
      .ok { record with wormGrade := some wormGrade, status := .sealed }
    else .error (.value ("unknown worm_grade: " ++ reprString wormGrade))

def applyLegalHold (record : EvidenceRecord) (reason appliedBy : String) :
    Except PyExc EvidenceRecord :=
  if reason = "" then .error (.value "legal hold requires a reason")
  else .ok { record with
    legalHold := true, legalHoldReason := some reason, legalHoldBy := some appliedBy }

def releaseLegalHold (record : EvidenceRecord) : EvidenceRecord :=
  { record with legalHold := false, legalHoldReason := none, legalHoldBy := none }

/-- The row that `add` makes of a record, for each start of its transaction. -/
def toModel (record : EvidenceRecord) : Except PyExc (Nat → EvidenceRecordModel) :=
  (toUuid record.parcelId).bind fun parcelId =>
    (toUuid record.uploadedBy).bind fun uploadedBy =>
      (toOptionalUuid record.legalHoldBy).map fun legalHoldBy now =>
        { evidenceId := record.evidenceId
          tenantId := record.tenantId
          parcelId
          uploadedBy
          filename := record.filename
          mimeType := record.mimeType
          sizeBytes := record.sizeBytes
          storageKey := record.storageKey
          basis := record.basis
          evidenceType := record.evidenceType
          status := record.status
          sha256 := record.sha256
          wormGrade := record.wormGrade
          legalHold := record.legalHold
          legalHoldReason := record.legalHoldReason
          legalHoldBy
          auditRef := record.auditRef
          createdAt := .now now }

end EvidenceRecord

/-- `_record_from_model`. -/
def EvidenceRecordModel.record (model : EvidenceRecordModel) : EvidenceRecord :=
  { evidenceId := model.evidenceId
    tenantId := model.tenantId
    parcelId := model.parcelId.str
    uploadedBy := model.uploadedBy.str
    filename := model.filename
    mimeType := model.mimeType
    sizeBytes := model.sizeBytes
    storageKey := model.storageKey
    basis := model.basis
    evidenceType := model.evidenceType
    status := model.status
    sha256 := model.sha256
    wormGrade := model.wormGrade
    legalHold := model.legalHold
    legalHoldReason := model.legalHoldReason
    legalHoldBy := model.legalHoldBy.map UUID.str
    auditRef := model.auditRef
    createdAt := model.createdAt }

end LandVault.Evidence
