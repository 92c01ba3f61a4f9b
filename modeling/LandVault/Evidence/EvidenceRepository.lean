import LandVault.Evidence.Repositories
import LandVault.Kernel.Mapping

/-!
# The repository of evidence records

`PostgresEvidenceRepository` (`app/contexts/evidence/adapters/postgres_repositories.py`),
over the mapped class of `adapters/orm.py` and migration 0012, and the storage of
contents, which is outside the database.
-/

set_option autoImplicit false

namespace LandVault.Evidence

open Kernel Library.Programs Library.ReadCommitted Python

def evidenceMapper : Mapper EvidenceRecordModel UUID where
  table := "evidence_records"
  rows := (·.evidenceRecords)
  sees := fun _ scope row => scope.sees row.tenantId
  key := (·.evidenceId)
  loaded := (·.evidenceRecords)
  remember := fun evidenceRecords memo => { memo with evidenceRecords }
  merge := fun loaded new stored =>
    { stored with
      status := merged loaded.status new.status stored.status
      sha256 := merged loaded.sha256 new.sha256 stored.sha256
      wormGrade := merged loaded.wormGrade new.wormGrade stored.wormGrade
      legalHold := merged loaded.legalHold new.legalHold stored.legalHold
      legalHoldReason := merged loaded.legalHoldReason new.legalHoldReason stored.legalHoldReason
      legalHoldBy := merged loaded.legalHoldBy new.legalHoldBy stored.legalHoldBy }
  clean := fun loaded new => new = loaded
  assign := Tables.assignEvidence
  insert := .insertEvidence
  update := .updateEvidence
  values := fun row =>
    if row.sizeBytes < 2 ^ 31 then .ok () else .error (.database "value out of int32 range")
  foreign := fun t row =>
    (tenantExists "evidence_records_tenant_id_fkey" t row.tenantId).bind fun _ =>
      (parcelExists "evidence_records_parcel_id_fkey" t row.parcelId).bind fun _ =>
        (userExists "evidence_records_uploaded_by_fkey" t row.uploadedBy).bind fun _ =>
          optionalUserExists "evidence_records_legal_hold_by_fkey" t row.legalHoldBy
  noted := .evidence
  assign_of_merge := fun edit => by rw [← edit]; simp [Tables.assignEvidence]

namespace PostgresEvidenceRepository

/-- `add`. -/
def add (record : EvidenceRecord) : Request EvidenceRecord := do
  let row ← Program.ofExcept record.toModel
  let model ← evidenceMapper.add fun view => row view.startedAt
  pure (EvidenceRecordModel.record model)

/-- `get`. -/
def get (evidenceId : String) : Request (Option EvidenceRecord) :=
  match UUID.parse evidenceId with
  | none => pure none
  | some key => do
      let model ← evidenceMapper.get key
      pure (model.map EvidenceRecordModel.record)

/-- `list_for_parcel`. -/
def listForParcel (parcelId : String) : Request (List EvidenceRecord) := do
  let key ← Program.ofExcept (toUuid parcelId)
  let models ← evidenceMapper.select (·.parcelId = key)
  pure ((newestFirst (·.createdAt) models).map EvidenceRecordModel.record)

/-- What the three updates share: the columns that they assign. -/
def assign (evidenceId : UUID) (columns : EvidenceRecordModel → Except PyExc EvidenceRecordModel) :
    Request EvidenceRecord := do
  match ← evidenceMapper.get evidenceId with
  | none => throw (notFoundError "evidence record" evidenceId.str)
  | some model =>
      let assigned ← Program.ofExcept (columns model)
      let model ← evidenceMapper.flush model assigned
      pure (EvidenceRecordModel.record model)

/-- `mark_hashed`. -/
def markHashed (record : EvidenceRecord) : Request EvidenceRecord :=
  assign record.evidenceId fun model =>
    .ok { model with status := record.status, sha256 := record.sha256 }

/-- `seal`. -/
def sealRecord (record : EvidenceRecord) : Request EvidenceRecord :=
  assign record.evidenceId fun model =>
    .ok { model with status := record.status, wormGrade := record.wormGrade }

/-- `set_legal_hold`. -/
def setLegalHold (record : EvidenceRecord) : Request EvidenceRecord :=
  assign record.evidenceId fun model =>
    (toOptionalUuid record.legalHoldBy).map fun legalHoldBy =>
      { model with
        legalHold := record.legalHold, legalHoldReason := record.legalHoldReason, legalHoldBy }

end PostgresEvidenceRepository

namespace StoragePort

/-- `put`. -/
def put : Request Unit := do
  match ← choose fun env => env.put with
  | .ok () => pure ()
  | .error failure => throw failure.error

/-- `get`. -/
def get (storageKey : String) : Request (List UInt8) := do
  match ← choose fun env => env.content storageKey with
  | .ok content => pure content
  | .error failure => throw failure.error

end StoragePort
end LandVault.Evidence
