import LandVault.Kernel.Uow

/-!
# The repositories of the Evidence context

The statements of `app/contexts/evidence/adapters/postgres_repositories.py` that
attributions use. The rows of `evidence_actor_attributions`, and the columns of
`evidence_records` that are read here, never change, so an identity map that answers
in place of the table answers the same; the model asks the table.
-/

set_option autoImplicit false

namespace LandVault.Evidence

open Kernel Library.Programs Library.ReadCommitted Python

/-- `EvidenceRepository.get`. -/
def EvidenceRepository.get (evidenceId : String) : Request (Option EvidenceRecordModel) :=
  match UUID.parse evidenceId with
  | none => pure none
  | some key => select fun view =>
      .ok ((visible (·.tenantId) (·.evidenceRecords) view).find? (·.evidenceId = key))

/-- `ParcelAuthorityInfo`. -/
structure ParcelAuthorityInfo where
  tenantId : String
  createdBy : String

/-- `ParcelExistencePort.get_parcel_authority`. -/
def ParcelExistencePort.getParcelAuthority (parcelId : String) :
    Request (Option ParcelAuthorityInfo) :=
  select fun view => (driverUuid parcelId).map fun key =>
    ((visible (·.tenantId) (·.parcels) view).find? (·.parcelId = key)).map fun row =>
      ⟨row.tenantId, row.createdBy.str⟩

/-- `PrincipalTenantPort.get_tenant_id`. -/
def PrincipalTenantPort.getTenantId (principalId : String) : Request (Option String) :=
  match UUID.parse principalId with
  | none => pure none
  | some key => select fun view =>
      .ok (((visible (·.tenantId) (·.identityUsers) view).find? (·.id = key)).map (·.tenantId))

namespace EvidenceActorAttributionRepository

/-- `record`: the identifiers are read before the row is flushed. -/
def record (attribution : EvidenceActorAttribution) : Request EvidenceActorAttribution := do
  let model ← Program.ofExcept attribution.toModel
  .perform <| .query fun view =>
    let { tenants, identityUsers, evidenceRecords, attributions, .. } := view.tables
    let row := model view.startedAt
    (checkNewRow view.memo.scope identityUsers evidenceRecords attributions row).map fun _ =>
      { memo := view.memo
        answer := (checkForeignKeys (tenants.map (·.id)) identityUsers evidenceRecords
          attributions row).map fun _ => row.attribution
        write := some (.insertAttribution row) }

/-- `get`. -/
def get (attributionId : String) : Request (Option EvidenceActorAttribution) :=
  match UUID.parse attributionId with
  | none => pure none
  | some key => select fun view =>
      .ok (((visible (·.tenantId) (·.attributions) view).find? (·.id = key)).map (·.attribution))

/-- `list_for_evidence`, `ORDER BY recorded_at ASC`. -/
def listForEvidence (evidenceId : String) : Request (List EvidenceActorAttribution) := do
  let key ← Program.ofExcept (toUuid evidenceId)
  let rows ← select fun view =>
    .ok ((visible (·.tenantId) (·.attributions) view).filter (·.evidenceId = key))
  pure ((rows.map (·.attribution)).insertionSort fun a b =>
    a.recordedAt.position ≤ b.recordedAt.position)

/-- `get_successor`; `scalar_one_or_none` raises when there are several. -/
def getSuccessor (attributionId : UUID) : Request (Option EvidenceActorAttribution) := do
  let rows ← select fun view =>
    .ok ((visible (·.tenantId) (·.attributions) view).filter (·.supersedesId = some attributionId))
  match rows with
  | [] => pure none
  | [row] => pure (some row.attribution)
  | _ => throw .multipleResultsFound

end EvidenceActorAttributionRepository
end LandVault.Evidence
