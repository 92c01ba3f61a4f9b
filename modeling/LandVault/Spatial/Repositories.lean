import LandVault.Kernel.Mapping
import LandVault.Kernel.Uow

/-!
# The repositories of the Spatial context

`app/contexts/spatial/adapters/postgres_repositories.py`, over the mapped class of
`adapters/orm.py` and migration 0010. The port to the Registry reads a parcel with a
statement of its own, past the identity map.
-/

set_option autoImplicit false

namespace LandVault.Spatial

open Kernel Library.Programs Library.ReadCommitted Python Registry

def geometryMapper : Mapper ParcelGeometryRecord UUID where
  table := "parcel_geometries"
  rows := (·.parcelGeometries)
  sees := fun _ scope row => scope.sees row.tenantId
  key := (·.geometryId)
  loaded := (·.geometries)
  remember := fun geometries memo => { memo with geometries }
  merge := ParcelGeometryRecord.merge
  clean := fun loaded new => new = loaded
  assign := fun row _ => row
  insert := .insertGeometry
  update := .updateGeometry
  foreign := fun t row =>
    (tenantExists "parcel_geometries_tenant_id_fkey" t row.tenantId).bind fun _ =>
      (parcelExists "parcel_geometries_parcel_id_fkey" t row.parcelId).bind fun _ =>
        userExists "parcel_geometries_created_by_fkey" t row.createdBy
  noted := .geometry
  assign_of_merge := fun _ => rfl

namespace ParcelGeometryRepository

/-- `add`. -/
def add (geometry : ParcelGeometry) : Request ParcelGeometry := do
  let row ← Program.ofExcept geometry.toRecord
  let record ← geometryMapper.add fun view => row view.startedAt
  pure (ParcelGeometryRecord.geometry record)

/-- `get`. -/
def get (geometryId : String) : Request (Option ParcelGeometry) := do
  let key ← Program.ofExcept (toUuid geometryId)
  let record ← geometryMapper.get key
  pure (record.map ParcelGeometryRecord.geometry)

/-- `get_active_for_parcel`. -/
def getActiveForParcel (parcelId : String) : Request (Option ParcelGeometry) := do
  let key ← Program.ofExcept (toUuid parcelId)
  let record ← geometryMapper.scalarOneOrNone fun row =>
    row.parcelId = key && row.status = .active
  pure (record.map ParcelGeometryRecord.geometry)

/-- `update`. -/
def update (geometry : ParcelGeometry) : Request ParcelGeometry := do
  match ← geometryMapper.get geometry.geometryId with
  | none => throw (notFoundError "parcel geometry" geometry.geometryId.str)
  | some record =>
      let record ← geometryMapper.flush record (geometry.assignTo record)
      pure (ParcelGeometryRecord.geometry record)

end ParcelGeometryRepository

/-- `ParcelAuthorityInfo`. -/
structure ParcelAuthorityInfo where
  tenantId : String
  createdBy : String
  status : ParcelStatus

/-- `ParcelExistencePort.get_parcel_authority`. -/
def ParcelExistencePort.getParcelAuthority (parcelId : String) :
    Request (Option ParcelAuthorityInfo) :=
  .perform <| .query fun view => (driverUuid parcelId).map fun key =>
    let row := (visible (·.tenantId) (·.parcels) view).find? (·.parcelId = key)
    { memo := { view.memo with reads := row.toList.map .parcel ++ view.memo.reads }
      answer := .ok (row.map fun row => ⟨row.tenantId, row.createdBy.str, row.status⟩) }

end LandVault.Spatial
