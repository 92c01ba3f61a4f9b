import LandVault.Kernel.Postgres

/-!
# Parcel geometries

The aggregate of `app/contexts/spatial/domain/parcel_geometry.py` and its row.
`validateWktPolygon` stands for the validator of boundaries, which gives the text to
store or its error.
-/

set_option autoImplicit false

namespace LandVault.Spatial

open LandVault.Kernel LandVault.Python

inductive GeometryStatus where
  | active
  | superseded
  deriving DecidableEq

/-- A geometry whose parcel is given as `I` and its creator as `P`. -/
structure ParcelGeometryOf (I P : Type) where
  geometryId : UUID
  tenantId : String
  parcelId : I
  boundary : String
  srid : Nat := 4326
  status : GeometryStatus := .active
  createdBy : P
  createdAt : Timestamp
  supersededAt : Option Timestamp := none
  deriving DecidableEq

/-- `ParcelGeometry`. -/
abbrev ParcelGeometry := ParcelGeometryOf String String

/-- `ParcelGeometryRecord`. -/
abbrev ParcelGeometryRecord := ParcelGeometryOf UUID UUID

/-- `ParcelGeometry.new`. -/
def ParcelGeometry.new {ε : Type} (validateWktPolygon : String → Except ε String)
    (geometryId : UUID) (now : DateTime) (tenantId parcelId boundary createdBy : String) :
    Except ε ParcelGeometry :=
  (validateWktPolygon boundary).map fun boundary =>
    { geometryId, tenantId, parcelId, boundary, createdBy, createdAt := .clock now }

def ParcelGeometry.supersede (geometry : ParcelGeometry) (now : DateTime) :
    Except PyExc ParcelGeometry :=
  if geometry.status = .superseded then
    .error (.geometryAlreadySuperseded "cannot supersede a geometry that is already superseded")
  else .ok { geometry with status := .superseded, supersededAt := some (.clock now) }

/-- The row that `add` makes of a geometry, for each start of its transaction. -/
def ParcelGeometry.toRecord (geometry : ParcelGeometry) :
    Except PyExc (Nat → ParcelGeometryRecord) :=
  (toUuid geometry.parcelId).bind fun parcelId =>
    (toUuid geometry.createdBy).map fun createdBy now =>
      { geometryId := geometry.geometryId
        tenantId := geometry.tenantId
        parcelId
        boundary := geometry.boundary
        srid := geometry.srid
        status := geometry.status
        createdBy
        createdAt := .now now }

/-- `_geometry_from_record`. -/
def ParcelGeometryRecord.geometry (record : ParcelGeometryRecord) : ParcelGeometry :=
  { geometryId := record.geometryId
    tenantId := record.tenantId
    parcelId := record.parcelId.str
    boundary := record.boundary
    srid := record.srid
    status := record.status
    createdBy := record.createdBy.str
    createdAt := record.createdAt
    supersededAt := record.supersededAt }

/-- What `update` assigns to the record it loaded. -/
def ParcelGeometry.assignTo (geometry : ParcelGeometry) (record : ParcelGeometryRecord) :
    ParcelGeometryRecord :=
  { record with status := geometry.status, supersededAt := geometry.supersededAt }

/-- The row after an UPDATE: a column is written when its value differs from the
loaded one. -/
def ParcelGeometryRecord.merge (loaded assigned stored : ParcelGeometryRecord) :
    ParcelGeometryRecord :=
  { stored with
    status := if assigned.status = loaded.status then stored.status else assigned.status
    supersededAt :=
      if assigned.supersededAt = loaded.supersededAt then stored.supersededAt
      else assigned.supersededAt }

end LandVault.Spatial
