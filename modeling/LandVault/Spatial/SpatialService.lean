import LandVault.Identity.Authority
import LandVault.Spatial.GeometryValidation
import LandVault.Spatial.Repositories

/-!
# Submitting geometries

`SpatialService` (`app/contexts/spatial/application/spatial_service.py`), and the adapter
with which it answers the Registry (`adapters/geometry_port_adapter.py`). A submission
supersedes the active geometry of the parcel; who refers to that one is not known here.
-/

set_option autoImplicit false

namespace LandVault.Spatial

open Kernel Kernel.Audit Identity Library.Programs Library.ReadCommitted Python

/-- What the Spatial context takes from outside, besides the audit log: `repr` of a
float. -/
structure SpatialPlatform extends Platform where
  reprFloat : Rat → String

/-! ## Answers -/

/-- `_bad_request`. -/
def badRequest (detail : String) : PyExc := .http 400 detail

/-- `_not_found`. -/
def notFound (detail : String) : PyExc := .http 404 detail

/-- `_conflict`. -/
def conflict (detail : String) : PyExc := .http 409 detail

def forbidden : PyExc :=
  .http 403 "only the parcel's creator or a governance role may submit its geometry"

/-- `_geometry_view`: every field. -/
abbrev GeometryView := ParcelGeometry

/-! ## The service -/

/-- `_load_authority_in_scope`. -/
def loadAuthorityInScope (ctx : ExecutionContext) (parcelId : String) :
    Request ParcelAuthorityInfo := do
  match ← ParcelExistencePort.getParcelAuthority parcelId with
  | none => throw (notFound "parcel not found")
  | some authority =>
      if inScope ctx authority.tenantId then pure authority
      else throw (notFound "parcel not found")

/-- `_authorize_mutation`. -/
def authorizeMutation (platform : Platform) (ctx : ExecutionContext) (parcelId : String)
    (authority : ParcelAuthorityInfo) : Request Unit := do
  if canMutate ctx authority.createdBy then pure ()
  else
    let _ ← audit platform ctx
      { action := "spatial.parcel_geometry.mutation_denied"
        resourceType := "parcel_geometry"
        resourceId := some parcelId
        decision := some "DENY"
        payload := some <| .details
          [("tenant_id", .text authority.tenantId),
           ("reason", .text "not_creator_and_not_governance"),
           ("delegated_roles", .texts ctx.delegatedRoles)] }
    throw forbidden

/-- `except InvalidGeometryError as exc: raise _bad_request(str(exc))`; `int` raises a
`ValueError` of its own. -/
def orBadRequest {α : Type} (platform : SpatialPlatform) : Except WktError α → Request α
  | .ok value => pure value
  | .error (.invalidGeometry defect) => throw (badRequest (defect.message platform.reprFloat))
  | .error (.tooManyDigits count) =>
      throw (.value s!"Exceeds the limit (4300 digits) for integer string conversion: {count}")

/-- What becomes of the geometry that was active. -/
def supersede : Option ParcelGeometry → Request Unit
  | none => pure ()
  | some existing => do
      let now ← choose fun env => env.now
      let superseded ← Program.ofExcept (existing.supersede now)
      let _ ← ParcelGeometryRepository.update superseded

/-- `submit_geometry`. -/
def submitGeometry (platform : SpatialPlatform) (ctx : ExecutionContext)
    (parcelId boundary : String) : Request GeometryView := do
  let authority ← loadAuthorityInScope ctx parcelId
  authorizeMutation platform.toPlatform ctx parcelId authority
  if authority.status = .archived then
    throw (conflict "cannot submit geometry for an archived parcel")
  let (geometryId, now) ← choose fun env => (env.uuid, env.now)
  let geometry ← orBadRequest platform <| ParcelGeometry.new validateWktPolygon geometryId now
    authority.tenantId parcelId boundary ctx.principalId
  let existing ← ParcelGeometryRepository.getActiveForParcel parcelId
  supersede existing
  let geometry ← ParcelGeometryRepository.add geometry
  let _ ← audit platform.toPlatform ctx
    { action := "spatial.parcel_geometry.created"
      resourceType := "parcel_geometry"
      resourceId := some geometry.geometryId.str
      decision := some "PERMIT"
      payload := some <| .details
        [("tenant_id", .text geometry.tenantId),
         ("parcel_id", .text geometry.parcelId),
         ("effective_authority", .text (effectiveAuthority ctx authority.createdBy)),
         ("delegated_roles", .texts ctx.delegatedRoles),
         ("superseded_geometry_id", .text (existing.map (·.geometryId.str)))] }
  pure geometry

/-- `get_active_geometry`. -/
def getActiveGeometry (ctx : ExecutionContext) (parcelId : String) : Request GeometryView := do
  let _ ← loadAuthorityInScope ctx parcelId
  match ← ParcelGeometryRepository.getActiveForParcel parcelId with
  | none => throw (notFound "no active geometry for this parcel")
  | some geometry => pure geometry

/-! ## The adapter for the Registry -/

/-- `RealGeometryAdapter.reference_is_valid`. -/
def RealGeometryAdapter.referenceIsValid (geometryReference tenantId parcelId : String) :
    Request Bool := do
  match ← tryCatch (ParcelGeometryRepository.get geometryReference) malformed with
  | none => pure false
  | some geometry =>
      pure (geometry.status = .active && geometry.tenantId == tenantId &&
        geometry.parcelId == parcelId)
where
  malformed : PyExc → Request (Option ParcelGeometry)
    | .value _ => pure none
    | error => throw error

/-! ## Requests -/

/-- A request of `spatial_router`. -/
inductive SpatialRequest where
  | submit (parcelId boundary : String)
  | getActive (parcelId : String)

def SpatialRequest.serve (platform : SpatialPlatform) (ctx : ExecutionContext) :
    SpatialRequest → Request GeometryView
  | .submit parcelId boundary => submitGeometry platform ctx parcelId boundary
  | .getActive parcelId => getActiveGeometry ctx parcelId

end LandVault.Spatial
