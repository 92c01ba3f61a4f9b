import LandVault.Registry.Repositories

/-!
# Registering and changing parcels

`ParcelService` (`app/contexts/registry/application/parcel_service.py`). Every change of a
parcel asks first whether it is in the caller's scope and then whether the caller may
change it; a change of the asserted holder or of the status leaves a row of history,
whose audit entry has an identifier that is chosen before.
-/

set_option autoImplicit false

namespace LandVault.Registry

open Kernel Kernel.Audit Identity Library.Programs Library.ReadCommitted Python

/-! ## Answers -/

/-- `_bad_request`. -/
def badRequest (detail : String) : PyExc := .http 400 detail

/-- `_conflict`. -/
def conflict (detail : String) : PyExc := .http 409 detail

/-- `_not_found`. -/
def notFound : PyExc := .http 404 "parcel not found"

def forbidden : PyExc :=
  .http 403 "only the parcel's creator or a governance role may modify it"

/-- `_parcel_view`. -/
structure ParcelView where
  parcelId : String
  tenantId : String
  countryCode : String
  origin : String
  createdBy : String
  status : ParcelStatus
  parcelNumber : Option String
  title : Option String
  address : Option String
  state : Option String
  lga : Option String
  ward : Option String
  community : Option String
  propertyType : Option String
  sizeSqm : Option PyFloat
  ownershipType : Option String
  currentOwnerName : Option String
  currentOwnerContact : Option String
  createdAt : Timestamp
  updatedAt : Timestamp
  archivedAt : Option Timestamp
  geometryReference : Option String

def parcelView (parcel : Parcel) : ParcelView where
  parcelId := parcel.parcelId.str
  tenantId := parcel.tenantId
  countryCode := parcel.countryCode
  origin := parcel.origin
  createdBy := parcel.createdBy
  status := parcel.status
  parcelNumber := parcel.parcelNumber
  title := parcel.title
  address := parcel.address
  state := parcel.state
  lga := parcel.lga
  ward := parcel.ward
  community := parcel.community
  propertyType := parcel.propertyType
  sizeSqm := parcel.sizeSqm
  ownershipType := parcel.ownershipType
  currentOwnerName := parcel.currentOwnerName
  currentOwnerContact := parcel.currentOwnerContact
  createdAt := parcel.createdAt
  updatedAt := parcel.updatedAt
  archivedAt := parcel.archivedAt
  geometryReference := parcel.geometryReference

/-! ## Holders -/

/-- `_asserted_holder_ref`. -/
def assertedHolderRef (name contact : Option String) : Option String :=
  if truthy name && truthy contact then some (name.getD "" ++ " (" ++ contact.getD "" ++ ")")
  else orElse (orElse name contact) none

/-- `_asserted_holder_ref(parcel.current_owner_name, parcel.current_owner_contact)`. -/
def Parcel.holderRef (parcel : Parcel) : Option String :=
  assertedHolderRef parcel.currentOwnerName parcel.currentOwnerContact

/-! ## What the operations share -/

/-- `size_sqm is not None and size_sqm <= 0`. -/
def sizeNotPositive (sizeSqm : Option PyFloat) : Bool := (sizeSqm.map PyFloat.leZero).getD false

/-- `except ParcelArchivedError as exc: raise _conflict(str(exc))`. -/
def orConflict {α : Type} : Except PyExc α → Request α
  | .ok value => pure value
  | .error (.parcelArchived message) => throw (conflict message)
  | .error error => throw error

/-- `_load_in_scope`. -/
def loadInScope (ctx : ExecutionContext) (parcelId : String) : Request Parcel := do
  match ← ParcelRepository.get parcelId with
  | none => throw notFound
  | some parcel => if inScope ctx parcel.tenantId then pure parcel else throw notFound

/-- `_authorize_mutation`. -/
def authorizeMutation (platform : Platform) (ctx : ExecutionContext) (parcel : Parcel) :
    Request Unit := do
  if canMutate ctx parcel.createdBy then pure ()
  else
    let _ ← audit platform ctx
      { action := "registry.parcel.mutation_denied"
        resourceType := "parcel"
        resourceId := some parcel.parcelId.str
        decision := some "DENY"
        payload := some <| .details
          [("tenant_id", .text parcel.tenantId),
           ("reason", .text "not_creator_and_not_governance"),
           ("delegated_roles", .texts ctx.delegatedRoles)] }
    throw forbidden

/-- A permitted action on a parcel; the entry may have an identifier of its own. -/
def auditPermit (platform : Platform) (ctx : ExecutionContext) (action : String) (parcel : Parcel)
    (entryId : Option String) (payload : List (String × Detail)) : Request Unit := do
  let _ ← audit platform ctx
    { action
      entryId
      resourceType := "parcel"
      resourceId := some parcel.parcelId.str
      decision := some "PERMIT"
      payload := some (.details payload) }

/-- The payload that the entries of the mutations start with. -/
def mutationPayload (ctx : ExecutionContext) (parcel : Parcel) : List (String × Detail) :=
  [("tenant_id", .text parcel.tenantId),
   ("effective_authority", .text (effectiveAuthority ctx parcel.createdBy)),
   ("delegated_roles", .texts ctx.delegatedRoles)]

/-- A new row of history of a parcel. -/
def assertHistory {A : Type} (history : ParcelHistoryRepository.History A) (ctx : ExecutionContext)
    (parcel : Parcel) (asserted : A) (basis auditId : String) (supersedesId : Option UUID) :
    Request Unit := do
  let (id, now) ← choose fun env => (env.uuid, env.now)
  let _ ← history.record <| .new id now parcel.tenantId parcel.parcelId asserted basis
    ctx.principalId (some auditId) supersedesId

/-! ## The operations -/

/-- `DEFAULT_COUNTRY`. -/
def defaultCountry : String := "NG"

/-- `(country_code or ctx.country or DEFAULT_COUNTRY).upper()`, checked. -/
def resolveCountry (ctx : ExecutionContext) (countryCode : Option String) : Request String :=
  let resolved := upper ((orElse (orElse countryCode ctx.country) (some defaultCountry)).getD "")
  match CountryCode.new resolved with
  | .ok country => pure country.value
  | .error (.value message) => throw (badRequest message)
  | .error error => throw error

/-- `create_parcel`. -/
def createParcel (platform : Platform) (ctx : ExecutionContext) (countryCode : Option String)
    (details : ParcelDetails) : Request ParcelView := do
  if !truthy ctx.tenantId then
    throw (badRequest "caller has no tenant to register a parcel within")
  let country ← resolveCountry ctx countryCode
  if sizeNotPositive details.sizeSqm then throw (badRequest "size_sqm must be positive")
  let (parcelId, now) ← choose fun env => (env.uuid, env.now)
  let parcel := Parcel.new parcelId now (ctx.tenantId.getD "") country "platform_registration"
    ctx.principalId details
  let parcelNumber ← ParcelNumberAllocator.allocate country
  let now ← choose fun env => env.now
  let parcel ← Program.ofExcept (parcel.allocateParcelNumber parcelNumber now)
  let parcel ← ParcelRepository.add parcel
  match parcel.holderRef with
  | none => recordCreated parcel none
  | some holderRef =>
      let ownershipAuditId ← choose fun env => env.uuid.hex
      assertHistory ParcelHistoryRepository.ownership ctx parcel (some holderRef)
        "initial registration" ownershipAuditId none
      recordCreated parcel (some ownershipAuditId)
where
  /-- The status row and the entries, of which the first is for an ownership row. -/
  recordCreated (parcel : Parcel) (ownershipAuditId : Option String) : Request ParcelView := do
    let createdAuditId ← choose fun env => env.uuid.hex
    assertHistory ParcelHistoryRepository.status ctx parcel parcel.status "initial registration"
      createdAuditId none
    if ownershipAuditId.isSome then
      auditPermit platform ctx "registry.parcel_ownership.recorded" parcel ownershipAuditId
        [("tenant_id", .text parcel.tenantId), ("asserted_holder_ref", .text parcel.holderRef)]
    auditPermit platform ctx "registry.parcel.created" parcel (some createdAuditId)
      [("tenant_id", .text parcel.tenantId),
       ("origin", .text parcel.origin),
       ("parcel_number", .text parcel.parcelNumber)]
    pure (parcelView parcel)

/-- `get_parcel`. -/
def getParcel (ctx : ExecutionContext) (parcelId : String) : Request ParcelView := do
  let parcel ← loadInScope ctx parcelId
  pure (parcelView parcel)

/-- `list_parcels`. -/
def listParcels (ctx : ExecutionContext) : Request (List ParcelView) := do
  if !truthy ctx.tenantId then pure []
  else
    let parcels ← ParcelRepository.listForTenant (ctx.tenantId.getD "")
    pure (parcels.map parcelView)

/-- The row of history and the entry of a new holder. -/
def recordChangedOwnership (platform : Platform) (ctx : ExecutionContext) (parcel : Parcel) :
    Request Unit := do
  let prior ← ParcelHistoryRepository.latestOwnership parcel.parcelId
  let ownershipAuditId ← choose fun env => env.uuid.hex
  assertHistory ParcelHistoryRepository.ownership ctx parcel parcel.holderRef
    "registrant declaration via update_parcel" ownershipAuditId (prior.map (·.id))
  auditPermit platform ctx "registry.parcel_ownership.changed" parcel (some ownershipAuditId)
    [("tenant_id", .text parcel.tenantId), ("asserted_holder_ref", .text parcel.holderRef)]

/-- `update_parcel`. -/
def updateParcel (platform : Platform) (ctx : ExecutionContext) (parcelId : String)
    (fields : FieldMap) : Request ParcelView := do
  if fields.items.isEmpty then throw (badRequest "no fields to update")
  if sizeNotPositive fields.sizeSqm then throw (badRequest "size_sqm must be positive")
  let parcel ← loadInScope ctx parcelId
  authorizeMutation platform ctx parcel
  let now ← choose fun env => env.now
  let updated ← orConflict (parcel.updateDetails ctx.principalId fields now)
  let updated ← ParcelRepository.update updated
  if updated.holderRef ≠ parcel.holderRef then recordChangedOwnership platform ctx updated
  auditPermit platform ctx "registry.parcel.updated" updated none <|
    mutationPayload ctx updated ++
      [("fields_changed", .texts ((fields.items.map FieldUpdate.key).insertionSort (· ≤ ·)))]
  pure (parcelView updated)

/-- `archive_parcel`. -/
def archiveParcel (platform : Platform) (ctx : ExecutionContext) (parcelId : String) :
    Request ParcelView := do
  let parcel ← loadInScope ctx parcelId
  authorizeMutation platform ctx parcel
  let now ← choose fun env => env.now
  let archived ← orConflict (parcel.archive ctx.principalId now)
  let archived ← ParcelRepository.update archived
  let priorStatus ← ParcelHistoryRepository.latestStatus archived.parcelId
  let statusAuditId ← choose fun env => env.uuid.hex
  assertHistory ParcelHistoryRepository.status ctx archived archived.status
    "registrant declaration via archive_parcel" statusAuditId (priorStatus.map (·.id))
  auditPermit platform ctx "registry.parcel_status.changed" archived (some statusAuditId)
    [("tenant_id", .text archived.tenantId), ("asserted_status", .text archived.status.value)]
  auditPermit platform ctx "registry.parcel.archived" archived none (mutationPayload ctx archived)
  pure (parcelView archived)

/-- `GeometryPort.reference_is_valid`, of a reference, a tenant and a parcel. -/
abbrev GeometryPort : Type 1 :=
  (geometryReference tenantId parcelId : String) → Request Bool

/-- `if geometry_reference is not None and not ...reference_is_valid(...)`. -/
def checkReference (geometry : GeometryPort) (parcel : Parcel) (parcelId : String) :
    Option String → Request Unit
  | none => pure ()
  | some geometryReference => do
      if !(← geometry geometryReference parcel.tenantId parcelId) then
        throw (badRequest "geometry_reference failed validation")

/-- `set_geometry_reference`. -/
def setGeometryReference (geometry : GeometryPort) (platform : Platform) (ctx : ExecutionContext)
    (parcelId : String) (geometryReference : Option String) : Request ParcelView := do
  let parcel ← loadInScope ctx parcelId
  authorizeMutation platform ctx parcel
  checkReference geometry parcel parcelId geometryReference
  let now ← choose fun env => env.now
  let referring ← orConflict (parcel.setGeometryReference geometryReference ctx.principalId now)
  let referring ← ParcelRepository.update referring
  auditPermit platform ctx
    (if geometryReference.isSome then "registry.parcel.geometry_attached"
      else "registry.parcel.geometry_detached")
    referring none (mutationPayload ctx referring)
  pure (parcelView referring)

/-! ## Requests -/

/-- A request of `parcel_router`. -/
inductive ParcelRequest where
  | create (countryCode : Option String) (details : ParcelDetails)
  | get (parcelId : String)
  | list
  | update (parcelId : String) (fields : FieldMap)
  | archive (parcelId : String)
  | setGeometryReference (parcelId : String) (geometryReference : Option String)

/-- What a request is answered with. -/
inductive ParcelAnswer where
  | parcel (view : ParcelView)
  | parcels (views : List ParcelView)

def ParcelRequest.serve (geometry : GeometryPort) (platform : Platform) (ctx : ExecutionContext) :
    ParcelRequest → Request ParcelAnswer
  | .create countryCode details => do
      return .parcel (← createParcel platform ctx countryCode details)
  | .get parcelId => do return .parcel (← getParcel ctx parcelId)
  | .list => do return .parcels (← listParcels ctx)
  | .update parcelId fields => do return .parcel (← updateParcel platform ctx parcelId fields)
  | .archive parcelId => do return .parcel (← archiveParcel platform ctx parcelId)
  | .setGeometryReference parcelId geometryReference => do
      return .parcel
        (← Registry.setGeometryReference geometry platform ctx parcelId geometryReference)

end LandVault.Registry
