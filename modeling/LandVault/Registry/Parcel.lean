import Mathlib.Data.List.Sort
import LandVault.Identity.Authority

/-!
# Parcels

The aggregate of `app/contexts/registry/domain/parcel.py` and its row. Both have the
same columns, with identifiers and points in time kept as such; only the two
references to principals differ, texts in the aggregate and identifiers in the row.

An UPDATE of the unit of work writes the columns whose value differs from the one
that was loaded, so the row it leaves is a merge of three: what was loaded, what the
aggregate says, and what the row is by then.
-/

set_option autoImplicit false

namespace LandVault.Registry

open LandVault.Kernel LandVault.Python

/-- `PARCEL_REGISTRANT_ROLES`. -/
def parcelRegistrantRoles : List String :=
  [Identity.Role.fieldAgent, .licensedSurveyor, .surveyorPartner, .surveyorGeneral,
    .complianceOfficer, .superAdmin].map Identity.Role.value

/-! ## The aggregate -/

inductive ParcelStatus where
  | active
  | archived
  deriving DecidableEq

def ParcelStatus.value : ParcelStatus → String
  | .active => "ACTIVE"
  | .archived => "ARCHIVED"

/-- A parcel whose principals are given as `P`. -/
structure ParcelOf (P : Type) where
  parcelId : UUID
  tenantId : String
  countryCode : String
  origin : String
  createdBy : P
  status : ParcelStatus := .active
  parcelNumber : Option String := none
  title : Option String := none
  address : Option String := none
  state : Option String := none
  lga : Option String := none
  ward : Option String := none
  community : Option String := none
  propertyType : Option String := none
  sizeSqm : Option PyFloat := none
  ownershipType : Option String := none
  currentOwnerName : Option String := none
  currentOwnerContact : Option String := none
  createdAt : Timestamp
  updatedAt : Timestamp
  updatedBy : Option P := none
  archivedAt : Option Timestamp := none
  geometryReference : Option String := none
  deriving DecidableEq

/-- `Parcel`. -/
abbrev Parcel := ParcelOf String

/-- `ParcelRecord`. -/
abbrev ParcelRecord := ParcelOf UUID

/-- The optional arguments of `create_parcel` and `Parcel.new`. -/
structure ParcelDetails where
  title : Option String := none
  address : Option String := none
  state : Option String := none
  lga : Option String := none
  ward : Option String := none
  community : Option String := none
  propertyType : Option String := none
  sizeSqm : Option PyFloat := none
  ownershipType : Option String := none
  currentOwnerName : Option String := none
  currentOwnerContact : Option String := none

namespace Parcel

/-- `Parcel.new`, given what `uuid4` returns and the time. -/
def new (parcelId : UUID) (now : DateTime) (tenantId countryCode origin createdBy : String)
    (details : ParcelDetails) : Parcel :=
  { parcelId, tenantId, countryCode, origin, createdBy
    title := details.title
    address := details.address
    state := details.state
    lga := details.lga
    ward := details.ward
    community := details.community
    propertyType := details.propertyType
    sizeSqm := details.sizeSqm
    ownershipType := details.ownershipType
    currentOwnerName := details.currentOwnerName
    currentOwnerContact := details.currentOwnerContact
    createdAt := .clock now
    updatedAt := .clock now }

def isArchived (parcel : Parcel) : Bool := parcel.status = .archived

/-- `_ensure_mutable`, before what a mutator does. -/
def ensureMutable (parcel : Parcel) (mutated : Except PyExc Parcel) : Except PyExc Parcel :=
  if parcel.isArchived then .error (.parcelArchived "cannot modify an archived parcel") else mutated

def allocateParcelNumber (parcel : Parcel) (parcelNumber : String) (now : DateTime) :
    Except PyExc Parcel :=
  parcel.ensureMutable <|
    if parcel.parcelNumber.isSome then
      .error (.value "parcel_number already allocated; cannot be reassigned")
    else .ok { parcel with parcelNumber := some parcelNumber, updatedAt := .clock now }

def archive (parcel : Parcel) (archivedBy : String) (now : DateTime) : Except PyExc Parcel :=
  parcel.ensureMutable <| .ok
    { parcel with
      status := .archived
      archivedAt := some (.clock now)
      updatedBy := some archivedBy
      updatedAt := .clock now }

def setGeometryReference (parcel : Parcel) (geometryReference : Option String) (updatedBy : String)
    (now : DateTime) : Except PyExc Parcel :=
  parcel.ensureMutable <| .ok
    { parcel with geometryReference, updatedBy := some updatedBy, updatedAt := .clock now }

end Parcel

/-! ## Field updates -/

/-- The updatable columns that hold texts. -/
inductive TextField where
  | title | address | state | lga | ward | community | propertyType | ownershipType
  | currentOwnerName | currentOwnerContact
  deriving DecidableEq

def TextField.key : TextField → String
  | .title => "title"
  | .address => "address"
  | .state => "state"
  | .lga => "lga"
  | .ward => "ward"
  | .community => "community"
  | .propertyType => "property_type"
  | .ownershipType => "ownership_type"
  | .currentOwnerName => "current_owner_name"
  | .currentOwnerContact => "current_owner_contact"

/-- `UPDATABLE_FIELDS`. -/
def updatableFields : List String :=
  ["title", "address", "state", "lga", "ward", "community", "property_type", "size_sqm",
   "ownership_type", "current_owner_name", "current_owner_contact"]

/-- One item of the `fields` of an update; the value of an unknown key is never read. -/
inductive FieldUpdate where
  | text (field : TextField) (value : Option String)
  | sizeSqm (value : Option PyFloat)
  | other (key : String) (unknown : key ∉ updatableFields)

def FieldUpdate.key : FieldUpdate → String
  | .text field _ => field.key
  | .sizeSqm _ => "size_sqm"
  | .other key _ => key

/-- The dict `fields`: a key occurs once. -/
structure FieldMap where
  items : List FieldUpdate
  distinct : (items.map FieldUpdate.key).Nodup

/-- `fields.get("size_sqm")`. -/
def FieldMap.sizeSqm (fields : FieldMap) : Option PyFloat :=
  (fields.items.findSome? fun
    | .sizeSqm value => some value
    | _ => none).join

/-- `sorted(set(fields) - UPDATABLE_FIELDS)`. -/
def FieldMap.unknown (fields : FieldMap) : List String :=
  ((fields.items.map FieldUpdate.key).filter (· ∉ updatableFields)).insertionSort (· ≤ ·)

/-- `setattr(self, key, value)`. -/
def Parcel.setField (parcel : Parcel) : FieldUpdate → Parcel
  | .text .title value => { parcel with title := value }
  | .text .address value => { parcel with address := value }
  | .text .state value => { parcel with state := value }
  | .text .lga value => { parcel with lga := value }
  | .text .ward value => { parcel with ward := value }
  | .text .community value => { parcel with community := value }
  | .text .propertyType value => { parcel with propertyType := value }
  | .text .ownershipType value => { parcel with ownershipType := value }
  | .text .currentOwnerName value => { parcel with currentOwnerName := value }
  | .text .currentOwnerContact value => { parcel with currentOwnerContact := value }
  | .sizeSqm value => { parcel with sizeSqm := value }
  | .other _ _ => parcel

def Parcel.updateDetails (parcel : Parcel) (updatedBy : String) (fields : FieldMap)
    (now : DateTime) : Except PyExc Parcel :=
  parcel.ensureMutable <|
    if fields.unknown ≠ [] then
      .error (.value ("cannot update fields: [" ++
        ", ".intercalate (fields.unknown.map reprString) ++ "]"))
    else
      .ok { fields.items.foldl Parcel.setField parcel with
        updatedBy := some updatedBy, updatedAt := .clock now }

/-! ## Rows -/

/-- `_parcel_from_record`. -/
def ParcelRecord.parcel (record : ParcelRecord) : Parcel :=
  { parcelId := record.parcelId
    tenantId := record.tenantId
    countryCode := record.countryCode
    origin := record.origin
    createdBy := record.createdBy.str
    status := record.status
    parcelNumber := record.parcelNumber
    title := record.title
    address := record.address
    state := record.state
    lga := record.lga
    ward := record.ward
    community := record.community
    propertyType := record.propertyType
    sizeSqm := record.sizeSqm
    ownershipType := record.ownershipType
    currentOwnerName := record.currentOwnerName
    currentOwnerContact := record.currentOwnerContact
    createdAt := record.createdAt
    updatedAt := record.updatedAt
    updatedBy := record.updatedBy.map UUID.str
    archivedAt := record.archivedAt
    geometryReference := record.geometryReference }

/-- The row that `add` makes of a parcel, for each start of its transaction; the two
times and `updated_by` are left to the database. -/
def Parcel.toRecord (parcel : Parcel) : Except PyExc (Nat → ParcelRecord) :=
  (toUuid parcel.createdBy).map fun createdBy now =>
    { parcelId := parcel.parcelId
      tenantId := parcel.tenantId
      countryCode := parcel.countryCode
      origin := parcel.origin
      createdBy
      status := parcel.status
      parcelNumber := parcel.parcelNumber
      title := parcel.title
      address := parcel.address
      state := parcel.state
      lga := parcel.lga
      ward := parcel.ward
      community := parcel.community
      propertyType := parcel.propertyType
      sizeSqm := parcel.sizeSqm
      ownershipType := parcel.ownershipType
      currentOwnerName := parcel.currentOwnerName
      currentOwnerContact := parcel.currentOwnerContact
      createdAt := .now now
      updatedAt := .now now
      geometryReference := parcel.geometryReference }

/-- What `update` assigns to the record it loaded: every column but the identity, the
tenant, the country, the origin, the creator and the time of creation. -/
def Parcel.assignTo (parcel : Parcel) (record : ParcelRecord) : Except PyExc ParcelRecord :=
  (toOptionalUuid parcel.updatedBy).map fun updatedBy =>
    { record with
      status := parcel.status
      parcelNumber := parcel.parcelNumber
      title := parcel.title
      address := parcel.address
      state := parcel.state
      lga := parcel.lga
      ward := parcel.ward
      community := parcel.community
      propertyType := parcel.propertyType
      sizeSqm := parcel.sizeSqm
      ownershipType := parcel.ownershipType
      currentOwnerName := parcel.currentOwnerName
      currentOwnerContact := parcel.currentOwnerContact
      updatedBy
      updatedAt := parcel.updatedAt
      archivedAt := parcel.archivedAt
      geometryReference := parcel.geometryReference }

/-- One column of an UPDATE: written when its value differs from the loaded one. -/
def mergeColumn {α : Type} [DecidableEq α] (loaded assigned stored : α) : α :=
  if assigned = loaded then stored else assigned

/-- The same for a column of floats, where not-a-number differs from itself. -/
def mergeFloat (loaded assigned stored : Option PyFloat) : Option PyFloat :=
  if eqFloat assigned loaded then stored else assigned

/-- The row after an UPDATE, of the record that was loaded, what was assigned to it,
and the row as it is stored. -/
def ParcelRecord.merge (loaded assigned stored : ParcelRecord) : ParcelRecord :=
  { stored with
    status := mergeColumn loaded.status assigned.status stored.status
    parcelNumber := mergeColumn loaded.parcelNumber assigned.parcelNumber stored.parcelNumber
    title := mergeColumn loaded.title assigned.title stored.title
    address := mergeColumn loaded.address assigned.address stored.address
    state := mergeColumn loaded.state assigned.state stored.state
    lga := mergeColumn loaded.lga assigned.lga stored.lga
    ward := mergeColumn loaded.ward assigned.ward stored.ward
    community := mergeColumn loaded.community assigned.community stored.community
    propertyType := mergeColumn loaded.propertyType assigned.propertyType stored.propertyType
    sizeSqm := mergeFloat loaded.sizeSqm assigned.sizeSqm stored.sizeSqm
    ownershipType := mergeColumn loaded.ownershipType assigned.ownershipType stored.ownershipType
    currentOwnerName :=
      mergeColumn loaded.currentOwnerName assigned.currentOwnerName stored.currentOwnerName
    currentOwnerContact :=
      mergeColumn loaded.currentOwnerContact assigned.currentOwnerContact stored.currentOwnerContact
    updatedBy := mergeColumn loaded.updatedBy assigned.updatedBy stored.updatedBy
    updatedAt := mergeColumn loaded.updatedAt assigned.updatedAt stored.updatedAt
    archivedAt := mergeColumn loaded.archivedAt assigned.archivedAt stored.archivedAt
    geometryReference :=
      mergeColumn loaded.geometryReference assigned.geometryReference stored.geometryReference }

/-- No column differs: the flush issues no UPDATE. -/
def ParcelRecord.clean (loaded assigned : ParcelRecord) : Bool :=
  { assigned with sizeSqm := loaded.sizeSqm } = loaded && eqFloat assigned.sizeSqm loaded.sizeSqm

/-! ## Small facts -/

@[simp] theorem mergeColumn_self {α : Type} [DecidableEq α] (loaded assigned : α) :
    mergeColumn loaded assigned loaded = assigned := by
  by_cases same : assigned = loaded <;> simp [mergeColumn, same]

@[simp] theorem mergeFloat_self (loaded assigned : Option PyFloat) :
    mergeFloat loaded assigned loaded = assigned := by
  unfold mergeFloat
  split
  · exact (eq_of_eqFloat ‹_›).symm
  · rfl

@[simp] theorem ParcelRecord.merge_parcelId (loaded assigned stored : ParcelRecord) :
    (loaded.merge assigned stored).parcelId = stored.parcelId := rfl

@[simp] theorem ParcelRecord.merge_tenantId (loaded assigned stored : ParcelRecord) :
    (loaded.merge assigned stored).tenantId = stored.tenantId := rfl

/-- A mutator that succeeds had a parcel that is not archived. -/
theorem Parcel.ensureMutable_ok {parcel parcel' : Parcel} {mutated : Except PyExc Parcel}
    (succeeded : parcel.ensureMutable mutated = .ok parcel') :
    parcel.status = .active ∧ mutated = .ok parcel' := by
  unfold ensureMutable isArchived at succeeded
  cases status : parcel.status with
  | active => simpa [status] using succeeded
  | archived => simp [status] at succeeded

/-- Setting a field leaves everything alone that is not updatable. -/
theorem Parcel.setField_frame (parcel : Parcel) (update : FieldUpdate) :
    (parcel.setField update).parcelId = parcel.parcelId ∧
      (parcel.setField update).tenantId = parcel.tenantId ∧
      (parcel.setField update).createdBy = parcel.createdBy ∧
      (parcel.setField update).status = parcel.status ∧
      (parcel.setField update).archivedAt = parcel.archivedAt ∧
      (parcel.setField update).parcelNumber = parcel.parcelNumber ∧
      (parcel.setField update).geometryReference = parcel.geometryReference := by
  cases update with
  | text field value => cases field <;> exact ⟨rfl, rfl, rfl, rfl, rfl, rfl, rfl⟩
  | sizeSqm value => exact ⟨rfl, rfl, rfl, rfl, rfl, rfl, rfl⟩
  | other key unknown => exact ⟨rfl, rfl, rfl, rfl, rfl, rfl, rfl⟩

end LandVault.Registry
