import LandVault.Kernel.Mapping
import LandVault.Kernel.Uow

/-!
# The repositories of the Registry context

`app/contexts/registry/adapters/postgres_repositories.py`, over the mapped class of
`adapters/orm.py` and the policies and constraints of migrations 0007 to 0011. The rows
of the two histories never change, so an identity map that answers in place of the table
answers the same; the model asks the table.
-/

set_option autoImplicit false

namespace LandVault.Registry

open Kernel Library.Lineage Library.Numerals Library.Programs Library.ReadCommitted Python

/-! ## Parcels -/

theorem ParcelRecord.eq_of_clean {loaded new : ParcelRecord}
    (clean : ParcelRecord.clean loaded new = true) : new = loaded := by
  simp only [ParcelRecord.clean, Bool.and_eq_true, decide_eq_true_eq] at clean
  obtain ⟨others, size⟩ := clean
  rw [← eq_of_eqFloat size] at others
  exact others

def parcelMapper : Mapper ParcelRecord UUID where
  table := "parcels"
  rows := (·.parcels)
  sees := fun _ scope row => scope.sees row.tenantId
  key := (·.parcelId)
  loaded := (·.parcels)
  remember := fun parcels memo => { memo with parcels }
  merge := ParcelRecord.merge
  clean := ParcelRecord.clean
  assign := fun row _ => row
  insert := .insertParcel
  update := .updateParcel
  values := fun row =>
    if row.countryCode.length ≤ 2 then .ok ()
    else .error (.database "value too long for type character varying(2)")
  foreign := fun t row =>
    (tenantExists "parcels_tenant_id_fkey" t row.tenantId).bind fun _ =>
      (userExists "parcels_created_by_fkey" t row.createdBy).bind fun _ =>
        optionalUserExists "parcels_updated_by_fkey" t row.updatedBy
  noted := .parcel
  eq_of_clean := ParcelRecord.eq_of_clean
  assign_of_merge := fun _ => rfl

namespace ParcelRepository

/-- `add`. -/
def add (parcel : Parcel) : Request Parcel := do
  let row ← Program.ofExcept parcel.toRecord
  let record ← parcelMapper.add fun view => row view.startedAt
  pure (ParcelRecord.parcel record)

/-- `get`. -/
def get (parcelId : String) : Request (Option Parcel) :=
  match UUID.parse parcelId with
  | none => pure none
  | some key => do
      let record ← parcelMapper.get key
      pure (record.map ParcelRecord.parcel)

/-- `list_for_tenant`. -/
def listForTenant (tenantId : String) : Request (List Parcel) := do
  let records ← parcelMapper.select (·.tenantId = tenantId)
  pure ((newestFirst (·.createdAt) records).map ParcelRecord.parcel)

/-- `update`. -/
def update (parcel : Parcel) : Request Parcel := do
  match ← parcelMapper.get parcel.parcelId with
  | none => throw (notFoundError "parcel" parcel.parcelId.str)
  | some record =>
      let assigned ← Program.ofExcept (parcel.assignTo record)
      let record ← parcelMapper.flush record assigned
      pure (ParcelRecord.parcel record)

end ParcelRepository

/-! ## Histories -/

namespace ParcelHistoryRepository

/-- What both tables of assertions have: a name, the rows, the write of a new row, and
what a transaction notes of the latest row it has read. -/
structure History (A : Type) where
  table : String
  rows : Tables → List (AssertionOf A UUID Nat)
  insert : AssertionOf A UUID Nat → Write
  noted : UUID → Option (AssertionOf A UUID Nat) → Read

def ownership : History (Option String) where
  table := "parcel_ownership_history"
  rows := (·.ownershipHistory)
  insert := .insertOwnership
  noted := .latestOwnership

def status : History ParcelStatus where
  table := "parcel_status_history"
  rows := (·.statusHistory)
  insert := .insertStatus
  noted := .latestStatus

section

variable {A : Type} (history : History A)

/-- The foreign keys of a row. -/
def History.foreign (t : Tables) (row : AssertionOf A UUID Nat) : Except PyExc Unit :=
  (tenantExists (history.table ++ "_tenant_id_fkey") t row.tenantId).bind fun _ =>
    (parcelExists (history.table ++ "_parcel_id_fkey") t row.parcelId).bind fun _ =>
      (userExists (history.table ++ "_recorded_by_fkey") t row.recordedBy).bind fun _ =>
        match row.supersedesId with
        | none => .ok ()
        | some superseded =>
            if ((history.rows t).map (·.id)).contains superseded then .ok ()
            else .error (foreignKeyViolation (history.table ++ "_supersedes_id_fkey"))

/-- What `record_ownership` and `record_status` share. -/
def History.record (assertion : AssertionOf A String Timestamp) :
    Request (AssertionOf A String Timestamp) := do
  let model ← Program.ofExcept assertion.toRecord
  .perform <| .query fun view =>
    let row := model view.startedAt
    if view.memo.scope.sees row.tenantId then
      .ok { memo := view.memo
            answer := (history.foreign view.tables row).map fun _ => row.fromRecord
            write := some (history.insert row) }
    else .error (rowSecurityViolation history.table)

/-- What `latest_ownership` and `latest_status` share. -/
def History.latest (parcelId : UUID) : Request (Option (AssertionOf A String Timestamp)) :=
  .perform <| .query fun view =>
    let row := newest (·.recordedAt) view.env.pick
      ((visible (·.tenantId) history.rows view).filter (·.parcelId = parcelId))
    .ok { memo := { view.memo with reads := history.noted parcelId row :: view.memo.reads }
          answer := .ok (row.map AssertionOf.fromRecord) }

end

/-- `record_ownership`. -/
def recordOwnership (assertion : OwnershipAssertion) : Request OwnershipAssertion :=
  ownership.record assertion

/-- `record_status`. -/
def recordStatus (assertion : StatusAssertion) : Request StatusAssertion := status.record assertion

/-- `latest_ownership`. -/
def latestOwnership (parcelId : UUID) : Request (Option OwnershipAssertion) :=
  ownership.latest parcelId

/-- `latest_status`. -/
def latestStatus (parcelId : UUID) : Request (Option StatusAssertion) := status.latest parcelId

end ParcelHistoryRepository

/-! ## Parcel numbers -/

/-- `f"LV-{country_code}-{sequence_value:06d}"`. -/
def formatParcelNumber (countryCode : String) (sequenceValue : Nat) : String :=
  "LV-" ++ countryCode ++ "-" ++ String.ofList (padded 6 sequenceValue)

/-- `ParcelNumberAllocator.allocate`: one upsert, which finds the counter as it is when
the row is locked. -/
def ParcelNumberAllocator.allocate (countryCode : String) : Request String :=
  .perform <| .query fun view =>
    let value := (view.tables.counter countryCode).getD 0 + 1
    if 2 < countryCode.length then
      .error (.database "value too long for type character varying(2)")
    else if 2 ^ 63 ≤ value then .error (.database "bigint out of range")
    else if view.memo.scope.authenticated then
      .ok { memo := view.memo
            answer := .ok (formatParcelNumber countryCode value)
            write := some (.upsertCounter countryCode value) }
    else .error (rowSecurityViolation "registry_parcel_counters")

end LandVault.Registry
