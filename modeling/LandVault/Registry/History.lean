import LandVault.Registry.Parcel

/-!
# Ownership and status history

The two assertions of `app/contexts/registry/domain/history.py` and their rows. Both
tables have one shape; an assertion says `A` of a parcel, recorded by a principal `P`
at a time `T`.
-/

set_option autoImplicit false

namespace LandVault.Registry

open LandVault.Kernel LandVault.Python

structure AssertionOf (A P T : Type) where
  id : UUID
  tenantId : String
  parcelId : UUID
  asserted : A
  basis : String
  recordedBy : P
  auditRef : Option String
  supersedesId : Option UUID
  recordedAt : T
  deriving DecidableEq

/-- `OwnershipAssertion`, which asserts `asserted_holder_ref`. -/
abbrev OwnershipAssertion := AssertionOf (Option String) String Timestamp

/-- `StatusAssertion`, which asserts `asserted_status`. -/
abbrev StatusAssertion := AssertionOf ParcelStatus String Timestamp

/-- `ParcelOwnershipHistoryRecord`; `recorded_at` is the start of the transaction. -/
abbrev OwnershipRecord := AssertionOf (Option String) UUID Nat

/-- `ParcelStatusHistoryRecord`. -/
abbrev StatusRecord := AssertionOf ParcelStatus UUID Nat

section

variable {A : Type}

/-- `OwnershipAssertion.new` and `StatusAssertion.new`. -/
def AssertionOf.new (id : UUID) (now : DateTime) (tenantId : String) (parcelId : UUID) (asserted : A)
    (basis recordedBy : String) (auditRef : Option String) (supersedesId : Option UUID) :
    AssertionOf A String Timestamp :=
  { id, tenantId, parcelId, asserted, basis, recordedBy, auditRef, supersedesId,
    recordedAt := .clock now }

/-- The row that `record_ownership` and `record_status` make of an assertion, for each
start of its transaction. -/
def AssertionOf.toRecord (assertion : AssertionOf A String Timestamp) :
    Except PyExc (Nat → AssertionOf A UUID Nat) :=
  (toUuid assertion.recordedBy).map fun recordedBy now =>
    { id := assertion.id
      tenantId := assertion.tenantId
      parcelId := assertion.parcelId
      asserted := assertion.asserted
      basis := assertion.basis
      recordedBy
      auditRef := assertion.auditRef
      supersedesId := assertion.supersedesId
      recordedAt := now }

/-- `_ownership_from_record` and `_status_from_record`. -/
def AssertionOf.fromRecord (record : AssertionOf A UUID Nat) : AssertionOf A String Timestamp :=
  { id := record.id
    tenantId := record.tenantId
    parcelId := record.parcelId
    asserted := record.asserted
    basis := record.basis
    recordedBy := record.recordedBy.str
    auditRef := record.auditRef
    supersedesId := record.supersedesId
    recordedAt := .now record.recordedAt }

/-- What a row keeps of its assertion. -/
theorem AssertionOf.toRecord_eq {assertion : AssertionOf A String Timestamp}
    {record : Nat → AssertionOf A UUID Nat} (made : assertion.toRecord = .ok record) (now : Nat) :
    (record now).id = assertion.id ∧ (record now).tenantId = assertion.tenantId ∧
      (record now).parcelId = assertion.parcelId ∧ (record now).asserted = assertion.asserted ∧
      (record now).auditRef = assertion.auditRef ∧
      (record now).supersedesId = assertion.supersedesId ∧ (record now).recordedAt = now := by
  obtain ⟨recordedBy, _, rfl⟩ := map_eq_ok made
  exact ⟨rfl, rfl, rfl, rfl, rfl, rfl, rfl⟩

end
end LandVault.Registry
