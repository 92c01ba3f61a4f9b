import LandVault.Rejections

/-!
# Which updates the ownership history records

`update_parcel` compares the holder that the two columns assert before and after the
update, joined into one text. ADR-023 wants a row for every change of the columns; two
pairs of columns that are joined into the same text are not told apart.
-/

set_option autoImplicit false

namespace LandVault

open Kernel Identity Registry Spatial Library.Programs Library.ReadCommitted Python

/-- `current_owner_name` and `current_owner_contact`. -/
def Registry.ParcelOf.owner {P : Type} (parcel : ParcelOf P) : Option String × Option String :=
  (parcel.currentOwnerName, parcel.currentOwnerContact)

theorem Registry.ParcelRecord.holderRef_of_owner {record new : ParcelRecord}
    (same : new.owner = record.owner) : new.holderRef = record.holderRef :=
  congrArg (fun owner : Option String × Option String => assertedHolderRef owner.1 owner.2) same

/-- `update_details` sets these. -/
def Registry.Parcel.edited (parcel : Parcel) (fields : FieldMap) : Parcel :=
  fields.items.foldl Parcel.setField parcel

/-- The joined text tells the two pairs apart, unless they are one. -/
def HolderDistinguishes (before after : Option String × Option String) : Prop :=
  after = before ∨
    assertedHolderRef after.1 after.2 ≠ assertedHolderRef before.1 before.2

/-- The stored pair becomes the one that the fields make of it, and the history has a new
row if and only if that is another pair. -/
structure OwnershipRecorded (t t' : Tables) (record : ParcelRecord) (fields : FieldMap) : Prop where
  rows : ∃ rows, t'.ownershipHistory = t.ownershipHistory ++ rows ∧
    rows.length = if ((ParcelRecord.parcel record).edited fields).owner = record.owner then 0 else 1

/-- What an update stores of the two columns. -/
theorem Rewrites.owner {ctx : ExecutionContext} {parcelId : String} {fields : FieldMap}
    {record new : ParcelRecord} (rewrites : Rewrites ctx (.update parcelId fields) record new) :
    new.owner = ((ParcelRecord.parcel record).edited fields).owner := by
  obtain ⟨parcel, mutates, made⟩ := rewrites.exists_parcel
  obtain ⟨updatedBy, _, rfl⟩ := map_eq_ok made
  cases mutates with
  | update edited =>
      obtain ⟨_, edited⟩ := Parcel.ensureMutable_ok edited
      split at edited
      · cases edited
      · cases edited
        rfl

/-- The row after an update that finds the row it has loaded. -/
theorem Rewrites.merge {ctx : ExecutionContext} {request : ParcelRequest}
    {record new : ParcelRecord} (rewrites : Rewrites ctx request record new) :
    record.merge new record = new := by
  obtain ⟨parcel, _, made⟩ := rewrites.exists_parcel
  obtain ⟨updatedBy, _, rfl⟩ := map_eq_ok made
  simp [ParcelRecord.merge]

/-! ## Rows of history -/

namespace Tables

theorem parcels_insertOwnership (u : Tables) (owners : List OwnershipRecord) :
    (engine.applyAll u (owners.map .insertOwnership)).parcels = u.parcels := by
  induction owners generalizing u with
  | nil => rfl
  | cons owner owners ih => exact ih (u.apply (.insertOwnership owner))

theorem ownershipHistory_insertOwnership (u : Tables) (owners : List OwnershipRecord) :
    (engine.applyAll u (owners.map .insertOwnership)).ownershipHistory =
      u.ownershipHistory ++ owners := by
  induction owners generalizing u with
  | nil => exact (List.append_nil _).symm
  | cons owner owners ih =>
      refine (ih (u.apply (.insertOwnership owner))).trans ?_
      exact List.append_assoc u.ownershipHistory [owner] owners

end Tables

/-- There is a row of history where the joined texts differ. -/
theorem Transfers.length {x : Transaction} {u : Tables} {record new : ParcelRecord}
    {owners : List OwnershipRecord} (transfers : Transfers x u record new owners) :
    owners.length = if new.holderRef = record.holderRef then 0 else 1 := by
  cases transfers with
  | same holder => simp [holder]
  | changed holder asserts => simp [holder]

/-! ## Accepted updates -/

/-- What an answered request has stored. -/
theorem Leaves.stored {β : Type} {t t' : Tables} {ctx : ExecutionContext} {request : Request β}
    {b : β} (leaves : Leaves t (getDbSession ctx request) t' (some (.ok b))) (unique : t.keys.Nodup)
    {P : Transaction → β → Tables → Prop} {R : Transaction → PyExc → Tables → Prop}
    (body : ∀ x db s, x.base = t.records → x.scope = scopeOf ctx → Staged x t.records db s →
      Keeps (fun _ => True) (fun _ => True) (fun b => Ready x (P x b)) (Raising x (R x)) request
        db s) :
    ∃ x : Transaction, x.base = t.records ∧ x.scope = scopeOf ctx ∧ P x b t'.records := by
  have ends : ∀ db s, Idle t.records db s → Keeps (fun _ => True) (fun _ => True)
      (fun b db _ => ∃ x : Transaction, x.base = t.records ∧ x.scope = scopeOf ctx ∧
        P x b db.tables.records) (fun _ _ _ => True) (getDbSession ctx request) db s := by
    intro db s idle
    refine (idle.getDbSession ctx (fun _ _ _ _ => trivial) (fun _ _ _ _ => trivial)
      fun x db' s' base scope _ staged => body x db' s' base scope staged).mono ?_
        fun _ _ _ _ => trivial
    rintro b db s ⟨x, base, scope, _, stored⟩
    exact ⟨x, base, scope, stored.2⟩
  obtain ⟨_, _, ended⟩ := leaves.of_keeps unique trivial ends
  obtain ⟨db, s, rfl, stored⟩ := ended _ rfl
  exact stored

/-- **An update is recorded where the joined text tells the pairs apart**, and only there:
then the history has one new row for a change of the pair, and none for no change. -/
theorem ownership_recorded_iff {platform : Platform} {ctx : ExecutionContext} {parcelId : String}
    {fields : FieldMap} {t t' : Tables} {view : ParcelView} (unique : t.keys.Nodup)
    (accepted : Leaves t
      (getDbSession ctx (Registry.updateParcel platform ctx parcelId fields)) t' (some (.ok view))) :
    ∃ record ∈ t.parcels, UUID.parse parcelId = some record.parcelId ∧
      (∃ new ∈ t'.parcels, new.parcelId = record.parcelId ∧
        new.owner = ((ParcelRecord.parcel record).edited fields).owner) ∧
      (OwnershipRecorded t t' record fields ↔
        HolderDistinguishes record.owner ((ParcelRecord.parcel record).edited fields).owner) := by
  obtain ⟨x, base, scope, ws, registers, stored⟩ := accepted.stored unique
    (R := fun _ => Unchanged t.records) fun x db s base scope staged =>
      staged.updateParcel (x := x) parcelId fields
  cases registers with
  | @update _ _ record new owners targets rewrites transfers =>
      have member : record ∈ t.parcels := Entity.mem_rows_of_seen (e := .parcel) targets.visible
      have history : t'.ownershipHistory = t.ownershipHistory ++ owners :=
        (congrArg Tables.ownershipHistory stored).trans
          (Tables.ownershipHistory_insertOwnership _ owners)
      have parcels : t'.parcels = (t.records.apply (.updateParcel record new)).parcels :=
        (congrArg Tables.parcels stored).trans (Tables.parcels_insertOwnership _ owners)
      have written : new ∈ t'.parcels := by
        rw [parcels]
        exact (Entity.mem_rows_update (e := .parcel) member rewrites.merge).2 rfl
      refine ⟨record, member, targets.named,
        ⟨new, written, rewrites.sameIdentity.parcelId, rewrites.owner⟩, ?_⟩
      rw [← rewrites.owner]
      constructor
      · rintro ⟨rows, appended, count⟩
        have same : rows = owners := List.append_cancel_left (appended.symm.trans history)
        rw [same, transfers.length, ← rewrites.owner] at count
        by_cases owner : new.owner = record.owner
        · exact .inl owner
        · refine .inr fun holder => ?_
          have holder : new.holderRef = record.holderRef := holder
          simp [owner, holder] at count
      · intro distinguishes
        refine ⟨owners, history, ?_⟩
        rw [transfers.length, ← rewrites.owner]
        rcases distinguishes with owner | holder
        · simp [owner, ParcelRecord.holderRef_of_owner owner]
        · have holder : new.holderRef ≠ record.holderRef := holder
          have owner : new.owner ≠ record.owner := fun owner =>
            holder (ParcelRecord.holderRef_of_owner owner)
          simp [owner, holder]

/-- A parcel whose owner is given in one text. -/
def joinedTables : Tables where
  tenants := [{ id := "t-1" }]
  identityUsers := [{ id := sampleId 2, tenantId := "t-1", identitySubject := "s-2", email := "2" }]
  parcels := [{ parcelId := sampleId 1, tenantId := "t-1", countryCode := "NG", origin := "o",
                createdBy := sampleId 2, createdAt := .now 0, updatedAt := .now 0
                currentOwnerName := some "a (b)" }]

def registrant : ExecutionContext :=
  { principalId := "00000000-0000-0000-0000-000000000002", tenantId := some "t-1" }

/-- The same holder, name and contact given apart. -/
def splitFields : FieldMap where
  items := [.text .currentOwnerName (some "a"), .text .currentOwnerContact (some "b")]
  distinct := by decide

/-- Another holder. -/
def soldFields : FieldMap where
  items := [.text .currentOwnerName (some "c")]
  distinct := by decide

/-- The choices of the outside world, with an identifier of its own for each statement. -/
def apartChoices (steps : Nat) : List (Choice Env) :=
  (List.range steps).map fun n => { env := { uuid := sampleId (n % 100 + 10),
                                             now := sampleNow } }

/-- An update that is accepted. -/
theorem exists_accepted (fields : FieldMap) (steps : Nat) (φ : Tables → Bool)
    (observed : (play (postgres Unit) () (apartChoices steps)
      { tables := joinedTables } freshSession (getDbSession registrant
        (Registry.updateParcel servicePlatform.toPlatform registrant
          "00000000-0000-0000-0000-000000000001" fields))).any
      (fun ended => ended.1.toOption.isSome && φ ended.2.1.tables) = true) :
    ∃ t' view, φ t' = true ∧ Leaves joinedTables (getDbSession registrant
      (Registry.updateParcel servicePlatform.toPlatform registrant
        "00000000-0000-0000-0000-000000000001" fields)) t' (some (.ok view)) := by
  obtain ⟨t', result, holds, leaves⟩ := leaves_of_play _ joinedTables _
    (fun t' result => result.toOption.isSome && φ t') observed
  cases result with
  | error e => simp [Except.toOption] at holds
  | ok view => exact ⟨t', view, by simpa [Except.toOption] using holds, leaves⟩

theorem ownership_recorded_iff_sold : ∃ t' view,
    Leaves joinedTables (getDbSession registrant
      (Registry.updateParcel servicePlatform.toPlatform registrant
        "00000000-0000-0000-0000-000000000001" soldFields)) t' (some (.ok view)) ∧
    ∃ record ∈ joinedTables.parcels,
      UUID.parse "00000000-0000-0000-0000-000000000001" = some record.parcelId ∧
      (∃ new ∈ t'.parcels, new.parcelId = record.parcelId ∧
        new.owner = ((ParcelRecord.parcel record).edited soldFields).owner) ∧
      (OwnershipRecorded joinedTables t' record soldFields ↔
        HolderDistinguishes record.owner
          ((ParcelRecord.parcel record).edited soldFields).owner) := by
  obtain ⟨t', view, _, leaves⟩ := exists_accepted soldFields 16 (fun _ => true) (by decide +kernel)
  exact ⟨t', view, leaves, ownership_recorded_iff (by decide) leaves⟩

/-- The pair of columns changes, and the history has no row. -/
theorem split_not_recorded : ∃ t' view,
    Leaves joinedTables (getDbSession registrant
      (Registry.updateParcel servicePlatform.toPlatform registrant
        "00000000-0000-0000-0000-000000000001" splitFields)) t' (some (.ok view)) ∧
    ∃ record ∈ joinedTables.parcels,
      ((ParcelRecord.parcel record).edited splitFields).owner ≠ record.owner ∧
      ¬ OwnershipRecorded joinedTables t' record splitFields := by
  obtain ⟨t', view, none, leaves⟩ := exists_accepted splitFields 9
    (fun t' => t'.ownershipHistory.isEmpty) (by decide +kernel)
  refine ⟨t', view, leaves, _, List.mem_cons_self, by decide, ?_⟩
  rintro ⟨rows, appended, count⟩
  rw [List.isEmpty_iff.mp none] at appended
  rw [(List.append_eq_nil_iff.mp appended.symm).2] at count
  exact absurd count (by decide)

end LandVault
