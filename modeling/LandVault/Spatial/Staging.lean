import LandVault.Registry.Staging
import LandVault.Spatial.SpatialService

/-!
# The repositories of the Spatial context, in a transaction that runs alone

What each operation answers and stages, and what the adapter tells the Registry.
-/

set_option autoImplicit false

namespace LandVault

open Kernel Kernel.Audit Identity Registry Spatial Library.Lineage Library.Programs
open Library.ReadCommitted Python

section Rules

variable {α β : Type} {allowed : Tables → Prop} {C : Env → Prop} {x : Transaction} {u : Tables}
  {db : Database Unit} {s : DbSession} {platform : SpatialPlatform} {ctx : ExecutionContext}

/-! ## The repository -/

theorem Staged.getActiveForParcel (staged : Staged x u db s) (parcelId : String) :
    Keeps allowed C
      (fun found db s => Staged x u db s ∧ ∃ key, ∃ active : Option ParcelGeometryRecord,
        UUID.parse parcelId = some key ∧
        (geometryMapper.seen u x.scope).filter
          (fun row => row.parcelId = key && row.status = .active) = active.toList ∧
        found = active.map ParcelGeometryRecord.geometry)
      (Failed x u) (ParcelGeometryRepository.getActiveForParcel parcelId) db s := by
  refine (staged.toUuid parcelId).bind ?_
  rintro key db s ⟨staged, parsed⟩
  refine (staged.scalarOneOrNone .geometry _).bind ?_
  rintro row db s ⟨staged, one⟩
  exact ⟨staged, key, row, parsed, one, rfl⟩

theorem Staged.updateGeometryRow (staged : Staged x u db s) (geometry : ParcelGeometry) :
    Keeps allowed C
      (fun _ db s => ∃ record ∈ geometryMapper.seen u x.scope,
        record.geometryId = geometry.geometryId ∧
        Staged x (u.apply (.updateGeometry record (geometry.assignTo record))) db s)
      (Failed x u) (ParcelGeometryRepository.update geometry) db s := by
  refine (staged.lookup .geometry geometry.geometryId).bind ?_
  rintro found db s ⟨staged, answered⟩
  cases found with
  | none => exact ⟨rfl, .inr staged⟩
  | some record =>
      obtain ⟨visible, named⟩ := Entity.mem_of_lookup answered.symm
      refine (staged.flush .geometry visible ?_).bind ?_
      · simp only [Entity.mapper, geometryMapper, ParcelGeometryRecord.merge,
          ParcelGeometry.assignTo, ParcelGeometryOf.mk.injEq, ite_eq_right_iff, true_and]
        exact ⟨Eq.symm, Eq.symm⟩
      · rintro updated db s ⟨rfl, staged⟩
        exact ⟨record, visible, named, staged⟩

theorem Staged.addGeometry (staged : Staged x u db s) (geometry : ParcelGeometry) :
    Keeps allowed C
      (fun added db s => ∃ row, geometry.toRecord = .ok row ∧
        added = (row x.startedAt).geometry ∧
        geometryMapper.foreign u (row x.startedAt) = .ok () ∧
        geometryMapper.sees u x.scope (row x.startedAt) = true ∧
        Staged x (u.apply (.insertGeometry (row x.startedAt))) db s)
      (Failed x u) (ParcelGeometryRepository.add geometry) db s := by
  refine Meets.bind (N := fun row db s => geometry.toRecord = .ok row ∧ Staged x u db s)
    (.ofExcept (fun _ made => ⟨made, staged⟩) fun e raised => ?_) ?_
  · rcases bind_eq_error raised with failed | ⟨_, _, failed⟩
    · obtain ⟨message, rfl⟩ := toUuid_error failed
      exact ⟨rfl, .inr staged⟩
    · obtain ⟨message, rfl⟩ := toUuid_error (map_eq_error failed)
      exact ⟨rfl, .inr staged⟩
  rintro row db s ⟨made, staged⟩
  refine (staged.add .geometry _).bind ?_
  rintro added db s ⟨⟨v, env, _, _, rfl⟩, foreign, sees, staged⟩
  exact ⟨row, made, rfl, foreign, sees, staged⟩

/-- A geometry that a reference names. -/
structure Refers (scope : Scope) (u : Tables) (reference tenantId parcelId : String) : Prop where
  names : ∃ row ∈ geometryMapper.seen u scope, UUID.parse reference = some row.geometryId ∧
    row.status = .active ∧ row.tenantId = tenantId ∧ row.parcelId.str = parcelId

theorem Staged.referenceIsValid (staged : Staged x u db s) (reference tenantId parcelId : String) :
    Keeps allowed C
      (fun valid db s => Staged x u db s ∧
        (valid = true → Refers x.scope u reference tenantId parcelId))
      (Failed x u) (RealGeometryAdapter.referenceIsValid reference tenantId parcelId) db s := by
  have found : Keeps allowed C
      (fun (found : Option ParcelGeometry) db s => Staged x u db s ∧ ∀ geometry ∈ found,
        ∃ row ∈ geometryMapper.seen u x.scope, UUID.parse reference = some row.geometryId ∧
          geometry = row.geometry)
      (Failed x u)
      (tryCatch (ParcelGeometryRepository.get reference) RealGeometryAdapter.referenceIsValid.malformed)
      db s := by
    refine Meets.handle (N := fun e db s => (∃ message, e = .value message ∧ Staged x u db s) ∨
      Cut x u e db s) ?_ ?_
    · refine Meets.bind (N := fun key db s => UUID.parse reference = some key ∧ Staged x u db s)
        (.ofExcept (fun _ made => ⟨toUuid_ok made, staged⟩) fun e raised => ?_) ?_
      · obtain ⟨message, rfl⟩ := toUuid_error raised
        exact .inl ⟨message, rfl, staged⟩
      rintro key db s ⟨parsed, staged⟩
      refine ((staged.get .geometry key).mono (fun _ _ _ found => found)
        fun _ _ _ cut => .inr cut).bind ?_
      rintro record db s ⟨staged, answered⟩
      refine ⟨staged, fun geometry same => ?_⟩
      obtain ⟨row, rfl, rfl⟩ := Option.map_eq_some_iff.mp same
      obtain ⟨visible, named⟩ := Entity.mem_of_lookup answered.symm
      exact ⟨row, visible, by rw [parsed, ← named]; rfl, rfl⟩
    · rintro e db s (⟨message, rfl, staged⟩ | ⟨rfl, lost⟩)
      · exact ⟨staged, nofun⟩
      · exact ⟨rfl, lost⟩
  refine found.bind ?_
  rintro geometry db s ⟨staged, names⟩
  cases geometry with
  | none => exact ⟨staged, nofun⟩
  | some geometry =>
      obtain ⟨row, visible, parsed, rfl⟩ := names geometry rfl
      refine ⟨staged, fun valid => ⟨row, visible, parsed, ?_⟩⟩
      simp only [ParcelGeometryRecord.geometry, Bool.and_eq_true, beq_iff_eq, and_assoc] at valid
      exact ⟨of_decide_eq_true valid.1, valid.2⟩

/-! ## What a request finds -/

theorem Staged.getParcelAuthority (staged : Staged x u db s) (parcelId : String) :
    Keeps allowed C
      (fun found db s => Staged x u db s ∧ ∃ key, UUID.parse parcelId = some key ∧
        found = (Entity.lookup .parcel u x.scope key).map fun row =>
          ⟨row.tenantId, row.createdBy.str, row.status⟩)
      (Failed x u) (ParcelExistencePort.getParcelAuthority parcelId) db s := by
  refine staged.peek ?_ ?_
  · rintro v e (raised | ⟨memo, w, raised⟩)
    · exact driverUuid_notHttp (map_eq_error raised)
    · obtain ⟨_, _, same⟩ := map_eq_ok raised
      cases same
  · intro v env memo found w same _ _ ran
    obtain ⟨key, read, same'⟩ := map_eq_ok ran
    cases same'
    refine ⟨rfl, ⟨_, rfl⟩, key, driverUuid_eq_ok read, ?_⟩
    rw [← same]
    simp only [visible, Entity.lookup, Mapper.seen, staged.scope]
    rfl

theorem Staged.loadAuthorityInScope (staged : Staged x u db s) (parcelId : String) :
    Keeps allowed C
      (fun authority db s => Staged x u db s ∧ ∃ record, Locates ctx x.scope u parcelId record ∧
        authority = ⟨record.tenantId, record.createdBy.str, record.status⟩)
      (Raising x (Unchanged u)) (Spatial.loadAuthorityInScope ctx parcelId) db s := by
  refine keeps_then (staged.getParcelAuthority parcelId) ?_
  rintro found db s ⟨staged, key, parsed, rfl⟩
  cases answered : Entity.lookup .parcel u x.scope key with
  | none => exact staged.raise rfl
  | some record =>
      obtain ⟨visible, rfl⟩ := Entity.mem_of_lookup answered
      refine .ite (fun inside => ?_) fun _ => staged.raise rfl
      exact ⟨staged, record, ⟨visible, parsed, inside⟩, rfl⟩

end Rules
end LandVault
