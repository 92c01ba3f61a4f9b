import LandVault.Identity.Invitations
import LandVault.Tenancy

/-!
# The geometries of a parcel

The unique index on the parcels of active geometries is partial, so it says that at most one
geometry of a parcel is active, and not which. A submission retires the one that it has read
and inserts its own in one transaction; when two of them meet, the index lets one pass. So
the active geometry is always the one of the last submission that was committed.
-/

set_option autoImplicit false

namespace LandVault

open Kernel Kernel.Audit Identity Registry Spatial Evidence Library.JsonText Library.Programs
open Library.ReadCommitted Python

/-! ## The index on active geometries -/

/-- The geometries of a parcel, in the order in which they were committed. -/
def Tables.surveys (t : Tables) (parcelId : UUID) : List ParcelGeometryRecord :=
  t.parcelGeometries.filter (·.parcelId = parcelId)

/-- The partial index has an entry for each active geometry, and no other. -/
def ActiveIndexed (t : Tables) : Prop :=
  ∀ parcelId, t.partialIndexes.count (.activeGeometry parcelId) =
    (t.parcelGeometries.flatMap Write.activeEntry).count (.activeGeometry parcelId)

section Index

variable {t : Tables} {w : Write}

/-- A write that is not of a geometry changes no entry of the index. -/
theorem activeIndexed_of_static (indexed : ActiveIndexed t)
    (rows : (t.apply w).parcelGeometries = t.parcelGeometries)
    (enters : ∀ parcelId, .activeGeometry parcelId ∉ w.enters)
    (removes : ∀ parcelId, .activeGeometry parcelId ∉ w.removes) : ActiveIndexed (t.apply w) := by
  intro parcelId
  rw [rows, ← indexed, Tables.apply, List.count_append, List.count_eq_zero.mpr (enters parcelId),
    List.count_filter (by simpa using removes parcelId), Nat.zero_add]

/-- An UPDATE of a geometry changes its row alone. -/
theorem geometries_update (unique : t.keys.Nodup) {stored row : ParcelGeometryRecord}
    (stands : Stands t (.updateGeometry stored row)) :
    ∃ front back, t.parcelGeometries = front ++ stored :: back ∧
      (t.apply (.updateGeometry stored row)).parcelGeometries = front ++ row :: back :=
  replaceRow_split (fun row _ => row) (Entity.keys_nodup .geometry unique) stands.1 stands.2

/-- The index follows the geometries. -/
theorem ActiveIndexed.apply (indexed : ActiveIndexed t) (unique : t.keys.Nodup)
    (stands : Stands t w) (steady : Steady w) : ActiveIndexed (t.apply w) := by
  cases w with
  | insertGeometry row =>
      intro parcelId
      have before := indexed parcelId
      simp only [Tables.apply, Tables.writeRow, Write.enters, Write.removes, List.flatMap_append,
        List.flatMap_cons, List.flatMap_nil, List.append_nil, List.count_append]
      simp [before, Nat.add_comm]
  | updateGeometry stored row =>
      have same : row.parcelId = stored.parcelId := by
        have column := congrArg (fun row : ParcelGeometryRecord => row.parcelId) steady
        exact column
      obtain ⟨front, back, held, after⟩ := geometries_update unique stands
      intro parcelId
      have before := indexed parcelId
      have once : t.partialIndexes.count (.activeGeometry parcelId) ≤ 1 :=
        List.nodup_iff_count_le_one.mp (List.Nodup.of_map _ unique.of_append_right) _
      rw [held] at before
      rw [after, Tables.apply, List.count_append, count_filter_notMem]
      simp only [List.flatMap_append, List.flatMap_cons, List.count_append, Write.enters,
        Write.removes] at before ⊢
      rw [count_filter_notMem]
      -- the two entries are the same one, where both rows are active
      by_cases was : stored.status = .active <;> by_cases is : row.status = .active <;>
        by_cases parcel : stored.parcelId = parcelId <;>
          simp [Write.activeEntry, was, is, parcel, same, eq_comm (a := parcelId)]
            at before once ⊢ <;>
          omega
  | insertParcel row | updateParcel stored row =>
      refine activeIndexed_of_static indexed rfl (fun _ => ?_) fun _ => ?_ <;>
        simp [Write.enters, Write.removes, Write.numberEntry]
  | insertInvitation row | updateInvitation stored row =>
      refine activeIndexed_of_static indexed rfl (fun _ => ?_) fun _ => ?_ <;>
        simp [Write.enters, Write.removes, Write.pendingEntry]
  | _ => exact activeIndexed_of_static indexed rfl (by simp [Write.enters]) (by simp [Write.removes])

/-- No geometry is active of a parcel that has no entry. -/
theorem ActiveIndexed.superseded (indexed : ActiveIndexed t) {parcelId : UUID}
    (free : Key.entry (.activeGeometry parcelId) ∉ t.keys) :
    ∀ row ∈ t.surveys parcelId, row.status = .superseded := by
  have absent : .activeGeometry parcelId ∉ t.partialIndexes := fun member =>
    free (List.mem_append_right _ (List.mem_map_of_mem member))
  have nothing := indexed parcelId
  rw [List.count_eq_zero.mpr absent, eq_comm, List.count_eq_zero] at nothing
  intro row member
  obtain ⟨present, parcel⟩ := List.mem_filter.mp member
  cases status : row.status with
  | superseded => rfl
  | active =>
      refine absurd (List.mem_flatMap.mpr ⟨row, present, ?_⟩) nothing
      simp [Write.activeEntry, status, of_decide_eq_true parcel]

end Index

/-! ## Succession -/

/-- The last is active, and those before it are superseded. -/
def LastActive (rows : List ParcelGeometryRecord) : Prop :=
  (∀ row ∈ rows.dropLast, row.status = .superseded) ∧ ∀ row ∈ rows.getLast?, row.status = .active

/-- The geometries of every parcel succeed each other, under the tenant of the parcel, with
boundaries that the validator has returned. -/
structure Successive (t : Tables) : Prop where
  indexed : ActiveIndexed t
  succeeds : ∀ parcelId, LastActive (t.surveys parcelId)
  owned : ∀ row ∈ t.parcelGeometries, OnRegister t row.parcelId row.tenantId
  validated : ∀ row ∈ t.parcelGeometries, ∃ text, validateWktPolygon text = .ok row.boundary

section Succession

variable {t : Tables} {request : SpatialRequest} {ws : List Write}

theorem Successive.of_empty (rows : t.parcelGeometries = []) (entries : t.partialIndexes = []) :
    Successive t := by
  constructor <;> simp [ActiveIndexed, LastActive, Tables.surveys, rows, entries]

theorem surveys_insert (row : ParcelGeometryRecord) (parcelId : UUID) :
    (t.apply (.insertGeometry row)).surveys parcelId =
      if row.parcelId = parcelId then t.surveys parcelId ++ [row] else t.surveys parcelId := by
  change (t.parcelGeometries ++ [row]).filter _ = _
  rw [List.filter_append]
  split
  · rename_i same
    simp [Tables.surveys, same]
  · rename_i other
    simp [Tables.surveys, other]

/-- An UPDATE of a geometry of one parcel leaves those of the others. -/
theorem surveys_update (unique : t.keys.Nodup) {stored row : ParcelGeometryRecord}
    (stands : Stands t (.updateGeometry stored row)) (steady : Steady (.updateGeometry stored row))
    {parcelId : UUID} (other : row.parcelId ≠ parcelId) :
    (t.apply (.updateGeometry stored row)).surveys parcelId = t.surveys parcelId := by
  have same : row.parcelId = stored.parcelId := by
    have column := congrArg (fun row : ParcelGeometryRecord => row.parcelId) steady
    exact column
  obtain ⟨front, back, held, after⟩ := geometries_update unique stands
  rw [Tables.surveys, Tables.surveys, after, held]
  simp [other, same ▸ other]

/-- The new geometry follows those that are not active any more. -/
theorem LastActive.append {rows : List ParcelGeometryRecord} {row : ParcelGeometryRecord}
    (superseded : ∀ row ∈ rows, row.status = .superseded) (active : row.status = .active) :
    LastActive (rows ++ [row]) := by
  constructor
  · simpa using superseded
  · simpa using active

/-- What a list of writes makes of the geometries stays indexed. -/
theorem ActiveIndexed.makes (indexed : ActiveIndexed t) (makes : steadily.Makes t ws) :
    ActiveIndexed (engine.applyAll t ws) :=
  makes.induction (I := ActiveIndexed)
    (fun _ w member unique stands indexed =>
      indexed.apply unique stands (steady_makes makes w member)) indexed

/-- **One commit**, of the tables as they are when it is made. -/
theorem Surveys.succeeds (surveys : Surveys t request ws) (makes : steadily.Makes t ws)
    (indexed : ActiveIndexed t) (succeeds : ∀ parcelId, LastActive (t.surveys parcelId)) :
    ∀ parcelId, LastActive ((engine.applyAll t ws).surveys parcelId) := by
  cases surveys with
  | getActive => exact succeeds
  | @submit _ boundary row ws' named retires active validated owned =>
      intro parcelId
      have steady := steady_makes makes
      -- the index has no entry of the parcel when the new row is inserted
      cases retires with
      | unchanged =>
          obtain ⟨⟨absent, _⟩, _⟩ := makes.grounded
          have free := absent (.entry (.activeGeometry row.parcelId))
            (by simp [engine, Write.adds, Write.rowEntries, Write.enters, Write.activeEntry, active])
          change LastActive ((t.apply (.insertGeometry row)).surveys parcelId)
          rw [surveys_insert]
          split
          · rename_i same
            exact same ▸ .append (indexed.superseded free) active
          · exact succeeds parcelId
      | @written stored old parcel _ =>
          obtain ⟨⟨absent, stands⟩, ⟨absent', _⟩, _⟩ := makes.grounded
          have stands : Stands t (.updateGeometry stored old) := stands
          have first := steady (.updateGeometry stored old) List.mem_cons_self
          have indexed' := indexed.apply makes.unique stands first
          have free := absent' (.entry (.activeGeometry row.parcelId))
            (by simp [engine, Write.adds, Write.rowEntries, Write.enters, Write.activeEntry, active])
          change LastActive (((t.apply (.updateGeometry stored old)).apply
            (.insertGeometry row)).surveys parcelId)
          rw [surveys_insert]
          split
          · rename_i same
            exact same ▸ .append (indexed'.superseded free) active
          · rename_i other
            rw [surveys_update makes.unique stands first (parcel ▸ other)]
            exact succeeds parcelId

/-- What is written once of each geometry. -/
theorem Successive.commit (successive : Successive t) (makes : steadily.Makes t ws)
    (succeeds : ∀ parcelId, LastActive ((engine.applyAll t ws).surveys parcelId))
    (inserted : ∀ row, .insertGeometry row ∈ ws → OnRegister t row.parcelId row.tenantId ∧
      ∃ text, validateWktPolygon text = .ok row.boundary) :
    Successive (engine.applyAll t ws) := by
  have advances : steadily.Advances t (engine.applyAll t ws) :=
    (Discipline.Advances.refl t).tail makes
  have both : ∀ row ∈ (engine.applyAll t ws).parcelGeometries,
      OnRegister t row.parcelId row.tenantId ∧
        ∃ text, validateWktPolygon text = .ok row.boundary := by
    intro row member
    have stems : Stems .geometry t ws row :=
      stems_of_viewed makes.grounded makes.unique (steady_makes makes) member
    obtain ⟨row', same, holds⟩ : ∃ row' : ParcelGeometryRecord,
        Entity.frozen .geometry row' = Entity.frozen .geometry row ∧
        OnRegister t row'.parcelId row'.tenantId ∧
          ∃ text, validateWktPolygon text = .ok row'.boundary := by
      rcases stems with ⟨old, there, same⟩ | ⟨new, member, same⟩
      · exact ⟨old, same, successive.owned old there, successive.validated old there⟩
      · exact ⟨new, same, inserted new member⟩
    have columns := congrArg (fun row : ParcelGeometryRecord =>
      (row.parcelId, row.tenantId, row.boundary)) same
    change (row'.parcelId, row'.tenantId, row'.boundary) =
      (row.parcelId, row.tenantId, row.boundary) at columns
    simp only [Prod.mk.injEq] at columns
    obtain ⟨parcel, tenant, boundary⟩ := columns
    rwa [parcel, tenant, boundary] at holds
  exact ⟨successive.indexed.makes makes, succeeds,
    fun row member => lasting_registered _ _ _ _ advances (both row member).1,
    fun row member => (both row member).2⟩

theorem Surveys.successive (surveys : Surveys t request ws) (makes : steadily.Makes t ws)
    (successive : Successive t) : Successive (engine.applyAll t ws) := by
  refine successive.commit makes (surveys.succeeds makes successive.indexed successive.succeeds) ?_
  cases surveys with
  | getActive => exact fun _ absurd => by cases absurd
  | @submit _ boundary row ws' named retires active validated owned =>
      intro row' member
      obtain rfl : row' = row := by cases retires <;> simpa using member
      exact ⟨owned, boundary, validated⟩

/-- Other contexts write no geometry. -/
theorem Successive.foreign (successive : Successive t) (makes : steadily.Makes t ws)
    (other : ∀ w ∈ ws, w.context ≠ .spatial) : Successive (engine.applyAll t ws) := by
  have same : (engine.applyAll t ws).parcelGeometries = t.parcelGeometries := by
    clear makes successive
    induction ws generalizing t with
    | nil => rfl
    | cons w ws ih =>
        refine (ih fun w member => other w (List.mem_cons_of_mem _ member)).trans ?_
        have mine := other w List.mem_cons_self
        cases w with
        | insertGeometry row => exact absurd rfl mine
        | updateGeometry stored row => exact absurd rfl mine
        | _ => rfl
  refine successive.commit makes (fun parcelId => ?_) fun _ member => absurd rfl (other _ member)
  rw [Tables.surveys, same]
  exact successive.succeeds parcelId

end Succession

/-! ## Superseded for good -/

/-- The geometry is committed, and superseded. -/
def Retired (geometryId : UUID) (t : Tables) : Prop :=
  ∃ row ∈ t.parcelGeometries, row.geometryId = geometryId ∧ row.status = .superseded

section Retired

variable {t : Tables} {request : SpatialRequest} {w : Write} {ws : List Write} {geometryId : UUID}

theorem Retired.apply (retired : Retired geometryId t) (unique : t.keys.Nodup) (stands : Stands t w)
    (keeps : ∀ stored row, w = .updateGeometry stored row →
      row.status = .active → stored.status = .active) : Retired geometryId (t.apply w) := by
  obtain ⟨old, member, named, superseded⟩ := retired
  cases w with
  | insertGeometry row => exact ⟨old, List.mem_append_left _ member, named, superseded⟩
  | updateGeometry stored row =>
      obtain ⟨front, back, held, after⟩ := geometries_update unique stands
      rw [held] at member
      rcases List.mem_append.mp member with earlier | later
      · exact ⟨old, after ▸ List.mem_append_left _ earlier, named, superseded⟩
      · rcases List.mem_cons.mp later with rfl | later
        · refine ⟨row, after ▸ List.mem_append_right _ List.mem_cons_self,
            stands.2.trans named, ?_⟩
          cases status : row.status with
          | superseded => rfl
          | active =>
              have absurd := keeps _ row rfl status
              rw [superseded] at absurd
              cases absurd
        · exact ⟨old, after ▸ List.mem_append_right _ (List.mem_cons_of_mem _ later), named,
            superseded⟩
  | _ => exact ⟨old, member, named, superseded⟩

theorem Retired.makes (retired : Retired geometryId t) (makes : steadily.Makes t ws)
    (keeps : ∀ stored row, .updateGeometry stored row ∈ ws →
      row.status = .active → stored.status = .active) : Retired geometryId (engine.applyAll t ws) :=
  makes.induction (I := Retired geometryId)
    (fun _ _ member unique stands retired => retired.apply unique stands
      fun stored row same => keeps stored row (same ▸ member)) retired

theorem Surveys.keeps (surveys : Surveys t request ws) {stored row : ParcelGeometryRecord}
    (member : .updateGeometry stored row ∈ ws) : row.status = .active → stored.status = .active := by
  cases surveys with
  | getActive => cases member
  | submit named retires active validated owned =>
      cases retires with
      | unchanged => simp at member
      | written parcel keeps =>
          obtain ⟨rfl, rfl⟩ : stored = _ ∧ row = _ := by simpa using member
          exact keeps

end Retired

/-! ## Runs -/

/-- What a parcel refers to is a committed geometry of the parcel, under its tenant. -/
def Located (t : Tables) (parcel : ParcelRecord) : Prop :=
  ∀ reference ∈ parcel.geometryReference, ∃ geometry ∈ t.parcelGeometries,
    UUID.parse reference = some geometry.geometryId ∧ geometry.parcelId = parcel.parcelId ∧
      geometry.tenantId = parcel.tenantId

section Runs

variable {ι : Type} [DecidableEq ι] {platform : ServicePlatform} {ctx : ι → ExecutionContext}
  {call : ι → BackendCall} {tables : Tables}
  {w w' : World ι DbStatement PyExc (ServiceAnswer ⊕ IdentityAnswer) (Database ι) DbSession}

/-- **The geometries of a parcel succeed each other**, whatever the interleaving of submissions
and other calls, and wherever they fail or crash: in every reachable state the one of a parcel
that was committed last is active and all before it are superseded, each is under the tenant of
its parcel, and its boundary is one that the validator returned; and from any state of the run
on, a geometry that is superseded stays so. -/
theorem geometries_succeed (unique : tables.keys.Nodup) (successive : Successive tables)
    (before : World.Reaches (postgres ι) (backendWorld platform ctx call tables) w)
    (reaches : World.Reaches (postgres ι) w w') :
    Successive w'.db.tables ∧
      ∀ geometryId, Retired geometryId w.db.tables → Retired geometryId w'.db.tables := by
  constructor
  · obtain ⟨_, log, chronicle⟩ := chronicle_of_reaches unique .refl (before.trans reaches)
    refine chronicle.serial.induction (I := Successive) ?_ ?_ successive
    · rintro t _ makes ⟨row, rfl⟩ successive
      exact successive.foreign makes fun w member => by rw [List.mem_singleton.mp member]; nofun
    · intro index result t ws _ makes accounts successive
      rcases accounts.spatial with ⟨request, _, surveys⟩ | foreign
      · exact surveys.successive makes successive
      · exact successive.foreign makes foreign
  · obtain ⟨_, log, chronicle⟩ := chronicle_of_reaches unique before reaches
    intro geometryId retired
    refine chronicle.serial.induction (I := Retired geometryId) ?_ ?_ retired
    · rintro t _ makes ⟨row, rfl⟩ retired
      exact retired.makes makes fun _ _ member => by cases List.mem_singleton.mp member
    · intro index result t ws _ makes accounts retired
      refine retired.makes makes fun stored row member => ?_
      rcases accounts.spatial with ⟨request, _, surveys⟩ | foreign
      · exact surveys.keeps member
      · exact absurd rfl (foreign _ member)

/-- The settler submits a square for the parcel. -/
def squareCall : BackendCall :=
  .service (.geometry (.submit "00000000-0000-0000-0000-000000000001"
    "POLYGON((0 0, 1 0, 1 1, 0 0))"))

/-- Three submissions on three days, which are told apart by the day. -/
def submissions : World (Fin 3) DbStatement PyExc (ServiceAnswer ⊕ IdentityAnswer)
    (Database (Fin 3)) DbSession :=
  backendWorld (platformAt 67) (fun _ => settler) (fun _ => squareCall) villageTables

/-- The statuses of the geometries, in the order in which they were committed. -/
def Tables.geometryStatuses (t : Tables) : List (UUID × GeometryStatus) :=
  t.parcelGeometries.map fun row => (row.geometryId, row.status)

/-- The second geometry supersedes the first, the third supersedes the second, and the first
stays superseded. -/
theorem geometries_succeed_square : ∃ w w', World.Reaches (postgres (Fin 3)) submissions w ∧
    World.Reaches (postgres (Fin 3)) w w' ∧
    w.db.tables.geometryStatuses =
      [(sampleId 16, .superseded), (sampleId 32, .active)] ∧
    w'.db.tables.geometryStatuses =
      [(sampleId 16, .superseded), (sampleId 32, .superseded), (sampleId 48, .active)] ∧
    Successive w'.db.tables ∧ Retired (sampleId 16) w'.db.tables := by
  have observed : World.Observed (postgres (Fin 3)) .always submissions
      (turns sampleNow 0 (List.replicate 9 (sampleId 16)) ++
        turns (sampleDay 1) 1 (List.replicate 12 (sampleId 32)))
      (turns (sampleDay 2) 2 (List.replicate 12 (sampleId 48)))
      (fun w w' =>
        w.db.tables.geometryStatuses =
          [(sampleId 16, .superseded), (sampleId 32, .active)] ∧
        w'.db.tables.geometryStatuses =
          [(sampleId 16, .superseded), (sampleId 32, .superseded), (sampleId 48, .active)]) := by
    decide +kernel
  obtain ⟨w, w', before, runs, two, three⟩ := observed.runs
  have retired : Retired (sampleId 16) w.db.tables := by
    have first : (sampleId 16, .superseded) ∈ w.db.tables.geometryStatuses :=
      two ▸ List.mem_cons_self
    obtain ⟨row, member, same⟩ := List.mem_map.mp first
    exact ⟨row, member, congrArg Prod.fst same, congrArg Prod.snd same⟩
  obtain ⟨successive, kept⟩ :=
    geometries_succeed (by decide) (.of_empty rfl rfl) before runs
  exact ⟨w, w', before, runs, two, three, successive, kept _ retired⟩

/-- **No reference of a parcel is dangling**, whatever the interleaving, although no constraint of
the schema says so: what a parcel refers to is a committed geometry of that very parcel, under
its tenant, if it is so at the start. It need not be active any more. -/
theorem references_located (unique : tables.keys.Nodup)
    (located : ∀ parcel ∈ tables.parcels, Located tables parcel)
    (reaches : World.Reaches (postgres ι) (backendWorld platform ctx call tables) w) :
    ∀ parcel ∈ w.db.tables.parcels, Located w.db.tables parcel := by
  obtain ⟨sited, log, chronicle⟩ := chronicle_of_reaches unique .refl reaches
  have advances : steadily.Advances tables w.db.tables := chronicle.serial.advances
  intro parcel member reference given
  rcases sited parcel member reference given with found | ⟨old, there, named, same⟩
  · exact found
  obtain ⟨geometry, present, parsed, placed, owned⟩ := located old there reference same
  obtain ⟨geometry', present', kept⟩ := frozen_of_advances (e := .geometry) advances present
  have columns := congrArg (fun row : ParcelGeometryRecord =>
    (row.geometryId, row.parcelId, row.tenantId)) kept
  change (geometry'.geometryId, geometry'.parcelId, geometry'.tenantId) =
    (geometry.geometryId, geometry.parcelId, geometry.tenantId) at columns
  simp only [Prod.mk.injEq] at columns
  obtain ⟨id, parcelId, tenantId⟩ := columns
  obtain ⟨parcel', member', alike⟩ := frozen_of_advances (e := .parcel) advances there
  have distinct : (w.db.tables.parcels.map (·.parcelId)).Nodup :=
    Entity.keys_nodup .parcel (advances.unique unique)
  have key : parcel'.parcelId = old.parcelId := Entity.key_of_frozen alike
  obtain rfl : parcel' = parcel :=
    List.inj_on_of_nodup_map distinct member' member (key.trans named)
  have tenant : parcel'.tenantId = old.tenantId := by
    have column := congrArg (fun row : ParcelRecord => row.tenantId) alike
    exact column
  exact ⟨geometry', present', id ▸ parsed, parcelId.trans (placed.trans named),
    tenantId.trans (owned.trans tenant.symm)⟩

/-- The village, where the first parcel has a geometry. -/
def fencedTables : Tables :=
  { villageTables with
    parcelGeometries :=
      [{ geometryId := sampleId 5, tenantId := "t-1", parcelId := sampleId 1, boundary := "b"
         createdBy := sampleId 2, createdAt := .now 0 }]
    partialIndexes := [.activeGeometry (sampleId 1)] }

/-- The settler makes it what the parcel refers to. -/
def referenceCall : BackendCall :=
  .service (.parcel (.setGeometryReference "00000000-0000-0000-0000-000000000001"
    (some "00000000-0000-0000-0000-000000000005")))

theorem references_located_fenced : ∃ w a, World.Reaches (postgres Unit)
    (backendWorld servicePlatform (fun _ => settler) (fun _ => referenceCall) fencedTables) w ∧
    (w.task ()).answer = some (.ok a) ∧
    w.db.tables.parcels.any (·.geometryReference.isSome) = true ∧
    ∀ parcel ∈ w.db.tables.parcels, Located w.db.tables parcel := by
  obtain ⟨w, result, reaches, answered, holds⟩ := reached_of_play
    (getDbSession settler (referenceCall.serve servicePlatform settler)) fencedTables (drawn 10)
    (fun t result => result.toOption.isSome && t.parcels.any (·.geometryReference.isSome))
    (by decide +kernel)
  rw [Bool.and_eq_true] at holds
  obtain ⟨ends, referring⟩ := holds
  have start : ∀ parcel ∈ fencedTables.parcels, Located fencedTables parcel := by
    have none : ∀ parcel ∈ fencedTables.parcels, parcel.geometryReference = none := by decide
    intro parcel member reference given
    rw [none parcel member] at given
    cases given
  cases result with
  | error e => cases ends
  | ok a =>
      exact ⟨w, a, reaches, answered, referring,
        references_located (by decide) start reaches⟩

end Runs
end LandVault
