import LandVault.Anchors

/-!
# What requests about geometries commit

A submission inserts an active geometry of the parcel that it names, under the tenant that
the parcel has, and may retire an older one of that parcel in the same transaction. What it
retires is the geometry that it has read, whatever has become of it since.
-/

set_option autoImplicit false

namespace LandVault

open Kernel Kernel.Audit Identity Registry Spatial Library.Programs Library.ReadCommitted Python

/-! ## Writes of a submission -/

/-- At most one geometry of the parcel is written over, and is not active by that. -/
inductive Retires (parcelId : UUID) : List Write → Prop
  | unchanged : Retires parcelId []
  | written {stored row : ParcelGeometryRecord} (parcel : row.parcelId = parcelId)
      (keeps : row.status = .active → stored.status = .active) :
      Retires parcelId [.updateGeometry stored row]

/-- What a request about geometries may commit. -/
inductive Surveys (t : Tables) : SpatialRequest → List Write → Prop
  | getActive {parcelId : String} : Surveys t (.getActive parcelId) []
  | submit {parcelId boundary : String} {row : ParcelGeometryRecord} {ws : List Write}
      (named : UUID.parse parcelId = some row.parcelId) (retires : Retires row.parcelId ws)
      (active : row.status = .active)
      (validated : validateWktPolygon boundary = .ok row.boundary)
      (owned : OnRegister t row.parcelId row.tenantId) :
      Surveys t (.submit parcelId boundary) (ws ++ [.insertGeometry row])

theorem Surveys.later {t t' : Tables} {request : SpatialRequest} {ws : List Write}
    (surveys : Surveys t request ws) (advances : steadily.Advances t t') :
    Surveys t' request ws := by
  cases surveys with
  | getActive => exact .getActive
  | submit named retires active validated owned =>
      exact .submit named retires active validated (lasting_registered _ _ _ _ advances owned)

/-! ## The walk -/

section Rules

variable {ι α : Type} [DecidableEq ι] {index : ι} {base : Tables}
  {fresh : Tables → Memo → Write → Prop} {F : Tables → Prop} {known : List Read} {ws : List Write} {db : Database ι} {s : DbSession}
  {X : PyExc → Assertion (Database ι) DbSession} {platform : SpatialPlatform}
  {ctx : ExecutionContext}

/-- What is pending of a request about geometries when it ends. -/
def Surveyed {ι : Type} (base : Tables) (request : SpatialRequest) : Assertion (Database ι) DbSession :=
  fun db s => ∃ ws, Surveys db.tables request ws ∧ Tracking base (fun _ => True) [] ws db s

omit [DecidableEq ι] in
theorem Tracking.surveyed {request : SpatialRequest} (tracking : Tracking base F known ws db s)
    (surveys : Surveys db.tables request ws) : Surveyed base request db s :=
  ⟨ws, surveys, (tracking.weaken fun _ _ => trivial).mono (by simp)⟩

/-- The port of the Registry reads a committed parcel. -/
theorem Tracking.getParcelAuthority (tracking : Tracking base F known [] db s)
    (lasting : Lasting steadily F) (parcelId : String) :
    Tracks base fresh index
      (fun found db s => Tracking base F known [] db s ∧ ∀ authority ∈ found, ∃ key,
        UUID.parse parcelId = some key ∧ OnRegister db.tables key authority.tenantId)
      Voids (ParcelExistencePort.getParcelAuthority parcelId) db s := by
  refine tracking.query lasting tolerant_voids ?_ ?_ ?_
  · rintro v e (raised | ⟨memo, w, raised⟩)
    · exact driverUuid_notHttp (map_eq_error raised)
    · obtain ⟨_, _, same⟩ := map_eq_ok raised
      cases same
  · intro db₁ v memo found looking ran
    obtain ⟨key, parsed, same⟩ := map_eq_ok ran
    cases same
    refine ⟨_, looking.remembers.read _, fun db' s' same tracking => ?_⟩
    refine ⟨tracking.mono (List.subset_append_right _ _), fun authority found => ?_⟩
    obtain ⟨row, sought, rfl⟩ := Option.map_eq_some_iff.mp found
    have member : row ∈ v.tables.parcels :=
      List.mem_of_mem_filter (List.mem_of_find?_eq_some sought)
    rw [looking.tables, ← same] at member
    exact ⟨key, driverUuid_eq_ok parsed, row, member, by simpa using List.find?_some sought, rfl⟩
  · intro db₁ v memo found w _ ran
    obtain ⟨_, _, same⟩ := map_eq_ok ran
    cases same

theorem Tracking.loadAuthorityInScope (tracking : Tracking base F known [] db s)
    (lasting : Lasting steadily F) (parcelId : String) :
    Tracks base fresh index
      (fun authority db s => Tracking base F known [] db s ∧ ∃ key,
        UUID.parse parcelId = some key ∧ OnRegister db.tables key authority.tenantId)
      Voids (Spatial.loadAuthorityInScope ctx parcelId) db s := by
  refine (tracking.getParcelAuthority lasting parcelId).bind ?_
  rintro found db s ⟨tracking, registered⟩
  cases found with
  | none => exact tracking.refuse _
  | some authority =>
      exact .ite (fun _ => ⟨tracking, registered authority rfl⟩) fun _ => tracking.refuse _

/-- The active geometry of a parcel, as it is known. -/
theorem Tracking.getActiveForParcel (tracking : Tracking base F known ws db s)
    (lasting : Lasting steadily F) {parcelId : String} {key : UUID}
    (named : UUID.parse parcelId = some key) :
    Tracks base fresh index
      (fun found db s => Tracking base F [] ws db s ∧ ∀ geometry ∈ found, ∃ record,
        geometry = ParcelGeometryRecord.geometry record ∧ Rooted base .geometry db.tables ws record ∧
          record.parcelId = key)
      Voids (ParcelGeometryRepository.getActiveForParcel parcelId) db s := by
  refine (tracking.ofExcept tolerant_voids fun e raised => ?_).bind ?_
  · obtain ⟨message, rfl⟩ := toUuid_error raised
    rfl
  rintro key' db s ⟨tracking, made⟩
  obtain rfl : key' = key := Option.some.inj ((toUuid_ok made).symm.trans named)
  refine (tracking.scalarOneOrNone lasting tolerant_voids .geometry _).bind ?_
  rintro found db s ⟨tracking, rooted⟩
  refine ⟨tracking.mono (by simp), fun geometry same => ?_⟩
  obtain ⟨record, rfl, rfl⟩ := Option.map_eq_some_iff.mp same
  obtain ⟨anchored, row, _, holds, alike⟩ := rooted record rfl
  have parcel := congrArg (fun row : ParcelGeometryRecord => row.parcelId) alike
  change record.parcelId = row.parcelId at parcel
  simp only [Bool.and_eq_true, decide_eq_true_eq] at holds
  exact ⟨record, rfl, anchored, parcel.trans holds.1⟩

theorem Tracking.supersede {key : UUID} {existing : Option ParcelGeometry}
    (tracking : Tracking base F known [] db s) (lasting : Lasting steadily F)
    (found : ∀ geometry ∈ existing, ∃ record, geometry = ParcelGeometryRecord.geometry record ∧
      Rooted base .geometry db.tables [] record ∧ record.parcelId = key) :
    Tracks base fresh index (fun _ db s => ∃ ws, Retires key ws ∧ Tracking base F [] ws db s) Voids
      (Spatial.supersede existing) db s := by
  cases existing with
  | none => exact ⟨[], .unchanged, tracking.mono (by simp)⟩
  | some geometry =>
      obtain ⟨loaded, rfl, rooted, parcel⟩ := found geometry rfl
      have both := lasting.and (lasting_rooted base .geometry [] loaded)
      have held := tracking.and (G := fun t => Rooted base .geometry t [] loaded) rooted
      refine (held.choose both _).bind fun now db s tracking => ?_
      refine (tracking.ofExcept tolerant_voids fun e raised => ?_).bind ?_
      · unfold ParcelGeometry.supersede at raised
        split at raised <;> cases raised
        rfl
      rintro superseded db s ⟨tracking, made⟩
      unfold ParcelGeometry.supersede at made
      split at made
      · cases made
      cases made
      refine Meets.bind (N := fun _ db s => ∃ ws, Retires key ws ∧ Tracking base F [] ws db s) ?_
        fun _ _ _ done => done
      refine (tracking.get both tolerant_voids .geometry _).bind ?_
      rintro found db s ⟨tracking, anchored⟩
      cases found with
      | none => exact tracking.refuse _
      | some record =>
          obtain ⟨named, anchored, agrees⟩ := anchored record rfl
          have same := congrArg (fun row : ParcelGeometryRecord => row.parcelId)
            (agrees loaded tracking.fact.2 rfl)
          change loaded.parcelId = record.parcelId at same
          refine (tracking.flush both tolerant_voids .geometry record
            (ParcelGeometry.assignTo _ record) rfl anchored trivial).bind ?_
          rintro _ db s ⟨rfl, ⟨_, tracking⟩ | ⟨stored, row, renews, kept, copied, tracking⟩⟩
          · exact ⟨[], .unchanged, (tracking.weaken fun _ fact => fact.1).mono (by simp)⟩
          · refine ⟨_, .written ?_ ?_, (tracking.weaken fun _ fact => fact.1).mono (by simp)⟩
            · have column := congrArg (fun row : ParcelGeometryRecord => row.parcelId)
                (kept.trans copied)
              change row.parcelId = record.parcelId at column
              exact column.trans (same.symm.trans parcel)
            · rw [renews.merged]
              intro active
              change (if _ then _ else _) = _ at active
              split at active
              · exact active
              · cases active

theorem Surveyed.audit {request : SpatialRequest} (surveyed : Surveyed base request db s)
    (call : AuditCall) :
    Tracks base fresh index (fun _ => Surveyed base request) Voids
      (Kernel.audit platform.toPlatform ctx call) db s := by
  obtain ⟨ws, surveys, tracking⟩ := surveyed
  have lasts : Lasting steadily fun t => Surveys t request ws :=
    fun _ _ advances surveys => surveys.later advances
  refine ((tracking.and surveys).audit ((lasting_true steadily).and lasts) tolerant_voids _ _ _).mono
    ?_ fun _ _ _ failed => failed
  rintro _ db s ⟨tracking, _⟩
  exact ⟨ws, tracking.fact.2, tracking.weaken fun _ _ => trivial⟩

theorem Tracking.orBadRequest (tracking : Tracking base F known [] db s) (result : Except WktError α) :
    Tracks base fresh index (fun a db s => Tracking base F known [] db s ∧ result = .ok a) Voids
      (Spatial.orBadRequest platform result) db s := by
  unfold Spatial.orBadRequest
  split
  · exact ⟨tracking, rfl⟩
  · exact tracking.refuse _
  · exact tracking.refuse _

/-- The row of a new geometry. -/
theorem Tracking.addGeometry {key : UUID} {geometry : ParcelGeometry}
    (tracking : Tracking base F known ws db s) (lasting : Lasting steadily F)
    (named : UUID.parse geometry.parcelId = some key) :
    Tracks base fresh index
      (fun _ db s => ∃ row : ParcelGeometryRecord, row.parcelId = key ∧
        row.tenantId = geometry.tenantId ∧ row.status = geometry.status ∧
        row.boundary = geometry.boundary ∧ Tracking base F [] (ws ++ [.insertGeometry row]) db s)
      Voids (ParcelGeometryRepository.add geometry) db s := by
  refine (tracking.ofExcept tolerant_voids fun e raised => ?_).bind ?_
  · rcases bind_eq_error raised with failed | ⟨_, _, failed⟩
    · obtain ⟨message, rfl⟩ := toUuid_error failed
      rfl
    · obtain ⟨message, rfl⟩ := toUuid_error (map_eq_error failed)
      rfl
  rintro row db s ⟨tracking, made⟩
  obtain ⟨parcelId, parsed, made⟩ := bind_eq_ok made
  obtain ⟨createdBy, _, rfl⟩ := map_eq_ok made
  obtain rfl : parcelId = key := Option.some.inj ((toUuid_ok parsed).symm.trans named)
  refine (tracking.add lasting tolerant_voids .geometry _ fun _ _ => trivial).bind ?_
  rintro _ db s ⟨tracking, v, rfl, _⟩
  exact ⟨_, rfl, rfl, rfl, rfl, tracking.mono (by simp)⟩

theorem Tracking.submitGeometry (tracking : Tracking base (fun _ => True) known [] db s)
    (parcelId boundary : String) :
    Tracks base fresh index (fun _ => Surveyed base (.submit parcelId boundary)) Voids
      (Spatial.submitGeometry platform ctx parcelId boundary) db s := by
  have lasting := lasting_true steadily
  refine (tracking.loadAuthorityInScope lasting parcelId).bind ?_
  rintro authority db s ⟨tracking, key, named, registered⟩
  have owner := lasting_registered key authority.tenantId
  have tracking := (tracking.and registered).weaken (G := fun t =>
    OnRegister t key authority.tenantId) fun _ fact => fact.2
  refine Meets.bind (N := fun _ => Tracking base (fun t => OnRegister t key authority.tenantId) known [])
    (.ite (fun _ => tracking) fun _ => ?_) fun _ db s tracking => ?_
  · exact (tracking.audit owner tolerant_voids _ _ _).bind fun _ _ _ done => done.1.refuse _
  refine .ite (fun _ => tracking.refuse _) fun _ => ?_
  refine (tracking.choose owner _).bind fun drawn db s tracking => ?_
  refine (tracking.orBadRequest _).bind ?_
  rintro geometry db s ⟨tracking, made⟩
  obtain ⟨text, validated, rfl⟩ : ∃ text, validateWktPolygon boundary = .ok text ∧
      { geometryId := drawn.1, tenantId := authority.tenantId, parcelId, boundary := text,
        createdBy := ctx.principalId, createdAt := .clock drawn.2 } = geometry := by
    unfold ParcelGeometry.new at made
    cases accepted : validateWktPolygon boundary with
    | error e =>
        rw [accepted] at made
        cases made
    | ok text =>
        rw [accepted] at made
        exact ⟨text, rfl, Except.ok.inj made⟩
  refine (tracking.getActiveForParcel owner named).bind ?_
  rintro existing db s ⟨tracking, found⟩
  refine (tracking.supersede owner found).bind ?_
  rintro _ db s ⟨ws, retires, tracking⟩
  refine (tracking.addGeometry owner named).bind ?_
  rintro _ db s ⟨row, parcel, tenant, active, text, tracking⟩
  have surveyed : Surveyed base (.submit parcelId boundary) db s := by
    refine tracking.surveyed (.submit (parcel ▸ named) (parcel ▸ retires) active ?_ ?_)
    · rw [text]
      exact validated
    · rw [parcel, tenant]
      exact tracking.fact
  exact (surveyed.audit _).bind fun _ _ _ surveyed => surveyed

/-- **What a request about geometries ends with**, whatever is committed beside it. -/
theorem Tracking.spatialRequest (tracking : Tracking base (fun _ => True) known [] db s)
    (request : SpatialRequest) :
    Tracks base fresh index (fun _ => Surveyed base request) Voids (request.serve platform ctx) db s := by
  have lasting := lasting_true steadily
  cases request with
  | submit parcelId boundary => exact tracking.submitGeometry parcelId boundary
  | getActive parcelId =>
      refine (tracking.loadAuthorityInScope lasting parcelId).bind ?_
      rintro authority db s ⟨tracking, key, named, _⟩
      refine (tracking.getActiveForParcel lasting named).bind ?_
      rintro found db s ⟨tracking, _⟩
      cases found with
      | none => exact tracking.refuse _
      | some geometry => exact tracking.surveyed .getActive

end Rules
end LandVault
