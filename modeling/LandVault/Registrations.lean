import LandVault.Spatial.Staging

/-!
# What requests about parcels write

`Registers` lists the writes of `ParcelService` and `SpatialService`, each with what the
service has checked of the caller and of the tables before it. An operation stages these
writes, or nothing where it answers with an error.
-/

set_option autoImplicit false

namespace LandVault

open Kernel Kernel.Audit Identity Registry Spatial Library.Lineage Library.Programs
open Library.ReadCommitted Python

/-! ## Parcels and their rows -/

namespace Registry

/-- The holder that a row asserts. -/
def ParcelRecord.holderRef (record : ParcelRecord) : Option String :=
  assertedHolderRef record.currentOwnerName record.currentOwnerContact

theorem ParcelRecord.holderRef_parcel (record : ParcelRecord) :
    (ParcelRecord.parcel record).holderRef = record.holderRef := rfl

/-- What a mutator leaves alone. -/
structure ParcelOf.SameIdentity {P : Type} (parcel parcel' : ParcelOf P) : Prop where
  parcelId : parcel'.parcelId = parcel.parcelId
  tenantId : parcel'.tenantId = parcel.tenantId
  countryCode : parcel'.countryCode = parcel.countryCode
  origin : parcel'.origin = parcel.origin
  createdBy : parcel'.createdBy = parcel.createdBy
  createdAt : parcel'.createdAt = parcel.createdAt
  parcelNumber : parcel'.parcelNumber = parcel.parcelNumber

theorem ParcelOf.SameIdentity.refl {P : Type} (parcel : ParcelOf P) : parcel.SameIdentity parcel :=
  ⟨rfl, rfl, rfl, rfl, rfl, rfl, rfl⟩

theorem ParcelOf.SameIdentity.trans {P : Type} {a b c : ParcelOf P} (first : a.SameIdentity b)
    (second : b.SameIdentity c) : a.SameIdentity c :=
  ⟨second.parcelId.trans first.parcelId, second.tenantId.trans first.tenantId,
    second.countryCode.trans first.countryCode, second.origin.trans first.origin,
    second.createdBy.trans first.createdBy, second.createdAt.trans first.createdAt,
    second.parcelNumber.trans first.parcelNumber⟩

theorem Parcel.setField_sameIdentity (parcel : Parcel) (update : FieldUpdate) :
    parcel.SameIdentity (parcel.setField update) := by
  cases update with
  | text field value => cases field <;> exact ⟨rfl, rfl, rfl, rfl, rfl, rfl, rfl⟩
  | sizeSqm value => exact ⟨rfl, rfl, rfl, rfl, rfl, rfl, rfl⟩
  | other key unknown => exact ⟨rfl, rfl, rfl, rfl, rfl, rfl, rfl⟩

theorem Parcel.setFields_sameIdentity (parcel : Parcel) (updates : List FieldUpdate) :
    parcel.SameIdentity (updates.foldl Parcel.setField parcel) := by
  induction updates generalizing parcel with
  | nil => exact .refl parcel
  | cons update updates ih => exact (parcel.setField_sameIdentity update).trans (ih _)

end Registry

/-- What a request makes of a parcel: the three mutators. -/
inductive Mutates (ctx : ExecutionContext) : ParcelRequest → Parcel → Parcel → Prop where
  | update {parcelId : String} {fields : FieldMap} {parcel parcel' : Parcel} {now : DateTime}
      (edited : parcel.updateDetails ctx.principalId fields now = .ok parcel') :
      Mutates ctx (.update parcelId fields) parcel parcel'
  | archive {parcelId : String} {parcel parcel' : Parcel} {now : DateTime}
      (edited : parcel.archive ctx.principalId now = .ok parcel') :
      Mutates ctx (.archive parcelId) parcel parcel'
  | setGeometryReference {parcelId : String} {reference : Option String} {parcel parcel' : Parcel}
      {now : DateTime}
      (edited : parcel.setGeometryReference reference ctx.principalId now = .ok parcel') :
      Mutates ctx (.setGeometryReference parcelId reference) parcel parcel'

section Mutates

variable {ctx : ExecutionContext} {request : ParcelRequest} {parcel parcel' : Parcel}

theorem Mutates.active (mutates : Mutates ctx request parcel parcel') : parcel.status = .active := by
  cases mutates with
  | update edited | archive edited | setGeometryReference edited =>
      exact (Parcel.ensureMutable_ok edited).1

theorem Mutates.sameIdentity (mutates : Mutates ctx request parcel parcel') :
    parcel.SameIdentity parcel' := by
  cases mutates with
  | @update _ fields _ _ now edited =>
      obtain ⟨_, edited⟩ := Parcel.ensureMutable_ok edited
      split at edited
      · cases edited
      · cases edited
        have same := parcel.setFields_sameIdentity fields.items
        exact ⟨same.parcelId, same.tenantId, same.countryCode, same.origin, same.createdBy,
          same.createdAt, same.parcelNumber⟩
  | archive edited =>
      cases (Parcel.ensureMutable_ok edited).2
      exact ⟨rfl, rfl, rfl, rfl, rfl, rfl, rfl⟩
  | setGeometryReference edited =>
      cases (Parcel.ensureMutable_ok edited).2
      exact ⟨rfl, rfl, rfl, rfl, rfl, rfl, rfl⟩

end Mutates

/-- The row of a parcel becomes `new` as a request mutates it. -/
structure Rewrites (ctx : ExecutionContext) (request : ParcelRequest) (record new : ParcelRecord) :
    Prop where
  exists_parcel : ∃ parcel, Mutates ctx request (ParcelRecord.parcel record) parcel ∧
    parcel.assignTo record = .ok new

theorem Rewrites.sameIdentity {ctx : ExecutionContext} {request : ParcelRequest}
    {record new : ParcelRecord} (rewrites : Rewrites ctx request record new) :
    record.SameIdentity new := by
  obtain ⟨parcel, mutates, made⟩ := rewrites.exists_parcel
  have same := mutates.sameIdentity
  obtain ⟨updatedBy, _, rfl⟩ := map_eq_ok made
  exact ⟨rfl, rfl, rfl, rfl, rfl, rfl, same.parcelNumber⟩

/-! ## Writes -/

/-- The rows of ownership history of an update: one where the asserted holder changes. -/
inductive Transfers (x : Transaction) (u : Tables) (record new : ParcelRecord) :
    List OwnershipRecord → Prop where
  | same (holder : new.holderRef = record.holderRef) : Transfers x u record new []
  | changed {row : OwnershipRecord} {pick : Nat} (holder : new.holderRef ≠ record.holderRef)
      (asserts : Asserts ParcelHistoryRepository.ownership x new.parcelId new.tenantId new.holderRef
        ((newest (·.recordedAt) pick
          (ParcelHistoryRepository.ownership.of u x.scope new.parcelId)).map (·.id)) row) :
      Transfers x u record new [row]

/-- The first rows of history of a new parcel. -/
inductive Opens (x : Transaction) (record : ParcelRecord) : List OwnershipRecord → Prop where
  | unowned (holder : record.holderRef = none) : Opens x record []
  | owned {row : OwnershipRecord} (holder : record.holderRef ≠ none)
      (asserts : Asserts ParcelHistoryRepository.ownership x record.parcelId record.tenantId
        record.holderRef none row) :
      Opens x record [row]

/-- What `create_parcel` makes of its arguments. -/
structure Creates (ctx : ExecutionContext) (x : Transaction) (u : Tables) (details : ParcelDetails)
    (record : ParcelRecord) : Prop where
  tenant : ctx.tenantId = some record.tenantId
  creator : UUID.parse ctx.principalId = some record.createdBy
  country : matchesIso3166 record.countryCode = true
  active : record.status = .active
  number : record.parcelNumber =
    some (formatParcelNumber record.countryCode ((u.counter record.countryCode).getD 0 + 1))
  name : record.currentOwnerName = details.currentOwnerName
  contact : record.currentOwnerContact = details.currentOwnerContact
  unreferred : record.geometryReference = none
  visible : x.scope.sees record.tenantId = true

/-- The writes that a request about parcels stages, over the tables that its transaction
sees. -/
inductive Registers (ctx : ExecutionContext) (x : Transaction) (u : Tables) :
    ParcelRequest → List Write → Prop where
  | get {parcelId : String} : Registers ctx x u (.get parcelId) []
  | list : Registers ctx x u .list []
  | create {countryCode : Option String} {details : ParcelDetails} {record : ParcelRecord}
      {owners : List OwnershipRecord} {row : StatusRecord}
      (creates : Creates ctx x u details record) (opens : Opens x record owners)
      (asserts : Asserts ParcelHistoryRepository.status x record.parcelId record.tenantId
        record.status none row) :
      Registers ctx x u (.create countryCode details)
        (.upsertCounter record.countryCode ((u.counter record.countryCode).getD 0 + 1) ::
          .insertParcel record :: (owners.map .insertOwnership ++ [.insertStatus row]))
  | update {parcelId : String} {fields : FieldMap} {record new : ParcelRecord}
      {owners : List OwnershipRecord} (targets : Targets ctx x.scope u parcelId record)
      (rewrites : Rewrites ctx (.update parcelId fields) record new)
      (transfers : Transfers x u record new owners) :
      Registers ctx x u (.update parcelId fields)
        (.updateParcel record new :: owners.map .insertOwnership)
  | archive {parcelId : String} {record new : ParcelRecord} {row : StatusRecord} {pick : Nat}
      (targets : Targets ctx x.scope u parcelId record)
      (rewrites : Rewrites ctx (.archive parcelId) record new)
      (asserts : Asserts ParcelHistoryRepository.status x new.parcelId new.tenantId new.status
        ((newest (·.recordedAt) pick
          (ParcelHistoryRepository.status.of u x.scope new.parcelId)).map (·.id)) row) :
      Registers ctx x u (.archive parcelId) [.updateParcel record new, .insertStatus row]
  | setGeometryReference {parcelId : String} {reference : Option String}
      {record new : ParcelRecord} (targets : Targets ctx x.scope u parcelId record)
      (rewrites : Rewrites ctx (.setGeometryReference parcelId reference) record new)
      (refers : ∀ text ∈ reference, Refers x.scope u text record.tenantId parcelId) :
      Registers ctx x u (.setGeometryReference parcelId reference) [.updateParcel record new]

/-- A request about parcels has made `u'` of `u`. -/
def Registered (ctx : ExecutionContext) (x : Transaction) (u : Tables) (request : ParcelRequest)
    (u' : Tables) : Prop :=
  ∃ ws, Registers ctx x u request ws ∧ u' = engine.applyAll u ws

section Rules

variable {α : Type} {allowed : Tables → Prop} {C : Env → Prop} {x : Transaction} {u : Tables}
  {db : Database Unit} {s : DbSession} {platform : Platform} {ctx : ExecutionContext}

/-- A parcel that was loaded is written back. -/
theorem Staged.rewrite (staged : Staged x u db s) {request : ParcelRequest} {record : ParcelRecord}
    (visible : record ∈ parcelMapper.seen u x.scope) {parcel : Parcel}
    (mutates : Mutates ctx request (ParcelRecord.parcel record) parcel) :
    Keeps allowed C
      (fun updated db s => ∃ new : ParcelRecord, Rewrites ctx request record new ∧
        updated = ParcelRecord.parcel new ∧ Staged x (u.apply (.updateParcel record new)) db s)
      (Failed x u) (ParcelRepository.update parcel) db s := by
  refine (staged.updateParcelRow parcel).mono ?_ fun _ _ _ failed => failed
  rintro updated db s' ⟨record', visible', new, same, made, rfl, after⟩
  have key : record'.parcelId = record.parcelId := same.trans mutates.sameIdentity.parcelId
  cases Entity.seen_unique .parcel staged.keys visible' visible key
  exact ⟨new, ⟨parcel, mutates, made⟩, rfl, after⟩

theorem Staged.recordChangedOwnership {R : PyExc → Tables → Prop} {record new : ParcelRecord}
    (staged : Staged x (u.apply (.updateParcel record new)) db s)
    (holder : new.holderRef ≠ record.holderRef) :
    Keeps allowed C
      (fun _ db s => ∃ owners, Transfers x u record new owners ∧
        Staged x (engine.applyAll u (.updateParcel record new :: owners.map .insertOwnership)) db s)
      (Raising x R) (Registry.recordChangedOwnership platform ctx (ParcelRecord.parcel new))
      db s := by
  have lawful := ParcelHistoryRepository.ownership_lawful
  refine keeps_then (staged.latestHistory lawful new.parcelId) ?_
  rintro prior db s ⟨staged, pick, rfl⟩
  refine staged.choose.bind ?_
  rintro auditId db s ⟨staged, _⟩
  refine keeps_then (staged.assertHistory lawful _ _ _ _ _) ?_
  rintro _ db s ⟨row, asserts, after⟩
  have transfers : Transfers x u record new [row] := by
    refine @Transfers.changed _ _ _ _ _ pick holder ?_
    rw [Option.map_map] at asserts
    exact asserts
  exact (after.auditPermit _ _ _ _).mono (fun _ _ _ after => ⟨[row], transfers, after⟩)
    fun _ _ _ failed => .of_failed failed

/-! ## Registering -/

theorem Staged.resolveCountry (staged : Staged x u db s) (countryCode : Option String) :
    Keeps allowed C (fun country db s => Staged x u db s ∧ matchesIso3166 country = true)
      (Raising x (Unchanged u)) (Registry.resolveCountry ctx countryCode) db s := by
  unfold Registry.resolveCountry
  dsimp only
  split
  · rename_i country _
    exact ⟨staged, country.valid⟩
  · exact staged.raise rfl
  · exact staged.raise rfl

/-- What is stored with a new parcel, once its rows of ownership are there. -/
theorem Staged.recordCreated {details : ParcelDetails} {record : ParcelRecord}
    {owners : List OwnershipRecord} {countryCode : Option String} {R : PyExc → Tables → Prop}
    (creates : Creates ctx x u details record) (opens : Opens x record owners)
    (staged : Staged x (engine.applyAll u
      (.upsertCounter record.countryCode ((u.counter record.countryCode).getD 0 + 1) ::
        .insertParcel record :: owners.map .insertOwnership)) db s)
    (ownershipAuditId : Option String) :
    Keeps allowed C
      (fun _ => Ready x (Registered ctx x u (.create countryCode details))) (Raising x R)
      (createParcel.recordCreated platform ctx (ParcelRecord.parcel record) ownershipAuditId)
      db s := by
  refine staged.choose.bind ?_
  rintro createdAuditId db s ⟨staged, _⟩
  refine keeps_then (staged.assertHistory ParcelHistoryRepository.status_lawful _ _ _ _ _) ?_
  rintro _ db s ⟨row, asserts, staged⟩
  have registered : Registered ctx x u (.create countryCode details)
      ((engine.applyAll u (.upsertCounter record.countryCode
        ((u.counter record.countryCode).getD 0 + 1) ::
          .insertParcel record :: owners.map .insertOwnership)).apply (.insertStatus row)) := by
    refine ⟨_, .create creates opens asserts, ?_⟩
    exact (engine.applyAll_append _ (_ :: _ :: owners.map .insertOwnership) [_]).symm
  refine .ite (fun _ => ?_) fun _ => ?_
  · refine keeps_then (staged.auditPermit _ _ _ _) fun _ db s staged => ?_
    exact keeps_then (staged.auditPermit _ _ _ _) fun _ db s staged => staged.ready registered
  · exact keeps_then (staged.auditPermit _ _ _ _) fun _ db s staged => staged.ready registered

theorem Staged.createParcel (staged : Staged x u db s) (countryCode : Option String)
    (details : ParcelDetails) :
    Keeps allowed C (fun _ => Ready x (Registered ctx x u (.create countryCode details)))
      (Raising x (Unchanged u)) (Registry.createParcel platform ctx countryCode details) db s := by
  refine .ite (fun _ => staged.raise rfl) fun tenanted => ?_
  have resolves := @Staged.resolveCountry allowed C x u db s ctx staged countryCode
  -- the country is not evaluated
  generalize Registry.resolveCountry ctx countryCode = resolving at resolves ⊢
  refine resolves.bind ?_
  rintro country db s ⟨staged, valid⟩
  refine .ite (fun _ => staged.raise rfl) fun _ => ?_
  refine staged.choose.bind ?_
  rintro ⟨parcelId, now⟩ db s ⟨staged, _⟩
  refine keeps_then (staged.allocate country) ?_
  rintro parcelNumber db s ⟨rfl, staged⟩
  refine staged.choose.bind ?_
  rintro later db s ⟨staged, _⟩
  refine keeps_then (staged.ofExcept fun e raised => by cases raised) ?_
  rintro numbered db s ⟨staged, made⟩
  cases made
  refine keeps_then (staged.addParcel _) ?_
  rintro added db s ⟨row, made, rfl, sees, staged⟩
  have creates : Creates ctx x u details (row x.startedAt) := by
    obtain ⟨creator, parsed, rfl⟩ := map_eq_ok made
    exact ⟨tenant_of_truthy tenanted, toUuid_ok parsed, valid, rfl, rfl, rfl, rfl, rfl, sees⟩
  have country : (row x.startedAt).countryCode = country := by
    obtain ⟨creator, parsed, rfl⟩ := map_eq_ok made
    rfl
  subst country
  generalize row x.startedAt = record at *
  cases holder : record.holderRef with
  | none =>
      simp only [ParcelRecord.holderRef_parcel, holder]
      exact Staged.recordCreated creates (.unowned holder) staged none
  | some holderRef =>
      simp only [ParcelRecord.holderRef_parcel, holder]
      refine staged.choose.bind ?_
      rintro ownershipAuditId db s ⟨staged, _⟩
      have lawful := ParcelHistoryRepository.ownership_lawful
      refine keeps_then (staged.assertHistory lawful _ _ _ _ _) ?_
      rintro _ db s ⟨owner, asserts, staged⟩
      have opens : Opens x record [owner] := .owned (by simp [holder]) (holder ▸ asserts)
      exact Staged.recordCreated creates opens staged _

/-! ## The operations -/

theorem Staged.updateParcel (staged : Staged x u db s) (parcelId : String) (fields : FieldMap) :
    Keeps allowed C (fun _ => Ready x (Registered ctx x u (.update parcelId fields)))
      (Raising x (Unchanged u)) (Registry.updateParcel platform ctx parcelId fields) db s := by
  refine .ite (fun _ => staged.raise rfl) fun _ => ?_
  refine .ite (fun _ => staged.raise rfl) fun _ => ?_
  refine staged.target parcelId fun record parcel db s targets same staged => ?_
  refine staged.choose.bind ?_
  rintro now db s ⟨staged, _⟩
  refine (staged.orConflict _).bind ?_
  rintro edited db s ⟨staged, made⟩
  have mutates : Mutates ctx (.update parcelId fields) (ParcelRecord.parcel record) edited :=
    same ▸ .update made
  refine keeps_then (staged.rewrite targets.visible mutates) ?_
  rintro updated db s ⟨new, rewrites, rfl, staged⟩
  have before : parcel.holderRef = record.holderRef := by
    rw [same]
    rfl
  refine .ite (fun holder => ?_) fun holder => ?_
  · refine (staged.recordChangedOwnership (before ▸ holder)).bind ?_
    rintro _ db s ⟨owners, transfers, staged⟩
    refine keeps_then (staged.auditPermit _ _ _ _) fun _ db s staged => staged.ready ?_
    exact ⟨_, .update targets rewrites transfers, rfl⟩
  · refine keeps_then (staged.auditPermit _ _ _ _) fun _ db s staged => staged.ready ?_
    exact ⟨_, .update targets rewrites (.same (before ▸ not_not.mp holder)), rfl⟩

theorem Staged.archiveParcel (staged : Staged x u db s) (parcelId : String) :
    Keeps allowed C (fun _ => Ready x (Registered ctx x u (.archive parcelId)))
      (Raising x (Unchanged u)) (Registry.archiveParcel platform ctx parcelId) db s := by
  have lawful := ParcelHistoryRepository.status_lawful
  refine staged.target parcelId fun record parcel db s targets same staged => ?_
  refine staged.choose.bind ?_
  rintro now db s ⟨staged, _⟩
  refine (staged.orConflict _).bind ?_
  rintro edited db s ⟨staged, made⟩
  have mutates : Mutates ctx (.archive parcelId) (ParcelRecord.parcel record) edited :=
    same ▸ .archive made
  refine keeps_then (staged.rewrite targets.visible mutates) ?_
  rintro archived db s ⟨new, rewrites, rfl, staged⟩
  refine keeps_then (staged.latestHistory lawful new.parcelId) ?_
  rintro prior db s ⟨staged, pick, rfl⟩
  refine staged.choose.bind ?_
  rintro auditId db s ⟨staged, _⟩
  refine keeps_then (staged.assertHistory lawful _ _ _ _ _) ?_
  rintro _ db s ⟨row, asserts, staged⟩
  rw [Option.map_map] at asserts
  refine keeps_then (staged.auditPermit _ _ _ _) fun _ db s staged => ?_
  refine keeps_then (staged.auditPermit _ _ _ _) fun _ db s staged => staged.ready ?_
  exact ⟨_, .archive targets rewrites asserts, rfl⟩

theorem Staged.checkReference (staged : Staged x u db s) (parcel : Parcel) (parcelId : String)
    (reference : Option String) :
    Keeps allowed C
      (fun _ db s => Staged x u db s ∧
        ∀ text ∈ reference, Refers x.scope u text parcel.tenantId parcelId)
      (Raising x (Unchanged u))
      (Registry.checkReference RealGeometryAdapter.referenceIsValid parcel parcelId reference)
      db s := by
  cases reference with
  | none => exact ⟨staged, nofun⟩
  | some text =>
      refine keeps_then (staged.referenceIsValid text parcel.tenantId parcelId) ?_
      rintro valid db s ⟨staged, refers⟩
      refine .ite (fun _ => staged.raise rfl) fun valid => ⟨staged, ?_⟩
      rintro _ ⟨rfl⟩
      exact refers (by simpa using valid)

theorem Staged.setGeometryReference (staged : Staged x u db s) (parcelId : String)
    (reference : Option String) :
    Keeps allowed C
      (fun _ => Ready x (Registered ctx x u (.setGeometryReference parcelId reference)))
      (Raising x (Unchanged u))
      (Registry.setGeometryReference RealGeometryAdapter.referenceIsValid platform ctx parcelId
        reference) db s := by
  refine staged.target parcelId fun record parcel db s targets same staged => ?_
  have tenant : parcel.tenantId = record.tenantId := by
    rw [same]
    rfl
  refine (staged.checkReference parcel parcelId reference).bind ?_
  rintro _ db s ⟨staged, refers⟩
  refine staged.choose.bind ?_
  rintro now db s ⟨staged, _⟩
  refine (staged.orConflict _).bind ?_
  rintro edited db s ⟨staged, made⟩
  have mutates : Mutates ctx (.setGeometryReference parcelId reference)
      (ParcelRecord.parcel record) edited := same ▸ .setGeometryReference made
  refine keeps_then (staged.rewrite targets.visible mutates) ?_
  rintro referring db s ⟨new, rewrites, rfl, staged⟩
  refine keeps_then (staged.auditPermit _ _ _ _) fun _ db s staged => staged.ready ?_
  exact ⟨_, .setGeometryReference targets rewrites (tenant ▸ refers), rfl⟩

/-! ## All requests about parcels -/

theorem Staged.registers (staged : Staged x u db s) (request : ParcelRequest) :
    Keeps allowed C (fun _ => Ready x (Registered ctx x u request)) (Raising x (Unchanged u))
      (request.serve RealGeometryAdapter.referenceIsValid platform ctx) db s := by
  cases request with
  | create countryCode details =>
      exact (staged.createParcel countryCode details).bind fun _ _ _ ready => ready
  | get parcelId =>
      refine Meets.bind (N := fun _ => Staged x u) ?_ fun _ _ _ staged =>
        staged.ready ⟨[], .get, rfl⟩
      exact (staged.loadInScope parcelId).bind fun _ _ _ found => found.1
  | list =>
      refine Meets.bind (N := fun _ => Staged x u) ?_ fun _ _ _ staged =>
        staged.ready ⟨[], .list, rfl⟩
      refine .ite (fun _ => staged) fun _ => ?_
      exact keeps_then (staged.listForTenant _) fun _ _ _ staged => staged
  | update parcelId fields =>
      exact (staged.updateParcel parcelId fields).bind fun _ _ _ ready => ready
  | archive parcelId => exact (staged.archiveParcel parcelId).bind fun _ _ _ ready => ready
  | setGeometryReference parcelId reference =>
      exact (staged.setGeometryReference parcelId reference).bind fun _ _ _ ready => ready

end Rules

/-! ## Geometries -/

theorem Spatial.ParcelGeometry.new_ok {ε : Type} {validateWktPolygon : String → Except ε String}
    {geometryId : UUID} {now : DateTime} {tenantId parcelId boundary createdBy : String}
    {geometry : ParcelGeometry}
    (made : ParcelGeometry.new validateWktPolygon geometryId now tenantId parcelId boundary
      createdBy = .ok geometry) :
    geometry.tenantId = tenantId ∧ geometry.parcelId = parcelId ∧ geometry.status = .active := by
  unfold ParcelGeometry.new at made
  cases validated : validateWktPolygon boundary with
  | error defect =>
      rw [validated] at made
      cases made
  | ok text =>
      rw [validated] at made
      cases made
      exact ⟨rfl, rfl, rfl⟩

theorem Spatial.ParcelGeometry.toRecord_ok {geometry : ParcelGeometry}
    {row : Nat → ParcelGeometryRecord} (made : geometry.toRecord = .ok row) (startedAt : Nat) :
    UUID.parse geometry.parcelId = some (row startedAt).parcelId ∧
      (row startedAt).tenantId = geometry.tenantId ∧ (row startedAt).status = geometry.status := by
  obtain ⟨parcelId, parsed, made⟩ := bind_eq_ok made
  obtain ⟨createdBy, _, rfl⟩ := map_eq_ok made
  exact ⟨toUuid_ok parsed, rfl, rfl⟩

/-- A new geometry of a parcel. -/
structure Places (ctx : ExecutionContext) (x : Transaction) (u : Tables) (parcelId : String)
    (row : ParcelGeometryRecord) : Prop where
  exists_parcel : ∃ parcel, Targets ctx x.scope u parcelId parcel ∧ parcel.status = .active ∧
    row.parcelId = parcel.parcelId ∧ row.tenantId = parcel.tenantId
  active : row.status = .active

/-- The writes of a submission: what becomes of the geometry that is active, if there is
one, and the new one. -/
inductive Submits (ctx : ExecutionContext) (x : Transaction) (u : Tables) (parcelId : String) :
    List Write → Prop where
  | first {row : ParcelGeometryRecord} (places : Places ctx x u parcelId row) :
      Submits ctx x u parcelId [.insertGeometry row]
  | next {record row : ParcelGeometryRecord} {supersededAt : Option Timestamp}
      (visible : record ∈ geometryMapper.seen u x.scope) (current : record.status = .active)
      (same : record.parcelId = row.parcelId) (places : Places ctx x u parcelId row) :
      Submits ctx x u parcelId
        [.updateGeometry record { record with status := .superseded, supersededAt },
          .insertGeometry row]

/-- A submission has made `u'` of `u`. -/
def Submitted (ctx : ExecutionContext) (x : Transaction) (u : Tables) (parcelId : String)
    (u' : Tables) : Prop :=
  ∃ ws, Submits ctx x u parcelId ws ∧ u' = engine.applyAll u ws

section Rules

variable {allowed : Tables → Prop} {C : Env → Prop} {x : Transaction} {u : Tables}
  {db : Database Unit} {s : DbSession} {platform : SpatialPlatform} {ctx : ExecutionContext}

theorem Staged.authorizeGeometry (staged : Staged x u db s) (parcelId : String)
    (authority : ParcelAuthorityInfo) :
    Keeps allowed C
      (fun _ db s => Staged x u db s ∧ canMutate ctx authority.createdBy = true)
      (Raising x (Unchanged u))
      (Spatial.authorizeMutation platform.toPlatform ctx parcelId authority) db s := by
  refine .ite (fun entitled => ⟨staged, entitled⟩) fun _ => ?_
  exact staged.audited _ fun _ _ staged => staged.raise rfl

theorem Staged.orInvalid {α : Type} (staged : Staged x u db s) (result : Except WktError α) :
    Keeps allowed C (fun value db s => Staged x u db s ∧ result = .ok value)
      (Raising x (Unchanged u)) (Spatial.orBadRequest platform result) db s := by
  unfold Spatial.orBadRequest
  split
  · exact ⟨staged, rfl⟩
  · exact staged.raise rfl
  · exact staged.raise rfl

/-- The geometry that was active is superseded. -/
theorem Staged.supersede (staged : Staged x u db s) {parcelId : UUID}
    {active : Option ParcelGeometryRecord}
    (answered : (geometryMapper.seen u x.scope).filter
      (fun row => row.parcelId = parcelId && row.status = .active) = active.toList) :
    Keeps allowed C
      (fun _ db s => (active = none ∧ Staged x u db s) ∨
        ∃ record supersededAt, active = some record ∧
          record ∈ geometryMapper.seen u x.scope ∧ record.status = .active ∧
          record.parcelId = parcelId ∧
          Staged x (u.apply (.updateGeometry record
            { record with status := .superseded, supersededAt })) db s)
      (Failed x u) (Spatial.supersede (active.map ParcelGeometryRecord.geometry)) db s := by
  cases active with
  | none => exact .inl ⟨rfl, staged⟩
  | some record =>
      obtain ⟨visible, current⟩ := mem_of_filter_eq answered rfl
      obtain ⟨same, current⟩ : record.parcelId = parcelId ∧ record.status = .active := by
        simpa using current
      refine staged.choose.bind ?_
      rintro now db s ⟨staged, _⟩
      have supersedes : record.geometry.supersede now = .ok { record.geometry with
          status := .superseded, supersededAt := some (.clock now) } := by
        simp [ParcelGeometry.supersede, ParcelGeometryRecord.geometry, current]
      refine (staged.ofExcept fun e raised => by simp [supersedes] at raised).bind ?_
      rintro superseded db s ⟨staged, made⟩
      cases supersedes.symm.trans made
      refine (staged.updateGeometryRow _).bind ?_
      rintro _ db s ⟨record', visible', key, after⟩
      cases Entity.seen_unique .geometry staged.keys visible visible' key.symm
      exact .inr ⟨record, _, rfl, visible, current, same, after⟩

theorem Staged.submitGeometry (staged : Staged x u db s) (parcelId boundary : String) :
    Keeps allowed C (fun _ => Ready x (Submitted ctx x u parcelId)) (Raising x (Unchanged u))
      (Spatial.submitGeometry platform ctx parcelId boundary) db s := by
  refine Meets.bind (staged.loadAuthorityInScope parcelId) fun authority db s found => ?_
  obtain ⟨staged, parcel, finds, same⟩ := found
  refine Meets.bind (staged.authorizeGeometry parcelId authority) fun _ db s authorized => ?_
  obtain ⟨staged, entitled⟩ := authorized
  have targets : Targets ctx x.scope u parcelId parcel := ⟨finds, by rwa [same] at entitled⟩
  have tenant : authority.tenantId = parcel.tenantId := by rw [same]
  refine .ite (fun _ => staged.raise rfl) fun archived => ?_
  have mutable : parcel.status = .active := by
    rw [same] at archived
    cases status : parcel.status with
    | active => rfl
    | archived => exact absurd status archived
  refine staged.choose.bind ?_
  rintro ⟨geometryId, now⟩ db s ⟨staged, _⟩
  refine Meets.bind (staged.orInvalid _) fun geometry db s made => ?_
  obtain ⟨staged, made⟩ := made
  obtain ⟨within, named, active⟩ := ParcelGeometry.new_ok made
  refine keeps_then (staged.getActiveForParcel parcelId) ?_
  rintro existing db s ⟨staged, key, found, parsed, answered, rfl⟩
  cases finds.named.symm.trans parsed
  have places : ∀ {row : Nat → ParcelGeometryRecord}, geometry.toRecord = .ok row →
      Places ctx x u parcelId (row x.startedAt) ∧ (row x.startedAt).parcelId = parcel.parcelId := by
    intro row made
    obtain ⟨parsed, tenantId, status⟩ := ParcelGeometry.toRecord_ok made x.startedAt
    have id : (row x.startedAt).parcelId = parcel.parcelId := by
      rw [named, finds.named] at parsed
      exact (Option.some.inj parsed).symm
    exact ⟨⟨⟨parcel, targets, mutable, id, by rw [tenantId, within, tenant]⟩, by rw [status, active]⟩,
      id⟩
  refine keeps_then (staged.supersede answered) ?_
  rintro _ db s (⟨rfl, staged⟩ | ⟨record, supersededAt, rfl, visible, current, same', staged⟩)
  · refine keeps_then (staged.addGeometry _) ?_
    rintro added db s ⟨row, made, rfl, _, _, staged⟩
    refine staged.audited _ fun db s staged => staged.ready ⟨_, .first (places made).1, rfl⟩
  · refine keeps_then (staged.addGeometry _) ?_
    rintro added db s ⟨row, made, rfl, _, _, staged⟩
    obtain ⟨places, id⟩ := places made
    refine staged.audited _ fun db s staged => staged.ready
      ⟨_, .next visible current (same'.trans id.symm) places, rfl⟩

theorem Staged.getActiveGeometry (staged : Staged x u db s) (parcelId : String) :
    Keeps allowed C (fun _ => Staged x u) (Raising x (Unchanged u))
      (Spatial.getActiveGeometry ctx parcelId) db s := by
  refine Meets.bind (staged.loadAuthorityInScope parcelId) fun authority db s found => ?_
  refine keeps_then (found.1.getActiveForParcel parcelId) fun active db s found => ?_
  cases active with
  | none => exact found.1.raise rfl
  | some geometry => exact found.1

end Rules

end LandVault
