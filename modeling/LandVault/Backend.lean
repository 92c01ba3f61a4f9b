import LandVault.Concurrency
import LandVault.Library.Serial
import LandVault.Rejections

/-!
# The statements of the backend

Every call of a service, statement by statement and whatever is answered: it commits
nothing but audit entries, it keeps the scope of its transaction, and each write of it is
in that scope, is of a table of its own context, and keeps the columns that no update
assigns. This needs no condition on the others and no invariant; the walk over the services
only has to come to every statement.
-/

set_option autoImplicit false

namespace LandVault

open Kernel Kernel.Audit Identity Registry Spatial Evidence Library.Programs
open Library.ReadCommitted Python

/-! ## What a write is about -/

/-- The bounded contexts, and the kernel. -/
inductive Context where
  | kernel | identity | registry | spatial | evidence
  deriving DecidableEq

/-- The context whose table a write changes. -/
def Write.context : Write → Context
  | .insertAudit _ => .kernel
  | .insertParcel _ | .updateParcel _ _ | .insertOwnership _ | .insertStatus _
  | .upsertCounter _ _ => .registry
  | .insertGeometry _ | .updateGeometry _ _ => .spatial
  | .insertAttribution _ | .insertEvidence _ | .updateEvidence _ _ => .evidence
  | .insertTenant _ | .updateTenant _ _ | .insertUser _ | .updateUser _ _
  | .insertSession _ | .updateSession _ _ | .insertInvitation _ | .updateInvitation _ _
  | .insertDelegation _ | .updateDelegation _ _ => .identity

/-- The policy of its table admits the write: the row that is inserted, or the row that the
UPDATE finds. -/
def Covered (scope : Scope) (t : Tables) : Write → Prop
  | .insertAudit _ | .upsertCounter _ _ => True
  | .insertParcel row | .updateParcel row _ => scope.sees row.tenantId = true
  | .insertOwnership row => scope.sees row.tenantId = true
  | .insertStatus row => scope.sees row.tenantId = true
  | .insertGeometry row | .updateGeometry row _ => scope.sees row.tenantId = true
  | .insertAttribution row => scope.sees row.tenantId = true
  | .insertEvidence row | .updateEvidence row _ => scope.sees row.tenantId = true
  | .insertTenant row | .updateTenant row _ => scope.sees row.id = true
  | .insertUser row | .updateUser row _ => scope.sees row.tenantId = true
  | .insertSession row | .updateSession row _ => sessionMapper.sees t scope row = true
  | .insertInvitation row | .updateInvitation row _ => scope.sees row.tenantId = true
  | .insertDelegation row | .updateDelegation row _ => scope.sees row.tenantId = true

/-- An UPDATE keeps the columns that the repository never assigns. -/
def Preserves : Write → Prop
  | .updateParcel stored row =>
      row.parcelId = stored.parcelId ∧ row.tenantId = stored.tenantId ∧
        row.countryCode = stored.countryCode ∧ row.origin = stored.origin ∧
        row.createdBy = stored.createdBy ∧ row.createdAt = stored.createdAt
  | .updateGeometry stored row =>
      row = { stored with status := row.status, supersededAt := row.supersededAt }
  | .updateEvidence stored row => row = Tables.assignEvidence row stored
  | .updateTenant stored row => row = Tables.assignTenant row stored
  | .updateUser stored row => row = Tables.assignUser row stored
  | .updateSession stored row => row = Tables.assignSession row stored
  | .updateInvitation stored row => row = Tables.assignInvitation row stored
  | .updateDelegation stored row => row = Tables.assignDelegation row stored
  | _ => True

/-- The context of a class. -/
def Entity.context : Entity → Context
  | .user | .tenant | .session | .invitation | .delegation => .identity
  | .parcel => .registry
  | .geometry => .spatial
  | .evidence => .evidence

namespace Entity

variable (e : Entity)

theorem context_insert (row : e.Row) : (e.mapper.insert row).context = e.context := by
  cases e <;> rfl

theorem context_update (stored row : e.Row) : (e.mapper.update stored row).context = e.context := by
  cases e <;> rfl

theorem covered_insert {scope : Scope} {t : Tables} {row : e.Row} :
    Covered scope t (e.mapper.insert row) ↔ e.mapper.sees t scope row = true := by
  cases e <;> exact .rfl

theorem covered_update {scope : Scope} {t : Tables} {stored row : e.Row} :
    Covered scope t (e.mapper.update stored row) ↔ e.mapper.sees t scope stored = true := by
  cases e <;> exact .rfl

theorem preserves_insert (row : e.Row) : Preserves (e.mapper.insert row) := by
  cases e <;> trivial

theorem preserves_update (loaded new stored : e.Row) :
    Preserves (e.mapper.update stored (e.mapper.merge loaded new stored)) := by
  cases e with
  | parcel => exact ⟨rfl, rfl, rfl, rfl, rfl, rfl⟩
  | _ => rfl

end Entity

/-! ## Compliant statements -/

/-- A write of the context that stands, is in the scope, and preserves what no update
assigns; or an audit entry. -/
structure Fits (context : Context) (scope : Scope) (t : Tables) (w : Write) : Prop where
  stands : Stands t w
  covered : Covered scope t w
  preserves : Preserves w
  context : w.context = context ∨ Audits w

/-- Whatever the statement is answered, it keeps the scope, and it writes only what fits;
alone it writes audit entries. -/
def Compliant (context : Context) {β : Type} : DbStatement β → Prop
  | .query run => ∀ v memo answer w, run v = .ok ⟨memo, answer, w⟩ →
      memo.scope = v.memo.scope ∧
        ∀ b, answer = .ok b → ∀ w' ∈ w, Fits context v.memo.scope v.tables w'
  | .eager run => ∀ t env w b, run t env = .ok (some w, b) → Audits w
  | .choose _ | .rollback => True
  | .commit => False

theorem Compliant.reserved {context : Context} {β : Type} {statement : DbStatement β}
    (compliant : Compliant context statement) : statement.Reserved Audits := by
  cases statement with
  | eager run => exact compliant
  | commit => exact compliant
  | _ => trivial

/-- Every statement of the request is compliant. -/
abbrev Proceeds (context : Context) {α : Type} (request : Request α) : Prop :=
  Every (Compliant context) request

section Rules

variable {context : Context} {α β : Type}

theorem proceeds_choose (pick : Env → α) : Proceeds context (choose pick) := .perform trivial

/-- A statement that writes nothing. -/
theorem proceeds_reading {run : View Tables Memo Env → Except PyExc (Effect Write Memo PyExc α)}
    (reads : ∀ v memo answer w, run v = .ok ⟨memo, answer, w⟩ →
      memo.scope = v.memo.scope ∧ w = none) : Proceeds context (.perform (.query run)) := by
  refine .perform fun v memo answer w ran => ?_
  obtain ⟨scope, rfl⟩ := reads v memo answer w ran
  exact ⟨scope, fun _ _ _ absurd => by cases absurd⟩

theorem proceeds_select (answer : View Tables Memo Env → Except PyExc α) :
    Proceeds context (select answer) := by
  refine proceeds_reading fun v memo a w ran => ?_
  obtain ⟨_, _, same⟩ := map_eq_ok ran
  cases same
  exact ⟨rfl, rfl⟩

theorem proceeds_get (e : Entity) (key : e.Id) : Proceeds context (e.mapper.get key) := by
  refine proceeds_reading fun v memo found w ran => ?_
  split at ran
  · cases ran
    exact ⟨rfl, rfl⟩
  · split at ran
    · cases ran
      exact ⟨Entity.scope_keep _, rfl⟩
    · cases ran
      exact ⟨rfl, rfl⟩

theorem scope_found (e : Entity) (v : View Tables Memo Env) (rows : List e.Row) (memo : Memo) :
    (rows.foldl (e.mapper.found v) memo).scope = memo.scope := by
  induction rows generalizing memo with
  | nil => rfl
  | cons row rows ih =>
      rw [List.foldl_cons, ih]
      unfold Mapper.found
      split
      · rfl
      · exact Entity.scope_keep row

theorem proceeds_selected (e : Entity) (condition : e.Row → Bool) :
    Proceeds context (e.mapper.select condition) := by
  refine proceeds_reading fun v memo records w ran => ?_
  cases ran
  exact ⟨scope_found e v _ _, rfl⟩

theorem proceeds_scalarOneOrNone (e : Entity) (condition : e.Row → Bool) :
    Proceeds context (e.mapper.scalarOneOrNone condition) := by
  refine (proceeds_selected e condition).bind fun records => ?_
  match records with
  | [] | [_] => exact .ret
  | _ :: _ :: _ => exact .throw

theorem proceeds_add (e : Entity) (row : View Tables Memo Env → e.Row) :
    Proceeds e.context (e.mapper.add row) := by
  refine .perform fun v memo answer w ran => ?_
  obtain ⟨_, _, ran⟩ := bind_eq_ok ran
  split at ran
  · rename_i sees
    simp only [Except.ok.injEq, Effect.mk.injEq] at ran
    obtain ⟨rfl, _, rfl⟩ := ran
    refine ⟨Entity.scope_keep _, ?_⟩
    rintro _ _ _ ⟨⟩
    exact ⟨e.stands_insert _ _, e.covered_insert.mpr sees, e.preserves_insert _,
      .inl (e.context_insert _)⟩
  · cases ran

theorem proceeds_flush (e : Entity) (loaded new : e.Row) :
    Proceeds e.context (e.mapper.flush loaded new) := by
  refine .ite .ret (.perform fun v memo answer w ran => ?_)
  dsimp only at ran
  split at ran
  · cases ran
  · rename_i stored found
    simp only [Except.ok.injEq, Effect.mk.injEq] at ran
    obtain ⟨rfl, _, rfl⟩ := ran
    obtain ⟨member, sees⟩ := Entity.mem_seen.mp (List.mem_of_find?_eq_some found)
    refine ⟨Entity.scope_keep _, ?_⟩
    rintro _ _ _ ⟨⟩
    exact ⟨Entity.stands_update.mpr ⟨member, e.mapper.key_merge _ _ _⟩, e.covered_update.mpr sees,
      e.preserves_update _ _ _, .inl (e.context_update _ _)⟩

/-- What the updates of the repositories share. -/
theorem proceeds_update (e : Entity) {key : e.Id} {rest : Option e.Row → Request α}
    (absent : Proceeds context (rest none))
    (present : ∀ record, Proceeds context (rest (some record))) :
    Proceeds context ((e.mapper.get key).bind rest) := by
  refine (proceeds_get e key).bind fun found => ?_
  cases found with
  | none => exact absent
  | some record => exact present record

/-! ## The kernel -/

theorem proceeds_audit (platform : Platform) (ctx : ExecutionContext) (call : AuditCall) :
    Proceeds context (Kernel.audit platform ctx call) := by
  refine .bind (.perform ?_) fun _ => (proceeds_choose _).bind fun _ => .bind (.perform ?_)
    fun _ => .ret
  · rintro t env w b ⟨⟩
  · intro t env w b ran
    obtain ⟨record, _, same⟩ := map_eq_ok ran
    cases same
    exact ⟨record, rfl⟩

theorem proceeds_auditStaged (platform : Platform) (ctx : ExecutionContext) (call : AuditCall) :
    Proceeds context (auditStaged platform ctx call) := by
  refine (proceeds_select _).bind fun _ => (proceeds_choose _).bind fun _ =>
    .bind (.perform fun v memo answer w ran => ?_) fun _ => .ret
  obtain ⟨record, _, same⟩ := map_eq_ok ran
  cases same
  refine ⟨rfl, ?_⟩
  rintro _ _ _ ⟨⟩
  exact ⟨trivial, trivial, trivial, .inr ⟨record, rfl⟩⟩

end Rules

/-! ## The Registry context -/

section Registry

variable {platform : Platform} {ctx : ExecutionContext} {α : Type}

theorem proceeds_getParcel {context : Context} (parcelId : String) :
    Proceeds context (ParcelRepository.get parcelId) := by
  unfold ParcelRepository.get
  split
  · exact .ret
  · exact (proceeds_get .parcel _).bind fun _ => .ret

theorem proceeds_updateParcel (parcel : Parcel) :
    Proceeds .registry (ParcelRepository.update parcel) :=
  proceeds_update .parcel .throw fun record =>
    (Every.ofExcept _).bind fun _ => (proceeds_flush .parcel record _).bind fun _ => .ret

theorem fits_ownership (row : OwnershipRecord) (scope : Scope) (t : Tables)
    (sees : scope.sees row.tenantId = true) :
    Fits .registry scope t (ParcelHistoryRepository.ownership.insert row) :=
  ⟨trivial, sees, trivial, .inl rfl⟩

theorem fits_status (row : StatusRecord) (scope : Scope) (t : Tables)
    (sees : scope.sees row.tenantId = true) :
    Fits .registry scope t (ParcelHistoryRepository.status.insert row) :=
  ⟨trivial, sees, trivial, .inl rfl⟩

/-- A row of history. -/
theorem proceeds_record {A : Type} (history : ParcelHistoryRepository.History A)
    (fits : ∀ row scope t, scope.sees row.tenantId = true →
      Fits .registry scope t (history.insert row)) (assertion : AssertionOf A String Timestamp) :
    Proceeds .registry (history.record assertion) := by
  refine (Every.ofExcept _).bind fun model => .perform fun v memo answer w ran => ?_
  dsimp only at ran
  split at ran
  · rename_i sees
    simp only [Except.ok.injEq, Effect.mk.injEq] at ran
    obtain ⟨rfl, _, rfl⟩ := ran
    refine ⟨rfl, ?_⟩
    rintro _ _ _ ⟨⟩
    exact fits _ _ _ sees
  · cases ran

theorem proceeds_assertOwnership (parcel : Parcel) (asserted : Option String)
    (basis auditId : String) (supersedesId : Option UUID) :
    Proceeds .registry (assertHistory ParcelHistoryRepository.ownership ctx parcel asserted basis
      auditId supersedesId) :=
  (proceeds_choose _).bind fun _ =>
    (proceeds_record ParcelHistoryRepository.ownership fits_ownership _).bind fun _ => .ret

theorem proceeds_assertStatus (parcel : Parcel) (asserted : ParcelStatus)
    (basis auditId : String) (supersedesId : Option UUID) :
    Proceeds .registry (assertHistory ParcelHistoryRepository.status ctx parcel asserted basis
      auditId supersedesId) :=
  (proceeds_choose _).bind fun _ =>
    (proceeds_record ParcelHistoryRepository.status fits_status _).bind fun _ => .ret

theorem proceeds_latest {context : Context} {A : Type} (history : ParcelHistoryRepository.History A)
    (parcelId : UUID) : Proceeds context (history.latest parcelId) := by
  refine proceeds_reading fun v memo answer w ran => ?_
  cases ran
  exact ⟨rfl, rfl⟩

theorem proceeds_allocate (country : String) :
    Proceeds .registry (ParcelNumberAllocator.allocate country) := by
  refine .perform fun v memo answer w ran => ?_
  dsimp only at ran
  split at ran
  · cases ran
  split at ran
  · cases ran
  split at ran
  · cases ran
    refine ⟨rfl, ?_⟩
    rintro _ _ _ ⟨⟩
    exact ⟨rfl, trivial, trivial, .inl rfl⟩
  · cases ran

theorem proceeds_auditPermit {context : Context} (action : String) (parcel : Parcel)
    (entryId : Option String) (payload : List (String × Detail)) :
    Proceeds context (auditPermit platform ctx action parcel entryId payload) :=
  (proceeds_audit _ _ _).bind fun _ => .ret

theorem proceeds_loadParcel {context : Context} (parcelId : String) :
    Proceeds context (Registry.loadInScope ctx parcelId) := by
  refine (proceeds_getParcel parcelId).bind fun found => ?_
  cases found with
  | none => exact .throw
  | some parcel => exact .ite .ret .throw

theorem proceeds_authorizeMutation {context : Context} (parcel : Parcel) :
    Proceeds context (Registry.authorizeMutation platform ctx parcel) :=
  .ite .ret ((proceeds_audit _ _ _).bind fun _ => .throw)

theorem proceeds_orConflict {context : Context} (result : Except PyExc α) :
    Proceeds context (Registry.orConflict result) := by
  unfold Registry.orConflict
  split <;> trivial

theorem proceeds_resolveCountry {context : Context} (countryCode : Option String) :
    Proceeds context (resolveCountry ctx countryCode) := by
  unfold resolveCountry
  dsimp only
  split <;> trivial

theorem proceeds_referenceIsValid {context : Context} (reference tenantId parcelId : String) :
    Proceeds context (RealGeometryAdapter.referenceIsValid reference tenantId parcelId) := by
  refine Every.bind (.handle ?_ fun e => ?_) fun found => ?_
  · exact (Every.ofExcept _).bind fun key => (proceeds_get .geometry key).bind fun _ => .ret
  · unfold RealGeometryAdapter.referenceIsValid.malformed
    split <;> trivial
  · cases found <;> exact .ret

theorem proceeds_recordCreated (parcel : Parcel) (ownershipAuditId : Option String) :
    Proceeds .registry (createParcel.recordCreated platform ctx parcel ownershipAuditId) := by
  refine (proceeds_choose _).bind fun createdAuditId => ?_
  refine (proceeds_assertStatus _ _ _ _ _).bind fun _ => .ite ?_ ?_
  · exact (proceeds_auditPermit _ _ _ _).bind fun _ => (proceeds_auditPermit _ _ _ _).bind
      fun _ => .ret
  · exact (proceeds_auditPermit _ _ _ _).bind fun _ => .ret

theorem proceeds_createParcel (countryCode : Option String) (details : ParcelDetails) :
    Proceeds .registry (createParcel platform ctx countryCode details) := by
  refine .ite .throw ?_
  have resolves := @proceeds_resolveCountry ctx .registry countryCode
  -- the country is not evaluated
  generalize resolveCountry ctx countryCode = resolving at resolves ⊢
  refine resolves.bind fun country => .ite .throw ?_
  refine (proceeds_choose _).bind fun drawn => ?_
  refine (proceeds_allocate country).bind fun number => ?_
  refine (proceeds_choose _).bind fun now => (Every.ofExcept _).bind fun parcel => ?_
  refine Every.bind ?_ fun parcel => ?_
  · exact (Every.ofExcept _).bind fun row => (proceeds_add .parcel _).bind fun _ => .ret
  split
  · exact proceeds_recordCreated parcel none
  · refine (proceeds_choose _).bind fun auditId => ?_
    exact (proceeds_assertOwnership _ _ _ _ _).bind fun _ => proceeds_recordCreated parcel _

theorem proceeds_updateDetails (parcelId : String) (fields : FieldMap) :
    Proceeds .registry (Registry.updateParcel platform ctx parcelId fields) := by
  refine .ite .throw (.ite .throw ?_)
  refine (proceeds_loadParcel parcelId).bind fun parcel => ?_
  refine (proceeds_authorizeMutation parcel).bind fun _ => (proceeds_choose _).bind fun now => ?_
  refine (proceeds_orConflict _).bind fun updated => ?_
  refine (proceeds_updateParcel updated).bind fun updated => .ite ?_ ?_
  · refine Every.bind ?_ fun _ => (proceeds_auditPermit _ _ _ _).bind fun _ => .ret
    refine (proceeds_latest _ _).bind fun prior => (proceeds_choose _).bind fun auditId => ?_
    exact (proceeds_assertOwnership _ _ _ _ _).bind fun _ => proceeds_auditPermit _ _ _ _
  · exact (proceeds_auditPermit _ _ _ _).bind fun _ => .ret

theorem proceeds_archiveParcel (parcelId : String) :
    Proceeds .registry (archiveParcel platform ctx parcelId) := by
  refine (proceeds_loadParcel parcelId).bind fun parcel => ?_
  refine (proceeds_authorizeMutation parcel).bind fun _ => (proceeds_choose _).bind fun now => ?_
  refine (proceeds_orConflict _).bind fun archived => ?_
  refine (proceeds_updateParcel archived).bind fun archived => ?_
  refine (proceeds_latest _ _).bind fun prior => (proceeds_choose _).bind fun auditId => ?_
  refine (proceeds_assertStatus _ _ _ _ _).bind fun _ => ?_
  exact (proceeds_auditPermit _ _ _ _).bind fun _ => (proceeds_auditPermit _ _ _ _).bind
    fun _ => .ret

theorem proceeds_setGeometryReference (parcelId : String) (reference : Option String) :
    Proceeds .registry (Registry.setGeometryReference RealGeometryAdapter.referenceIsValid platform
      ctx parcelId reference) := by
  refine (proceeds_loadParcel parcelId).bind fun parcel => ?_
  refine (proceeds_authorizeMutation parcel).bind fun _ => Every.bind ?_ fun _ => ?_
  · cases reference with
    | none => exact .ret
    | some text => exact (proceeds_referenceIsValid _ _ _).bind fun _ => .ite .throw .ret
  refine (proceeds_choose _).bind fun now => (proceeds_orConflict _).bind fun referring => ?_
  refine (proceeds_updateParcel referring).bind fun referring => ?_
  exact (proceeds_auditPermit _ _ _ _).bind fun _ => .ret

theorem proceeds_parcelRequest (request : ParcelRequest) :
    Proceeds .registry
      (request.serve RealGeometryAdapter.referenceIsValid platform ctx) := by
  cases request with
  | create countryCode details =>
      exact (proceeds_createParcel countryCode details).bind fun _ => .ret
  | get parcelId =>
      exact ((proceeds_loadParcel parcelId).bind fun _ => .ret).bind fun _ => .ret
  | list =>
      refine Every.bind (.ite .ret ?_) fun _ => .ret
      exact ((proceeds_selected .parcel _).bind fun _ => .ret).bind fun _ => .ret
  | update parcelId fields => exact (proceeds_updateDetails parcelId fields).bind fun _ => .ret
  | archive parcelId => exact (proceeds_archiveParcel parcelId).bind fun _ => .ret
  | setGeometryReference parcelId reference =>
      exact (proceeds_setGeometryReference parcelId reference).bind fun _ => .ret

end Registry

/-! ## The Spatial context -/

section Spatial

variable {platform : SpatialPlatform} {ctx : ExecutionContext}

theorem proceeds_parcelAuthority {context : Context} (parcelId : String) :
    Proceeds context (Spatial.ParcelExistencePort.getParcelAuthority parcelId) := by
  refine proceeds_reading fun v memo answer w ran => ?_
  obtain ⟨_, _, same⟩ := map_eq_ok ran
  cases same
  exact ⟨rfl, rfl⟩

theorem proceeds_loadAuthority {context : Context} (parcelId : String) :
    Proceeds context (loadAuthorityInScope ctx parcelId) := by
  refine (proceeds_parcelAuthority parcelId).bind fun found => ?_
  cases found with
  | none => exact .throw
  | some authority => exact .ite .ret .throw

theorem proceeds_getActiveForParcel {context : Context} (parcelId : String) :
    Proceeds context (ParcelGeometryRepository.getActiveForParcel parcelId) :=
  (Every.ofExcept _).bind fun _ => (proceeds_scalarOneOrNone .geometry _).bind fun _ => .ret

theorem proceeds_supersede (existing : Option ParcelGeometry) :
    Proceeds .spatial (supersede existing) := by
  cases existing with
  | none => exact .ret
  | some existing =>
      refine (proceeds_choose _).bind fun now => (Every.ofExcept _).bind fun superseded => ?_
      refine Every.bind ?_ fun _ => .ret
      exact proceeds_update .geometry .throw fun record =>
        (proceeds_flush .geometry record _).bind fun _ => .ret

theorem proceeds_submitGeometry (parcelId boundary : String) :
    Proceeds .spatial (submitGeometry platform ctx parcelId boundary) := by
  refine (proceeds_loadAuthority parcelId).bind fun authority => ?_
  refine Every.bind (.ite .ret ((proceeds_audit _ _ _).bind fun _ => .throw)) fun _ => ?_
  refine .ite .throw ?_
  refine (proceeds_choose _).bind fun drawn => Every.bind ?_ fun geometry => ?_
  · unfold Spatial.orBadRequest
    split <;> trivial
  refine (proceeds_getActiveForParcel parcelId).bind fun existing => ?_
  refine (proceeds_supersede existing).bind fun _ => Every.bind ?_ fun geometry => ?_
  · exact (Every.ofExcept _).bind fun row => (proceeds_add .geometry _).bind fun _ => .ret
  · exact (proceeds_audit _ _ _).bind fun _ => .ret

theorem proceeds_spatialRequest (request : SpatialRequest) :
    Proceeds .spatial (request.serve platform ctx) := by
  cases request with
  | submit parcelId boundary => exact proceeds_submitGeometry parcelId boundary
  | getActive parcelId =>
      refine (proceeds_loadAuthority parcelId).bind fun _ => ?_
      refine (proceeds_getActiveForParcel parcelId).bind fun found => ?_
      cases found <;> trivial

end Spatial

/-! ## The Evidence context -/

section Evidence

variable {ctx : ExecutionContext} {α : Type}

theorem proceeds_loadParcelAuthority {context : Context} (parcelId : String) :
    Proceeds context (loadParcelAuthorityInScope ctx parcelId) := by
  refine (proceeds_select _).bind fun found => ?_
  cases found with
  | none => exact .throw
  | some authority => exact .ite .ret .throw

theorem proceeds_getEvidence {context : Context} (evidenceId : String) :
    Proceeds context (PostgresEvidenceRepository.get evidenceId) := by
  unfold PostgresEvidenceRepository.get
  split
  · exact .ret
  · exact (proceeds_get .evidence _).bind fun _ => .ret

theorem proceeds_loadEvidence {context : Context} (evidenceId : String) :
    Proceeds context (Evidence.loadInScope ctx evidenceId) := by
  refine (proceeds_getEvidence evidenceId).bind fun found => ?_
  cases found with
  | none => exact .throw
  | some record => exact .ite .ret .throw

theorem proceeds_orRefused {context : Context} (result : Except PyExc α) :
    Proceeds context (orRefused result) := by
  unfold orRefused
  split <;> trivial

theorem proceeds_evidenceOrBadRequest {context : Context} (result : Except PyExc α) :
    Proceeds context (Evidence.orBadRequest result) := by
  unfold Evidence.orBadRequest
  split <;> trivial

theorem proceeds_assign (evidenceId : UUID)
    (columns : EvidenceRecordModel → Except PyExc EvidenceRecordModel) :
    Proceeds .evidence (PostgresEvidenceRepository.assign evidenceId columns) :=
  proceeds_update .evidence .throw fun record =>
    (Every.ofExcept _).bind fun _ => (proceeds_flush .evidence record _).bind fun _ => .ret

theorem proceeds_auditRecord {context : Context} (platform : Platform) (action decision : String)
    (record : EvidenceRecord) (entryId : Option String) (payload : Payload) :
    Proceeds context (auditRecord platform ctx action decision record entryId payload) :=
  (proceeds_audit _ _ _).bind fun _ => .ret

theorem proceeds_addRecord (parcelId : String) (upload : Upload) (sizeBytes : Int)
    (storageKey : String) :
    Proceeds .evidence (addRecord ctx parcelId upload sizeBytes storageKey) := by
  refine (proceeds_choose _).bind fun auditId => (proceeds_choose _).bind fun drawn => ?_
  refine (proceeds_evidenceOrBadRequest _).bind fun record => Every.bind ?_ fun _ => .ret
  exact (Every.ofExcept _).bind fun row => (proceeds_add .evidence _).bind fun _ => .ret

theorem proceeds_storeHash (platform : Platform) (record : EvidenceRecord) :
    Proceeds .evidence (storeHash platform ctx record) :=
  (proceeds_assign _ _).bind fun _ => (proceeds_auditRecord _ _ _ _ _ _).bind fun _ => .ret

theorem proceeds_put {context : Context} : Proceeds context StoragePort.put := by
  refine (proceeds_choose _).bind fun answer => ?_
  cases answer <;> trivial

theorem proceeds_content {context : Context} (storageKey : String) :
    Proceeds context (StoragePort.get storageKey) := by
  refine (proceeds_choose _).bind fun answer => ?_
  cases answer <;> trivial

section Service

variable {platform : EvidencePlatform}

theorem proceeds_uploadEvidence (parcelId : String) (upload : Upload) (data : List UInt8) :
    Proceeds .evidence (uploadEvidence platform ctx parcelId upload data) := by
  refine .ite .throw (.ite .throw ?_)
  refine (proceeds_loadParcelAuthority parcelId).bind fun authority => .ite ?_ ?_
  · exact (proceeds_audit _ _ _).bind fun _ => .throw
  refine (proceeds_choose _).bind fun storageKey => proceeds_put.bind fun _ => ?_
  refine (proceeds_addRecord _ _ _ _).bind fun added => ?_
  refine (proceeds_auditRecord _ _ _ _ _ _).bind fun _ => ?_
  refine (proceeds_content storageKey).bind fun readback => .ite ?_ ?_
  · exact (proceeds_auditRecord _ _ _ _ _ _).bind fun _ => .throw
  · exact (Every.ofExcept _).bind fun record => proceeds_storeHash _ record

theorem proceeds_evidenceRequest (request : EvidenceRequest) :
    Proceeds .evidence (request.serve platform ctx) := by
  cases request with
  | upload parcelId details data =>
      exact (proceeds_uploadEvidence parcelId details data).bind fun _ => .ret
  | recordUpload parcelId details sizeBytes storageKey =>
      refine Every.bind (.ite .throw ?_) fun _ => .ret
      refine (proceeds_addRecord _ _ _ _).bind fun added => ?_
      exact (proceeds_auditRecord _ _ _ _ _ _).bind fun _ => .ret
  | get evidenceId => exact (proceeds_loadEvidence evidenceId).bind fun _ => .ret
  | listForParcel parcelId =>
      refine Every.bind ?_ fun _ => .ret
      refine (proceeds_loadParcelAuthority parcelId).bind fun _ => Every.bind ?_ fun _ => .ret
      exact (Every.ofExcept _).bind fun key => (proceeds_selected .evidence _).bind fun _ => .ret
  | markHashed evidenceId sha256 =>
      refine Every.bind ?_ fun _ => .ret
      refine (proceeds_loadEvidence evidenceId).bind fun record => ?_
      exact (proceeds_orRefused _).bind fun record => proceeds_storeHash _ record
  | sealRecord evidenceId wormGrade =>
      refine Every.bind ?_ fun _ => .ret
      refine (proceeds_loadEvidence evidenceId).bind fun record => ?_
      refine (proceeds_orRefused _).bind fun record => (proceeds_assign _ _).bind fun record => ?_
      exact (proceeds_auditRecord _ _ _ _ _ _).bind fun _ => .ret
  | applyLegalHold evidenceId reason =>
      refine Every.bind ?_ fun _ => .ret
      refine (proceeds_loadEvidence evidenceId).bind fun record => ?_
      refine (proceeds_evidenceOrBadRequest _).bind fun record => ?_
      refine (proceeds_assign _ _).bind fun record => ?_
      exact (proceeds_auditRecord _ _ _ _ _ _).bind fun _ => .ret
  | releaseLegalHold evidenceId =>
      refine Every.bind ?_ fun _ => .ret
      refine (proceeds_loadEvidence evidenceId).bind fun record => ?_
      refine (proceeds_assign _ _).bind fun record => ?_
      exact (proceeds_auditRecord _ _ _ _ _ _).bind fun _ => .ret

end Service

/-! ### Attributions -/

section Attribution

variable {platform : Platform}

theorem proceeds_evidenceInScope {context : Context} (evidenceId : String) :
    Proceeds context (loadEvidenceInScope ctx evidenceId) := by
  refine Every.bind ?_ fun found => ?_
  · unfold EvidenceRepository.get
    split
    · exact .ret
    · exact proceeds_select _
  · cases found with
    | none => exact .throw
    | some record => exact .ite .ret .throw

theorem proceeds_authorizeAttribution {context : Context} (record : EvidenceRecordModel) :
    Proceeds context (Evidence.authorizeMutation ctx record) := by
  refine (proceeds_select _).bind fun found => ?_
  cases found with
  | none => exact .throw
  | some authority => exact .ite .throw (.ite .throw .ret)

theorem proceeds_verifyActorReference {context : Context} (claim : ActorClaim) :
    Proceeds context (verifyActorReference ctx claim) := by
  refine .ite .ret ?_
  split
  · exact .ret
  · refine .ite .ret (Every.bind ?_ fun _ => .ite .throw .ret)
    unfold PrincipalTenantPort.getTenantId
    split
    · exact .ret
    · exact proceeds_select _

theorem proceeds_getSuccessor {context : Context} (attributionId : UUID) :
    Proceeds context (EvidenceActorAttributionRepository.getSuccessor attributionId) := by
  refine (proceeds_select _).bind fun rows => ?_
  split <;> trivial

theorem proceeds_walkToHead {context : Context} (attributionId : String) (hops : Nat)
    (current : EvidenceActorAttribution) :
    Proceeds context (walkToHead attributionId hops current) := by
  induction hops generalizing current with
  | zero => exact .throw
  | succ hops ih =>
      refine (proceeds_getSuccessor current.id).bind fun found => ?_
      cases found with
      | none => exact .ret
      | some successor => exact ih successor

theorem proceeds_resolveActiveHead {context : Context} (attributionId : String) :
    Proceeds context (resolveActiveHead attributionId) := by
  refine Every.bind ?_ fun found => ?_
  · unfold EvidenceActorAttributionRepository.get
    split
    · exact .ret
    · exact proceeds_select _
  · cases found with
    | none => exact .throw
    | some current => exact proceeds_walkToHead attributionId maxLineageWalk current

theorem proceeds_recordAttribution (attribution : EvidenceActorAttribution) :
    Proceeds .evidence (EvidenceActorAttributionRepository.record attribution) := by
  refine (Every.ofExcept _).bind fun model => .perform fun v memo answer w ran => ?_
  obtain ⟨_, passed, same⟩ := map_eq_ok ran
  cases same
  refine ⟨rfl, ?_⟩
  rintro _ _ _ ⟨⟩
  exact ⟨trivial, (checkNewRow_ok passed).2.2.2.1, trivial, .inl rfl⟩

theorem proceeds_recordNew (claim : ActorClaim) (tenantId : String) (evidenceId : UUID)
    (supersedesId : Option UUID) (action : String)
    (lastDetail : EvidenceActorAttribution → String × Detail) :
    Proceeds .evidence
      (recordNew platform ctx claim tenantId evidenceId supersedesId action lastDetail) := by
  refine (proceeds_choose _).bind fun auditId => (proceeds_choose _).bind fun drawn => ?_
  refine (proceeds_evidenceOrBadRequest _).bind fun attribution => ?_
  refine (proceeds_recordAttribution attribution).bind fun attribution => ?_
  exact (proceeds_auditStaged _ _ _).bind fun _ => .ret

theorem proceeds_correctAttribution (attributionId : String) (claim : ActorClaim) :
    Proceeds .evidence (correctAttribution platform ctx attributionId claim) := by
  refine .ite .throw ?_
  refine (proceeds_resolveActiveHead attributionId).bind fun head => .ite .throw ?_
  refine (proceeds_evidenceInScope _).bind fun record => ?_
  refine (proceeds_authorizeAttribution record).bind fun _ => ?_
  exact (proceeds_verifyActorReference claim).bind fun _ => proceeds_recordNew _ _ _ _ _ _

theorem proceeds_attributionCall (call : AttributionCall) :
    Proceeds .evidence (call.serve platform ctx) := by
  cases call with
  | record evidenceId claim =>
      refine Every.bind (.ite .throw ?_) fun _ => .ret
      refine (proceeds_evidenceInScope _).bind fun record => ?_
      refine (proceeds_authorizeAttribution record).bind fun _ => ?_
      exact (proceeds_verifyActorReference claim).bind fun _ => proceeds_recordNew _ _ _ _ _ _
  | correct attributionId claim =>
      exact (proceeds_correctAttribution attributionId claim).bind fun _ => .ret
  | list evidenceId =>
      refine Every.bind ?_ fun _ => .ret
      refine (proceeds_evidenceInScope _).bind fun _ => Every.bind ?_ fun _ => .ret
      exact (Every.ofExcept _).bind fun key => (proceeds_select _).bind fun _ => .ret

/-- The endpoint of a correction may roll back, which keeps no scope, and writes nothing
after that. -/
theorem proceeds_correctEndpoint (attributionId : String) (claim : ActorClaim) :
    Proceeds .evidence (correctEvidenceAttribution platform ctx attributionId claim) :=
  (proceeds_correctAttribution attributionId claim).handle fun _ =>
    .ite (.bind (.perform trivial) fun _ => .throw) .throw

end Attribution
end Evidence

/-! ## The Identity context -/

section Identity

variable {platform : IdentityPlatform} {ctx : ExecutionContext} {α : Type}

theorem proceeds_getUser {context : Context} (userId : String) :
    Proceeds context (UserRepository.get userId) := by
  unfold UserRepository.get
  split
  · exact .ret
  · exact proceeds_get .user _

theorem proceeds_getByEmail (lower : String → String) (email : String) :
    Proceeds .identity (UserRepository.getByEmail lower email) :=
  (Every.ofExcept _).bind fun _ => proceeds_scalarOneOrNone .user _

theorem proceeds_getInvitation {context : Context} (invitationId : String) :
    Proceeds context (InvitationRepository.get invitationId) := by
  unfold InvitationRepository.get
  split
  · exact .ret
  · exact proceeds_get .invitation _

theorem proceeds_updateUser (user : UserRecord) (expectedVersion : Int) :
    Proceeds .identity (UserRepository.update user expectedVersion) :=
  proceeds_update .user .throw fun record => .ite .throw (proceeds_flush .user record _)

theorem proceeds_updateSession (session : SessionRecord) :
    Proceeds .identity (SessionRepository.update session) :=
  proceeds_update .session .throw fun record => proceeds_flush .session record _

theorem proceeds_updateTenant (tenant : TenantRecord) :
    Proceeds .identity (TenantRepository.update tenant) :=
  proceeds_update .tenant .throw fun record => proceeds_flush .tenant record _

theorem proceeds_updateInvitation (invitation : InvitationRecord) :
    Proceeds .identity (InvitationRepository.update invitation) :=
  proceeds_update .invitation .throw fun record => proceeds_flush .invitation record _

theorem proceeds_updateDelegation (delegation : Delegation) :
    Proceeds .identity (DelegationRepository.update delegation) :=
  proceeds_update .delegation .throw fun record => (Every.ofExcept _).bind fun _ =>
    (proceeds_flush .delegation record _).bind fun _ => .ret

theorem proceeds_revokeAllActiveForUser (userId : UUID) (reason : String) :
    Proceeds .identity (SessionRepository.revokeAllActiveForUser userId reason) := by
  refine (proceeds_selected .session _).bind fun records => (proceeds_choose _).bind fun now => ?_
  induction records with
  | nil => exact .ret
  | cons record records ih => exact (proceeds_flush .session record _).bind fun _ => ih

theorem proceeds_orBadRequest {context : Context} (result : Except PyExc α) :
    Proceeds context (Identity.orBadRequest result) := by
  unfold Identity.orBadRequest
  split <;> trivial

theorem proceeds_expiryAfter {context : Context} (days : Nat) :
    Proceeds context (expiryAfter days) := by
  refine (proceeds_choose _).bind fun now => ?_
  split <;> trivial

/-! ### Authentication -/

theorem proceeds_validateProfile {context : Context} (fullName : String) (country : Option String) :
    Proceeds context (validateProfile fullName country) := by
  refine .ite .throw ?_
  generalize CountryCode.new _ = checked
  exact (proceeds_orBadRequest checked).bind fun _ => .ret

theorem proceeds_validateCredentials {context : Context} (password fullName : String)
    (country : Option String) :
    Proceeds context (validateCredentials password fullName country) :=
  .ite .throw (proceeds_validateProfile fullName country)

theorem proceeds_createIdpUser {context : Context} : Proceeds context createIdpUser := by
  refine (proceeds_choose _).bind fun answer => ?_
  split
  · exact .ret
  · exact .ite .throw .throw
  · exact .throw

theorem proceeds_issueTokens (user : UserRecord) (tokens : IdentityProviderTokens)
    (userAgent ip : Option String) (rotatedFrom : Option UUID) :
    Proceeds .identity (issueTokens platform ctx user tokens userAgent ip rotatedFrom) := by
  refine (proceeds_choose _).bind fun token => (proceeds_expiryAfter _).bind fun expiresAt => ?_
  refine (proceeds_choose _).bind fun drawn => (proceeds_add .session _).bind fun session => ?_
  refine (proceeds_choose _).bind fun now => Every.bind ?_ fun marked => ?_
  · exact (proceeds_updateUser _ _).handle fun _ => .ret
  · exact (proceeds_audit _ _ _).bind fun _ => .ret

theorem proceeds_loginLocal (email : String) (userAgent ip : Option String) :
    Proceeds .identity (loginLocal platform ctx email userAgent ip) := by
  have failed : ∀ normalized reason, Proceeds .identity
      (loginLocal.failed platform ctx normalized reason) :=
    fun _ _ => (proceeds_audit _ _ _).bind fun _ => .throw
  refine (Every.ofExcept _).bind fun normalized => (proceeds_choose _).bind fun answer => ?_
  split
  · exact failed _ _
  · exact .throw
  · refine (proceeds_scalarOneOrNone .user _).bind fun found => ?_
    split
    · exact failed _ _
    · refine (proceeds_get .tenant _).bind fun tenant => ?_
      split
      · exact failed _ _
      · exact proceeds_issueTokens _ _ _ _ _

theorem proceeds_registerLocal (email password fullName : String) (country : Option String) :
    Proceeds .identity (registerLocal platform ctx email password fullName country) := by
  refine (proceeds_orBadRequest _).bind fun normalizedEmail => ?_
  refine (proceeds_validateCredentials _ _ _).bind fun profile => ?_
  refine (proceeds_getByEmail _ _).bind fun found => .ite .throw ?_
  refine proceeds_createIdpUser.bind fun subject => (proceeds_choose _).bind fun drawn => ?_
  refine (proceeds_add .tenant _).bind fun tenant => (proceeds_choose _).bind fun drawn' => ?_
  refine (proceeds_add .user _).bind fun user => (proceeds_updateTenant _).bind fun owned => ?_
  exact (proceeds_audit _ _ _).bind fun _ => proceeds_loginLocal _ _ _

theorem proceeds_auditRedemptionDenied {context : Context} (invitation : Option InvitationRecord)
    (reason : String) :
    Proceeds context (auditRedemptionDenied platform ctx invitation reason) :=
  (proceeds_audit _ _ _).bind fun _ => .ret

theorem proceeds_authorizeRedemption (token : String) :
    Proceeds .identity (authorizeInvitationRedemption platform ctx token) := by
  refine .ite .throw ((proceeds_scalarOneOrNone .invitation _).bind fun invitation => ?_)
  refine (proceeds_choose _).bind fun now => ?_
  split
  · exact (proceeds_auditRedemptionDenied _ _).bind fun _ => .throw
  · refine (proceeds_getUser _).bind fun inviter => ?_
    refine (proceeds_get .tenant _).bind fun targetTenant => ?_
    split
    · refine (proceeds_choose _).bind fun now => (proceeds_updateInvitation _).bind fun _ => ?_
      exact (proceeds_auditRedemptionDenied _ _).bind fun _ => .throw
    · exact .ret

theorem proceeds_provisionUser (invitation : InvitationRecord)
    (identitySubject email fullName country : String) :
    Proceeds .identity (provisionUserFromInvitation platform ctx invitation identitySubject email
      fullName country) := by
  refine .ite ((proceeds_auditRedemptionDenied _ _).bind fun _ => .throw) ?_
  refine (proceeds_scalarOneOrNone .user _).bind fun known => .ite ?_ ?_
  · exact (proceeds_auditRedemptionDenied _ _).bind fun _ => .throw
  refine (proceeds_getByEmail _ _).bind fun found => .ite .throw ?_
  refine (proceeds_choose _).bind fun drawn => (proceeds_add .user _).bind fun user => ?_
  refine (proceeds_choose _).bind fun now => (proceeds_updateInvitation _).bind fun _ => ?_
  exact (proceeds_audit _ _ _).bind fun _ => (proceeds_audit _ _ _).bind fun _ => .ret

theorem proceeds_acceptInvitation (token : Str) (password fullName : String)
    (country userAgent ip : Option String) :
    Proceeds .identity
      (acceptInvitation platform ctx token password fullName country userAgent ip) := by
  refine (Every.ofExcept _).bind fun token => (proceeds_authorizeRedemption token).bind fun invitation => ?_
  refine (proceeds_validateCredentials _ _ _).bind fun profile => ?_
  refine (proceeds_getByEmail _ _).bind fun found => .ite .throw ?_
  refine proceeds_createIdpUser.bind fun subject => ?_
  exact (proceeds_provisionUser _ _ _ _ _).bind fun user => proceeds_loginLocal _ _ _

theorem proceeds_acceptInvitationSupabase (token : Str)
    (identitySubject verifiedEmail fullName : String) (country : Option String) :
    Proceeds .identity (acceptInvitationSupabase platform ctx token identitySubject verifiedEmail
      fullName country) := by
  refine (Every.ofExcept _).bind fun token => (proceeds_authorizeRedemption token).bind fun invitation => ?_
  refine (proceeds_validateProfile _ _).bind fun profile => ?_
  dsimp only
  split
  · exact .throw
  · exact .throw
  · exact proceeds_provisionUser _ _ _ _ _

theorem proceeds_revokeAndReject (session : SessionRecord) (reason detail : String) :
    Proceeds .identity (revokeAndReject session reason detail) :=
  (proceeds_choose _).bind fun _ => (proceeds_updateSession _).bind fun _ => .throw

theorem proceeds_refresh (refreshToken : String) (userAgent ip : Option String) :
    Proceeds .identity (refresh platform ctx refreshToken userAgent ip) := by
  refine .ite .throw ((proceeds_scalarOneOrNone .session _).bind fun found => ?_)
  cases found with
  | none => exact (proceeds_audit _ _ _).bind fun _ => .throw
  | some session =>
      refine .ite ?_ ?_
      · refine (proceeds_revokeAllActiveForUser _ _).bind fun _ => ?_
        exact (proceeds_audit _ _ _).bind fun _ => .throw
      refine (proceeds_choose _).bind fun now => .ite (proceeds_revokeAndReject _ _ _) ?_
      refine (proceeds_getUser _).bind fun user => ?_
      split
      · exact proceeds_revokeAndReject _ _ _
      · refine (proceeds_choose _).bind fun answer => ?_
        split
        · exact proceeds_revokeAndReject _ _ _
        · exact .throw
        · refine (proceeds_choose _).bind fun now => (proceeds_updateSession _).bind fun _ => ?_
          exact proceeds_issueTokens _ _ _ _ _

theorem proceeds_logout (refreshToken : Option String) :
    Proceeds .identity (logout platform ctx refreshToken) := by
  refine .ite .ret ((proceeds_scalarOneOrNone .session _).bind fun found => ?_)
  split
  · exact .ret
  · refine (proceeds_choose _).bind fun now => (proceeds_updateSession _).bind fun _ => ?_
    exact (proceeds_audit _ _ _).bind fun _ => .ret

theorem proceeds_authRequest (request : AuthRequest) :
    Proceeds .identity (request.serve platform ctx) := by
  cases request with
  | register email password fullName country =>
      exact (proceeds_registerLocal email password fullName country).bind fun _ => .ret
  | login email userAgent ip => exact (proceeds_loginLocal email userAgent ip).bind fun _ => .ret
  | acceptInvitation token password fullName country userAgent ip =>
      exact (proceeds_acceptInvitation token password fullName country userAgent ip).bind
        fun _ => .ret
  | acceptInvitationSupabase token fullName country =>
      exact (proceeds_acceptInvitationSupabase token _ _ fullName country).bind fun _ => .ret
  | refresh refreshToken userAgent ip =>
      exact (proceeds_refresh refreshToken userAgent ip).bind fun _ => .ret
  | logout refreshToken => exact (proceeds_logout refreshToken).bind fun _ => .ret
  | myTenant =>
      refine Every.bind (.ite .throw ((proceeds_get .tenant _).bind fun found => ?_)) fun _ => .ret
      cases found <;> trivial

/-! ### Administration -/

theorem proceeds_assignRole (targetUserId role : String) :
    Proceeds .identity (assignRole platform ctx targetUserId role) := by
  refine .ite .throw (.ite (.fails (proceeds_audit _ _ _)) (.ite (.fails (proceeds_audit _ _ _)) ?_))
  refine (proceeds_getUser _).bind fun found => ?_
  cases found with
  | none => exact .throw
  | some user =>
      refine (proceeds_choose _).bind fun now => (Every.ofExcept _).bind fun assigned => ?_
      refine (proceeds_updateUser _ _).bind fun updated => ?_
      exact (proceeds_audit _ _ _).bind fun _ => .ret

theorem proceeds_createInvitation (email role : String) :
    Proceeds .identity (createInvitation platform ctx email role) := by
  refine .ite .throw ((proceeds_orBadRequest _).bind fun normalizedEmail => ?_)
  refine .ite ((proceeds_audit _ _ _).bind fun _ => .throw) ?_
  refine (proceeds_getByEmail _ _).bind fun found => .ite .throw (.ite .throw ?_)
  refine (proceeds_scalarOneOrNone .invitation _).bind fun found => .ite .throw ?_
  refine (proceeds_choose _).bind fun token => (proceeds_expiryAfter _).bind fun expiresAt => ?_
  refine (proceeds_choose _).bind fun drawn => Every.bind ?_ fun invitation => ?_
  · exact (Every.ofExcept _).bind fun row => proceeds_add .invitation _
  · exact (proceeds_audit _ _ _).bind fun _ => .ret

theorem proceeds_revokeInvitation (invitationId : String) :
    Proceeds .identity (revokeInvitation platform ctx invitationId) := by
  refine (proceeds_getInvitation _).bind fun found => ?_
  cases found with
  | none => exact .throw
  | some invitation =>
      refine .ite .throw (.ite .throw ((proceeds_choose _).bind fun now => ?_))
      refine (proceeds_updateInvitation _).bind fun _ => ?_
      exact (proceeds_audit _ _ _).bind fun _ => .ret

theorem proceeds_parseExpiry {context : Context} (expiresAt : Option Str) :
    Proceeds context (parseExpiry platform expiresAt) := by
  unfold parseExpiry
  split
  · exact .ret
  · split
    · exact .throw
    · exact .throw
    · exact (proceeds_choose _).bind fun _ => .ite .throw .ret

theorem proceeds_createDelegation (delegateUserId : Str) (delegatedRoles : List String)
    (scope : String) (expiresAt : Option Str) :
    Proceeds .identity
      (createDelegation platform ctx delegateUserId delegatedRoles scope expiresAt) := by
  refine .ite .throw (.ite .throw (.ite .throw ((proceeds_parseExpiry _).bind fun expiresDt => ?_)))
  refine .ite .throw (.ite (.fails (proceeds_audit _ _ _)) ?_)
  refine (proceeds_getUser _).bind fun found => ?_
  split
  · exact .fails (proceeds_audit _ _ _)
  · refine .ite .throw ((proceeds_choose _).bind fun drawn => (Every.ofExcept _).bind fun expiry => ?_)
    refine Every.bind ?_ fun delegation => ?_
    · exact (Every.ofExcept _).bind fun row => (proceeds_add .delegation _).bind fun _ => .ret
    · exact (proceeds_audit _ _ _).bind fun _ => .ret

theorem proceeds_delegationInScope {context : Context} (delegationId : String) :
    Proceeds context (delegationInScope ctx delegationId) := by
  refine Every.bind ?_ fun found => ?_
  · unfold DelegationRepository.get
    split
    · exact .ret
    · exact (proceeds_get .delegation _).bind fun _ => .ret
  · cases found with
    | none => exact .throw
    | some delegation => exact .ite .ret .throw

theorem proceeds_auditInvalidated {context : Context} (delegation : Delegation)
    (reason : Option String) :
    Proceeds context (auditInvalidated platform ctx delegation reason) :=
  (proceeds_audit _ _ _).bind fun _ => .ret

theorem proceeds_revokeDelegation (delegationId : String) :
    Proceeds .identity (revokeDelegation platform ctx delegationId) := by
  refine (proceeds_delegationInScope _).bind fun delegation => .ite .throw ?_
  refine (proceeds_choose _).bind fun now => (proceeds_updateDelegation _).bind fun _ => ?_
  exact (proceeds_audit _ _ _).bind fun _ => .ret

theorem proceeds_extendDelegation (delegationId : String) (newExpiresAt : Option Str) :
    Proceeds .identity (extendDelegation platform ctx delegationId newExpiresAt) := by
  refine (proceeds_delegationInScope _).bind fun delegation => .ite .throw ?_
  refine (proceeds_parseExpiry _).bind fun newDt => (proceeds_getUser _).bind fun found => ?_
  split
  · exact (proceeds_auditInvalidated _ _).bind fun _ => .throw
  · refine .ite ((proceeds_auditInvalidated _ _).bind fun _ => .throw) ?_
    refine (proceeds_choose _).bind fun now => (Every.ofExcept _).bind fun expiry => ?_
    refine (proceeds_updateDelegation _).bind fun _ => ?_
    exact (proceeds_audit _ _ _).bind fun _ => .ret

theorem proceeds_getDelegation {context : Context} (delegationId : String) :
    Proceeds context (getDelegation platform ctx delegationId) := by
  refine (proceeds_delegationInScope _).bind fun delegation => ?_
  refine (proceeds_getUser _).bind fun delegator => (proceeds_get .tenant _).bind fun tenant => ?_
  refine (proceeds_choose _).bind fun now => .ite ?_ .ret
  exact (proceeds_auditInvalidated _ _).bind fun _ => .ret

theorem proceeds_listDelegations {context : Context} :
    Proceeds context (listDelegations ctx) := by
  refine .ite .ret ((proceeds_get .tenant _).bind fun tenant => Every.bind ?_ fun delegations => ?_)
  · exact (proceeds_selected .delegation _).bind fun _ => .ret
  refine (proceeds_choose _).bind fun now => ?_
  induction delegations with
  | nil => exact .ret
  | cons delegation delegations ih =>
      exact (proceeds_getUser _).bind fun _ => ih.bind fun _ => .ret

theorem proceeds_changeTenant (tenantId : String)
    (change : TenantRecord → DateTime → Except PyExc TenantRecord) (action : String)
    (payload : List (String × Detail)) :
    Proceeds .identity (changeTenant platform ctx tenantId change action payload) := by
  refine (proceeds_get .tenant _).bind fun found => ?_
  cases found with
  | none => exact .throw
  | some tenant =>
      refine (proceeds_choose _).bind fun now => Every.bind ?_ fun changed => ?_
      · unfold Identity.orConflict
        split <;> trivial
      refine (proceeds_updateTenant _).bind fun _ => ?_
      exact (proceeds_audit _ _ _).bind fun _ => .ret

theorem proceeds_adminRequest (request : AdminRequest) :
    Proceeds .identity (request.serve platform ctx) := by
  cases request with
  | assignRole userId role => exact (proceeds_assignRole userId role).bind fun _ => .ret
  | createInvitation email role => exact (proceeds_createInvitation email role).bind fun _ => .ret
  | listInvitations =>
      refine Every.bind (.ite .ret (Every.bind ?_ fun _ => .ret)) fun _ => .ret
      exact (proceeds_selected .invitation _).bind fun _ => .ret
  | revokeInvitation invitationId =>
      exact (proceeds_revokeInvitation invitationId).bind fun _ => .ret
  | createDelegation delegateUserId delegatedRoles scope expiresAt =>
      exact (proceeds_createDelegation delegateUserId delegatedRoles scope expiresAt).bind
        fun _ => .ret
  | listDelegations => exact proceeds_listDelegations.bind fun _ => .ret
  | getDelegation delegationId => exact (proceeds_getDelegation delegationId).bind fun _ => .ret
  | revokeDelegation delegationId =>
      exact (proceeds_revokeDelegation delegationId).bind fun _ => .ret
  | extendDelegation delegationId expiresAt =>
      exact (proceeds_extendDelegation delegationId expiresAt).bind fun _ => .ret
  | listTenants =>
      refine Every.bind (Every.bind ?_ fun _ => .ret) fun _ => .ret
      exact (proceeds_selected .tenant _).bind fun _ => .ret
  | getTenant tenantId =>
      refine Every.bind ((proceeds_get .tenant _).bind fun found => ?_) fun _ => .ret
      cases found <;> trivial
  | suspendTenant tenantId reason =>
      exact (proceeds_changeTenant tenantId _ _ _).bind fun _ => .ret
  | reactivateTenant tenantId => exact (proceeds_changeTenant tenantId _ _ _).bind fun _ => .ret
  | archiveTenant tenantId => exact (proceeds_changeTenant tenantId _ _ _).bind fun _ => .ret

end Identity

/-! ## The backend -/

/-- A call of any service. -/
inductive BackendCall where
  | service (call : ServiceCall)
  | auth (request : AuthRequest)

/-- The context to which a call belongs. -/
def BackendCall.context : BackendCall → Context
  | .service (.parcel _) => .registry
  | .service (.geometry _) => .spatial
  | .service (.evidence _) | .service (.attribution _) | .service (.correction _ _) => .evidence
  | .service (.admin _) | .auth _ => .identity

def BackendCall.serve (platform : ServicePlatform) (ctx : ExecutionContext) :
    BackendCall → Request (ServiceAnswer ⊕ IdentityAnswer)
  | .service call => do return .inl (← call.serve platform ctx)
  | .auth request => do return .inr (← request.serve platform.toIdentityPlatform ctx)

/-- **Every statement of every call is compliant.** -/
theorem BackendCall.proceeds (platform : ServicePlatform) (ctx : ExecutionContext)
    (call : BackendCall) : Proceeds call.context (call.serve platform ctx) := by
  cases call with
  | service call =>
      refine Every.bind ?_ fun _ => .ret
      cases call with
      | parcel request => exact (proceeds_parcelRequest request).bind fun _ => .ret
      | geometry request => exact (proceeds_spatialRequest request).bind fun _ => .ret
      | evidence request => exact (proceeds_evidenceRequest request).bind fun _ => .ret
      | attribution call => exact (proceeds_attributionCall call).bind fun _ => .ret
      | correction attributionId claim =>
          exact (proceeds_correctEndpoint attributionId claim).bind fun _ => .ret
      | admin request => exact (proceeds_adminRequest request).bind fun _ => .ret
  | auth request => exact (proceeds_authRequest request).bind fun _ => .ret

end LandVault
