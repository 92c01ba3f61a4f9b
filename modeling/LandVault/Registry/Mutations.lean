import LandVault.Anchors

/-!
# What requests about parcels commit

Each request of `ParcelService`, whatever others commit between its statements: what it has
pending when it ends, and the entries of the audit log by then. A new parcel comes with the
next number of its country, which is pending with it; an update is an edit of a copy, and
finds a row whose number it leaves; and a row of history is pending only together with a
committed entry that permits it.
-/

set_option autoImplicit false

namespace LandVault

open Kernel Kernel.Audit Identity Registry Spatial Library.JsonText Library.Programs
open Library.ReadCommitted Python

/-! ## Entries that permit a row -/

/-- The log has an entry with this identifier that permits an action on the resource, and its
payload has these members. -/
def Permitted (normalise : Number → Number) (t : Tables) (auditRef : Option String)
    (resourceId : String) (said : List (String × Detail)) : Prop :=
  ∃ record ∈ t.auditLog, some record.entry.entryId = auditRef ∧ record.decision = some "PERMIT" ∧
    record.resourceId = some resourceId ∧
    ∃ members, record.payload = (Payload.details members).normalised normalise ∧ said ⊆ members

/-- The entry of an ownership row: the parcel, its tenant, and the asserted holder. -/
abbrev OwnershipPermitted (normalise : Number → Number) (t : Tables) (row : OwnershipRecord) : Prop :=
  Permitted normalise t row.auditRef row.parcelId.str
    [("tenant_id", .text row.tenantId), ("asserted_holder_ref", .text row.asserted)]

/-- The entry of a status row: the parcel and its tenant. -/
abbrev StatusPermitted (normalise : Number → Number) (t : Tables) (row : StatusRecord) : Prop :=
  Permitted normalise t row.auditRef row.parcelId.str [("tenant_id", .text row.tenantId)]

theorem Permitted.later {normalise : Number → Number} {t t' : Tables} {auditRef : Option String}
    {resourceId : String} {said : List (String × Detail)}
    (permitted : Permitted normalise t auditRef resourceId said)
    (grows : t.auditLog ⊆ t'.auditLog) : Permitted normalise t' auditRef resourceId said := by
  obtain ⟨record, member, holds⟩ := permitted
  exact ⟨record, grows member, holds⟩

/-- The call of `_audit_permit` with an identifier of its own. -/
abbrev permitCall (action : String) (parcelId auditId : UUID) (payload : List (String × Detail)) :
    AuditCall :=
  { action
    entryId := some auditId.hex
    resourceType := "parcel"
    resourceId := some parcelId.str
    decision := some "PERMIT"
    payload := some (.details payload) }

theorem Logged.permitted {normalise : Number → Number} {t : Tables} {action : String}
    {parcelId auditId : UUID} {payload said : List (String × Detail)}
    (logged : Logged normalise auditId.hex (permitCall action parcelId auditId payload) t)
    (member : said ⊆ payload) :
    Permitted normalise t (some auditId.hex) parcelId.str said := by
  obtain ⟨record, present, named, _, _, resource, decision, holds⟩ := logged
  exact ⟨record, present, congrArg some named, decision, resource, payload, holds, member⟩

/-! ## Rows that are written -/

/-- A row of history that asserts this of a parcel. -/
structure Declares {A : Type} (parcelId : UUID) (tenantId : String) (asserted : A)
    (row : AssertionOf A UUID Nat) : Prop where
  parcelId : row.parcelId = parcelId
  tenantId : row.tenantId = tenantId
  asserted : row.asserted = asserted

/-- An UPDATE of a parcel: the edit of a copy, written over the row that is found. The copy
that is edited, and the one that is written back, may be two. -/
structure Overwrites (fresh : Tables → Memo → Write → Prop) (ctx : ExecutionContext)
    (request : ParcelRequest) (stored row new : ParcelRecord) : Prop where
  exists_copies : ∃ loaded record parcel known u,
    Mutates ctx request (ParcelRecord.parcel loaded) parcel ∧
    record.parcelId = loaded.parcelId ∧ parcel.assignTo record = .ok new ∧
    Entity.parcel.mapper.noted loaded ∈ known ∧ Entity.parcel.mapper.noted record ∈ known ∧
    Renews .parcel fresh known u record new stored row
  frozen : Entity.frozen .parcel row = Entity.frozen .parcel stored
  copied : Entity.frozen .parcel new = Entity.frozen .parcel row

/-- The writes of an update of a parcel that leaves `new` to the transaction. -/
inductive Overwritten (fresh : Tables → Memo → Write → Prop) (ctx : ExecutionContext)
    (request : ParcelRequest) (new : ParcelRecord) : List Write → Prop
  | same : Overwritten fresh ctx request new []
  | written {stored row : ParcelRecord} (overwrites : Overwrites fresh ctx request stored row new) :
      Overwritten fresh ctx request new [.updateParcel stored row]

/-- The new rows of ownership history, with the holder that each asserts. -/
inductive Owned (normalise : Number → Number) (t : Tables) (parcel : ParcelRecord) :
    List OwnershipRecord → Prop
  | unchanged : Owned normalise t parcel []
  | asserted {row : OwnershipRecord}
      (declares : Declares parcel.parcelId parcel.tenantId parcel.holderRef row)
      (permitted : OwnershipPermitted normalise t row) : Owned normalise t parcel [row]

/-- What a request about parcels may commit, over tables in which the entries of its rows are
already committed. -/
inductive Enters (fresh : Tables → Memo → Write → Prop) (normalise : Number → Number)
    (ctx : ExecutionContext) (t : Tables) : ParcelRequest → List Write → Prop
  | get {parcelId : String} : Enters fresh normalise ctx t (.get parcelId) []
  | list : Enters fresh normalise ctx t .list []
  | create {countryCode : Option String} {details : ParcelDetails} {record : ParcelRecord}
      {value : Nat} {owners : List OwnershipRecord} {row : StatusRecord}
      (number : record.parcelNumber = some (formatParcelNumber record.countryCode value))
      (active : record.status = .active) (country : matchesIso3166 record.countryCode = true)
      (short : record.countryCode.length ≤ 2)
      (tenant : ctx.tenantId = some record.tenantId)
      (owned : Owned normalise t record owners)
      (declares : Declares record.parcelId record.tenantId ParcelStatus.active row)
      (permitted : StatusPermitted normalise t row) :
      Enters fresh normalise ctx t (.create countryCode details)
        (.upsertCounter record.countryCode value :: .insertParcel record ::
          (owners.map .insertOwnership ++ [.insertStatus row]))
  | update {parcelId : String} {fields : FieldMap} {new : ParcelRecord} {ws : List Write}
      {owners : List OwnershipRecord}
      (named : UUID.parse parcelId = some new.parcelId)
      (registered : OnRegister t new.parcelId new.tenantId)
      (overwritten : Overwritten fresh ctx (.update parcelId fields) new ws)
      (owned : Owned normalise t new owners) :
      Enters fresh normalise ctx t (.update parcelId fields) (ws ++ owners.map .insertOwnership)
  | archive {parcelId : String} {new : ParcelRecord} {ws : List Write} {row : StatusRecord}
      (named : UUID.parse parcelId = some new.parcelId)
      (registered : OnRegister t new.parcelId new.tenantId)
      (overwritten : Overwritten fresh ctx (.archive parcelId) new ws)
      (declares : Declares new.parcelId new.tenantId ParcelStatus.archived row)
      (permitted : StatusPermitted normalise t row) :
      Enters fresh normalise ctx t (.archive parcelId) (ws ++ [.insertStatus row])
  | setGeometryReference {parcelId : String} {reference : Option String} {new : ParcelRecord}
      {ws : List Write} (named : UUID.parse parcelId = some new.parcelId)
      (overwritten : Overwritten fresh ctx (.setGeometryReference parcelId reference) new ws) :
      Enters fresh normalise ctx t (.setGeometryReference parcelId reference) ws

section Enters

variable {fresh : Tables → Memo → Write → Prop} {normalise : Number → Number}
  {ctx : ExecutionContext} {t t' : Tables} {request : ParcelRequest} {ws : List Write}

theorem Owned.later {parcel : ParcelRecord} {owners : List OwnershipRecord}
    (owned : Owned normalise t parcel owners) (grows : t.auditLog ⊆ t'.auditLog) :
    Owned normalise t' parcel owners := by
  cases owned with
  | unchanged => exact .unchanged
  | asserted declares permitted => exact .asserted declares (permitted.later grows)

theorem Enters.later (enters : Enters fresh normalise ctx t request ws)
    (advances : steadily.Advances t t') : Enters fresh normalise ctx t' request ws := by
  have grows := (auditLog_of_advances advances).subset
  have onRegister := fun parcelId tenantId => lasting_registered parcelId tenantId t t' advances
  cases enters with
  | get => exact .get
  | list => exact .list
  | create number active country short tenant owned declares permitted =>
      exact .create number active country short tenant (owned.later grows) declares
        (permitted.later grows)
  | update named registered overwritten owned =>
      exact .update named (onRegister _ _ registered) overwritten (owned.later grows)
  | archive named registered overwritten declares permitted =>
      exact .archive named (onRegister _ _ registered) overwritten declares (permitted.later grows)
  | setGeometryReference named overwritten => exact .setGeometryReference named overwritten

end Enters

theorem Parcel.setFields_geometryReference (parcel : Parcel) (items : List FieldUpdate) :
    (items.foldl Parcel.setField parcel).geometryReference = parcel.geometryReference := by
  induction items generalizing parcel with
  | nil => rfl
  | cons update items ih => exact (ih _).trans (parcel.setField_frame update).2.2.2.2.2.2

/-- Only `set_geometry_reference` sets the reference. -/
theorem Mutates.geometryReference {ctx : ExecutionContext} {request : ParcelRequest}
    {parcel parcel' : Parcel} (mutates : Mutates ctx request parcel parcel')
    (other : ∀ parcelId reference, request ≠ .setGeometryReference parcelId reference) :
    parcel'.geometryReference = parcel.geometryReference := by
  cases mutates with
  | @update _ fields _ _ now edited =>
      obtain ⟨_, edited⟩ := Parcel.ensureMutable_ok edited
      split at edited
      · cases edited
      · cases edited
        exact Parcel.setFields_geometryReference parcel fields.items
  | archive edited =>
      cases (Parcel.ensureMutable_ok edited).2
      rfl
  | setGeometryReference => exact absurd rfl (other _ _)

/-! ## The repositories -/

section Rules

variable {ι α : Type} [DecidableEq ι] {index : ι} {base : Tables}
  {fresh : Tables → Memo → Write → Prop} {F : Tables → Prop} {known : List Read} {ws : List Write} {db : Database ι} {s : DbSession}
  {X : PyExc → Assertion (Database ι) DbSession}
  {platform : Platform} {ctx : ExecutionContext}

/-- A write that relies on nothing, and that changes no column and no reference. -/
structure Inert (base t : Tables) (w : Write) : Prop where
  stands : Stands t w
  steady : Steady w
  sited : w.Sited base t

/-- A row of history. -/
theorem Tracking.recordHistory {A : Type} (history : ParcelHistoryRepository.History A)
    (tracking : Tracking base F known ws db s) (lasting : Lasting steadily F) (tolerant : Tolerant X)
    (inert : ∀ t row, Inert base t (history.insert row)) (assertion : AssertionOf A String Timestamp) :
    Tracks base fresh index
      (fun _ db' s' => ∃ model startedAt, assertion.toRecord = .ok model ∧
        Tracking base F known (ws ++ [history.insert (model startedAt)]) db' s')
      X (history.record assertion) db s := by
  refine (tracking.ofExcept tolerant fun e raised => ?_).bind ?_
  · obtain ⟨message, rfl⟩ := toUuid_error (map_eq_error raised)
    rfl
  rintro model db s ⟨tracking, made⟩
  refine tracking.query lasting tolerant ?_ ?_ ?_
  · rintro v e (raised | ⟨memo, w, raised⟩)
    · dsimp only at raised
      split at raised
      · cases raised
      · cases raised
        rfl
    · dsimp only at raised
      split at raised
      · simp only [Except.ok.injEq, Effect.mk.injEq] at raised
        exact history.foreign_notHttp (map_eq_error raised.2.1)
      · cases raised
  · intro db₁ v memo a _ ran
    dsimp only at ran
    split at ran
    · simp only [Except.ok.injEq, Effect.mk.injEq, reduceCtorEq, and_false] at ran
    · cases ran
  · intro db₁ v memo a w looking ran _
    dsimp only at ran
    split at ran
    · simp only [Except.ok.injEq, Effect.mk.injEq, Option.some.injEq] at ran
      obtain ⟨rfl, _, rfl⟩ := ran
      obtain ⟨stands, steady, sited⟩ := inert db₁.tables (model v.startedAt)
      exact ⟨(inert v.tables _).stands, steady, sited, known, looking.remembers.more _,
        fun db' s' _ tracking => ⟨model, v.startedAt, made, tracking⟩⟩
    · cases ran

theorem Tracking.assertHistory {A : Type} (history : ParcelHistoryRepository.History A)
    (tracking : Tracking base F known ws db s) (lasting : Lasting steadily F) (tolerant : Tolerant X)
    (inert : ∀ t row, Inert base t (history.insert row)) (parcel : Parcel) (asserted : A)
    (basis auditId : String) (supersedesId : Option UUID) :
    Tracks base fresh index
      (fun _ db' s' => ∃ row, Declares parcel.parcelId parcel.tenantId asserted row ∧
        row.auditRef = some auditId ∧ Tracking base F known (ws ++ [history.insert row]) db' s')
      X (Registry.assertHistory history ctx parcel asserted basis auditId supersedesId) db s := by
  refine (tracking.choose lasting _).bind fun chosen db s tracking => ?_
  refine (tracking.recordHistory history lasting tolerant inert _).bind ?_
  rintro _ db s ⟨model, startedAt, made, tracking⟩
  obtain ⟨_, tenantId, parcelId, asserted, auditRef, _⟩ := AssertionOf.toRecord_eq made startedAt
  exact ⟨_, ⟨parcelId, tenantId, asserted⟩, auditRef, tracking⟩

theorem Tracking.latestHistory {A : Type} (history : ParcelHistoryRepository.History A)
    (tracking : Tracking base F known ws db s) (lasting : Lasting steadily F) (tolerant : Tolerant X)
    (parcelId : UUID) :
    Tracks base fresh index (fun _ => Tracking base F known ws) X (history.latest parcelId) db s := by
  refine tracking.query lasting tolerant ?_ ?_ ?_
  · rintro v e (raised | ⟨memo, w, raised⟩) <;> cases raised
  · intro db₁ v memo a looking ran
    cases ran
    refine ⟨_, looking.remembers.read [_], fun db' s' _ tracking => tracking.mono ?_⟩
    exact fun read member => List.mem_cons_of_mem _ member
  · intro db₁ v memo a w _ ran
    cases ran

theorem Tracking.allocate (tracking : Tracking base F known ws db s) (lasting : Lasting steadily F)
    (tolerant : Tolerant X) (country : String) :
    Tracks base fresh index
      (fun number db' s' => country.length ≤ 2 ∧
        ∃ value, number = formatParcelNumber country value ∧
        Tracking base F known (ws ++ [.upsertCounter country value]) db' s')
      X (ParcelNumberAllocator.allocate country) db s := by
  refine tracking.query lasting tolerant ?_ ?_ ?_
  · rintro v e (raised | ⟨memo, w, raised⟩) <;>
    · dsimp only at raised
      split at raised
      · cases raised <;> rfl
      · split at raised
        · cases raised <;> rfl
        · split at raised <;> cases raised <;> rfl
  · intro db₁ v memo a _ ran
    dsimp only at ran
    split at ran
    · cases ran
    · split at ran
      · cases ran
      · split at ran <;> cases ran
  · intro db₁ v memo a w looking ran _
    dsimp only at ran
    split at ran
    · cases ran
    · rename_i short
      split at ran
      · cases ran
      · split at ran
        · cases ran
          exact ⟨rfl, trivial, trivial, known, looking.remembers.more _,
            fun db' s' _ tracking => ⟨Nat.le_of_not_lt short, _, rfl, tracking⟩⟩
        · cases ran

theorem Tracking.auditPermit (tracking : Tracking base F known ws db s) (lasting : Lasting steadily F)
    (tolerant : Tolerant X) (action : String) (parcel : Parcel) (entryId : Option String)
    (payload : List (String × Detail)) :
    Tracks base fresh index (fun _ => Tracking base F known ws) X
      (Registry.auditPermit platform ctx action parcel entryId payload) db s :=
  (tracking.audit lasting tolerant _ _ _).bind fun _ _ _ done => done.1

/-- An entry with an identifier of its own is there afterwards. -/
theorem Tracking.auditPermitAs (tracking : Tracking base F known ws db s) (lasting : Lasting steadily F)
    (tolerant : Tolerant X) (action : String) (parcel : Parcel) (auditId : UUID)
    (payload : List (String × Detail)) :
    Tracks base fresh index
      (fun _ => Tracking base (fun t => F t ∧ Logged platform.normalise auditId.hex
        (permitCall action parcel.parcelId auditId payload) t) known ws) X
      (Registry.auditPermit platform ctx action parcel (some auditId.hex) payload) db s := by
  refine (tracking.audit lasting tolerant _ _ _).bind ?_
  rintro _ db s ⟨tracking, row, member, recorded⟩
  exact tracking.and (recorded.logged member rfl)

/-! ## What the operations share -/

theorem Tracking.loadInScope (tracking : Tracking base F known [] db s) (lasting : Lasting steadily F)
    (parcelId : String) :
    Tracks base fresh index
      (fun parcel db s => ∃ record, parcel = ParcelRecord.parcel record ∧
        UUID.parse parcelId = some record.parcelId ∧
        Tracking base (fun t => F t ∧ Rooted base .parcel t [] record)
          (Entity.parcel.mapper.noted record :: known) [] db s)
      Voids (Registry.loadInScope ctx parcelId) db s := by
  refine Meets.bind (N := fun found db s => (∃ known', Tracking base F known' [] db s) ∧
    ∀ parcel ∈ found, ∃ record, parcel = ParcelRecord.parcel record ∧
      UUID.parse parcelId = some record.parcelId ∧
      Tracking base (fun t => F t ∧ Rooted base .parcel t [] record)
        (Entity.parcel.mapper.noted record :: known) [] db s) ?_ ?_
  · unfold ParcelRepository.get
    split
    · exact ⟨⟨known, tracking⟩, fun _ absurd => by cases absurd⟩
    · rename_i parsed
      refine (tracking.get lasting tolerant_voids .parcel _).bind ?_
      rintro found db s ⟨tracking, rooted⟩
      refine ⟨⟨_, tracking⟩, fun parcel same => ?_⟩
      cases found with
      | none => cases same
      | some record =>
          cases same
          obtain ⟨named, anchored, _⟩ := rooted record rfl
          exact ⟨record, rfl, parsed.trans (congrArg some named.symm),
            tracking.and (G := fun t => Rooted base .parcel t [] record) anchored⟩
  · rintro found db s ⟨⟨_, tracking⟩, present⟩
    cases found with
    | none => exact tracking.refuse _
    | some parcel =>
        exact .ite (fun _ => present parcel rfl) fun _ => tracking.refuse _

theorem Tracking.authorizeMutation (tracking : Tracking base F known [] db s)
    (lasting : Lasting steadily F) (parcel : Parcel) :
    Tracks base fresh index (fun _ => Tracking base F known []) Voids
      (Registry.authorizeMutation platform ctx parcel) db s := by
  refine .ite (fun _ => tracking) fun _ => ?_
  exact (tracking.audit lasting tolerant_voids _ _ _).bind fun _ _ _ done => done.1.refuse _

theorem Tracking.orConflict (tracking : Tracking base F known [] db s) (result : Except PyExc α) :
    Tracks base fresh index (fun a db s => Tracking base F known [] db s ∧ result = .ok a) Voids
      (Registry.orConflict result) db s := by
  unfold Registry.orConflict
  split
  · exact ⟨tracking, rfl⟩
  · exact tracking.refuse _
  · exact tracking.refuse _

/-- A parcel that was loaded is written back: its number is what every copy of it has. -/
theorem Tracking.overwrite {request : ParcelRequest} {loaded : ParcelRecord} {parcel : Parcel}
    (tracking : Tracking base (fun t => F t ∧ Rooted base .parcel t [] loaded) known [] db s)
    (lasting : Lasting steadily F) (noted : Entity.parcel.mapper.noted loaded ∈ known)
    (mutates : Mutates ctx request (ParcelRecord.parcel loaded) parcel)
    (sited : ∀ t, F t → Sited base t loaded →
      Sited base t { loaded with geometryReference := parcel.geometryReference }) :
    Tracks base fresh index
      (fun updated db s => ∃ new ws, updated = ParcelRecord.parcel new ∧
        Overwritten fresh ctx request new ws ∧
        new.parcelId = loaded.parcelId ∧
        (∃ record : ParcelRecord, parcel.assignTo record = .ok new) ∧
        Tracking base (fun t => F t ∧ OnRegister t new.parcelId new.tenantId) [] ws db s)
      Voids (ParcelRepository.update parcel) db s := by
  have both := lasting.and (lasting_rooted base .parcel [] loaded)
  have same := mutates.sameIdentity
  refine (tracking.get both tolerant_voids .parcel _).bind ?_
  rintro found db s ⟨tracking, rooted⟩
  cases found with
  | none => exact tracking.refuse _
  | some record =>
      obtain ⟨named, anchored, agrees⟩ := rooted record rfl
      have key : record.parcelId = loaded.parcelId := named.trans same.parcelId
      have alike : Entity.frozen .parcel loaded = Entity.frozen .parcel record :=
        agrees loaded tracking.fact.2 same.parcelId.symm
      have held := tracking.and (G := fun t => Rooted base .parcel t [] record) anchored
      have lasting' := both.and (lasting_rooted base .parcel [] record)
      refine (held.ofExcept tolerant_voids fun e raised => ?_).bind ?_
      · obtain ⟨message, rfl⟩ := toOptionalUuid_error (map_eq_error raised)
        rfl
      rintro new db s ⟨tracking, made⟩
      have kept : Entity.frozen .parcel new = Entity.frozen .parcel record := by
        have number := Entity.parcelNumber_of_frozen alike
        obtain ⟨updatedBy, _, rfl⟩ := map_eq_ok made
        simp only [Entity.frozen, ← number, same.parcelNumber]
        rfl
      have referring : Sited base db.tables new := by
        have owner : record.tenantId = loaded.tenantId := by
          have column := congrArg (fun row : ParcelRecord => row.tenantId) alike.symm
          exact column
        obtain ⟨updatedBy, _, rfl⟩ := map_eq_ok made
        intro reference given
        rcases sited _ tracking.fact.1.1 tracking.fact.1.2.sited reference given with
          ⟨geometry, member, parsed, placed, owned⟩ | ⟨old, member, id, same⟩
        · exact .inl ⟨geometry, member, parsed, placed.trans key.symm, owned.trans owner.symm⟩
        · exact .inr ⟨old, member, id.trans key.symm, same⟩
      refine (tracking.flush lasting' tolerant_voids .parcel record new kept tracking.fact.2
        referring).bind ?_
      have id : new.parcelId = loaded.parcelId := (Entity.key_of_frozen kept).trans key
      have tenant : new.tenantId = loaded.tenantId := by
        have column := congrArg (fun row : ParcelRecord => row.tenantId) (kept.trans alike.symm)
        exact column
      have registered : ∀ {t}, Rooted base .parcel t [] loaded →
          OnRegister t new.parcelId new.tenantId := by
        intro t rooted
        rw [id, tenant]
        exact rooted.registered
      rintro _ db s ⟨rfl, ⟨rfl, tracking⟩ | ⟨stored, row, renews, steady, copied, tracking⟩⟩
      · exact ⟨_, [], rfl, .same, id, ⟨_, made⟩,
          (tracking.weaken fun _ fact => ⟨fact.1.1, registered fact.1.2⟩).mono (by simp)⟩
      · refine ⟨_, _, rfl, .written ⟨⟨loaded, record, parcel, _, _, mutates, key, made, ?_, ?_,
          renews⟩, steady, (steady.trans copied).symm⟩, id, ⟨_, made⟩,
          (tracking.weaken fun _ fact => ⟨fact.1.1, registered fact.1.2⟩).mono (by simp)⟩
        · exact List.mem_append_right _ noted
        · exact List.mem_append_left _ List.mem_cons_self

/-- An identifier for an entry. -/
theorem Tracking.chooseId (tracking : Tracking base F known ws db s) (lasting : Lasting steadily F) :
    Tracks base fresh index
      (fun auditId db s => Tracking base F known ws db s ∧ ∃ id : UUID, auditId = id.hex) X
      (LandVault.choose fun env => env.uuid.hex) db s :=
  Discipline.meets_choose fun _ env turn =>
    ⟨tracking.later lasting turn.advances, env.uuid, rfl⟩

/-- The row of a new holder, and its entry. -/
theorem Tracking.recordChangedOwnership {new : ParcelRecord}
    (tracking : Tracking base F known ws db s) (lasting : Lasting steadily F) (tolerant : Tolerant X) :
    Tracks base fresh index
      (fun _ db s => ∃ owners, Owned platform.normalise db.tables new owners ∧
        Tracking base F known (ws ++ owners.map .insertOwnership) db s)
      X (Registry.recordChangedOwnership platform ctx (ParcelRecord.parcel new)) db s := by
  refine (tracking.latestHistory _ lasting tolerant _).bind fun prior db s tracking => ?_
  refine (tracking.chooseId lasting).bind ?_
  rintro _ db s ⟨tracking, auditId, rfl⟩
  refine (tracking.assertHistory ParcelHistoryRepository.ownership lasting tolerant
    (fun _ _ => ⟨trivial, trivial, trivial⟩) _ _ _ _ _).bind ?_
  rintro _ db s ⟨row, declares, auditRef, tracking⟩
  refine (tracking.auditPermitAs lasting tolerant _ _ auditId _).mono ?_ fun _ _ _ failed => failed
  rintro _ db s tracking
  refine ⟨[row], .asserted declares ?_, tracking.weaken fun _ fact => fact.1⟩
  unfold OwnershipPermitted
  rw [auditRef, declares.parcelId, declares.tenantId, declares.asserted]
  exact tracking.fact.2.permitted (List.Subset.refl _)

/-! ## Registering -/

/-- What is pending of a request about parcels when it ends. -/
def Entered {ι : Type} (base : Tables) (fresh : Tables → Memo → Write → Prop) (normalise : Number → Number)
    (ctx : ExecutionContext) (request : ParcelRequest) : Assertion (Database ι) DbSession :=
  fun db s => ∃ ws, Enters fresh normalise ctx db.tables request ws ∧
    Tracking base (fun _ => True) [] ws db s

/-- An entry that follows changes nothing of it. -/
theorem Entered.auditPermit {request : ParcelRequest}
    (entered : Entered base fresh platform.normalise ctx request db s) (action : String) (parcel : Parcel)
    (entryId : Option String) (payload : List (String × Detail)) :
    Tracks base fresh index (fun _ => Entered base fresh platform.normalise ctx request) Voids
      (Registry.auditPermit platform ctx action parcel entryId payload) db s := by
  obtain ⟨ws, enters, tracking⟩ := entered
  have lasts : Lasting steadily fun t => Enters fresh platform.normalise ctx t request ws :=
    fun _ _ advances enters => enters.later advances
  refine ((tracking.and enters).auditPermit ((lasting_true steadily).and lasts) tolerant_voids _ _ _
    _).mono ?_ fun _ _ _ failed => failed
  rintro _ db' s' tracking
  exact ⟨ws, tracking.fact.2, tracking.weaken fun _ _ => trivial⟩

omit [DecidableEq ι] in
theorem Tracking.entered {request : ParcelRequest} (tracking : Tracking base F known ws db s)
    (enters : Enters fresh platform.normalise ctx db.tables request ws) :
    Entered base fresh platform.normalise ctx request db s :=
  ⟨ws, enters, (tracking.weaken fun _ _ => trivial).mono (by simp)⟩

/-- What is known of a parcel that is registered, and of the rows that come with it. -/
structure Opened (ctx : ExecutionContext) (record : ParcelRecord) (value : Nat) : Prop where
  number : record.parcelNumber = some (formatParcelNumber record.countryCode value)
  active : record.status = .active
  country : matchesIso3166 record.countryCode = true
  short : record.countryCode.length ≤ 2
  tenant : ctx.tenantId = some record.tenantId

/-- The entry of the status row comes last. -/
theorem Tracking.finishCreated {countryCode : Option String} {details : ParcelDetails}
    {record : ParcelRecord} {value : Nat} {owners : List OwnershipRecord} {row : StatusRecord}
    {auditId : UUID} (opened : Opened ctx record value)
    (declares : Declares record.parcelId record.tenantId record.status row)
    (auditRef : row.auditRef = some auditId.hex) (lasting : Lasting steadily F)
    (owned : ∀ t, F t → Owned platform.normalise t record owners)
    (tracking : Tracking base F known (.upsertCounter record.countryCode value :: .insertParcel record ::
      (owners.map .insertOwnership ++ [.insertStatus row])) db s) :
    Tracks base fresh index
      (fun _ => Entered base fresh platform.normalise ctx (.create countryCode details)) Voids
      (Registry.auditPermit platform ctx "registry.parcel.created" (ParcelRecord.parcel record)
        (some auditId.hex) [("tenant_id", .text record.tenantId), ("origin", .text record.origin),
          ("parcel_number", .text record.parcelNumber)]) db s := by
  refine (tracking.auditPermitAs lasting tolerant_voids _ _ auditId _).mono ?_ fun _ _ _ e => e
  intro _ db s tracking
  refine tracking.entered (.create opened.number opened.active opened.country opened.short opened.tenant
    (owned _ tracking.fact.1) (opened.active ▸ declares) ?_)
  unfold StatusPermitted
  rw [auditRef, declares.parcelId, declares.tenantId]
  exact tracking.fact.2.permitted (by simp)

theorem Tracking.recordCreated {countryCode : Option String} {details : ParcelDetails}
    {record : ParcelRecord} {value : Nat} {owners : List OwnershipRecord}
    (opened : Opened ctx record value) (ownershipAuditId : Option UUID)
    (lasting : Lasting steadily F)
    (owned : ∀ t, F t → (∀ id ∈ ownershipAuditId, Logged platform.normalise id.hex
      (permitCall "registry.parcel_ownership.recorded" record.parcelId id
        [("tenant_id", .text record.tenantId), ("asserted_holder_ref", .text record.holderRef)]) t) →
      Owned platform.normalise t record owners)
    (tracking : Tracking base F known (.upsertCounter record.countryCode value :: .insertParcel record ::
      owners.map .insertOwnership) db s) :
    Tracks base fresh index
      (fun _ => Entered base fresh platform.normalise ctx (.create countryCode details)) Voids
      (createParcel.recordCreated platform ctx (ParcelRecord.parcel record)
        (ownershipAuditId.map UUID.hex)) db s := by
  refine (tracking.chooseId lasting).bind ?_
  rintro _ db s ⟨tracking, auditId, rfl⟩
  refine (tracking.assertHistory ParcelHistoryRepository.status lasting tolerant_voids
    (fun _ _ => ⟨trivial, trivial, trivial⟩) _ _ _ _ _).bind ?_
  rintro _ db s ⟨row, declares, auditRef, tracking⟩
  cases ownershipAuditId with
  | none =>
      refine Meets.ite (fun absurd => by cases absurd) fun _ => ?_
      exact (Tracking.finishCreated opened declares auditRef lasting
        (fun t fact => owned t fact fun _ absurd => by cases absurd) tracking).bind
        fun _ _ _ entered => entered
  | some id =>
      refine Meets.ite (fun _ => ?_) fun absurd => absurd.elim rfl
      refine (tracking.auditPermitAs lasting tolerant_voids _ _ id _).bind ?_
      rintro _ db s tracking
      refine (Tracking.finishCreated opened declares auditRef (lasting.and (lasting_logged _ _ _))
        (fun t fact => owned t fact.1 ?_) tracking).bind fun _ _ _ entered => entered
      rintro _ ⟨rfl⟩
      exact fact.2

theorem Tracking.resolveCountry (tracking : Tracking base F known [] db s) (countryCode : Option String) :
    Tracks base fresh index
      (fun country db s => Tracking base F known [] db s ∧ matchesIso3166 country = true) Voids
      (Registry.resolveCountry ctx countryCode) db s := by
  unfold Registry.resolveCountry
  dsimp only
  split
  · rename_i country _
    exact ⟨tracking, country.valid⟩
  · exact tracking.refuse _
  · exact tracking.refuse _

theorem Tracking.createParcel (tracking : Tracking base (fun _ => True) known [] db s)
    (countryCode : Option String) (details : ParcelDetails) :
    Tracks base fresh index
      (fun _ => Entered base fresh platform.normalise ctx (.create countryCode details)) Voids
      (Registry.createParcel platform ctx countryCode details) db s := by
  have lasting := lasting_true steadily
  refine .ite (fun _ => tracking.refuse _) fun tenanted => ?_
  have resolves := @Tracking.resolveCountry ι _ index base fresh _ known db s ctx tracking countryCode
  -- the country is not evaluated
  generalize Registry.resolveCountry ctx countryCode = resolving at resolves ⊢
  refine resolves.bind ?_
  rintro country db s ⟨tracking, valid⟩
  refine .ite (fun _ => tracking.refuse _) fun _ => ?_
  refine (tracking.choose lasting _).bind fun drawn db s tracking => ?_
  refine (tracking.allocate lasting tolerant_voids country).bind ?_
  rintro _ db s ⟨short, value, rfl, tracking⟩
  refine (tracking.choose lasting _).bind fun later db s tracking => ?_
  refine (tracking.ofExcept tolerant_voids fun e raised => by cases raised).bind ?_
  rintro numbered db s ⟨tracking, made⟩
  cases made
  refine Meets.bind (N := fun added db s => ∃ record, added = ParcelRecord.parcel record ∧
    Opened ctx record value ∧ record.countryCode = country ∧
    Tracking base (fun _ => True) [] [.upsertCounter country value, .insertParcel record] db s) ?_ ?_
  · refine (tracking.ofExcept tolerant_voids fun e raised => ?_).bind ?_
    · obtain ⟨message, rfl⟩ := toUuid_error (map_eq_error raised)
      rfl
    rintro row db s ⟨tracking, made⟩
    obtain ⟨creator, _, rfl⟩ := map_eq_ok made
    refine (tracking.add lasting tolerant_voids .parcel _ ?_).bind ?_
    · intro _ _ _ absurd
      cases absurd
    rintro _ db s ⟨tracking, v, rfl, _⟩
    exact ⟨_, rfl, ⟨rfl, rfl, valid, short, tenant_of_truthy tenanted⟩, rfl, tracking.mono (by simp)⟩
  rintro _ db s ⟨record, rfl, opened, rfl, tracking⟩
  cases holder : record.holderRef with
  | none =>
      simp only [ParcelRecord.holderRef_parcel, holder]
      exact Tracking.recordCreated opened none lasting (fun _ _ _ => .unchanged) tracking
  | some holderRef =>
      simp only [ParcelRecord.holderRef_parcel, holder]
      refine (tracking.chooseId lasting).bind ?_
      rintro _ db s ⟨tracking, auditId, rfl⟩
      refine (tracking.assertHistory ParcelHistoryRepository.ownership lasting tolerant_voids
        (fun _ _ => ⟨trivial, trivial, trivial⟩) _ _ _ _ _).bind ?_
      rintro _ db s ⟨row, declares, auditRef, tracking⟩
      have owned : ∀ t, True → (∀ id ∈ some auditId, Logged platform.normalise id.hex
          (permitCall "registry.parcel_ownership.recorded" record.parcelId id
            [("tenant_id", .text record.tenantId), ("asserted_holder_ref", .text record.holderRef)])
          t) → Owned platform.normalise t record [row] := by
        intro t _ logged
        refine .asserted (holder ▸ declares) ?_
        unfold OwnershipPermitted
        rw [auditRef, declares.parcelId, declares.tenantId, declares.asserted, ← holder]
        exact (logged auditId rfl).permitted (List.Subset.refl _)
      exact Tracking.recordCreated opened (some auditId) lasting owned tracking

/-! ## Referring to a geometry -/

/-- What `Session.get` raises is no `ValueError`. -/
theorem meets_get_unvalued (e : Entity) (key : e.Id) :
    Tracks base fresh index (fun _ _ _ => True) (fun error _ _ => ∀ message, error ≠ .value message)
      (e.mapper.get key) db s := by
  refine Discipline.meets_query (fun _ _ _ _ absurd => by cases absurd) ?_ (fun _ _ _ _ _ _ _ _ _ _ =>
    trivial) ?_
  · intro db₁ db' now env error w turn same raised
    cases raised with
    | disconnected => exact fun _ absurd => by cases absurd
    | run raised => grind
    | answer raised => grind
    | violation => exact fun _ absurd => by cases absurd
  · intro db₁ db' now env memo a w turn same whole _ ran
    grind

theorem Tracking.referenceIsValid (tracking : Tracking base F known [] db s) (lasting : Lasting steadily F)
    (reference tenantId parcelId : String) :
    Tracks base fresh index
      (fun valid db s => Tracking base F known [] db s ∧ (valid = true →
        ∃ geometry ∈ db.tables.parcelGeometries, UUID.parse reference = some geometry.geometryId ∧
          geometry.parcelId.str = parcelId ∧ geometry.tenantId = tenantId))
      Voids (RealGeometryAdapter.referenceIsValid reference tenantId parcelId) db s := by
  have found : Tracks base fresh index
      (fun (found : Option ParcelGeometry) db s => Tracking base F known [] db s ∧ ∀ geometry ∈ found,
        ∃ record, geometry = ParcelGeometryRecord.geometry record ∧
          UUID.parse reference = some record.geometryId ∧ Stems .geometry db.tables [] record)
      Voids
      (tryCatch (ParcelGeometryRepository.get reference) RealGeometryAdapter.referenceIsValid.malformed)
      db s := by
    refine Meets.handle (N := fun e db s => (∃ message, e = .value message) ∧
        Tracking base F known [] db s ∨ Voids e db s ∧ ∀ message, e ≠ .value message) ?_ ?_
    · refine Meets.bind (N := fun key db s => UUID.parse reference = some key ∧
        Tracking base F known [] db s) (.ofExcept (fun _ made => ⟨toUuid_ok made, tracking⟩)
          fun e raised => ?_) ?_
      · obtain ⟨message, rfl⟩ := toUuid_error raised
        exact .inl ⟨⟨message, rfl⟩, tracking⟩
      rintro key db s ⟨parsed, tracking⟩
      refine Meets.bind (((tracking.get lasting tolerant_voids .geometry key).and
        (meets_get_unvalued .geometry key)).mono (fun _ _ _ both => both.1)
          fun _ _ _ failed => .inr failed) ?_
      rintro record db s ⟨tracking, rooted⟩
      refine ⟨tracking.mono (List.subset_append_right _ _), fun geometry same => ?_⟩
      obtain ⟨row, rfl, rfl⟩ := Option.map_eq_some_iff.mp same
      obtain ⟨named, anchored, _⟩ := rooted row rfl
      exact ⟨row, rfl, parsed.trans (congrArg some named.symm), anchored.stems⟩
    · rintro e db s (⟨⟨message, rfl⟩, tracking⟩ | ⟨voids, other⟩)
      · exact ⟨tracking, fun _ absurd => by cases absurd⟩
      · unfold RealGeometryAdapter.referenceIsValid.malformed
        split
        · rename_i message
          exact absurd rfl (other message)
        · exact voids
  refine found.bind ?_
  rintro geometry db s ⟨tracking, names⟩
  cases geometry with
  | none => exact ⟨tracking, fun absurd => by cases absurd⟩
  | some geometry =>
      obtain ⟨record, rfl, parsed, ⟨row, member, same⟩ | ⟨_, absurd, _⟩⟩ := names geometry rfl
      · refine ⟨tracking, fun valid => ?_⟩
        simp only [ParcelGeometryRecord.geometry, Bool.and_eq_true, beq_iff_eq, and_assoc] at valid
        have columns := congrArg (fun row : ParcelGeometryRecord =>
          (row.geometryId, row.parcelId, row.tenantId)) same
        change (row.geometryId, row.parcelId, row.tenantId) =
          (record.geometryId, record.parcelId, record.tenantId) at columns
        simp only [Prod.mk.injEq] at columns
        obtain ⟨id, parcel, tenant⟩ := columns
        exact ⟨row, member, parsed.trans (congrArg some id.symm), parcel ▸ valid.2.2,
          tenant.trans valid.2.1⟩
      · cases absurd

/-- The reference that is set, if one is. -/
theorem Tracking.checkReference {loaded : ParcelRecord} {parcelId : String}
    (tracking : Tracking base F known [] db s) (lasting : Lasting steadily F)
    (named : UUID.parse parcelId = some loaded.parcelId) (reference : Option String) :
    Tracks base fresh index
      (fun _ => Tracking base (fun t => F t ∧ Sited base t { loaded with geometryReference := reference })
        known [])
      Voids (Registry.checkReference RealGeometryAdapter.referenceIsValid
        (ParcelRecord.parcel loaded) parcelId reference) db s := by
  cases reference with
  | none => exact tracking.and fun _ absurd => by cases absurd
  | some text =>
      refine (tracking.referenceIsValid lasting text _ parcelId).bind ?_
      rintro valid db s ⟨tracking, refers⟩
      refine .ite (fun _ => tracking.refuse _) fun valid => tracking.and ?_
      intro reference given
      cases given
      obtain ⟨geometry, member, parsed, placed, owned⟩ := refers (by simpa using valid)
      refine .inl ⟨geometry, member, parsed, ?_, owned⟩
      have same : UUID.parse geometry.parcelId.str = some loaded.parcelId := placed ▸ named
      rw [UUID.parse_str] at same
      exact Option.some.inj same

/-! ## Mutating -/

theorem lasting_sited (base : Tables) (parcel : ParcelRecord) : Lasting steadily fun t => Sited base t parcel :=
  fun _ _ advances sited => sited_of_advances (e := .parcel) advances sited

/-- The parcel that a mutation is about. -/
theorem Tracking.target {α : Type} {rest : Parcel → Request α} {Q : α → Assertion (Database ι) DbSession}
    (tracking : Tracking base (fun _ => True) known [] db s) (parcelId : String)
    (continues : ∀ loaded parcel db s, parcel = ParcelRecord.parcel loaded →
      UUID.parse parcelId = some loaded.parcelId →
      Tracking base (fun t => True ∧ Rooted base .parcel t [] loaded)
        (Entity.parcel.mapper.noted loaded :: known) [] db s →
      Tracks base fresh index Q Voids (rest parcel) db s) :
    Tracks base fresh index Q Voids (do
      let parcel ← Registry.loadInScope ctx parcelId
      Registry.authorizeMutation platform ctx parcel
      rest parcel) db s := by
  refine (tracking.loadInScope (lasting_true steadily) parcelId).bind ?_
  rintro parcel db s ⟨loaded, same, named, tracking⟩
  refine (tracking.authorizeMutation ((lasting_true steadily).and
    (lasting_rooted base .parcel [] loaded)) _).bind ?_
  exact fun _ db s tracking => continues loaded parcel db s same named tracking

theorem Tracking.updateParcel (tracking : Tracking base (fun _ => True) known [] db s)
    (parcelId : String) (fields : FieldMap) :
    Tracks base fresh index
      (fun _ => Entered base fresh platform.normalise ctx (.update parcelId fields)) Voids
      (Registry.updateParcel platform ctx parcelId fields) db s := by
  have lasting := lasting_true steadily
  refine .ite (fun _ => tracking.refuse _) fun _ => .ite (fun _ => tracking.refuse _) fun _ => ?_
  refine tracking.target parcelId fun loaded parcel db s same named tracking => ?_
  have rooted := lasting.and (lasting_rooted base .parcel [] loaded)
  refine (tracking.choose rooted _).bind fun now db s tracking => ?_
  refine (tracking.orConflict _).bind ?_
  rintro edited db s ⟨tracking, made⟩
  have mutates : Mutates ctx (.update parcelId fields) (ParcelRecord.parcel loaded) edited :=
    same ▸ .update made
  refine (tracking.overwrite lasting List.mem_cons_self mutates fun t _ sited => ?_).bind ?_
  · rw [mutates.geometryReference fun _ _ absurd => by cases absurd]
    exact sited
  rintro updated db s ⟨new, ws, rfl, overwritten, id, _, tracking⟩
  have named : UUID.parse parcelId = some new.parcelId := id ▸ named
  have lasting := lasting.and (lasting_registered new.parcelId new.tenantId)
  refine .ite (fun _ => ?_) fun _ => ?_
  · refine (tracking.recordChangedOwnership lasting tolerant_voids).bind ?_
    rintro _ db s ⟨owners, owned, tracking⟩
    have entered : Entered base fresh platform.normalise ctx (.update parcelId fields) db s :=
      tracking.entered (.update named tracking.fact.2 overwritten owned)
    exact (entered.auditPermit _ _ _ _).bind fun _ _ _ entered => entered
  · have nothing : ws ++ ([] : List OwnershipRecord).map .insertOwnership = ws := by simp
    have entered : Entered base fresh platform.normalise ctx (.update parcelId fields) db s :=
      tracking.entered (nothing ▸ .update named tracking.fact.2 overwritten .unchanged)
    exact (entered.auditPermit _ _ _ _).bind fun _ _ _ entered => entered

theorem Tracking.archiveParcel (tracking : Tracking base (fun _ => True) known [] db s)
    (parcelId : String) :
    Tracks base fresh index
      (fun _ => Entered base fresh platform.normalise ctx (.archive parcelId)) Voids
      (Registry.archiveParcel platform ctx parcelId) db s := by
  have lasting := lasting_true steadily
  refine tracking.target parcelId fun loaded parcel db s same named tracking => ?_
  have rooted := lasting.and (lasting_rooted base .parcel [] loaded)
  refine (tracking.choose rooted _).bind fun now db s tracking => ?_
  refine (tracking.orConflict _).bind ?_
  rintro edited db s ⟨tracking, made⟩
  have mutates : Mutates ctx (.archive parcelId) (ParcelRecord.parcel loaded) edited :=
    same ▸ .archive made
  have archived : edited.status = .archived := by
    cases (Parcel.ensureMutable_ok made).2
    rfl
  refine (tracking.overwrite lasting List.mem_cons_self mutates fun t _ sited => ?_).bind ?_
  · rw [mutates.geometryReference fun _ _ absurd => by cases absurd]
    exact sited
  rintro updated db s ⟨new, ws, rfl, overwritten, id, ⟨record, assigned⟩, tracking⟩
  have named : UUID.parse parcelId = some new.parcelId := id ▸ named
  have lasting := lasting.and (lasting_registered new.parcelId new.tenantId)
  have status : new.status = .archived := by
    obtain ⟨updatedBy, _, rfl⟩ := map_eq_ok assigned
    exact archived
  refine (tracking.latestHistory _ lasting tolerant_voids _).bind fun prior db s tracking => ?_
  refine (tracking.chooseId lasting).bind ?_
  rintro _ db s ⟨tracking, auditId, rfl⟩
  refine (tracking.assertHistory ParcelHistoryRepository.status lasting tolerant_voids
    (fun _ _ => ⟨trivial, trivial, trivial⟩) _ _ _ _ _).bind ?_
  rintro _ db s ⟨row, declares, auditRef, tracking⟩
  refine (tracking.auditPermitAs lasting tolerant_voids _ _ auditId _).bind ?_
  rintro _ db s tracking
  have permitted : StatusPermitted platform.normalise db.tables row := by
    unfold StatusPermitted
    rw [auditRef, declares.parcelId, declares.tenantId]
    exact tracking.fact.2.permitted (by simp)
  have entered : Entered base fresh platform.normalise ctx (.archive parcelId) db s :=
    tracking.entered (.archive named tracking.fact.1.2 overwritten (status ▸ declares) permitted)
  exact (entered.auditPermit _ _ _ _).bind fun _ _ _ entered => entered

theorem Tracking.setGeometryReference (tracking : Tracking base (fun _ => True) known [] db s)
    (parcelId : String) (reference : Option String) :
    Tracks base fresh index
      (fun _ => Entered base fresh platform.normalise ctx (.setGeometryReference parcelId reference)) Voids
      (Registry.setGeometryReference RealGeometryAdapter.referenceIsValid platform ctx parcelId
        reference) db s := by
  have lasting := lasting_true steadily
  refine tracking.target parcelId fun loaded parcel db s same named tracking => ?_
  have rooted := lasting.and (lasting_rooted base .parcel [] loaded)
  refine Meets.bind (N := fun _ => Tracking base (fun t => (True ∧ Rooted base .parcel t [] loaded) ∧
    Sited base t { loaded with geometryReference := reference })
    (Entity.parcel.mapper.noted loaded :: known) []) ?_ ?_
  · rw [same]
    exact tracking.checkReference rooted named reference
  intro _ db s tracking
  have both := rooted.and (lasting_sited base { loaded with geometryReference := reference })
  refine (tracking.choose both _).bind fun now db s tracking => ?_
  refine (tracking.orConflict _).bind ?_
  rintro edited db s ⟨tracking, made⟩
  have mutates : Mutates ctx (.setGeometryReference parcelId reference)
      (ParcelRecord.parcel loaded) edited := same ▸ .setGeometryReference made
  have given : edited.geometryReference = reference := by
    cases (Parcel.ensureMutable_ok made).2
    rfl
  have referring := tracking.weaken (G := fun t =>
    Sited base t { loaded with geometryReference := reference } ∧ Rooted base .parcel t [] loaded)
    fun _ fact => ⟨fact.2, fact.1.2⟩
  refine (referring.overwrite (lasting_sited base _) List.mem_cons_self mutates
    fun t sited _ => given ▸ sited).bind ?_
  rintro updated db s ⟨new, ws, rfl, overwritten, id, _, tracking⟩
  have named : UUID.parse parcelId = some new.parcelId := id ▸ named
  have entered : Entered base fresh platform.normalise ctx (.setGeometryReference parcelId reference)
      db s := tracking.entered (.setGeometryReference named overwritten)
  exact (entered.auditPermit _ _ _ _).bind fun _ _ _ entered => entered

/-- **What a request about parcels ends with**, whatever is committed beside it. -/
theorem Tracking.parcelRequest (tracking : Tracking base (fun _ => True) known [] db s)
    (request : ParcelRequest) :
    Tracks base fresh index (fun _ => Entered base fresh platform.normalise ctx request) Voids
      (request.serve RealGeometryAdapter.referenceIsValid platform ctx) db s := by
  have lasting := lasting_true steadily
  cases request with
  | create countryCode details =>
      exact (tracking.createParcel countryCode details).bind fun _ _ _ entered => entered
  | get parcelId =>
      refine Meets.bind (N := fun _ => Entered base fresh platform.normalise ctx (.get parcelId)) ?_
        fun _ _ _ entered => entered
      refine (tracking.loadInScope lasting parcelId).bind ?_
      rintro _ db s ⟨_, _, _, tracking⟩
      exact tracking.entered .get
  | list =>
      refine Meets.bind (N := fun _ => Entered base fresh platform.normalise ctx .list) ?_
        fun _ _ _ entered => entered
      refine .ite (fun _ => tracking.entered .list) fun _ => ?_
      refine Meets.bind (N := fun _ => Entered base fresh platform.normalise ctx .list) ?_
        fun _ _ _ entered => entered
      refine (tracking.select lasting tolerant_voids .parcel _).bind ?_
      rintro _ db s ⟨tracking, _⟩
      exact tracking.entered .list
  | update parcelId fields =>
      exact (tracking.updateParcel parcelId fields).bind fun _ _ _ entered => entered
  | archive parcelId => exact (tracking.archiveParcel parcelId).bind fun _ _ _ entered => entered
  | setGeometryReference parcelId reference =>
      exact (tracking.setGeometryReference parcelId reference).bind fun _ _ _ entered => entered

end Rules
end LandVault
