import LandVault.Library.Playing
import LandVault.Registry.Holders

/-!
# How a parcel is named

Eight operations take the parcel that they are about as a text. The Registry parses the
text under a guard; the Spatial and Evidence contexts bind it to a `uuid` parameter; the
geometry adapter compares it with the canonical text of the stored identifier. Where an
operation only parses, it does not tell two spellings apart.
-/

set_option autoImplicit false

namespace LandVault

open Kernel Kernel.Audit Identity Registry Spatial Evidence Library.Programs
open Library.ReadCommitted Python

/-! ## Requests that name a parcel -/

/-- What is asked of a parcel that a text names. -/
inductive Addressed where
  | get
  | update (fields : FieldMap)
  | archive
  | setGeometryReference (geometryReference : Option String)
  | submitGeometry (boundary : String)
  | getActiveGeometry
  | uploadEvidence (details : Upload) (data : List UInt8)
  | listEvidenceForParcel

namespace Addressed

/-- The call for the parcel of a text. -/
def named (parcelId : String) : Addressed → ServiceCall
  | .get => .parcel (.get parcelId)
  | .update fields => .parcel (.update parcelId fields)
  | .archive => .parcel (.archive parcelId)
  | .setGeometryReference geometryReference =>
      .parcel (.setGeometryReference parcelId geometryReference)
  | .submitGeometry boundary => .geometry (.submit parcelId boundary)
  | .getActiveGeometry => .geometry (.getActive parcelId)
  | .uploadEvidence details data => .evidence (.upload parcelId details data)
  | .listEvidenceForParcel => .evidence (.listForParcel parcelId)

/-- The answer to a call that runs alone, and the tables that it leaves. -/
def outcome (platform : ServicePlatform) (ctx : ExecutionContext) (t : Tables)
    (choices : List (Choice Env)) (call : ServiceCall) :
    Option (Except PyExc ServiceAnswer × Tables) :=
  (play (postgres Unit) () choices { tables := t } freshSession (call.handle platform ctx)).map
    fun ended => (ended.1, ended.2.1.tables)

/-- Two texts get the same answer and leave the same rows, of every caller in every store. -/
def SameOutcomes (platform : ServicePlatform) (request : Addressed) (a b : String) : Prop :=
  ∀ (ctx : ExecutionContext) (t : Tables) (choices : List (Choice Env)), t.keys.Nodup →
    outcome platform ctx t choices (request.named a) =
      outcome platform ctx t choices (request.named b)

/-- The request does not look at the spelling of `key`, or both texts are spelled alike: a
reference is compared with the canonical text, a submission or an upload writes the text
down. -/
def Blind (a b : String) (key : UUID) : Addressed → Prop
  | .setGeometryReference (some geometryReference) =>
      UUID.parse geometryReference = none ∨ (a = key.str ↔ b = key.str)
  | .submitGeometry _ => a = b
  | .uploadEvidence _ data => data = [] ∨ a = b
  | _ => True

/-- Where no statement fails for reasons of its own, the request is answered that there is no
such parcel. -/
def AnswersNotFound (platform : ServicePlatform) (request : Addressed) (a : String) : Prop :=
  ∀ (ctx : ExecutionContext) (t : Tables), t.keys.Nodup →
    (∃ choices result, outcome platform ctx t choices (request.named a) = some result) ∧
      ∀ (choices : List (Choice Env)) (result : Except PyExc ServiceAnswer × Tables),
        (∀ choice ∈ choices, choice.fails = false) →
          outcome platform ctx t choices (request.named a) = some result →
            result.1 = .error (.http 404 "parcel not found")

/-- The text is parsed under a guard, and nothing of the request is refused before. -/
def Guarded : Addressed → Prop
  | .update fields => fields.items ≠ [] ∧ sizeNotPositive fields.sizeSqm = false
  | .get | .archive | .setGeometryReference _ => True
  | _ => False

end Addressed

/-! ## Two spellings of one identifier -/

section Spellings

variable {platform : ServicePlatform} {ctx : ExecutionContext} {a b : String} {key : UUID}

theorem ParcelRepository.get_spelling (parsed : UUID.parse a = some key)
    (parsed' : UUID.parse b = some key) :
    Registry.ParcelRepository.get a = Registry.ParcelRepository.get b := by
  simp only [Registry.ParcelRepository.get, parsed, parsed']

theorem loadInScope_spelling (parsed : UUID.parse a = some key)
    (parsed' : UUID.parse b = some key) :
    Registry.loadInScope ctx a = Registry.loadInScope ctx b := by
  simp only [Registry.loadInScope, ParcelRepository.get_spelling parsed parsed']

/-- Only a text that is spelled as the stored identifier equals it. -/
theorem str_beq_of_parse (parsed : UUID.parse a = some key) (id : UUID) :
    (id.str == a) = (decide (a = key.str) && decide (id = key)) := by
  rw [Bool.eq_iff_iff]
  simp only [beq_iff_eq, Bool.and_eq_true, decide_eq_true_eq]
  constructor
  · rintro rfl
    rw [UUID.parse_str, Option.some_inj] at parsed
    exact ⟨congrArg UUID.str parsed, parsed⟩
  · rintro ⟨rfl, rfl⟩
    rfl

theorem referenceIsValid_spelling (parsed : UUID.parse a = some key)
    (parsed' : UUID.parse b = some key) {geometryReference : String} (tenantId : String)
    (blind : UUID.parse geometryReference = none ∨ (a = key.str ↔ b = key.str)) :
    RealGeometryAdapter.referenceIsValid geometryReference tenantId a =
      RealGeometryAdapter.referenceIsValid geometryReference tenantId b := by
  unfold RealGeometryAdapter.referenceIsValid ParcelGeometryRepository.get toUuid
  rcases blind with malformed | alike
  · simp only [malformed]
    rfl
  · cases UUID.parse geometryReference with
    | none => rfl
    | some geometryId =>
        refine congrArg (Program.step _) ?_
        funext answer
        rcases answer with e | _ | record
        · cases e <;> rfl
        · rfl
        · have same : (record.parcelId.str == a) = (record.parcelId.str == b) := by
            rw [str_beq_of_parse parsed, str_beq_of_parse parsed', decide_eq_decide.mpr alike]
          simp only [Program.ofExcept, Program.bind, Program.pure_eq_ret, Program.handle,
            Option.map_some, ParcelGeometryRecord.geometry, same]

theorem loadAuthorityInScope_spelling (read : driverUuid a = .ok key)
    (read' : driverUuid b = .ok key) :
    Spatial.loadAuthorityInScope ctx a = Spatial.loadAuthorityInScope ctx b ∧
      Evidence.loadParcelAuthorityInScope ctx a = Evidence.loadParcelAuthorityInScope ctx b := by
  simp only [Spatial.loadAuthorityInScope, Spatial.ParcelExistencePort.getParcelAuthority,
    Evidence.loadParcelAuthorityInScope, Evidence.ParcelExistencePort.getParcelAuthority, read,
    read', and_self]

theorem uploadEvidence_nil {platform : EvidencePlatform} (parcelId : String) (details : Upload) :
    Evidence.uploadEvidence platform ctx parcelId details [] =
      .throw (Evidence.badRequest (if truthy ctx.tenantId then "uploaded content is empty"
        else "caller has no tenant to record evidence within")) := by
  unfold Evidence.uploadEvidence
  cases truthy ctx.tenantId <;> rfl

/-- A request that does not look at the spelling is one program for both. -/
theorem Addressed.serve_spelling {request : Addressed} (read : driverUuid a = .ok key)
    (read' : driverUuid b = .ok key) (blind : request.Blind a b key) :
    (request.named a).serve platform ctx = (request.named b).serve platform ctx := by
  have parsed := driverUuid_eq_ok read
  have parsed' := driverUuid_eq_ok read'
  have parcel : Registry.loadInScope ctx a = Registry.loadInScope ctx b :=
    loadInScope_spelling parsed parsed'
  have keys : toUuid a = toUuid b := by simp only [toUuid, parsed, parsed']
  obtain ⟨spatial, evidence⟩ :
      Spatial.loadAuthorityInScope ctx a = Spatial.loadAuthorityInScope ctx b ∧
        Evidence.loadParcelAuthorityInScope ctx a = Evidence.loadParcelAuthorityInScope ctx b :=
    loadAuthorityInScope_spelling read read'
  cases request with
  | get => simp only [named, ServiceCall.serve, ParcelRequest.serve, Registry.getParcel, parcel]
  | update fields =>
      simp only [named, ServiceCall.serve, ParcelRequest.serve, Registry.updateParcel, parcel]
  | archive =>
      simp only [named, ServiceCall.serve, ParcelRequest.serve, Registry.archiveParcel, parcel]
  | setGeometryReference geometryReference =>
      have checks : ∀ record, checkReference RealGeometryAdapter.referenceIsValid record a
          geometryReference = checkReference RealGeometryAdapter.referenceIsValid record b
            geometryReference := by
        intro record
        cases geometryReference with
        | none => rfl
        | some geometryReference =>
            simp only [checkReference, referenceIsValid_spelling parsed parsed' _ blind]
      simp only [named, ServiceCall.serve, ParcelRequest.serve, Registry.setGeometryReference,
        parcel, checks]
  | submitGeometry boundary =>
      cases blind
      rfl
  | getActiveGeometry =>
      simp only [named, ServiceCall.serve, SpatialRequest.serve, Spatial.getActiveGeometry, spatial,
        ParcelGeometryRepository.getActiveForParcel, keys]
  | uploadEvidence details data =>
      rcases blind with rfl | rfl
      · simp only [named, ServiceCall.serve, EvidenceRequest.serve, uploadEvidence_nil]
      · rfl
  | listEvidenceForParcel =>
      simp only [named, ServiceCall.serve, EvidenceRequest.serve, Evidence.listEvidenceForParcel,
        evidence, PostgresEvidenceRepository.listForParcel, keys]

end Spellings

/-! ## Runs that end in an error -/

/-- A session that has written nothing in the transaction that it is in. -/
structure Unwritten (s : DbSession) : Prop where
  whole : s.broken = false
  active : s.active = true
  pending : s.pending = []

/-- A choice of the outside world that lets a statement work. -/
def calm : Choice Env := { env := { uuid := sampleId 9, now := sampleNow } }

/-- A session that has only read. -/
def reading (memo : Memo) : DbSession := { memo, active := true }

/-- The session of a request after its scope is set. -/
abbrev begun (ctx : ExecutionContext) : DbSession := reading { scope := scopeOf ctx }

section Runs

variable {α β : Type} {ctx : ExecutionContext} {t : Tables} {choices : List (Choice Env)}
  {db : Database Unit} {s : DbSession}

theorem unwritten_reading (memo : Memo) : Unwritten (reading memo) := ⟨rfl, rfl, rfl⟩

theorem play_setConfig : play (postgres Unit) () [calm] { tables := t } freshSession
    (setConfig (scopeOf ctx)) = some (.ok (), { tables := t }, begun ctx) := rfl

/-- A request that is rejected before it writes. -/
theorem play_rejected {request : Request α} {status : Nat} {detail : String}
    (untouched : Unwritten s)
    (body : play (postgres Unit) () choices { tables := t } (begun ctx) request =
      some (.error (.http status detail), db, s)) :
    ∃ s', play (postgres Unit) () (calm :: (choices ++ [calm])) { tables := t } freshSession
      (getDbSession ctx request) =
        some (.error (.http status detail), { db.release () with tables := db.tables }, s') := by
  have commits : play (postgres Unit) () [calm] db s Kernel.commit = _ :=
    play_commit untouched.whole untouched.active rfl
  rw [Engine.view, untouched.pending, Engine.applyAll_nil] at commits
  refine ⟨{ s.close with durable := s.durable ++ [], memo := engine.settled s.memo },
    (play_bind play_setConfig).trans ?_⟩
  refine (play_handle (play_bind_error body)).trans ?_
  exact (play_bind_last commits).trans rfl

/-- A request that ends in another error. -/
theorem play_failed {request : Request α} {e : PyExc} (notHttp : e.isHttp = false)
    (body : play (postgres Unit) () choices { tables := t } (begun ctx) request =
      some (.error e, db, s)) :
    ∃ s', play (postgres Unit) () (calm :: (choices ++ [calm])) { tables := t } freshSession
      (getDbSession ctx request) = some (.error e, db.release (), s') := by
  refine ⟨{ s.close with memo := {} }, (play_bind play_setConfig).trans ?_⟩
  refine (play_handle (play_bind_error body)).trans ?_
  cases e with
  | http status detail => cases notHttp
  | _ => rfl

/-- A statement that answers. -/
theorem play_query {run : View Tables Memo Env → Except PyExc (Effect Write Memo PyExc β)}
    {memo : Memo} {b : β} (untouched : Unwritten s)
    (ran : run ⟨db.tables, s.memo, s.startedAt, calm.env⟩ = .ok ⟨memo, .ok b, none⟩) :
    play (postgres Unit) () [calm] db s (.perform (.query run)) =
      some (.ok b, db, { s with memo }) := by
  refine play_read untouched.whole untouched.active rfl ?_
  rw [Engine.view, untouched.pending]
  exact ran

/-- A row that the identity map does not have is read from the table. -/
theorem play_get {R K : Type} [DecidableEq K] (m : Mapper R K) {key : K} {row : R}
    (untouched : Unwritten s) (unmapped : m.loaded s.memo = [])
    (found : (m.seen db.tables s.memo.scope).find? (m.key · = key) = some row) :
    play (postgres Unit) () [calm] db s (m.get key) =
      some (.ok (some row), db, { s with memo := m.keep row s.memo }) := by
  refine play_query untouched ?_
  have lost : m.mapped ⟨db.tables, s.memo, s.startedAt, calm.env⟩ key = none := by
    simp [Mapper.mapped, calm, unmapped]
  simp only [lost, found]

/-- An entry is the first of the audit log. -/
theorem play_audit {platform : Platform} {call : AuditCall} (free : db.locks = [])
    (first : db.tables.auditLog = []) (plain : ∀ text ∈ AuditCall.texts ctx call, hasNul text = false) :
    ∃ record entry s', play (postgres Unit) () [calm, calm, calm] db s (audit platform ctx call) =
        some (.ok entry, { db with tables := db.tables.apply (.insertAudit record) }, s') ∧
      s'.broken = s.broken ∧ s'.active = s.active ∧ s'.pending = s.pending ∧
      record.resourceId = call.resourceId := by
  have back := readBack_buildEntry platform.sha256 platform.normalise ctx call
    (lastHash db.tables.auditLog calm.env.pick) calm.env.now calm.env.uuid calm.env.uuid
  obtain ⟨record, made, entry⟩ := Option.map_eq_some_iff.mp back
  have stored : storedRecord platform (buildEntry platform.sha256 ctx call
      (lastHash db.tables.auditLog calm.env.pick) calm.env.uuid calm.env.now) calm.env.uuid =
        .ok (record.stored platform.normalise) := by
    rw [storedRecord, made]
  refine ⟨record.stored platform.normalise, _, _, (play_bind (play_eager_read rfl rfl)).trans <|
    (play_bind play_choose).trans <| (play_bind_last <|
      play_eager_write rfl (by rw [insertedRecord_of_plain plain, stored]; rfl) free ?_).trans rfl, rfl, rfl, rfl, ?_⟩
  · simp [engine, Write.adds, Write.rowEntries, Write.enters, Tables.keys, Tables.rowKeys,
      Tables.recordKeys, Tables.identityKeys, first]
  · exact congrArg AuditEntry.resourceId entry

end Runs

/-! ## Spellings that are told apart -/

def keyedParcel (key : UUID) (status : ParcelStatus) : ParcelRecord :=
  { parcelId := key, tenantId := "t-1", countryCode := "NG", origin := "o", createdBy := sampleId 2
    createdAt := .now 0, updatedAt := .now 0, status }

/-- One parcel, and what there is of its geometries. -/
def keyedTables (key : UUID) (status : ParcelStatus) (geometries : List ParcelGeometryRecord) :
    Tables where
  parcels := [keyedParcel key status]
  parcelGeometries := geometries

/-- A member of the tenant who may not change the parcel. -/
def stranger : ExecutionContext := { principalId := "p-3", tenantId := some "t-1" }

section Apart

variable {platform : ServicePlatform} {a b : String} {key : UUID}

/-- The one parcel is found. -/
theorem find_keyed (scope : Scope) (sees : scope.sees "t-1" = true) (status : ParcelStatus) :
    ([keyedParcel key status].filter fun row => scope.sees row.tenantId).find?
      (·.parcelId = key) = some (keyedParcel key status) := by
  simp [keyedParcel, sees]

theorem play_spatialAuthority (read : driverUuid a = .ok key) :
    ∃ s, play (postgres Unit) () [calm] { tables := keyedTables key .active [] } (begun stranger)
      (Spatial.loadAuthorityInScope stranger a) =
        some (.ok ⟨"t-1", (sampleId 2).str, .active⟩, { tables := keyedTables key .active [] }, s) ∧
      Unwritten s := by
  obtain ⟨memo, port⟩ : ∃ memo, play (postgres Unit) () [calm]
      { tables := keyedTables key .active [] } (begun stranger)
      (Spatial.ParcelExistencePort.getParcelAuthority a) =
        some (.ok (some ⟨"t-1", (sampleId 2).str, .active⟩),
          { tables := keyedTables key .active [] }, reading memo) := by
    refine ⟨{ scope := .tenant "t-1", reads := [.parcel (keyedParcel key .active)] },
      play_query (unwritten_reading _) ?_⟩
    simp only [read, Except.map, visible, keyedTables]
    rw [find_keyed _ rfl]
    rfl
  exact ⟨_, (play_bind_last port).trans rfl, unwritten_reading memo⟩

theorem not_canMutate_stranger : canMutate stranger (sampleId 2).str = false := rfl

/-- What a refusal writes down of the stranger is read by Postgres, as the text is. -/
theorem plain_denied (read : driverUuid a = .ok key) {action resourceType : String}
    {payload : Payload}
    (words : ∀ text ∈ action :: resourceType :: payload.texts, hasNul text = false) :
    ∀ text ∈ AuditCall.texts stranger
      { action := action
        resourceType := resourceType
        resourceId := some a
        decision := some "DENY"
        payload := some payload }, hasNul text = false := by
  intro text member
  simp only [AuditCall.texts, AuditCall.payloadOrEmpty, Option.toList_some, Option.getD_some,
    List.mem_append, List.mem_cons, List.not_mem_nil, or_false] at member
  rcases member with (rfl | rfl | rfl | rfl | rfl) | inPayload
  · exact words _ List.mem_cons_self
  · exact words _ (List.mem_cons_of_mem _ List.mem_cons_self)
  · decide
  · exact hasNul_of_driverUuid read
  · decide
  · exact words _ (List.mem_cons_of_mem _ (List.mem_cons_of_mem _ inPayload))

/-- A refused submission writes the text down. -/
theorem submit_denied (read : driverUuid a = .ok key) (boundary : String) : ∃ record,
    Addressed.outcome platform stranger (keyedTables key .active []) (List.replicate 6 calm)
      (.geometry (.submit a boundary)) =
        some (.error Spatial.forbidden,
          { keyedTables key .active [] with auditLog := [record] }) ∧
      record.resourceId = some a := by
  obtain ⟨s, authority, untouched⟩ := play_spatialAuthority read
  obtain ⟨record, entry, s', audited, whole, active, pending, resource⟩ :=
    @play_audit stranger { tables := keyedTables key .active [] } s platform.toPlatform
      { action := "spatial.parcel_geometry.mutation_denied"
        resourceType := "parcel_geometry"
        resourceId := some a
        decision := some "DENY"
        payload := some <| .details
          [("tenant_id", .text "t-1"),
           ("reason", .text "not_creator_and_not_governance"),
           ("delegated_roles", .texts stranger.delegatedRoles)] } rfl rfl
      (plain_denied read (by decide))
  have untouched' : Unwritten s' :=
    ⟨whole.trans untouched.whole, active.trans untouched.active, pending.trans untouched.pending⟩
  have refused : play (postgres Unit) () [calm, calm, calm] { tables := keyedTables key .active [] } s
      (Spatial.authorizeMutation platform.toPlatform stranger a
        ⟨"t-1", (sampleId 2).str, .active⟩) = some (.error Spatial.forbidden,
          { tables := { keyedTables key .active [] with auditLog := [record] } }, s') := by
    rw [Spatial.authorizeMutation, if_neg (by rw [not_canMutate_stranger]; decide)]
    exact (play_bind_last audited).trans rfl
  have body : play (postgres Unit) () ([calm] ++ [calm, calm, calm])
      { tables := keyedTables key .active [] } (begun stranger)
      (Spatial.submitGeometry platform.toSpatialPlatform stranger a boundary) = _ :=
    (play_bind authority).trans (play_bind_error refused)
  obtain ⟨s'', played⟩ := play_rejected untouched' (play_bind_error body)
  exact ⟨record, congrArg _ played, resource⟩

theorem play_evidenceAuthority (read : driverUuid a = .ok key) :
    ∃ s, play (postgres Unit) () [calm] { tables := keyedTables key .active [] } (begun stranger)
      (Evidence.loadParcelAuthorityInScope stranger a) =
        some (.ok ⟨"t-1", (sampleId 2).str⟩, { tables := keyedTables key .active [] }, s) ∧
      Unwritten s := by
  obtain ⟨memo, port⟩ : ∃ memo, play (postgres Unit) () [calm]
      { tables := keyedTables key .active [] } (begun stranger)
      (Evidence.ParcelExistencePort.getParcelAuthority a) =
        some (.ok (some ⟨"t-1", (sampleId 2).str⟩),
          { tables := keyedTables key .active [] }, reading memo) := by
    refine ⟨{ scope := .tenant "t-1" }, play_query (unwritten_reading _) ?_⟩
    simp only [read, Except.map, visible, keyedTables]
    rw [find_keyed _ rfl]
    rfl
  exact ⟨_, (play_bind_last port).trans rfl, unwritten_reading memo⟩

/-- A refused upload writes the text down. -/
theorem upload_denied (read : driverUuid a = .ok key) (details : Upload) {data : List UInt8}
    (nonempty : data ≠ []) : ∃ record,
    Addressed.outcome platform stranger (keyedTables key .active []) (List.replicate 6 calm)
      (.evidence (.upload a details data)) =
        some (.error uploadForbidden,
          { keyedTables key .active [] with auditLog := [record] }) ∧
      record.resourceId = some a := by
  obtain ⟨s, authority, untouched⟩ := play_evidenceAuthority read
  obtain ⟨record, entry, s', audited, whole, active, pending, resource⟩ :=
    @play_audit stranger { tables := keyedTables key .active [] } s platform.toPlatform
      { action := "evidence.upload_denied"
        resourceType := "parcel"
        resourceId := some a
        decision := some "DENY"
        payload := some <| .details
          [("tenant_id", .text "t-1"),
           ("reason", .text "not_creator_and_not_governance")] } rfl rfl
      (plain_denied read (by decide))
  have untouched' : Unwritten s' :=
    ⟨whole.trans untouched.whole, active.trans untouched.active, pending.trans untouched.pending⟩
  have body : play (postgres Unit) () ([calm] ++ [calm, calm, calm])
      { tables := keyedTables key .active [] } (begun stranger)
      (Evidence.uploadEvidence platform.toEvidencePlatform stranger a details data) =
        some (.error uploadForbidden,
          { tables := { keyedTables key .active [] with auditLog := [record] } }, s') := by
    rw [Evidence.uploadEvidence, if_neg (by decide), if_neg (by simpa using nonempty)]
    refine (play_bind authority).trans ?_
    rw [if_pos (by rw [not_canMutate_stranger]; rfl)]
    exact (play_bind_last audited).trans rfl
  obtain ⟨s'', played⟩ := play_rejected untouched' (play_bind_error (play_bind_error body))
  exact ⟨record, congrArg _ played, resource⟩

/-- Where an entry says the text, two texts leave different rows. -/
theorem eq_of_entries {outcome outcome' : Option (Except PyExc ServiceAnswer × Tables)} {e : PyExc}
    {t : Tables} (same : outcome = outcome')
    (first : ∃ record, outcome = some (.error e, { t with auditLog := [record] }) ∧
      record.resourceId = some a)
    (second : ∃ record, outcome' = some (.error e, { t with auditLog := [record] }) ∧
      record.resourceId = some b) : a = b := by
  obtain ⟨record, first, resource⟩ := first
  obtain ⟨record', second, resource'⟩ := second
  have tables := congrArg Prod.snd (Option.some.inj (first.symm.trans (same.trans second)))
  have entries := congrArg Tables.auditLog tables
  rw [← Option.some_inj, ← resource, ← resource', List.head_eq_of_cons_eq entries]

def keyedGeometry (key geometryId : UUID) : ParcelGeometryRecord :=
  { geometryId, tenantId := "t-1", parcelId := key, boundary := "", createdBy := sampleId 2
    createdAt := .now 0 }

/-- The registrant's parcel, which is archived, with a geometry. -/
abbrev referringTables (key geometryId : UUID) : Tables :=
  keyedTables key .archived [keyedGeometry key geometryId]

theorem play_loadInScope (parsed : UUID.parse a = some key) (geometryId : UUID) :
    ∃ memo, play (postgres Unit) () [calm] { tables := referringTables key geometryId }
      (begun registrant) (Registry.loadInScope registrant a) =
        some (.ok (ParcelRecord.parcel (keyedParcel key .archived)),
          { tables := referringTables key geometryId }, reading memo) ∧
      memo.scope = .tenant "t-1" ∧ memo.geometries = [] := by
  have finds := @play_get { tables := referringTables key geometryId } (begun registrant) _ _ _
    parcelMapper key _ (unwritten_reading _) rfl (find_keyed (.tenant "t-1") rfl .archived)
  refine ⟨parcelMapper.keep (keyedParcel key .archived) (begun registrant).memo, ?_, rfl, rfl⟩
  rw [Registry.loadInScope, Registry.ParcelRepository.get, parsed]
  exact (play_bind_last (play_bind_last finds)).trans rfl

/-- The adapter compares the text. -/
theorem play_referenceIsValid (parsed : UUID.parse a = some key) {geometryReference : String}
    {geometryId : UUID} (refers : UUID.parse geometryReference = some geometryId) {memo : Memo}
    (scope : memo.scope = .tenant "t-1") (unmapped : memo.geometries = []) :
    ∃ memo', play (postgres Unit) () [calm] { tables := referringTables key geometryId }
      (reading memo)
      (RealGeometryAdapter.referenceIsValid geometryReference "t-1" a) =
        some (.ok (decide (a = key.str)), { tables := referringTables key geometryId },
          reading memo') := by
  have found : (geometryMapper.seen (referringTables key geometryId) memo.scope).find?
      (geometryMapper.key · = geometryId) = some (keyedGeometry key geometryId) := by
    rw [scope]
    simp [Mapper.seen, geometryMapper, keyedTables, keyedGeometry, Scope.sees]
  have finds := @play_get { tables := referringTables key geometryId }
    (reading memo) _ _ _ geometryMapper geometryId _ (unwritten_reading memo)
      unmapped found
  have gets : play (postgres Unit) () [calm] { tables := referringTables key geometryId }
      (reading memo) (ParcelGeometryRepository.get geometryReference) =
        some (.ok (some (ParcelGeometryRecord.geometry (keyedGeometry key geometryId))),
          { tables := referringTables key geometryId },
          reading (geometryMapper.keep (keyedGeometry key geometryId) memo)) := by
    rw [ParcelGeometryRepository.get, toUuid, refers]
    exact play_bind_last finds
  have guarded := @play_handle_ok _ _ _ _ _ _ _ _ _ _ _ _ _ _ _
    RealGeometryAdapter.referenceIsValid.malformed _ gets
  refine ⟨geometryMapper.keep (keyedGeometry key geometryId) memo, ?_⟩
  unfold RealGeometryAdapter.referenceIsValid
  rw [Program.bind_eq, Program.tryCatch_eq, play_bind_last guarded]
  have compared : (key.str == a) = decide (a = key.str) := by
    rw [str_beq_of_parse parsed]
    simp
  simp only [ParcelGeometryRecord.geometry, keyedGeometry, compared]
  generalize decide (a = key.str) = verdict
  rfl

theorem canMutate_registrant : canMutate registrant (sampleId 2).str = true := rfl

/-- A reference to the geometry, up to its validation. -/
theorem play_setGeometryReference (parsed : UUID.parse a = some key) {geometryReference : String}
    {geometryId : UUID} (refers : UUID.parse geometryReference = some geometryId)
    (rest : List (Choice Env)) : ∃ memo,
    play (postgres Unit) () ([calm] ++ ([calm] ++ rest))
      { tables := referringTables key geometryId } (begun registrant)
      (Registry.setGeometryReference RealGeometryAdapter.referenceIsValid platform.toPlatform
        registrant a (some geometryReference)) =
      play (postgres Unit) () rest { tables := referringTables key geometryId } (reading memo)
        (if a = key.str then
          Program.bind (choose fun env => env.now) fun _ =>
            .throw (Registry.conflict "cannot modify an archived parcel")
        else .throw (Registry.badRequest "geometry_reference failed validation")) := by
  obtain ⟨memo, loads, scope, unmapped⟩ := play_loadInScope parsed geometryId
  obtain ⟨memo', valid⟩ := play_referenceIsValid parsed refers scope unmapped
  have authorized : Registry.authorizeMutation platform.toPlatform registrant
      (ParcelRecord.parcel (keyedParcel key .archived)) = pure () :=
    if_pos canMutate_registrant
  refine ⟨memo', (play_bind loads).trans ?_⟩
  rw [authorized]
  simp only [Program.bind_eq, Program.pure_eq_ret, Program.bind]
  by_cases canonical : a = key.str
  · rw [decide_eq_true canonical] at valid
    rw [if_pos canonical]
    have checked : play (postgres Unit) () [calm] { tables := referringTables key geometryId }
        (reading memo) (checkReference RealGeometryAdapter.referenceIsValid
          (ParcelRecord.parcel (keyedParcel key .archived)) a (some geometryReference)) =
          some (.ok (), { tables := referringTables key geometryId }, reading memo') :=
      (play_bind_last valid).trans rfl
    exact play_bind checked
  · rw [decide_eq_false canonical] at valid
    rw [if_neg canonical]
    have checked : play (postgres Unit) () [calm] { tables := referringTables key geometryId }
        (reading memo) (checkReference RealGeometryAdapter.referenceIsValid
          (ParcelRecord.parcel (keyedParcel key .archived)) a (some geometryReference)) =
          some (.error (Registry.badRequest "geometry_reference failed validation"),
            { tables := referringTables key geometryId }, reading memo') :=
      (play_bind_last valid).trans rfl
    exact play_bind_throw checked

/-- Another spelling of the parcel fails validation. -/
theorem reference_refused (parsed : UUID.parse a = some key) {geometryReference : String}
    {geometryId : UUID} (refers : UUID.parse geometryReference = some geometryId)
    (other : a ≠ key.str) :
    Addressed.outcome platform registrant (referringTables key geometryId) (List.replicate 4 calm)
      (.parcel (.setGeometryReference a (some geometryReference))) =
        some (.error (Registry.badRequest "geometry_reference failed validation"),
          referringTables key geometryId) := by
  obtain ⟨memo, body⟩ := @play_setGeometryReference platform _ _ parsed _ _ refers []
  rw [if_neg other] at body
  obtain ⟨s, played⟩ := play_rejected (unwritten_reading memo)
    (play_bind_error (play_bind_error (body.trans rfl)))
  exact congrArg (Option.map fun ended => (ended.1, ended.2.1.tables)) played

/-- The canonical spelling passes it. -/
theorem reference_conflicts (parsed : UUID.parse a = some key) {geometryReference : String}
    {geometryId : UUID} (refers : UUID.parse geometryReference = some geometryId)
    (canonical : a = key.str) :
    Addressed.outcome platform registrant (referringTables key geometryId) (List.replicate 5 calm)
      (.parcel (.setGeometryReference a (some geometryReference))) =
        some (.error (Registry.conflict "cannot modify an archived parcel"),
          referringTables key geometryId) := by
  obtain ⟨memo, body⟩ := @play_setGeometryReference platform _ _ parsed _ _ refers [calm]
  rw [if_pos canonical] at body
  obtain ⟨s, played⟩ := play_rejected (unwritten_reading memo)
    (play_bind_error (play_bind_error (body.trans rfl)))
  exact congrArg (Option.map fun ended => (ended.1, ended.2.1.tables)) played

theorem keyedTables_unique {status : ParcelStatus} {geometries : List ParcelGeometryRecord}
    (single : geometries.length ≤ 1) : (keyedTables key status geometries).keys.Nodup := by
  match geometries, single with
  | [], _ | [_], _ =>
      simp [Tables.keys, Tables.rowKeys, Tables.recordKeys, Tables.identityKeys, keyedTables]

/-- A run is over after its last statement. -/
theorem Addressed.outcome_prefix {ctx : ExecutionContext} {t : Tables} {call : ServiceCall}
    {choices rest : List (Choice Env)} {result result' : Except PyExc ServiceAnswer × Tables}
    (ended : outcome platform ctx t choices call = some result)
    (ended' : outcome platform ctx t (choices ++ rest) call = some result') : rest = [] := by
  obtain ⟨_, played, _⟩ := Option.map_eq_some_iff.mp ended
  obtain ⟨_, played', _⟩ := Option.map_eq_some_iff.mp ended'
  exact play_prefix played played'

/-- The canonical spelling and another one are told apart. -/
theorem reference_apart (parsed : UUID.parse a = some key) (parsed' : UUID.parse b = some key)
    {geometryReference : String} {geometryId : UUID}
    (refers : UUID.parse geometryReference = some geometryId) (canonical : a = key.str)
    (other : b ≠ key.str) :
    Addressed.outcome platform registrant (referringTables key geometryId) (List.replicate 4 calm)
      (.parcel (.setGeometryReference a (some geometryReference))) ≠
    Addressed.outcome platform registrant (referringTables key geometryId) (List.replicate 4 calm)
      (.parcel (.setGeometryReference b (some geometryReference))) := by
  intro same
  rw [reference_refused parsed' refers other] at same
  have longer := @reference_conflicts platform _ _ parsed _ _ refers canonical
  cases @Addressed.outcome_prefix platform _ _ _ _ [calm] _ _ same longer

/-- A request that treats two spellings alike does not look at them. -/
theorem Addressed.blind_of_sameOutcomes {request : Addressed} (read : driverUuid a = .ok key)
    (read' : driverUuid b = .ok key) (same : request.SameOutcomes platform a b) :
    request.Blind a b key := by
  have parsed := driverUuid_eq_ok read
  have parsed' := driverUuid_eq_ok read'
  have unique : (keyedTables key .active []).keys.Nodup := keyedTables_unique (by simp)
  cases request with
  | get | update _ | archive | getActiveGeometry | listEvidenceForParcel => trivial
  | setGeometryReference geometryReference =>
      cases geometryReference with
      | none => trivial
      | some geometryReference =>
          cases refers : UUID.parse geometryReference with
          | none => exact .inl refers
          | some geometryId =>
              have alike := same registrant (referringTables key geometryId)
                (List.replicate 4 calm) (keyedTables_unique (by simp))
              refine .inr ⟨fun canonical => ?_, fun canonical => ?_⟩
              · by_contra other
                exact reference_apart parsed parsed' refers canonical other alike
              · by_contra other
                exact reference_apart parsed' parsed refers canonical other alike.symm
  | submitGeometry boundary =>
      exact eq_of_entries (same stranger _ (List.replicate 6 calm) unique)
        (submit_denied read boundary) (submit_denied read' boundary)
  | uploadEvidence details data =>
      by_cases empty : data = []
      · exact .inl empty
      · exact .inr <| eq_of_entries (same stranger _ (List.replicate 6 calm) unique)
          (upload_denied read details empty) (upload_denied read' details empty)

end Apart

/-! ## Texts that name nothing -/

section Malformed

variable {platform : ServicePlatform} {ctx : ExecutionContext} {t : Tables} {a : String}
  {request : Addressed}

/-- A rejection that comes first of all. -/
theorem Addressed.outcome_throw {status : Nat} {detail : String}
    (rejects : (request.named a).serve platform ctx = .throw (.http status detail)) :
    outcome platform ctx t [calm, calm] (request.named a) =
      some (.error (.http status detail), t) := by
  obtain ⟨s, played⟩ := @play_rejected _ ctx t [] { tables := t } (begun ctx) _ status detail
    (unwritten_reading _) (congrArg _ rejects)
  exact congrArg (Option.map fun ended => (ended.1, ended.2.1.tables)) played

theorem Addressed.not_answersNotFound {choices : List (Choice Env)}
    {result : Except PyExc ServiceAnswer × Tables} (unique : t.keys.Nodup)
    (works : ∀ choice ∈ choices, choice.fails = false)
    (ended : outcome platform ctx t choices (request.named a) = some result)
    (other : result.1 ≠ .error (.http 404 "parcel not found")) :
    ¬ request.AnswersNotFound platform a :=
  fun answers => other ((answers ctx t unique).2 choices result works ended)

/-- A rejection that comes first of all, where the two statements of the unit of work do. -/
theorem play_throw {α : Type} {status : Nat} {detail : String} {first second : Choice Env}
    (works : first.fails = false) (works' : second.fails = false) :
    ∃ db s, play (postgres Unit) () [first, second] { tables := t } freshSession
      (getDbSession ctx (.throw (.http status detail) : Request α)) =
        some (.error (.http status detail), db, s) := by
  have begins : play (postgres Unit) () [first] { tables := t } freshSession
      (setConfig (scopeOf ctx)) =
        some (.ok (), { tables := t, clock := 0 + first.tick },
          { begun ctx with startedAt := 0 + first.tick }) := by
    refine play_perform ?_
    simp only [Engine.machine, Engine.exec, works]
    rfl
  have commits := @play_commit _ _ _ _ _ Env _ _ _ engine ()
    { tables := t, clock := 0 + first.tick } { begun ctx with startedAt := 0 + first.tick } second
    rfl rfl works'
  have ends : play (postgres Unit) () [second] { tables := t, clock := 0 + first.tick }
      { begun ctx with startedAt := 0 + first.tick }
      (Program.bind Kernel.commit fun _ => .throw (.http status detail) : Request α) = _ :=
    (play_bind_last commits).trans rfl
  exact ⟨_, _, (play_bind begins).trans ends⟩

/-- A rejection ends every run in which the statements work. -/
theorem play_rejects {α : Type} {status : Nat} {detail : String} {choices : List (Choice Env)}
    (works : ∀ choice ∈ choices, choice.fails = false)
    {result : Except PyExc α × Database Unit × DbSession}
    (played : play (postgres Unit) () choices { tables := t } freshSession
      (getDbSession ctx (.throw (.http status detail))) = some result) :
    result.1 = .error (.http status detail) := by
  obtain ⟨first, second, rest, same, fine, fine'⟩ : ∃ first second rest,
      choices ++ [calm, calm] = [first, second] ++ rest ∧ first.fails = false ∧
        second.fails = false := by
    match choices, works with
    | [], _ => exact ⟨calm, calm, [], rfl, rfl, rfl⟩
    | [choice], works => exact ⟨choice, calm, [calm], rfl, works choice (by simp), rfl⟩
    | first :: second :: rest, works =>
        exact ⟨first, second, rest ++ [calm, calm], rfl, works first (by simp),
          works second (by simp)⟩
  obtain ⟨db, s, two⟩ := @play_throw ctx t α status detail first second fine fine'
  -- the run has two statements, whatever is left over
  match choices, works, played, same with
  | [], _, played, _ => cases played
  | [choice], _, played, same =>
      cases same
      cases play_prefix played two
  | first' :: second' :: rest', _, played, same =>
      cases same
      cases play_prefix two played
      rw [two] at played
      cases played
      rfl

theorem driverUuid_malformed (malformed : UUID.parse a = none) :
    ∃ e, driverUuid a = .error e ∧ e.isHttp = false := by
  cases read : driverUuid a with
  | error e => exact ⟨e, rfl, driverUuid_notHttp read⟩
  | ok key =>
      rw [driverUuid_eq_ok read] at malformed
      cases malformed

/-- What is guarded rejects the text. -/
theorem Addressed.Guarded.rejects (guarded : request.Guarded) (malformed : UUID.parse a = none) :
    (request.named a).serve platform ctx = .throw Registry.notFound := by
  have loads : Registry.loadInScope ctx a = .throw Registry.notFound := by
    simp only [Registry.loadInScope, Registry.ParcelRepository.get, malformed]
    rfl
  cases request with
  | get =>
      simp only [named, ServiceCall.serve, ParcelRequest.serve, Registry.getParcel, loads]
      rfl
  | update fields =>
      obtain ⟨some', positive⟩ := guarded
      have filled : ¬ fields.items.isEmpty = true := by simpa using some'
      have fits : ¬ sizeNotPositive fields.sizeSqm = true := by simp [positive]
      simp only [named, ServiceCall.serve, ParcelRequest.serve, Registry.updateParcel, loads,
        if_neg filled, if_neg fits]
      rfl
  | archive =>
      simp only [named, ServiceCall.serve, ParcelRequest.serve, Registry.archiveParcel, loads]
      rfl
  | setGeometryReference geometryReference =>
      simp only [named, ServiceCall.serve, ParcelRequest.serve, Registry.setGeometryReference, loads]
      rfl
  | submitGeometry _ | getActiveGeometry | uploadEvidence _ _ | listEvidenceForParcel =>
      exact guarded.elim

/-- Where the driver refuses the text, the answer is its error. -/
theorem Addressed.outcome_driver {e : PyExc} (notHttp : e.isHttp = false)
    (raises : play (postgres Unit) () [calm] { tables := t } (begun ctx)
      ((request.named a).serve platform ctx) =
        some (.error e, { tables := t }, (begun ctx).abort e none)) :
    outcome platform ctx t [calm, calm, calm] (request.named a) = some (.error e, t) := by
  obtain ⟨s, played⟩ := play_failed notHttp raises
  exact congrArg (Option.map fun ended => (ended.1, ended.2.1.tables)) played

theorem play_spatialDriver {e : PyExc} (raises : driverUuid a = .error e) :
    play (postgres Unit) () [calm] { tables := t } (begun ctx)
      (Spatial.loadAuthorityInScope ctx a) =
        some (.error e, { tables := t }, (begun ctx).abort e none) := by
  refine play_bind_error (play_raise rfl rfl rfl ?_)
  rw [raises]
  rfl

theorem play_evidenceDriver {e : PyExc} (raises : driverUuid a = .error e) :
    play (postgres Unit) () [calm] { tables := t } (begun ctx)
      (Evidence.loadParcelAuthorityInScope ctx a) =
        some (.error e, { tables := t }, (begun ctx).abort e none) := by
  refine play_bind_error (play_raise rfl rfl rfl ?_)
  rw [raises]
  rfl

/-- What is not guarded has a run that ends in another answer. -/
theorem Addressed.exists_other (malformed : UUID.parse a = none) (unguarded : ¬ request.Guarded) :
    ∃ choices e, (∀ choice ∈ choices, choice.fails = false) ∧
      outcome platform stranger {} choices (request.named a) = some (.error e, {}) ∧
        e ≠ .http 404 "parcel not found" := by
  obtain ⟨e, raises, notHttp⟩ := driverUuid_malformed malformed
  have other : e ≠ .http 404 "parcel not found" := by
    rintro rfl
    cases notHttp
  have calms : ∀ n, ∀ choice ∈ List.replicate n calm, choice.fails = false := by
    intro n choice member
    rw [List.eq_of_mem_replicate member]
    rfl
  have early : ∀ {detail : String},
      (request.named a).serve platform stranger = .throw (.http 400 detail) →
        ∃ choices e, (∀ choice ∈ choices, choice.fails = false) ∧
          outcome platform stranger {} choices (request.named a) = some (.error e, {}) ∧
            e ≠ .http 404 "parcel not found" :=
    fun rejects => ⟨_, _, calms 2, outcome_throw rejects, by simp⟩
  have spatial := @play_spatialDriver stranger {} a e raises
  have evidence := @play_evidenceDriver stranger {} a e raises
  cases request with
  | get | archive | setGeometryReference _ => exact absurd trivial unguarded
  | update fields =>
      by_cases blank : fields.items.isEmpty = true
      · refine @early "no fields to update" ?_
        simp only [named, ServiceCall.serve, ParcelRequest.serve, Registry.updateParcel, if_pos blank]
        rfl
      · have unfit : sizeNotPositive fields.sizeSqm = true := by
          by_contra fits
          exact unguarded ⟨by simpa using blank, by simpa using fits⟩
        refine @early "size_sqm must be positive" ?_
        simp only [named, ServiceCall.serve, ParcelRequest.serve, Registry.updateParcel,
          if_neg blank, if_pos unfit]
        rfl
  | submitGeometry boundary =>
      exact ⟨_, e, calms 3, outcome_driver notHttp (play_bind_error (play_bind_error spatial)), other⟩
  | getActiveGeometry =>
      exact ⟨_, e, calms 3, outcome_driver notHttp (play_bind_error (play_bind_error spatial)), other⟩
  | uploadEvidence details data =>
      by_cases empty : data = []
      · refine @early "uploaded content is empty" ?_
        simp only [named, ServiceCall.serve, EvidenceRequest.serve, empty, uploadEvidence_nil]
        rfl
      · have body : play (postgres Unit) () [calm] { tables := {} } (begun stranger)
            (Evidence.uploadEvidence platform.toEvidencePlatform stranger a details data) =
              some (.error e, { tables := {} }, (begun stranger).abort e none) := by
          rw [Evidence.uploadEvidence, if_neg (by decide), if_neg (by simpa using empty)]
          exact play_bind_error evidence
        exact ⟨_, e, calms 3, outcome_driver notHttp (play_bind_error (play_bind_error body)), other⟩
  | listEvidenceForParcel =>
      exact ⟨_, e, calms 3, outcome_driver notHttp
        (play_bind_error (play_bind_error (play_bind_error evidence))), other⟩

theorem Addressed.answersNotFound_iff (malformed : UUID.parse a = none) :
    request.AnswersNotFound platform a ↔ request.Guarded := by
  constructor
  · intro answers
    by_contra unguarded
    obtain ⟨choices, e, works, ended, other⟩ :=
      @exists_other platform a request malformed unguarded
    exact not_answersNotFound (by decide) works ended (by simpa using other) answers
  · intro guarded ctx t _
    have rejects : (request.named a).serve platform ctx = _ := guarded.rejects malformed
    refine ⟨⟨_, _, outcome_throw rejects⟩, fun choices result works ended => ?_⟩
    obtain ⟨_, played, rfl⟩ := Option.map_eq_some_iff.mp ended
    rw [ServiceCall.handle, rejects] at played
    exact play_rejects works played

end Malformed

/-- **Addressing depends on the spelling** where a request looks at it, and only there: two
texts that the driver reads as one identifier get the same answer and leave the same rows
exactly where the request is blind to their spelling, and a text that names no identifier is
answered with 404 exactly where the request parses it under a guard. -/
theorem addressing_iff (platform : ServicePlatform) (request : Addressed) :
    (∀ (a b : String) (key : UUID), driverUuid a = .ok key → driverUuid b = .ok key →
      (request.SameOutcomes platform a b ↔ request.Blind a b key)) ∧
    ∀ a : String, UUID.parse a = none → (request.AnswersNotFound platform a ↔ request.Guarded) := by
  refine ⟨fun a b key read read' => ⟨fun same => ?_, fun blind => ?_⟩, fun a malformed => ?_⟩
  · exact Addressed.blind_of_sameOutcomes read read' same
  · intro ctx t choices unique
    have same : (request.named a).serve platform ctx = (request.named b).serve platform ctx :=
      Addressed.serve_spelling read read' blind
    rw [Addressed.outcome, Addressed.outcome, ServiceCall.handle, ServiceCall.handle, same]
  · exact Addressed.answersNotFound_iff malformed

theorem driverUuid_upper :
    driverUuid "0000000000000000000000000000000A" = .ok (sampleId 10) := by decide +kernel

theorem driverUuid_canonical :
    driverUuid "00000000-0000-0000-0000-00000000000a" = .ok (sampleId 10) :=
  driverUuid_str (sampleId 10)

theorem parse_plot : UUID.parse "plot 12" = none := by decide +kernel

/-- Upper case without hyphens, and a text that is no identifier at all. -/
theorem addressing_iff_upper :
    (Addressed.get.SameOutcomes servicePlatform "0000000000000000000000000000000A"
        "00000000-0000-0000-0000-00000000000a" ↔
      Addressed.get.Blind "0000000000000000000000000000000A"
        "00000000-0000-0000-0000-00000000000a" (sampleId 10)) ∧
    (Addressed.get.AnswersNotFound servicePlatform "plot 12" ↔ Addressed.get.Guarded) :=
  ⟨(addressing_iff servicePlatform .get).1 _ _ _ driverUuid_upper driverUuid_canonical,
    (addressing_iff servicePlatform .get).2 _ parse_plot⟩

/-- A reference that the canonical text of its parcel lets through fails validation in upper
case, and a geometry is asked for with an error of the driver. -/
theorem upper_not_blind :
    ¬ (Addressed.setGeometryReference (some "00000000-0000-0000-0000-00000000000b")).SameOutcomes
        servicePlatform "00000000-0000-0000-0000-00000000000a" "0000000000000000000000000000000A" ∧
      ¬ Addressed.getActiveGeometry.AnswersNotFound servicePlatform "plot 12" := by
  constructor
  · intro same
    have alike := same registrant (referringTables (sampleId 10) (sampleId 11))
      (List.replicate 4 calm) (keyedTables_unique (by simp))
    exact reference_apart (driverUuid_eq_ok driverUuid_canonical)
      (driverUuid_eq_ok driverUuid_upper) (UUID.parse_str (sampleId 11)) (by decide)
      (by decide) alike
  · obtain ⟨choices, e, works, ended, other⟩ := @Addressed.exists_other servicePlatform "plot 12"
      .getActiveGeometry parse_plot id
    exact Addressed.not_answersNotFound (by decide) works ended (by simpa using other)

end LandVault
