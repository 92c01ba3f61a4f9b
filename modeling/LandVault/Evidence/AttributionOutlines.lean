import LandVault.Evidence.AttributionService
import LandVault.Kernel.Outlines

/-!
# The outline of a request about attributions

Requests resolve the head of a lineage in one statement and supersede it in a later
one, without a lock in between. What they rely on is `UNIQUE(supersedes_id)`: the row
of a head that was resolved stays where it is, and a second row that supersedes it is
refused.

The outline says what a request has staged when it commits, a row and the entry about
it, and how it ends when it fails. It holds under every protocol that lets a request
store such a pair.
-/

set_option autoImplicit false

namespace LandVault.Evidence

open Identity Kernel Kernel.Audit Library.HashLinks Library.Lineage Library.Programs
open Library.ReadCommitted
open Python

/-! ## Requests -/

inductive AttributionRequest where
  | record (evidenceId : String) (claim : ActorClaim)
  | correct (attributionId : String) (claim : ActorClaim)

def AttributionRequest.handler (platform : Platform) (ctx : ExecutionContext) :
    AttributionRequest → Request AttributionView
  | .record evidenceId claim => recordEvidenceAttribution platform ctx evidenceId claim
  | .correct attributionId claim => correctEvidenceAttribution platform ctx attributionId claim

/-! ## Rows and what they supersede -/

/-- A row as its successor names it. -/
def place (row : EvidenceActorAttributionModel) : Option (UUID × String × UUID) :=
  some (row.id, row.tenantId, row.evidenceId)

/-- What a row supersedes, under its own tenant and evidence. -/
def placeBelow (row : EvidenceActorAttributionModel) : Option (UUID × String × UUID) :=
  row.supersedesId.map fun superseded => (superseded, row.tenantId, row.evidenceId)

/-! ## Competing corrections -/

/-- The violation of `UNIQUE(supersedes_id)`. -/
def supersededTwice : PyExc := uniqueViolation supersedesOnceConstraint

theorem isSupersedesOnceViolation_iff {e : PyExc} :
    isSupersedesOnceViolation e = true ↔ e = supersededTwice := by
  cases e <;> simp [isSupersedesOnceViolation, supersededTwice, uniqueViolation]

/-- An error that says nothing about competing corrections. -/
def Benign (e : PyExc) : Prop := e ≠ supersededTwice ∧ e ≠ alreadySuperseded

/-- The session wanted to supersede a row that a committed row supersedes. -/
def Lost (t : Tables) (s : DbSession) : Prop :=
  s.lastError = some supersededTwice ∧ ∃ row superseded,
    s.refused = some (.insertAttribution row) ∧ row.supersedesId = some superseded ∧
      ∃ rival ∈ t.attributions, rival.supersedesId = some superseded

theorem Lost.mono {t t' : Tables} {s : DbSession} (grows : t.attributions ⊆ t'.attributions)
    (lost : Lost t s) : Lost t' s := by
  obtain ⟨last, row, superseded, refused, names, rival, present, same⟩ := lost
  exact ⟨last, row, superseded, refused, names, rival, grows present, same⟩

/-- The actions of the two audit entries about attributions. -/
def attributionActions : List String :=
  ["evidence.actor_attribution.recorded", "evidence.actor_attribution.corrected"]

/-- The entry is about the row. -/
def Describes (entry : AuditEntry) (row : EvidenceActorAttributionModel) : Prop :=
  entry.action ∈ attributionActions ∧ row.auditRef = some entry.entryId ∧
    entry.resourceId = some row.id.str

/-- The tables after a row and the entry about it. -/
def withRow (t : Tables) (row : EvidenceActorAttributionModel) (entry : AuditLogRecord) : Tables :=
  (t.apply (.insertAttribution row)).apply (.insertAudit entry)

/-- The database has checked the row, at these tables or at earlier ones. -/
def Examined (p : Protocol Tables Write) (row : EvidenceActorAttributionModel) (t : Tables) :
    Prop :=
  ∃ t₀ scope, Relation.ReflTransGen p.evolves t₀ t ∧ p.invariant t₀ ∧ t₀.keys.Nodup ∧
    Resolves place none t₀.attributions (placeBelow row) ∧
    checkNewRow scope t₀.identityUsers t₀.evidenceRecords t₀.attributions row = .ok ()

theorem Examined.tail {p : Protocol Tables Write} {row : EvidenceActorAttributionModel}
    {t t' : Tables} (examined : Examined p row t) (evolves : p.evolves t t') :
    Examined p row t' := by
  obtain ⟨t₀, scope, earlier, checked⟩ := examined
  exact ⟨t₀, scope, earlier.tail evolves, checked⟩

/-- A protocol that requests about attributions keep: rows stay, a request may crash that
has stored nothing, and a row may be stored together with the entry about it. -/
class AttributionProtocol (p : Protocol Tables Write) : Prop where
  grows : ∀ {t t'}, p.evolves t t' → t.attributions ⊆ t'.attributions
  idle : p.crashed []
  records : ∀ {t row entry}, p.invariant t → (withRow t row entry).keys.Nodup →
    Resolves place none t.attributions (placeBelow row) → Examined p row t →
    Describes entry.entry row →
    p.invariant (withRow t row entry) ∧ p.evolves t (withRow t row entry)

section Outlines

variable {ι β : Type} [DecidableEq ι] {p : Protocol Tables Write} [AttributionProtocol p] {index : ι}
  {A : Admission ι DbStatement (Database ι) DbSession (Choice Env)} {target : Option UUID} {e : PyExc}

/-- Nothing is staged, stored or refused so far. -/
structure Clear (s : DbSession) : Prop where
  pending : s.pending = []
  durable : s.durable = []
  whole : s.broken = false
  lastError : s.lastError = none

/-- A clear session, with `F` known of the committed tables. -/
def Reading (F : Tables → Prop) : Assertion (Database ι) DbSession :=
  fun db s => (Clear s ∧ s.active = true) ∧ F db.tables

/-- A fact that a growing table keeps. -/
def Lasting (F : Tables → Prop) : Prop :=
  ∀ t t' : Tables, t.attributions ⊆ t'.attributions → F t → F t'

/-- A request of the service that fails with `e`, where it wants to supersede `target`. -/
def Failing (target : Option UUID) (e : PyExc) : Assertion (Database ι) DbSession :=
  fun db s => (s.pending = [] ∧ s.durable = []) ∧
    ((Benign e ∧ s.lastError ≠ some supersededTwice) ∨
      (e = supersededTwice ∧ target.isSome = true ∧ Lost db.tables s))

omit [DecidableEq ι] in
theorem failing_kept : Kept p engine index (Failing target e) :=
  fun _ _ _ _ _ _ _ guarantee _ failing =>
    ⟨failing.1, failing.2.imp_right fun lost => ⟨lost.1, lost.2.1, lost.2.2.mono (AttributionProtocol.grows guarantee.2)⟩⟩

omit [DecidableEq ι] in
theorem reading_resting {F : Tables → Prop} (lasting : Lasting F) :
    Resting p engine index (Reading F) where
  kept := fun _ _ _ _ _ _ _ guarantee _ reading =>
    ⟨reading.1, lasting _ _ (AttributionProtocol.grows guarantee.2) reading.2⟩
  crashes := fun _ _ reading => reading.1.1.durable ▸ AttributionProtocol.idle
  opens := by
    rintro db s tick ⟨⟨clear, active⟩, holds⟩
    simpa [active] using ⟨⟨clear, active⟩, holds⟩

omit [DecidableEq ι] in
theorem failing_of_refused {F : Tables → Prop} (db : Database ι) (s : DbSession)
    (broken : s.broken = true) (reading : Reading F db s) :
    Failing target .pendingRollback db s := by
  simp [reading.1.1.whole] at broken

/-- A refusal for another reason than a competing correction. -/
theorem failing_of_benign {db : Database ι} {s : DbSession} {w : Option Write}
    (durable : s.durable = []) (benign : Benign e) :
    Failing target e (db.release index) (s.abort e w) :=
  ⟨⟨rfl, durable⟩, .inl ⟨benign, by simpa [Session.abort] using benign.1⟩⟩

omit [AttributionProtocol p] in
theorem raise_outline {F : Tables → Prop} {Q : β → Assertion (Database ι) DbSession}
    (benign : Benign e) :
    Valid A (p.contract engine) index Q (Failing target) (Reading F) (.throw e) := by
  refine .throw fun db s _ _ reading => ⟨⟨reading.1.1.pending, reading.1.1.durable⟩, .inl ⟨benign, ?_⟩⟩
  simp [reading.1.1.lastError]

theorem benign_http {status : Nat} {detail : String} (other : status ≠ 409) :
    Benign (.http status detail) := by
  simp [Benign, supersededTwice, uniqueViolation, alreadySuperseded, other]

/-- A SELECT of a session that has no writes of its own. -/
theorem read_outline {F : Tables → Prop} {G : β → Tables → Prop}
    {answer : View Tables Memo Env → Except PyExc β} (lasting : Lasting F)
    (lasting' : ∀ b, Lasting (G b)) (errors : ∀ view e, answer view = .error e → Benign e)
    (answers : ∀ view b, answer view = .ok b → F view.tables → G b view.tables) :
    Valid A (p.contract engine) index (fun b => Reading (G b)) (Failing target) (Reading F)
      (select answer) := by
  refine select_attempted (reading_resting lasting) (fun b => (reading_resting (lasting' b)).kept)
    (fun _ => failing_kept) failing_of_refused ?_ ?_
  · rintro db s e reading (rfl | ⟨view, raised⟩)
    · exact failing_of_benign reading.1.1.durable (by simp [Benign, supersededTwice,
        uniqueViolation, alreadySuperseded])
    · exact failing_of_benign reading.1.1.durable (errors view e raised)
  · intro db s env b _ _ reading answered
    have own : engine.view db s = db.tables := by simp [Engine.view, reading.1.1.pending]
    exact ⟨reading.1, own ▸ answers _ b answered (own.symm ▸ reading.2)⟩

theorem pick_outline {F : Tables → Prop} {pick : Env → β} (lasting : Lasting F) :
    Valid A (p.contract engine) index (fun _ => Reading F) (Failing target) (Reading F)
      (choose pick) :=
  choose_outline (reading_resting lasting) fun _ => failing_kept

/-! ## The outline of a request -/

/-- The row is one of the table. -/
def Present (attribution : EvidenceActorAttribution) (t : Tables) : Prop :=
  ∃ row ∈ t.attributions, row.attribution = attribution

theorem lasting_present (attribution : EvidenceActorAttribution) : Lasting (Present attribution) :=
  fun _ _ grows ⟨row, member, same⟩ => ⟨row, grows member, same⟩

theorem loadEvidenceInScope_outline {F : Tables → Prop} (lasting : Lasting F)
    (ctx : ExecutionContext) (evidenceId : String) :
    Valid A (p.contract engine) index (fun _ => Reading F) (Failing target) (Reading F)
      (loadEvidenceInScope ctx evidenceId) := by
  refine Valid.bind (N := fun _ => Reading F) ?_ fun found => ?_
  · unfold EvidenceRepository.get
    split
    · exact .ret (.refl _)
    · exact read_outline lasting (fun _ => lasting) (fun _ _ raised => nomatch raised)
        fun _ _ _ holds => holds
  · cases found with
    | none => exact raise_outline (benign_http (by decide))
    | some record =>
        exact .ite (fun _ => .ret (.refl _)) fun _ => raise_outline (benign_http (by decide))

theorem benign_driverUuid {text : String} (raised : driverUuid text = .error e) : Benign e := by
  unfold driverUuid toUuid at raised
  grind [Benign, supersededTwice, uniqueViolation, alreadySuperseded]

theorem authorizeMutation_outline {F : Tables → Prop} (lasting : Lasting F)
    (ctx : ExecutionContext) (record : EvidenceRecordModel) :
    Valid A (p.contract engine) index (fun _ => Reading F) (Failing target) (Reading F)
      (authorizeMutation ctx record) := by
  refine Valid.bind (N := fun _ => Reading F) ?_ fun found => ?_
  · refine read_outline lasting (fun _ => lasting) ?_ fun _ _ _ holds => holds
    intro view e raised
    cases read : driverUuid record.parcelId.str with
    | ok key => simp [read, Except.map] at raised
    | error e' =>
        simp only [read, Except.map, Except.error.injEq] at raised
        exact raised ▸ benign_driverUuid read
  · cases found with
    | none => exact raise_outline (benign_http (by decide))
    | some authority =>
        exact .ite (fun _ => raise_outline (benign_http (by decide))) fun _ =>
          .ite (fun _ => raise_outline (benign_http (by decide))) fun _ => .ret (.refl _)

theorem verifyActorReference_outline {F : Tables → Prop} (lasting : Lasting F)
    (ctx : ExecutionContext) (claim : ActorClaim) :
    Valid A (p.contract engine) index (fun _ => Reading F) (Failing target) (Reading F)
      (verifyActorReference ctx claim) := by
  refine .ite (fun _ => .ret (.refl _)) fun _ => ?_
  split
  · exact .ret (.refl _)
  · refine .ite (fun _ => .ret (.refl _)) fun _ => Valid.bind (N := fun _ => Reading F) ?_ fun tenantId =>
      .ite (fun _ => raise_outline (benign_http (by decide))) fun _ => .ret (.refl _)
    unfold PrincipalTenantPort.getTenantId
    split
    · exact .ret (.refl _)
    · exact read_outline lasting (fun _ => lasting) (fun _ _ raised => nomatch raised)
        fun _ _ _ holds => holds

theorem present_of_visible {view : View Tables Memo Env} {row : EvidenceActorAttributionModel}
    (seen : row ∈ visible (·.tenantId) (·.attributions) view) :
    Present row.attribution view.tables :=
  ⟨row, List.mem_of_mem_filter seen, rfl⟩

theorem getSuccessor_outline {F : Tables → Prop} (lasting : Lasting F) (attributionId : UUID) :
    Valid A (p.contract engine) index
      (fun found => Reading fun t => F t ∧ ∀ successor ∈ found, Present successor t)
      (Failing target) (Reading F) (EvidenceActorAttributionRepository.getSuccessor attributionId) := by
  refine Valid.bind (N := fun rows => Reading fun t => F t ∧ ∀ row ∈ rows, Present row.attribution t)
    ?_ fun rows => ?_
  · refine read_outline lasting (fun rows t t' grows holds => ⟨lasting t t' grows holds.1,
      fun row member => lasting_present _ t t' grows (holds.2 row member)⟩)
      (fun _ _ raised => nomatch raised) ?_
    intro view rows answered holds
    cases answered
    exact ⟨holds, fun row member => present_of_visible (List.mem_of_mem_filter member)⟩
  · match rows with
    | [] => exact .ret fun _ _ _ _ reading => ⟨reading.1, reading.2.1, by simp⟩
    | [row] => exact .ret fun _ _ _ _ reading => ⟨reading.1, reading.2.1, by simpa using reading.2.2⟩
    | _ :: _ :: _ =>
        exact raise_outline (by simp [Benign, supersededTwice, uniqueViolation, alreadySuperseded])

/-- The head that the walk ends with is a row of the table. -/
theorem walkToHead_outline (attributionId : String) (hops : Nat)
    (current : EvidenceActorAttribution) :
    Valid A (p.contract engine) index (fun head => Reading (Present head)) (Failing target)
      (Reading (Present current)) (walkToHead attributionId hops current) := by
  induction hops generalizing current with
  | zero => exact raise_outline (by simp [Benign, supersededTwice, uniqueViolation, alreadySuperseded])
  | succ hops ih =>
      refine Valid.bind (getSuccessor_outline (lasting_present current) current.id) fun found => ?_
      cases found with
      | none => exact .ret fun _ _ _ _ reading => ⟨reading.1, reading.2.1⟩
      | some successor =>
          exact (ih successor).before fun _ _ _ _ reading => ⟨reading.1, reading.2.2 _ rfl⟩

theorem resolveActiveHead_outline {F : Tables → Prop} (lasting : Lasting F)
    (attributionId : String) :
    Valid A (p.contract engine) index (fun head => Reading (Present head)) (Failing target)
      (Reading F) (resolveActiveHead attributionId) := by
  refine Valid.bind (N := fun found => Reading fun t => ∀ current ∈ found, Present current t) ?_
    fun found => ?_
  · unfold EvidenceActorAttributionRepository.get
    split
    · exact .ret fun _ _ _ _ reading => ⟨reading.1, by simp⟩
    · refine read_outline lasting (fun found t t' grows holds current member =>
        lasting_present _ t t' grows (holds current member)) (fun _ _ raised => nomatch raised) ?_
      intro view found answered _ current member
      cases answered
      obtain ⟨row, listed, rfl⟩ := Option.map_eq_some_iff.mp member
      exact present_of_visible (List.mem_of_find?_eq_some listed)
  · cases found with
    | none => exact raise_outline (benign_http (by decide))
    | some current =>
        exact (walkToHead_outline attributionId maxLineageWalk current).before
          fun _ _ _ _ reading => ⟨reading.1, reading.2 _ rfl⟩

/-- A row with the given attribution is staged, and after it `audits` about it. -/
def Writing (p : Protocol Tables Write) (attribution : EvidenceActorAttribution)
    (audits : List AuditLogRecord) : Assertion (Database ι) DbSession :=
  fun db s => (s.durable = [] ∧ s.broken = false ∧ s.lastError = none ∧ s.active = true) ∧
    ∃ row, s.pending = .insertAttribution row :: audits.map .insertAudit ∧
      row.attribution = attribution ∧ (∀ entry ∈ audits, Describes entry.entry row) ∧
      Resolves place none db.tables.attributions (placeBelow row) ∧ Examined p row db.tables

omit [DecidableEq ι] in
theorem writing_resting (attribution : EvidenceActorAttribution) (audits : List AuditLogRecord) :
    Resting p engine index (Writing p attribution audits) where
  kept := by
    rintro _ _ _ s _ _ _ guarantee _ ⟨clear, row, staged, same, described, resolves, examined⟩
    exact ⟨clear, row, staged, same, described,
      resolves.mono (AttributionProtocol.grows guarantee.2), examined.tail guarantee.2⟩
  crashes := fun _ _ writing => writing.1.1 ▸ AttributionProtocol.idle
  opens := by
    intro db s tick writing
    simpa [writing.1.2.2.2] using writing

theorem benign_value (message : String) : Benign (.value message) := by
  simp [Benign, supersededTwice, uniqueViolation, alreadySuperseded]

theorem benign_toModel {attribution : EvidenceActorAttribution}
    (raised : attribution.toModel = .error e) : Benign e := by
  rcases bind_eq_error raised with first | ⟨_, _, rest⟩
  · obtain ⟨message, rfl⟩ := toOptionalUuid_error first
    exact benign_value message
  · obtain ⟨message, rfl⟩ := toUuid_error (map_eq_error rest)
    exact benign_value message

theorem benign_database (message : String) : Benign (.database message) := by
  simp [Benign, supersededTwice, uniqueViolation, alreadySuperseded]

theorem benign_checkViolation (constraint : String) : Benign (checkViolation constraint) := by
  simp [Benign, supersededTwice, uniqueViolation, alreadySuperseded, checkViolation]

theorem benign_foreignKeyViolation (constraint : String) :
    Benign (foreignKeyViolation constraint) := by
  simp [Benign, supersededTwice, uniqueViolation, alreadySuperseded, foreignKeyViolation]

/-- None of the checks of a new row is the unique index on `supersedes_id`. -/
theorem benign_checkNewRow {scope : Scope} {users : List UserRecord}
    {evidence : List EvidenceRecordModel} {rows : List EvidenceActorAttributionModel}
    {row : EvidenceActorAttributionModel}
    (raised : checkNewRow scope users evidence rows row = .error e) : Benign e := by
  rcases checkNewRow_error raised with ⟨message, rfl⟩ | ⟨constraint, rfl⟩
  · exact benign_database message
  · exact benign_checkViolation constraint

theorem benign_checkForeignKeys {tenants : List String} {users : List UserRecord}
    {evidence : List EvidenceRecordModel} {rows : List EvidenceActorAttributionModel}
    {row : EvidenceActorAttributionModel}
    (raised : checkForeignKeys tenants users evidence rows row = .error e) : Benign e := by
  obtain ⟨constraint, rfl⟩ := checkForeignKeys_error raised
  exact benign_foreignKeyViolation constraint

/-- What a new row of this tenant and evidence may supersede. -/
def MaySupersede (tenantId : String) (evidenceId : UUID) (target : Option UUID) (t : Tables) : Prop :=
  Resolves place none t.attributions (target.map fun superseded => (superseded, tenantId, evidenceId))

theorem lasting_maySupersede (tenantId : String) (evidenceId : UUID) :
    Lasting (MaySupersede tenantId evidenceId target) :=
  fun _ _ grows resolves => resolves.mono grows

/-- The row is staged; or a row that supersedes the same one was committed before. -/
theorem record_outline (attribution : EvidenceActorAttribution) :
    Valid A (p.contract engine) index
      (fun recorded db s => recorded.auditRef = attribution.auditRef ∧ Writing p recorded [] db s)
      (Failing attribution.supersedesId)
      (Reading (MaySupersede attribution.tenantId attribution.evidenceId attribution.supersedesId))
      (EvidenceActorAttributionRepository.record attribution) := by
  refine Valid.bind (N := fun model => fun db s => attribution.toModel = .ok model ∧
    Reading (MaySupersede attribution.tenantId attribution.evidenceId attribution.supersedesId) db s)
    (.ofExcept (fun model made _ _ _ _ reading => ⟨made, reading⟩) ?_) fun model =>
      Valid.given fun made => ?_
  · intro e raised db s _ _ reading
    exact ⟨⟨reading.1.1.pending, reading.1.1.durable⟩, .inl ⟨benign_toModel raised,
      by simp [reading.1.1.lastError]⟩⟩
  refine Valid.attempted (reading_resting (lasting_maySupersede _ _))
    (fun recorded => .and kept_of_session (writing_resting recorded []).kept)
    (fun _ => failing_kept) failing_of_refused ?_ ?_ ?_
  · intro db s env e w held _ reading raised
    have durable := reading.1.1.durable
    cases raised with
    | disconnected =>
        exact failing_of_benign durable (by simp [Benign, supersededTwice, uniqueViolation,
          alreadySuperseded, engine])
    | run raised => exact failing_of_benign durable (benign_checkNewRow (map_eq_error raised))
    | answer raised =>
        obtain ⟨_, _, same⟩ := map_eq_ok raised
        simp only [Effect.mk.injEq] at same
        exact failing_of_benign durable (benign_checkForeignKeys (map_eq_error same.2.1))
    | @violation memo answer w k wrote added present =>
        obtain ⟨_, _, same⟩ := map_eq_ok wrote
        simp only [Effect.mk.injEq, Option.some.injEq] at same
        obtain ⟨_, _, rfl⟩ := same
        have own : engine.view db s = db.tables := by simp [Engine.view, reading.1.1.pending]
        have entry : k = .attributionId (model s.startedAt).id ∨
            ∃ superseded, (model s.startedAt).supersedesId = some superseded ∧
              k = .supersedesOnce superseded := by
          simpa [engine, Write.adds, Write.rowEntries, Write.enters, eq_comm] using added
        rcases entry with rfl | ⟨superseded, names, rfl⟩
        · refine failing_of_benign durable ?_
          simp [Benign, supersededTwice, uniqueViolation, alreadySuperseded, engine, Key.index,
            supersedesOnceConstraint]
        · obtain ⟨rival, stored, same⟩ := Tables.supersedesOnce_mem_keys (own ▸ present)
          have target : attribution.supersedesId = some superseded :=
            (EvidenceActorAttribution.toModel_eq made _).2.2.2.1.symm.trans names
          exact ⟨⟨rfl, durable⟩, .inr ⟨rfl, by simp [target], rfl, _, superseded, rfl, names, rival,
            stored, same⟩⟩
  · intro db s env memo recorded _ _ _ _ _ ran
    obtain ⟨_, _, same⟩ := map_eq_ok ran
    cases congrArg Effect.write same
  · intro db s env memo recorded w _ invariant held active reading ran _
    obtain ⟨_, passed, same⟩ := map_eq_ok ran
    simp only [Effect.mk.injEq, Option.some.injEq] at same
    obtain ⟨_, answered, rfl⟩ := same
    obtain ⟨_, _, rfl⟩ := map_eq_ok answered
    obtain ⟨_, tenantId, evidenceId, supersedesId, auditRef⟩ :=
      EvidenceActorAttribution.toModel_eq made s.startedAt
    have own : engine.view db s = db.tables := by simp [Engine.view, reading.1.1.pending]
    have resolves : Resolves place none db.tables.attributions (placeBelow (model s.startedAt)) := by
      simpa [MaySupersede, placeBelow, tenantId, evidenceId, supersedesId] using reading.2
    have unique : db.tables.keys.Nodup := own ▸ held.unique
    have checked : checkNewRow s.memo.scope db.tables.identityUsers db.tables.evidenceRecords
        db.tables.attributions (model s.startedAt) = .ok () := by
      rw [← own]
      exact passed
    exact ⟨auditRef, ⟨reading.1.1.durable, reading.1.1.whole, reading.1.1.lastError, active⟩,
      model s.startedAt, by simp [reading.1.1.pending], rfl, by simp, resolves, db.tables, _, .refl,
      invariant, unique, resolves, checked⟩

/-- The staged entry joins the row. -/
theorem stage_outline (platform : Platform) (ctx : ExecutionContext) {call : AuditCall}
    {recorded : EvidenceActorAttribution} (action : call.action ∈ attributionActions) (id : UUID)
    (entryId : call.entryId = some id.hex) (auditRef : recorded.auditRef = some id.hex)
    (resourceId : call.resourceId = some recorded.id.str) :
    Valid A (p.contract engine) index (fun _ db s => ∃ entry, Writing p recorded [entry] db s)
      (Failing target) (Writing p recorded []) (auditStaged platform ctx call) := by
  refine auditStaged_attempted platform ctx call (writing_resting recorded [])
    (.exists fun entry => (writing_resting recorded [entry]).kept) (fun _ => failing_kept) ?_ ?_ ?_
  · intro db s broken writing
    simp [writing.1.2.1] at broken
  · rintro db s e w writing (rfl | ⟨message, rfl⟩ | rfl | rfl) <;>
      refine failing_of_benign writing.1.1 ?_ <;>
      simp [Benign, supersededTwice, uniqueViolation, alreadySuperseded, supersedesOnceConstraint]
  · rintro db s entry ⟨clear, row, staged, rfl, _, lasting⟩ stored
    obtain ⟨sameAction, _, sameResource, _, _, _, sameId⟩ := stored.entry
    refine ⟨entry, clear, row, by simp [staged], rfl, ?_, lasting⟩
    intro other member
    cases List.mem_singleton.mp member
    exact ⟨sameAction ▸ action, by rw [sameId id entryId]; exact auditRef, sameResource ▸ resourceId⟩

/-- A request that has recorded its row and the entry about it. -/
def Recorded (p : Protocol Tables Write) (view : AttributionView) : Assertion (Database ι) DbSession :=
  fun db s => ∃ entry, Writing p view.attribution [entry] db s

theorem recordNew_outline (platform : Platform) (ctx : ExecutionContext) (claim : ActorClaim)
    (tenantId : String) (evidenceId : UUID) {action : String}
    (lastDetail : EvidenceActorAttribution → String × Detail)
    (known : action ∈ attributionActions) :
    Valid A (p.contract engine) index (Recorded p) (Failing target)
      (Reading (MaySupersede tenantId evidenceId target))
      (recordNew platform ctx claim tenantId evidenceId target action lastDetail) := by
  have lasting : Lasting (MaySupersede tenantId evidenceId target) := lasting_maySupersede _ _
  refine Valid.bind (N := fun auditId => fun db s => (∃ id : UUID, auditId = id.hex) ∧
    Reading (MaySupersede tenantId evidenceId target) db s) ?_ fun auditId =>
      Valid.given fun ⟨id, hex⟩ => (pick_outline lasting).bind fun chosen => ?_
  · exact Valid.choose (reading_resting lasting)
      (fun _ => .and kept_of_session (reading_resting lasting).kept) (fun _ => failing_kept)
      fun _ _ env _ _ _ reading => ⟨⟨env.uuid, rfl⟩, reading⟩
  subst hex
  refine Valid.bind (N := fun attribution => fun db s =>
    (attribution.tenantId = tenantId ∧ attribution.evidenceId = evidenceId ∧
      attribution.supersedesId = target ∧ attribution.auditRef = some id.hex) ∧
      Reading (MaySupersede tenantId evidenceId target) db s)
    ?_ fun attribution => Valid.given fun fields => ?_
  · unfold orBadRequest
    split
    · rename_i attribution made
      obtain ⟨_, fields⟩ := EvidenceActorAttribution.new_eq made
      exact .ret fun _ _ _ _ reading => ⟨fields, reading⟩
    · exact raise_outline (benign_http (by decide))
    · rename_i e other raised
      obtain ⟨message, rfl⟩ := EvidenceActorAttribution.new_error raised
      exact absurd rfl (other message)
  · obtain ⟨rfl, rfl, rfl, auditRef⟩ := fields
    refine Valid.bind (N := fun recorded => fun db s => recorded.auditRef = some id.hex ∧
      Writing p recorded [] db s) ?_ fun recorded => Valid.given fun auditRef' =>
        (stage_outline platform ctx known id rfl auditRef' rfl).bind fun _ =>
          .ret fun _ _ _ _ holds => holds
    exact (record_outline attribution).after (fun recorded _ _ _ _ holds =>
      ⟨holds.1.trans auditRef, holds.2⟩) fun _ => .refl _


/-! ## The endpoints -/

/-- A request that fails with `e`, after its endpoint has translated the error. -/
def Rejecting (e : PyExc) : Assertion (Database ι) DbSession :=
  fun db s => (s.pending = [] ∧ s.durable = []) ∧
    ((Benign e ∧ s.lastError ≠ some supersededTwice) ∨
      (e = alreadySuperseded ∧ Lost db.tables s ∧ s.broken = false ∧ s.active = false))

omit [DecidableEq ι] in
theorem rejecting_kept : Kept p engine index (Rejecting e) :=
  fun _ _ _ _ _ _ _ guarantee _ rejecting =>
    ⟨rejecting.1, rejecting.2.imp_right fun lost =>
      ⟨lost.1, lost.2.1.mono (AttributionProtocol.grows guarantee.2), lost.2.2⟩⟩

/-- A session that has done nothing yet, or has only set its scope. -/
def Anything (_ : Tables) : Prop := True

theorem lasting_anything : Lasting Anything := fun _ _ _ _ => trivial

theorem recordAttribution_outline (platform : Platform) (ctx : ExecutionContext)
    (evidenceId : String) (claim : ActorClaim) :
    Valid A (p.contract engine) index (Recorded p) (Failing none) (Reading Anything)
      (recordAttribution platform ctx evidenceId claim) := by
  have lasting := lasting_anything
  refine .ite (fun _ => raise_outline (benign_http (by decide))) fun _ =>
    (loadEvidenceInScope_outline lasting ctx evidenceId).bind fun record =>
      (authorizeMutation_outline lasting ctx record).bind fun _ =>
        (verifyActorReference_outline lasting ctx claim).bind fun _ => ?_
  exact (recordNew_outline platform ctx claim _ _ _ (by simp [attributionActions])).before
    fun _ _ _ _ reading => ⟨reading.1, .inl rfl⟩

theorem correctAttribution_outline (platform : Platform) (ctx : ExecutionContext)
    (attributionId : String) (claim : ActorClaim) :
    Valid A (p.contract engine) index (Recorded p) (fun e db s => ∃ target, Failing target e db s)
      (Reading Anything) (correctAttribution platform ctx attributionId claim) := by
  have weaken : ∀ (target : Option UUID) (e : PyExc),
      (p.contract engine : Contract (postgres ι)).Entails index
        (Failing target e) (fun db s => ∃ target, Failing target e db s) :=
    fun target _ _ _ _ _ failing => ⟨target, failing⟩
  refine .ite (fun _ => (raise_outline (benign_http (by decide))).after (fun _ => .refl _)
    (weaken none)) fun _ => Valid.bind ((resolveActiveHead_outline lasting_anything attributionId).after
      (fun _ => .refl _) (weaken none)) fun head => ?_
  have lasting := lasting_present head
  refine Valid.after (Q := Recorded p) ?_ (fun _ => .refl _) (weaken (some head.id))
  refine .ite (fun _ => raise_outline (benign_http (by decide))) fun _ =>
    (loadEvidenceInScope_outline lasting ctx head.evidenceId.str).bind fun record =>
      (authorizeMutation_outline lasting ctx record).bind fun _ =>
        (verifyActorReference_outline lasting ctx claim).bind fun _ => ?_
  refine (recordNew_outline platform ctx claim _ _ _ (by simp [attributionActions])).before ?_
  rintro _ _ _ _ ⟨clear, row, stored, rfl⟩
  exact ⟨clear, .inr ⟨row, stored, rfl⟩⟩

theorem handler_outline (platform : Platform) (ctx : ExecutionContext)
    (request : AttributionRequest) :
    Valid A (p.contract engine) index (Recorded p) Rejecting (Reading Anything)
      (request.handler platform ctx) := by
  cases request with
  | record evidenceId claim =>
      refine (recordAttribution_outline platform ctx evidenceId claim).after (fun _ => .refl _) ?_
      rintro e db s _ _ ⟨clear, benign | ⟨_, impossible, _⟩⟩
      · exact ⟨clear, .inl benign⟩
      · cases impossible
  | correct attributionId claim =>
      refine (correctAttribution_outline platform ctx attributionId claim).handle fun e =>
        .ite (fun violated => ?_) fun other => ?_
      · cases isSupersedesOnceViolation_iff.mp violated
        refine Valid.bind (N := fun _ => Rejecting alreadySuperseded) ?_ fun _ => .throw (.refl _)
        refine Valid.rollback ?_ rejecting_kept (fun _ => rejecting_kept) ?_
        · rintro db s ⟨_, clear, _⟩
          exact clear.2 ▸ AttributionProtocol.idle
        · rintro db s ⟨_, clear, benign | ⟨_, _, lost⟩⟩
          · exact absurd rfl benign.1.1
          · exact ⟨⟨rfl, clear.2⟩, .inr ⟨rfl, lost, rfl, rfl⟩⟩
      · refine .throw ?_
        rintro db s _ _ ⟨_, clear, benign | ⟨rfl, _, _⟩⟩
        · exact ⟨clear, .inl benign⟩
        · exact absurd (isSupersedesOnceViolation_iff.mpr rfl) other

/-! ## The unit of work -/

/-- A request that has ended with a view. -/
def Stored (view : AttributionView) : Assertion (Database ι) DbSession :=
  fun _ s => (∃ row entry, s.durable = [.insertAttribution row, .insertAudit entry] ∧
    row.attribution = view.attribution) ∧ s.lastError = none

/-- A request that has ended with an error. -/
def Rejected (e : PyExc) : Assertion (Database ι) DbSession :=
  fun db s => s.durable = [] ∧
    ((e ≠ alreadySuperseded ∧ s.lastError ≠ some supersededTwice) ∨
      (e = alreadySuperseded ∧ Lost db.tables s))

omit [DecidableEq ι] in
theorem rejected_kept : Kept p engine index (Rejected e) :=
  fun _ _ _ _ _ _ _ guarantee _ rejected =>
    ⟨rejected.1, rejected.2.imp_right fun lost =>
      ⟨lost.1, lost.2.mono (AttributionProtocol.grows guarantee.2)⟩⟩

/-- A session before its first statement. -/
def Unused : Assertion (Database ι) DbSession := fun _ s => Clear s

theorem setConfig_outline (scope : Scope) :
    Valid A (p.contract engine) index (fun _ => Reading Anything) Rejected Unused
      (setConfig scope) := by
  refine Valid.attempted ⟨kept_of_session, ?_, ?_⟩ (fun _ => (reading_resting lasting_anything).kept)
    (fun _ => rejected_kept) ?_ ?_ ?_ ?_
  · exact fun _ _ clear => clear.durable ▸ AttributionProtocol.idle
  · rintro db s tick ⟨pending, durable, whole, lastError⟩
    refine ⟨by simpa using pending, by simpa using durable, by simpa using whole, ?_⟩
    unfold Session.opened
    split <;> exact lastError
  · intro db s broken clear
    simp [clear.whole] at broken
  · intro db s env e w _ _ clear raised
    cases raised with
    | disconnected =>
        exact ⟨clear.durable, .inl ⟨by simp [alreadySuperseded, engine], by simp [Session.abort,
          supersededTwice, uniqueViolation, engine]⟩⟩
    | run raised => cases raised
    | answer raised => cases raised
    | violation wrote _ _ => cases wrote
  · intro db s env memo b _ _ _ active clear _
    exact ⟨⟨⟨clear.pending, clear.durable, clear.whole, clear.lastError⟩, active⟩, trivial⟩
  · intro db s env memo b w _ _ _ _ _ ran
    cases ran

/-- The row and the entry become durable together. -/
theorem commit_outline (view : AttributionView) :
    Valid A (p.contract engine) index (fun _ => Stored view) Rejecting (Recorded p view)
      Kernel.commit := by
  refine Valid.commit ?_ kept_of_session (fun _ => rejecting_kept) ?_ ?_ ?_ ?_
  · rintro db s ⟨entry, clear, _⟩
    exact clear.1 ▸ AttributionProtocol.idle
  · rintro db s broken ⟨entry, clear, _⟩
    simp [clear.2.1] at broken
  · rintro db s _ idle ⟨entry, clear, _⟩
    simp [clear.2.2.2] at idle
  · rintro db s _ _ ⟨entry, clear, _⟩
    refine ⟨⟨rfl, clear.1⟩, .inl ⟨?_, ?_⟩⟩ <;>
      simp [Benign, Session.abort, engine, supersededTwice, uniqueViolation, alreadySuperseded]
  · rintro db s _ invariant held _ _
      ⟨entry, clear, row, staged, same, described, resolves, examined⟩ _
    have after : engine.view db s = withRow db.tables row entry := by
      simp [Engine.view, staged, withRow, engine]
    have records := AttributionProtocol.records invariant (after ▸ held.unique) resolves
      examined (described entry (by simp))
    exact ⟨after ▸ records.1, after ▸ records.2, ⟨row, entry, by simp [clear.1, staged], same⟩,
      clear.2.2.1⟩

/-- After an `HTTPException` there is nothing to commit. -/
theorem reject_outline (e : PyExc) :
    Valid A (p.contract engine) index (fun _ => Rejected e) Rejected (Rejecting e)
      Kernel.commit := by
  have ended : ∀ (db : Database ι) (s : DbSession), Rejecting e db s → Rejected e db s :=
    fun db s rejecting => ⟨rejecting.1.2, rejecting.2.imp (fun benign => ⟨benign.1.2, benign.2⟩)
      fun lost => ⟨lost.1, lost.2.1⟩⟩
  refine Valid.commit ?_ rejected_kept (fun _ => rejected_kept) ?_ ?_ ?_ ?_
  · exact fun db s rejecting => rejecting.1.2 ▸ AttributionProtocol.idle
  · rintro db s broken ⟨clear, benign | ⟨_, _, whole, _⟩⟩
    · exact ⟨clear.2, .inl ⟨by simp [engine, alreadySuperseded], benign.2⟩⟩
    · simp [whole] at broken
  · exact fun db s _ _ rejecting => ended db s rejecting
  · rintro db s _ active ⟨clear, _⟩
    exact ⟨clear.2, .inl ⟨by simp [engine, alreadySuperseded], by simp [Session.abort, engine,
      supersededTwice, uniqueViolation]⟩⟩
  · rintro db s _ invariant _ _ active ⟨clear, benign | ⟨_, _, _, inactive⟩⟩ _
    · have own : engine.view db s = db.tables := by simp [Engine.view, clear.1]
      exact ⟨own ▸ invariant, own ▸ p.evolves_refl _, by simp [clear.1, clear.2],
        .inl ⟨benign.1.2, benign.2⟩⟩
    · simp [inactive] at active

theorem rollback_outline (notHttp : e.isHttp = false) :
    Valid A (p.contract engine) index (fun _ => Rejected e) Rejected (Rejecting e)
      Kernel.rollback := by
  refine Valid.rollback ?_ rejected_kept (fun _ => rejected_kept) ?_
  · exact fun db s rejecting => rejecting.1.2 ▸ AttributionProtocol.idle
  · rintro db s ⟨clear, benign | ⟨rfl, _⟩⟩
    · exact ⟨clear.2, .inl ⟨benign.1.2, benign.2⟩⟩
    · cases notHttp

/-- What a request has stored, and how it ends. -/
theorem request_outline (platform : Platform) (ctx : ExecutionContext)
    (request : AttributionRequest) :
    Valid A (p.contract engine) index Stored Rejected Unused
      (getDbSession ctx (request.handler platform ctx)) :=
  getDbSession_outline_of ctx (setConfig_outline _) (handler_outline platform ctx request)
    commit_outline (fun _ _ => reject_outline _) fun _ notHttp => rollback_outline notHttp

end Outlines
end LandVault.Evidence
