import LandVault.Evidence.EvidenceService
import LandVault.Registry.Staging

/-!
# The services of the Evidence context, in a transaction that runs alone

What the repository of evidence records answers and stages. An operation answers with an
`HTTPException` of its own only before its first write; what fails later fails with
another error, after which nothing is committed.
-/

set_option autoImplicit false

namespace LandVault

open Kernel Kernel.Audit Identity Registry Evidence Library.Lineage Library.Programs
open Library.ReadCommitted Python

theorem Evidence.EvidenceRecord.toModel_notHttp {record : EvidenceRecord} {e : PyExc}
    (raised : record.toModel = .error e) : e.isHttp = false := by
  rcases bind_eq_error raised with failed | ⟨_, _, raised⟩
  · obtain ⟨message, rfl⟩ := toUuid_error failed
    rfl
  rcases bind_eq_error raised with failed | ⟨_, _, raised⟩
  · obtain ⟨message, rfl⟩ := toUuid_error failed
    rfl
  · obtain ⟨message, rfl⟩ := toOptionalUuid_error (map_eq_error raised)
    rfl

/-- A digest is refused with no `HTTPException`. -/
theorem Evidence.EvidenceRecord.markHashed_notHttp {record : EvidenceRecord} {sha256 : String}
    {e : PyExc} (raised : record.markHashed sha256 = .error e) : e.isHttp = false := by
  unfold EvidenceRecord.markHashed EvidenceRecord.ensureNotSealed at raised
  split_ifs at raised
  all_goals
    cases raised
    rfl

section Rules

variable {α β : Type} {allowed : Tables → Prop} {C : Env → Prop} {x : Transaction} {u : Tables}
  {db : Database Unit} {s : DbSession} {platform : EvidencePlatform} {ctx : ExecutionContext}

/-! ## The repository -/

theorem Staged.getEvidence (staged : Staged x u db s) (evidenceId : String) :
    Keeps allowed C (fun found db s => Staged x u db s ∧
        found = ((UUID.parse evidenceId).bind (Entity.lookup .evidence u x.scope)).map
          EvidenceRecordModel.record)
      (Failed x u) (PostgresEvidenceRepository.get evidenceId) db s := by
  unfold PostgresEvidenceRepository.get
  split
  · rename_i unparsed
    exact ⟨staged, by simp [unparsed]⟩
  · rename_i key parsed
    refine (staged.lookup .evidence key).bind ?_
    rintro found db s ⟨staged, rfl⟩
    exact ⟨staged, by simp [parsed]⟩

theorem Staged.addEvidence (staged : Staged x u db s) (record : EvidenceRecord) :
    Keeps allowed C
      (fun added db s => ∃ row, record.toModel = .ok row ∧ added = (row x.startedAt).record ∧
        evidenceMapper.foreign u (row x.startedAt) = .ok () ∧
        evidenceMapper.sees u x.scope (row x.startedAt) = true ∧
        Staged x (u.apply (.insertEvidence (row x.startedAt))) db s)
      (Failed x u) (PostgresEvidenceRepository.add record) db s := by
  refine Meets.bind (N := fun row db s => record.toModel = .ok row ∧ Staged x u db s)
    (.ofExcept (fun _ made => ⟨made, staged⟩) fun e raised => ?_) ?_
  · exact ⟨EvidenceRecord.toModel_notHttp raised, .inr staged⟩
  rintro row db s ⟨made, staged⟩
  refine (staged.add .evidence _).bind ?_
  rintro added db s ⟨⟨v, env, _, _, rfl⟩, foreign, sees, staged⟩
  exact ⟨row, made, rfl, foreign, sees, staged⟩

theorem Staged.listForParcel (staged : Staged x u db s) (parcelId : String) :
    Keeps allowed C (fun _ => Staged x u) (Failed x u)
      (PostgresEvidenceRepository.listForParcel parcelId) db s := by
  refine (staged.toUuid parcelId).bind ?_
  rintro key db s ⟨staged, _⟩
  exact (staged.selected .evidence _).bind fun _ _ _ found => found.1

/-- The columns that an update assigns to the record that it finds. -/
theorem Staged.assignEvidence (staged : Staged x u db s) (evidenceId : UUID)
    {columns : EvidenceRecordModel → Except PyExc EvidenceRecordModel}
    (errors : ∀ model e, columns model = .error e → e.isHttp = false)
    (edits : ∀ model new, columns model = .ok new → evidenceMapper.merge model new model = new) :
    Keeps allowed C
      (fun updated db s => ∃ model ∈ evidenceMapper.seen u x.scope, ∃ new,
        model.evidenceId = evidenceId ∧ columns model = .ok new ∧
        updated = EvidenceRecordModel.record new ∧
        Staged x (u.apply (.updateEvidence model new)) db s)
      (Failed x u) (PostgresEvidenceRepository.assign evidenceId columns) db s := by
  refine (staged.lookup .evidence evidenceId).bind ?_
  rintro found db s ⟨staged, answered⟩
  cases found with
  | none => exact ⟨rfl, .inr staged⟩
  | some model =>
      obtain ⟨visible, named⟩ := Entity.mem_of_lookup answered.symm
      refine (staged.ofExcept (errors model)).bind ?_
      rintro new db s ⟨staged, made⟩
      refine (staged.flush .evidence visible (edits model new made)).bind ?_
      rintro _ db s ⟨rfl, staged⟩
      exact ⟨model, visible, _, named, made, rfl, staged⟩

theorem Staged.markHashedRow (staged : Staged x u db s) (record : EvidenceRecord) :
    Keeps allowed C
      (fun _ db s => ∃ model ∈ evidenceMapper.seen u x.scope,
        model.evidenceId = record.evidenceId ∧
        Staged x (u.apply (.updateEvidence model
          { model with status := record.status, sha256 := record.sha256 })) db s)
      (Failed x u) (PostgresEvidenceRepository.markHashed record) db s := by
  refine (staged.assignEvidence record.evidenceId (fun _ _ raised => by cases raised) ?_).mono ?_
    fun _ _ _ failed => failed
  · rintro model new ⟨rfl⟩
    simp [evidenceMapper]
  · rintro _ db s ⟨model, visible, new, named, ⟨rfl⟩, _, staged⟩
    exact ⟨model, visible, named, staged⟩

theorem Staged.sealRow (staged : Staged x u db s) (record : EvidenceRecord) :
    Keeps allowed C
      (fun _ db s => ∃ model ∈ evidenceMapper.seen u x.scope,
        model.evidenceId = record.evidenceId ∧
        Staged x (u.apply (.updateEvidence model
          { model with status := record.status, wormGrade := record.wormGrade })) db s)
      (Failed x u) (PostgresEvidenceRepository.sealRecord record) db s := by
  refine (staged.assignEvidence record.evidenceId (fun _ _ raised => by cases raised) ?_).mono ?_
    fun _ _ _ failed => failed
  · rintro model new ⟨rfl⟩
    simp [evidenceMapper]
  · rintro _ db s ⟨model, visible, new, named, ⟨rfl⟩, _, staged⟩
    exact ⟨model, visible, named, staged⟩

theorem Staged.legalHoldRow (staged : Staged x u db s) (record : EvidenceRecord) :
    Keeps allowed C
      (fun _ db s => ∃ model ∈ evidenceMapper.seen u x.scope, ∃ legalHoldBy,
        model.evidenceId = record.evidenceId ∧
        Staged x (u.apply (.updateEvidence model
          { model with
            legalHold := record.legalHold
            legalHoldReason := record.legalHoldReason
            legalHoldBy })) db s)
      (Failed x u) (PostgresEvidenceRepository.setLegalHold record) db s := by
  refine (staged.assignEvidence record.evidenceId ?_ ?_).mono ?_ fun _ _ _ failed => failed
  · intro model e raised
    obtain ⟨message, rfl⟩ := toOptionalUuid_error (map_eq_error raised)
    rfl
  · intro model new made
    obtain ⟨legalHoldBy, _, rfl⟩ := map_eq_ok made
    simp [evidenceMapper]
  · rintro _ db s ⟨model, visible, new, named, made, _, staged⟩
    obtain ⟨legalHoldBy, _, rfl⟩ := map_eq_ok made
    exact ⟨model, visible, legalHoldBy, named, staged⟩

/-! ## Storage -/

theorem Failure.error_notHttp (failure : Failure) : failure.error.isHttp = false := by
  cases failure <;> rfl

theorem Staged.put (staged : Staged x u db s) :
    Keeps allowed C (fun _ => Staged x u) (Failed x u) StoragePort.put db s := by
  refine staged.choose.bind ?_
  rintro answer db s ⟨staged, _⟩
  cases answer with
  | ok => exact staged
  | error failure => exact ⟨failure.error_notHttp, .inr staged⟩

theorem Staged.fetch (staged : Staged x u db s) (storageKey : String) :
    Keeps allowed C
      (fun data db s => Staged x u db s ∧ ∃ env, C env ∧ env.content storageKey = .ok data)
      (Failed x u) (StoragePort.get storageKey) db s := by
  refine staged.choose.bind ?_
  rintro answer db s ⟨staged, env, chosen, same⟩
  cases answer with
  | ok data => exact ⟨staged, env, chosen, same.symm⟩
  | error failure => exact ⟨failure.error_notHttp, .inr staged⟩

/-! ## What a request finds -/

theorem Staged.evidenceInScope (staged : Staged x u db s) (evidenceId : String) :
    Keeps allowed C
      (fun record db s => Staged x u db s ∧ ∃ model ∈ evidenceMapper.seen u x.scope,
        UUID.parse evidenceId = some model.evidenceId ∧ inScope ctx model.tenantId = true ∧
        record = EvidenceRecordModel.record model)
      (Raising x (Unchanged u)) (Evidence.loadInScope ctx evidenceId) db s := by
  refine keeps_then (staged.getEvidence evidenceId) ?_
  rintro found db s ⟨staged, rfl⟩
  cases parsed : UUID.parse evidenceId with
  | none => exact staged.raise rfl
  | some key =>
      cases answered : Entity.lookup .evidence u x.scope key with
      | none =>
          simp only [Option.bind_some, answered]
          exact staged.raise rfl
      | some model =>
          obtain ⟨visible, rfl⟩ := Entity.mem_of_lookup answered
          simp only [Option.bind_some, answered]
          refine .ite (fun inside => ?_) fun _ => staged.raise rfl
          exact ⟨staged, model, visible, rfl, inside, rfl⟩

theorem Staged.getAuthority (staged : Staged x u db s) (parcelId : String) :
    Keeps allowed C
      (fun found db s => Staged x u db s ∧ ∃ key, UUID.parse parcelId = some key ∧
        found = (Entity.lookup .parcel u x.scope key).map fun row =>
          (⟨row.tenantId, row.createdBy.str⟩ : ParcelAuthorityInfo))
      (Failed x u) (ParcelExistencePort.getParcelAuthority parcelId) db s := by
  refine staged.peek ?_ ?_
  · rintro v e (raised | ⟨memo, w, raised⟩)
    · exact driverUuid_notHttp (map_eq_error (map_eq_error raised))
    · obtain ⟨_, _, same⟩ := map_eq_ok raised
      cases same
  · intro v env memo found w same _ _ ran
    obtain ⟨_, ran, same'⟩ := map_eq_ok ran
    obtain ⟨key, read, rfl⟩ := map_eq_ok ran
    cases same'
    refine ⟨rfl, ⟨_, rfl⟩, key, driverUuid_eq_ok read, ?_⟩
    rw [← same]
    simp only [visible, Entity.lookup, Mapper.seen, staged.scope]
    rfl

theorem Staged.parcelInScope (staged : Staged x u db s) (parcelId : String) :
    Keeps allowed C
      (fun authority db s => Staged x u db s ∧ ∃ record, Locates ctx x.scope u parcelId record ∧
        authority = ⟨record.tenantId, record.createdBy.str⟩)
      (Raising x (Unchanged u)) (Evidence.loadParcelAuthorityInScope ctx parcelId) db s := by
  refine keeps_then (staged.getAuthority parcelId) ?_
  rintro found db s ⟨staged, key, parsed, rfl⟩
  cases answered : Entity.lookup .parcel u x.scope key with
  | none => exact staged.raise rfl
  | some record =>
      obtain ⟨visible, rfl⟩ := Entity.mem_of_lookup answered
      refine .ite (fun inside => ?_) fun _ => staged.raise rfl
      exact ⟨staged, record, ⟨visible, parsed, inside⟩, rfl⟩

/-! ## The operations -/

theorem Staged.orUnrecorded (staged : Staged x u db s) (result : Except PyExc α) :
    Keeps allowed C (fun value db s => Staged x u db s ∧ result = .ok value)
      (Raising x (Unchanged u)) (Evidence.orBadRequest result) db s := by
  unfold Evidence.orBadRequest
  split
  · exact ⟨staged, rfl⟩
  · exact staged.raise rfl
  · exact staged.raise rfl

theorem Staged.orRefused (staged : Staged x u db s) (result : Except PyExc α) :
    Keeps allowed C (fun value db s => Staged x u db s ∧ result = .ok value)
      (Raising x (Unchanged u)) (Evidence.orRefused result) db s := by
  unfold Evidence.orRefused
  split
  · exact ⟨staged, rfl⟩
  · exact staged.raise rfl
  · exact staged.raise rfl
  · exact staged.raise rfl
  · exact staged.raise rfl

theorem Staged.auditRecord (staged : Staged x u db s) (action decision : String)
    (record : EvidenceRecord) (entryId : Option String) (payload : Payload) :
    Keeps allowed C (fun _ => Staged x u) (Failed x u)
      (Evidence.auditRecord platform.toPlatform ctx action decision record entryId payload) db s :=
  (staged.audit _ _ _).bind fun _ _ _ staged => staged

/-- Something is staged. -/
def Going (x : Transaction) : Assertion (Database Unit) DbSession := fun db s => ∃ u, Staged x u db s

theorem Going.ready (going : Going x db s) : Ready x (fun _ => True) db s := by
  obtain ⟨u, staged⟩ := going
  exact staged.ready trivial

theorem Staged.addRecord (staged : Staged x u db s) (parcelId : String) (upload : Upload)
    (sizeBytes : Int) (storageKey : String) :
    Keeps allowed C (fun _ => Going x) (Raising x (Unchanged u))
      (Evidence.addRecord ctx parcelId upload sizeBytes storageKey) db s := by
  refine staged.choose.bind ?_
  rintro auditId db s ⟨staged, _⟩
  refine staged.choose.bind ?_
  rintro ⟨evidenceId, now⟩ db s ⟨staged, _⟩
  refine (staged.orUnrecorded _).bind ?_
  rintro record db s ⟨staged, _⟩
  refine keeps_then (staged.addEvidence record) ?_
  rintro _ db s ⟨row, _, _, _, _, staged⟩
  exact ⟨_, staged⟩

/-- What a record's digest leaves. -/
theorem Staged.storeHash {R : PyExc → Tables → Prop} (staged : Staged x u db s)
    (record : EvidenceRecord) :
    Keeps allowed C (fun _ => Going x) (Raising x R)
      (Evidence.storeHash platform.toPlatform ctx record) db s := by
  refine keeps_then (staged.markHashedRow record) ?_
  rintro updated db s ⟨_, _, _, staged⟩
  exact keeps_then (staged.auditRecord _ _ _ _ _) fun _ db s staged => ⟨_, staged⟩

theorem Staged.uploadEvidence (staged : Staged x u db s) (parcelId : String) (upload : Upload)
    (data : List UInt8) :
    Keeps allowed C (fun _ => Going x) (Raising x (Unchanged u))
      (Evidence.uploadEvidence platform ctx parcelId upload data) db s := by
  refine .ite (fun _ => staged.raise rfl) fun _ => ?_
  refine .ite (fun _ => staged.raise rfl) fun _ => ?_
  refine (staged.parcelInScope parcelId).bind ?_
  rintro authority db s ⟨staged, _⟩
  refine .ite (fun _ => staged.audited _ fun _ _ staged => staged.raise rfl) fun _ => ?_
  refine staged.choose.bind ?_
  rintro storageKey db s ⟨staged, _⟩
  refine keeps_then staged.put fun _ db s staged => ?_
  refine (staged.addRecord parcelId upload data.length storageKey).bind ?_
  -- from here on every error is no `HTTPException`
  rintro ⟨record, auditId⟩ db s ⟨added, staged⟩
  refine keeps_then (staged.auditRecord _ _ _ _ _) fun _ db s staged => ?_
  refine keeps_then (staged.fetch storageKey) ?_
  rintro readback db s ⟨staged, _⟩
  refine .ite (fun _ => ?_) fun _ => ?_
  · refine keeps_then (staged.auditRecord _ _ _ _ _) fun _ db s staged => ?_
    exact .of_failed (u := added) ⟨rfl, .inr staged⟩
  · refine keeps_then (staged.ofExcept fun e raised => ?_) ?_
    · exact EvidenceRecord.markHashed_notHttp raised
    rintro hashed db s ⟨staged, _⟩
    exact staged.storeHash hashed

theorem Staged.recordUpload (staged : Staged x u db s) (parcelId : String) (upload : Upload)
    (sizeBytes : Int) (storageKey : String) :
    Keeps allowed C (fun _ => Going x) (Raising x (Unchanged u))
      (Evidence.recordUpload platform ctx parcelId upload sizeBytes storageKey) db s := by
  refine .ite (fun _ => staged.raise rfl) fun _ => ?_
  refine (staged.addRecord parcelId upload sizeBytes storageKey).bind ?_
  rintro ⟨record, auditId⟩ db s ⟨added, staged⟩
  exact keeps_then (staged.auditRecord _ _ _ _ _) fun _ db s staged => ⟨_, staged⟩

theorem Staged.listEvidence (staged : Staged x u db s) (parcelId : String) :
    Keeps allowed C (fun _ => Staged x u) (Raising x (Unchanged u))
      (Evidence.listEvidenceForParcel ctx parcelId) db s := by
  refine (staged.parcelInScope parcelId).bind ?_
  rintro authority db s ⟨staged, _⟩
  refine keeps_then (staged.listForParcel parcelId) fun _ _ _ staged => staged

theorem Staged.markHashed (staged : Staged x u db s) (evidenceId sha256 : String) :
    Keeps allowed C (fun _ => Going x) (Raising x (Unchanged u))
      (Evidence.markHashed platform ctx evidenceId sha256) db s := by
  refine (staged.evidenceInScope evidenceId).bind ?_
  rintro record db s ⟨staged, _⟩
  refine (staged.orRefused _).bind ?_
  rintro hashed db s ⟨staged, _⟩
  exact staged.storeHash hashed

theorem Staged.sealEvidence (staged : Staged x u db s) (evidenceId wormGrade : String) :
    Keeps allowed C (fun _ => Going x) (Raising x (Unchanged u))
      (Evidence.sealEvidence platform ctx evidenceId wormGrade) db s := by
  refine (staged.evidenceInScope evidenceId).bind ?_
  rintro record db s ⟨staged, _⟩
  refine (staged.orRefused _).bind ?_
  rintro sealed db s ⟨staged, _⟩
  refine keeps_then (staged.sealRow sealed) ?_
  rintro _ db s ⟨_, _, _, staged⟩
  exact keeps_then (staged.auditRecord _ _ _ _ _) fun _ db s staged => ⟨_, staged⟩

theorem Staged.applyLegalHold (staged : Staged x u db s) (evidenceId reason : String) :
    Keeps allowed C (fun _ => Going x) (Raising x (Unchanged u))
      (Evidence.applyLegalHold platform ctx evidenceId reason) db s := by
  refine (staged.evidenceInScope evidenceId).bind ?_
  rintro record db s ⟨staged, _⟩
  refine (staged.orUnrecorded _).bind ?_
  rintro held db s ⟨staged, _⟩
  refine keeps_then (staged.legalHoldRow held) ?_
  rintro _ db s ⟨_, _, _, _, staged⟩
  exact keeps_then (staged.auditRecord _ _ _ _ _) fun _ db s staged => ⟨_, staged⟩

theorem Staged.releaseLegalHold (staged : Staged x u db s) (evidenceId : String) :
    Keeps allowed C (fun _ => Going x) (Raising x (Unchanged u))
      (Evidence.releaseLegalHold platform ctx evidenceId) db s := by
  refine (staged.evidenceInScope evidenceId).bind ?_
  rintro record db s ⟨staged, _⟩
  refine keeps_then (staged.legalHoldRow _) ?_
  rintro _ db s ⟨_, _, _, _, staged⟩
  exact keeps_then (staged.auditRecord _ _ _ _ _) fun _ db s staged => ⟨_, staged⟩

theorem Staged.collects (staged : Staged x u db s) (request : EvidenceRequest) :
    Keeps allowed C (fun _ => Ready x fun _ => True) (Raising x (Unchanged u))
      (request.serve platform ctx) db s := by
  cases request with
  | upload parcelId upload data =>
      exact (staged.uploadEvidence parcelId upload data).bind fun _ _ _ going => going.ready
  | recordUpload parcelId upload sizeBytes storageKey =>
      exact (staged.recordUpload parcelId upload sizeBytes storageKey).bind fun _ _ _ going =>
        going.ready
  | get evidenceId =>
      exact (staged.evidenceInScope evidenceId).bind fun _ _ _ found => found.1.ready trivial
  | listForParcel parcelId =>
      exact (staged.listEvidence parcelId).bind fun _ _ _ staged => staged.ready trivial
  | markHashed evidenceId sha256 =>
      exact (staged.markHashed evidenceId sha256).bind fun _ _ _ going => going.ready
  | sealRecord evidenceId wormGrade =>
      exact (staged.sealEvidence evidenceId wormGrade).bind fun _ _ _ going => going.ready
  | applyLegalHold evidenceId reason =>
      exact (staged.applyLegalHold evidenceId reason).bind fun _ _ _ going => going.ready
  | releaseLegalHold evidenceId =>
      exact (staged.releaseLegalHold evidenceId).bind fun _ _ _ going => going.ready

end Rules
end LandVault
