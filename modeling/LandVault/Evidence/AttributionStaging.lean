import LandVault.Evidence.Staging

/-!
# The service of attributions, in a transaction that runs alone

The walk to the head of a lineage reads only. A row and its audit entry are staged after
all checks, so an `HTTPException` of the service leaves nothing.
-/

set_option autoImplicit false

namespace LandVault

open Kernel Kernel.Audit Identity Registry Evidence Library.Lineage Library.Programs
open Library.ReadCommitted Python

section Rules

variable {α β : Type} {allowed : Tables → Prop} {C : Env → Prop} {x : Transaction} {u : Tables}
  {db : Database Unit} {s : DbSession} {platform : Platform} {ctx : ExecutionContext}

/-! ## Statements -/

/-- A statement that answers and notes nothing. -/
theorem Staged.selects (staged : Staged x u db s) {answer : View Tables Memo Env → Except PyExc β}
    (errors : ∀ v e, answer v = .error e → e.isHttp = false) :
    Keeps allowed C (fun _ => Staged x u) (Failed x u) (LandVault.select answer) db s := by
  refine (staged.peek (G := fun _ => True) ?_ ?_).mono (fun _ _ _ found => found.1)
    fun _ _ _ failed => failed
  · rintro v e (raised | ⟨memo, w, raised⟩)
    · exact errors _ _ (map_eq_error raised)
    · obtain ⟨_, _, same⟩ := map_eq_ok raised
      cases same
  · intro v env memo b w _ _ _ ran
    obtain ⟨_, _, same⟩ := map_eq_ok ran
    cases same
    exact ⟨rfl, ⟨_, rfl⟩, trivial⟩

/-- A staged audit entry changes no record. -/
theorem Staged.auditStaged (staged : Staged x u db s) (call : AuditCall) :
    Keeps allowed C (fun _ => Staged x u) (Failed x u) (Kernel.auditStaged platform ctx call)
      db s := by
  refine (staged.selects fun _ _ raised => by cases raised).bind fun prevHash db s staged => ?_
  refine staged.choose.bind ?_
  rintro ⟨uuid4, now⟩ db s ⟨staged, _⟩
  have stored : Keeps allowed C (fun (_ : Unit) => Staged x u) (Failed x u)
      (.perform (.query fun view =>
        (storedRecord platform (buildEntry platform.sha256 ctx call prevHash uuid4 now)
          view.env.uuid).map fun record =>
            { memo := view.memo, answer := .ok (), write := some (.insertAudit record) })) db s := by
    refine (staged.query (F := fun e => e.isHttp = false) (G := fun _ u' => u' = u)
      ?_ ?_ ?_).mono ?_ fun _ _ _ failed => failed
    · intro v env e w _ raised
      cases raised with
      | disconnected => rfl
      | run raised => exact storedRecord_notHttp (map_eq_error raised)
      | answer raised =>
          obtain ⟨_, _, same⟩ := map_eq_ok raised
          cases same
      | violation => rfl
    · intro v env memo b _ _ _ ran
      obtain ⟨_, _, same⟩ := map_eq_ok ran
      cases same
    · intro v env memo b w same _ _ ran
      obtain ⟨row, _, made⟩ := map_eq_ok ran
      cases made
      rw [Tables.records_insertAudit, same]
      exact ⟨staged.scope, staged.within, rfl⟩
    · rintro _ db s ⟨_, after, rfl⟩
      exact after
  exact stored.bind fun _ _ _ staged => staged

/-! ## The repositories -/

theorem Staged.getEvidenceRow (staged : Staged x u db s) (evidenceId : String) :
    Keeps allowed C (fun _ => Staged x u) (Failed x u) (EvidenceRepository.get evidenceId) db s := by
  unfold EvidenceRepository.get
  split
  · exact staged
  · exact staged.selects fun _ _ raised => by cases raised

theorem Staged.getAttribution (staged : Staged x u db s) (attributionId : String) :
    Keeps allowed C (fun _ => Staged x u) (Failed x u)
      (EvidenceActorAttributionRepository.get attributionId) db s := by
  unfold EvidenceActorAttributionRepository.get
  split
  · exact staged
  · exact staged.selects fun _ _ raised => by cases raised

theorem Staged.getSuccessor (staged : Staged x u db s) (attributionId : UUID) :
    Keeps allowed C (fun _ => Staged x u) (Failed x u)
      (EvidenceActorAttributionRepository.getSuccessor attributionId) db s := by
  refine (staged.selects fun _ _ raised => by cases raised).bind fun rows db s staged => ?_
  split
  · exact staged
  · exact staged
  · exact ⟨rfl, .inr staged⟩

theorem Staged.listAttributions (staged : Staged x u db s) (evidenceId : String) :
    Keeps allowed C (fun _ => Staged x u) (Failed x u)
      (EvidenceActorAttributionRepository.listForEvidence evidenceId) db s := by
  refine (staged.toUuid evidenceId).bind ?_
  rintro key db s ⟨staged, _⟩
  exact (staged.selects fun _ _ raised => by cases raised).bind fun _ _ _ staged => staged

theorem Staged.getTenantId (staged : Staged x u db s) (principalId : String) :
    Keeps allowed C (fun _ => Staged x u) (Failed x u) (PrincipalTenantPort.getTenantId principalId)
      db s := by
  unfold PrincipalTenantPort.getTenantId
  split
  · exact staged
  · exact staged.selects fun _ _ raised => by cases raised

/-- The row that was recorded, as far as it matters here. -/
theorem Staged.recordAttributionRow (staged : Staged x u db s)
    (attribution : EvidenceActorAttribution) :
    Keeps allowed C (fun _ => Going x) (Failed x u)
      (EvidenceActorAttributionRepository.record attribution) db s := by
  refine (staged.ofExcept fun e raised => ?_).bind ?_
  · rcases bind_eq_error raised with failed | ⟨_, _, failed⟩
    · obtain ⟨message, rfl⟩ := toOptionalUuid_error failed
      rfl
    · obtain ⟨message, rfl⟩ := toUuid_error (map_eq_error failed)
      rfl
  rintro model db s ⟨staged, _⟩
  refine (staged.stage (G := fun _ _ => True) ?_ ?_).mono ?_ fun _ _ _ failed => failed
  · rintro v e (raised | ⟨memo, w, raised⟩)
    · rcases checkNewRow_error (map_eq_error raised) with ⟨message, rfl⟩ | ⟨constraint, rfl⟩ <;> rfl
    · obtain ⟨_, _, same⟩ := map_eq_ok raised
      simp only [Effect.mk.injEq] at same
      obtain ⟨constraint, rfl⟩ := checkForeignKeys_error (map_eq_error same.2.1)
      rfl
  · intro v env memo b w _ _ _ ran
    obtain ⟨_, _, same⟩ := map_eq_ok ran
    simp only [Effect.mk.injEq] at same
    obtain ⟨rfl, _, rfl⟩ := same
    exact ⟨rfl, _, rfl, ⟨fun e _ => by cases e <;> rfl, fun _ => rfl⟩, trivial⟩
  · rintro _ db s ⟨w, _, staged⟩
    exact ⟨_, staged⟩

/-! ## The service -/

theorem Staged.loadEvidenceInScope (staged : Staged x u db s) (evidenceId : String) :
    Keeps allowed C (fun _ => Staged x u) (Raising x (Unchanged u))
      (Evidence.loadEvidenceInScope ctx evidenceId) db s := by
  refine keeps_then (staged.getEvidenceRow evidenceId) fun found db s staged => ?_
  split
  · exact .ite (fun _ => staged) fun _ => staged.raise rfl
  · exact staged.raise rfl

theorem Staged.authorizeAttribution (staged : Staged x u db s) (record : EvidenceRecordModel) :
    Keeps allowed C (fun _ => Staged x u) (Raising x (Unchanged u))
      (Evidence.authorizeMutation ctx record) db s := by
  refine keeps_then (staged.getAuthority record.parcelId.str) ?_
  rintro found db s ⟨staged, _⟩
  split
  · exact staged.raise rfl
  · refine .ite (fun _ => staged.raise rfl) fun _ => ?_
    exact .ite (fun _ => staged.raise rfl) fun _ => staged

theorem Staged.verifyActorReference (staged : Staged x u db s) (claim : ActorClaim) :
    Keeps allowed C (fun _ => Staged x u) (Raising x (Unchanged u))
      (Evidence.verifyActorReference ctx claim) db s := by
  refine .ite (fun _ => staged) fun _ => ?_
  split
  · exact staged
  · refine .ite (fun _ => staged) fun _ => ?_
    refine keeps_then (staged.getTenantId _) fun actorTenantId db s staged => ?_
    exact .ite (fun _ => staged.raise rfl) fun _ => staged

theorem Staged.walkToHead (staged : Staged x u db s) (attributionId : String) (hops : Nat)
    (current : EvidenceActorAttribution) :
    Keeps allowed C (fun _ => Staged x u) (Failed x u)
      (Evidence.walkToHead attributionId hops current) db s := by
  induction hops generalizing current db s with
  | zero => exact ⟨rfl, .inr staged⟩
  | succ hops ih =>
      refine (staged.getSuccessor current.id).bind fun successor db s staged => ?_
      cases successor with
      | none => exact staged
      | some successor => exact ih staged successor

theorem Staged.resolveActiveHead (staged : Staged x u db s) (attributionId : String) :
    Keeps allowed C (fun _ => Staged x u) (Raising x (Unchanged u))
      (Evidence.resolveActiveHead attributionId) db s := by
  refine keeps_then (staged.getAttribution attributionId) fun found db s staged => ?_
  cases found with
  | none => exact staged.raise rfl
  | some current =>
      exact (staged.walkToHead attributionId maxLineageWalk current).mono
        (fun _ _ _ staged => staged) fun _ _ _ failed => .of_failed failed

theorem Staged.recordNew (staged : Staged x u db s) (claim : ActorClaim) (tenantId : String)
    (evidenceId : UUID) (supersedesId : Option UUID) (action : String)
    (lastDetail : EvidenceActorAttribution → String × Detail) :
    Keeps allowed C (fun _ => Going x) (Raising x (Unchanged u))
      (Evidence.recordNew platform ctx claim tenantId evidenceId supersedesId action lastDetail)
      db s := by
  refine staged.choose.bind ?_
  rintro auditId db s ⟨staged, _⟩
  refine staged.choose.bind ?_
  rintro ⟨newId, now⟩ db s ⟨staged, _⟩
  refine (staged.orUnrecorded _).bind ?_
  rintro attribution db s ⟨staged, _⟩
  refine keeps_then (staged.recordAttributionRow attribution) ?_
  rintro recorded db s ⟨written, staged⟩
  exact keeps_then (staged.auditStaged _) fun _ db s staged => ⟨written, staged⟩

theorem Staged.recordAttribution (staged : Staged x u db s) (evidenceId : String)
    (claim : ActorClaim) :
    Keeps allowed C (fun _ => Going x) (Raising x (Unchanged u))
      (Evidence.recordAttribution platform ctx evidenceId claim) db s := by
  refine .ite (fun _ => staged.raise rfl) fun _ => ?_
  refine (staged.loadEvidenceInScope evidenceId).bind fun record db s staged => ?_
  refine (staged.authorizeAttribution record).bind fun _ db s staged => ?_
  refine (staged.verifyActorReference claim).bind fun _ db s staged => ?_
  exact staged.recordNew _ _ _ _ _ _

theorem Staged.correctAttribution (staged : Staged x u db s) (attributionId : String)
    (claim : ActorClaim) :
    Keeps allowed C (fun _ => Going x) (Raising x (Unchanged u))
      (Evidence.correctAttribution platform ctx attributionId claim) db s := by
  refine .ite (fun _ => staged.raise rfl) fun _ => ?_
  refine (staged.resolveActiveHead attributionId).bind fun head db s staged => ?_
  refine .ite (fun _ => staged.raise rfl) fun _ => ?_
  refine (staged.loadEvidenceInScope _).bind fun record db s staged => ?_
  refine (staged.authorizeAttribution record).bind fun _ db s staged => ?_
  refine (staged.verifyActorReference claim).bind fun _ db s staged => ?_
  exact staged.recordNew _ _ _ _ _ _

theorem Staged.listAttributionsForEvidence (staged : Staged x u db s) (evidenceId : String) :
    Keeps allowed C (fun _ => Staged x u) (Raising x (Unchanged u))
      (Evidence.listAttributionsForEvidence ctx evidenceId) db s := by
  refine (staged.loadEvidenceInScope evidenceId).bind fun record db s staged => ?_
  exact keeps_then (staged.listAttributions evidenceId) fun rows db s staged => staged

theorem Staged.attributes (staged : Staged x u db s) (call : AttributionCall) :
    Keeps allowed C (fun _ => Ready x fun _ => True) (Raising x (Unchanged u))
      (call.serve platform ctx) db s := by
  cases call with
  | record evidenceId claim =>
      exact (staged.recordAttribution evidenceId claim).bind fun _ _ _ going => going.ready
  | correct attributionId claim =>
      exact (staged.correctAttribution attributionId claim).bind fun _ _ _ going => going.ready
  | list evidenceId =>
      exact (staged.listAttributionsForEvidence evidenceId).bind fun _ _ _ staged =>
        staged.ready trivial

end Rules
end LandVault
