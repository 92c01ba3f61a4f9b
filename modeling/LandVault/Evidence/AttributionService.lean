import LandVault.Evidence.Repositories
import LandVault.Identity.Authority

/-!
# Recording and correcting attributions

`EvidenceActorAttributionService` (`app/contexts/evidence/application/attribution_service.py`)
and the two endpoints of `app/contexts/evidence/api/attribution_router.py`. A
correction walks from any row of a lineage to its head and supersedes the head; the
endpoint turns the violation of `UNIQUE(supersedes_id)` into 409, after a rollback of
its own.
-/

set_option autoImplicit false

namespace LandVault.Evidence

open Kernel Kernel.Audit Identity Library.Programs Library.ReadCommitted Python

/-! ## The service -/

def badRequest (detail : String) : PyExc := .http 400 detail

def forbidden (detail : String) : PyExc := .http 403 detail

def notFound : PyExc := .http 404 "evidence record not found"

def notFoundAttribution : PyExc := .http 404 "evidence attribution not found"

/-- `_attribution_view`. -/
structure AttributionView where
  attribution : EvidenceActorAttribution
  isActive : Bool

/-- `except ValueError as exc: raise _bad_request(str(exc))`. -/
def orBadRequest {α : Type} : Except PyExc α → Request α
  | .ok value => pure value
  | .error (.value message) => throw (badRequest message)
  | .error error => throw error

/-- `_load_evidence_in_scope`. -/
def loadEvidenceInScope (ctx : ExecutionContext) (evidenceId : String) : Request EvidenceRecordModel := do
  match ← EvidenceRepository.get evidenceId with
  | some record => if inScope ctx record.tenantId then pure record else throw notFound
  | none => throw notFound

/-- `_authorize_mutation`. -/
def authorizeMutation (ctx : ExecutionContext) (record : EvidenceRecordModel) : Request Unit := do
  match ← ParcelExistencePort.getParcelAuthority record.parcelId.str with
  | none => throw notFound
  | some authority =>
      if !inScope ctx authority.tenantId then throw notFound
      else if !canMutate ctx authority.createdBy then
        throw (forbidden ("only the evidence's parcel creator or a governance role may record or " ++
          "correct actor attribution for it"))
      else pure ()

/-- `_verify_actor_reference`. -/
def verifyActorReference (ctx : ExecutionContext) (claim : ActorClaim) : Request Unit :=
  if claim.actorReferenceKind ≠ internalPrincipal then pure ()
  else
    match claim.actorPrincipalId with
    | none => pure ()
    | some principalId =>
        if principalId = "" then pure ()
        else do
          let actorTenantId ← PrincipalTenantPort.getTenantId principalId
          if actorTenantId.isNone || actorTenantId != ctx.tenantId then
            throw (badRequest ("actor_principal_id must reference an existing principal in the " ++
              "caller's own tenant"))
          else pure ()

/-- `_MAX_LINEAGE_WALK`. -/
def maxLineageWalk : Nat := 10000

/-- The loop of `_resolve_active_head`, with the number of hops that are left. -/
def walkToHead (attributionId : String) : Nat → EvidenceActorAttribution →
    Request EvidenceActorAttribution
  | 0, _ => throw (.runtime ("attribution lineage starting at " ++ reprString attributionId ++
      " did not terminate within " ++ toString maxLineageWalk ++
      " hops — likely a data-integrity anomaly, not normal usage"))
  | hops + 1, current => do
      match ← EvidenceActorAttributionRepository.getSuccessor current.id with
      | none => pure current
      | some successor => walkToHead attributionId hops successor

/-- `_resolve_active_head`. -/
def resolveActiveHead (attributionId : String) : Request EvidenceActorAttribution := do
  match ← EvidenceActorAttributionRepository.get attributionId with
  | none => throw notFoundAttribution
  | some current => walkToHead attributionId maxLineageWalk current

/-- What `record_attribution` and `correct_attribution` do once they know the tenant,
the evidence and the row to supersede. -/
def recordNew (platform : Platform) (ctx : ExecutionContext) (claim : ActorClaim)
    (tenantId : String) (evidenceId : UUID) (supersedesId : Option UUID) (action : String)
    (lastDetail : EvidenceActorAttribution → String × Detail) : Request AttributionView := do
  let auditId ← choose fun env => env.uuid.hex
  let (newId, now) ← choose fun env => (env.uuid, env.now)
  let attribution ← orBadRequest <| EvidenceActorAttribution.new newId now claim tenantId evidenceId
    ctx.principalId (some auditId) supersedesId
  let attribution ← EvidenceActorAttributionRepository.record attribution
  let _ ← auditStaged platform ctx
    { action
      entryId := some auditId
      resourceType := "evidence_actor_attribution"
      resourceId := some attribution.id.str
      decision := some "PERMIT"
      payload := some <| .details
        [("tenant_id", .text attribution.tenantId),
         ("evidence_id", .text attribution.evidenceId.str),
         ("attribution_role", .text attribution.attributionRole),
         lastDetail attribution] }
  pure ⟨attribution, true⟩

/-- `record_attribution`. -/
def recordAttribution (platform : Platform) (ctx : ExecutionContext) (evidenceId : String)
    (claim : ActorClaim) : Request AttributionView := do
  if !truthy ctx.tenantId then
    throw (badRequest "caller has no tenant to record attribution within")
  let record ← loadEvidenceInScope ctx evidenceId
  authorizeMutation ctx record
  verifyActorReference ctx claim
  recordNew platform ctx claim record.tenantId record.evidenceId none
    "evidence.actor_attribution.recorded" fun attribution =>
      ("actor_reference_kind", .text attribution.actorReferenceKind)

/-- `correct_attribution`. -/
def correctAttribution (platform : Platform) (ctx : ExecutionContext) (attributionId : String)
    (claim : ActorClaim) : Request AttributionView := do
  if !truthy ctx.tenantId then
    throw (badRequest "caller has no tenant to correct attribution within")
  let head ← resolveActiveHead attributionId
  if !inScope ctx head.tenantId then throw notFoundAttribution
  let record ← loadEvidenceInScope ctx head.evidenceId.str
  authorizeMutation ctx record
  verifyActorReference ctx claim
  recordNew platform ctx claim head.tenantId head.evidenceId (some head.id)
    "evidence.actor_attribution.corrected" fun attribution =>
      ("supersedes_id", .text (attribution.supersedesId.map UUID.str))

/-- `list_attributions_for_evidence`. -/
def listAttributionsForEvidence (ctx : ExecutionContext) (evidenceId : String) :
    Request (List AttributionView) := do
  let _ ← loadEvidenceInScope ctx evidenceId
  let rows ← EvidenceActorAttributionRepository.listForEvidence evidenceId
  let supersededIds := rows.filterMap (·.supersedesId)
  pure ((rows.filter fun row => inScope ctx row.tenantId).map fun row =>
    ⟨row, !supersededIds.contains row.id⟩)

/-! ## The endpoints -/

/-- `_SUPERSEDES_ONCE_CONSTRAINT`. -/
def supersedesOnceConstraint : String := "uq_evidence_actor_attributions_supersedes_once"

/-- `_is_supersedes_once_violation`, of any exception. -/
def isSupersedesOnceViolation : PyExc → Bool
  | .integrity sqlstate constraint => sqlstate == "23505" && constraint == supersedesOnceConstraint
  | _ => false

/-- The answer to a correction that came too late. -/
def alreadySuperseded : PyExc :=
  .http 409 "attribution has already been superseded by another correction"

/-- `record_evidence_attribution`. -/
def recordEvidenceAttribution (platform : Platform) (ctx : ExecutionContext) (evidenceId : String)
    (claim : ActorClaim) : Request AttributionView :=
  recordAttribution platform ctx evidenceId claim

/-- `correct_evidence_attribution`. -/
def correctEvidenceAttribution (platform : Platform) (ctx : ExecutionContext)
    (attributionId : String) (claim : ActorClaim) : Request AttributionView :=
  tryCatch (correctAttribution platform ctx attributionId claim) fun error =>
    if isSupersedesOnceViolation error then do
      rollback
      throw alreadySuperseded
    else throw error

/-! ## Calls -/

/-- A call of the service. -/
inductive AttributionCall where
  | record (evidenceId : String) (claim : ActorClaim)
  | correct (attributionId : String) (claim : ActorClaim)
  | list (evidenceId : String)

/-- What a call is answered with. -/
inductive AttributionAnswer where
  | attribution (view : AttributionView)
  | attributions (views : List AttributionView)

def AttributionCall.serve (platform : Platform) (ctx : ExecutionContext) :
    AttributionCall → Request AttributionAnswer
  | .record evidenceId claim => do
      return .attribution (← recordAttribution platform ctx evidenceId claim)
  | .correct attributionId claim => do
      return .attribution (← correctAttribution platform ctx attributionId claim)
  | .list evidenceId => do return .attributions (← listAttributionsForEvidence ctx evidenceId)

end LandVault.Evidence
