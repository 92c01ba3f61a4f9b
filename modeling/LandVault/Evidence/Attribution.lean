import LandVault.Evidence.EvidenceRecord
import LandVault.Identity.Aggregates

/-!
# Evidence attributions

The value object of `app/contexts/evidence/domain/attribution.py`, the row that
keeps it, and what the database checks of a new row (migration 0014): three
triggers that run before the row is stored, the policy of the table, the CHECK
constraints, and at the end of the statement the foreign keys. The two unique
indexes, on `id` and on `supersedes_id`, belong to the table as a whole.

Identifiers are kept as such where the source keeps their texts; `actorPrincipalId`
and `recordedBy` come from outside and are texts until a row is made.
-/

set_option autoImplicit false

namespace LandVault.Evidence

open LandVault.Identity LandVault.Kernel LandVault.Python

/-! ## The value object -/

def originatedBy : String := "ORIGINATED_BY"

def reviewedBy : String := "REVIEWED_BY"

def commissionedBy : String := "COMMISSIONED_BY"

def internalPrincipal : String := "INTERNAL_PRINCIPAL"

def externalNamed : String := "EXTERNAL_NAMED"

def historicalAsserted : String := "HISTORICAL_ASSERTED"

def unknownReference : String := "UNKNOWN"

/-- `ATTRIBUTION_ROLES`. -/
def attributionRoles : List String := [originatedBy, reviewedBy, commissionedBy]

/-- `ACTOR_REFERENCE_KINDS`. -/
def actorReferenceKinds : List String :=
  [internalPrincipal, externalNamed, historicalAsserted, unknownReference]

/-- `ACTOR_TYPES`. -/
def actorTypes : List String := ["INDIVIDUAL", "ORGANIZATION", "UNKNOWN"]

/-- What a client says about an actor: the arguments that `record_attribution` and
`correct_attribution` share. -/
structure ActorClaim where
  attributionRole : String
  actorReferenceKind : String
  actorType : String
  basis : String
  actorPrincipalId : Option String := none
  actorName : Option String := none
  actorOrganizationName : Option String := none
  reviewMethod : Option String := none

structure EvidenceActorAttribution where
  id : UUID
  tenantId : String
  evidenceId : UUID
  attributionRole : String
  actorReferenceKind : String
  actorPrincipalId : Option String
  actorName : Option String
  actorOrganizationName : Option String
  actorType : String
  basis : String
  reviewMethod : Option String
  recordedBy : String
  auditRef : Option String
  supersedesId : Option UUID
  recordedAt : Timestamp

/-- The shape that each kind of reference demands, as `new` checks it. -/
def ActorClaim.checkReference (claim : ActorClaim) : Except PyExc Unit :=
  if claim.actorReferenceKind = internalPrincipal then
    if !truthy claim.actorPrincipalId then
      .error (.value "INTERNAL_PRINCIPAL requires actor_principal_id")
    else if !truthy claim.actorName then
      .error (.value ("INTERNAL_PRINCIPAL requires an immutable actor_name snapshot — an internal " ++
        "reference adds precision, it never substitutes for the snapshot"))
    else .ok ()
  else if claim.actorReferenceKind ∈ [externalNamed, historicalAsserted] then
    if truthy claim.actorPrincipalId then
      .error (.value (claim.actorReferenceKind ++
        " must not carry a live internal principal reference"))
    else if !truthy claim.actorName && !truthy claim.actorOrganizationName then
      .error (.value (claim.actorReferenceKind ++ " requires actor_name or actor_organization_name"))
    else .ok ()
  else if truthy claim.actorPrincipalId || truthy claim.actorName ||
      truthy claim.actorOrganizationName then
    .error (.value ("UNKNOWN must not carry actor_principal_id, actor_name, or " ++
      "actor_organization_name — no identity may be fabricated for an unknown actor"))
  else .ok ()

/-- The checks of `new`, in their order; each raises `AttributionValidationError`, a
`ValueError`. -/
def ActorClaim.check (claim : ActorClaim) : Except PyExc Unit :=
  if claim.attributionRole ∉ attributionRoles then
    .error (.value ("unknown attribution_role: " ++ reprString claim.attributionRole))
  else if claim.actorReferenceKind ∉ actorReferenceKinds then
    .error (.value ("unknown actor_reference_kind: " ++ reprString claim.actorReferenceKind))
  else if claim.actorType ∉ actorTypes then
    .error (.value ("unknown actor_type: " ++ reprString claim.actorType))
  else if claim.basis = "" || isBlankText claim.basis then
    .error (.value "basis is required, including for an unknown actor")
  else if truthy claim.reviewMethod && claim.attributionRole != reviewedBy then
    .error (.value "review_method is meaningful only when attribution_role is REVIEWED_BY")
  else claim.checkReference

/-- `EvidenceActorAttribution.new`, given what `uuid4` returns and the time. -/
def EvidenceActorAttribution.new (newId : UUID) (now : DateTime) (claim : ActorClaim)
    (tenantId : String) (evidenceId : UUID) (recordedBy : String) (auditRef : Option String)
    (supersedesId : Option UUID) : Except PyExc EvidenceActorAttribution :=
  claim.check.bind fun _ =>
    if supersedesId = some newId then .error (.value "an attribution may not supersede itself")
    else .ok
      { id := newId, tenantId, evidenceId
        attributionRole := claim.attributionRole
        actorReferenceKind := claim.actorReferenceKind
        actorPrincipalId := claim.actorPrincipalId
        actorName := claim.actorName
        actorOrganizationName := claim.actorOrganizationName
        actorType := claim.actorType
        basis := claim.basis
        reviewMethod := claim.reviewMethod
        recordedBy, auditRef, supersedesId
        recordedAt := .clock now }

theorem raises_ite {α : Type} {P : PyExc → Prop} {c : Prop} [Decidable c] {x y : Except PyExc α}
    (first : ∀ e, x = .error e → P e) (second : ∀ e, y = .error e → P e) :
    ∀ e, (if c then x else y) = .error e → P e := by
  split
  · exact first
  · exact second

/-- Every error of a check is a `ValueError`. -/
theorem ActorClaim.check_error {claim : ActorClaim} {e : PyExc} (raised : claim.check = .error e) :
    ∃ message, e = .value message := by
  have raising : ∀ message e, (.error (.value message) : Except PyExc Unit) = .error e →
      ∃ message, e = .value message := fun message e raised =>
    ⟨message, (Except.error.inj raised).symm⟩
  have passing : ∀ e, (.ok () : Except PyExc Unit) = .error e → ∃ message, e = .value message :=
    fun e absurd => by cases absurd
  revert e
  unfold check checkReference
  repeat' apply raises_ite
  all_goals first | exact raising _ | exact passing

theorem EvidenceActorAttribution.new_error {newId : UUID} {now : DateTime} {claim : ActorClaim}
    {tenantId : String} {evidenceId : UUID} {recordedBy : String} {auditRef : Option String}
    {supersedesId : Option UUID} {e : PyExc}
    (raised : new newId now claim tenantId evidenceId recordedBy auditRef supersedesId = .error e) :
    ∃ message, e = .value message := by
  rcases bind_eq_error raised with failed | ⟨_, _, failed⟩
  · exact ActorClaim.check_error failed
  · split at failed
    · exact ⟨_, (Except.error.inj failed).symm⟩
    · cases failed

theorem EvidenceActorAttribution.new_eq {newId : UUID} {now : DateTime} {claim : ActorClaim}
    {tenantId : String} {evidenceId : UUID} {recordedBy : String} {auditRef : Option String}
    {supersedesId : Option UUID} {attribution : EvidenceActorAttribution}
    (accepted : new newId now claim tenantId evidenceId recordedBy auditRef supersedesId =
      .ok attribution) :
    attribution.id = newId ∧ attribution.tenantId = tenantId ∧
      attribution.evidenceId = evidenceId ∧ attribution.supersedesId = supersedesId ∧
      attribution.auditRef = auditRef := by
  obtain ⟨_, _, accepted⟩ := bind_eq_ok accepted
  split at accepted
  · cases accepted
  · cases accepted
    exact ⟨rfl, rfl, rfl, rfl, rfl⟩

/-! ## Rows -/

/-- A row of `evidence_actor_attributions`; `recordedAt` is the start of the
transaction that wrote it. -/
structure EvidenceActorAttributionModel where
  id : UUID
  tenantId : String
  evidenceId : UUID
  attributionRole : String
  actorReferenceKind : String
  actorPrincipalId : Option UUID
  actorName : Option String
  actorOrganizationName : Option String
  actorType : String
  basis : String
  reviewMethod : Option String
  recordedBy : UUID
  recordedAt : Nat
  auditRef : Option String
  supersedesId : Option UUID
  deriving DecidableEq

/-- The row that `record` makes of an attribution, for each start of its transaction. -/
def EvidenceActorAttribution.toModel (attribution : EvidenceActorAttribution) :
    Except PyExc (Nat → EvidenceActorAttributionModel) :=
  (toOptionalUuid attribution.actorPrincipalId).bind fun actorPrincipalId =>
    (toUuid attribution.recordedBy).map fun recordedBy now =>
      { id := attribution.id
        tenantId := attribution.tenantId
        evidenceId := attribution.evidenceId
        attributionRole := attribution.attributionRole
        actorReferenceKind := attribution.actorReferenceKind
        actorPrincipalId
        actorName := attribution.actorName
        actorOrganizationName := attribution.actorOrganizationName
        actorType := attribution.actorType
        basis := attribution.basis
        reviewMethod := attribution.reviewMethod
        recordedBy
        recordedAt := now
        auditRef := attribution.auditRef
        supersedesId := attribution.supersedesId }

/-- `_attribution_from_model`. -/
def EvidenceActorAttributionModel.attribution (model : EvidenceActorAttributionModel) :
    EvidenceActorAttribution :=
  { id := model.id
    tenantId := model.tenantId
    evidenceId := model.evidenceId
    attributionRole := model.attributionRole
    actorReferenceKind := model.actorReferenceKind
    actorPrincipalId := model.actorPrincipalId.map UUID.str
    actorName := model.actorName
    actorOrganizationName := model.actorOrganizationName
    actorType := model.actorType
    basis := model.basis
    reviewMethod := model.reviewMethod
    recordedBy := model.recordedBy.str
    auditRef := model.auditRef
    supersedesId := model.supersedesId
    recordedAt := .now model.recordedAt }

theorem EvidenceActorAttribution.toModel_eq {attribution : EvidenceActorAttribution}
    {model : Nat → EvidenceActorAttributionModel} (made : attribution.toModel = .ok model)
    (now : Nat) :
    (model now).id = attribution.id ∧ (model now).tenantId = attribution.tenantId ∧
      (model now).evidenceId = attribution.evidenceId ∧
      (model now).supersedesId = attribution.supersedesId ∧
      (model now).auditRef = attribution.auditRef := by
  obtain ⟨actorPrincipalId, _, made⟩ := bind_eq_ok made
  obtain ⟨recordedBy, _, rfl⟩ := map_eq_ok made
  exact ⟨rfl, rfl, rfl, rfl, rfl⟩

/-! ## What the database checks of a new row -/

/-- The name of the table, the prefix of its constraints. -/
def attributionTable : String := "evidence_actor_attributions"

/-- `evidence_actor_attributions_check_evidence_tenant`: the row's tenant is that of
the evidence it names, as far as the transaction sees evidence. -/
def checkEvidenceTenant (scope : Scope) (evidence : List EvidenceRecordModel)
    (row : EvidenceActorAttributionModel) : Except PyExc Unit :=
  let seen := evidence.filter fun record => scope.sees record.tenantId
  let evidenceTenant := (seen.find? (·.evidenceId = row.evidenceId)).map (·.tenantId)
  if evidenceTenant = some row.tenantId then .ok ()
  else .error (.database ("evidence_actor_attributions: tenant_id (" ++ row.tenantId ++
    ") must match the referenced evidence_records.tenant_id"))

/-- `evidence_actor_attributions_check_same_tenant`: a referenced principal is one of
the row's tenant, as far as the transaction sees users. -/
def checkSameTenant (scope : Scope) (users : List UserRecord)
    (row : EvidenceActorAttributionModel) : Except PyExc Unit :=
  match row.actorPrincipalId with
  | none => .ok ()
  | some actor =>
      let seen := users.filter fun user => scope.sees user.tenantId
      let principalTenant := (seen.find? (·.id = actor)).map (·.tenantId)
      if principalTenant = some row.tenantId then .ok ()
      else .error (.database ("evidence_actor_attributions: actor_principal_id must reference a " ++
        "principal in the same tenant (" ++ row.tenantId ++ ") as the attribution"))

/-- The recursive query of the cycle trigger: the pointer values that are followed
backward from those of one level, at most `depth` levels of them. A pointer need not
be the identifier of a row. -/
def ancestry (rows : List EvidenceActorAttributionModel) : Nat → List UUID → List UUID
  | 0, _ => []
  | _ + 1, [] => []
  | depth + 1, level =>
      level ++ ancestry rows depth
        (level.flatMap fun id => (rows.filter (·.id = id)).filterMap (·.supersedesId))

/-- The bound of the trigger's walk. -/
def maxCycleDepth : Nat := 10000

/-- `evidence_actor_attributions_reject_cycle`, over the rows stored before this one,
those of the same statement included. -/
def rejectCycle (scope : Scope) (rows : List EvidenceActorAttributionModel)
    (row : EvidenceActorAttributionModel) : Except PyExc Unit :=
  match row.supersedesId with
  | none => .ok ()
  | some pointer =>
      let seen := rows.filter fun stored => scope.sees stored.tenantId
      let visited := ancestry seen maxCycleDepth [pointer]
      if visited.contains row.id then
        .error (.database ("evidence_actor_attributions: supersedes_id lineage would cycle back to " ++
          row.id.str))
      else if maxCycleDepth ≤ visited.length then
        .error (.database ("evidence_actor_attributions: supersedes_id lineage exceeds the depth " ++
          "this trigger can verify (" ++ toString visited.length ++
          "); rejected rather than assumed safe"))
      else .ok ()

/-- The shape that each kind of reference demands, as the table checks it. -/
def actorShape (row : EvidenceActorAttributionModel) : Bool :=
  (row.actorReferenceKind == internalPrincipal && row.actorPrincipalId.isSome &&
    row.actorName.isSome) ||
  ([externalNamed, historicalAsserted].contains row.actorReferenceKind &&
    row.actorPrincipalId.isNone && (row.actorName.isSome || row.actorOrganizationName.isSome)) ||
  (row.actorReferenceKind == unknownReference && row.actorPrincipalId.isNone &&
    row.actorName.isNone && row.actorOrganizationName.isNone)

/-- The CHECK constraints, in the order of their names. -/
def checkConstraints (row : EvidenceActorAttributionModel) : Except PyExc Unit :=
  if !actorShape row then .error (checkViolation (name "actor_shape"))
  else if !actorTypes.contains row.actorType then
    .error (checkViolation (name "actor_type_bounded"))
  else if row.supersedesId = some row.id then
    .error (checkViolation (name "no_self_supersede"))
  else if !actorReferenceKinds.contains row.actorReferenceKind then
    .error (checkViolation (name "reference_kind_bounded"))
  else if row.reviewMethod.isSome && row.attributionRole != reviewedBy then
    .error (checkViolation (name "review_method_scoped"))
  else if !attributionRoles.contains row.attributionRole then
    .error (checkViolation (name "role_bounded"))
  else .ok ()
where
  name (constraint : String) : String := "ck_" ++ attributionTable ++ "_" ++ constraint

/-- Everything that is checked of one row before it is stored. -/
def checkNewRow (scope : Scope) (users : List UserRecord) (evidence : List EvidenceRecordModel)
    (rows : List EvidenceActorAttributionModel) (row : EvidenceActorAttributionModel) :
    Except PyExc Unit :=
  (checkEvidenceTenant scope evidence row).bind fun _ =>
    (checkSameTenant scope users row).bind fun _ =>
      (rejectCycle scope rows row).bind fun _ =>
        if scope.sees row.tenantId then checkConstraints row
        else .error (rowSecurityViolation attributionTable)

/-- The foreign keys of one row, at the end of its statement. -/
def checkForeignKeys (tenants : List String) (users : List UserRecord)
    (evidence : List EvidenceRecordModel) (rows : List EvidenceActorAttributionModel)
    (row : EvidenceActorAttributionModel) : Except PyExc Unit :=
  if row.tenantId ∉ tenants then .error (foreignKeyViolation (name "tenant_id"))
  else if row.evidenceId ∉ evidence.map (·.evidenceId) then
    .error (foreignKeyViolation (name "evidence_id"))
  else if row.actorPrincipalId.any fun actor => actor ∉ users.map (·.id) then
    .error (foreignKeyViolation (name "actor_principal_id"))
  else if row.recordedBy ∉ users.map (·.id) then
    .error (foreignKeyViolation (name "recorded_by"))
  else if row.supersedesId.any fun superseded => superseded ∉ rows.map (·.id) then
    .error (foreignKeyViolation (name "supersedes_id"))
  else .ok ()
where
  name (column : String) : String := attributionTable ++ "_" ++ column ++ "_fkey"

/-- A row that passed is in the scope of its transaction, and its walk found neither
the row itself nor its own bound. -/
theorem checkNewRow_ok {scope : Scope} {users : List UserRecord} {evidence : List EvidenceRecordModel}
    {rows : List EvidenceActorAttributionModel} {row : EvidenceActorAttributionModel}
    (passed : checkNewRow scope users evidence rows row = .ok ()) :
    checkEvidenceTenant scope evidence row = .ok () ∧ checkSameTenant scope users row = .ok () ∧
      rejectCycle scope rows row = .ok () ∧ scope.sees row.tenantId = true ∧
      checkConstraints row = .ok () := by
  obtain ⟨_, evidenceTenant, passed⟩ := bind_eq_ok passed
  obtain ⟨_, sameTenant, passed⟩ := bind_eq_ok passed
  obtain ⟨_, cycle, passed⟩ := bind_eq_ok passed
  split at passed
  · exact ⟨evidenceTenant, sameTenant, cycle, ‹_›, passed⟩
  · cases passed

/-- The triggers and the policy raise errors of their own, the rest are CHECK constraints. -/
theorem checkNewRow_error {scope : Scope} {users : List UserRecord} {evidence : List EvidenceRecordModel}
    {rows : List EvidenceActorAttributionModel} {row : EvidenceActorAttributionModel} {e : PyExc}
    (raised : checkNewRow scope users evidence rows row = .error e) :
    (∃ message, e = .database message) ∨ ∃ constraint, e = checkViolation constraint := by
  rcases bind_eq_error raised with failed | ⟨_, _, raised⟩
  · simp only [checkEvidenceTenant] at failed
    split at failed
    · cases failed
    · exact .inl ⟨_, (Except.error.inj failed).symm⟩
  rcases bind_eq_error raised with failed | ⟨_, _, raised⟩
  · unfold checkSameTenant at failed
    split at failed
    · cases failed
    · simp only at failed
      split at failed
      · cases failed
      · exact .inl ⟨_, (Except.error.inj failed).symm⟩
  rcases bind_eq_error raised with failed | ⟨_, _, raised⟩
  · unfold rejectCycle at failed
    split at failed
    · cases failed
    · simp only at failed
      split at failed
      · exact .inl ⟨_, (Except.error.inj failed).symm⟩
      · split at failed
        · exact .inl ⟨_, (Except.error.inj failed).symm⟩
        · cases failed
  split at raised
  · unfold checkConstraints at raised
    split_ifs at raised <;> exact .inr ⟨_, (Except.error.inj raised).symm⟩
  · exact .inl ⟨_, (Except.error.inj raised).symm⟩

theorem checkForeignKeys_error {tenants : List String} {users : List UserRecord}
    {evidence : List EvidenceRecordModel} {rows : List EvidenceActorAttributionModel}
    {row : EvidenceActorAttributionModel} {e : PyExc}
    (raised : checkForeignKeys tenants users evidence rows row = .error e) :
    ∃ constraint, e = foreignKeyViolation constraint := by
  unfold checkForeignKeys at raised
  split_ifs at raised <;> exact ⟨_, (Except.error.inj raised).symm⟩

/-- A row whose foreign keys hold supersedes none or a row of the table. -/
theorem checkForeignKeys_ok {tenants : List String} {users : List UserRecord}
    {evidence : List EvidenceRecordModel} {rows : List EvidenceActorAttributionModel}
    {row : EvidenceActorAttributionModel}
    (passed : checkForeignKeys tenants users evidence rows row = .ok ()) {superseded : UUID}
    (names : row.supersedesId = some superseded) : ∃ older ∈ rows, older.id = superseded := by
  unfold checkForeignKeys at passed
  split_ifs at passed with _ _ _ _ resolves
  simpa [names] using resolves

end LandVault.Evidence
