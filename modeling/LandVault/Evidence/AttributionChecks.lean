import LandVault.Evidence.Attribution

/-!
# The two checks of an attribution

`EvidenceActorAttribution.new` asks whether a text is truthy, the CHECK constraints of the
table whether a column is null. The row has null where the actor's principal is an empty
text, and has the empty text of every other column. So an empty text that `new` takes for
none can be refused by the table: a review method where there was no review, or a name of
an unknown actor.
-/

set_option autoImplicit false

namespace LandVault.Evidence

open LandVault.Identity LandVault.Kernel LandVault.Python

/-- No empty text stands where the table wants null. -/
structure ActorClaim.NullsOmitted (claim : ActorClaim) : Prop where
  review : claim.reviewMethod = some "" → claim.attributionRole = reviewedBy
  unknown : claim.actorReferenceKind = unknownReference →
    claim.actorName ≠ some "" ∧ claim.actorOrganizationName ≠ some ""

/-- What `new` has checked besides the shape of the reference. -/
structure ActorClaim.Bounded (claim : ActorClaim) : Prop where
  role : claim.attributionRole ∈ attributionRoles
  kind : claim.actorReferenceKind ∈ actorReferenceKinds
  type : claim.actorType ∈ actorTypes
  review : truthy claim.reviewMethod = true → claim.attributionRole = reviewedBy

theorem ActorClaim.check_ok {claim : ActorClaim} (passed : claim.check = .ok ()) :
    claim.Bounded ∧ claim.checkReference = .ok () := by
  unfold check at passed
  split_ifs at passed with role kind type basis review
  refine ⟨⟨role, kind, type, fun given => ?_⟩, passed⟩
  by_contra other
  exact review (by simp [given, other])

theorem truthy_some {text : String} : truthy (some text) = true ↔ text ≠ "" := by
  simp [truthy_iff]

/-- A text is null in the row, or an empty text, where it is not truthy. -/
theorem not_truthy {text : Option String} :
    truthy text = false ↔ text = none ∨ text = some "" := by
  cases text with
  | none => simp [truthy]
  | some text => simp [← Bool.not_eq_true, truthy_some]

/-- The adapter turns the empty text of a principal into null. -/
theorem isSome_of_toOptionalUuid {text : Option String} {id : Option UUID}
    (read : toOptionalUuid text = .ok id) : id.isSome = truthy text := by
  unfold toOptionalUuid at read
  split at read
  · cases read
    rfl
  · rename_i text
    split at read
    · rename_i empty
      cases read
      subst empty
      rfl
    · rename_i filled
      obtain ⟨uuid, _, rfl⟩ := map_eq_ok read
      exact (truthy_some.mpr filled).symm

/-- The shape that the table demands of a row, for a claim whose shape `new` accepts. -/
theorem actorShape_iff {claim : ActorClaim} {row : EvidenceActorAttributionModel}
    (bounded : claim.Bounded) (shaped : claim.checkReference = .ok ())
    (kind : row.actorReferenceKind = claim.actorReferenceKind)
    (principal : row.actorPrincipalId.isSome = truthy claim.actorPrincipalId)
    (name : row.actorName = claim.actorName)
    (organization : row.actorOrganizationName = claim.actorOrganizationName) :
    actorShape row = true ↔
      (claim.actorReferenceKind = unknownReference →
        claim.actorName ≠ some "" ∧ claim.actorOrganizationName ≠ some "") := by
  have absent : row.actorPrincipalId.isNone = !truthy claim.actorPrincipalId := by
    rw [← principal]
    cases row.actorPrincipalId <;> rfl
  have present : ∀ text : Option String, truthy text = true → text.isSome = true := by
    intro text filled
    obtain ⟨value, rfl, _⟩ := truthy_iff.mp filled
    rfl
  unfold actorShape
  rw [kind, name, organization, principal, absent]
  unfold ActorClaim.checkReference at shaped
  have named : claim.actorReferenceKind = externalNamed ∨
      claim.actorReferenceKind = historicalAsserted →
        (([externalNamed, historicalAsserted].contains claim.actorReferenceKind &&
          !truthy claim.actorPrincipalId &&
            (claim.actorName.isSome || claim.actorOrganizationName.isSome)) = true) := by
    intro kind
    have other : claim.actorReferenceKind ≠ internalPrincipal := by
      rcases kind with kind | kind <;>
        simp [kind, externalNamed, historicalAsserted, internalPrincipal]
    rw [if_neg other, if_pos (by simpa using kind)] at shaped
    split_ifs at shaped with principal' nameless
    have given : (claim.actorName.isSome || claim.actorOrganizationName.isSome) = true := by
      by_contra absent
      simp only [Bool.not_eq_true, Bool.or_eq_false_iff, Option.isSome_eq_false_iff,
        Option.isNone_iff_eq_none] at absent
      exact nameless (by simp [absent.1, absent.2, truthy])
    have listed : [externalNamed, historicalAsserted].contains claim.actorReferenceKind = true := by
      simpa using kind
    rw [listed, given]
    simpa using principal'
  have listed := bounded.kind
  simp only [actorReferenceKinds, List.mem_cons, List.not_mem_nil, or_false] at listed
  rcases listed with internal | external | historical | unknown
  · rw [if_pos internal] at shaped
    split_ifs at shaped with principal' name'
    simp only [Bool.not_eq_true, Bool.not_eq_false'] at principal' name'
    simp [internal, principal', present _ name', internalPrincipal, unknownReference]
  · have known : claim.actorReferenceKind ≠ unknownReference := by
      simp [external, externalNamed, unknownReference]
    rw [named (.inl external)]
    simp [known]
  · have known : claim.actorReferenceKind ≠ unknownReference := by
      simp [historical, historicalAsserted, unknownReference]
    rw [named (.inr historical)]
    simp [known]
  · have other : claim.actorReferenceKind ≠ internalPrincipal := by
      simp [unknown, unknownReference, internalPrincipal]
    have unnamed : claim.actorReferenceKind ∉ [externalNamed, historicalAsserted] := by
      simp [unknown, unknownReference, externalNamed, historicalAsserted]
    rw [if_neg other, if_neg unnamed] at shaped
    split_ifs at shaped with identified
    simp only [Bool.or_eq_true, not_or, Bool.not_eq_true] at identified
    obtain ⟨⟨principal', name'⟩, organization'⟩ := identified
    have null : ∀ text : Option String, truthy text = false →
        (text.isNone = true ↔ text ≠ some "") := by
      intro text blank
      rcases not_truthy.mp blank with rfl | rfl <;> simp
    simp only [unknown, unknownReference, internalPrincipal, externalNamed, historicalAsserted,
      principal']
    simp [null _ name', null _ organization']

/-- What the constraints say together. -/
theorem checkConstraints_iff {row : EvidenceActorAttributionModel} :
    checkConstraints row = .ok () ↔ actorShape row = true ∧ row.actorType ∈ actorTypes ∧
      row.supersedesId ≠ some row.id ∧ row.actorReferenceKind ∈ actorReferenceKinds ∧
      (row.reviewMethod.isSome = true → row.attributionRole = reviewedBy) ∧
      row.attributionRole ∈ attributionRoles := by
  unfold checkConstraints
  constructor
  · intro passed
    split_ifs at passed with shape type fresh kind review role
    simp only [Bool.not_eq_true, Bool.not_eq_false', List.contains_eq_mem, decide_eq_true_eq]
      at shape type kind role
    refine ⟨shape, type, fresh, kind, fun given => ?_, role⟩
    by_contra other
    exact review (by simp [given, other])
  · rintro ⟨shape, type, fresh, kind, review, role⟩
    have within : ¬ (row.reviewMethod.isSome && row.attributionRole != reviewedBy) = true := by
      simpa using review
    rw [if_neg (by simp [shape]), if_neg (by simp [type]), if_neg fresh, if_neg (by simp [kind]),
      if_neg within, if_neg (by simp [role])]

/-- **The domain check implies the database check** exactly where no empty text stands for
none: a claim that `new` accepts, and whose row can be made, satisfies every CHECK constraint
of the table if and only if it gives no empty review method for another role than a review,
and no empty name for an unknown actor. -/
theorem accepted_passes_iff {newId : UUID} {now : DateTime} {claim : ActorClaim}
    {tenantId : String} {evidenceId : UUID} {recordedBy : String} {auditRef : Option String}
    {supersedesId : Option UUID} {attribution : EvidenceActorAttribution}
    {model : Nat → EvidenceActorAttributionModel}
    (accepted : EvidenceActorAttribution.new newId now claim tenantId evidenceId recordedBy auditRef
      supersedesId = .ok attribution)
    (made : attribution.toModel = .ok model) (startedAt : Nat) :
    checkConstraints (model startedAt) = .ok () ↔ claim.NullsOmitted := by
  obtain ⟨_, checked, accepted⟩ := bind_eq_ok accepted
  obtain ⟨bounded, shaped⟩ := ActorClaim.check_ok checked
  split at accepted
  · cases accepted
  rename_i fresh
  cases accepted
  obtain ⟨actorPrincipalId, read, made⟩ := bind_eq_ok made
  obtain ⟨recorder, _, rfl⟩ := map_eq_ok made
  rw [checkConstraints_iff,
    actorShape_iff bounded shaped rfl (isSome_of_toOptionalUuid read) rfl rfl]
  constructor
  · rintro ⟨unknown, _, _, _, review, _⟩
    exact ⟨fun empty => review (by simp [empty]), unknown⟩
  · rintro ⟨review, unknown⟩
    refine ⟨unknown, bounded.type, fresh, bounded.kind, fun given => ?_, bounded.role⟩
    obtain ⟨text, same⟩ := Option.isSome_iff_exists.mp given
    by_cases empty : text = ""
    · exact review (same.trans (congrArg some empty))
    · exact bounded.review (truthy_iff.mpr ⟨text, same, empty⟩)

/-- An unknown reviewer, whose name is left empty. -/
def emptyNameClaim : ActorClaim where
  attributionRole := reviewedBy
  actorReferenceKind := unknownReference
  actorType := "UNKNOWN"
  basis := "stamp only"
  actorName := some ""

/-- The same, but the name is not given. -/
def noNameClaim : ActorClaim := { emptyNameClaim with actorName := none }

/-- A claim that says no principal is accepted, and its row is made. -/
theorem exists_row {claim : ActorClaim} (checked : claim.check = .ok ())
    (principal : claim.actorPrincipalId = none) : ∃ attribution model,
      EvidenceActorAttribution.new ⟨1, by decide⟩ ⟨2026, 1, 1, 0, 0, 0, 0, by decide, by decide⟩
        claim "t-1" ⟨2, by decide⟩ "00000000-0000-0000-0000-000000000003" none none =
          .ok attribution ∧
      attribution.toModel = .ok model ∧
      (model 0).actorReferenceKind = claim.actorReferenceKind ∧
      (model 0).actorPrincipalId = none ∧ (model 0).actorName = claim.actorName := by
  have recorder : toUuid "00000000-0000-0000-0000-000000000003" = .ok ⟨3, by decide⟩ := by
    have parsed : UUID.parse "00000000-0000-0000-0000-000000000003" = some ⟨3, by decide⟩ := by
      decide +kernel
    rw [toUuid, parsed]
  obtain ⟨attribution, accepted, kind, principal', name, recordedBy⟩ : ∃ attribution,
      EvidenceActorAttribution.new ⟨1, by decide⟩ ⟨2026, 1, 1, 0, 0, 0, 0, by decide, by decide⟩
        claim "t-1" ⟨2, by decide⟩ "00000000-0000-0000-0000-000000000003" none none =
          .ok attribution ∧
      attribution.actorReferenceKind = claim.actorReferenceKind ∧
      attribution.actorPrincipalId = none ∧ attribution.actorName = claim.actorName ∧
      attribution.recordedBy = "00000000-0000-0000-0000-000000000003" := by
    unfold EvidenceActorAttribution.new
    rw [checked]
    exact ⟨_, rfl, rfl, principal, rfl, rfl⟩
  have made : attribution.toModel =
      (toOptionalUuid attribution.actorPrincipalId).bind fun actorPrincipalId =>
        (toUuid attribution.recordedBy).map _ := rfl
  rw [principal', recordedBy, recorder] at made
  exact ⟨attribution, _, accepted, made, kind, rfl, name⟩

theorem accepted_passes_iff_noName : ∃ attribution model,
    EvidenceActorAttribution.new ⟨1, by decide⟩ ⟨2026, 1, 1, 0, 0, 0, 0, by decide, by decide⟩
      noNameClaim "t-1" ⟨2, by decide⟩ "00000000-0000-0000-0000-000000000003" none none =
        .ok attribution ∧
    attribution.toModel = .ok model ∧
    (checkConstraints (model 0) = .ok () ↔ noNameClaim.NullsOmitted) := by
  obtain ⟨attribution, model, accepted, made, _⟩ := @exists_row noNameClaim (by rfl) rfl
  exact ⟨attribution, model, accepted, made, accepted_passes_iff accepted made 0⟩

/-- The constructor takes an empty name for none, the table does not. -/
theorem emptyName_fails : ∃ attribution model,
    EvidenceActorAttribution.new ⟨1, by decide⟩ ⟨2026, 1, 1, 0, 0, 0, 0, by decide, by decide⟩
      emptyNameClaim "t-1" ⟨2, by decide⟩ "00000000-0000-0000-0000-000000000003" none none =
        .ok attribution ∧
    attribution.toModel = .ok model ∧
    checkConstraints (model 0) =
      .error (checkViolation "ck_evidence_actor_attributions_actor_shape") := by
  obtain ⟨attribution, model, accepted, made, kind, principal, name⟩ :=
    @exists_row emptyNameClaim (by rfl) rfl
  refine ⟨attribution, model, accepted, made, ?_⟩
  have shapeless : actorShape (model 0) = false := by
    rw [actorShape, kind, principal, name]
    rfl
  rw [checkConstraints, shapeless]
  rfl

end LandVault.Evidence
