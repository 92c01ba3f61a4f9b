import LandVault.Identity.Requests
import LandVault.Transactions

/-!
# The repositories of the Identity context, in a transaction that runs alone

What each operation answers and stages, over the tables that the transaction sees. An
update names the row that it found: in one transaction that is the row that an earlier
statement has answered.
-/

set_option autoImplicit false

namespace LandVault

open Kernel Identity Library.Programs Library.ReadCommitted Python

section Rules

variable {allowed : Tables → Prop} {C : Env → Prop} {x : Transaction} {u : Tables}
  {db : Database Unit} {s : DbSession}

/-! ## Finding a row -/

/-- The row of an identifier that is given as a text. -/
theorem Staged.getUser (staged : Staged x u db s) (userId : String) :
    Keeps allowed C (fun found db s => Staged x u db s ∧
        found = (UUID.parse userId).bind (Entity.lookup .user u x.scope))
      (Failed x u) (UserRepository.get userId) db s := by
  unfold UserRepository.get
  split
  · rename_i unparsed
    exact ⟨staged, by simp [unparsed]⟩
  · rename_i key parsed
    rw [parsed]
    exact staged.lookup .user key

theorem Staged.getInvitation (staged : Staged x u db s) (invitationId : String) :
    Keeps allowed C (fun found db s => Staged x u db s ∧
        found = (UUID.parse invitationId).bind (Entity.lookup .invitation u x.scope))
      (Failed x u) (InvitationRepository.get invitationId) db s := by
  unfold InvitationRepository.get
  split
  · rename_i unparsed
    exact ⟨staged, by simp [unparsed]⟩
  · rename_i key parsed
    rw [parsed]
    exact staged.lookup .invitation key

theorem Staged.getDelegation (staged : Staged x u db s) (delegationId : String) :
    Keeps allowed C (fun found db s => Staged x u db s ∧
        found = ((UUID.parse delegationId).bind (Entity.lookup .delegation u x.scope)).map
          DelegationRecord.delegation)
      (Failed x u) (DelegationRepository.get delegationId) db s := by
  unfold DelegationRepository.get
  split
  · rename_i unparsed
    exact ⟨staged, by simp [unparsed]⟩
  · rename_i key parsed
    refine (staged.lookup .delegation key).bind ?_
    rintro found db s ⟨staged, rfl⟩
    exact ⟨staged, by simp [parsed]⟩

/-- The user with an email. -/
theorem Staged.getByEmail (staged : Staged x u db s) (lower : String → String) (email : String) :
    Keeps allowed C
      (fun found db s => Staged x u db s ∧
        (userMapper.seen u x.scope).filter (·.email = lower (stripText email)) = found.toList)
      (Failed x u) (UserRepository.getByEmail lower email) db s := by
  refine (staged.ofExcept fun e raised => ?_).bind fun _ db s staged =>
    staged.1.scalarOneOrNone .user _
  exact notHttp_of_isRefusal (isRefusal_of_bindTexts raised)

/-! ## Listing rows -/

theorem Staged.listInvitations (staged : Staged x u db s) (tenantId : String) :
    Keeps allowed C (fun _ => Staged x u) (Failed x u) (InvitationRepository.listForTenant tenantId)
      db s :=
  (staged.selected .invitation _).bind fun _ _ _ found => found.1

theorem Staged.listTenants (staged : Staged x u db s) :
    Keeps allowed C (fun _ => Staged x u) (Failed x u) TenantRepository.listAll db s :=
  (staged.selected .tenant _).bind fun _ _ _ found => found.1

theorem Staged.listDelegations (staged : Staged x u db s) (tenantId : String) :
    Keeps allowed C
      (fun found db s => Staged x u db s ∧ found =
        (newestFirst (·.createdAt)
          ((delegationMapper.seen u x.scope).filter (·.tenantId = tenantId))).map
            DelegationRecord.delegation)
      (Failed x u) (DelegationRepository.listForTenant tenantId) db s := by
  refine (staged.selected .delegation _).bind ?_
  rintro records db s ⟨staged, rfl⟩
  exact ⟨staged, rfl⟩

/-! ## Changing a row -/

theorem Staged.updateUser (staged : Staged x u db s) (user : UserRecord) (expectedVersion : Int) :
    Keeps allowed C
      (fun updated db s => ∃ record ∈ userMapper.seen u x.scope, record.id = user.id ∧
        record.version = expectedVersion ∧
        updated =
          { record with
            roles := user.roles
            accountStatus := user.accountStatus
            suspensionReason := user.suspensionReason
            lastLoginAt := user.lastLoginAt
            updatedAt := user.updatedAt
            version := expectedVersion + 1 } ∧
        Staged x (u.apply (.updateUser record updated)) db s)
      (Failed x u) (UserRepository.update user expectedVersion) db s := by
  refine (staged.lookup .user user.id).bind ?_
  rintro found db s ⟨staged, answered⟩
  cases found with
  | none => exact ⟨rfl, .inr staged⟩
  | some record =>
      obtain ⟨visible, named⟩ := Entity.mem_of_lookup answered.symm
      refine .ite (fun _ => ⟨rfl, .inr staged⟩) fun current => ?_
      refine (staged.flush .user visible ?_).mono ?_ fun _ _ _ failed => failed
      · simp [Entity.mapper, userMapper]
      · rintro updated db s ⟨rfl, staged⟩
        exact ⟨record, visible, named, by simpa using current, rfl, staged⟩

theorem Staged.updateSession (staged : Staged x u db s) (session : SessionRecord) :
    Keeps allowed C
      (fun updated db s => ∃ record ∈ sessionMapper.seen u x.scope, record.id = session.id ∧
        updated =
          { record with
            status := session.status
            revokedAt := session.revokedAt
            revokedReason := session.revokedReason } ∧
        Staged x (u.apply (.updateSession record updated)) db s)
      (Failed x u) (SessionRepository.update session) db s := by
  refine (staged.lookup .session session.id).bind ?_
  rintro found db s ⟨staged, answered⟩
  cases found with
  | none => exact ⟨rfl, .inr staged⟩
  | some record =>
      obtain ⟨visible, named⟩ := Entity.mem_of_lookup answered.symm
      refine (staged.flush .session visible ?_).mono ?_ fun _ _ _ failed => failed
      · simp [Entity.mapper, sessionMapper]
      · rintro updated db s ⟨rfl, staged⟩
        exact ⟨record, visible, named, rfl, staged⟩

theorem Staged.updateInvitation (staged : Staged x u db s) (invitation : InvitationRecord) :
    Keeps allowed C
      (fun updated db s => ∃ record ∈ invitationMapper.seen u x.scope, record.id = invitation.id ∧
        updated =
          { record with
            status := invitation.status
            acceptedAt := invitation.acceptedAt
            revokedAt := invitation.revokedAt } ∧
        Staged x (u.apply (.updateInvitation record updated)) db s)
      (Failed x u) (InvitationRepository.update invitation) db s := by
  refine (staged.lookup .invitation invitation.id).bind ?_
  rintro found db s ⟨staged, answered⟩
  cases found with
  | none => exact ⟨rfl, .inr staged⟩
  | some record =>
      obtain ⟨visible, named⟩ := Entity.mem_of_lookup answered.symm
      refine (staged.flush .invitation visible ?_).mono ?_ fun _ _ _ failed => failed
      · simp [Entity.mapper, invitationMapper]
      · rintro updated db s ⟨rfl, staged⟩
        exact ⟨record, visible, named, rfl, staged⟩

theorem Staged.updateTenant (staged : Staged x u db s) (tenant : TenantRecord) :
    Keeps allowed C
      (fun updated db s => ∃ record ∈ tenantMapper.seen u x.scope, record.id = tenant.id ∧
        updated.id = record.id ∧ updated.status = tenant.status ∧
        Staged x (u.apply (.updateTenant record updated)) db s)
      (Failed x u) (TenantRepository.update tenant) db s := by
  refine (staged.lookup .tenant tenant.id).bind ?_
  rintro found db s ⟨staged, answered⟩
  cases found with
  | none => exact ⟨rfl, .inr staged⟩
  | some record =>
      obtain ⟨visible, named⟩ := Entity.mem_of_lookup answered.symm
      refine (staged.flush .tenant visible ?_).mono ?_ fun _ _ _ failed => failed
      · simp [Entity.mapper, tenantMapper]
      · rintro updated db s ⟨rfl, staged⟩
        exact ⟨record, visible, named, rfl, rfl, staged⟩

theorem Staged.updateDelegation (staged : Staged x u db s) (delegation : Delegation) :
    Keeps allowed C
      (fun updated db s => ∃ record ∈ delegationMapper.seen u x.scope, ∃ new : DelegationRecord,
        record.id = delegation.id ∧ updated = new.delegation ∧ new.id = record.id ∧
        new.tenantId = record.tenantId ∧ new.delegatorUserId = record.delegatorUserId ∧
        new.delegateUserId = record.delegateUserId ∧
        new.delegatedRoles = record.delegatedRoles ∧
        Staged x (u.apply (.updateDelegation record new)) db s)
      (Failed x u) (DelegationRepository.update delegation) db s := by
  refine (staged.lookup .delegation delegation.id).bind ?_
  rintro found db s ⟨staged, answered⟩
  cases found with
  | none => exact ⟨rfl, .inr staged⟩
  | some record =>
      obtain ⟨visible, named⟩ := Entity.mem_of_lookup answered.symm
      refine Meets.bind (N := fun _ => Staged x u) (.ofExcept (fun _ _ => staged) ?_)
        fun revokedBy db s staged => ?_
      · intro e raised
        obtain ⟨message, rfl⟩ := toOptionalUuid_error raised
        exact ⟨rfl, .inr staged⟩
      refine (staged.flush .delegation visible ?_).bind ?_
      · simp [Entity.mapper, delegationMapper]
      · rintro updated db s ⟨rfl, staged⟩
        exact ⟨record, visible, _, named, rfl, rfl, rfl, rfl, rfl, rfl, staged⟩

/-! ## Adding a row -/

theorem Staged.addInvitation (staged : Staged x u db s) (invitation : Invitation) :
    Keeps allowed C
      (fun added db s => ∃ row startedAt, invitation.toRecord = .ok row ∧ added = row startedAt ∧
        Staged x (u.apply (.insertInvitation added)) db s)
      (Failed x u) (InvitationRepository.add invitation) db s := by
  refine Meets.bind (N := fun row db s => invitation.toRecord = .ok row ∧ Staged x u db s)
    (.ofExcept (fun _ made => ⟨made, staged⟩) ?_) ?_
  · intro e raised
    obtain ⟨message, rfl⟩ := toUuid_error (map_eq_error raised)
    exact ⟨rfl, .inr staged⟩
  rintro row db s ⟨made, staged⟩
  refine (staged.add .invitation _).mono ?_ fun _ _ _ failed => failed
  rintro added db s ⟨⟨v, env, _, _, rfl⟩, _, _, staged⟩
  exact ⟨row, _, made, rfl, staged⟩

theorem Staged.addDelegation (staged : Staged x u db s) (delegation : Delegation) :
    Keeps allowed C
      (fun added db s => ∃ row startedAt, delegation.toRecord = .ok row ∧
        added = (row startedAt).delegation ∧
        Staged x (u.apply (.insertDelegation (row startedAt))) db s)
      (Failed x u) (DelegationRepository.add delegation) db s := by
  refine Meets.bind (N := fun row db s => delegation.toRecord = .ok row ∧ Staged x u db s)
    (.ofExcept (fun _ made => ⟨made, staged⟩) ?_) ?_
  · intro e raised
    rcases bind_eq_error raised with failed | ⟨_, _, failed⟩
    · obtain ⟨message, rfl⟩ := toUuid_error failed
      exact ⟨rfl, .inr staged⟩
    · obtain ⟨message, rfl⟩ := toUuid_error (map_eq_error failed)
      exact ⟨rfl, .inr staged⟩
  rintro row db s ⟨made, staged⟩
  refine (staged.add .delegation _).bind ?_
  rintro added db s ⟨⟨v, env, _, _, rfl⟩, _, _, staged⟩
  exact ⟨row, _, made, rfl, staged⟩

end Rules
end LandVault
