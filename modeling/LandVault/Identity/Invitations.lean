import LandVault.Identity.Acceptance
import LandVault.Identity.InvitationWrites
import LandVault.Uncontended

/-!
# Outstanding invitations

An invitation that is pending blocks another one for its tenant and its email: the service
looks for one before it creates, and a partial unique index keeps two from being stored.
Neither asks whether the invitation has expired, and nothing takes an expired one out of
PENDING. Redemption does ask. So the two notions of an outstanding invitation come apart
exactly where one has expired unredeemed.
-/

set_option autoImplicit false

namespace LandVault

open Kernel Kernel.Audit Identity Library.Programs Library.ReadCommitted Python

/-! ## The index on pending invitations -/

/-- The pending invitations of a tenant for an email. -/
def Tables.outstanding (t : Tables) (tenantId email : String) : List InvitationRecord :=
  t.invitations.filter fun row =>
    row.tenantId = tenantId && row.invitedEmail = email && row.status = .pending

/-- The partial index has an entry for each pending invitation, and no other. -/
def Indexed (t : Tables) : Prop :=
  ∀ tenantId email, t.partialIndexes.count (.pendingInvitation tenantId email) =
    (t.outstanding tenantId email).length

/-- The email of every invitation was parsed. -/
def ParsedEmails (lower : String → String) (t : Tables) : Prop :=
  ∀ row ∈ t.invitations, ∃ raw, parseEmail lower raw = .ok row.invitedEmail

/-- What every commit of every request keeps. -/
structure WellKept (lower : String → String) (t : Tables) : Prop where
  unique : t.keys.Nodup
  indexed : Indexed t
  parsed : ParsedEmails lower t

section Index

variable {t : Tables} {w : Write} {tenantId email : String}

/-- What is outstanding, row by row. -/
theorem outstanding_count (rows : List InvitationRecord) :
    (rows.filter fun row =>
      row.tenantId = tenantId && row.invitedEmail = email && row.status = .pending).length =
      (rows.flatMap Write.pendingEntry).count (.pendingInvitation tenantId email) := by
  induction rows with
  | nil => rfl
  | cons row rows ih =>
      rw [List.flatMap_cons, List.count_append, ← ih, List.filter_cons, Write.pendingEntry]
      by_cases pending : row.status = .pending <;> by_cases tenant : row.tenantId = tenantId <;>
        by_cases same : row.invitedEmail = email <;>
          simp [pending, tenant, same, Nat.add_comm]

/-- A write of a row changes that row alone. -/
theorem replaceRow_split {R K : Type} [DecidableEq K] {id : R → K} (assign : R → R → R)
    {rows : List R} (distinct : (rows.map id).Nodup) {stored row : R} (member : stored ∈ rows)
    (same : id row = id stored) :
    ∃ before after, rows = before ++ stored :: after ∧
      Tables.replaceRow id assign row rows = before ++ assign row stored :: after := by
  obtain ⟨before, after, rfl⟩ := List.append_of_mem member
  refine ⟨before, after, rfl, ?_⟩
  rw [List.map_append, List.map_cons, List.nodup_append, List.nodup_cons] at distinct
  obtain ⟨_, ⟨later, _⟩, earlier⟩ := distinct
  have kept : ∀ others : List R, (∀ other ∈ others, id other ≠ id row) →
      Tables.replaceRow id assign row others = others := fun others different =>
    (List.map_congr_left fun other inside => if_neg (different other inside)).trans (List.map_id _)
  have before' : ∀ other ∈ before, id other ≠ id row := by
    intro other inside
    rw [same]
    exact earlier _ (List.mem_map_of_mem inside) _ List.mem_cons_self
  have after' : ∀ other ∈ after, id other ≠ id row := by
    intro other inside equal
    exact later (same ▸ equal ▸ List.mem_map_of_mem inside)
  have split : Tables.replaceRow id assign row (before ++ stored :: after) =
      Tables.replaceRow id assign row before ++
        (if id stored = id row then assign row stored else stored) ::
          Tables.replaceRow id assign row after := by
    simp [Tables.replaceRow]
  rw [split, kept before before', kept after after', if_pos same.symm]

theorem count_filter_notMem {K : Type} [DecidableEq K] (keys dropped : List K) (k : K) :
    (keys.filter (· ∉ dropped)).count k = if k ∈ dropped then 0 else keys.count k := by
  split
  · rename_i member
    exact List.count_eq_zero.mpr (by simp [member])
  · rename_i absent
    exact List.count_filter (by simpa using absent)

/-- A write that is not of an invitation changes no entry of the index. -/
theorem indexed_of_static (indexed : Indexed t) (rows : (t.apply w).invitations = t.invitations)
    (enters : ∀ tenantId email, .pendingInvitation tenantId email ∉ w.enters)
    (removes : ∀ tenantId email, .pendingInvitation tenantId email ∉ w.removes) :
    Indexed (t.apply w) := by
  intro tenantId email
  have same : (t.apply w).partialIndexes.count (.pendingInvitation tenantId email) =
      t.partialIndexes.count (.pendingInvitation tenantId email) := by
    rw [Tables.apply, List.count_append, List.count_eq_zero.mpr (enters tenantId email),
      List.count_filter (by simpa using removes tenantId email), Nat.zero_add]
  rw [same, indexed, Tables.outstanding, Tables.outstanding, rows]

/-- The index follows the invitations. -/
theorem Indexed.apply {lower : String → String} (indexed : Indexed t) (unique : t.keys.Nodup)
    (stands : Stands t w) (keeps : KeepsInvitations lower w) : Indexed (t.apply w) := by
  cases w with
  | insertInvitation row =>
      intro tenantId email
      have before := indexed tenantId email
      rw [Tables.outstanding, outstanding_count] at before ⊢
      simp only [Tables.apply, Tables.writeRow, Write.enters, Write.removes, List.flatMap_append,
        List.flatMap_cons, List.flatMap_nil, List.append_nil, List.count_append]
      simp [before, Nat.add_comm]
  | updateInvitation stored row =>
      obtain ⟨member, id⟩ := stands
      obtain ⟨tenant, same⟩ := keeps
      intro tenantId email
      have before := indexed tenantId email
      have distinct := Entity.keys_nodup .invitation unique
      obtain ⟨front, back, rows, replaced⟩ :=
        replaceRow_split Tables.assignInvitation distinct member id
      have once : t.partialIndexes.count (.pendingInvitation tenantId email) ≤ 1 :=
        List.nodup_iff_count_le_one.mp (List.Nodup.of_map _ unique.of_append_right) _
      rw [Tables.outstanding, outstanding_count] at before ⊢
      have after : (t.apply (.updateInvitation stored row)).invitations =
          front ++ Tables.assignInvitation row stored :: back := replaced
      have entry : Write.pendingEntry (Tables.assignInvitation row stored) =
          Write.pendingEntry row := by
        rw [Write.pendingEntry, Write.pendingEntry, tenant, same]
        rfl
      have held : t.invitations = front ++ stored :: back := rows
      rw [held] at before
      rw [after, Tables.apply, List.count_append, count_filter_notMem]
      simp only [List.flatMap_append, List.flatMap_cons, List.count_append, entry, Write.enters,
        Write.removes] at before ⊢
      rw [count_filter_notMem]
      -- the two entries are the same one, where both rows are pending
      by_cases was : stored.status = .pending <;> by_cases is : row.status = .pending <;>
        by_cases tenant' : stored.tenantId = tenantId <;>
          by_cases email' : stored.invitedEmail = email <;>
            simp [Write.pendingEntry, was, is, tenant', email', tenant, same,
              eq_comm (a := tenantId), eq_comm (a := email)] at before once ⊢ <;>
            omega
  | insertParcel row | updateParcel stored row =>
      refine indexed_of_static indexed rfl (fun _ _ => ?_) fun _ _ => ?_ <;>
        simp [Write.enters, Write.removes, Write.numberEntry]
  | insertGeometry row | updateGeometry stored row =>
      refine indexed_of_static indexed rfl (fun _ _ => ?_) fun _ _ => ?_ <;>
        simp [Write.enters, Write.removes, Write.activeEntry]
  | _ => exact indexed_of_static indexed rfl (by simp [Write.enters]) (by simp [Write.removes])

/-- An invitation keeps the email that it was inserted with. -/
theorem ParsedEmails.apply {lower : String → String} (parsed : ParsedEmails lower t)
    (keeps : KeepsInvitations lower w) : ParsedEmails lower (t.apply w) := by
  rcases Entity.write_cases .invitation w with same | ⟨row, rfl⟩ | ⟨stored, row, rfl⟩
  · intro row member
    have kept : (t.apply w).invitations = t.invitations := same t
    exact parsed row (kept ▸ member)
  · intro other member
    rcases List.mem_append.mp member with old | new
    · exact parsed other old
    · exact List.mem_singleton.mp new ▸ keeps
  · intro other member
    obtain ⟨old, stored', rfl⟩ := List.mem_map.mp member
    split
    · exact parsed old stored'
    · exact parsed old stored'

theorem WellKept.advances {lower : String → String} {t' : Tables} (kept : WellKept lower t)
    (advances : (writing (KeepsInvitations lower)).Advances t t') : WellKept lower t' := by
  have both : Indexed t' ∧ ParsedEmails lower t' := by
    refine advances.induction (I := fun t => Indexed t ∧ ParsedEmails lower t) ?_
      ⟨kept.indexed, kept.parsed⟩
    intro t ws makes holds
    refine makes.induction (I := fun t => Indexed t ∧ ParsedEmails lower t)
      (fun t w member unique stands holds => ?_) holds
    have keeps : KeepsInvitations lower w := by
      rcases makes.allowed with all | ⟨w', rfl, row, rfl⟩
      · exact all w member
      · exact List.mem_singleton.mp member ▸ trivial
    exact ⟨holds.1.apply unique stands keeps, holds.2.apply keeps⟩
  exact ⟨advances.unique kept.unique, both.1, both.2⟩

/-- At most one invitation of a tenant for an email is pending. -/
theorem WellKept.outstanding_le_one {lower : String → String} (kept : WellKept lower t)
    (tenantId email : String) : (t.outstanding tenantId email).length ≤ 1 := by
  rw [← kept.indexed]
  have distinct : t.partialIndexes.Nodup := .of_map _ kept.unique.of_append_right
  exact List.nodup_iff_count_le_one.mp distinct _

/-- At most one invitation of a tenant for an email can be redeemed, at any time. -/
theorem WellKept.redeemable_le_one {lower : String → String} (kept : WellKept lower t)
    (now : DateTime) (tenantId email : String) :
    (t.invitations.filter fun row => row.tenantId = tenantId && row.invitedEmail = email &&
      row.isRedeemableAt now).length ≤ 1 := by
  refine (List.Sublist.length_le ?_).trans (kept.outstanding_le_one tenantId email)
  refine List.monotone_filter_right _ fun row holds => ?_
  simp only [InvitationOf.isRedeemableAt, Bool.and_eq_true, beq_iff_eq, decide_eq_true_eq]
    at holds ⊢
  exact ⟨holds.1, holds.2.1⟩

end Index

/-! ## Emails -/

/-- A `str.lower` that lowers nothing that is lowered. -/
def Settled (lower : String → String) : Prop := ∀ text, lower (lower text) = lower text

theorem settled_lower : Settled lower := lower_lower

theorem matchesEmail_plain {value : String} (matched : matchesEmail value = true) :
    ∀ c ∈ value.toList, isSpace c = false := by
  unfold matchesEmail at matched
  split at matched
  · rename_i name domain split
    have whole : value.toList = name ++ '@' :: domain := by
      have joined : ['@'].intercalate (value.toList.splitOn '@') = value.toList :=
        List.intercalate_splitOn '@'
      rw [split] at joined
      simpa [List.intercalate] using joined.symm
    simp only [Bool.and_eq_true, List.all_eq_true, Bool.not_eq_true'] at matched
    intro c member
    rw [whole] at member
    rcases List.mem_append.mp member with inName | inRest
    · exact matched.1.1.2 c inName
    · rcases List.mem_cons.mp inRest with rfl | inDomain
      · rfl
      · exact matched.1.2 c inDomain
  · cases matched

/-- A parsed email is looked up by itself. -/
theorem parseEmail_stable {lower : String → String} (settled : Settled lower) {raw email : String}
    (parsed : parseEmail lower raw = .ok email) :
    lower (stripText email) = email ∧ parseEmail lower email = .ok email := by
  unfold parseEmail at parsed
  simp only at parsed
  split at parsed
  · rename_i matched
    cases parsed
    have stripped : stripText (lower (stripText raw)) = lower (stripText raw) := by
      rw [stripText, strip_eq_self (matchesEmail_plain matched), String.ofList_toList]
    have same : lower (stripText (lower (stripText raw))) = lower (stripText raw) := by
      rw [stripped, settled]
    exact ⟨same, by rw [parseEmail, same, if_pos matched]⟩
  · cases parsed

/-! ## Inviting -/

/-- The answer to an invitation for an email that has a pending one. -/
def alreadyPending : PyExc := conflict "An invitation is already pending for this email"

/-- A caller who may invite to the role into the tenant. -/
structure Inviter (t : Tables) (ctx : ExecutionContext) (tenantId role : String) : Prop where
  tenant : ctx.tenantId = some tenantId
  tenanted : tenantId ≠ ""
  user : ∃ user ∈ t.identityUsers, ctx.principalId = user.id.str
  known : tenantId ∈ t.tenants.map (·.id)
  listed : role ∈ allRoles
  ranked : highestRank [role] ≤ highestRank ctx.roles

/-- An invitation that is created: Postgres takes the email, none is pending, and the clock
has room for it. -/
def MayCreate (t : Tables) (tenantId email : String) (now : DateTime) : Prop :=
  hasNul email = false ∧ t.outstanding tenantId email = [] ∧
    (now.addDays invitationTtlDays).isSome = true

/-- How the creation of an invitation fails. -/
def CreationFails (t : Tables) (tenantId email : String) (now : DateTime) (e : PyExc) : Prop :=
  MayCreate t tenantId email now ∧ Collision e ∨
    ¬ MayCreate t tenantId email now ∧
      (e = alreadyPending ∨ e = .overflow ∨ ∃ message, e = .database message)

/-- Postgres takes the entry of an invitation for an email that it takes. -/
theorem Inviter.entry_plain {t : Tables} {ctx : ExecutionContext} {tenantId role email : String}
    (inviter : Inviter t ctx tenantId role) (plain : hasNul email = false) {id : UUID} :
    ∀ text ∈ AuditCall.texts ctx
      { action := "identity.invitation.created"
        resourceType := "invitation"
        resourceId := some id.str
        decision := some "PERMIT"
        payload := some (.details [("email", .text (some email)), ("role", .text (some role))]) },
      hasNul text = false := by
  obtain ⟨user, _, named⟩ := inviter.user
  have role := hasNul_allRoles role inviter.listed
  have words : hasNul "email" = false ∧ hasNul "role" = false := by decide
  refine plain_texts (named ▸ hasNul_str _) (by decide) (by simp [hasNul_str]) ?_
  simp [Detail.strings, words, plain, role]

section Creation

variable {platform : IdentityPlatform} {t : Tables} {ctx : ExecutionContext}
  {tenantId role email raw : String} {now : DateTime} {db : Database Unit} {s : DbSession}

/-- The row of a new invitation is admitted by the table, where none is pending. -/
theorem Consults.insertInvitation (consults : Consults t (scopeOf ctx) db s)
    (kept : WellKept platform.lower t) (inviter : Inviter t ctx tenantId role)
    (may : MayCreate t tenantId email now) {invitation : Invitation}
    (tenant : invitation.tenantId = tenantId) (same : invitation.invitedEmail = email)
    (by' : invitation.invitedBy = ctx.principalId) :
    Settles (Working now) (fun _ => Calm) (CreationFails t tenantId email now)
      (InvitationRepository.add invitation) db s := by
  obtain ⟨user, stored, named⟩ := inviter.user
  have made : ∃ row, invitation.toRecord = .ok row ∧ ∀ startedAt,
      (row startedAt).tenantId = tenantId ∧ (row startedAt).invitedEmail = email ∧
        (row startedAt).invitedBy = user.id := by
    refine ⟨_, by rw [Invitation.toRecord, by', named, toUuid, UUID.parse_str]; rfl, fun _ => ?_⟩
    exact ⟨tenant, same, rfl⟩
  obtain ⟨row, made, fields⟩ := made
  obtain ⟨tenant', same', invitedBy⟩ := fields s.startedAt
  unfold InvitationRepository.add
  rw [made]
  refine ((consults.add (fun _ => And.left) .invitation (row s.startedAt) (fun _ => rfl) rfl
    ?_ ?_ ?_).mono (fun _ _ _ added => added.1) fun _ _ _ raised => raised)
  · have sees := sees_own inviter.tenant
    rwa [← tenant'] at sees
  · have users : (t.identityUsers.map (·.id)).contains user.id = true :=
      List.contains_iff_mem.mpr (List.mem_map_of_mem stored)
    have tenants : (t.tenants.map (·.id)).contains tenantId = true :=
      List.contains_iff_mem.mpr inviter.known
    simp only [Entity.mapper, invitationMapper, userExists, tenantExists, invitedBy, tenant', users,
      tenants, if_true, Except.bind]
  · intro k added present
    refine .inl ⟨may, k, ?_, rfl⟩
    have entry : k = .invitationId (row s.startedAt).id ∨
        k = .tokenHash (row s.startedAt).tokenHash ∨
          k ∈ (Write.pendingEntry (row s.startedAt)).map .entry := by
      simpa [engine, Write.adds, Write.rowEntries, Write.enters, Entity.mapper, invitationMapper,
        or_assoc] using added
    rcases entry with rfl | rfl | entry
    · rfl
    · rfl
    · -- the index has no entry, because nothing is pending
      obtain ⟨key, inEntry, rfl⟩ := List.mem_map.mp entry
      have key_eq : key = .pendingInvitation tenantId email := by
        unfold Write.pendingEntry at inEntry
        split at inEntry
        · rw [tenant', same'] at inEntry
          exact List.mem_singleton.mp inEntry
        · cases inEntry
      have indexed : PartialKey.pendingInvitation tenantId email ∈ t.partialIndexes := by
        rcases List.mem_append.mp present with inRows | inIndex
        · exact absurd inRows (entry_notMem_rowKeys t key)
        · obtain ⟨other, member, same⟩ := List.mem_map.mp inIndex
          exact key_eq ▸ entry_injective same ▸ member
      have none := kept.indexed tenantId email
      rw [may.2.1] at none
      exact absurd indexed (List.count_eq_zero.mp none)

/-- No user is found for an email that is not registered. -/
theorem Consults.getByEmail_unregistered (consults : Consults t (scopeOf ctx) db s)
    (works : ∀ choice, Working now choice → choice.fails = false) (kept : WellKept platform.lower t)
    (stable : platform.lower (stripText email) = email)
    (unregistered : ∀ user ∈ t.identityUsers, user.email ≠ email) :
    Settles (Working now)
      (fun found db s => Consults t (scopeOf ctx) db s ∧ found = none ∧ hasNul email = false)
      (CreationFails t tenantId email now) (UserRepository.getByEmail platform.lower email) db s := by
  unfold UserRepository.getByEmail
  rw [stable]
  cases nul : hasNul email with
  | true =>
      have refused : bindTexts [email] =
          .error (.database "invalid byte sequence for encoding \"UTF8\": 0x00") := by
        simp [bindTexts, nul]
      rw [refused]
      refine consults.calm.throw (.inr ⟨fun may => ?_, .inr (.inr ⟨_, rfl⟩)⟩)
      rw [may.1] at nul
      cases nul
  | false =>
      rw [bindTexts_of_plain (by simpa using nul)]
      refine ((consults.scalarOneOrNone works kept.unique .user none ?_).mono ?_
        fun _ _ _ raised => raised)
      · refine List.filter_eq_nil_iff.mpr fun user seen => ?_
        simpa using unregistered user (Entity.mem_rows_of_seen (e := .user) seen)
      · exact fun _ _ _ found => ⟨found.1, found.2, rfl⟩

/-- **An invitation is created exactly where none is pending**, Postgres takes the email and
the clock leaves room. -/
theorem Consults.createInvitation (consults : Consults t (scopeOf ctx) db s)
    (settled : Settled platform.lower) (kept : WellKept platform.lower t)
    (inviter : Inviter t ctx tenantId role) (parsed : parseEmail platform.lower raw = .ok email)
    (unregistered : ∀ user ∈ t.identityUsers, user.email ≠ email) :
    Settles (Working now) (fun _ db s => Calm db s ∧ MayCreate t tenantId email now)
      (CreationFails t tenantId email now) (Identity.createInvitation platform ctx raw role) db s := by
  have works : ∀ choice, Working now choice → choice.fails = false := fun _ => And.left
  have stable := (parseEmail_stable settled parsed).1
  have given : truthy ctx.tenantId = true := truthy_iff.mpr ⟨_, inviter.tenant, inviter.tenanted⟩
  have own : ctx.tenantId.getD "" = tenantId := by rw [inviter.tenant, Option.getD_some]
  refine .ite (fun unknown => absurd inviter.listed (by simpa using unknown)) fun _ => ?_
  rw [parsed]
  refine .ite (fun outranked => absurd inviter.ranked (not_le.mpr outranked)) fun _ => ?_
  refine (consults.getByEmail_unregistered works kept stable unregistered).bind ?_
  rintro _ db s ⟨consults, rfl, plain⟩
  refine .ite (fun found => by cases found) fun _ => ?_
  refine .ite (fun untenanted => by simp [given] at untenanted) fun _ => ?_
  have pending : (Entity.invitation.mapper.seen t (scopeOf ctx)).filter (fun row =>
      row.tenantId = ctx.tenantId.getD "" && row.invitedEmail = platform.lower (stripText email) &&
        row.status = .pending) = t.outstanding tenantId email := by
    rw [own, stable]
    refine (List.filter_filter ..).trans (List.filter_congr fun row _ => ?_)
    by_cases tenant : row.tenantId = tenantId
    · have sees : Entity.invitation.mapper.sees t (scopeOf ctx) row = true := by
        have own := sees_own inviter.tenant
        rwa [← tenant] at own
      simp [sees]
    · simp [tenant]
  have one := kept.outstanding_le_one tenantId email
  refine (consults.scalarOneOrNone works kept.unique .invitation
    (t.outstanding tenantId email).head? ?_).bind ?_
  · rw [pending]
    generalize t.outstanding tenantId email = outstanding at one
    cases outstanding with
    | nil => rfl
    | cons row rest => simpa using one
  rintro _ db s ⟨consults, rfl⟩
  refine .ite (fun found => ?_) fun free => ?_
  · refine consults.calm.throw (.inr ⟨fun may => ?_, .inl rfl⟩)
    rw [may.2.1] at found
    cases found
  have nothing : t.outstanding tenantId email = [] := by
    simpa using free
  refine (consults.choose _).bind ?_
  rintro token db s ⟨consults, _⟩
  refine Concludes.bind (N := fun _ db s => Consults t (scopeOf ctx) db s ∧
    MayCreate t tenantId email now) ?_ ?_
  · refine (consults.choose _).bind ?_
    rintro _ db s ⟨consults, choice, chosen, rfl⟩
    rw [chosen.2]
    split
    · rename_i time room
      exact ⟨consults, plain, nothing, by rw [room]; rfl⟩
    · rename_i room
      refine consults.calm.throw (.inr ⟨fun may => ?_, .inr (.inl rfl)⟩)
      rw [MayCreate, room] at may
      cases may.2.2
  rintro expiresAt db s ⟨consults, may⟩
  refine (consults.choose _).bind ?_
  rintro ⟨uuid, createdAt⟩ db s ⟨consults, _⟩
  refine (consults.insertInvitation kept inviter may own rfl rfl).bind fun invitation db s calm => ?_
  refine ((calm.audit works _ (inviter.entry_plain plain)).mono (fun _ _ _ calm => calm) ?_).bind
    fun _ _ _ calm => ⟨calm, may⟩
  exact fun e _ _ raised => ⟨.inl ⟨may, raised.1⟩, raised.2⟩

end Creation

/-! ## Over any interleaving -/

/-- Any number of requests, about to start. -/
def identityWorld {ι : Type} (platform : IdentityPlatform) (tables : Tables)
    (requests : ι → IdentityRequest) :
    World ι DbStatement PyExc IdentityAnswer (Database ι) DbSession :=
  World.start { tables } freshSession fun index => (requests index).handle platform

/-- No invitation of the tenant for the email can be redeemed. -/
def NoneRedeemable (t : Tables) (tenantId email : String) (now : DateTime) : Prop :=
  ∀ row ∈ t.invitations, row.tenantId = tenantId → row.invitedEmail = email →
    row.isRedeemableAt now = false

/-- Every undisturbed run of the creation succeeds, unless what it draws is taken. -/
def Invites (platform : IdentityPlatform) (t : Tables) (ctx : ExecutionContext)
    (raw role : String) (now : DateTime) : Prop :=
  ∀ result, EndsWorking now t (getDbSession ctx (createInvitation platform ctx raw role)) result →
    (∃ answer, result = .ok answer) ∨ ∃ e, result = .error e ∧ Collision e

theorem wellKept_reaches {ι : Type} [DecidableEq ι] {platform : IdentityPlatform} {tables : Tables}
    (kept : WellKept platform.lower tables) {requests : ι → IdentityRequest}
    {w : World ι DbStatement PyExc IdentityAnswer (Database ι) DbSession}
    (reaches : World.Reaches (postgres ι) (identityWorld platform tables requests) w) :
    WellKept platform.lower w.db.tables :=
  kept.advances <| Wherever.advances (D := writing (KeepsInvitations platform.lower))
    (fun _ all => all) kept.unique (fun index => innocuous_handle (requests index)) reaches

theorem invites_iff {platform : IdentityPlatform} (settled : Settled platform.lower) {t : Tables}
    (kept : WellKept platform.lower t) {ctx : ExecutionContext} {tenantId role raw email : String}
    {now : DateTime} (inviter : Inviter t ctx tenantId role)
    (parsed : parseEmail platform.lower raw = .ok email)
    (unregistered : ∀ user ∈ t.identityUsers, user.email ≠ email) :
    Invites platform t ctx raw role now ↔ MayCreate t tenantId email now := by
  obtain ⟨all, result, ends⟩ := ends_of_concludes fun clock =>
    settles_getDbSession (Q := fun _ => MayCreate t tenantId email now)
      (X := CreationFails t tenantId email now) (fun _ => And.left) ctx clock
      fun db s consults => consults.createInvitation settled kept inviter parsed
        unregistered
  constructor
  · intro invites
    rcases invites result ends with ⟨answer, same⟩ | ⟨e, same, collision⟩
    · exact (all result ends).1 answer same
    · rcases (all result ends).2 e same with ⟨may, _⟩ | ⟨_, rfl | rfl | ⟨message, rfl⟩⟩
      · exact may
      · cases collision.notHttp
      · obtain ⟨k, _, absurd⟩ := collision
        cases absurd
      · obtain ⟨k, _, absurd⟩ := collision
        cases absurd
  · intro may result ends
    cases result with
    | ok answer => exact .inl ⟨answer, rfl⟩
    | error e =>
        rcases (all _ ends).2 e rfl with ⟨_, collision⟩ | ⟨refused, _⟩
        · exact .inr ⟨e, rfl, collision⟩
        · exact absurd may refused

/-- **An unusable invitation does not block a new one exactly where it is not pending**: in
every state that requests reach, for every caller who may invite, and for an email that
Postgres takes. And at most one invitation of a tenant for an email can be redeemed. -/
theorem unusable_invitation_blocks_iff {ι : Type} [DecidableEq ι] {platform : IdentityPlatform}
    (settled : Settled platform.lower) {tables : Tables} (kept : WellKept platform.lower tables)
    {requests : ι → IdentityRequest}
    {w : World ι DbStatement PyExc IdentityAnswer (Database ι) DbSession}
    (reaches : World.Reaches (postgres ι) (identityWorld platform tables requests) w) :
    (∀ token ctx earlier tenantId role raw email now,
      EndsAt earlier w.db.tables (currentContext platform token) (.ok ctx) →
      ctx.tenantId = some tenantId → tenantId ≠ "" → role ∈ allRoles →
      highestRank [role] ≤ highestRank ctx.roles → parseEmail platform.lower raw = .ok email →
      (∀ user ∈ w.db.tables.identityUsers, user.email ≠ email) →
      NoneRedeemable w.db.tables tenantId email now →
      (Invites platform w.db.tables ctx raw role now ↔
        hasNul email = false ∧ w.db.tables.outstanding tenantId email = [] ∧
          (now.addDays invitationTtlDays).isSome = true)) ∧
    ∀ now tenantId email, (w.db.tables.invitations.filter fun row => row.tenantId = tenantId &&
      row.invitedEmail = email && row.isRedeemableAt now).length ≤ 1 := by
  have kept' := wellKept_reaches kept reaches
  refine ⟨?_, fun now tenantId email => kept'.redeemable_le_one now tenantId email⟩
  intro token ctx earlier tenantId role raw email now hydrated tenant tenanted listed ranked parsed
    unregistered _
  obtain ⟨user, named, grantor⟩ := (hydrated.caller kept'.unique).user kept'.unique tenant
  have known : tenantId ∈ w.db.tables.tenants.map (·.id) := by
    have active := grantor.active
    rw [Option.any_eq_true] at active
    obtain ⟨found, member, _⟩ := active
    have same : found.id = tenantId := by simpa using List.find?_some member
    exact same ▸ List.mem_map_of_mem (List.mem_of_find?_eq_some member)
  have inviter : Inviter w.db.tables ctx tenantId role :=
    ⟨tenant, tenanted, ⟨user, List.mem_of_find?_eq_some grantor.stored, named⟩, known, listed, ranked⟩
  exact invites_iff settled kept' inviter parsed unregistered

/-! ## An invitation that has expired -/

/-- The request that invites, of an officer. -/
def inviting : IdentityRequest :=
  .admin (some { subject := "s-1" }) (.createInvitation "a@b.c" Role.fieldAgent.value)

/-- The officer's request, and nothing else. -/
abbrev invitingWorld : World Unit DbStatement PyExc IdentityAnswer (Database Unit) DbSession :=
  identityWorld deputyPlatform deputyTables fun _ => inviting

/-- Eight days later. -/
def afterExpiry : DateTime := { DateTime.newYear with day := 9, date := by decide }

def laterChoice : Choice Env := { env := { uuid := sampleId 8, now := afterExpiry, token := "y" } }

theorem wellKept_deputyTables : WellKept deputyPlatform.lower deputyTables where
  unique := by decide
  indexed := fun _ _ => rfl
  parsed := nofun

/-- Eight days later nothing is redeemable, and yet the officer is refused. -/
def blocks (t : Tables) : Bool :=
  ((play (postgres Unit) () (List.replicate 5 laterChoice) { tables := t } freshSession
    (currentContext deputyPlatform (some { subject := "s-1" }))).any fun run =>
      run.1.toOption.any fun ctx => ctx.tenantId = some "t-1" &&
        highestRank [Role.fieldAgent.value] ≤ highestRank ctx.roles &&
        (play (postgres Unit) () (List.replicate 4 laterChoice) { tables := t } freshSession
          (getDbSession ctx (createInvitation deputyPlatform ctx "a@b.c" Role.fieldAgent.value))).any
            fun run => match run.1 with
              | .ok _ => false
              | .error e => e = alreadyPending) &&
    (t.identityUsers.all fun user => user.email ≠ "a@b.c") &&
    t.invitations.all fun row => !row.isRedeemableAt afterExpiry

/-- **An invitation that has expired blocks a new one.** -/
theorem expired_invitation_blocks :
    ∃ w ctx, World.Reaches (postgres Unit) invitingWorld w ∧
      EndsAt afterExpiry w.db.tables
        (currentContext deputyPlatform (some { subject := "s-1" })) (.ok ctx) ∧
      ctx.tenantId = some "t-1" ∧ highestRank [Role.fieldAgent.value] ≤ highestRank ctx.roles ∧
      (∀ user ∈ w.db.tables.identityUsers, user.email ≠ "a@b.c") ∧
      NoneRedeemable w.db.tables "t-1" "a@b.c" afterExpiry ∧
      EndsWorking afterExpiry w.db.tables (getDbSession ctx
        (createInvitation deputyPlatform ctx "a@b.c" Role.fieldAgent.value))
        (.error alreadyPending) := by
  have observed : World.Observed (postgres Unit) .always invitingWorld
      (List.replicate 16 (.step () deputyChoice)) [] (fun w _ => blocks w.db.tables = true) := by
    decide +kernel
  obtain ⟨w, _, reaches, _, blocked⟩ := observed.runs
  simp only [blocks, Bool.and_eq_true, List.all_eq_true, Bool.not_eq_true'] at blocked
  obtain ⟨⟨hydrated, unregistered⟩, expired⟩ := blocked
  rw [Option.any_eq_true] at hydrated
  obtain ⟨⟨context, db, s⟩, played, observed⟩ := hydrated
  cases context with
  | error e => cases observed
  | ok ctx =>
      simp only [Except.toOption, Option.any_some, Bool.and_eq_true, decide_eq_true_eq] at observed
      obtain ⟨⟨tenant, ranked⟩, refused⟩ := observed
      rw [Option.any_eq_true] at refused
      obtain ⟨⟨result, db', s'⟩, played', same⟩ := refused
      cases result with
      | ok answer => cases same
      | error e =>
          obtain rfl : e = alreadyPending := by simpa using same
          refine ⟨w, ctx, reaches, ⟨0, _, db, s, ?_, played⟩, tenant, ranked, ?_, ?_,
            0, _, db', s', ?_, played'⟩
          · exact fun choice member => by rw [List.eq_of_mem_replicate member]; rfl
          · exact fun user member => by simpa using unregistered user member
          · exact fun row member _ _ => expired row member
          · exact fun choice member => by rw [List.eq_of_mem_replicate member]; exact ⟨rfl, rfl⟩

/-- At the start, where nothing is pending, the officer may invite. -/
theorem unusable_invitation_blocks_iff_officer : ∃ ctx,
    EndsAt sampleNow deputyTables (currentContext deputyPlatform (some { subject := "s-2" }))
      (.ok ctx) ∧
    Invites deputyPlatform deputyTables ctx "a@b.c" Role.fieldAgent.value sampleNow := by
  refine ⟨deputy, deputy_hydrated, ?_⟩
  have settled : Settled deputyPlatform.lower := settled_lower
  have same := (unusable_invitation_blocks_iff settled wellKept_deputyTables
    (.refl : World.Reaches (postgres Unit) invitingWorld _)).1 _ _ _ "t-1"
      Role.fieldAgent.value "a@b.c" "a@b.c" sampleNow deputy_hydrated (by decide) (by decide)
      (by decide) (by decide) (by decide) (by decide)
      fun row member => absurd (show row ∈ [] from member) List.not_mem_nil
  exact same.mpr ⟨by decide, rfl, by decide⟩

end LandVault
