import LandVault.Calls

/-!
# Requests of many tenants at once

Each commit of a run stays in the scope of its transaction, so nothing that a tenant sees
changes by the calls of others (`tenants_isolated`); and rows are never deleted, nor does
any column ever change that is written once (`rows_persist`).
-/

set_option autoImplicit false

namespace LandVault

open Kernel Kernel.Audit Identity Registry Spatial Evidence Library.Programs
open Library.ReadCommitted Python

/-! ## What a tenant sees -/

/-- What row-level security lets a tenant see of the tables. -/
def Tables.ofTenant (tenantId : String) (t : Tables) : Tables where
  tenants := tenantMapper.seen t (.tenant tenantId)
  identityUsers := userMapper.seen t (.tenant tenantId)
  identitySessions := sessionMapper.seen t (.tenant tenantId)
  invitations := invitationMapper.seen t (.tenant tenantId)
  delegations := delegationMapper.seen t (.tenant tenantId)
  parcels := parcelMapper.seen t (.tenant tenantId)
  ownershipHistory := t.ownershipHistory.filter fun row => (Scope.tenant tenantId).sees row.tenantId
  statusHistory := t.statusHistory.filter fun row => (Scope.tenant tenantId).sees row.tenantId
  parcelGeometries := geometryMapper.seen t (.tenant tenantId)
  evidenceRecords := evidenceMapper.seen t (.tenant tenantId)
  attributions := t.attributions.filter fun row => (Scope.tenant tenantId).sees row.tenantId

section Tenants

variable {t : Tables} {scope : Scope} {tenantId : String} {w : Write}

/-- A scope that does not see a tenant sees no row that the tenant sees. -/
theorem unseen_of_sees (e : Entity) (unique : t.keys.Nodup) (foreign : scope.sees tenantId = false)
    {row : e.Row} (sees : e.mapper.sees t scope row = true) :
    e.mapper.sees t (.tenant tenantId) row = false := by
  have other : ∀ owner, scope.sees owner = true → (Scope.tenant tenantId).sees owner = false := by
    intro owner mine
    refine beq_false_of_ne fun same => ?_
    rw [← same, foreign] at mine
    cases mine
  cases e with
  | session =>
      refine List.any_eq_false.mpr fun user member named => ?_
      obtain ⟨user', member', same, visible⟩ :
          ∃ user ∈ t.identityUsers, user.id = row.userId ∧ scope.sees user.tenantId = true := by
        simpa [Entity.mapper, sessionMapper] using sees
      obtain ⟨id, seen⟩ : user.id = row.userId ∧
          (Scope.tenant tenantId).sees user.tenantId = true := by simpa using named
      have one : user = user' := List.inj_on_of_nodup_map (Entity.keys_nodup .user unique) member
        member' (id.trans same.symm)
      rw [one, other _ visible] at seen
      cases seen
  | _ => exact other _ sees

/-- A write in another scope moves no row into the sight of a tenant, nor out of it. -/
theorem sees_apply_foreign (e : Entity) (foreign : scope.sees tenantId = false)
    (covered : Covered scope t w) (row : e.Row) :
    e.mapper.sees (t.apply w) (.tenant tenantId) row = e.mapper.sees t (.tenant tenantId) row := by
  cases e with
  | session =>
      cases w with
      | insertUser user =>
          have other : (Scope.tenant tenantId).sees user.tenantId = false := by
            refine beq_false_of_ne fun same => ?_
            have mine : scope.sees user.tenantId = true := covered
            rw [← same, foreign] at mine
            cases mine
          simp [Entity.mapper, sessionMapper, Tables.apply, Tables.writeRow, other]
      | updateUser stored user =>
          simp only [Entity.mapper, sessionMapper, Tables.apply, Tables.writeRow, Tables.replaceRow,
            List.any_map]
          congr 1
          funext old
          simp only [Function.comp_apply]
          split <;> rfl
      | _ => rfl
  | _ => rfl

theorem filter_map_of_unseen {R : Type} {p : R → Bool} {f : R → R} {rows : List R}
    (unseen : ∀ row ∈ rows, f row = row ∨ p row = false ∧ p (f row) = false) :
    (rows.map f).filter p = rows.filter p := by
  induction rows with
  | nil => rfl
  | cons row rows ih =>
      have rest := ih fun row member => unseen row (List.mem_cons_of_mem _ member)
      rcases unseen row List.mem_cons_self with same | ⟨before, after⟩
      · simp only [List.map_cons, List.filter_cons, same, rest]
      · simp only [List.map_cons, List.filter_cons, before, after, rest]
        rfl

/-- An UPDATE leaves its row with whom it was. -/
theorem sees_assign (e : Entity) {stored row : e.Row} (preserves : Preserves (e.mapper.update stored row))
    (t : Tables) (scope : Scope) :
    e.mapper.sees t scope (e.mapper.assign row stored) = e.mapper.sees t scope stored := by
  cases e with
  | parcel => exact congrArg scope.sees preserves.2.1
  | geometry =>
      have kept : row.tenantId = stored.tenantId := congrArg (·.tenantId) preserves
      exact congrArg scope.sees kept
  | _ => rfl

/-- A write in another scope changes nothing that a tenant sees of a class. -/
theorem seen_apply_foreign (e : Entity) (unique : t.keys.Nodup) (foreign : scope.sees tenantId = false)
    (stands : Stands t w) (covered : Covered scope t w) (preserves : Preserves w) :
    e.mapper.seen (t.apply w) (.tenant tenantId) = e.mapper.seen t (.tenant tenantId) := by
  have sight : e.mapper.sees (t.apply w) (.tenant tenantId) =
      e.mapper.sees t (.tenant tenantId) := by
    funext row
    exact sees_apply_foreign e foreign covered row
  unfold Mapper.seen
  rw [sight]
  rcases e.write_cases w with same | ⟨row, rfl⟩ | ⟨stored, row, rfl⟩
  · rw [same]
  · rw [Entity.rows_insert, List.filter_append, List.filter_cons,
      unseen_of_sees e unique foreign (e.covered_insert.mp covered)]
    exact List.append_nil _
  · rw [Entity.rows_update]
    obtain ⟨member, named⟩ := Entity.stands_update.mp stands
    have hidden := unseen_of_sees e unique foreign (e.covered_update.mp covered)
    refine filter_map_of_unseen fun old present => ?_
    by_cases same : e.mapper.key old = e.mapper.key row
    · obtain rfl : old = stored :=
        List.inj_on_of_nodup_map (e.keys_nodup unique) present member (same.trans named)
      refine .inr ⟨hidden, ?_⟩
      rw [if_pos same, sees_assign e preserves]
      exact hidden
    · exact .inl (if_neg same)

theorem filter_insert_foreign {R : Type} {owner : R → String} (rows : List R) (row : R)
    (foreign : scope.sees tenantId = false) (mine : scope.sees (owner row) = true) :
    (rows ++ [row]).filter (fun row => (Scope.tenant tenantId).sees (owner row)) =
      rows.filter fun row => (Scope.tenant tenantId).sees (owner row) := by
  have other : (Scope.tenant tenantId).sees (owner row) = false := by
    refine beq_false_of_ne fun same => ?_
    rw [← same, foreign] at mine
    cases mine
  rw [List.filter_append, List.filter_cons, other]
  exact List.append_nil _

/-- A write in another scope changes nothing that a tenant sees. -/
theorem ofTenant_apply (unique : t.keys.Nodup) (foreign : scope.sees tenantId = false)
    (stands : Stands t w) (covered : Covered scope t w) (preserves : Preserves w) :
    (t.apply w).ofTenant tenantId = t.ofTenant tenantId := by
  have seen := fun e => seen_apply_foreign e unique foreign stands covered preserves
  have ownership : (t.apply w).ownershipHistory.filter
      (fun row => (Scope.tenant tenantId).sees row.tenantId) =
      t.ownershipHistory.filter fun row => (Scope.tenant tenantId).sees row.tenantId := by
    cases w with
    | insertOwnership row => exact filter_insert_foreign _ row foreign covered
    | _ => rfl
  have status : (t.apply w).statusHistory.filter
      (fun row => (Scope.tenant tenantId).sees row.tenantId) =
      t.statusHistory.filter fun row => (Scope.tenant tenantId).sees row.tenantId := by
    cases w with
    | insertStatus row => exact filter_insert_foreign _ row foreign covered
    | _ => rfl
  have attributions : (t.apply w).attributions.filter
      (fun row => (Scope.tenant tenantId).sees row.tenantId) =
      t.attributions.filter fun row => (Scope.tenant tenantId).sees row.tenantId := by
    cases w with
    | insertAttribution row => exact filter_insert_foreign _ row foreign covered
    | _ => rfl
  simp only [Tables.ofTenant, ownership, status, attributions, Tables.mk.injEq, true_and, and_true]
  exact ⟨seen .tenant, seen .user, seen .session, seen .invitation, seen .delegation, seen .parcel,
    seen .geometry, seen .evidence⟩

/-- So does a commit in another scope. -/
theorem Warranted.ofTenant {context : Context} {ws : List Write}
    (warranted : Warranted context scope t ws) (grounded : steadily.Grounded t ws)
    (unique : t.keys.Nodup) (foreign : scope.sees tenantId = false) :
    (engine.applyAll t ws).ofTenant tenantId = t.ofTenant tenantId := by
  obtain ⟨granted, preserves, context⟩ := warranted
  clear context
  induction ws generalizing t with
  | nil => rfl
  | cons w ws ih =>
      obtain ⟨⟨absent, stands⟩, rest⟩ := grounded
      have one := ofTenant_apply unique foreign stands granted.1 (preserves w List.mem_cons_self)
      have later := ih rest (engine.keys_apply_nodup unique absent) granted.2
        fun w member => preserves w (List.mem_cons_of_mem _ member)
      exact later.trans one

end Tenants

/-! ## Isolation -/

section Isolation

variable {ι : Type} [DecidableEq ι] {fresh : Tables → Memo → Write → Prop}
  {platform : ServicePlatform} {ctx : ι → ExecutionContext} {call : ι → BackendCall}
  {base t t' tables : Tables} {log : List (ι × Except PyExc (ServiceAnswer ⊕ IdentityAnswer))}
  {w w' : World ι DbStatement PyExc (ServiceAnswer ⊕ IdentityAnswer) (Database ι) DbSession}

/-- **Every run of the backend is a sequence of transactions**, between any two of its states,
in whatever way the statements of its calls are interleaved, and wherever they crash: each is the
one commit of the unit of work of a call, which ends in between with the result that the commit
belongs to, and every unit of work that ends with a value in between is among them. What is
committed is in the scope of its call and of its context, and is what its request may commit;
beside it only audit entries are, one at a time. -/
theorem calls_serial (unique : tables.keys.Nodup)
    (before : World.Reaches (postgres ι) (backendWorld platform ctx call tables) w)
    (reaches : World.Reaches (postgres ι) w w') :
    ∃ log, Chronicle steadily
      (fun index result t ws =>
        Accounts tables (fun _ _ _ => True) platform (ctx index) (call index) result t ws)
      w w' log :=
  (chronicle_of_reaches unique before reaches).2

omit [DecidableEq ι] in
/-- What a tenant sees, after a sequence of transactions in other scopes. -/
theorem Serial.ofTenant {tenantId : String}
    (serial : Serial steadily (fun index result t ws =>
      Accounts base fresh platform (ctx index) (call index) result t ws) t log t')
    (foreign : ∀ entry ∈ log, (scopeOf (ctx entry.1)).sees tenantId = false) :
    t'.ofTenant tenantId = t.ofTenant tenantId := by
  refine serial.induction (I := fun u => u.ofTenant tenantId = t.ofTenant tenantId) ?_ ?_ rfl
  · rintro u _ _ ⟨row, rfl⟩ same
    exact same
  · intro index result u ws member makes accounts same
    exact (accounts.warranted.ofTenant makes.grounded makes.unique (foreign _ member)).trans same

end Isolation

/-! ## What lasts -/

/-- Rows stay where they are, with what is frozen of them, and new ones come at the end;
histories, attributions and the audit log only grow at the end; counters only rise. -/
structure Persists (t t' : Tables) : Prop where
  rows : ∀ (e : Entity), (e.mapper.rows t).map e.frozen <+: (e.mapper.rows t').map e.frozen
  auditLog : t.auditLog <+: t'.auditLog
  ownershipHistory : t.ownershipHistory <+: t'.ownershipHistory
  statusHistory : t.statusHistory <+: t'.statusHistory
  attributions : t.attributions <+: t'.attributions
  counters : ∀ code last, t.counter code = some last →
    ∃ later, t'.counter code = some later ∧ last ≤ later

section Persists

variable {t t' t'' : Tables} {w : Write}

theorem Persists.refl (t : Tables) : Persists t t where
  rows := fun _ => List.prefix_rfl
  auditLog := List.prefix_rfl
  ownershipHistory := List.prefix_rfl
  statusHistory := List.prefix_rfl
  attributions := List.prefix_rfl
  counters := fun _ last found => ⟨last, found, Nat.le_refl _⟩

theorem Persists.trans (first : Persists t t') (second : Persists t' t'') : Persists t t'' where
  rows := fun e => (first.rows e).trans (second.rows e)
  auditLog := first.auditLog.trans second.auditLog
  ownershipHistory := first.ownershipHistory.trans second.ownershipHistory
  statusHistory := first.statusHistory.trans second.statusHistory
  attributions := first.attributions.trans second.attributions
  counters := by
    intro code last found
    obtain ⟨middle, found', rises⟩ := first.counters code last found
    obtain ⟨later, found'', rises'⟩ := second.counters code middle found'
    exact ⟨later, found'', Nat.le_trans rises rises'⟩

/-- An UPDATE leaves what is frozen of the rows, in their order. -/
theorem frozen_update (e : Entity) (unique : t.keys.Nodup) {stored new : e.Row}
    (stands : Stands t (e.mapper.update stored new)) (steady : Steady (e.mapper.update stored new)) :
    (e.mapper.rows (t.apply (e.mapper.update stored new))).map e.frozen =
      (e.mapper.rows t).map e.frozen := by
  obtain ⟨present, named⟩ := Entity.stands_update.mp stands
  have kept := Entity.steady_update.mp steady
  rw [Entity.rows_update, Tables.replaceRow, List.map_map]
  refine List.map_congr_left fun old member => ?_
  dsimp only [Function.comp_apply]
  split
  · rename_i same
    obtain rfl : old = stored :=
      List.inj_on_of_nodup_map (e.keys_nodup unique) member present (same.trans named)
    cases e with
    | parcel | geometry => exact kept
    | _ => rfl
  · rfl

/-- A write inserts a row at the end, or leaves what is frozen. -/
theorem frozen_prefix (e : Entity) (unique : t.keys.Nodup) (stands : Stands t w)
    (steady : Steady w) :
    (e.mapper.rows t).map e.frozen <+: (e.mapper.rows (t.apply w)).map e.frozen := by
  rcases e.write_cases w with same | ⟨new, rfl⟩ | ⟨stored, new, rfl⟩
  · rw [same]
  · rw [Entity.rows_insert, List.map_append]
    exact List.prefix_append _ _
  · rw [frozen_update e unique stands steady]

/-- A write that stands keeps what lasts. -/
theorem persists_apply (unique : t.keys.Nodup) (stands : Stands t w) (steady : Steady w) :
    Persists t (t.apply w) where
  rows := fun e => frozen_prefix e unique stands steady
  auditLog := by
    cases w with
    | insertAudit row => exact List.prefix_append _ _
    | _ => exact List.prefix_rfl
  ownershipHistory := by
    cases w with
    | insertOwnership row => exact List.prefix_append _ _
    | _ => exact List.prefix_rfl
  statusHistory := by
    cases w with
    | insertStatus row => exact List.prefix_append _ _
    | _ => exact List.prefix_rfl
  attributions := by
    cases w with
    | insertAttribution row => exact List.prefix_append _ _
    | _ => exact List.prefix_rfl
  counters := by
    intro code last found
    rw [Tables.counter_apply]
    cases w with
    | upsertCounter code' value =>
        dsimp only
        split
        · rename_i same
          subst same
          have next : value = (t.counter code').getD 0 + 1 := stands
          exact ⟨value, rfl, by rw [next, found, Option.getD_some]; omega⟩
        · exact ⟨last, found, Nat.le_refl _⟩
    | _ => exact ⟨last, found, Nat.le_refl _⟩

/-- So does any number of commits. -/
theorem persists_of_advances (advances : steadily.Advances t t') : Persists t t' := by
  refine advances.induction (I := Persists t) (fun u ws makes persists => ?_) (.refl t)
  refine makes.induction (I := Persists t) (fun u w member unique stands persists => ?_) persists
  exact persists.trans (persists_apply unique stands (steady_makes makes w member))

variable {ι : Type} [DecidableEq ι] {platform : ServicePlatform} {ctx : ι → ExecutionContext}
  {call : ι → BackendCall}

/-- **Nothing that was committed is lost, and no identity ever changes**, whatever the
interleaving: of any two states of a run, in the later one every row of every class is still
there, at its place, with its identifier, tenant, creator and every other column that is written
once (of a parcel its number, although every update assigns the number from a copy); the
append-only tables have only been appended to; and no counter has gone back. -/
theorem rows_persist {tables : Tables} (unique : tables.keys.Nodup)
    {w w' : World ι DbStatement PyExc (ServiceAnswer ⊕ IdentityAnswer) (Database ι) DbSession}
    (before : World.Reaches (postgres ι) (backendWorld platform ctx call tables) w)
    (reaches : World.Reaches (postgres ι) w w') : Persists w.db.tables w'.db.tables := by
  obtain ⟨_, log, chronicle⟩ := chronicle_of_reaches unique before reaches
  exact persists_of_advances chronicle.serial.advances

end Persists

/-! ## A village -/

/-- Two tenants, each with a user and a parcel. -/
def villageTables : Tables where
  tenants := [{ id := "t-1" }, { id := "t-2" }]
  identityUsers :=
    [{ id := sampleId 2, tenantId := "t-1", identitySubject := "s-2", email := "2" },
     { id := sampleId 3, tenantId := "t-2", identitySubject := "s-3", email := "3" }]
  parcels :=
    [{ parcelId := sampleId 1, tenantId := "t-1", countryCode := "NG", origin := "o",
       createdBy := sampleId 2, createdAt := .now 0, updatedAt := .now 0 },
     { parcelId := sampleId 4, tenantId := "t-2", countryCode := "GH", origin := "o",
       createdBy := sampleId 3, createdAt := .now 0, updatedAt := .now 0 }]

/-- The user of the first tenant. -/
def settler : ExecutionContext :=
  { principalId := "00000000-0000-0000-0000-000000000002", tenantId := some "t-1" }

/-- A later day of the same month. -/
def sampleDay (day : Fin 31) : DateTime :=
  { DateTime.newYear with day := day.val + 1, date := by revert day; decide }

/-- Entries are told apart by one byte of their texts. -/
def platformAt (place : Nat) : ServicePlatform := { servicePlatform with sha256 := digestAt place }

/-- The settler archives the parcel of the first tenant. -/
def settlement : World Unit DbStatement PyExc (ServiceAnswer ⊕ IdentityAnswer) (Database Unit)
    DbSession :=
  backendWorld servicePlatform (fun _ => settler)
    (fun _ => .service (.parcel (.archive "00000000-0000-0000-0000-000000000001"))) villageTables

/-- Choices of the outside world with a new identifier each. -/
def drawn (count : Nat) : List (Choice Env) :=
  (List.range count).map fun i =>
    { env := { uuid := ⟨(16 + i) % 16 ^ 32, Nat.mod_lt _ (by decide)⟩, now := sampleNow } }

/-- What a request does that is played to its end, its world can do. -/
theorem reached_of_play {α : Type} (request : Request α) (t : Tables) (choices : List (Choice Env))
    (φ : Tables → Except PyExc α → Bool)
    (observed : (play (postgres Unit) () choices { tables := t } freshSession request).any
      (fun ended => φ ended.2.1.tables ended.1) = true) :
    ∃ w result, World.Reaches (postgres Unit)
      (World.start { tables := t } freshSession fun _ => request) w ∧
      (w.task ()).answer = some result ∧ φ w.db.tables result = true := by
  rw [Option.any_eq_true] at observed
  obtain ⟨⟨result, db, s⟩, played, holds⟩ := observed
  refine ⟨_, result, reaches_of_play rfl played, ?_, holds⟩
  cases result <;> simp [Task.answer, Program.ofExcept]

theorem settlement_reaches : ∃ w a, World.Reaches (postgres Unit) settlement w ∧
    (w.task ()).answer = some (.ok a) := by
  obtain ⟨w, result, reaches, answered, holds⟩ := reached_of_play
    (getDbSession settler ((BackendCall.service
      (.parcel (.archive "00000000-0000-0000-0000-000000000001"))).serve servicePlatform settler))
    villageTables (drawn 16) (fun _ result => result.toOption.isSome) (by decide +kernel)
  cases result with
  | error e => cases holds
  | ok a => exact ⟨w, a, reaches, answered⟩

theorem calls_serial_settlement : ∃ w a log, (w.task ()).answer = some (.ok a) ∧
    Chronicle steadily (fun _ result t ws => Accounts villageTables (fun _ _ _ => True)
      servicePlatform settler
      (.service (.parcel (.archive "00000000-0000-0000-0000-000000000001"))) result t ws)
      settlement w log := by
  obtain ⟨w, a, reaches, answered⟩ := settlement_reaches
  obtain ⟨log, chronicle⟩ := calls_serial (by decide) .refl reaches
  exact ⟨w, a, log, answered, chronicle⟩

theorem rows_persist_settlement : ∃ w a, World.Reaches (postgres Unit) settlement w ∧
    (w.task ()).answer = some (.ok a) ∧ Persists villageTables w.db.tables := by
  obtain ⟨w, a, reaches, answered⟩ := settlement_reaches
  exact ⟨w, a, reaches, answered, rows_persist (by decide) .refl reaches⟩

end LandVault
