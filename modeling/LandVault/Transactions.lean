import LandVault.Entities
import LandVault.Kernel.Outlines
import LandVault.Library.Statements

/-!
# Transactions that run alone

Where one request runs at a time, a transaction sees the tables it started from with its
own writes, and the identity map tells the truth: every record in it is a row that the
transaction sees. So each operation of a repository is a function of these tables. The
rules below say which, and that a statement that fails leaves an error that is no
`HTTPException`, after which nothing can be committed.

Audit entries are stored at once, whatever becomes of the transaction; the tables are
compared without the audit log.
-/

set_option autoImplicit false

namespace LandVault

open Kernel Kernel.Audit Library.Programs Library.ReadCommitted Python

/-! ## The tables without the audit log -/

def Tables.records (t : Tables) : Tables := { t with auditLog := [] }

namespace Tables

@[simp] theorem records_records (t : Tables) : t.records.records = t.records := rfl

@[simp] theorem records_insertAudit (t : Tables) (row : AuditLogRecord) :
    (t.apply (.insertAudit row)).records = t.records := by
  simp [records, apply, writeRow, Write.enters, Write.removes]

theorem records_apply_records (t : Tables) (w : Write) :
    (t.records.apply w).records = (t.apply w).records := by
  cases w <;> rfl

theorem records_applyAll {t t' : Tables} (same : t.records = t'.records) (ws : List Write) :
    (engine.applyAll t ws).records = (engine.applyAll t' ws).records := by
  induction ws generalizing t t' with
  | nil => exact same
  | cons w ws ih =>
      refine ih ?_
      have applied : (t.apply w).records = (t'.apply w).records := by
        rw [← records_apply_records, same, records_apply_records]
      exact applied

end Tables

namespace Entity

@[simp] theorem rows_records (e : Entity) (t : Tables) :
    e.mapper.rows t.records = e.mapper.rows t := by
  cases e <;> rfl

@[simp] theorem sees_records (e : Entity) (t : Tables) : e.mapper.sees t.records = e.mapper.sees t := by
  cases e <;> rfl

@[simp] theorem seen_records (e : Entity) (t : Tables) (scope : Scope) :
    e.mapper.seen t.records scope = e.mapper.seen t scope := by
  simp [Mapper.seen]

theorem records_insert (e : Entity) (t : Tables) (row : e.Row) :
    (t.apply (e.mapper.insert row)).records = t.records.apply (e.mapper.insert row) := by
  cases e <;> rfl

theorem records_update (e : Entity) (t : Tables) (stored row : e.Row) :
    (t.apply (e.mapper.update stored row)).records =
      t.records.apply (e.mapper.update stored row) := by
  cases e <;> rfl

@[simp] theorem foreign_records (e : Entity) (t : Tables) :
    e.mapper.foreign t.records = e.mapper.foreign t := by
  cases e <;> rfl

/-- A key names at most one of the rows that are seen. -/
theorem seen_unique (e : Entity) {t : Tables} (unique : t.keys.Nodup) {scope : Scope}
    {row row' : e.Row} (member : row ∈ e.mapper.seen t scope)
    (member' : row' ∈ e.mapper.seen t scope) (same : e.mapper.key row = e.mapper.key row') :
    row = row' :=
  List.inj_on_of_nodup_map (e.keys_nodup unique) (List.mem_of_mem_filter member)
    (List.mem_of_mem_filter member') same

theorem find_seen (e : Entity) {t : Tables} (unique : t.keys.Nodup) {scope : Scope} {row : e.Row}
    (member : row ∈ e.mapper.seen t scope) :
    (e.mapper.seen t scope).find? (e.mapper.key · = e.mapper.key row) = some row :=
  (find?_eq_some_iff ((e.keys_nodup unique).sublist (List.filter_sublist.map _))).mpr ⟨member, rfl⟩

/-- The errors of a table's columns come from the database. -/
theorem values_refusal (e : Entity) {row : e.Row} {error : PyExc}
    (raised : e.mapper.values row = .error error) : error.isRefusal = true := by
  cases e <;> simp only [mapper, Identity.userMapper, Identity.tenantMapper, Identity.sessionMapper,
    Identity.invitationMapper, Identity.delegationMapper, Registry.parcelMapper,
    Spatial.geometryMapper, Evidence.evidenceMapper] at raised <;>
    first | cases raised | (split at raised <;> cases raised; rfl)

theorem values_notHttp (e : Entity) {row : e.Row} {error : PyExc}
    (raised : e.mapper.values row = .error error) : error.isHttp = false :=
  notHttp_of_isRefusal (e.values_refusal raised)

end Entity

theorem tenantExists_refusal {constraint id : String} {t : Tables} {e : PyExc}
    (raised : tenantExists constraint t id = .error e) : e.isRefusal = true := by
  unfold tenantExists at raised
  split at raised <;> cases raised
  rfl

theorem userExists_refusal {constraint : String} {id : UUID} {t : Tables} {e : PyExc}
    (raised : userExists constraint t id = .error e) : e.isRefusal = true := by
  unfold userExists at raised
  split at raised <;> cases raised
  rfl

theorem parcelExists_refusal {constraint : String} {id : UUID} {t : Tables} {e : PyExc}
    (raised : parcelExists constraint t id = .error e) : e.isRefusal = true := by
  unfold parcelExists at raised
  split at raised <;> cases raised
  rfl

theorem optionalUserExists_refusal {constraint : String} {id : Option UUID} {t : Tables} {e : PyExc}
    (raised : optionalUserExists constraint t id = .error e) : e.isRefusal = true := by
  unfold optionalUserExists at raised
  split at raised
  · cases raised
  · exact userExists_refusal raised

theorem bind_refusal {first rest : Except PyExc Unit} {e : PyExc}
    (head : first = .error e → e.isRefusal = true) (tail : rest = .error e → e.isRefusal = true)
    (raised : (first.bind fun _ => rest) = .error e) : e.isRefusal = true := by
  rcases bind_eq_error raised with failed | ⟨_, _, failed⟩
  · exact head failed
  · exact tail failed

/-- The errors of a table's foreign keys come from the database. -/
theorem Entity.foreign_refusal (e : Entity) {t : Tables} {row : e.Row} {error : PyExc}
    (raised : e.mapper.foreign t row = .error error) : error.isRefusal = true := by
  cases e with
  | user => exact tenantExists_refusal raised
  | tenant => exact optionalUserExists_refusal raised
  | session => exact userExists_refusal raised
  | invitation => exact bind_refusal userExists_refusal tenantExists_refusal raised
  | delegation =>
      exact bind_refusal tenantExists_refusal (bind_refusal userExists_refusal
        (bind_refusal userExists_refusal optionalUserExists_refusal)) raised
  | parcel =>
      exact bind_refusal tenantExists_refusal
        (bind_refusal userExists_refusal optionalUserExists_refusal) raised
  | geometry =>
      exact bind_refusal tenantExists_refusal
        (bind_refusal parcelExists_refusal userExists_refusal) raised
  | evidence =>
      exact bind_refusal tenantExists_refusal (bind_refusal parcelExists_refusal
        (bind_refusal userExists_refusal optionalUserExists_refusal)) raised

theorem Entity.foreign_notHttp (e : Entity) {t : Tables} {row : e.Row} {error : PyExc}
    (raised : e.mapper.foreign t row = .error error) : error.isHttp = false :=
  notHttp_of_isRefusal (e.foreign_refusal raised)

/-! ## The identity map tells the truth -/

/-- Every record of the identity map is a row that the transaction sees. -/
def Within (t : Tables) (memo : Memo) : Prop :=
  ∀ (e : Entity), ∀ row ∈ e.mapper.loaded memo, row ∈ e.mapper.seen t memo.scope

/-- Keep a record, over tables in which it is visible and the others have stayed. -/
theorem within_keep {e : Entity} {t t' : Tables} {memo : Memo} {row : e.Row}
    (within : Within t memo) (visible : row ∈ e.mapper.seen t' memo.scope)
    (same : ∀ other ∈ e.mapper.seen t memo.scope, e.mapper.key other ≠ e.mapper.key row →
      other ∈ e.mapper.seen t' memo.scope)
    (rest : ∀ e' : Entity, e' ≠ e → ∀ other ∈ e'.mapper.seen t memo.scope,
      other ∈ e'.mapper.seen t' memo.scope) :
    Within t' (e.mapper.keep row memo) := by
  intro e' other member
  rw [Entity.scope_keep]
  by_cases mine : e' = e
  · subst mine
    rcases Entity.mem_loaded_keep.mp member with rfl | ⟨old, different⟩
    · exact visible
    · exact same other (within _ other old) different
  · rw [Entity.loaded_keep_of_ne mine] at member
    exact rest e' mine other (within e' other member)

/-- A row that is seen may be kept. -/
theorem within_load {e : Entity} {t : Tables} {memo : Memo} {row : e.Row} (within : Within t memo)
    (visible : row ∈ e.mapper.seen t memo.scope) : Within t (e.mapper.keep row memo) :=
  within_keep within visible (fun _ member _ => member) (fun _ _ _ member => member)

theorem within_insert {e : Entity} {t : Tables} {memo : Memo} {row : e.Row} (within : Within t memo)
    (visible : e.mapper.sees t memo.scope row = true) :
    Within (t.apply (e.mapper.insert row)) (e.mapper.keep row memo) := by
  refine within_keep within ?_ ?_ ?_
  · rw [Entity.mem_seen, Entity.rows_insert]
    exact ⟨List.mem_append_right _ (List.mem_singleton_self row), e.sees_apply _ visible⟩
  · intro other member _
    rw [Entity.mem_seen, Entity.rows_insert]
    exact ⟨List.mem_append_left _ (Entity.mem_seen.mp member).1,
      e.sees_apply _ (Entity.mem_seen.mp member).2⟩
  · intro e' different other member
    rw [Entity.mem_seen, Entity.rows_insert_of_ne different]
    exact ⟨(Entity.mem_seen.mp member).1, e'.sees_apply _ (Entity.mem_seen.mp member).2⟩

theorem within_update {e : Entity} {t : Tables} {memo : Memo} {loaded new : e.Row}
    (within : Within t memo) (visible : loaded ∈ e.mapper.seen t memo.scope)
    (edit : e.mapper.merge loaded new loaded = new) :
    Within (t.apply (e.mapper.update loaded new)) (e.mapper.keep new memo) := by
  have key : e.mapper.key new = e.mapper.key loaded := by
    rw [← edit]
    exact e.mapper.key_merge loaded new loaded
  refine within_keep within ?_ ?_ ?_
  · rw [Entity.mem_seen]
    refine ⟨(Entity.mem_rows_update (Entity.mem_seen.mp visible).1 edit).2 rfl, e.sees_apply _ ?_⟩
    rw [← edit, e.sees_merge]
    exact (Entity.mem_seen.mp visible).2
  · intro other member different
    rw [Entity.mem_seen]
    exact ⟨(Entity.mem_rows_update (Entity.mem_seen.mp member).1 edit).1 (key ▸ different),
      e.sees_apply _ (Entity.mem_seen.mp member).2⟩
  · intro e' different other member
    rw [Entity.mem_seen, Entity.rows_update_of_ne different]
    exact ⟨(Entity.mem_seen.mp member).1, e'.sees_apply _ (Entity.mem_seen.mp member).2⟩

theorem within_reads {t : Tables} {memo : Memo} (within : Within t memo) (reads : List Read) :
    Within t { memo with reads } := by
  intro e row member
  rw [e.loaded_reads] at member
  exact within e row member

/-- A write of no class keeps the identity map true. -/
theorem within_apart {t : Tables} {memo : Memo} {w : Write} (within : Within t memo)
    (apart : ∀ e : Entity, e.mapper.rows (t.apply w) = e.mapper.rows t) :
    Within (t.apply w) memo := by
  intro e row member
  obtain ⟨stored, visible⟩ := Entity.mem_seen.mp (within e row member)
  rw [Entity.mem_seen, apart]
  exact ⟨stored, e.sees_apply w visible⟩

/-- A write that no class and not the audit log knows of. -/
structure Unmapped (w : Write) : Prop where
  rows : ∀ (e : Entity) (t : Tables), e.mapper.rows (t.apply w) = e.mapper.rows t
  records : ∀ t : Tables, (t.apply w).records = t.records.apply w

/-! ## The row of a key -/

namespace Entity

variable {e : Entity} {t : Tables} {scope : Scope}

/-- The row that a key names among those that are seen. -/
def lookup (e : Entity) (t : Tables) (scope : Scope) (key : e.Id) : Option e.Row :=
  (e.mapper.seen t scope).find? (e.mapper.key · = key)

theorem mem_of_lookup {key : e.Id} {row : e.Row} (found : e.lookup t scope key = some row) :
    row ∈ e.mapper.seen t scope ∧ e.mapper.key row = key :=
  ⟨List.mem_of_find?_eq_some found, by simpa using List.find?_some found⟩

theorem lookup_of_mem (unique : t.keys.Nodup) {row : e.Row} (member : row ∈ e.mapper.seen t scope) :
    e.lookup t scope (e.mapper.key row) = some row :=
  e.find_seen unique member

theorem mem_rows_of_seen {row : e.Row} (member : row ∈ e.mapper.seen t scope) :
    row ∈ e.mapper.rows t :=
  List.mem_of_mem_filter member

/-- A super administrator's settings hide no row of a tenant. -/
theorem seen_superAdmin (e : Entity) (tenanted : e ≠ .session) (t : Tables) :
    e.mapper.seen t .superAdmin = e.mapper.rows t := by
  refine List.filter_eq_self.mpr fun row _ => ?_
  cases e with
  | session => exact absurd rfl tenanted
  | _ => rfl

end Entity

/-- An answer that one row has, and no other. -/
theorem mem_of_filter_eq {R : Type} {rows : List R} {condition : R → Bool} {found : Option R}
    {row : R} (one : rows.filter condition = found.toList) (answered : found = some row) :
    row ∈ rows ∧ condition row = true := by
  subst answered
  exact List.mem_filter.mp (one ▸ List.mem_singleton_self row)

theorem toUuid_ok {text : String} {id : UUID} (parsed : toUuid text = .ok id) :
    UUID.parse text = some id := by
  unfold toUuid at parsed
  split at parsed
  · rename_i id' same
    cases parsed
    exact same
  · cases parsed

/-! ## A transaction in progress -/

/-- Where a transaction started: the tables, its settings and its time. -/
structure Transaction where
  base : Tables
  scope : Scope
  startedAt : Nat

/-- What turns keep: the committed tables are among the allowed ones. -/
def turnProtocol (allowed : Tables → Prop) : Protocol Tables Write where
  invariant := fun t => allowed t.records

/-- The transaction `x` has staged `u`. -/
structure Staged (x : Transaction) (u : Tables) (db : Database Unit) (s : DbSession) : Prop where
  committed : db.tables.records = x.base
  seen : (engine.view db s).records = u
  active : s.active = true
  whole : s.broken = false
  startedAt : s.startedAt = x.startedAt
  scope : s.memo.scope = x.scope
  within : Within u s.memo
  unique : (engine.view db s).keys.Nodup

/-- The transaction `x` is lost. -/
structure Broken (x : Transaction) (db : Database Unit) (s : DbSession) : Prop where
  committed : db.tables.records = x.base
  broken : s.broken = true

/-- An error after which nothing of the transaction is committed. -/
def Failed (x : Transaction) (u : Tables) (e : PyExc) (db : Database Unit) (s : DbSession) : Prop :=
  e.isHttp = false ∧ (Broken x db s ∨ Staged x u db s)

/-- A program that runs alone keeps the committed tables among the allowed ones, and ends
with `Q` of its value or `E` of its error. -/
abbrev Keeps {α : Type} (allowed : Tables → Prop) (C : Env → Prop)
    (Q : α → Assertion (Database Unit) DbSession) (E : PyExc → Assertion (Database Unit) DbSession)
    (program : Request α) : Assertion (Database Unit) DbSession :=
  Meets .always (fun choice => C choice.env) ((turnProtocol allowed).contract engine :
    Contract (postgres Unit)) () Q E program

section Rules

variable {α β : Type} {allowed : Tables → Prop} {C : Env → Prop} {x : Transaction} {u : Tables}
  {db : Database Unit} {s : DbSession}

/-- A statement inside the transaction. -/
theorem Staged.query {run : View Tables Memo Env → Except PyExc (Effect Write Memo PyExc β)}
    {F : PyExc → Prop} {G : β → Tables → Prop} (staged : Staged x u db s)
    (raises : ∀ v env e w, v.records = u →
      Raised engine run ⟨v, s.memo, x.startedAt, env⟩ e w → F e)
    (reads : ∀ v env memo b, v.records = u → v.keys.Nodup → C env →
      run ⟨v, s.memo, x.startedAt, env⟩ = .ok ⟨memo, .ok b, none⟩ →
      memo.scope = x.scope ∧ Within u memo ∧ G b u)
    (writes : ∀ v env memo b w, v.records = u → v.keys.Nodup → C env →
      run ⟨v, s.memo, x.startedAt, env⟩ = .ok ⟨memo, .ok b, some w⟩ →
      memo.scope = x.scope ∧ Within (v.apply w).records memo ∧ G b (v.apply w).records) :
    Keeps allowed C (fun b db s => ∃ u', Staged x u' db s ∧ G b u')
      (fun e db s => F e ∧ (Broken x db s ∨ Staged x u db s)) (.perform (.query run)) db s := by
  refine meets_query trivial ?_ ?_
  · intro db₁ _ broken
    simp [staged.whole] at broken
  intro db₁ choice answer db' s' turn chosen _ ran held
  cases turn.rely.eq_of_subsingleton
  simp only [Db.advance_of_active staged.active, Session.opened_of_active staged.active] at ran
  have unique := staged.unique
  cases ran with
  | refused raised =>
      exact ⟨raises _ _ _ _ staged.seen (staged.startedAt ▸ raised), .inl ⟨staged.committed, rfl⟩⟩
  | read ran =>
      obtain ⟨scope, within, holds⟩ :=
        reads _ _ _ _ staged.seen unique chosen (staged.startedAt ▸ ran)
      exact ⟨u, ⟨staged.committed, staged.seen, staged.active, staged.whole, staged.startedAt,
        scope, within, unique⟩, holds⟩
  | @wrote memo b w ran _ _ =>
      obtain ⟨scope, within, holds⟩ :=
        writes _ _ _ _ _ staged.seen unique chosen (staged.startedAt ▸ ran)
      refine ⟨_, ⟨staged.committed, ?_, staged.active, staged.whole, staged.startedAt, scope,
        within, held.unique⟩, holds⟩
      have after : engine.view (db.acquire () (engine.guards w))
          { s with memo := memo, pending := s.pending ++ [w] } =
          (engine.view db s).apply w := engine.applyAll_append _ _ _
      rw [after]

/-- Leaving out the audit log leaves the entries of the other tables. -/
theorem Tables.keys_records (t : Tables) : t.records.keys.Sublist t.keys := by
  have log : t.records.recordKeys.Sublist t.recordKeys := by
    simp only [recordKeys, records, List.map_nil, List.nil_append, List.append_assoc]
    exact (List.sublist_append_right _ _).trans (List.sublist_append_right _ _)
  exact (log.append_right _).append_right _

theorem Tables.records_keys_nodup {t : Tables} (unique : t.keys.Nodup) : t.records.keys.Nodup :=
  unique.sublist t.keys_records

theorem Staged.keys (staged : Staged x u db s) : u.keys.Nodup := by
  rw [← staged.seen]
  exact Tables.records_keys_nodup staged.unique

/-- What an entity's operation sees is what was staged. -/
theorem seen_eq {v : Tables} (same : v.records = u) (e : Entity) (scope : Scope) :
    e.mapper.seen v scope = e.mapper.seen u scope := by
  rw [← same, Entity.seen_records]

/-- A statement that reads, and notes what it has read. -/
theorem Staged.peek (staged : Staged x u db s)
    {run : View Tables Memo Env → Except PyExc (Effect Write Memo PyExc β)} {G : β → Prop}
    (errors : ∀ v e, (run v = .error e ∨ ∃ memo w, run v = .ok ⟨memo, .error e, w⟩) →
      e.isHttp = false)
    (reads : ∀ v env memo b w, v.records = u → v.keys.Nodup → C env →
      run ⟨v, s.memo, x.startedAt, env⟩ = .ok ⟨memo, .ok b, w⟩ →
      w = none ∧ (∃ reads, memo = { s.memo with reads }) ∧ G b) :
    Keeps allowed C (fun b db s => Staged x u db s ∧ G b) (Failed x u) (.perform (.query run))
      db s := by
  refine (staged.query (F := fun e => e.isHttp = false) (G := fun b u' => u' = u ∧ G b)
    ?_ ?_ ?_).mono ?_ fun _ _ _ failed => failed
  · intro v env e w _ raised
    cases raised with
    | disconnected => rfl
    | run raised => exact errors _ e (.inl raised)
    | answer raised => exact errors _ e (.inr ⟨_, _, raised⟩)
    | violation => rfl
  · intro v env memo b same unique chosen ran
    obtain ⟨_, ⟨reads, rfl⟩, holds⟩ := reads v env memo b none same unique chosen ran
    exact ⟨staged.scope, within_reads staged.within reads, rfl, holds⟩
  · intro v env memo b w same unique chosen ran
    cases (reads v env memo b _ same unique chosen ran).1
  · rintro b db s ⟨_, after, rfl, holds⟩
    exact ⟨after, holds⟩

/-- A statement that writes a row of no class. -/
theorem Staged.stage (staged : Staged x u db s)
    {run : View Tables Memo Env → Except PyExc (Effect Write Memo PyExc β)}
    {G : β → Write → Prop}
    (errors : ∀ v e, (run v = .error e ∨ ∃ memo w, run v = .ok ⟨memo, .error e, w⟩) →
      e.isHttp = false)
    (writes : ∀ v env memo b w, v.records = u → v.keys.Nodup → C env →
      run ⟨v, s.memo, x.startedAt, env⟩ = .ok ⟨memo, .ok b, w⟩ →
      memo = s.memo ∧ ∃ w', w = some w' ∧ Unmapped w' ∧ G b w') :
    Keeps allowed C (fun b db s => ∃ w, G b w ∧ Staged x (u.apply w) db s) (Failed x u)
      (.perform (.query run)) db s := by
  refine (staged.query (F := fun e => e.isHttp = false)
    (G := fun b u' => ∃ w, G b w ∧ u' = u.apply w) ?_ ?_ ?_).mono ?_ fun _ _ _ failed => failed
  · intro v env e w _ raised
    cases raised with
    | disconnected => rfl
    | run raised => exact errors _ e (.inl raised)
    | answer raised => exact errors _ e (.inr ⟨_, _, raised⟩)
    | violation => rfl
  · intro v env memo b same unique chosen ran
    obtain ⟨_, _, absurd, _⟩ := writes v env memo b _ same unique chosen ran
    cases absurd
  · intro v env memo b w same unique chosen ran
    obtain ⟨rfl, w', wrote, unmapped, holds⟩ := writes v env memo b _ same unique chosen ran
    cases wrote
    rw [unmapped.records, same]
    exact ⟨staged.scope, within_apart staged.within fun e => unmapped.rows e u, w, holds, rfl⟩
  · rintro b db s ⟨_, after, w, holds, rfl⟩
    exact ⟨w, holds, after⟩

/-- The connection broke. -/
def Cut (x : Transaction) (u : Tables) (e : PyExc) (db : Database Unit) (s : DbSession) : Prop :=
  e = .disconnected ∧ (Broken x db s ∨ Staged x u db s)

theorem Cut.failed {e : PyExc} (cut : Cut x u e db s) : Failed x u e db s :=
  ⟨cut.1 ▸ rfl, cut.2⟩

/-- `session.get` finds the row that the transaction sees. -/
theorem Staged.get (staged : Staged x u db s) (e : Entity) (key : e.Id) :
    Keeps allowed C
      (fun found db s => Staged x u db s ∧
        found = (e.mapper.seen u x.scope).find? (e.mapper.key · = key))
      (Cut x u) (e.mapper.get key) db s := by
  have scope := staged.scope
  refine (staged.query (G := fun found u' => u' = u ∧
    found = (e.mapper.seen u x.scope).find? (e.mapper.key · = key)) ?_ ?_ ?_).mono ?_
      fun _ _ _ cut => cut
  · intro v env e' w _ raised
    cases raised with
    | disconnected => rfl
    | run raised | answer raised | violation raised _ _ => grind
  · intro v env memo found same unique _ ran
    rw [scope] at ran
    have visible := seen_eq same e x.scope
    have mapped : ∀ record ∈ e.mapper.loaded s.memo, e.mapper.key record = key →
        (e.mapper.seen u x.scope).find? (e.mapper.key · = key) = some record := by
      rintro record member rfl
      have within := staged.within e record member
      rw [scope, ← visible] at within
      rw [← visible]
      exact e.find_seen unique within
    split at ran
    · rename_i record found
      cases ran
      unfold Mapper.mapped at found
      split at found
      · cases found
      · have key := List.find?_some found
        exact ⟨scope, staged.within, rfl,
          (mapped record (List.mem_of_find?_eq_some found) (by simpa using key)).symm⟩
    · split at ran
      · rename_i row found
        cases ran
        rw [visible] at found
        refine ⟨by simpa using scope, within_load staged.within ?_, rfl, found.symm⟩
        rw [scope]
        exact List.mem_of_find?_eq_some found
      · rename_i absent
        cases ran
        rw [visible] at absent
        exact ⟨scope, staged.within, rfl, absent.symm⟩
  · intro v env memo found w _ _ _ ran
    grind
  · rintro found db s ⟨_, after, rfl, same⟩
    exact ⟨after, same⟩

theorem Staged.lookup (staged : Staged x u db s) (e : Entity) (key : e.Id) :
    Keeps allowed C (fun found db s => Staged x u db s ∧ found = e.lookup u x.scope key)
      (Failed x u) (e.mapper.get key) db s :=
  (staged.get e key).mono (fun _ _ _ found => found) fun _ _ _ cut => cut.failed

/-- Loading rows that are seen keeps the identity map true. -/
theorem within_found {e : Entity} {v : View Tables Memo Env} {rows : List e.Row} {memo : Memo}
    (within : Within u memo) (visible : ∀ row ∈ rows, row ∈ e.mapper.seen u memo.scope) :
    Within u (rows.foldl (e.mapper.found v) memo) ∧
      (rows.foldl (e.mapper.found v) memo).scope = memo.scope := by
  induction rows generalizing memo with
  | nil => exact ⟨within, rfl⟩
  | cons row rows ih =>
      have one : Within u (e.mapper.found v memo row) ∧
          (e.mapper.found v memo row).scope = memo.scope := by
        unfold Mapper.found
        split
        · exact ⟨within, rfl⟩
        · exact ⟨within_load within (visible row List.mem_cons_self), by simp⟩
      have rest := ih one.1 fun other member => by
        rw [one.2]
        exact visible other (List.mem_cons_of_mem _ member)
      exact ⟨rest.1, rest.2.trans one.2⟩

/-- A SELECT of records finds the rows that the transaction sees. -/
theorem Staged.select (staged : Staged x u db s) (e : Entity) (condition : e.Row → Bool) :
    Keeps allowed C
      (fun rows db s => Staged x u db s ∧ rows = (e.mapper.seen u x.scope).filter condition)
      (Cut x u) (e.mapper.select condition) db s := by
  have scope := staged.scope
  refine (staged.query (G := fun rows u' => u' = u ∧
    rows = (e.mapper.seen u x.scope).filter condition) ?_ ?_ ?_).mono ?_ fun _ _ _ cut => cut
  · intro v env e' w _ raised
    cases raised with
    | disconnected => rfl
    | run raised | answer raised | violation raised _ _ => cases raised
  · intro v env memo rows same unique _ ran
    have visible := seen_eq same e x.scope
    cases ran
    rw [scope]
    have known : ∀ row ∈ (e.mapper.seen v x.scope).filter condition,
        row ∈ e.mapper.seen u s.memo.scope := by
      intro row member
      rw [scope, ← visible]
      exact List.mem_of_mem_filter member
    have found := within_found (v := ⟨v, s.memo, x.startedAt, env⟩) staged.within known
    refine ⟨found.2.trans scope, found.1, rfl, ?_⟩
    rw [← visible]
    refine (List.map_congr_left fun row member => ?_).trans (List.map_id _)
    -- a record of the identity map is the row itself
    unfold Mapper.record Mapper.mapped
    split
    · rfl
    · cases mapped : (e.mapper.loaded s.memo).find? (e.mapper.key · = e.mapper.key row) with
      | none => rfl
      | some record =>
          have within := staged.within e record (List.mem_of_find?_eq_some mapped)
          rw [scope, ← visible] at within
          have key := List.find?_some mapped
          exact e.seen_unique unique within (List.mem_of_mem_filter member) (by simpa using key)
  · intro v env memo found w _ _ _ ran
    cases ran
  · rintro found db s ⟨_, after, rfl, same⟩
    exact ⟨after, same⟩

theorem Staged.selected (staged : Staged x u db s) (e : Entity) (condition : e.Row → Bool) :
    Keeps allowed C
      (fun rows db s => Staged x u db s ∧ rows = (e.mapper.seen u x.scope).filter condition)
      (Failed x u) (e.mapper.select condition) db s :=
  (staged.select e condition).mono (fun _ _ _ found => found) fun _ _ _ cut => cut.failed

/-- What `scalar_one_or_none` answers. -/
theorem Staged.scalarOneOrNone (staged : Staged x u db s) (e : Entity)
    (condition : e.Row → Bool) :
    Keeps allowed C
      (fun found db s => Staged x u db s ∧
        (e.mapper.seen u x.scope).filter condition = found.toList)
      (Failed x u) (e.mapper.scalarOneOrNone condition) db s := by
  refine (staged.selected e condition).bind ?_
  rintro rows db s ⟨staged, rfl⟩
  split
  · rename_i none
    exact ⟨staged, none⟩
  · rename_i record one
    exact ⟨staged, one⟩
  · exact ⟨rfl, .inr staged⟩

/-- A new record. -/
theorem Staged.add (staged : Staged x u db s) (e : Entity) (row : View Tables Memo Env → e.Row) :
    Keeps allowed C
      (fun added db' s' => (∃ v env, v.records = u ∧ C env ∧
          added = row ⟨v, s.memo, x.startedAt, env⟩) ∧
        e.mapper.foreign u added = .ok () ∧ e.mapper.sees u x.scope added = true ∧
        Staged x (u.apply (e.mapper.insert added)) db' s')
      (Failed x u) (e.mapper.add row) db s := by
  have scope := staged.scope
  refine (staged.query (G := fun added u' => (∃ v env, v.records = u ∧ C env ∧
      added = row ⟨v, s.memo, x.startedAt, env⟩) ∧ e.mapper.foreign u added = .ok () ∧
      e.mapper.sees u x.scope added = true ∧ u' = u.apply (e.mapper.insert added))
    ?_ ?_ ?_).mono ?_ fun _ _ _ failed => failed
  · intro v env e' w _ raised
    cases raised with
    | disconnected => rfl
    | run raised =>
        rcases bind_eq_error raised with failed | ⟨_, _, failed⟩
        · exact e.values_notHttp failed
        · split at failed <;> cases failed
          rfl
    | answer raised =>
        obtain ⟨_, _, ran⟩ := bind_eq_ok raised
        split at ran
        · simp only [Except.ok.injEq, Effect.mk.injEq] at ran
          exact e.foreign_notHttp (map_eq_error ran.2.1)
        · cases ran
    | violation raised _ _ => rfl
  · intro v env memo added _ _ _ ran
    obtain ⟨_, _, ran⟩ := bind_eq_ok ran
    split at ran <;> simp at ran
  · intro v env memo added w same unique chosen ran
    obtain ⟨_, _, ran⟩ := bind_eq_ok ran
    split at ran
    · rename_i sees
      simp only [Except.ok.injEq, Effect.mk.injEq, Option.some.injEq] at ran
      obtain ⟨rfl, answered, rfl⟩ := ran
      obtain ⟨_, foreign, rfl⟩ := map_eq_ok answered
      have visible : e.mapper.sees u s.memo.scope (row ⟨v, s.memo, x.startedAt, env⟩) = true := by
        rw [← same, Entity.sees_records]
        exact sees
      rw [Entity.records_insert, same]
      refine ⟨by simpa using scope, within_insert staged.within visible, ⟨v, env, same, chosen, rfl⟩,
        ?_, scope ▸ visible, rfl⟩
      rw [← same, Entity.foreign_records]
      exact foreign
    · cases ran
  · rintro added db' s' ⟨_, after, made, foreign, sees, rfl⟩
    exact ⟨made, foreign, sees, after⟩

theorem Entity.merge_self (e : Entity) (row : e.Row) : e.mapper.merge row row row = row := by
  cases e with
  | parcel => simp [mapper, Registry.parcelMapper, Registry.ParcelRecord.merge]
  | geometry => simp [mapper, Spatial.geometryMapper, Spatial.ParcelGeometryRecord.merge]
  | _ =>
      simp [mapper, Identity.userMapper, Identity.tenantMapper, Identity.sessionMapper,
        Identity.invitationMapper, Identity.delegationMapper, Evidence.evidenceMapper]

/-- A write that leaves the partial indexes alone. -/
theorem apply_of_static {t : Tables} {w : Write} (enters : w.enters = []) (removes : w.removes = []) :
    t.apply w = { t.writeRow w with partialIndexes := t.partialIndexes } := by
  simp [Tables.apply, enters, removes]

/-- Writing a row over itself changes nothing. -/
theorem Entity.apply_update_self (e : Entity) {t : Tables} (unique : t.keys.Nodup) {row : e.Row}
    (member : row ∈ e.mapper.rows t) : t.apply (e.mapper.update row row) = t := by
  have same : Tables.replaceRow e.mapper.key e.mapper.assign row (e.mapper.rows t) =
      e.mapper.rows t := by
    refine (List.map_congr_left fun stored here => ?_).trans (List.map_id _)
    split
    · rename_i key
      have one := List.inj_on_of_nodup_map (e.keys_nodup unique) here member key
      rw [one]
      exact e.mapper.assign_of_merge (e.merge_self row)
    · rfl
  cases e with
  | user =>
      exact (apply_of_static rfl rfl).trans (congrArg (fun rows => { t with identityUsers := rows }) same)
  | tenant => exact (apply_of_static rfl rfl).trans (congrArg (fun rows => { t with tenants := rows }) same)
  | session =>
      exact (apply_of_static rfl rfl).trans
        (congrArg (fun rows => { t with identitySessions := rows }) same)
  | invitation =>
      exact (apply_of_static (by simp [mapper, Identity.invitationMapper, Write.enters])
        (by simp [mapper, Identity.invitationMapper, Write.removes])).trans
        (congrArg (fun rows => { t with invitations := rows }) same)
  | delegation =>
      exact (apply_of_static rfl rfl).trans (congrArg (fun rows => { t with delegations := rows }) same)
  | parcel =>
      exact (apply_of_static (by simp [mapper, Registry.parcelMapper, Write.enters])
        (by simp [mapper, Registry.parcelMapper, Write.removes])).trans
        (congrArg (fun rows => { t with parcels := rows }) same)
  | geometry =>
      exact (apply_of_static (by simp [mapper, Spatial.geometryMapper, Write.enters])
        (by simp [mapper, Spatial.geometryMapper, Write.removes])).trans
        (congrArg (fun rows => { t with parcelGeometries := rows }) same)
  | evidence =>
      exact (apply_of_static rfl rfl).trans
        (congrArg (fun rows => { t with evidenceRecords := rows }) same)

/-- An edit of a record that the transaction sees. -/
theorem Staged.flush (staged : Staged x u db s) (e : Entity) {loaded new : e.Row}
    (visible : loaded ∈ e.mapper.seen u x.scope)
    (edit : e.mapper.merge loaded new loaded = new) :
    Keeps allowed C
      (fun flushed db s => flushed = new ∧ Staged x (u.apply (e.mapper.update loaded new)) db s)
      (Failed x u) (e.mapper.flush loaded new) db s := by
  unfold Mapper.flush
  refine .ite (fun clean => ?_) fun _ => ?_
  · -- nothing differs, so there is no UPDATE
    cases e.mapper.eq_of_clean clean
    have stored : loaded ∈ e.mapper.rows (engine.view db s) := by
      rw [← Entity.rows_records, staged.seen]
      exact (Entity.mem_seen.mp visible).1
    have same := e.apply_update_self staged.unique stored
    have unchanged : u.apply (e.mapper.update loaded loaded) = u := by
      rw [← staged.seen, ← Entity.records_update, same]
    exact ⟨rfl, unchanged.symm ▸ staged⟩
  · have scope := staged.scope
    refine (staged.query (G := fun flushed u' => flushed = new ∧
      u' = u.apply (e.mapper.update loaded new)) ?_ ?_ ?_).mono ?_ fun _ _ _ failed => failed
    · intro v env e' w _ raised
      cases raised with
      | disconnected => rfl
      | run raised => split at raised <;> cases raised; rfl
      | answer raised =>
          split at raised
          · cases raised
          · simp only [Except.ok.injEq, Effect.mk.injEq] at raised
            exact e.foreign_notHttp (map_eq_error raised.2.1)
      | violation raised _ _ => rfl
    · intro v env memo flushed _ _ _ ran
      split at ran <;> simp at ran
    · intro v env memo flushed w same unique _ ran
      have stored : loaded ∈ e.mapper.seen v x.scope := by
        rw [seen_eq same]
        exact visible
      have found := e.find_seen unique stored
      rw [scope] at ran
      simp only [found, Except.ok.injEq, Effect.mk.injEq, Option.some.injEq, edit] at ran
      obtain ⟨rfl, answered, rfl⟩ := ran
      obtain ⟨_, _, rfl⟩ := map_eq_ok answered
      rw [Entity.records_update, same]
      exact ⟨by simpa using scope, within_update staged.within (scope ▸ visible) edit, rfl, rfl⟩
    · rintro flushed db' s' ⟨_, after, rfl, rfl⟩
      exact ⟨rfl, after⟩

/-- The transaction goes on, or it is lost. -/
def Live (x : Transaction) (u : Tables) (db : Database Unit) (s : DbSession) : Prop :=
  Staged x u db s ∨ Broken x db s

theorem Live.failed {e : PyExc} (live : Live x u db s) (notHttp : e.isHttp = false) :
    Failed x u e db s :=
  ⟨notHttp, live.symm⟩

theorem Staged.choose {pick : Env → β} {E : PyExc → Assertion (Database Unit) DbSession}
    (staged : Staged x u db s) :
    Keeps allowed C (fun b db s => Staged x u db s ∧ ∃ env, C env ∧ b = pick env) E
      (LandVault.choose pick) db s := by
  refine meets_choose trivial fun db₁ choice turn chosen => ?_
  cases turn.rely.eq_of_subsingleton
  exact ⟨staged, choice.env, chosen, rfl⟩

/-- An assertion that does not look at the audit log. -/
def Apart (L : Assertion (Database Unit) DbSession) : Prop :=
  ∀ db s db' s', L db s → db'.tables.records = db.tables.records → s'.pending = s.pending →
    s'.active = s.active → s'.broken = s.broken → s'.startedAt = s.startedAt → s'.memo = s.memo →
    Held engine () db' s' → L db' s'

theorem apart_staged : Apart (Staged x u) := by
  intro db s db' s' staged same pending active broken startedAt memo held
  refine ⟨same.trans staged.committed, ?_, active.trans staged.active, broken.trans staged.whole,
    startedAt.trans staged.startedAt, memo ▸ staged.scope, memo ▸ staged.within, held.unique⟩
  rw [← staged.seen, Engine.view, Engine.view, pending]
  exact Tables.records_applyAll same _

theorem apart_broken : Apart (Broken x) :=
  fun _ _ _ _ lost same _ _ broken _ _ _ =>
    ⟨same.trans lost.committed, broken.trans lost.broken⟩

theorem apart_live : Apart (Live x u) :=
  fun db s db' s' live same pending active broken startedAt memo held =>
    live.imp (apart_staged db s db' s' · same pending active broken startedAt memo held)
      (apart_broken db s db' s' · same pending active broken startedAt memo held)

theorem storedRecord_notHttp {platform : Platform} {entry : AuditEntry} {uuid4 : UUID} {e : PyExc}
    (raised : storedRecord platform entry uuid4 = .error e) : e.isHttp = false := by
  unfold storedRecord at raised
  split at raised <;> cases raised
  rfl

theorem insertedRecord_notHttp {platform : Platform} {entry : AuditEntry} {uuid4 : UUID} {e : PyExc}
    (raised : insertedRecord platform entry uuid4 = .error e) : e.isHttp = false :=
  (inserted_error raised).elim notHttp_of_isRefusal storedRecord_notHttp

/-- A statement in a session of its own leaves the transaction as it is, when it writes
audit entries only. -/
theorem Apart.eager {L : Assertion (Database Unit) DbSession} (apart : Apart L)
    {run : Tables → Env → Except PyExc (Option Write × β)} (holds : L db s)
    (raises : ∀ t env e, run t env = .error e → e.isHttp = false)
    (entries : ∀ t env w b, run t env = .ok (some w, b) → ∃ row, w = .insertAudit row) :
    Keeps allowed C (fun _ => L) (fun e db s => e.isHttp = false ∧ L db s)
      (.perform (.eager run)) db s := by
  refine meets_eager trivial ?_ ?_
  · intro db₁ env b w turn ran
    obtain ⟨row, rfl⟩ := entries _ _ _ _ ran
    have invariant : allowed db₁.tables.records := turn.invariant
    refine ⟨?_, trivial⟩
    show allowed (engine.apply db₁.tables (.insertAudit row)).records
    rw [show (engine.apply db₁.tables (.insertAudit row)).records = db₁.tables.records from
      Tables.records_insertAudit _ row]
    exact invariant
  · intro db₁ choice answer db' s' turn _ ran held
    cases turn.rely.eq_of_subsingleton
    cases ran with
    | disconnected => exact ⟨rfl, holds⟩
    | raised raised => exact ⟨raises _ _ _ raised, holds⟩
    | violation _ _ _ => exact ⟨rfl, holds⟩
    | read _ => exact holds
    | wrote ran _ =>
        obtain ⟨row, rfl⟩ := entries _ _ _ _ ran
        exact apart _ _ _ _ holds (Tables.records_insertAudit _ row) rfl rfl rfl rfl rfl held

/-- An audit entry changes nothing of the transaction. -/
theorem Apart.audit {L : Assertion (Database Unit) DbSession} (apart : Apart L) (holds : L db s)
    (platform : Platform) (ctx : ExecutionContext) (call : AuditCall) :
    Keeps allowed C (fun _ => L) (fun e db s => e.isHttp = false ∧ L db s)
      (Kernel.audit platform ctx call) db s := by
  refine Meets.bind (N := fun _ => L) ?_ fun prevHash db s holds =>
    Meets.bind (N := fun _ => L) ?_ fun chosen db s holds =>
      Meets.bind (N := fun _ => L) ?_ fun _ db s holds => holds
  · exact apart.eager holds (fun _ _ _ raised => nomatch raised) fun _ _ _ _ ran => nomatch ran
  · refine meets_choose trivial fun db₁ choice turn _ => ?_
    cases turn.rely.eq_of_subsingleton
    exact holds
  · refine apart.eager holds (fun _ _ _ raised => insertedRecord_notHttp (map_eq_error raised)) ?_
    intro t env w b ran
    obtain ⟨row, _, same⟩ := map_eq_ok ran
    cases same
    exact ⟨row, rfl⟩

theorem Staged.audit (staged : Staged x u db s) (platform : Platform) (ctx : ExecutionContext)
    (call : AuditCall) :
    Keeps allowed C (fun _ => Staged x u) (Failed x u) (Kernel.audit platform ctx call) db s :=
  (apart_staged.audit staged platform ctx call).mono (fun _ _ _ staged => staged)
    fun _ _ _ failed => ⟨failed.1, .inr failed.2⟩

theorem Live.audit (live : Live x u db s) (platform : Platform) (ctx : ExecutionContext)
    (call : AuditCall) :
    Keeps allowed C (fun _ => Live x u) (Failed x u) (Kernel.audit platform ctx call) db s :=
  (apart_live.audit live platform ctx call).mono (fun _ _ _ live => live)
    fun _ _ _ failed => failed.2.failed failed.1

/-! ## The unit of work -/

/-- A session between two transactions. -/
structure Idle (t : Tables) (db : Database Unit) (s : DbSession) : Prop where
  committed : db.tables.records = t
  fresh : s.memo = {}
  pending : s.pending = []
  inactive : s.active = false
  whole : s.broken = false
  unique : db.tables.keys.Nodup

theorem within_fresh (t : Tables) (scope : Scope) : Within t { scope } := by
  intro e row member
  cases e <;> cases member

/-- The first statement of a transaction. -/
theorem Idle.setConfig {t : Tables} (idle : Idle t db s) (scope : Scope)
    {E : PyExc → Assertion (Database Unit) DbSession}
    (fails : ∀ db s, db.tables.records = t → E .disconnected db s) :
    Keeps allowed C (fun _ db' s' => ∃ startedAt, db.clock ≤ startedAt ∧
        Staged ⟨t, scope, startedAt⟩ t db' s') E (setConfig scope) db s := by
  refine meets_query trivial ?_ ?_
  · intro db₁ _ broken
    simp [idle.whole] at broken
  intro db₁ choice answer db' s' turn chosen _ ran held
  cases turn.rely.eq_of_subsingleton
  cases ran with
  | refused raised =>
      cases raised with
      | disconnected => exact fails _ _ (by simpa [Db.release] using idle.committed)
      | run raised | answer raised | violation raised _ _ => cases raised
  | read ran =>
      cases ran
      refine ⟨_, db.le_advance_clock s choice.tick, by simpa using idle.committed, ?_, by simp,
        by simp [idle.whole], by simp [Session.opened, idle.inactive], by simp, ?_,
        held.unique⟩
      · simpa [Engine.view, idle.pending] using idle.committed
      · simpa [idle.fresh] using within_fresh t scope
  | wrote ran _ _ => cases ran

/-- The body of a request has ended with a value: the transaction can be committed, or is
lost. -/
def Ready (x : Transaction) (P : Tables → Prop) : Assertion (Database Unit) DbSession :=
  fun db s => Broken x db s ∨ ∃ u, Staged x u db s ∧ P u

/-- The body of a request has ended with an error: after an `HTTPException` the
transaction can be committed. -/
def Raising (x : Transaction) (P : PyExc → Tables → Prop) (e : PyExc) :
    Assertion (Database Unit) DbSession :=
  fun db s => (e.isHttp = true ∧ Ready x (P e) db s) ∨
    (e.isHttp = false ∧ db.tables.records = x.base)

theorem Staged.ready {P : Tables → Prop} (staged : Staged x u db s) (holds : P u) :
    Ready x P db s :=
  .inr ⟨u, staged, holds⟩

theorem Live.ready {P : Tables → Prop} (live : Live x u db s) (holds : P u) : Ready x P db s :=
  live.elim (Staged.ready · holds) .inl

theorem Ready.mono {P P' : Tables → Prop} (ready : Ready x P db s) (weaker : ∀ u, P u → P' u) :
    Ready x P' db s :=
  ready.imp id fun ⟨u, staged, holds⟩ => ⟨u, staged, weaker u holds⟩

theorem Raising.mono {P P' : PyExc → Tables → Prop} {e : PyExc} (raising : Raising x P e db s)
    (weaker : ∀ e u, P e u → P' e u) : Raising x P' e db s :=
  raising.imp (fun ⟨http, ready⟩ => ⟨http, ready.mono (weaker e)⟩) id

/-- An error after which nothing of the transaction will be committed, whatever it has
staged. -/
def Aborted (x : Transaction) (e : PyExc) : Assertion (Database Unit) DbSession :=
  fun db _ => e.isHttp = false ∧ db.tables.records = x.base

theorem Failed.aborted {e : PyExc} (failed : Failed x u e db s) : Aborted x e db s :=
  ⟨failed.1, failed.2.elim Broken.committed Staged.committed⟩

theorem Raising.of_aborted {P : PyExc → Tables → Prop} {e : PyExc} (aborted : Aborted x e db s) :
    Raising x P e db s :=
  .inr aborted

theorem Raising.of_failed {P : PyExc → Tables → Prop} {e : PyExc} (failed : Failed x u e db s) :
    Raising x P e db s :=
  .of_aborted failed.aborted

theorem Ready.committed {P : Tables → Prop} (ready : Ready x P db s) : db.tables.records = x.base :=
  ready.elim Broken.committed fun ⟨_, staged, _⟩ => staged.committed

theorem Raising.of_ready {P : PyExc → Tables → Prop} {e : PyExc} (ready : Ready x (P e) db s) :
    Raising x P e db s := by
  cases http : e.isHttp with
  | true => exact .inl ⟨http, ready⟩
  | false => exact .inr ⟨http, ready.committed⟩

theorem Raising.of_staged {P : PyExc → Tables → Prop} {e : PyExc} (staged : Staged x u db s)
    (holds : P e u) : Raising x P e db s :=
  .of_ready (staged.ready holds)

/-- Sequential composition, after a part that raises no `HTTPException`. -/
theorem keeps_then {N : α → Assertion (Database Unit) DbSession}
    {Q : β → Assertion (Database Unit) DbSession} {R : PyExc → Tables → Prop} {program : Request α}
    {rest : α → Request β} (first : Keeps allowed C N (Failed x u) program db s)
    (second : ∀ a db s, N a db s → Keeps allowed C Q (Raising x R) (rest a) db s) :
    Keeps allowed C Q (Raising x R) (program.bind rest) db s :=
  (first.mono (fun _ _ _ holds => holds) fun _ _ _ failed => Raising.of_failed failed).bind second

/-- A request that ends with an answer of its own. -/
theorem Staged.raise {Q : β → Assertion (Database Unit) DbSession} {R : PyExc → Tables → Prop}
    {e : PyExc} (staged : Staged x u db s) (holds : R e u) :
    Keeps allowed C Q (Raising x R) (throw e : Request β) db s :=
  Raising.of_staged staged holds

/-- What is left where an operation answers with an error. -/
abbrev Unchanged (u : Tables) : PyExc → Tables → Prop := fun _ u' => u' = u

/-- An error that is audited before it is answered. -/
theorem Staged.audited {Q : α → Assertion (Database Unit) DbSession} {R : PyExc → Tables → Prop}
    {platform : Platform} {ctx : ExecutionContext} (staged : Staged x u db s) (call : AuditCall)
    {rest : Request α}
    (raises : ∀ db s, Staged x u db s → Keeps allowed C Q (Raising x R) rest db s) :
    Keeps allowed C Q (Raising x R) ((Kernel.audit platform ctx call).bind fun _ => rest) db s :=
  keeps_then (staged.audit _ _ _) fun _ db s staged => raises db s staged

/-- What follows a part that never ends with a value. -/
theorem keeps_never {Q : β → Assertion (Database Unit) DbSession}
    {E : PyExc → Assertion (Database Unit) DbSession} {program : Request α} {rest : α → Request β}
    (raises : Keeps allowed C (fun _ _ _ => False) E program db s) :
    Keeps allowed C Q E (program.bind rest) db s :=
  raises.bind fun _ _ _ absurd => absurd.elim

theorem Staged.ofExcept (staged : Staged x u db s) {result : Except PyExc α}
    (notHttp : ∀ e, result = .error e → e.isHttp = false) :
    Keeps allowed C (fun value db s => Staged x u db s ∧ result = .ok value) (Failed x u)
      (Program.ofExcept result) db s :=
  .ofExcept (fun _ made => ⟨staged, made⟩) fun e raised => ⟨notHttp e raised, .inr staged⟩

theorem Staged.toUuid (staged : Staged x u db s) (text : String) :
    Keeps allowed C (fun id db s => Staged x u db s ∧ UUID.parse text = some id) (Failed x u)
      (Program.ofExcept (Kernel.toUuid text)) db s := by
  refine (staged.ofExcept fun e raised => ?_).mono ?_ fun _ _ _ failed => failed
  · obtain ⟨message, rfl⟩ := toUuid_error raised
    rfl
  · exact fun id db s found => ⟨found.1, toUuid_ok found.2⟩

/-- The transaction is over, with its writes committed. -/
def Stored (x : Transaction) (P : Tables → Prop) : Assertion (Database Unit) DbSession :=
  fun db s => s.startedAt = x.startedAt ∧ P db.tables.records

/-- The end of a transaction. -/
theorem Ready.commit {P : Tables → Prop} (ready : Ready x P db s) (allows : ∀ u, P u → allowed u) :
    Keeps allowed C (fun _ => Stored x P)
      (fun e db _ => e.isHttp = false ∧ db.tables.records = x.base) Kernel.commit db s := by
  refine meets_commit trivial ?_ ?_
  · intro db₁ turn whole _ _
    cases turn.rely.eq_of_subsingleton
    rcases ready with lost | ⟨u, staged, holds⟩
    · simp [lost.broken] at whole
    · refine ⟨?_, trivial⟩
      show allowed (engine.view db s).records
      rw [staged.seen]
      exact allows u holds
  · intro db₁ choice answer db' s' turn _ _ committed _
    cases turn.rely.eq_of_subsingleton
    rcases ready with lost | ⟨u, staged, holds⟩
    · cases committed with
      | refused broken => exact ⟨rfl, lost.committed⟩
      | idle whole _ | failed whole _ | committed whole _ => simp [lost.broken] at whole
    · cases committed with
      | refused broken => simp [staged.whole] at broken
      | idle _ inactive => simp [staged.active] at inactive
      | failed _ _ => exact ⟨rfl, staged.committed⟩
      | committed _ _ =>
          refine ⟨staged.startedAt, ?_⟩
          show P (engine.view db s).records
          rw [staged.seen]
          exact holds

theorem Idle.of_rolledBack {t : Tables} (committed : db.tables.records = t)
    (unique : db.tables.keys.Nodup) :
    Idle t (db.release ()) { s.close with memo := engine.fresh } :=
  ⟨committed, rfl, rfl, rfl, rfl, unique⟩

/-- A rollback leaves a session between two transactions. -/
theorem keeps_rollback {t : Tables} (committed : db.tables.records = t) :
    Keeps allowed C (fun _ db' s' => Idle t db' s' ∧ db'.clock = db.clock) (fun _ _ _ => False)
      rollback db s := by
  refine meets_rollback trivial fun db₁ turn held => ?_
  cases turn.rely.eq_of_subsingleton
  exact ⟨.of_rolledBack committed turn.coherent.unique, rfl⟩

/-- What a request leaves that ran in its unit of work. -/
theorem Idle.getDbSession {t : Tables} (idle : Idle t db s) (ctx : ExecutionContext)
    {request : Request β} {P : Transaction → β → Tables → Prop}
    {R : Transaction → PyExc → Tables → Prop} (value : ∀ x b u, P x b u → allowed u)
    (error : ∀ x e u, R x e u → allowed u)
    (body : ∀ x db' s', x.base = t → x.scope = scopeOf ctx → db.clock ≤ x.startedAt →
      Staged x t db' s' →
      Keeps allowed C (fun b => Ready x (P x b)) (Raising x (R x)) request db' s') :
    Keeps allowed C
      (fun b db' s' => ∃ x : Transaction, x.base = t ∧ x.scope = scopeOf ctx ∧
        db.clock ≤ x.startedAt ∧ Stored x (P x b) db' s')
      (fun e db' s' => (e.isHttp = true ∧ ∃ x : Transaction, x.base = t ∧ x.scope = scopeOf ctx ∧
          db.clock ≤ x.startedAt ∧ Stored x (R x e) db' s') ∨
        (e.isHttp = false ∧ db'.tables.records = t))
      (getDbSession ctx request) db s := by
  refine (idle.setConfig (scopeOf ctx) fun db s same => .inr ⟨rfl, same⟩).bind ?_
  rintro _ db' s' ⟨startedAt, later, staged⟩
  have begun := body ⟨t, scopeOf ctx, startedAt⟩ db' s' rfl rfl later staged
  refine Meets.handle (N := fun e db' s' =>
    Raising ⟨t, scopeOf ctx, startedAt⟩ (R ⟨t, scopeOf ctx, startedAt⟩) e db' s') ?_ ?_
  · refine begun.bind fun b db s ready => ?_
    refine ((ready.commit (value _ b)).mono (fun _ _ _ stored => stored) ?_).bind fun _ db s stored =>
      ⟨_, rfl, rfl, later, stored⟩
    exact fun e db s failed => .inr failed
  · rintro e db s (⟨http, ready⟩ | ⟨notHttp, same⟩)
    · cases e with
      | http status detail =>
          refine ((ready.commit (error _ _)).mono (fun _ _ _ stored => stored) ?_).bind
            fun _ db s stored => .inl ⟨rfl, _, rfl, rfl, later, stored⟩
          exact fun e db s failed => .inr failed
      | _ => cases http
    · have rolledBack : Keeps allowed C (fun _ db' _ => db'.tables.records = t)
          (fun _ _ _ => False) rollback db s :=
        (keeps_rollback same).mono (fun _ _ _ after => after.1.committed) fun _ _ _ absurd => absurd
      cases e with
      | http status detail => cases notHttp
      | _ =>
          exact (rolledBack.mono (fun _ _ _ same => same) fun _ _ _ absurd => absurd.elim).bind
            fun _ db s same => .inr ⟨rfl, same⟩

end Rules

/-! ## Requests by themselves -/

/-- Run by itself on these tables, while the application's clock says `now`, a request can
end with this result. -/
def EndsAt {α : Type} (now : DateTime) (t : Tables) (request : Request α)
    (result : Except PyExc α) : Prop :=
  ∃ clock choices db s, (∀ choice ∈ choices, choice.env.now = now) ∧
    play (postgres Unit) () choices { tables := t, clock } freshSession request =
      some (result, db, s)

theorem EndsAt.answered {α : Type} {now : DateTime} {t : Tables} {request : Request α}
    {result : Except PyExc α} (ends : EndsAt now t request result) (unique : t.keys.Nodup)
    {Q : α → Assertion (Database Unit) DbSession} {E : PyExc → Assertion (Database Unit) DbSession}
    (keeps : ∀ db s, Idle t.records db s →
      Keeps (fun _ => True) (fun env => env.now = now) Q E request db s) :
    ∃ db s, Answered Q E result db s := by
  obtain ⟨clock, choices, db, s, instant, played⟩ := ends
  have begun : Idle t.records { tables := t, clock } freshSession := ⟨rfl, rfl, rfl, rfl, rfl, unique⟩
  have coherent : Coherent engine ({ tables := t, clock } : Database Unit) := ⟨by simp, unique⟩
  have held : Held engine () ({ tables := t, clock } : Database Unit) freshSession :=
    ⟨by simp [freshSession], unique, fun _ => rfl, Nat.zero_le _⟩
  exact ⟨db, s, (Meets.played (keeps _ _ begun) ⟨coherent, trivial⟩ held instant played).2.2⟩

/-- Running alone on these tables, a request can leave those, and has by then ended with
this answer; or it is still running, or has crashed. -/
def Leaves {α : Type} (t : Tables) (request : Request α) (t' : Tables)
    (answer : Option (Except PyExc α)) : Prop :=
  ∃ clock, ∃ w : World Unit DbStatement PyExc α (Database Unit) DbSession,
    World.Reaches (postgres Unit)
      (World.start { tables := t, clock } freshSession fun _ => request) w ∧
    w.db.tables = t' ∧ (w.task ()).answer = answer

/-- A request that is played to its end can leave what it has ended on. -/
theorem Leaves.of_play {α : Type} {t : Tables} {request : Request α} {clock : Nat}
    {choices : List (Choice Env)} {result : Except PyExc α} {db : Database Unit} {s : DbSession}
    (played : play (postgres Unit) () choices { tables := t, clock } freshSession request =
      some (result, db, s)) : Leaves t request db.tables (some result) := by
  let w : World Unit DbStatement PyExc α (Database Unit) DbSession :=
    World.start { tables := t, clock } freshSession fun _ => request
  have remaining : (w.task ()).program = some request := rfl
  refine ⟨clock, _, reaches_of_play remaining played, rfl, ?_⟩
  cases result <;> simp [Task.answer, Program.ofExcept]

/-- What a request leaves that meets a contract. -/
theorem Leaves.of_meets {α : Type} {p : Protocol Tables Write} {t t' : Tables} {request : Request α}
    {answer : Option (Except PyExc α)} (leaves : Leaves t request t' answer) (unique : t.keys.Nodup)
    (starts : p.invariant t)
    {Q : α → Assertion (Database Unit) DbSession} {E : PyExc → Assertion (Database Unit) DbSession}
    (meets : ∀ clock, Meets .always (fun _ => True) (p.contract engine : Contract (postgres Unit)) ()
      Q E request { tables := t, clock } freshSession) :
    t'.keys.Nodup ∧ p.invariant t' ∧ ∀ result, answer = some result →
      ∃ db s, db.tables = t' ∧ Answered Q E result db s := by
  obtain ⟨clock, w, runs, rfl, rfl⟩ := leaves
  let db : Database Unit := { tables := t, clock }
  have coherent : Coherent engine db := ⟨by simp [db], unique⟩
  have held : Held engine () db freshSession :=
    ⟨by simp [freshSession], unique, fun _ => rfl, Nat.zero_le _⟩
  let K : Contract (postgres Unit) := p.contract engine
  have outline : Valid .always K () (fun a => K.Since () (Q a)) (fun e => K.Since () (E e))
      (K.Since () (Meets .always (fun _ => True) K () Q E request)) request := Meets.valid (.refl _)
  have started : World.Sound .always K (fun _ a => K.Since () (Q a)) (fun _ e => K.Since () (E e))
      (World.start db freshSession fun _ => request) :=
    .start ⟨coherent, starts⟩ (fun _ => held) (fun _ => Contract.stable_since)
      (fun _ => .of_now (meets clock)) fun _ => outline
  have sound := started.runs runs
  refine ⟨sound.store.1.unique, sound.store.2, fun result ended => ?_⟩
  obtain ⟨value, error⟩ := sound.answered ended
  refine ⟨w.db, (w.task ()).session, rfl, ?_⟩
  cases result with
  | ok a =>
      obtain ⟨d, rely, holds⟩ := value a rfl
      exact rely.eq_of_subsingleton ▸ holds
  | error e =>
      obtain ⟨d, rely, holds⟩ := error e rfl
      exact rely.eq_of_subsingleton ▸ holds

theorem Leaves.of_keeps {α : Type} {allowed : Tables → Prop} {t t' : Tables} {request : Request α}
    {answer : Option (Except PyExc α)} (leaves : Leaves t request t' answer) (unique : t.keys.Nodup)
    (allows : allowed t.records)
    {Q : α → Assertion (Database Unit) DbSession} {E : PyExc → Assertion (Database Unit) DbSession}
    (keeps : ∀ db s, Idle t.records db s → Keeps allowed (fun _ => True) Q E request db s) :
    t'.keys.Nodup ∧ allowed t'.records ∧ ∀ result, answer = some result →
      ∃ db s, db.tables = t' ∧ Answered Q E result db s := by
  have allows : (turnProtocol allowed).invariant t := allows
  refine leaves.of_meets unique allows fun clock => ?_
  exact keeps _ _ ⟨rfl, rfl, rfl, rfl, rfl, unique⟩

end LandVault
