import LandVault.Issues
import LandVault.Library.Undisturbed

/-!
# Requests by themselves, while the connection works

What a request ends with where nothing outside it goes wrong: no other session is at work,
every statement reaches the database, and the clock stands still. Only what the request
draws, an identifier, a token or the digest of an audit entry, can turn out to be taken.
A request reads first, through the identity map, and then writes.
-/

set_option autoImplicit false

namespace LandVault

open Kernel Kernel.Audit Library.Programs Library.ReadCommitted Python

/-- The connection works, and the clock says `now`. -/
def Working (now : DateTime) (choice : Choice Env) : Prop :=
  choice.fails = false ∧ choice.env.now = now

/-- Run by itself on these tables, while the connection works and the clock says `now`, a
request can end with this result. -/
def EndsWorking {α : Type} (now : DateTime) (t : Tables) (request : Request α)
    (result : Except PyExc α) : Prop :=
  ∃ clock choices db s, (∀ choice ∈ choices, Working now choice) ∧
    play (postgres Unit) () choices { tables := t, clock } freshSession request =
      some (result, db, s)

/-- An entry whose value is drawn, or is the digest of an audit entry. -/
def Key.isDrawn : Key → Bool
  | .auditId _ | .auditHash _ | .invitationId _ | .tokenHash _ | .delegationId _ => true
  | _ => false

/-- What was drawn is taken already. -/
def Collision (e : PyExc) : Prop := ∃ k : Key, k.isDrawn = true ∧ e = engine.violation k

theorem Collision.notHttp {e : PyExc} (collision : Collision e) : e.isHttp = false := by
  obtain ⟨k, _, rfl⟩ := collision
  rfl

/-- A caller sees the rows of the tenant it acts in. -/
theorem sees_own {ctx : ExecutionContext} {tenantId : String} (tenant : ctx.tenantId = some tenantId) :
    (scopeOf ctx).sees tenantId = true := by
  simp only [scopeOf, tenant]
  split
  · rfl
  · simp [Scope.sees]

/-! ## Sessions -/

/-- A session that can commit, and that is not in the way of an audit entry. -/
structure Calm (db : Database Unit) (s : DbSession) : Prop where
  whole : s.broken = false
  free : ∀ row : AuditLogRecord, ∀ k ∈ engine.guards (.insertAudit row), ((), k) ∉ db.locks

/-- A session that has only read so far. -/
structure Consults (t : Tables) (scope : Scope) (db : Database Unit) (s : DbSession) : Prop where
  tables : db.tables = t
  unlocked : db.locks = []
  pending : s.pending = []
  active : s.active = true
  whole : s.broken = false
  scope : s.memo.scope = scope
  within : Within t s.memo

/-- In every run whose choices are among `C`, the request ends with `Q` of its value or `X`
of its error; where the error is an answer, what it has written can be committed. -/
abbrev Settles {α : Type} (C : Choice Env → Prop) (Q : α → Assertion (Database Unit) DbSession)
    (X : PyExc → Prop) (request : Request α) : Assertion (Database Unit) DbSession :=
  Concludes (postgres Unit) C () Q (fun e db s => X e ∧ (e.isHttp = true → Calm db s)) request

section Rules

variable {α β : Type} {t : Tables} {scope : Scope} {C : Choice Env → Prop} {X : PyExc → Prop}
  {db : Database Unit} {s : DbSession}

theorem Consults.calm (consults : Consults t scope db s) : Calm db s :=
  ⟨consults.whole, by simp [consults.unlocked]⟩

theorem Consults.view (consults : Consults t scope db s) : engine.view db s = t := by
  rw [Engine.view, consults.pending, engine.applyAll_nil, consults.tables]

theorem Calm.throw {Q : α → Assertion (Database Unit) DbSession} (calm : Calm db s) {e : PyExc}
    (raised : X e) : Settles C Q X (throw e : Request α) db s :=
  ⟨raised, fun _ => calm⟩

/-- The first statement of a unit of work. -/
theorem settles_setConfig (works : ∀ choice, C choice → choice.fails = false) (clock : Nat) :
    Settles C (fun _ => Consults t scope) X (setConfig scope) { tables := t, clock }
      freshSession := by
  refine concludes_open works rfl fun choice now _ => ⟨_, _, rfl, ?_⟩
  exact ⟨rfl, rfl, rfl, rfl, rfl, rfl, within_fresh t scope⟩

theorem Consults.choose (consults : Consults t scope db s) (pick : Env → α) :
    Settles C (fun a db s => Consults t scope db s ∧ ∃ choice, C choice ∧ a = pick choice.env) X
      (choose pick) db s :=
  concludes_choose fun choice chosen => ⟨consults, choice, chosen, rfl⟩

/-! ## Mapped classes -/

theorem Consults.read (consults : Consults t scope db s)
    (works : ∀ choice, C choice → choice.fails = false)
    {run : View Tables Memo Env → Except PyExc (Effect Write Memo PyExc β)} {b : β}
    (reads : ∀ env, ∃ memo, run ⟨t, s.memo, s.startedAt, env⟩ = .ok ⟨memo, .ok b, none⟩ ∧
      Within t memo ∧ memo.scope = scope) :
    Settles C (fun found db s => Consults t scope db s ∧ found = b) X (.perform (.query run)) db
      s := by
  refine concludes_read works consults.whole consults.active fun choice _ => ?_
  obtain ⟨memo, ran, within, same⟩ := reads choice.env
  refine ⟨memo, b, by rw [consults.view, ran], ?_, rfl⟩
  exact ⟨consults.tables, consults.unlocked, consults.pending, consults.active, consults.whole,
    same, within⟩

/-- `session.get` answers the row that is seen. -/
theorem Consults.get (consults : Consults t scope db s)
    (works : ∀ choice, C choice → choice.fails = false) (unique : t.keys.Nodup) (e : Entity)
    (key : e.Id) :
    Settles C (fun found db s => Consults t scope db s ∧ found = e.lookup t scope key) X
      (e.mapper.get key) db s := by
  refine consults.read works fun env => ?_
  have mapped : ∀ record ∈ e.mapper.loaded s.memo, e.mapper.key record = key →
      e.lookup t scope key = some record := by
    rintro record member rfl
    exact Entity.lookup_of_mem unique (consults.scope ▸ consults.within e record member)
  cases loaded : e.mapper.mapped ⟨t, s.memo, s.startedAt, env⟩ key with
  | some record =>
      refine ⟨s.memo, ?_, consults.within, consults.scope⟩
      unfold Mapper.mapped at loaded
      split at loaded
      · cases loaded
      · have named : e.mapper.key record = key := by simpa using List.find?_some loaded
        simp only [mapped record (List.mem_of_find?_eq_some loaded) named]
  | none =>
      cases found : e.lookup t scope key with
      | none =>
          refine ⟨s.memo, ?_, consults.within, consults.scope⟩
          rw [Entity.lookup, ← consults.scope] at found
          simp only [found]
      | some row =>
          have visible := (Entity.mem_of_lookup found).1
          rw [← consults.scope] at visible
          refine ⟨e.mapper.keep row s.memo, ?_, within_load consults.within visible, by
            simp [consults.scope]⟩
          rw [Entity.lookup, ← consults.scope] at found
          simp only [found]

/-- A SELECT of records answers the rows that are seen. -/
theorem Consults.select (consults : Consults t scope db s)
    (works : ∀ choice, C choice → choice.fails = false) (unique : t.keys.Nodup) (e : Entity)
    (condition : e.Row → Bool) :
    Settles C (fun rows db s => Consults t scope db s ∧
        rows = (e.mapper.seen t scope).filter condition) X (e.mapper.select condition) db s := by
  obtain rfl : s.memo.scope = scope := consults.scope
  refine consults.read works fun env => ?_
  have known : ∀ row ∈ (e.mapper.seen t s.memo.scope).filter condition,
      row ∈ e.mapper.seen t s.memo.scope := fun row member => List.mem_of_mem_filter member
  have found := within_found (v := ⟨t, s.memo, s.startedAt, env⟩) consults.within known
  have records : ((e.mapper.seen t s.memo.scope).filter condition).map
      (e.mapper.record ⟨t, s.memo, s.startedAt, env⟩) =
        (e.mapper.seen t s.memo.scope).filter condition := by
    refine (List.map_congr_left fun row member => ?_).trans (List.map_id _)
    -- a record of the identity map is the row itself
    unfold Mapper.record Mapper.mapped
    split
    · rfl
    · cases mapped : (e.mapper.loaded s.memo).find? (e.mapper.key · = e.mapper.key row) with
      | none => rfl
      | some record =>
          have within := consults.within e record (List.mem_of_find?_eq_some mapped)
          have key := List.find?_some mapped
          exact e.seen_unique unique within (known row member) (by simpa using key)
  exact ⟨_, by simp only [records], found⟩

/-- `scalar_one_or_none`, where at most one row is meant. -/
theorem Consults.scalarOneOrNone (consults : Consults t scope db s)
    (works : ∀ choice, C choice → choice.fails = false) (unique : t.keys.Nodup) (e : Entity)
    {condition : e.Row → Bool} (found : Option e.Row)
    (one : (e.mapper.seen t scope).filter condition = found.toList) :
    Settles C (fun row db s => Consults t scope db s ∧ row = found) X
      (e.mapper.scalarOneOrNone condition) db s := by
  refine (consults.select works unique e condition).bind ?_
  rintro rows db s ⟨consults, rfl⟩
  rw [one]
  cases found with
  | none => exact ⟨consults, rfl⟩
  | some row => exact ⟨consults, rfl⟩

/-- The writes of a class lock nothing of the audit log. -/
theorem Entity.guards_insert_apart (e : Entity) (row : e.Row) (entry : AuditLogRecord) :
    ∀ k ∈ engine.guards (.insertAudit entry), k ∉ engine.guards (e.mapper.insert row) := by
  cases e <;>
    simp [engine, Write.guards, Write.locks, Write.adds, Write.rowEntries, Write.enters,
      Write.removes, Entity.mapper, Identity.userMapper, Identity.tenantMapper,
      Identity.sessionMapper, Identity.invitationMapper, Identity.delegationMapper,
      Registry.parcelMapper, Spatial.geometryMapper, Evidence.evidenceMapper]

theorem Entity.guards_update_apart (e : Entity) (stored row : e.Row) (entry : AuditLogRecord) :
    ∀ k ∈ engine.guards (.insertAudit entry), k ∉ engine.guards (e.mapper.update stored row) := by
  cases e <;>
    simp [engine, Write.guards, Write.locks, Write.adds, Write.rowEntries, Write.enters,
      Write.removes, Entity.mapper, Identity.userMapper, Identity.tenantMapper,
      Identity.sessionMapper, Identity.invitationMapper, Identity.delegationMapper,
      Registry.parcelMapper, Spatial.geometryMapper, Evidence.evidenceMapper]

/-- The session after its first write. -/
theorem Consults.wrote (consults : Consults t scope db s) {w : Write} {memo : Memo}
    (apart : ∀ entry, ∀ k ∈ engine.guards (.insertAudit entry), k ∉ engine.guards w) :
    Calm (db.acquire () (engine.guards w))
      { s with memo := memo, pending := s.pending ++ [w] } := by
  refine ⟨consults.whole, fun entry k guard locked => ?_⟩
  rw [Db.acquire, consults.unlocked, List.append_nil] at locked
  obtain ⟨k', guard', same⟩ := List.mem_map.mp locked
  cases same
  exact apart entry k guard guard'

/-- The first write, of a new row. -/
theorem Consults.add (consults : Consults t scope db s)
    (works : ∀ choice, C choice → choice.fails = false) (e : Entity)
    {row : View Tables Memo Env → e.Row} (new : e.Row)
    (same : ∀ env, row ⟨t, s.memo, s.startedAt, env⟩ = new)
    (values : e.mapper.values new = .ok ()) (sees : e.mapper.sees t scope new = true)
    (foreign : e.mapper.foreign t new = .ok ())
    (taken : ∀ k ∈ engine.adds (e.mapper.insert new), k ∈ engine.keys t → X (engine.violation k)) :
    Settles C (fun added db s => Calm db s ∧ added = new) X (e.mapper.add row) db s := by
  refine concludes_write works consults.whole consults.active fun choice _ => ?_
  refine ⟨e.mapper.keep new s.memo, new, e.mapper.insert new, ?_, ?_, ?_⟩
  · simp only [consults.view, same, values, consults.scope, sees, foreign, Except.bind, Except.map,
      if_true]
  · intro k added present
    rw [consults.view] at present
    exact ⟨taken k added present, fun http => by cases http⟩
  · exact fun _ => ⟨consults.wrote (e.guards_insert_apart new), rfl⟩

/-- An edit of a record that the request has loaded, as its first write. -/
theorem Consults.flush (consults : Consults t scope db s)
    (works : ∀ choice, C choice → choice.fails = false) (unique : t.keys.Nodup) (e : Entity)
    {loaded new : e.Row} (visible : loaded ∈ e.mapper.seen t scope)
    (edit : e.mapper.merge loaded new loaded = new) (foreign : e.mapper.foreign t new = .ok ())
    (adds : ∀ stored row, engine.adds (e.mapper.update stored row) = []) :
    Settles C (fun flushed db s => Calm db s ∧ flushed = new) X (e.mapper.flush loaded new) db s := by
  unfold Mapper.flush
  split
  · exact ⟨consults.calm, rfl⟩
  have found : (e.mapper.seen t scope).find? (e.mapper.key · = e.mapper.key loaded) =
      some loaded := Entity.lookup_of_mem unique visible
  refine concludes_write works consults.whole consults.active fun choice _ => ?_
  refine ⟨e.mapper.keep new s.memo, new, e.mapper.update loaded new, ?_, ?_, ?_⟩
  · simp only [consults.view, consults.scope, found, edit, foreign, Except.map]
  · simp [adds]
  · exact fun _ => ⟨consults.wrote (e.guards_update_apart loaded new), rfl⟩

/-! ## The kernel -/

/-- An entry whose texts Postgres takes. -/
theorem Calm.audit (calm : Calm db s) (works : ∀ choice, C choice → choice.fails = false)
    (platform : Platform) {ctx : ExecutionContext} {call : AuditCall}
    (plain : ∀ text ∈ AuditCall.texts ctx call, hasNul text = false) :
    Settles C (fun _ => Calm) Collision (Kernel.audit platform ctx call) db s := by
  refine Concludes.bind (N := fun _ => Calm) ?_ fun prevHash db s calm => ?_
  · exact concludes_peek works fun choice _ => ⟨_, rfl, calm⟩
  refine Concludes.bind (N := fun _ => Calm) (concludes_choose fun _ _ => calm) ?_
  rintro ⟨entryUuid, now⟩ db s calm
  refine Concludes.bind (N := fun _ => Calm) ?_ fun _ _ _ calm => calm
  refine concludes_apart works fun choice _ => ?_
  obtain ⟨record, stored⟩ := storedRecord_ok platform ctx call prevHash entryUuid choice.env.uuid now
  refine ⟨(), .insertAudit record, by rw [insertedRecord_of_plain plain, stored]; rfl,
    calm.free record, ?_, fun _ => ⟨calm.whole, calm.free⟩⟩
  intro k added present
  have drawn : k.isDrawn = true := by
    have key : k = .auditId record.id ∨ k = .auditHash record.hash := by
      simpa [engine, Write.adds, Write.rowEntries, Write.enters] using added
    rcases key with rfl | rfl <;> rfl
  exact ⟨⟨k, drawn, rfl⟩, fun http => by cases http⟩

/-- An entry with U+0000 in one of its texts. -/
theorem Calm.audit_refused (calm : Calm db s) (works : ∀ choice, C choice → choice.fails = false)
    (platform : Platform) {ctx : ExecutionContext} {call : AuditCall} {text : String}
    (member : text ∈ AuditCall.texts ctx call) (nul : hasNul text = true) :
    Settles C (fun _ _ _ => False) (fun e => ∃ message, e = .database message)
      (Kernel.audit platform ctx call) db s := by
  refine Concludes.bind (N := fun _ => Calm) ?_ fun prevHash db s calm => ?_
  · exact concludes_peek works fun choice _ => ⟨_, rfl, calm⟩
  refine Concludes.bind (N := fun _ => Calm) (concludes_choose fun _ _ => calm) ?_
  rintro ⟨entryUuid, now⟩ db s calm
  refine Concludes.bind (N := fun _ _ _ => False) ?_ fun _ _ _ never => never.elim
  refine concludes_refused works fun choice _ => ?_
  obtain ⟨message, refused⟩ := insertedRecord_of_nul member nul
  exact ⟨.database message, by rw [refused]; rfl, ⟨message, rfl⟩, fun http => by cases http⟩

/-- The unit of work ends as its request does. -/
theorem settles_getDbSession (works : ∀ choice, C choice → choice.fails = false)
    (ctx : ExecutionContext) {request : Request α} {Q : α → Prop} (clock : Nat)
    (body : ∀ db s, Consults t (scopeOf ctx) db s →
      Settles C (fun a db s => Calm db s ∧ Q a) X request db s) :
    Concludes (postgres Unit) C () (fun a _ _ => Q a) (fun e _ _ => X e)
      (getDbSession ctx request) { tables := t, clock } freshSession := by
  refine ((settles_setConfig (X := X) works clock).mono (fun _ _ _ consults => consults)
    fun _ _ _ raised => raised.1).bind fun _ db s consults => ?_
  refine Concludes.handle (N := fun e db s => X e ∧ (e.isHttp = true → Calm db s)) ?_ ?_
  · refine (body db s consults).bind ?_
    rintro a db s ⟨calm, holds⟩
    refine Concludes.bind (N := fun _ _ _ => True) ?_ fun _ _ _ _ => holds
    exact concludes_commit works calm.whole (fun _ => trivial) fun _ => trivial
  · rintro e db s ⟨raised, calm⟩
    cases e with
    | http status detail =>
        refine Concludes.bind (N := fun _ _ _ => True) ?_ fun _ _ _ _ => raised
        exact concludes_commit works (calm rfl).whole (fun _ => trivial) fun _ => trivial
    | _ =>
        refine Concludes.bind (N := fun _ _ _ => True) ?_ fun _ _ _ _ => raised
        exact concludes_rollback trivial

end Rules

/-! ## How a request ends -/

/-- Every undisturbed run of a request ends so, and there is one. -/
theorem ends_of_concludes {α : Type} {t : Tables} {now : DateTime} {request : Request α}
    {Q : α → Prop} {X : PyExc → Prop}
    (concludes : ∀ clock, Concludes (postgres Unit) (Working now) () (fun a _ _ => Q a)
      (fun e _ _ => X e) request { tables := t, clock } freshSession) :
    (∀ result, EndsWorking now t request result →
      (∀ a, result = .ok a → Q a) ∧ ∀ e, result = .error e → X e) ∧
    ∃ result, EndsWorking now t request result := by
  constructor
  · rintro result ⟨clock, choices, db, s, working, played⟩
    have answered := (concludes clock).played working played
    cases result with
    | ok a => exact ⟨fun _ same => by cases same; exact answered, nofun⟩
    | error e => exact ⟨nofun, fun _ same => by cases same; exact answered⟩
  · have admitted : Working now { env := { uuid := ⟨0, by decide⟩, now } } := ⟨rfl, rfl⟩
    obtain ⟨choices, result, db, s, working, played, _⟩ := (concludes 0).exists_play admitted
    exact ⟨result, 0, choices, db, s, working, played⟩

end LandVault
