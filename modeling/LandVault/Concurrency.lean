import LandVault.Commits

/-!
# The repositories under concurrency

What each operation of a repository answers and leaves pending, whatever other requests
commit between its statements. A transaction knows what it has read and written of each
row; an UPDATE finds the row as it is by then. What the two have to do with each other is
a condition on the run (`fresh`), and for the rest the rules say how the UPDATE follows
from what is known.
-/

set_option autoImplicit false

namespace LandVault

open Kernel Kernel.Audit Identity Library.Programs Library.ReadCommitted Python

/-! ## What a transaction knows -/

/-- The transaction knows `known`, and every record of its identity map. -/
structure Knows (known : List Read) (memo : Memo) : Prop where
  loaded : ∀ (e : Entity), ∀ row ∈ e.mapper.loaded memo, e.mapper.noted row ∈ memo.reads
  known : known ⊆ memo.reads

namespace Knows

variable {known : List Read} {memo : Memo}

theorem fresh : Knows [] ({} : Memo) := by
  refine ⟨fun e row member => ?_, fun read member => ?_⟩
  · cases e <;> cases member
  · cases member

theorem scope (knows : Knows known memo) (scope : Scope) : Knows known { memo with scope } := by
  refine ⟨fun e row member => ?_, knows.known⟩
  have same : e.mapper.loaded { memo with scope } = e.mapper.loaded memo := by cases e <;> rfl
  exact knows.loaded e row (same ▸ member)

theorem read (knows : Knows known memo) (reads : List Read) :
    Knows (reads ++ known) { memo with reads := reads ++ memo.reads } := by
  constructor
  · intro e row member
    rw [e.loaded_reads] at member
    exact List.mem_append_right _ (knows.loaded e row member)
  · exact fun read member =>
      List.mem_append.mpr ((List.mem_append.mp member).imp_right fun old => knows.known old)

theorem keep (knows : Knows known memo) {e : Entity} (row : e.Row) :
    Knows (e.mapper.noted row :: known) (e.mapper.keep row memo) := by
  constructor
  · intro e' other member
    rw [Entity.reads_keep]
    by_cases mine : e' = e
    · subst mine
      rcases Entity.mem_loaded_keep.mp member with rfl | ⟨old, _⟩
      · exact List.mem_cons_self
      · exact List.mem_cons_of_mem _ (knows.loaded _ other old)
    · rw [Entity.loaded_keep_of_ne mine] at member
      exact List.mem_cons_of_mem _ (knows.loaded e' other member)
  · rw [Entity.reads_keep]
    exact List.cons_subset_cons _ knows.known

theorem mono {less : List Read} (knows : Knows known memo) (fewer : less ⊆ known) :
    Knows less memo :=
  ⟨knows.loaded, fun _ member => knows.known (fewer member)⟩

end Knows

namespace Entity

/-- The row of the class that an UPDATE finds. -/
def finds : (e : Entity) → Write → Option e.Row
  | .user, .updateUser stored _ => some stored
  | .tenant, .updateTenant stored _ => some stored
  | .session, .updateSession stored _ => some stored
  | .invitation, .updateInvitation stored _ => some stored
  | .delegation, .updateDelegation stored _ => some stored
  | .parcel, .updateParcel stored _ => some stored
  | .geometry, .updateGeometry stored _ => some stored
  | .evidence, .updateEvidence stored _ => some stored
  | _, _ => none

/-- The row of the class of which a transaction knows. -/
def copy : (e : Entity) → Read → Option e.Row
  | .user, .user row => some row
  | .tenant, .tenant row => some row
  | .session, .session row => some row
  | .invitation, .invitation row => some row
  | .delegation, .delegation row => some row
  | .parcel, .parcel row => some row
  | .geometry, .geometry row => some row
  | .evidence, .evidence row => some row
  | _, _ => none

@[simp] theorem finds_update (e : Entity) (stored row : e.Row) :
    e.finds (e.mapper.update stored row) = some stored := by
  cases e <;> rfl

@[simp] theorem copy_noted (e : Entity) (row : e.Row) : e.copy (e.mapper.noted row) = some row := by
  cases e <;> rfl

end Entity

/-- An UPDATE of the class finds a column as its transaction knows it. -/
def Fresh (e : Entity) {C : Type} (column : e.Row → C) (_ : Tables) (memo : Memo) (w : Write) :
    Prop :=
  ∀ stored ∈ e.finds w, ∀ read ∈ memo.reads, ∀ copy ∈ e.copy read,
    e.mapper.key copy = e.mapper.key stored → column copy = column stored

instance (e : Entity) {C : Type} [DecidableEq C] (column : e.Row → C) (t : Tables) (memo : Memo) :
    DecidablePred (Fresh e column t memo) :=
  fun w => inferInstanceAs (Decidable (∀ stored ∈ e.finds w, ∀ read ∈ memo.reads,
    ∀ copy ∈ e.copy read, e.mapper.key copy = e.mapper.key stored → column copy = column stored))

/-! ## Rules -/

/-- A fact about the committed tables that no commit makes false. -/
def Lasting (D : Discipline engine) (F : Tables → Prop) : Prop :=
  ∀ t t', D.Advances t t' → F t → F t'

theorem lasting_true (D : Discipline engine) : Lasting D fun _ => True := fun _ _ _ _ => trivial

/-- What a request ends with, whatever the others do, in a run whose writes are `fresh`. -/
abbrev Upholds {ι α : Type} [DecidableEq ι] (fresh : Tables → Memo → Write → Prop)
    (D : Discipline engine) (index : ι) (Q : α → Assertion (Database ι) DbSession)
    (X : PyExc → Assertion (Database ι) DbSession) (request : Request α) :
    Assertion (Database ι) DbSession :=
  Meets (engine.freshly fresh) (fun _ => True) D.contract index Q X request

/-- How far a transaction is: what it has pending, what it knows, and a fact about the
committed tables. So far its program has committed audit entries only. -/
structure Holding {ι : Type} (F : Tables → Prop) (known : List Read) (ws : List Write)
    (db : Database ι) (s : DbSession) : Prop where
  pending : s.pending = ws
  knows : Knows known s.memo
  durable : ∀ w ∈ s.durable, Audits w
  fact : F db.tables

theorem Holding.mono {ι : Type} {F : Tables → Prop} {known less : List Read} {ws : List Write}
    {db : Database ι} {s : DbSession} (holding : Holding F known ws db s) (fewer : less ⊆ known) :
    Holding F less ws db s :=
  ⟨holding.pending, holding.knows.mono fewer, holding.durable, holding.fact⟩

/-- What a statement of such a transaction sees. -/
structure Seeing {ι : Type} (F : Tables → Prop) (known : List Read) (ws : List Write)
    (db : Database ι) (s : DbSession) (v : View Tables Memo Env) : Prop where
  tables : v.tables = engine.applyAll db.tables ws
  memo : v.memo = s.memo
  knows : Knows known v.memo
  unique : v.tables.keys.Nodup
  fact : F db.tables

/-- Any error that is no answer is accepted. -/
def Tolerant {ι : Type} (X : PyExc → Assertion (Database ι) DbSession) : Prop :=
  ∀ e db s, e.isHttp = false → X e db s

section Rules

variable {ι α : Type} [DecidableEq ι] {index : ι} {batch : List Write → Prop} {nil : batch []}
  {fresh : Tables → Memo → Write → Prop} {F : Tables → Prop} {known : List Read} {ws : List Write}
  {db : Database ι} {s : DbSession} {Q : α → Assertion (Database ι) DbSession}
  {X : PyExc → Assertion (Database ι) DbSession}

/-- One statement of the transaction: what it reads joins what is known, what it writes
has to stand and joins what is pending. -/
theorem Holding.query (holding : Holding F known ws db s) (lasting : Lasting (committing batch nil) F)
    (tolerant : Tolerant X) {run : View Tables Memo Env → Except PyExc (Effect Write Memo PyExc α)}
    (errors : ∀ v e, (run v = .error e ∨ ∃ memo w, run v = .ok ⟨memo, .error e, w⟩) →
      e.isHttp = false)
    (read : ∀ (db₁ : Database ι) v memo a, Seeing F known ws db₁ s v →
      run v = .ok ⟨memo, .ok a, none⟩ → ∃ known', Knows known' memo ∧
        ∀ db' s', db'.tables = db₁.tables → Holding F known' ws db' s' → Q a db' s')
    (wrote : ∀ (db₁ : Database ι) v memo a w, Seeing F known ws db₁ s v →
      run v = .ok ⟨memo, .ok a, some w⟩ → fresh v.tables v.memo w →
      Stands v.tables w ∧ ∃ known', Knows known' memo ∧
        ∀ db' s', db'.tables = db₁.tables → Holding F known' (ws ++ [w]) db' s' → Q a db' s') :
    Upholds fresh (committing batch nil) index Q X (.perform (.query run)) db s := by
  have seeing : ∀ {db₁ : Database ι} (startedAt : Nat) (env : Env),
      (committing batch nil).Turn Env index db s db₁ →
      Seeing F known ws db₁ s ⟨engine.view db₁ s, s.memo, startedAt, env⟩ :=
    fun _ _ turn => ⟨by rw [Engine.view, holding.pending], rfl, holding.knows,
      turn.follows.held.unique, lasting _ _ turn.advances holding.fact⟩
  have fact : ∀ {db₁ db' : Database ι}, (committing batch nil).Turn Env index db s db₁ →
      db'.tables = db₁.tables → F db'.tables :=
    fun turn same => same ▸ lasting _ _ turn.advances holding.fact
  have opened : ∀ now, (s.opened now).durable = s.durable := by
    intro now
    unfold Session.opened
    split <;> rfl
  refine Discipline.meets_query (fun db₁ turn broken => tolerant _ _ _ rfl) ?_ ?_ ?_
  · intro db₁ db' now env e w turn same raised
    refine tolerant _ _ _ ?_
    cases raised with
    | disconnected => rfl
    | run raised => exact errors _ e (.inl raised)
    | answer raised => exact errors _ e (.inr ⟨_, _, raised⟩)
    | violation => rfl
  · intro db₁ db' now env memo a turn same whole ran
    obtain ⟨known', knows, holds⟩ := read db₁ _ memo a (seeing _ env turn) ran
    exact holds db' _ same
      ⟨by simpa using holding.pending, knows, by simpa [opened] using holding.durable, fact turn same⟩
  · intro db₁ db' now env memo a w turn same whole admitted ran
    obtain ⟨choice, rfl, rfl, admitted⟩ := admitted
    have admits : fresh (engine.view db₁ s) s.memo w := by
      simp only [Engine.freshly, ran] at admitted
      exact admitted
    obtain ⟨stands, known', knows, holds⟩ := wrote db₁ _ memo a w (seeing _ _ turn) ran admits
    exact ⟨stands, holds db' _ same
      ⟨by simp [holding.pending], knows, by simpa [opened] using holding.durable, fact turn same⟩⟩

theorem Holding.choose (holding : Holding F known ws db s)
    (lasting : Lasting (committing batch nil) F) (pick : Env → α) :
    Upholds fresh (committing batch nil) index (fun _ => Holding F known ws) X
      (LandVault.choose pick) db s :=
  Discipline.meets_choose fun _ _ turn =>
    ⟨holding.pending, holding.knows, holding.durable, lasting _ _ turn.advances holding.fact⟩

/-! ## Mapped classes -/

theorem Holding.get (holding : Holding F known ws db s) (lasting : Lasting (committing batch nil) F)
    (tolerant : Tolerant X) (e : Entity) (key : e.Id) :
    Upholds fresh (committing batch nil) index
      (fun found db s => Holding F (found.toList.map e.mapper.noted ++ known) ws db s ∧
        ∀ row ∈ found, e.mapper.key row = key)
      X (e.mapper.get key) db s := by
  refine holding.query lasting tolerant ?_ ?_ ?_
  · rintro v error (raised | ⟨memo, w, raised⟩) <;> grind
  · intro db₁ v memo found seeing ran
    split at ran
    · rename_i record mapped
      cases ran
      unfold Mapper.mapped at mapped
      split at mapped
      · cases mapped
      have member := List.mem_of_find?_eq_some mapped
      have named : e.mapper.key record = key := by simpa using List.find?_some mapped
      refine ⟨e.mapper.noted record :: known, ⟨seeing.knows.loaded, ?_⟩, ?_⟩
      · exact List.cons_subset.mpr ⟨seeing.knows.loaded e record member, seeing.knows.known⟩
      · exact fun db' s' _ holding => ⟨holding, fun row same => by cases same; exact named⟩
    · split at ran
      · rename_i row found
        cases ran
        have named : e.mapper.key row = key := by simpa using List.find?_some found
        exact ⟨_, seeing.knows.keep row, fun db' s' _ holding =>
          ⟨holding, fun row same => by cases same; exact named⟩⟩
      · cases ran
        exact ⟨_, seeing.knows, fun db' s' _ holding =>
          ⟨holding, fun row absurd => by cases absurd⟩⟩
  · intro db₁ v memo a w _ ran
    grind

/-- Loading rows keeps what is known, and notes their records. -/
theorem Knows.found {memo : Memo} (knows : Knows known memo) {e : Entity}
    {v : View Tables Memo Env} (loaded : ∀ row ∈ e.mapper.loaded v.memo, e.mapper.noted row ∈ memo.reads)
    (rows : List e.Row) :
    Knows (rows.map (e.mapper.noted ∘ e.mapper.record v) ++ known)
      (rows.foldl (e.mapper.found v) memo) := by
  induction rows generalizing memo known with
  | nil => exact knows
  | cons row rows ih =>
      have one : Knows (e.mapper.noted (e.mapper.record v row) :: known) (e.mapper.found v memo row) ∧
          memo.reads ⊆ (e.mapper.found v memo row).reads := by
        unfold Mapper.found Mapper.record
        cases mapped : e.mapper.mapped v (e.mapper.key row) with
        | none => exact ⟨knows.keep row, by simp⟩
        | some record =>
            refine ⟨⟨knows.loaded, List.cons_subset.mpr ⟨loaded record ?_, knows.known⟩⟩, .refl _⟩
            unfold Mapper.mapped at mapped
            split at mapped
            · cases mapped
            · exact List.mem_of_find?_eq_some mapped
      have rest := ih one.1 fun row member => one.2 (loaded row member)
      refine rest.mono fun read member => ?_
      simp only [List.map_cons, List.mem_append, List.mem_cons, Function.comp_apply] at member ⊢
      tauto

/-- How an UPDATE follows from what its transaction knows. -/
structure Renews (e : Entity) (fresh : Tables → Memo → Write → Prop) (known : List Read)
    (t : Tables) (loaded new stored row : e.Row) : Prop where
  found : stored ∈ e.mapper.rows t
  same : e.mapper.key stored = e.mapper.key loaded
  merged : row = e.mapper.merge loaded new stored
  admitted : ∃ memo, Knows known memo ∧ fresh t memo (e.mapper.update stored row)

/-- The row that an UPDATE finds agrees with every copy of it that is known. -/
theorem Renews.agrees {e : Entity} {C : Type} {column : e.Row → C} {t : Tables}
    {loaded new stored row copy : e.Row}
    (renews : Renews e (Fresh e column) known t loaded new stored row)
    (noted : e.mapper.noted copy ∈ known) (same : e.mapper.key copy = e.mapper.key loaded) :
    column copy = column stored := by
  obtain ⟨memo, knows, fresh⟩ := renews.admitted
  exact fresh stored (by simp) _ (knows.known noted) copy (by simp) (same.trans renews.same.symm)

/-- A flush of a record that is known. -/
theorem Holding.flush (holding : Holding F known ws db s) (lasting : Lasting (committing batch nil) F)
    (tolerant : Tolerant X) (e : Entity) (loaded new : e.Row) :
    Upholds fresh (committing batch nil) index
      (fun flushed db' s' => flushed = new ∧
        (new = loaded ∧ Holding F known ws db' s' ∨
          ∃ stored row, Renews e fresh known (engine.applyAll db'.tables ws) loaded new stored row ∧
            Holding F (e.mapper.noted new :: known) (ws ++ [e.mapper.update stored row]) db' s'))
      X (e.mapper.flush loaded new) db s := by
  unfold Mapper.flush
  refine .ite (fun clean => ⟨rfl, .inl ⟨e.mapper.eq_of_clean clean, holding⟩⟩) fun _ => ?_
  refine holding.query lasting tolerant ?_ ?_ ?_
  · rintro v error (raised | ⟨memo, w, raised⟩)
    · split at raised
      · cases raised
        rfl
      · cases raised
    · split at raised
      · cases raised
      · simp only [Except.ok.injEq, Effect.mk.injEq] at raised
        exact e.foreign_notHttp (map_eq_error raised.2.1)
  · intro db₁ v memo added _ ran
    split at ran
    · cases ran
    · simp only [Except.ok.injEq, Effect.mk.injEq, reduceCtorEq, and_false] at ran
  · intro db₁ v memo flushed w seeing ran admitted
    split at ran
    · cases ran
    · rename_i stored found
      simp only [Except.ok.injEq, Effect.mk.injEq, Option.some.injEq] at ran
      obtain ⟨rfl, answered, rfl⟩ := ran
      obtain ⟨_, _, rfl⟩ := map_eq_ok answered
      have member : stored ∈ e.mapper.rows v.tables :=
        List.mem_of_mem_filter (List.mem_of_find?_eq_some found)
      have named : e.mapper.key stored = e.mapper.key loaded := by
        simpa using List.find?_some found
      refine ⟨Entity.stands_update.mpr ⟨member, e.mapper.key_merge _ _ _⟩, _,
        seeing.knows.keep new, fun db' s' same holding => ⟨rfl, .inr ⟨stored, _, ?_, holding⟩⟩⟩
      rw [same, ← seeing.tables]
      exact ⟨member, named, rfl, v.memo, seeing.knows, admitted⟩

/-- What an update leaves: a record that was found and its edit, where the edit changes
nothing, or the UPDATE that writes it. -/
inductive Revises {ι : Type} (e : Entity) (fresh : Tables → Memo → Write → Prop)
    (F : Tables → Prop) (known : List Read) (ws : List Write) (key : e.Id)
    (edit : e.Row → Except PyExc e.Row) (new : e.Row) (db : Database ι) (s : DbSession) : Prop
  | same (named : e.mapper.key new = key) (edited : edit new = .ok new)
      (holding : Holding F (e.mapper.noted new :: known) ws db s) : Revises e fresh F known ws key edit new db s
  | writes {record stored row : e.Row} (named : e.mapper.key record = key)
      (edited : edit record = .ok new)
      (renews : Renews e fresh (e.mapper.noted record :: known) (engine.applyAll db.tables ws) record
        new stored row)
      (holding : Holding F known (ws ++ [e.mapper.update stored row]) db s) :
      Revises e fresh F known ws key edit new db s

/-- What the updates of the repositories share: find the record, assign its columns, and
flush it. -/
theorem Holding.assign (holding : Holding F known ws db s)
    (lasting : Lasting (committing batch nil) F) (tolerant : Tolerant X) (e : Entity) (key : e.Id)
    {rest : Option e.Row → Request e.Row} {absent : PyExc} {edit : e.Row → Except PyExc e.Row}
    (none : rest none = throw absent)
    (some : ∀ record, rest (some record) = (Program.ofExcept (edit record)).bind (e.mapper.flush record))
    (missing : absent.isHttp = false)
    (errors : ∀ record error, edit record = .error error → error.isHttp = false) :
    Upholds fresh (committing batch nil) index (Revises e fresh F known ws key edit) X
      ((e.mapper.get key).bind rest) db s := by
  refine (holding.get lasting tolerant e key).bind ?_
  rintro found db s ⟨holding, named⟩
  cases found with
  | none =>
      rw [none]
      exact tolerant _ _ _ missing
  | some record =>
      rw [some]
      refine Meets.bind (N := fun new db s => Holding F (e.mapper.noted record :: known) ws db s ∧
        edit record = .ok new) (.ofExcept (fun _ made => ⟨holding, made⟩) fun error raised =>
          tolerant _ _ _ (errors record error raised)) ?_
      rintro new db s ⟨holding, edited⟩
      refine (holding.flush lasting tolerant e record new).mono ?_ fun _ _ _ failed => failed
      rintro _ db s ⟨rfl, ⟨rfl, holding⟩ | ⟨stored, row, renews, holding⟩⟩
      · exact .same (named _ rfl) edited holding
      · exact .writes (named _ rfl) edited renews
          (holding.mono fun _ member => List.mem_cons_of_mem _ (List.mem_cons_of_mem _ member))

/-! ## The updates of the Identity context -/

theorem Holding.updateTenant (holding : Holding F known ws db s)
    (lasting : Lasting (committing batch nil) F) (tolerant : Tolerant X) (tenant : TenantRecord) :
    Upholds fresh (committing batch nil) index
      (Revises .tenant fresh F known ws tenant.id fun record => .ok (Tables.assignTenant tenant record))
      X (TenantRepository.update tenant) db s :=
  holding.assign lasting tolerant .tenant tenant.id rfl (fun _ => rfl) rfl fun _ _ raised => by
    cases raised

/-! ## The kernel -/

/-- The entry is one that the call made, and the row is what is stored of it. -/
def Recorded (platform : Platform) (ctx : ExecutionContext) (call : AuditCall) (entry : AuditEntry)
    (row : AuditLogRecord) : Prop :=
  ∃ prevHash entryUuid now recordUuid,
    entry = buildEntry platform.sha256 ctx call prevHash entryUuid now ∧
      storedRecord platform entry recordUuid = .ok row

/-- An audit entry is committed at once. -/
theorem Holding.audit (holding : Holding F known ws db s)
    (lasting : Lasting (committing batch nil) F) (tolerant : Tolerant X) (platform : Platform)
    (ctx : ExecutionContext) (call : AuditCall) :
    Upholds fresh (committing batch nil) index
      (fun entry db' s' => Holding F known ws db' s' ∧
        ∃ row ∈ db'.tables.auditLog, Recorded platform ctx call entry row)
      X (Kernel.audit platform ctx call) db s := by
  refine Meets.bind (N := fun _ => Holding F known ws) ?_ fun prevHash db s holding => ?_
  · refine Discipline.meets_eager (fun db₁ e turn raised => tolerant _ _ _ ?_) ?_ ?_
    · rcases raised with rfl | ⟨env, raised⟩ | ⟨_, _, _, _, ran, _⟩
      · rfl
      · cases raised
      · cases ran
    · exact fun _ _ _ turn _ => ⟨holding.pending, holding.knows, holding.durable,
        lasting _ _ turn.advances holding.fact⟩
    · intro _ _ _ _ _ _ ran
      cases ran
  refine (holding.choose lasting _).bind fun chosen db s holding => ?_
  refine Meets.bind (N := fun _ db' s' => Holding F known ws db' s' ∧ ∃ row ∈ db'.tables.auditLog,
    Recorded platform ctx call (buildEntry platform.sha256 ctx call prevHash chosen.1 chosen.2) row) ?_
    fun _ _ _ done => done
  refine Discipline.meets_eager (fun db₁ e turn raised => tolerant _ _ _ ?_) ?_ ?_
  · rcases raised with rfl | ⟨env, raised⟩ | ⟨_, _, _, _, _, _, rfl⟩
    · rfl
    · exact insertedRecord_notHttp (map_eq_error raised)
    · rfl
  · intro _ _ _ _ ran
    obtain ⟨_, _, same⟩ := map_eq_ok ran
    cases same
  · intro db₁ db' env a w turn ran same
    obtain ⟨row, stored, written⟩ := map_eq_ok ran
    cases written
    refine ⟨⟨row, rfl⟩, fun advances => ⟨⟨holding.pending, holding.knows, ?_,
      lasting _ _ advances holding.fact⟩, row, ?_, prevHash, _, _, _, rfl, storedRecord_of_inserted stored⟩⟩
    · intro w member
      rcases List.mem_append.mp member with old | new
      · exact holding.durable w old
      · exact ⟨row, List.mem_singleton.mp new⟩
    · rw [same]
      exact List.mem_append_right _ (List.mem_singleton_self row)

/-- An error is raised where what is pending may be committed. -/
def Refusing {ι : Type} (batch : List Write → Prop) (e : PyExc) : Assertion (Database ι) DbSession :=
  fun _ s => e.isHttp = true → batch s.pending

omit [DecidableEq ι] in
theorem tolerant_refusing : Tolerant (Refusing batch : PyExc → Assertion (Database ι) DbSession) :=
  fun _ _ _ other answer => absurd answer (by simp [other])

theorem Holding.setConfig (holding : Holding F known ws db s)
    (lasting : Lasting (committing batch nil) F) (tolerant : Tolerant X) (scope : Scope) :
    Upholds fresh (committing batch nil) index (fun _ => Holding F known ws) X
      (Kernel.setConfig scope) db s := by
  refine holding.query lasting tolerant ?_ ?_ ?_
  · rintro v e (raised | ⟨memo, w, raised⟩) <;> cases raised
  · intro db₁ v memo a seeing ran
    cases ran
    exact ⟨known, seeing.knows.scope _, fun _ _ _ holding => holding⟩
  · intro db₁ v memo a w _ ran
    cases ran

/-- A commit of a batch, and what it leaves. -/
theorem commit_upholds {Q : Tables → List Write → Prop} (allowed : s.broken = false → batch s.pending)
    (holds : s.broken = false → ∀ t, (committing batch nil).Advances db.tables t →
      (committing batch nil).Makes t s.pending →
      Q (engine.applyAll t s.pending) (s.durable ++ s.pending)) :
    Upholds fresh (committing batch nil) index (fun _ db' s' => Q db'.tables s'.durable)
      (Refusing batch) Kernel.commit db s := by
  have makes : ∀ {db₁ : Database ι}, s.broken = false →
      (committing batch nil).Turn Env index db s db₁ →
      (committing batch nil).Makes db₁.tables s.pending :=
    fun whole turn => ⟨turn.coherent.unique, turn.follows.grounded, .inl (allowed whole)⟩
  refine Discipline.meets_commit (fun _ _ _ => tolerant_refusing _ _ _ rfl) ?_
    (fun _ _ _ _ => tolerant_refusing _ _ _ rfl) ?_
  · intro db₁ turn whole inactive
    have none := turn.follows.held.idle inactive
    simpa [none] using holds whole _ turn.advances (makes whole turn)
  · intro db₁ db' turn whole _ same
    rw [same]
    exact ⟨allowed whole, holds whole _ turn.advances (makes whole turn)⟩

theorem rollback_upholds :
    Upholds fresh (committing batch nil) index (fun _ _ _ => True) X Kernel.rollback db s :=
  Discipline.meets_rollback fun _ _ _ _ => trivial

/-- The unit of work around a request that commits a batch. -/
theorem getDbSession_upholds (ctx : ExecutionContext) {request : Request α}
    {N : α → Assertion (Database ι) DbSession} {Q : α → Tables → List Write → Prop}
    (lasting : Lasting (committing batch nil) F) (fact : F db.tables)
    (body : ∀ db s, Holding F [] [] db s →
      Upholds fresh (committing batch nil) index N (Refusing batch) request db s)
    (commits : ∀ a db s, N a db s → s.broken = false → batch s.pending ∧
      ∀ t, (committing batch nil).Advances db.tables t → (committing batch nil).Makes t s.pending →
        Q a (engine.applyAll t s.pending) (s.durable ++ s.pending)) :
    Upholds fresh (committing batch nil) index (fun a db s => Q a db.tables s.durable)
      (fun _ _ _ => True) (getDbSession ctx request) db freshSession := by
  have begun : Holding F [] [] db freshSession := ⟨rfl, .fresh, by simp [freshSession], fact⟩
  have finishes : ∀ a db s, N a db s →
      Upholds fresh (committing batch nil) index (fun _ db s => Q a db.tables s.durable)
        (Refusing batch) Kernel.commit db s :=
    fun a db s done => commit_upholds (fun whole => (commits a db s done whole).1)
      fun whole => (commits a db s done whole).2
  have refused : ∀ (e : PyExc) db s, Refusing batch e db s → e.isHttp = true →
      Upholds fresh (committing batch nil) index (fun _ _ _ => True) (fun _ _ _ => True)
        Kernel.commit db s :=
    fun e db s refusing answer => (commit_upholds (Q := fun _ _ => True) (fun _ => refusing answer)
      fun _ _ _ _ => trivial).mono (fun _ _ _ _ => trivial) fun _ _ _ _ => trivial
  refine (begun.setConfig lasting (fun _ _ _ _ => trivial) _).bind fun _ db s holding => ?_
  refine Meets.handle (N := Refusing batch) ?_ fun e db s refusing => ?_
  · exact (body db s holding).bind fun a db s done =>
      (finishes a db s done).bind fun _ _ _ held => held
  · cases e with
    | http status detail => exact (refused _ db s refusing rfl).bind fun _ _ _ _ => trivial
    | _ => exact rollback_upholds.bind fun _ _ _ _ => trivial

end Rules

/-! ## Worlds -/

section Worlds

variable {ι α : Type} [DecidableEq ι] {fresh : Tables → Memo → Write → Prop} {D : Discipline engine}
  {F : Tables → Prop} {tables : Tables} {programs : ι → Request α}
  {Q : ι → α → Tables → List Write → Prop}
  {w w' : World ι DbStatement PyExc α (Database ι) DbSession}

/-- Every request upholds the discipline, with `Q` of its answer, of the tables that its
commit leaves and of what it has committed. -/
abbrev Upheld (fresh : Tables → Memo → Write → Prop) (D : Discipline engine)
    (Q : ι → α → Tables → List Write → Prop)
    (w : World ι DbStatement PyExc α (Database ι) DbSession) : Prop :=
  World.Sound (engine.freshly fresh) D.contract
    (fun index a => (@Discipline.contract ι Tables Write _ Memo Env PyExc _ _ engine D).Since index
      fun db s => Q index a db.tables s.durable)
    (fun _ _ _ _ => True) w

/-- Requests that uphold the discipline are about to start. -/
theorem upheld_start (unique : tables.keys.Nodup) (lasting : Lasting D F) (fact : F tables)
    (upholds : ∀ index (db : Database ι), F db.tables →
      Upholds fresh D index (fun a db s => Q index a db.tables s.durable) (fun _ _ _ => True)
        (programs index) db freshSession) :
    Upheld fresh D Q (World.start { tables } freshSession programs) := by
  have outline : ∀ index, Valid (M := postgres ι) (engine.freshly fresh) D.contract index
      (fun a => (@Discipline.contract ι Tables Write _ Memo Env PyExc _ _ engine D).Since index
        fun db s => Q index a db.tables s.durable)
      (fun _ _ _ => True) (fun db s => F db.tables ∧ s = freshSession) (programs index) := by
    intro index
    refine (Meets.valid (Q := fun a db s => Q index a db.tables s.durable)
      (E := fun _ _ _ => True) ?_).after (fun _ => .refl _) fun _ _ _ _ _ _ => trivial
    rintro db _ _ _ ⟨fact, rfl⟩
    exact .of_now (upholds index db fact)
  refine World.Sound.start ⟨by simp, unique⟩ (fun index => ?_) (fun index => ?_)
    (fun index => ⟨fact, rfl⟩) outline
  · exact .of_pending ⟨by simp [freshSession], unique, fun _ => rfl, le_rfl⟩ rfl
  · rintro j db db' s _ coherent _ moves _ ⟨fact, same⟩
    exact ⟨lasting _ _ (Discipline.Moves.advances moves coherent) fact, same⟩

/-- **Every run is a sequence of commits.** -/
theorem advances_of_runs (upheld : Upheld fresh D Q w)
    (runs : World.Runs (postgres ι) (engine.freshly fresh) w w') :
    D.Advances w.db.tables w'.db.tables :=
  upheld.evolves runs (R := fun db db' => D.Advances db.tables db'.tables) (fun _ => .refl _)
    (fun _ _ _ => .trans) fun _ _ _ coherent _ moves => Discipline.Moves.advances moves coherent

end Worlds

/-- Steps of one request, each with the identifier that `uuid4` returns in it. -/
def turns {ι : Type} (now : DateTime) (index : ι) (uuids : List UUID) : List (Action ι (Choice Env)) :=
  uuids.map fun uuid => .step index { env := { uuid, now } }

end LandVault
