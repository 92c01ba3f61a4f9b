import Mathlib.Data.List.Perm.Basic
import Mathlib.Data.List.Nodup
import Mathlib.Data.Fintype.BigOperators
import Mathlib.Algebra.BigOperators.Ring.Finset
import LandVault.Library.Programs

/-!
# A read-committed database

A store of tables that programs change through sessions. A statement of a session
sees the committed tables with the session's own writes applied. A write stays
pending in its session until the session commits; meanwhile it holds the locks it
needs (row locks, and the entries it adds to unique indexes), and a statement of
another session that needs one of them has to wait. A write whose unique entries
are present already is refused. A refused statement ends the transaction: its
writes are gone and the session answers nothing more until it rolls back.

An eager statement runs in a session of its own that commits at once. A
transaction starts with the first statement after the last one ended, and the
database's clock at that moment is its start time.

The tables, the writes and the unique entries are parameters. What holds for
every program is proved here: locks are exclusive, unique entries stay unique
also for what a session sees, and no other session can commit a write whose
locks a session holds.
-/

set_option autoImplicit false

namespace LandVault.Library.ReadCommitted

open LandVault.Library.Programs

/-! ## Tables and writes -/

/-- Tables `T` changed by writes `W`, with lockable things `K` and errors `ε`.
`keys` are the entries of the unique indexes; a write locks every entry it adds or
removes. A session remembers something while its transactions last: `fresh` at
first and after a rollback, and what `settled` leaves of it after a commit. -/
structure Engine (T W K Memo ε : Type) [DecidableEq K] where
  apply : T → W → T
  guards : W → List K
  adds : W → List K
  removes : W → List K
  keys : T → List K
  fresh : Memo
  settled : Memo → Memo
  violation : K → ε
  disconnected : ε
  pendingRollback : ε
  adds_guarded : ∀ w k, k ∈ adds w → k ∈ guards w
  removes_guarded : ∀ w k, k ∈ removes w → k ∈ guards w
  adds_nodup : ∀ w, (adds w).Nodup
  keys_apply : ∀ t w, (keys (apply t w)).Perm (adds w ++ (keys t).filter (· ∉ removes w))

/-- The shared part: committed tables, who holds which lock, and the time. -/
structure Db (ι T K : Type) where
  tables : T
  locks : List (ι × K) := []
  clock : Nat := 0

/-- One session. `durable` lists the writes its program has committed, its own
and the eager ones; `lastError` is the last error a statement of a transaction ended
with, and `refused` the write that this statement wanted to make. -/
structure Session (W Memo ε : Type) where
  memo : Memo
  pending : List W := []
  durable : List W := []
  startedAt : Nat := 0
  active : Bool := false
  broken : Bool := false
  lastError : Option ε := none
  refused : Option W := none

/-- What a statement sees: the tables with the session's own writes, what the
session remembers, when its transaction started, and what the outside world
supplies. -/
structure View (T Memo Env : Type) where
  tables : T
  memo : Memo
  startedAt : Nat
  env : Env

/-- What a statement does: at most one write, what the session remembers, and
its answer. An error answered here is raised after the unique indexes are checked. -/
structure Effect (W Memo ε β : Type) where
  memo : Memo
  answer : Except ε β
  write : Option W := none

/-- The statements of a session. -/
inductive Statement (T W Memo Env ε : Type) : Type → Type 1 where
  | query {β : Type} (run : View T Memo Env → Except ε (Effect W Memo ε β)) :
      Statement T W Memo Env ε β
  | eager {β : Type} (run : T → Env → Except ε (Option W × β)) : Statement T W Memo Env ε β
  | choose {β : Type} (pick : Env → β) : Statement T W Memo Env ε β
  | commit : Statement T W Memo Env ε Unit
  | rollback : Statement T W Memo Env ε Unit

/-- The outside world's part in one statement: what it supplies, the time that
passes before a transaction starts, and whether the connection breaks. -/
structure Choice (Env : Type) where
  env : Env
  tick : Nat := 0
  fails : Bool := false

section Machine

variable {ι T W K Memo Env ε β : Type} [DecidableEq ι] [DecidableEq K]

namespace Engine

variable (E : Engine T W K Memo ε)

/-- Several writes, in order. -/
def applyAll (t : T) (ws : List W) : T := ws.foldl E.apply t

/-- The tables as a session sees them. -/
def view (db : Db ι T K) (s : Session W Memo ε) : T := E.applyAll db.tables s.pending

end Engine

/-- Time passes before a transaction starts. -/
def Db.advance (db : Db ι T K) (s : Session W Memo ε) (tick : Nat) : Db ι T K :=
  if s.active then db else { db with clock := db.clock + tick }

/-- The session's transaction, started at `now` if there is none. -/
def Session.opened (s : Session W Memo ε) (now : Nat) : Session W Memo ε :=
  if s.active then s else { s with active := true, startedAt := now }

/-- Some session other than `index` holds the lock. -/
def Db.heldByOther (db : Db ι T K) (index : ι) (k : K) : Bool :=
  db.locks.any fun lock => lock.1 ≠ index && lock.2 = k

def Db.acquire (db : Db ι T K) (index : ι) (ks : List K) : Db ι T K :=
  { db with locks := ks.map (Prod.mk index) ++ db.locks }

def Db.release (db : Db ι T K) (index : ι) : Db ι T K :=
  { db with locks := db.locks.filter fun lock => lock.1 ≠ index }

/-- The session after a statement was refused: the transaction is lost. -/
def Session.abort (s : Session W Memo ε) (error : ε) (write : Option W) : Session W Memo ε :=
  { s with pending := [], active := false, broken := true, lastError := some error, refused := write }

/-- The session after its transaction ended. -/
def Session.close (s : Session W Memo ε) : Session W Memo ε :=
  { s with pending := [], active := false, broken := false }

/-- What is left of a refused statement. -/
def refuse (index : ι) (db : Db ι T K) (s : Session W Memo ε) (error : ε) (write : Option W) :
    Except ε β × Db ι T K × Session W Memo ε :=
  (.error error, db.release index, s.abort error write)

/-- A session whose program is gone is rolled back by the database. -/
def crash (index : ι) (db : Db ι T K) (s : Session W Memo ε) : Db ι T K × Session W Memo ε :=
  (db.release index, s.close)

namespace Engine

variable (E : Engine T W K Memo ε)

/-- The first unique entry of a write that is present already. -/
def conflict (t : T) (w : W) : Option K := (E.adds w).find? fun k => k ∈ E.keys t

/-- Carry out what a statement wants to do: wait for its locks, check the unique
indexes, and keep the write pending. -/
def settle (index : ι) (db : Db ι T K) (s : Session W Memo ε) (effect : Effect W Memo ε β) :
    Option (Except ε β × Db ι T K × Session W Memo ε) :=
  match effect.write with
  | none =>
      match effect.answer with
      | .error error => some (refuse index db s error none)
      | .ok value => some (.ok value, db, { s with memo := effect.memo })
  | some w =>
      if (E.guards w).any (db.heldByOther index) then none
      else
        match E.conflict (E.view db s) w with
        | some k => some (refuse index db s (E.violation k) w)
        | none =>
            match effect.answer with
            | .error error => some (refuse index db s error w)
            | .ok value => some (.ok value, db.acquire index (E.guards w),
                { s with memo := effect.memo, pending := s.pending ++ [w] })

/-- One statement. -/
def exec {β : Type} (index : ι) (db : Db ι T K) (s : Session W Memo ε) :
    Statement T W Memo Env ε β → Choice Env → Option (Except ε β × Db ι T K × Session W Memo ε)
  | .query run, choice =>
      if s.broken then some (.error E.pendingRollback, db, s)
      else
        let now := db.advance s choice.tick
        let opened := s.opened now.clock
        if choice.fails then some (refuse index now opened E.disconnected none)
        else
          match run ⟨E.view now opened, opened.memo, opened.startedAt, choice.env⟩ with
          | .error error => some (refuse index now opened error none)
          | .ok effect => E.settle index now opened effect
  | .eager run, choice =>
      if choice.fails then some (.error E.disconnected, db, s)
      else
        match run db.tables choice.env with
        | .error error => some (.error error, db, s)
        | .ok (none, value) => some (.ok value, db, s)
        | .ok (some w, value) =>
            if (E.guards w).any fun k => db.locks.any fun lock => lock.2 = k then none
            else
              match E.conflict db.tables w with
              | some k => some (.error (E.violation k), db, s)
              | none => some (.ok value, { db with tables := E.apply db.tables w },
                  { s with durable := s.durable ++ [w] })
  | .choose pick, choice => some (.ok (pick choice.env), db, s)
  | .commit, choice =>
      if s.broken then some (.error E.pendingRollback, db, s)
      else if s.active = false then some (.ok (), db, s)
      else if choice.fails then some (refuse index db s E.disconnected none)
      else some (.ok (), { db.release index with tables := E.view db s },
        { s.close with durable := s.durable ++ s.pending, memo := E.settled s.memo })
  | .rollback, _ => some (.ok (), db.release index, { s.close with memo := E.fresh })

/-- The database as a machine for programs of statements. -/
def machine : Machine ι (Statement T W Memo Env ε) ε (Db ι T K) (Session W Memo ε) (Choice Env) where
  exec := fun index db s statement choice => E.exec index db s statement choice
  crash := crash

end Engine
end Machine

/-! ## Small facts -/

namespace Engine

variable {T W K Memo ε : Type} [DecidableEq K] (E : Engine T W K Memo ε)

@[simp] theorem applyAll_nil (t : T) : E.applyAll t [] = t := rfl

@[simp] theorem applyAll_cons (t : T) (w : W) (ws : List W) :
    E.applyAll t (w :: ws) = E.applyAll (E.apply t w) ws := rfl

theorem applyAll_append (t : T) (ws ws' : List W) :
    E.applyAll t (ws ++ ws') = E.applyAll (E.applyAll t ws) ws' := by
  simp [applyAll]

/-- A property that every write of a list keeps, the list keeps. -/
theorem applyAll_induction {P : T → Prop} {ws : List W}
    (keeps : ∀ t, ∀ w ∈ ws, P t → P (E.apply t w)) {t : T} (holds : P t) :
    P (E.applyAll t ws) := by
  induction ws generalizing t with
  | nil => exact holds
  | cons w ws ih =>
      exact ih (fun t w member => keeps t w (List.mem_cons_of_mem _ member))
        (keeps t w List.mem_cons_self holds)

/-- A write leaves the unique entries alone that it does not lock. -/
theorem count_apply_of_not_guarded {t : T} {w : W} {k : K} (free : k ∉ E.guards w) :
    (E.keys (E.apply t w)).count k = (E.keys t).count k := by
  have notAdded : k ∉ E.adds w := fun added => free (E.adds_guarded w k added)
  have notRemoved : k ∉ E.removes w := fun removed => free (E.removes_guarded w k removed)
  rw [(E.keys_apply t w).count_eq, List.count_append, List.count_eq_zero.mpr notAdded, Nat.zero_add,
    List.count_filter (by simpa using notRemoved)]

/-- What a write does to one unique entry depends on that entry only. -/
theorem count_apply_congr {t t' : T} {k : K} (w : W)
    (same : (E.keys t).count k = (E.keys t').count k) :
    (E.keys (E.apply t w)).count k = (E.keys (E.apply t' w)).count k := by
  rw [(E.keys_apply t w).count_eq, (E.keys_apply t' w).count_eq, List.count_append,
    List.count_append]
  by_cases removed : k ∈ E.removes w
  · have dropped : ∀ t : T, ((E.keys t).filter (· ∉ E.removes w)).count k = 0 :=
      fun t => List.count_eq_zero.mpr (by simp [removed])
    rw [dropped, dropped]
  · rw [List.count_filter (by simpa using removed), List.count_filter (by simpa using removed), same]

theorem count_applyAll_of_not_guarded {t : T} {ws : List W} {k : K}
    (free : ∀ w ∈ ws, k ∉ E.guards w) :
    (E.keys (E.applyAll t ws)).count k = (E.keys t).count k :=
  E.applyAll_induction (P := fun t' => (E.keys t').count k = (E.keys t).count k)
    (fun _ w member same => (E.count_apply_of_not_guarded (free w member)).trans same) rfl

theorem count_applyAll_congr {t t' : T} {k : K} (ws : List W)
    (same : (E.keys t).count k = (E.keys t').count k) :
    (E.keys (E.applyAll t ws)).count k = (E.keys (E.applyAll t' ws)).count k := by
  induction ws generalizing t t' with
  | nil => exact same
  | cons w ws ih => exact ih (E.count_apply_congr w same)

/-- A write whose new entries are absent keeps the entries unique. -/
theorem keys_apply_nodup {t : T} {w : W} (unique : (E.keys t).Nodup)
    (absent : ∀ k ∈ E.adds w, k ∉ E.keys t) : (E.keys (E.apply t w)).Nodup :=
  (E.keys_apply t w).nodup_iff.mpr
    (.append (E.adds_nodup w) (unique.filter _) fun k added present =>
      absent k added (List.mem_of_mem_filter present))

theorem conflict_eq_none {t : T} {w : W} :
    E.conflict t w = none ↔ ∀ k ∈ E.adds w, k ∉ E.keys t := by
  simp [conflict, List.find?_eq_none]

theorem conflict_eq_some {t : T} {w : W} {k : K} (found : E.conflict t w = some k) :
    k ∈ E.adds w ∧ k ∈ E.keys t := by
  have present := List.find?_some found
  exact ⟨List.mem_of_find?_eq_some found, by simpa using present⟩

end Engine

section Sessions

variable {ι T W K Memo ε : Type}

@[simp] theorem Db.advance_of_active {db : Db ι T K} {s : Session W Memo ε} {tick : Nat}
    (active : s.active = true) : db.advance s tick = db := by
  simp [Db.advance, active]

@[simp] theorem Session.opened_of_active {s : Session W Memo ε} {now : Nat}
    (active : s.active = true) : s.opened now = s := by
  simp [Session.opened, active]

@[simp] theorem Db.advance_tables (db : Db ι T K) (s : Session W Memo ε) (tick : Nat) :
    (db.advance s tick).tables = db.tables := by
  simp only [Db.advance]
  split <;> rfl

@[simp] theorem Db.advance_locks (db : Db ι T K) (s : Session W Memo ε) (tick : Nat) :
    (db.advance s tick).locks = db.locks := by
  simp only [Db.advance]
  split <;> rfl

theorem Db.le_advance_clock (db : Db ι T K) (s : Session W Memo ε) (tick : Nat) :
    db.clock ≤ (db.advance s tick).clock := by
  simp only [Db.advance]
  split <;> simp

@[simp] theorem Session.opened_pending (s : Session W Memo ε) (now : Nat) :
    (s.opened now).pending = s.pending := by
  simp only [Session.opened]
  split <;> rfl

@[simp] theorem Session.opened_durable (s : Session W Memo ε) (now : Nat) :
    (s.opened now).durable = s.durable := by
  simp only [Session.opened]
  split <;> rfl

@[simp] theorem Session.opened_memo (s : Session W Memo ε) (now : Nat) :
    (s.opened now).memo = s.memo := by
  simp only [Session.opened]
  split <;> rfl

@[simp] theorem Session.opened_broken (s : Session W Memo ε) (now : Nat) :
    (s.opened now).broken = s.broken := by
  simp only [Session.opened]
  split <;> rfl

@[simp] theorem Session.opened_active (s : Session W Memo ε) (now : Nat) :
    (s.opened now).active = true := by
  simp only [Session.opened]
  split <;> simp_all

theorem mem_acquire {db : Db ι T K} {index j : ι} {ks : List K} {k : K} (other : j ≠ index) :
    (j, k) ∈ (db.acquire index ks).locks ↔ (j, k) ∈ db.locks := by
  simp [Db.acquire, Ne.symm other]

theorem mem_acquire_self {db : Db ι T K} {index : ι} {ks : List K} {k : K} :
    (index, k) ∈ (db.acquire index ks).locks ↔ k ∈ ks ∨ (index, k) ∈ db.locks := by
  simp [Db.acquire]

theorem mem_release [DecidableEq ι] {db : Db ι T K} {index j : ι} {k : K} (other : j ≠ index) :
    (j, k) ∈ (db.release index).locks ↔ (j, k) ∈ db.locks := by
  simp [Db.release, other]

end Sessions

/-! ## What holds for every program -/

section Programs

variable {ι T W K Memo Env ε β : Type} [DecidableEq K]

/-- Of the committed state: a lock has one holder, a unique entry occurs once. -/
structure Coherent (E : Engine T W K Memo ε) (db : Db ι T K) : Prop where
  exclusive : ∀ i j k, (i, k) ∈ db.locks → (j, k) ∈ db.locks → i = j
  unique : (E.keys db.tables).Nodup

/-- Of a session: its pending writes hold their locks, and a unique entry occurs
once in what it sees. A session without a transaction has no pending write. -/
structure Held (E : Engine T W K Memo ε) (index : ι) (db : Db ι T K) (s : Session W Memo ε) :
    Prop where
  guarded : ∀ w ∈ s.pending, ∀ k ∈ E.guards w, (index, k) ∈ db.locks
  unique : (E.keys (E.view db s)).Nodup
  idle : s.active = false → s.pending = []
  started : s.startedAt ≤ db.clock

/-- What one step of the program at `index` did: the writes `ws` became durable,
no other session held a lock they need, and the other sessions' locks stayed. -/
structure Changes (E : Engine T W K Memo ε) (index : ι) (ws : List W) (db : Db ι T K)
    (s : Session W Memo ε) (db' : Db ι T K) (s' : Session W Memo ε) : Prop where
  tables : db'.tables = E.applyAll db.tables ws
  durable : s'.durable = s.durable ++ ws
  free : ∀ w ∈ ws, ∀ k ∈ E.guards w, ∀ j, j ≠ index → (j, k) ∉ db.locks
  others : ∀ j, j ≠ index → ∀ k, (j, k) ∈ db'.locks ↔ (j, k) ∈ db.locks
  clock : db.clock ≤ db'.clock
  coherent : Coherent E db'
  held : Held E index db' s'

variable {E : Engine T W K Memo ε} {index : ι} {db db' : Db ι T K} {s s' : Session W Memo ε}

/-- Writes that need none of a session's locks leave the session as it was. -/
theorem Held.interfered {ws : List W} (held : Held E index db s) (coherent : Coherent E db')
    (tables : db'.tables = E.applyAll db.tables ws)
    (free : ∀ w ∈ ws, ∀ k ∈ E.guards w, (index, k) ∉ db.locks)
    (kept : ∀ k, (index, k) ∈ db.locks → (index, k) ∈ db'.locks)
    (clock : db.clock ≤ db'.clock) : Held E index db' s where
  guarded := fun w member k guard => kept k (held.guarded w member k guard)
  unique := by
    -- an entry is touched by the pending writes or by the others' writes, not by both
    refine List.nodup_iff_count_le_one.mpr fun k => ?_
    by_cases mine : ∃ w ∈ s.pending, k ∈ E.guards w
    · obtain ⟨w, member, guard⟩ := mine
      have untouched : (E.keys db'.tables).count k = (E.keys db.tables).count k := by
        rw [tables]
        refine E.count_applyAll_of_not_guarded fun w' member' guard' => ?_
        exact free w' member' k guard' (held.guarded w member k guard)
      have same := E.count_applyAll_congr s.pending untouched
      exact same.le.trans (List.nodup_iff_count_le_one.mp held.unique k)
    · have same : (E.keys (E.view db' s)).count k = (E.keys db'.tables).count k :=
        E.count_applyAll_of_not_guarded fun w member guard => mine ⟨w, member, guard⟩
      exact same.le.trans (List.nodup_iff_count_le_one.mp coherent.unique k)
  idle := held.idle
  started := held.started.trans clock

/-- A step of one program, as the session of another one sees it. -/
theorem Changes.other {ws : List W} {j : ι} {t : Session W Memo ε}
    (changes : Changes E index ws db s db' s') (other : j ≠ index) (held : Held E j db t) :
    Held E j db' t :=
  held.interfered changes.coherent changes.tables
    (fun w member k guard => changes.free w member k guard j other)
    (fun k mine => (changes.others j other k).mpr mine) changes.clock

@[simp] theorem Engine.view_opened (E : Engine T W K Memo ε) (db : Db ι T K)
    (s : Session W Memo ε) (tick now : Nat) :
    E.view (db.advance s tick) (s.opened now) = E.view db s := by
  simp [Engine.view]

theorem Coherent.advance (coherent : Coherent E db) (tick : Nat) :
    Coherent E (db.advance s tick) where
  exclusive := by simpa using coherent.exclusive
  unique := by simpa using coherent.unique

theorem Held.opened (held : Held E index db s) (tick : Nat) :
    Held E index (db.advance s tick) (s.opened (db.advance s tick).clock) where
  guarded := by simpa using held.guarded
  unique := by simpa using held.unique
  idle := by simp
  started := by
    by_cases active : s.active = true
    · simpa [active] using held.started
    · simp [Session.opened, active]

/-- A step that makes nothing durable. -/
theorem Changes.quiet (coherent : Coherent E db') (held : Held E index db' s')
    (tables : db'.tables = db.tables) (durable : s'.durable = s.durable)
    (others : ∀ j, j ≠ index → ∀ k, (j, k) ∈ db'.locks ↔ (j, k) ∈ db.locks)
    (clock : db.clock ≤ db'.clock) : Changes E index [] db s db' s' where
  tables := by simp [tables]
  durable := by simp [durable]
  free := by simp
  others := others
  clock := clock
  coherent := coherent
  held := held

theorem Changes.refl (coherent : Coherent E db) (held : Held E index db s) :
    Changes E index [] db s db s :=
  .quiet coherent held rfl rfl (fun _ _ _ => .rfl) le_rfl

theorem Changes.opened (coherent : Coherent E db) (held : Held E index db s) (tick : Nat) :
    Changes E index [] db s (db.advance s tick) (s.opened (db.advance s tick).clock) :=
  .quiet (coherent.advance tick) (held.opened tick) (by simp) (by simp) (by simp)
    (db.le_advance_clock s tick)

/-- A step that only opens the transaction, followed by the statement itself. -/
theorem Changes.after {ws : List W} {between : Db ι T K} {t : Session W Memo ε}
    (first : Changes E index [] db s between t)
    (second : Changes E index ws between t db' s') : Changes E index ws db s db' s' where
  tables := by rw [second.tables, first.tables, E.applyAll_nil]
  durable := by rw [second.durable, first.durable, List.append_nil]
  free := fun w member k guard j other held =>
    second.free w member k guard j other ((first.others j other k).mpr held)
  others := fun j other k => (second.others j other k).trans (first.others j other k)
  clock := first.clock.trans second.clock
  coherent := second.coherent
  held := second.held

/-- A write that is committed at once, in a session of its own. -/
theorem Changes.eagerly {w : W} (coherent : Coherent E db) (held : Held E index db s)
    (free : ∀ k ∈ E.guards w, ∀ j, (j, k) ∉ db.locks)
    (absent : ∀ k ∈ E.adds w, k ∉ E.keys db.tables) :
    Changes E index [w] db s { db with tables := E.apply db.tables w }
      { s with durable := s.durable ++ [w] } := by
  have coherent' : Coherent E { db with tables := E.apply db.tables w } :=
    ⟨coherent.exclusive, E.keys_apply_nodup coherent.unique absent⟩
  have held' : Held E index { db with tables := E.apply db.tables w } s := by
    have tables : E.apply db.tables w = E.applyAll db.tables [w] := rfl
    refine held.interfered coherent' tables ?_ (fun _ mine => mine) le_rfl
    intro w' member k guard
    cases List.mem_singleton.mp member
    exact free k guard index
  refine ⟨rfl, rfl, ?_, fun _ _ _ => .rfl, le_rfl, coherent',
    ⟨held'.guarded, held'.unique, held'.idle, held'.started⟩⟩
  intro w' member k guard j _
  cases List.mem_singleton.mp member
  exact free k guard j

variable [DecidableEq ι]

theorem Db.heldByOther_eq_false {db : Db ι T K} {index : ι} {k : K} :
    db.heldByOther index k = false ↔ ∀ j, j ≠ index → (j, k) ∉ db.locks := by
  simp only [Db.heldByOther, List.any_eq_false, Bool.and_eq_true, decide_eq_true_eq, not_and,
    Prod.forall]
  constructor
  · intro free j other member
    exact free j k member other rfl
  · rintro free j k' member other rfl
    exact free j other member

/-- No other session holds a lock that a write needs. -/
theorem Engine.guards_free {E : Engine T W K Memo ε} {db : Db ι T K} {index : ι} {w : W}
    (free : ¬ (E.guards w).any (db.heldByOther index) = true) :
    ∀ k ∈ E.guards w, ∀ j, j ≠ index → (j, k) ∉ db.locks := by
  intro k member
  refine Db.heldByOther_eq_false.mp ?_
  have none := List.any_eq_false.mp (Bool.eq_false_iff.mpr free) k member
  simpa using none

theorem Coherent.release (coherent : Coherent E db) : Coherent E (db.release index) where
  exclusive := by
    intro i j k first second
    exact coherent.exclusive i j k (List.mem_of_mem_filter first) (List.mem_of_mem_filter second)
  unique := coherent.unique

/-- A session without pending writes, over a database that lost its locks. -/
theorem Held.ended (coherent : Coherent E db) (pending : s.pending = [])
    (started : s.startedAt ≤ db.clock) : Held E index (db.release index) s where
  guarded := by simp [pending]
  unique := by simpa [Engine.view, pending, Db.release] using coherent.unique
  idle := fun _ => pending
  started := started

theorem Changes.refused (coherent : Coherent E db) (held : Held E index db s) (error : ε)
    (write : Option W) : Changes E index [] db s (db.release index) (s.abort error write) :=
  .quiet coherent.release (.ended coherent rfl held.started) rfl rfl
    (fun _ other _ => mem_release other) le_rfl

theorem Coherent.acquire {ks : List K} (coherent : Coherent E db)
    (free : ∀ k ∈ ks, ∀ j, j ≠ index → (j, k) ∉ db.locks) : Coherent E (db.acquire index ks) where
  exclusive := by
    intro i j k first second
    by_cases mine : i = index <;> by_cases yours : j = index
    · rw [mine, yours]
    · subst mine
      have theirs := (mem_acquire yours).mp second
      rcases mem_acquire_self.mp first with added | before
      · exact absurd theirs (free k added j yours)
      · exact coherent.exclusive _ _ k before theirs
    · subst yours
      have theirs := (mem_acquire mine).mp first
      rcases mem_acquire_self.mp second with added | before
      · exact absurd theirs (free k added i mine)
      · exact coherent.exclusive _ _ k theirs before
    · exact coherent.exclusive i j k ((mem_acquire mine).mp first) ((mem_acquire yours).mp second)
  unique := coherent.unique

/-- A write that is kept pending. -/
theorem Changes.wrote {w : W} {memo : Memo} (coherent : Coherent E db) (held : Held E index db s)
    (active : s.active = true) (free : ∀ k ∈ E.guards w, ∀ j, j ≠ index → (j, k) ∉ db.locks)
    (absent : ∀ k ∈ E.adds w, k ∉ E.keys (E.view db s)) :
    Changes E index [] db s (db.acquire index (E.guards w))
      { s with memo := memo, pending := s.pending ++ [w] } := by
  refine .quiet (coherent.acquire free) ?_ rfl rfl (fun _ other _ => mem_acquire other) le_rfl
  refine ⟨?_, ?_, by simp [active], held.started⟩
  · intro w' member k guard
    rcases List.mem_append.mp member with before | last
    · exact mem_acquire_self.mpr (.inr (held.guarded w' before k guard))
    · cases List.mem_singleton.mp last
      exact mem_acquire_self.mpr (.inl guard)
  · have after : E.view db { s with memo := memo, pending := s.pending ++ [w] } =
        E.apply (E.view db s) w := E.applyAll_append _ _ _
    exact after ▸ E.keys_apply_nodup held.unique absent

theorem settle_changes {effect : Effect W Memo ε β} {answer : Except ε β}
    (coherent : Coherent E db) (held : Held E index db s) (active : s.active = true)
    (settled : E.settle index db s effect = some (answer, db', s')) :
    Changes E index [] db s db' s' := by
  unfold Engine.settle at settled
  split at settled
  · split at settled
    · cases settled
      exact .refused coherent held _ _
    · cases settled
      exact .quiet coherent ⟨held.guarded, held.unique, held.idle, held.started⟩ rfl rfl
        (fun _ _ _ => .rfl) le_rfl
  · rename_i w _
    split at settled
    · cases settled
    · rename_i free
      split at settled
      · cases settled
        exact .refused coherent held _ _
      · rename_i absent
        split at settled
        · cases settled
          exact .refused coherent held _ _
        · cases settled
          exact .wrote coherent held active (E.guards_free free) (E.conflict_eq_none.mp absent)

/-- The pending writes of a session become durable. -/
theorem Changes.committed (coherent : Coherent E db) (held : Held E index db s) :
    Changes E index s.pending db s { db.release index with tables := E.view db s }
      { s.close with durable := s.durable ++ s.pending, memo := E.settled s.memo } where
  tables := rfl
  durable := rfl
  free := fun w member k guard j other theirs =>
    other (coherent.exclusive j index k theirs (held.guarded w member k guard))
  others := fun _ other _ => mem_release other
  clock := le_rfl
  coherent := ⟨coherent.release.exclusive, held.unique⟩
  held :=
    { guarded := by simp [Session.close]
      unique := by simpa [Engine.view, Session.close] using held.unique
      idle := fun _ => rfl
      started := held.started }

/-- **Every statement keeps the database coherent and the session's locks**, and
touches the tables only by writes whose locks no other session holds. -/
theorem exec_changes {statement : Statement T W Memo Env ε β} {choice : Choice Env}
    {answer : Except ε β} (coherent : Coherent E db) (held : Held E index db s)
    (executed : E.exec index db s statement choice = some (answer, db', s')) :
    ∃ ws, Changes E index ws db s db' s' := by
  cases statement with
  | query run =>
      simp only [Engine.exec] at executed
      have opened := Changes.opened coherent held choice.tick
      split at executed
      · cases executed
        exact ⟨[], .refl coherent held⟩
      split at executed
      · cases executed
        exact ⟨[], opened.after (.refused opened.coherent opened.held _ _)⟩
      split at executed
      · cases executed
        exact ⟨[], opened.after (.refused opened.coherent opened.held _ _)⟩
      · exact ⟨[], opened.after
          (settle_changes opened.coherent opened.held (by simp) executed)⟩
  | eager run =>
      simp only [Engine.exec] at executed
      split at executed
      · cases executed
        exact ⟨[], .refl coherent held⟩
      split at executed
      · cases executed
        exact ⟨[], .refl coherent held⟩
      · cases executed
        exact ⟨[], .refl coherent held⟩
      · rename_i w value _
        split at executed
        · cases executed
        · rename_i free
          split at executed
          · cases executed
            exact ⟨[], .refl coherent held⟩
          · rename_i absent
            cases executed
            refine ⟨[w], .eagerly coherent held ?_ (E.conflict_eq_none.mp absent)⟩
            intro k guard j member
            exact free (List.any_eq_true.mpr
              ⟨k, guard, List.any_eq_true.mpr ⟨(j, k), member, by simp⟩⟩)
  | choose pick =>
      cases executed
      exact ⟨[], .refl coherent held⟩
  | commit =>
      simp only [Engine.exec] at executed
      split at executed
      · cases executed
        exact ⟨[], .refl coherent held⟩
      split at executed
      · cases executed
        exact ⟨[], .refl coherent held⟩
      split at executed
      · cases executed
        exact ⟨[], .refused coherent held _ _⟩
      · cases executed
        exact ⟨s.pending, .committed coherent held⟩
  | rollback =>
      cases executed
      refine ⟨[], .quiet coherent.release (.ended coherent rfl held.started) rfl rfl
        (fun _ other _ => mem_release other) le_rfl⟩

theorem crash_changes (coherent : Coherent E db) (held : Held E index db s) :
    Changes E index [] db s (crash index db s).1 (crash index db s).2 :=
  .quiet coherent.release (.ended coherent rfl held.started) rfl rfl
    (fun _ other _ => mem_release other) le_rfl

end Programs
end LandVault.Library.ReadCommitted
