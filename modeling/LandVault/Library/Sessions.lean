import LandVault.Library.ReadCommitted

/-!
# Reasoning about sessions

Outline rules for programs of a read-committed database. A protocol says what all
programs keep of the committed tables, what a commit may do to them, and what a
program that crashed may have made durable. One rule for each kind of statement
reduces an outline to facts about the tables.

The last part needs no outline: whatever the programs are, every committed write
is one that some session lists as durable, so an additive measure of the tables
is the sum over the sessions.
-/

set_option autoImplicit false

namespace LandVault.Library.ReadCommitted

open LandVault.Library.Programs

variable {ι T W K Memo Env ε α β : Type} [DecidableEq ι] [DecidableEq K]

/-! ## Protocols -/

/-- What every program keeps: a fact about the committed tables, a relation
between the tables before and after a commit, and what may be durable of a
program that crashed. -/
structure Protocol (T W : Type) where
  invariant : T → Prop
  evolves : T → T → Prop := fun _ _ => True
  crashed : List W → Prop := fun _ => True
  evolves_refl : ∀ t, evolves t t := by intros; trivial

/-- What a step of the program at `index` does to the database, as the others see it. -/
structure Interferes (E : Engine T W K Memo ε) (index : ι) (db db' : Db ι T K) : Prop where
  tables : ∃ ws, db'.tables = E.applyAll db.tables ws ∧
    ∀ w ∈ ws, ∀ k ∈ E.guards w, ∀ j, j ≠ index → (j, k) ∉ db.locks
  others : ∀ j, j ≠ index → ∀ k, (j, k) ∈ db'.locks ↔ (j, k) ∈ db.locks
  clock : db.clock ≤ db'.clock

omit [DecidableEq ι] in
theorem Changes.interferes {E : Engine T W K Memo ε} {index : ι} {ws : List W}
    {db db' : Db ι T K} {s s' : Session W Memo ε} (changes : Changes E index ws db s db' s') :
    Interferes E index db db' :=
  ⟨⟨ws, changes.tables, changes.free⟩, changes.others, changes.clock⟩

omit [DecidableEq ι] in
theorem Interferes.held {E : Engine T W K Memo ε} {index j : ι} {db db' : Db ι T K}
    {s : Session W Memo ε} (interferes : Interferes E index db db') (coherent : Coherent E db')
    (other : index ≠ j) (held : Held E j db s) : Held E j db' s := by
  obtain ⟨ws, tables, free⟩ := interferes.tables
  exact held.interfered coherent tables
    (fun w member k guard => free w member k guard j (Ne.symm other))
    (fun k mine => (interferes.others j (Ne.symm other) k).mpr mine) interferes.clock

/-- The contract of a protocol. -/
def Protocol.contract (p : Protocol T W) (E : Engine T W K Memo ε) :
    Contract (E.machine : Machine ι (Statement T W Memo Env ε) ε (Db ι T K) (Session W Memo ε)
      (Choice Env)) where
  store := fun db => Coherent E db ∧ p.invariant db.tables
  session := fun index db s => Held E index db s
  guarantee := fun index db db' => Interferes E index db db' ∧ p.evolves db.tables db'.tables
  crashed := fun _ _ s => p.crashed s.durable
  session_stable := fun other _ store' guarantee held =>
    guarantee.1.held store'.1 other held
  crashed_stable := fun _ _ _ _ _ crashed => crashed
  crash_keeps := by
    intro index db s store held
    have changes := crash_changes store.1 held
    exact ⟨⟨changes.coherent, store.2⟩, changes.held, changes.interferes, p.evolves_refl _⟩

/-! ## One rule for each kind of statement -/

section Rules

variable {E : Engine T W K Memo ε} {p : Protocol T W} {index : ι}
  {A : Admission ι (Statement T W Memo Env ε) (Db ι T K) (Session W Memo ε) (Choice Env)}
  {P : Assertion (Db ι T K) (Session W Memo ε)}
  {Q : β → Assertion (Db ι T K) (Session W Memo ε)}
  {X : ε → Assertion (Db ι T K) (Session W Memo ε)}

/-- No step of another program makes the assertion false. -/
def Kept (p : Protocol T W) (E : Engine T W K Memo ε) (index : ι)
    (P : Assertion (Db ι T K) (Session W Memo ε)) : Prop :=
  ∀ j db db' s, j ≠ index → Coherent E db ∧ p.invariant db.tables →
    Coherent E db' ∧ p.invariant db'.tables →
    Interferes E j db db' ∧ p.evolves db.tables db'.tables → Held E index db s → P db s → P db' s

omit [DecidableEq ι] in
/-- An assertion about the session alone. -/
theorem kept_of_session {R : Session W Memo ε → Prop} : Kept p E index (fun _ s => R s) :=
  fun _ _ _ _ _ _ _ _ _ holds => holds

omit [DecidableEq ι] in
/-- A fact about the committed tables that no commit makes false. -/
theorem kept_of_tables {F : T → Prop} (evolves : ∀ t t', p.evolves t t' → F t → F t') :
    Kept p E index (fun db _ => F db.tables) :=
  fun _ _ _ _ _ _ _ guarantee _ holds => evolves _ _ guarantee.2 holds

omit [DecidableEq ι] in
theorem Kept.and {P P' : Assertion (Db ι T K) (Session W Memo ε)} (first : Kept p E index P)
    (second : Kept p E index P') : Kept p E index (fun db s => P db s ∧ P' db s) :=
  fun j db db' s other store store' guarantee held holds =>
    ⟨first j db db' s other store store' guarantee held holds.1,
      second j db db' s other store store' guarantee held holds.2⟩

omit [DecidableEq ι] in
theorem Kept.exists {κ : Sort*} {P : κ → Assertion (Db ι T K) (Session W Memo ε)}
    (kept : ∀ k, Kept p E index (P k)) : Kept p E index (fun db s => ∃ k, P k db s) :=
  fun j db db' s other store store' guarantee held ⟨k, holds⟩ =>
    ⟨k, kept k j db db' s other store store' guarantee held holds⟩

/-- What an assertion needs so that a statement can run from it: the others keep it, a
crash is allowed there, and the start of a transaction keeps it. -/
structure Resting (p : Protocol T W) (E : Engine T W K Memo ε) (index : ι)
    (P : Assertion (Db ι T K) (Session W Memo ε)) : Prop where
  kept : Kept p E index P
  crashes : ∀ db s, P db s → p.crashed s.durable
  opens : ∀ (db : Db ι T K) (s : Session W Memo ε) tick,
    P db s → P (db.advance s tick) (s.opened (db.advance s tick).clock)

/-- Besides, whatever refuses a statement, the refusal leads from it to `X`. -/
structure Standing (p : Protocol T W) (E : Engine T W K Memo ε) (index : ι)
    (P : Assertion (Db ι T K) (Session W Memo ε))
    (X : ε → Assertion (Db ι T K) (Session W Memo ε)) : Prop extends Resting p E index P where
  failed : ∀ e, Kept p E index (X e)
  refused : ∀ db s, s.broken = true → P db s → X E.pendingRollback db s
  fails : ∀ db s e w, P db s → X e (db.release index) (s.abort e w)

/-- More is known of the committed tables. -/
theorem Standing.and (standing : Standing p E index P X) {F : T → Prop}
    (evolves : ∀ t t', p.evolves t t' → F t → F t') :
    Standing p E index (fun db s => P db s ∧ F db.tables) X where
  kept := standing.kept.and (kept_of_tables evolves)
  failed := standing.failed
  crashes := fun db s holds => standing.crashes db s holds.1
  refused := fun db s broken holds => standing.refused db s broken holds.1
  opens := fun db s tick holds => ⟨standing.opens db s tick holds.1, by simpa using holds.2⟩
  fails := fun db s e w holds => standing.fails db s e w holds.1

/-- The common part of the rules: a statement keeps the protocol when what it
makes durable does, and leads where the assertions say. -/
theorem valid_statement {statement : Statement T W Memo Env ε β}
    (crashes : ∀ db s, P db s → p.crashed s.durable) (value : ∀ b, Kept p E index (Q b))
    (error : ∀ e, Kept p E index (X e))
    (carries : ∀ db s choice answer db' s', Coherent E db → p.invariant db.tables →
      Held E index db s → P db s → A.admits index db s statement choice →
      E.exec index db s statement choice = some (answer, db', s') →
      p.invariant db'.tables ∧ p.evolves db.tables db'.tables ∧ Answered Q X answer db' s') :
    Valid A (p.contract E) index Q X P (Program.perform statement) := by
  refine .perform (fun db s _ _ holds => crashes db s holds) value error ?_
  intro db s choice answer db' s' store held holds admitted executed
  obtain ⟨ws, changes⟩ := exec_changes store.1 held executed
  obtain ⟨invariant, evolves, after⟩ :=
    carries db s choice answer db' s' store.1 store.2 held holds admitted executed
  exact ⟨⟨changes.coherent, invariant⟩, changes.held, ⟨changes.interferes, evolves⟩, after⟩

/-- A statement that keeps the tables as they are. -/
theorem valid_quiet {statement : Statement T W Memo Env ε β}
    (crashes : ∀ db s, P db s → p.crashed s.durable) (value : ∀ b, Kept p E index (Q b))
    (error : ∀ e, Kept p E index (X e))
    (carries : ∀ db s choice answer db' s', Coherent E db → p.invariant db.tables →
      Held E index db s → P db s →
      E.exec index db s statement choice = some (answer, db', s') →
      db'.tables = db.tables ∧ Answered Q X answer db' s') :
    Valid A (p.contract E) index Q X P (Program.perform statement) := by
  refine valid_statement crashes value error ?_
  intro db s choice answer db' s' coherent invariant held holds _ executed
  obtain ⟨tables, after⟩ := carries db s choice answer db' s' coherent invariant held holds executed
  exact ⟨tables ▸ invariant, tables ▸ p.evolves_refl _, after⟩

/-- How a statement that sees `view` can be refused: with which error, and while it
wanted to make which write. -/
inductive Raised (E : Engine T W K Memo ε)
    (run : View T Memo Env → Except ε (Effect W Memo ε β)) (view : View T Memo Env) :
    ε → Option W → Prop where
  | disconnected : Raised E run view E.disconnected none
  | run {error : ε} (raised : run view = .error error) : Raised E run view error none
  | answer {error : ε} {memo : Memo} {write : Option W}
      (raised : run view = .ok ⟨memo, .error error, write⟩) : Raised E run view error write
  | violation {memo : Memo} {answer : Except ε β} {w : W} {k : K}
      (wrote : run view = .ok ⟨memo, answer, some w⟩) (added : k ∈ E.adds w)
      (present : k ∈ E.keys view.tables) : Raised E run view (E.violation k) (some w)

/-- A statement inside the session, with its ways to fail told apart. -/
theorem Valid.attempted {run : View T Memo Env → Except ε (Effect W Memo ε β)}
    (resting : Resting p E index P) (value : ∀ b, Kept p E index (Q b))
    (failed : ∀ e, Kept p E index (X e))
    (refused : ∀ db s, s.broken = true → P db s → X E.pendingRollback db s)
    (fails : ∀ db s env e w, Held E index db s → s.active = true → P db s →
      Raised E run ⟨E.view db s, s.memo, s.startedAt, env⟩ e w →
      X e (db.release index) (s.abort e w))
    (reads : ∀ db s env memo b, Coherent E db → p.invariant db.tables → Held E index db s →
      s.active = true → P db s →
      run ⟨E.view db s, s.memo, s.startedAt, env⟩ = .ok ⟨memo, .ok b, none⟩ →
      Q b db { s with memo := memo })
    (writes : ∀ db s env memo b w, Coherent E db → p.invariant db.tables → Held E index db s →
      s.active = true → P db s →
      run ⟨E.view db s, s.memo, s.startedAt, env⟩ = .ok ⟨memo, .ok b, some w⟩ →
      (∀ k ∈ E.adds w, k ∉ E.keys (E.view db s)) →
      Q b (db.acquire index (E.guards w)) { s with memo := memo, pending := s.pending ++ [w] }) :
    Valid A (p.contract E) index Q X P (Program.perform (.query run)) := by
  refine valid_quiet resting.crashes value failed ?_
  intro db s choice answer db' s' coherent invariant held holds executed
  simp only [Engine.exec] at executed
  have opened := Changes.opened coherent held choice.tick
  have invariant' : p.invariant (db.advance s choice.tick).tables := by simpa using invariant
  have holds' := resting.opens db s choice.tick holds
  have active : (s.opened (db.advance s choice.tick).clock).active = true := by simp
  have refuses := fun e w =>
    fails (db.advance s choice.tick) (s.opened (db.advance s choice.tick).clock) choice.env e w
      opened.held active holds'
  split at executed
  · cases executed
    exact ⟨rfl, refused db s ‹_› holds⟩
  split at executed
  · cases executed
    exact ⟨by simp [Db.release], refuses _ _ .disconnected⟩
  split at executed
  · rename_i error ran
    cases executed
    exact ⟨by simp [Db.release], refuses _ _ (.run ran)⟩
  · rename_i effect ran
    rcases effect with ⟨memo, given, write⟩
    unfold Engine.settle at executed
    split at executed
    · rename_i none
      subst none
      split at executed
      · rename_i error answered
        subst answered
        cases executed
        exact ⟨by simp [Db.release], refuses _ _ (.answer ran)⟩
      · rename_i b answered
        subst answered
        cases executed
        exact ⟨by simp, reads _ _ _ _ _ opened.coherent invariant' opened.held active holds' ran⟩
    · rename_i w some
      subst some
      split at executed
      · cases executed
      split at executed
      · rename_i k conflict
        cases executed
        obtain ⟨added, present⟩ := E.conflict_eq_some conflict
        exact ⟨by simp [Db.release], refuses _ _ (.violation ran added present)⟩
      · rename_i absent
        split at executed
        · rename_i error answered
          subst answered
          cases executed
          exact ⟨by simp [Db.release], refuses _ _ (.answer ran)⟩
        · rename_i b answered
          subst answered
          cases executed
          exact ⟨by simp [Db.acquire], writes _ _ _ _ _ _ opened.coherent invariant' opened.held
            active holds' ran (E.conflict_eq_none.mp absent)⟩

/-- A statement inside the session. -/
theorem Valid.query {run : View T Memo Env → Except ε (Effect W Memo ε β)}
    (standing : Standing p E index P X) (value : ∀ b, Kept p E index (Q b))
    (reads : ∀ db s env memo b, Coherent E db → p.invariant db.tables → Held E index db s →
      s.active = true → P db s →
      run ⟨E.view db s, s.memo, s.startedAt, env⟩ = .ok ⟨memo, .ok b, none⟩ →
      Q b db { s with memo := memo })
    (writes : ∀ db s env memo b w, Coherent E db → p.invariant db.tables → Held E index db s →
      s.active = true → P db s →
      run ⟨E.view db s, s.memo, s.startedAt, env⟩ = .ok ⟨memo, .ok b, some w⟩ →
      (∀ k ∈ E.adds w, k ∉ E.keys (E.view db s)) →
      Q b (db.acquire index (E.guards w)) { s with memo := memo, pending := s.pending ++ [w] }) :
    Valid A (p.contract E) index Q X P (Program.perform (.query run)) :=
  Valid.attempted standing.toResting value standing.failed standing.refused
    (fun db s _ e w _ _ holds _ => standing.fails db s e w holds) reads writes

/-- A statement in a session of its own. -/
theorem Valid.eager {run : T → Env → Except ε (Option W × β)}
    (standing : Standing p E index P X) (value : ∀ b, Kept p E index (Q b))
    (fails : ∀ db s e, P db s → X e db s)
    (reads : ∀ db s env b, Coherent E db → p.invariant db.tables → Held E index db s → P db s →
      run db.tables env = .ok (none, b) → Q b db s)
    (writes : ∀ db s env b w, Coherent E db → p.invariant db.tables → Held E index db s →
      P db s → run db.tables env = .ok (some w, b) → (∀ k ∈ E.adds w, k ∉ E.keys db.tables) →
      p.invariant (E.apply db.tables w) ∧ p.evolves db.tables (E.apply db.tables w) ∧
        Q b { db with tables := E.apply db.tables w } { s with durable := s.durable ++ [w] }) :
    Valid A (p.contract E) index Q X P (Program.perform (.eager run)) := by
  refine valid_statement standing.crashes value standing.failed ?_
  intro db s choice answer db' s' coherent invariant held holds _ executed
  simp only [Engine.exec] at executed
  split at executed
  · cases executed
    exact ⟨invariant, p.evolves_refl _, fails _ _ _ holds⟩
  split at executed
  · cases executed
    exact ⟨invariant, p.evolves_refl _, fails _ _ _ holds⟩
  · rename_i b ran
    cases executed
    exact ⟨invariant, p.evolves_refl _, reads _ _ _ _ coherent invariant held holds ran⟩
  · rename_i w b ran
    split at executed
    · cases executed
    split at executed
    · cases executed
      exact ⟨invariant, p.evolves_refl _, fails _ _ _ holds⟩
    · rename_i absent
      cases executed
      exact writes _ _ _ _ _ coherent invariant held holds ran (E.conflict_eq_none.mp absent)

/-- A value that the outside world supplies. -/
theorem Valid.choose {pick : Env → β} (resting : Resting p E index P)
    (value : ∀ b, Kept p E index (Q b)) (failed : ∀ e, Kept p E index (X e))
    (picks : ∀ db s env, Coherent E db → p.invariant db.tables → Held E index db s → P db s →
      Q (pick env) db s) :
    Valid A (p.contract E) index Q X P (Program.perform (.choose pick)) := by
  refine valid_quiet resting.crashes value failed ?_
  intro db s choice answer db' s' coherent invariant held holds executed
  cases executed
  exact ⟨rfl, picks _ _ _ coherent invariant held holds⟩

/-- The end of a transaction that makes its writes durable. -/
theorem Valid.commit {Q : Unit → Assertion (Db ι T K) (Session W Memo ε)}
    (crashes : ∀ db s, P db s → p.crashed s.durable) (value : Kept p E index (Q ()))
    (error : ∀ e, Kept p E index (X e))
    (refused : ∀ db s, s.broken = true → P db s → X E.pendingRollback db s)
    (idle : ∀ db s, s.broken = false → s.active = false → P db s → Q () db s)
    (fails : ∀ db s, s.broken = false → s.active = true → P db s →
      X E.disconnected (db.release index) (s.abort E.disconnected none))
    (commits : ∀ db s, Coherent E db → p.invariant db.tables → Held E index db s →
      s.broken = false → s.active = true → P db s →
      (∃ choice, A.admits index db s (.commit : Statement T W Memo Env ε Unit) choice) →
      p.invariant (E.view db s) ∧ p.evolves db.tables (E.view db s) ∧
        Q () { db.release index with tables := E.view db s }
          { s.close with durable := s.durable ++ s.pending, memo := E.settled s.memo }) :
    Valid A (p.contract E) index Q X P (Program.perform .commit) := by
  refine valid_statement crashes (fun _ => value) error ?_
  intro db s choice answer db' s' coherent invariant held holds admitted executed
  simp only [Engine.exec] at executed
  split at executed
  · cases executed
    exact ⟨invariant, p.evolves_refl _, refused _ _ ‹_› holds⟩
  rename_i whole
  have whole : s.broken = false := by simpa using whole
  split at executed
  · cases executed
    exact ⟨invariant, p.evolves_refl _, idle _ _ whole ‹_› holds⟩
  rename_i active
  have active : s.active = true := by simpa using active
  split at executed
  · cases executed
    exact ⟨invariant, p.evolves_refl _, fails _ _ whole active holds⟩
  · cases executed
    exact commits _ _ coherent invariant held whole active holds ⟨choice, admitted⟩

/-- The end of a transaction that drops its writes. -/
theorem Valid.rollback {Q : Unit → Assertion (Db ι T K) (Session W Memo ε)}
    (crashes : ∀ db s, P db s → p.crashed s.durable) (value : Kept p E index (Q ()))
    (error : ∀ e, Kept p E index (X e))
    (drops : ∀ db s, P db s → Q () (db.release index) { s.close with memo := E.fresh }) :
    Valid A (p.contract E) index Q X P (Program.perform .rollback) := by
  refine valid_quiet crashes (fun _ => value) error ?_
  intro db s choice answer db' s' _ _ _ holds executed
  cases executed
  exact ⟨rfl, drops _ _ holds⟩

end Rules

/-! ## Accounts -/

section Accounts

variable {E : Engine T W K Memo ε}
  {A : Admission ι (Statement T W Memo Env ε) (Db ι T K) (Session W Memo ε) (Choice Env)}
  {w w' : World ι (Statement T W Memo Env ε) ε α (Db ι T K) (Session W Memo ε)}

/-- A database and its sessions in order. -/
structure Steady (E : Engine T W K Memo ε)
    (w : World ι (Statement T W Memo Env ε) ε α (Db ι T K) (Session W Memo ε)) : Prop where
  coherent : Coherent E w.db
  held : ∀ index, Held E index w.db (w.task index).session

/-- A step of a world is a change by one of its sessions; the other sessions
stay as they are. -/
theorem Steady.steps (steady : Steady E w) (step : World.Steps E.machine A w w') :
    ∃ index ws, Changes E index ws w.db (w.task index).session w'.db (w'.task index).session ∧
      ∀ j, j ≠ index → w'.task j = w.task j := by
  obtain ⟨action, _, acted⟩ := step
  rcases World.act_cases acted with
    ⟨index, choice, β, statement, next, answer, db, session, rfl, _, executed, rfl⟩ |
    ⟨index, β, statement, next, rfl, _, rfl⟩
  · obtain ⟨ws, changes⟩ := exec_changes steady.coherent (steady.held index) executed
    exact ⟨index, ws, by simpa using changes, fun j other => by simp [other]⟩
  · exact ⟨index, [], by simpa [Engine.machine] using crash_changes steady.coherent (steady.held index),
      fun j other => by simp [other]⟩

theorem Steady.next {index : ι} {ws : List W} (steady : Steady E w)
    (changes : Changes E index ws w.db (w.task index).session w'.db (w'.task index).session)
    (others : ∀ j, j ≠ index → w'.task j = w.task j) : Steady E w' where
  coherent := changes.coherent
  held := by
    intro j
    by_cases same : j = index
    · subst same
      exact changes.held
    · exact others j same ▸ changes.other same (steady.held j)

omit [DecidableEq ι] in
/-- A fresh start is in order when the unique entries are. -/
theorem Steady.start {db : Db ι T K} {session : Session W Memo ε}
    {programs : ι → Program (Statement T W Memo Env ε) ε α} (unlocked : db.locks = [])
    (unique : (E.keys db.tables).Nodup) (pending : session.pending = [])
    (started : session.startedAt ≤ db.clock) : Steady E (World.start db session programs) where
  coherent := ⟨by simp [World.start, unlocked], unique⟩
  held := fun index =>
    { guarded := by simp [World.start, pending]
      unique := by simpa [World.start, Engine.view, pending] using unique
      idle := fun _ => pending
      started := started }

/-- **Every committed write is some session's.** A measure of the tables to which
each write adds its own amount is what it was at the start, plus what the
sessions have made durable. -/
theorem account [Fintype ι] {μ : T → Nat} {ν : W → Nat}
    (additive : ∀ t w, μ (E.apply t w) = μ t + ν w) {base : Nat} (steady : Steady E w)
    (initial : μ w.db.tables = base + ∑ i, ((w.task i).session.durable.map ν).sum)
    (runs : World.Runs E.machine A w w') :
    μ w'.db.tables = base + ∑ i, ((w'.task i).session.durable.map ν).sum := by
  have additive_all : ∀ t ws, μ (E.applyAll t ws) = μ t + (ws.map ν).sum := by
    intro t ws
    induction ws generalizing t with
    | nil => simp
    | cons w ws ih => rw [E.applyAll_cons, ih, additive]; simp [Nat.add_assoc]
  have both : Steady E w' ∧
      μ w'.db.tables = base + ∑ i, ((w'.task i).session.durable.map ν).sum := by
    refine World.Runs.induction (Φ := fun v => Steady E v ∧
      μ v.db.tables = base + ∑ i, ((v.task i).session.durable.map ν).sum) ?_
      ⟨steady, initial⟩ runs
    rintro v v' ⟨steady, balance⟩ step
    obtain ⟨index, ws, changes, others⟩ := steady.steps step
    refine ⟨steady.next changes others, ?_⟩
    rw [changes.tables, additive_all, balance, Nat.add_assoc]
    congr 1
    rw [← Finset.add_sum_erase _ _ (Finset.mem_univ index),
      ← Finset.add_sum_erase _ _ (Finset.mem_univ index), changes.durable]
    have rest : ∑ i ∈ Finset.univ.erase index, ((v'.task i).session.durable.map ν).sum =
        ∑ i ∈ Finset.univ.erase index, ((v.task i).session.durable.map ν).sum :=
      Finset.sum_congr rfl fun i member => by rw [others i (Finset.ne_of_mem_erase member)]
    rw [rest, List.map_append, List.sum_append]
    omega
  exact both.2

end Accounts
end LandVault.Library.ReadCommitted
