import LandVault.Library.Statements

/-!
# What a transaction may commit

A discipline says which writes a transaction of a database may commit together, and what
each of them relies on: a fact about the tables that the locks of the write protect. The
fact holds when the write is made, no other session can make it false, and so it holds
when the write is committed. Every run is then a sequence of such commits (`Advances`),
and an invariant of the tables is proved for one commit at a time.

What a program has to show is only what its statements want to write, whatever the
tables hold by then. `Admission.fresh` is a condition on the tables and on what a session
remembers, in which a statement writes.
-/

set_option autoImplicit false

namespace LandVault.Library.ReadCommitted

open LandVault.Library.Programs

variable {ι T W K Memo Env ε α β : Type} [DecidableEq ι] [DecidableEq K]

/-! ## Writes that stand -/

/-- What a write relies on, the writes that a statement of its own may make, and those
that a transaction may commit. -/
structure Discipline (E : Engine T W K Memo ε) where
  stands : T → W → Prop
  stands_frame : ∀ {t w w' ws}, (∀ k ∈ E.guards w, k ∉ E.guards w') →
    stands (E.applyAll t ws) w → stands (E.applyAll (E.apply t w') ws) w
  alone : W → Prop
  alone_stands : ∀ {t w}, alone w → stands t w
  batch : List W → Prop
  batch_nil : batch []

variable {E : Engine T W K Memo ε}

namespace Discipline

variable (D : Discipline E)

/-- Each write adds new entries and stands, where the writes before it have been made. -/
def Grounded : T → List W → Prop
  | _, [] => True
  | t, w :: ws => ((∀ k ∈ E.adds w, k ∉ E.keys t) ∧ D.stands t w) ∧ Grounded (E.apply t w) ws

variable {D}

theorem grounded_append {t : T} {ws : List W} {w : W} :
    D.Grounded t (ws ++ [w]) ↔
      D.Grounded t ws ∧ (∀ k ∈ E.adds w, k ∉ E.keys (E.applyAll t ws)) ∧
        D.stands (E.applyAll t ws) w := by
  induction ws generalizing t with
  | nil => simp [Grounded]
  | cons first ws ih => simp [Grounded, ih, and_assoc]

/-- A write of another session changes nothing that the locks of the list protect. -/
theorem Grounded.frame {t : T} {ws : List W} {w' : W} (grounded : D.Grounded t ws)
    (apart : ∀ w ∈ ws, ∀ k ∈ E.guards w, k ∉ E.guards w') : D.Grounded (E.apply t w') ws := by
  suffices general : ∀ before, D.Grounded (E.applyAll t before) ws →
      D.Grounded (E.applyAll (E.apply t w') before) ws from general [] grounded
  clear grounded
  induction ws with
  | nil => exact fun _ _ => trivial
  | cons w ws ih =>
      rintro before ⟨⟨absent, stands⟩, rest⟩
      have free := apart w List.mem_cons_self
      refine ⟨⟨fun k added present => absent k added ?_, D.stands_frame free stands⟩, ?_⟩
      · have same := E.count_applyAll_congr before
          (E.count_apply_of_not_guarded (t := t) (free k (E.adds_guarded w k added)))
        exact List.count_pos_iff.mp (same ▸ List.count_pos_iff.mpr present)
      · have later := ih (fun w member => apart w (List.mem_cons_of_mem _ member)) (before ++ [w])
        rw [E.applyAll_append, E.applyAll_append] at later
        exact later rest

theorem Grounded.frameAll {t : T} {ws ws' : List W} (grounded : D.Grounded t ws)
    (apart : ∀ w' ∈ ws', ∀ w ∈ ws, ∀ k ∈ E.guards w, k ∉ E.guards w') :
    D.Grounded (E.applyAll t ws') ws := by
  induction ws' generalizing t with
  | nil => exact grounded
  | cons w' ws' ih =>
      exact ih (grounded.frame (apart w' List.mem_cons_self))
        fun w member => apart w (List.mem_cons_of_mem _ member)

/-- Writes that stand, and may be committed together. -/
structure Makes (D : Discipline E) (t : T) (ws : List W) : Prop where
  unique : (E.keys t).Nodup
  grounded : D.Grounded t ws
  allowed : D.batch ws ∨ ∃ w, ws = [w] ∧ D.alone w

/-- Finitely many commits, one after another. -/
inductive Advances (D : Discipline E) : T → T → Prop where
  | refl (t : T) : Advances D t t
  | tail {t t' : T} {ws : List W} (earlier : Advances D t t') (makes : D.Makes t' ws) :
      Advances D t (E.applyAll t' ws)

theorem Advances.trans {t t' t'' : T} (first : Advances D t t') (second : Advances D t' t'') :
    Advances D t t'' := by
  induction second with
  | refl => exact first
  | tail _ makes ih => exact ih.tail makes

/-- What every single commit keeps, a run keeps. -/
theorem Advances.induction {I : T → Prop} {t t' : T} (advances : Advances D t t')
    (keeps : ∀ t ws, D.Makes t ws → I t → I (E.applyAll t ws)) (initial : I t) : I t' := by
  induction advances with
  | refl => exact initial
  | tail _ makes ih => exact keeps _ _ makes ih

/-- What every write of a commit keeps that stands, the commit keeps. -/
theorem Makes.induction {I : T → Prop} {t : T} {ws : List W} (makes : D.Makes t ws)
    (keeps : ∀ t, ∀ w ∈ ws, (E.keys t).Nodup → D.stands t w → I t → I (E.apply t w))
    (initial : I t) : I (E.applyAll t ws) := by
  obtain ⟨unique, grounded, allowed⟩ := makes
  clear allowed
  induction ws generalizing t with
  | nil => exact initial
  | cons w ws ih =>
      obtain ⟨⟨absent, stands⟩, rest⟩ := grounded
      exact ih (fun t w member => keeps t w (List.mem_cons_of_mem _ member))
        (keeps t w List.mem_cons_self unique stands initial) (E.keys_apply_nodup unique absent) rest

/-- A commit keeps the unique entries unique. -/
theorem Makes.unique_after {t : T} {ws : List W} (makes : D.Makes t ws) :
    (E.keys (E.applyAll t ws)).Nodup := by
  obtain ⟨unique, grounded, allowed⟩ := makes
  clear allowed
  induction ws generalizing t with
  | nil => exact unique
  | cons w ws ih => exact ih (E.keys_apply_nodup unique grounded.1.1) grounded.2

theorem Advances.unique {t t' : T} (advances : Advances D t t') (unique : (E.keys t).Nodup) :
    (E.keys t').Nodup :=
  advances.induction (I := fun t => (E.keys t).Nodup) (fun _ _ makes _ => makes.unique_after) unique

/-! ## The contract -/

/-- The session at `index` follows the discipline. -/
structure Follows (D : Discipline E) (index : ι) (db : Db ι T K) (s : Session W Memo ε) :
    Prop where
  held : Held E index db s
  grounded : D.Grounded db.tables s.pending

/-- What a step may do: nothing to the committed tables, or one commit. -/
structure Moves (D : Discipline E) (index : ι) (db db' : Db ι T K) : Prop where
  interferes : Interferes E index db db'
  writes : ∃ ws, db'.tables = E.applyAll db.tables ws ∧ D.Grounded db.tables ws ∧
    (D.batch ws ∨ ∃ w, ws = [w] ∧ D.alone w)

omit [DecidableEq ι] in
theorem Moves.advances {index : ι} {db db' : Db ι T K} (moves : Moves D index db db')
    (coherent : Coherent E db) : Advances D db.tables db'.tables := by
  obtain ⟨ws, same, grounded, allowed⟩ := moves.writes
  exact same ▸ (Advances.refl _).tail ⟨coherent.unique, grounded, allowed⟩

omit [DecidableEq ι] in
theorem Moves.quiet {index : ι} {db db' : Db ι T K} (interferes : Interferes E index db db')
    (same : db'.tables = db.tables) : Moves D index db db' :=
  ⟨interferes, [], by simpa using same, trivial, .inl D.batch_nil⟩

omit [DecidableEq ι] in
/-- The others' steps leave a session in its discipline. -/
theorem Follows.other {i j : ι} {db db' : Db ι T K} {s : Session W Memo ε}
    (follows : Follows D i db s) (interferes : Interferes E j db db') (coherent : Coherent E db')
    (different : j ≠ i) : Follows D i db' s where
  held := interferes.held coherent different follows.held
  grounded := by
    obtain ⟨ws, same, free⟩ := interferes.tables
    rw [same]
    refine follows.grounded.frameAll fun w' member w pending k guarded guarded' => ?_
    exact free w' member k guarded' i (Ne.symm different) (follows.held.guarded w pending k guarded)

omit [DecidableEq ι] in
/-- A session without pending writes follows every discipline. -/
theorem Follows.of_pending {index : ι} {db : Db ι T K} {s : Session W Memo ε}
    (held : Held E index db s) (pending : s.pending = []) : Follows D index db s :=
  ⟨held, by rw [pending]; trivial⟩

variable (D)

/-- Every session follows the discipline. -/
def contract : Contract (E.machine : Machine ι (Statement T W Memo Env ε) ε (Db ι T K)
    (Session W Memo ε) (Choice Env)) where
  store := Coherent E
  session := D.Follows
  guarantee := D.Moves
  crashed := fun _ _ _ => True
  session_stable := fun different _ coherent moves follows =>
    follows.other moves.interferes coherent different
  crashed_stable := fun _ _ _ _ _ _ => trivial
  crash_keeps := by
    intro index db s coherent follows
    have changes := crash_changes coherent follows.held
    exact ⟨changes.coherent, .of_pending changes.held rfl, .quiet changes.interferes rfl⟩

/-! ## What a program meets at a statement -/

variable {D} {index : ι} {db db₁ : Db ι T K} {s : Session W Memo ε}

/-- What holds when a statement of the program at `index` is carried out: the others may
have taken steps before. -/
structure Turn (Env : Type) (D : Discipline E) (index : ι) (db : Db ι T K) (s : Session W Memo ε)
    (db₁ : Db ι T K) : Prop where
  rely : (D.contract : Contract
    (E.machine : Machine ι (Statement T W Memo Env ε) ε (Db ι T K) (Session W Memo ε)
      (Choice Env))).Rely index db db₁
  coherent : Coherent E db₁
  follows : D.Follows index db₁ s

/-- Meanwhile the others have committed. -/
theorem Turn.advances (turn : D.Turn Env index db s db₁) : D.Advances db.tables db₁.tables := by
  have rely := turn.rely
  clear turn
  induction rely with
  | refl => exact .refl _
  | tail _ other ih =>
      obtain ⟨j, _, coherent, _, moves⟩ := other
      exact ih.trans (moves.advances coherent)

section Meets

variable {A : Admission ι (Statement T W Memo Env ε) (Db ι T K) (Session W Memo ε) (Choice Env)}
  {C : Choice Env → Prop} {Q : α → Assertion (Db ι T K) (Session W Memo ε)}
  {X : ε → Assertion (Db ι T K) (Session W Memo ε)}

/-- A statement keeps the discipline when what it commits does, and what it leaves
pending. -/
theorem meets_statement {statement : Statement T W Memo Env ε α}
    (steps : ∀ db₁ choice answer db' s', D.Turn Env index db s db₁ →
      A.admits index db₁ s statement choice →
      E.exec index db₁ s statement choice = some (answer, db', s') →
      D.Grounded db'.tables s'.pending ∧
      (∃ ws, db'.tables = E.applyAll db₁.tables ws ∧ D.Grounded db₁.tables ws ∧
        (D.batch ws ∨ ∃ w, ws = [w] ∧ D.alone w)) ∧
      Answered Q X answer db' s') :
    Meets A C D.contract index Q X (.perform statement) db s := by
  refine .perform fun db₁ rely coherent follows => ⟨trivial, ?_⟩
  intro choice answer db' s' _ admitted executed
  obtain ⟨ws, changes⟩ := exec_changes coherent follows.held executed
  obtain ⟨grounded, writes, answered⟩ :=
    steps db₁ choice answer db' s' ⟨rely, coherent, follows⟩ admitted executed
  exact ⟨⟨changes.coherent, ⟨changes.held, grounded⟩, ⟨changes.interferes, writes⟩⟩, answered⟩

/-- A statement inside the session, carried out where it is admitted: what it writes has to
stand. -/
theorem meets_query_admitted {run : View T Memo Env → Except ε (Effect W Memo ε α)}
    (broken : ∀ db₁, D.Turn Env index db s db₁ → s.broken = true → X E.pendingRollback db₁ s)
    (refused : ∀ db₁ db' now env e w, D.Turn Env index db s db₁ → db'.tables = db₁.tables →
      Raised E run ⟨E.view db₁ s, s.memo, (s.opened now).startedAt, env⟩ e w →
      X e db' ((s.opened now).abort e w))
    (read : ∀ db₁ db' now env memo a, D.Turn Env index db s db₁ → db'.tables = db₁.tables →
      s.broken = false → (∃ choice : Choice Env, choice.env = env ∧
        (db₁.advance s choice.tick).clock = now ∧ A.admits index db₁ s (.query run) choice) →
      run ⟨E.view db₁ s, s.memo, (s.opened now).startedAt, env⟩ = .ok ⟨memo, .ok a, none⟩ →
      Q a db' { s.opened now with memo })
    (wrote : ∀ db₁ db' now env memo a w, D.Turn Env index db s db₁ → db'.tables = db₁.tables →
      s.broken = false → (∃ choice : Choice Env, choice.env = env ∧
        (db₁.advance s choice.tick).clock = now ∧ A.admits index db₁ s (.query run) choice) →
      run ⟨E.view db₁ s, s.memo, (s.opened now).startedAt, env⟩ = .ok ⟨memo, .ok a, some w⟩ →
      D.stands (E.view db₁ s) w ∧ Q a db' { s.opened now with memo, pending := s.pending ++ [w] }) :
    Meets A C D.contract index Q X (.perform (.query run)) db s := by
  refine meets_statement fun db₁ choice answer db' s' turn admitted executed => ?_
  have quiet : ∀ {t : T}, t = db₁.tables → ∃ ws, t = E.applyAll db₁.tables ws ∧
      D.Grounded db₁.tables ws ∧ (D.batch ws ∨ ∃ w, ws = [w] ∧ D.alone w) :=
    fun same => ⟨[], same, trivial, .inl D.batch_nil⟩
  have grounded := turn.follows.grounded
  rcases exec_query executed with ⟨wasBroken, rfl, rfl, rfl⟩ | ⟨whole, ran⟩
  · exact ⟨grounded, quiet rfl, broken _ turn wasBroken⟩
  have tables : db'.tables = db₁.tables := by simpa using ran.tables_eq
  refine and_left_comm.mp ⟨quiet tables, ?_⟩
  have view : E.view (db₁.advance s choice.tick) (s.opened (db₁.advance s choice.tick).clock) =
      E.view db₁ s := by
    simp [Engine.view]
  generalize clock : (db₁.advance s choice.tick).clock = now at ran view
  have memo : (s.opened now).memo = s.memo := by
    unfold Session.opened
    split <;> rfl
  cases ran with
  | refused raised =>
      rw [view, memo] at raised
      exact ⟨trivial, refused db₁ _ now _ _ _ turn tables raised⟩
  | read ran =>
      rw [view, memo] at ran
      rw [tables]
      exact ⟨by simpa using grounded, read db₁ _ now _ _ _ turn tables whole
        ⟨choice, rfl, clock, admitted⟩ ran⟩
  | wrote ran _ absent =>
      rw [view] at absent
      rw [view, memo] at ran
      obtain ⟨stands, holds⟩ := wrote db₁ _ now _ _ _ _ turn tables whole
        ⟨choice, rfl, clock, admitted⟩ ran
      rw [tables]
      exact ⟨by simpa using grounded_append.mpr ⟨grounded, absent, stands⟩,
        by simpa [Answered] using holds⟩

/-- A statement inside the session: what it writes has to stand. -/
theorem meets_query {run : View T Memo Env → Except ε (Effect W Memo ε α)}
    (broken : ∀ db₁, D.Turn Env index db s db₁ → s.broken = true → X E.pendingRollback db₁ s)
    (refused : ∀ db₁ db' now env e w, D.Turn Env index db s db₁ → db'.tables = db₁.tables →
      Raised E run ⟨E.view db₁ s, s.memo, (s.opened now).startedAt, env⟩ e w →
      X e db' ((s.opened now).abort e w))
    (read : ∀ db₁ db' now env memo a, D.Turn Env index db s db₁ → db'.tables = db₁.tables →
      s.broken = false →
      run ⟨E.view db₁ s, s.memo, (s.opened now).startedAt, env⟩ = .ok ⟨memo, .ok a, none⟩ →
      Q a db' { s.opened now with memo })
    (wrote : ∀ db₁ db' now env memo a w, D.Turn Env index db s db₁ → db'.tables = db₁.tables →
      s.broken = false → (∃ choice : Choice Env, choice.env = env ∧
        (db₁.advance s choice.tick).clock = now ∧ A.admits index db₁ s (.query run) choice) →
      run ⟨E.view db₁ s, s.memo, (s.opened now).startedAt, env⟩ = .ok ⟨memo, .ok a, some w⟩ →
      D.stands (E.view db₁ s) w ∧ Q a db' { s.opened now with memo, pending := s.pending ++ [w] }) :
    Meets A C D.contract index Q X (.perform (.query run)) db s :=
  meets_query_admitted broken refused
    (fun db₁ db' now env memo a turn same whole _ ran =>
      read db₁ db' now env memo a turn same whole ran) wrote

/-- A statement in a session of its own. -/
theorem meets_eager {run : T → Env → Except ε (Option W × α)}
    (failed : ∀ db₁ e, D.Turn Env index db s db₁ →
      (e = E.disconnected ∨ (∃ env, run db₁.tables env = .error e) ∨
        ∃ env a w k, run db₁.tables env = .ok (some w, a) ∧ k ∈ E.adds w ∧ e = E.violation k) →
      X e db₁ s)
    (read : ∀ db₁ env a, D.Turn Env index db s db₁ → run db₁.tables env = .ok (none, a) → Q a db₁ s)
    (wrote : ∀ db₁ db' env a w, D.Turn Env index db s db₁ →
      run db₁.tables env = .ok (some w, a) → db'.tables = E.apply db₁.tables w →
      D.alone w ∧ (D.Advances db.tables db'.tables →
        Q a db' { s with durable := s.durable ++ [w] })) :
    Meets A C D.contract index Q X (.perform (.eager run)) db s := by
  refine meets_statement fun db₁ choice answer db' s' turn _ executed => ?_
  have grounded := turn.follows.grounded
  have quiet : ∃ ws, db₁.tables = E.applyAll db₁.tables ws ∧
      D.Grounded db₁.tables ws ∧ (D.batch ws ∨ ∃ w, ws = [w] ∧ D.alone w) :=
    ⟨[], rfl, trivial, .inl D.batch_nil⟩
  have free := fun b w => exec_eager_free (b := b) (w := w) executed
  cases exec_eager executed with
  | disconnected => exact ⟨grounded, quiet, failed db₁ _ turn (.inl rfl)⟩
  | raised raised => exact ⟨grounded, quiet, failed db₁ _ turn (.inr (.inl ⟨_, raised⟩))⟩
  | violation ran added _ =>
      exact ⟨grounded, quiet, failed db₁ _ turn (.inr (.inr ⟨_, _, _, _, ran, added, rfl⟩))⟩
  | read ran => exact ⟨grounded, quiet, read db₁ _ _ turn ran⟩
  | @wrote b w ran absent =>
      obtain ⟨alone, holds⟩ := wrote db₁ { db₁ with tables := E.apply db₁.tables w } _ _ _ turn ran rfl
      have makes : D.Makes db₁.tables [w] :=
        ⟨turn.coherent.unique, ⟨⟨absent, D.alone_stands alone⟩, trivial⟩, .inr ⟨w, rfl, alone⟩⟩
      refine ⟨grounded.frame fun w' pending k guarded guarded' => ?_,
        ⟨[w], rfl, makes.grounded, makes.allowed⟩, holds (turn.advances.tail makes)⟩
      exact free _ _ ran rfl k guarded' index (turn.follows.held.guarded w' pending k guarded)

theorem meets_choose {pick : Env → α}
    (holds : ∀ db₁ env, D.Turn Env index db s db₁ → Q (pick env) db₁ s) :
    Meets A C D.contract index Q X (.perform (.choose pick)) db s := by
  refine meets_statement fun db₁ choice answer db' s' turn _ executed => ?_
  cases executed
  exact ⟨turn.follows.grounded, ⟨[], rfl, trivial, .inl D.batch_nil⟩, holds db₁ _ turn⟩

/-- A commit: what is pending has to be a batch. -/
theorem meets_commit {Q : Unit → Assertion (Db ι T K) (Session W Memo ε)}
    (broken : ∀ db₁, D.Turn Env index db s db₁ → s.broken = true → X E.pendingRollback db₁ s)
    (idle : ∀ db₁, D.Turn Env index db s db₁ → s.broken = false → s.active = false → Q () db₁ s)
    (failed : ∀ db₁ db', D.Turn Env index db s db₁ → db'.tables = db₁.tables →
      X E.disconnected db' (s.abort E.disconnected none))
    (commits : ∀ db₁ db', D.Turn Env index db s db₁ → s.broken = false → s.active = true →
      db'.tables = E.view db₁ s →
      D.batch s.pending ∧
        Q () db' { s.close with durable := s.durable ++ s.pending, memo := E.settled s.memo }) :
    Meets A C D.contract index Q X (.perform .commit) db s := by
  refine meets_statement fun db₁ choice answer db' s' turn _ executed => ?_
  have grounded := turn.follows.grounded
  have quiet : ∃ ws, db₁.tables = E.applyAll db₁.tables ws ∧
      D.Grounded db₁.tables ws ∧ (D.batch ws ∨ ∃ w, ws = [w] ∧ D.alone w) :=
    ⟨[], rfl, trivial, .inl D.batch_nil⟩
  cases exec_commit executed with
  | refused wasBroken => exact ⟨grounded, quiet, broken _ turn wasBroken⟩
  | idle whole inactive => exact ⟨grounded, quiet, idle _ turn whole inactive⟩
  | failed whole active => exact ⟨trivial, quiet, failed _ _ turn rfl⟩
  | committed whole active =>
      obtain ⟨batch, holds⟩ := commits db₁ { db₁.release index with tables := E.view db₁ s } turn whole
        active rfl
      exact ⟨trivial, ⟨s.pending, rfl, grounded, .inl batch⟩, holds⟩

theorem meets_rollback {Q : Unit → Assertion (Db ι T K) (Session W Memo ε)}
    (holds : ∀ db₁ db', D.Turn Env index db s db₁ → db'.tables = db₁.tables →
      Q () db' { s.close with memo := E.fresh }) :
    Meets A C D.contract index Q X (.perform .rollback) db s := by
  refine meets_statement fun db₁ choice answer db' s' turn _ executed => ?_
  cases executed
  exact ⟨trivial, ⟨[], rfl, trivial, .inl D.batch_nil⟩, holds db₁ _ turn rfl⟩

end Meets

end Discipline

/-! ## Writes that agree with what was read -/

/-- The statement writes nothing, or something of which `fresh` holds. -/
def Writes (fresh : W → Prop) : Except ε (Effect W Memo ε β) → Prop
  | .ok ⟨_, .ok _, some w⟩ => fresh w
  | _ => True

/-- A statement of a session writes only where `fresh` holds of the tables that it sees,
of what the session remembers, and of the write. -/
def Engine.freshly (E : Engine T W K Memo ε) (fresh : T → Memo → W → Prop) :
    Admission ι (Statement T W Memo Env ε) (Db ι T K) (Session W Memo ε) (Choice Env) where
  admits := fun _ db s statement choice =>
    match statement with
    | .query run => Writes (fresh (E.view db s) s.memo) (run ⟨E.view db s, s.memo,
        (s.opened (db.advance s choice.tick).clock).startedAt, choice.env⟩)
    | _ => True

instance {fresh : W → Prop} [DecidablePred fresh] (result : Except ε (Effect W Memo ε β)) :
    Decidable (Writes fresh result) :=
  match result with
  | .ok ⟨_, .ok _, some w⟩ => inferInstanceAs (Decidable (fresh w))
  | .ok ⟨_, .ok _, none⟩ | .ok ⟨_, .error _, _⟩ | .error _ => .isTrue trivial

instance {fresh : T → Memo → W → Prop} [∀ t memo, DecidablePred (fresh t memo)] (index : ι)
    (db : Db ι T K) (s : Session W Memo ε) (statement : Statement T W Memo Env ε β)
    (choice : Choice Env) : Decidable ((E.freshly fresh).admits index db s statement choice) :=
  match statement with
  | .query run => inferInstanceAs (Decidable (Writes _ (run _)))
  | .eager _ | .choose _ | .commit | .rollback => .isTrue trivial

end LandVault.Library.ReadCommitted
