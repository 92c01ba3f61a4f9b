import LandVault.Library.Interference
import LandVault.Library.Sessions

/-!
# What one statement does

Each kind of statement of a session, with its outcomes told apart: it is refused, it
answers, or it answers and leaves a write. From them follows what a program has to meet
at a statement (`Meets`), for the contract of a protocol: a statement inside the session
leaves the committed tables alone, an eager statement and a commit have to keep the
protocol.
-/

set_option autoImplicit false

namespace LandVault.Library.ReadCommitted

open LandVault.Library.Programs

variable {ι T W K Memo Env ε α β : Type} [DecidableEq ι] [DecidableEq K]

/-! ## Outcomes -/

section Outcomes

variable (E : Engine T W K Memo ε) (index : ι)

/-- What becomes of a statement inside an open transaction. -/
inductive Ran (run : View T Memo Env → Except ε (Effect W Memo ε β)) (env : Env) (db : Db ι T K)
    (s : Session W Memo ε) : Except ε β → Db ι T K → Session W Memo ε → Prop where
  | refused {e : ε} {w : Option W}
      (raised : Raised E run ⟨E.view db s, s.memo, s.startedAt, env⟩ e w) :
      Ran run env db s (.error e) (db.release index) (s.abort e w)
  | read {memo : Memo} {b : β}
      (ran : run ⟨E.view db s, s.memo, s.startedAt, env⟩ = .ok ⟨memo, .ok b, none⟩) :
      Ran run env db s (.ok b) db { s with memo := memo }
  | wrote {memo : Memo} {b : β} {w : W}
      (ran : run ⟨E.view db s, s.memo, s.startedAt, env⟩ = .ok ⟨memo, .ok b, some w⟩)
      (free : ∀ k ∈ E.guards w, ∀ j, j ≠ index → (j, k) ∉ db.locks)
      (absent : ∀ k ∈ E.adds w, k ∉ E.keys (E.view db s)) :
      Ran run env db s (.ok b) (db.acquire index (E.guards w))
        { s with memo := memo, pending := s.pending ++ [w] }

/-- What becomes of a statement in a session of its own. -/
inductive RanApart (run : T → Env → Except ε (Option W × β)) (env : Env) (db : Db ι T K)
    (s : Session W Memo ε) : Except ε β → Db ι T K → Session W Memo ε → Prop where
  | disconnected : RanApart run env db s (.error E.disconnected) db s
  | raised {e : ε} (raised : run db.tables env = .error e) : RanApart run env db s (.error e) db s
  | violation {b : β} {w : W} {k : K} (ran : run db.tables env = .ok (some w, b))
      (added : k ∈ E.adds w) (present : k ∈ E.keys db.tables) :
      RanApart run env db s (.error (E.violation k)) db s
  | read {b : β} (ran : run db.tables env = .ok (none, b)) : RanApart run env db s (.ok b) db s
  | wrote {b : β} {w : W} (ran : run db.tables env = .ok (some w, b))
      (absent : ∀ k ∈ E.adds w, k ∉ E.keys db.tables) :
      RanApart run env db s (.ok b) { db with tables := E.apply db.tables w }
        { s with durable := s.durable ++ [w] }

/-- What becomes of a commit. -/
inductive Committed (db : Db ι T K) (s : Session W Memo ε) :
    Except ε Unit → Db ι T K → Session W Memo ε → Prop where
  | refused (broken : s.broken = true) : Committed db s (.error E.pendingRollback) db s
  | idle (whole : s.broken = false) (inactive : s.active = false) : Committed db s (.ok ()) db s
  | failed (whole : s.broken = false) (active : s.active = true) :
      Committed db s (.error E.disconnected) (db.release index) (s.abort E.disconnected none)
  | committed (whole : s.broken = false) (active : s.active = true) :
      Committed db s (.ok ()) { db.release index with tables := E.view db s }
        { s.close with durable := s.durable ++ s.pending, memo := E.settled s.memo }

end Outcomes

variable {E : Engine T W K Memo ε} {index : ι} {db db' : Db ι T K} {s s' : Session W Memo ε}
  {choice : Choice Env} {answer : Except ε β}

/-- A statement of a session: a broken one answers nothing, any other one runs in its
transaction. -/
theorem exec_query {run : View T Memo Env → Except ε (Effect W Memo ε β)}
    (executed : E.exec index db s (.query run) choice = some (answer, db', s')) :
    (s.broken = true ∧ answer = .error E.pendingRollback ∧ db' = db ∧ s' = s) ∨
      (s.broken = false ∧ Ran E index run choice.env (db.advance s choice.tick)
        (s.opened (db.advance s choice.tick).clock) answer db' s') := by
  simp only [Engine.exec] at executed
  split at executed
  · cases executed
    exact .inl ⟨‹_›, rfl, rfl, rfl⟩
  rename_i whole
  refine .inr ⟨by simpa using whole, ?_⟩
  split at executed
  · cases executed
    exact .refused .disconnected
  split at executed
  · rename_i error ran
    cases executed
    exact .refused (.run ran)
  · rename_i effect ran
    rcases effect with ⟨memo, given, write⟩
    unfold Engine.settle at executed
    split at executed
    · rename_i none
      subst none
      split at executed
      · rename_i error answered
        subst answered
        cases executed
        exact .refused (.answer ran)
      · rename_i b answered
        subst answered
        cases executed
        exact .read ran
    · rename_i w some
      subst some
      split at executed
      · cases executed
      rename_i free
      split at executed
      · rename_i k conflict
        cases executed
        obtain ⟨added, present⟩ := E.conflict_eq_some conflict
        exact .refused (.violation ran added present)
      · rename_i absent
        split at executed
        · rename_i error answered
          subst answered
          cases executed
          exact .refused (.answer ran)
        · rename_i b answered
          subst answered
          cases executed
          exact .wrote ran (E.guards_free free) (E.conflict_eq_none.mp absent)

theorem exec_eager {run : T → Env → Except ε (Option W × β)}
    (executed : E.exec index db s (.eager run : Statement T W Memo Env ε β) choice =
      some (answer, db', s')) :
    RanApart E run choice.env db s answer db' s' := by
  simp only [Engine.exec] at executed
  split at executed
  · cases executed
    exact .disconnected
  split at executed
  · rename_i e raised
    cases executed
    exact .raised raised
  · rename_i b ran
    cases executed
    exact .read ran
  · rename_i w b ran
    split at executed
    · cases executed
    split at executed
    · rename_i k conflict
      cases executed
      obtain ⟨added, present⟩ := E.conflict_eq_some conflict
      exact .violation ran added present
    · rename_i absent
      cases executed
      exact .wrote ran (E.conflict_eq_none.mp absent)

/-- A write of its own waits until nobody holds a lock that it needs. -/
theorem exec_eager_free {run : T → Env → Except ε (Option W × β)}
    (executed : E.exec index db s (.eager run : Statement T W Memo Env ε β) choice =
      some (answer, db', s')) {w : W} {b : β} (ran : run db.tables choice.env = .ok (some w, b))
    (answered : answer = .ok b) : ∀ k ∈ E.guards w, ∀ j, (j, k) ∉ db.locks := by
  subst answered
  simp only [Engine.exec, ran] at executed
  split at executed
  · cases executed
  split at executed
  · cases executed
  · rename_i free
    intro k guard j member
    exact free (List.any_eq_true.mpr ⟨k, guard, List.any_eq_true.mpr ⟨(j, k), member, by simp⟩⟩)

theorem exec_commit {answer : Except ε Unit}
    (executed : E.exec index db s (.commit : Statement T W Memo Env ε Unit) choice =
      some (answer, db', s')) :
    Committed E index db s answer db' s' := by
  simp only [Engine.exec] at executed
  split at executed
  · cases executed
    exact .refused ‹_›
  rename_i whole
  have whole : s.broken = false := by simpa using whole
  split at executed
  · cases executed
    exact .idle whole ‹_›
  rename_i active
  have active : s.active = true := by simpa using active
  split at executed
  · cases executed
    exact .failed whole active
  · cases executed
    exact .committed whole active

/-! ## What a program meets at a statement -/

section Meets

variable {p : Protocol T W}
  {A : Admission ι (Statement T W Memo Env ε) (Db ι T K) (Session W Memo ε) (Choice Env)}
  {C : Choice Env → Prop} {Q : α → Assertion (Db ι T K) (Session W Memo ε)}
  {X : ε → Assertion (Db ι T K) (Session W Memo ε)}

/-- What holds when a statement of the program at `index` is carried out: the others may
have taken steps before. -/
structure Turn (Env : Type) (p : Protocol T W) (E : Engine T W K Memo ε) (index : ι)
    (db : Db ι T K) (s : Session W Memo ε) (db₁ : Db ι T K) : Prop where
  rely : (p.contract E : Contract
    (E.machine : Machine ι (Statement T W Memo Env ε) ε (Db ι T K) (Session W Memo ε)
      (Choice Env))).Rely index db db₁
  coherent : Coherent E db₁
  invariant : p.invariant db₁.tables
  held : Held E index db₁ s

/-- A statement keeps the contract when what it makes durable keeps the protocol. -/
theorem meets_statement {statement : Statement T W Memo Env ε β}
    {next : Except ε β → Program (Statement T W Memo Env ε) ε α} (crashes : p.crashed s.durable)
    (steps : ∀ db₁ choice answer db' s', Turn Env p E index db s db₁ → C choice →
      A.admits index db₁ s statement choice →
      E.exec index db₁ s statement choice = some (answer, db', s') → Held E index db' s' →
      p.invariant db'.tables ∧ p.evolves db₁.tables db'.tables ∧
        Meets A C (p.contract E) index Q X (next answer) db' s') :
    Meets A C (p.contract E) index Q X (.step statement next) db s := by
  intro db₁ rely store held
  refine ⟨crashes, fun choice answer db' s' chosen admitted executed => ?_⟩
  obtain ⟨ws, changes⟩ := exec_changes store.1 held executed
  obtain ⟨invariant, evolves, rest⟩ :=
    steps db₁ choice answer db' s' ⟨rely, store.1, store.2, held⟩ chosen admitted executed
      changes.held
  exact ⟨⟨⟨changes.coherent, invariant⟩, changes.held, changes.interferes, evolves⟩, rest⟩

theorem Ran.tables_eq {run : View T Memo Env → Except ε (Effect W Memo ε β)} {env : Env}
    (ran : Ran E index run env db s answer db' s') : db'.tables = db.tables := by
  cases ran <;> rfl

theorem meets_query {run : View T Memo Env → Except ε (Effect W Memo ε β)}
    {next : Except ε β → Program (Statement T W Memo Env ε) ε α} (crashes : p.crashed s.durable)
    (broken : ∀ db₁, Turn Env p E index db s db₁ → s.broken = true →
      Meets A C (p.contract E) index Q X (next (.error E.pendingRollback)) db₁ s)
    (steps : ∀ db₁ choice answer db' s', Turn Env p E index db s db₁ → C choice →
      s.broken = false → Ran E index run choice.env (db₁.advance s choice.tick)
        (s.opened (db₁.advance s choice.tick).clock) answer db' s' → Held E index db' s' →
      Meets A C (p.contract E) index Q X (next answer) db' s') :
    Meets A C (p.contract E) index Q X (.step (.query run) next) db s := by
  refine meets_statement crashes fun db₁ choice answer db' s' turn chosen _ executed held => ?_
  rcases exec_query executed with ⟨wasBroken, rfl, rfl, rfl⟩ | ⟨whole, ran⟩
  · exact ⟨turn.invariant, p.evolves_refl _, broken _ turn wasBroken⟩
  · have tables : db'.tables = db₁.tables := by simpa using ran.tables_eq
    exact ⟨tables ▸ turn.invariant, tables ▸ p.evolves_refl _,
      steps db₁ choice answer db' s' turn chosen whole ran held⟩

theorem meets_eager {run : T → Env → Except ε (Option W × β)}
    {next : Except ε β → Program (Statement T W Memo Env ε) ε α} (crashes : p.crashed s.durable)
    (stores : ∀ db₁ env b w, Turn Env p E index db s db₁ →
      run db₁.tables env = .ok (some w, b) →
      p.invariant (E.apply db₁.tables w) ∧ p.evolves db₁.tables (E.apply db₁.tables w))
    (steps : ∀ db₁ choice answer db' s', Turn Env p E index db s db₁ → C choice →
      RanApart E run choice.env db₁ s answer db' s' → Held E index db' s' →
      Meets A C (p.contract E) index Q X (next answer) db' s') :
    Meets A C (p.contract E) index Q X (.step (.eager run) next) db s := by
  refine meets_statement crashes fun db₁ choice answer db' s' turn chosen _ executed held => ?_
  have ran := exec_eager executed
  refine and_assoc.mp ⟨?_, steps db₁ choice answer db' s' turn chosen ran held⟩
  cases ran with
  | wrote given absent => exact stores db₁ choice.env _ _ turn given
  | _ => exact ⟨turn.invariant, p.evolves_refl _⟩

theorem meets_choose {pick : Env → β}
    {next : Except ε β → Program (Statement T W Memo Env ε) ε α} (crashes : p.crashed s.durable)
    (steps : ∀ db₁ choice, Turn Env p E index db s db₁ → C choice →
      Meets A C (p.contract E) index Q X (next (.ok (pick choice.env))) db₁ s) :
    Meets A C (p.contract E) index Q X (.step (.choose pick) next) db s := by
  refine meets_statement crashes fun db₁ choice answer db' s' turn chosen _ executed _ => ?_
  cases executed
  exact ⟨turn.invariant, p.evolves_refl _, steps db₁ choice turn chosen⟩

theorem meets_commit {next : Except ε Unit → Program (Statement T W Memo Env ε) ε α}
    (crashes : p.crashed s.durable)
    (commits : ∀ db₁, Turn Env p E index db s db₁ → s.broken = false → s.active = true →
      (∃ choice, A.admits index db₁ s (.commit : Statement T W Memo Env ε Unit) choice) →
      p.invariant (E.view db₁ s) ∧ p.evolves db₁.tables (E.view db₁ s))
    (steps : ∀ db₁ choice answer db' s', Turn Env p E index db s db₁ → C choice →
      (∃ choice, A.admits index db₁ s (.commit : Statement T W Memo Env ε Unit) choice) →
      Committed E index db₁ s answer db' s' → Held E index db' s' →
      Meets A C (p.contract E) index Q X (next answer) db' s') :
    Meets A C (p.contract E) index Q X (.step .commit next) db s := by
  refine meets_statement crashes fun db₁ choice answer db' s' turn chosen admitted executed held => ?_
  have committed := exec_commit executed
  refine and_assoc.mp ⟨?_, steps db₁ choice answer db' s' turn chosen ⟨choice, admitted⟩ committed held⟩
  cases committed with
  | committed whole active => exact commits db₁ turn whole active ⟨choice, admitted⟩
  | _ => exact ⟨turn.invariant, p.evolves_refl _⟩

theorem meets_rollback {next : Except ε Unit → Program (Statement T W Memo Env ε) ε α}
    (crashes : p.crashed s.durable)
    (steps : ∀ db₁, Turn Env p E index db s db₁ →
      Held E index (db₁.release index) { s.close with memo := E.fresh } →
      Meets A C (p.contract E) index Q X (next (.ok ())) (db₁.release index)
        { s.close with memo := E.fresh }) :
    Meets A C (p.contract E) index Q X (.step .rollback next) db s := by
  refine meets_statement crashes fun db₁ choice answer db' s' turn _ _ executed held => ?_
  cases executed
  exact ⟨turn.invariant, p.evolves_refl _, steps db₁ turn held⟩

/-- **Every program keeps what every write keeps**, whatever it does. -/
theorem meets_always (crashes : ∀ ws, p.crashed ws)
    (keeps : ∀ t w, p.invariant t → p.invariant (E.apply t w))
    (evolves : ∀ t ws, p.invariant t → p.evolves t (E.applyAll t ws))
    (program : Program (Statement T W Memo Env ε) ε α) :
    Meets A C (p.contract E) index (fun _ _ _ => True) (fun _ _ _ => True) program db s := by
  have keepsAll : ∀ (ws : List W) t, p.invariant t → p.invariant (E.applyAll t ws) := by
    intro ws
    induction ws with
    | nil => exact fun _ holds => holds
    | cons w ws ih => exact fun t holds => ih _ (keeps t w holds)
  induction program generalizing db s with
  | ret a => trivial
  | throw e => trivial
  | step statement next ih =>
      refine meets_statement (crashes _) fun db₁ choice answer db' s' turn _ _ executed _ => ?_
      obtain ⟨ws, changes⟩ := exec_changes turn.coherent turn.held executed
      rw [changes.tables]
      exact ⟨keepsAll ws _ turn.invariant, evolves _ ws turn.invariant, ih answer⟩

end Meets
end LandVault.Library.ReadCommitted
