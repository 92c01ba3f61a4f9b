import LandVault.Library.Discipline
import LandVault.Library.Everywhere

/-!
# Runs as sequences of transactions

A transaction opens, runs a body that commits nothing, and ends with one commit or with a
rollback. Whatever the interleaving of such programs, the committed tables go through a
sequence of commits, one for each transaction that has ended with one, and each carries
the result of its transaction (`Transacting.serial`). What a body has shown at its end
holds of the tables as they are right before its commit.
-/

set_option autoImplicit false

namespace LandVault.Library.ReadCommitted

open LandVault.Library.Programs

variable {ι T W K Memo Env ε α β : Type} [DecidableEq ι] [DecidableEq K]

/-! ## Bodies -/

/-- The statement commits nothing, but for writes of its own that are `alone`. -/
def Statement.Reserved (alone : W → Prop) {β : Type} : Statement T W Memo Env ε β → Prop
  | .eager run => ∀ t env w b, run t env = .ok (some w, b) → alone w
  | .commit => False
  | _ => True

/-- So is every statement of the program. -/
abbrev Reserved (alone : W → Prop) (program : Program (Statement T W Memo Env ε) ε α) : Prop :=
  Every (fun statement => statement.Reserved alone) program

/-! ## Transactions -/

/-- What follows an error of a body: a commit where the error is an answer. -/
def concede (answers : ε → Bool) (e : ε) : Program (Statement T W Memo Env ε) ε α :=
  if answers e then (Program.perform .commit).bind fun _ => .throw e
  else (Program.perform .rollback).bind fun _ => .throw e

/-- A body with its end. -/
def enclose (answers : ε → Bool) (body : Program (Statement T W Memo Env ε) ε α) :
    Program (Statement T W Memo Env ε) ε α :=
  (body.bind fun a => (Program.perform .commit).bind fun _ => .ret a).handle (concede answers)

/-- A body with its opening and its end. -/
def transaction (answers : ε → Bool) (opening : Program (Statement T W Memo Env ε) ε Unit)
    (body : Program (Statement T W Memo Env ε) ε α) : Program (Statement T W Memo Env ε) ε α :=
  opening.bind fun _ => enclose answers body

/-! ## Sequences of transactions -/

variable {E : Engine T W K Memo ε}

/-- Tables after a sequence of commits. Each is of a single write that is made apart, or of
a transaction; the transactions are listed with their results, and `R` holds of each, of
the tables before its commit and of what it commits. -/
inductive Serial (D : Discipline E) (R : ι → Except ε α → T → List W → Prop) :
    T → List (ι × Except ε α) → T → Prop
  | refl (t : T) : Serial D R t [] t
  | apart {t t' : T} {log : List (ι × Except ε α)} {w : W} (earlier : Serial D R t log t')
      (makes : D.Makes t' [w]) (alone : D.alone w) : Serial D R t log (E.apply t' w)
  | commit {t t' : T} {log : List (ι × Except ε α)} {index : ι} {result : Except ε α}
      {ws : List W} (earlier : Serial D R t log t') (makes : D.Makes t' ws)
      (made : R index result t' ws) :
      Serial D R t (log ++ [(index, result)]) (E.applyAll t' ws)

omit [DecidableEq ι] in
/-- What every commit keeps, a sequence of commits keeps. -/
theorem Serial.induction {D : Discipline E} {R : ι → Except ε α → T → List W → Prop} {I : T → Prop}
    {t t' : T} {log : List (ι × Except ε α)} (serial : Serial D R t log t')
    (apart : ∀ t w, D.Makes t [w] → D.alone w → I t → I (E.apply t w))
    (commit : ∀ index result t ws, (index, result) ∈ log → D.Makes t ws → R index result t ws →
      I t → I (E.applyAll t ws)) (initial : I t) : I t' := by
  induction serial with
  | refl => exact initial
  | apart _ makes alone ih => exact apart _ _ makes alone (ih commit)
  | @commit t' log index result ws _ makes made ih =>
      refine commit index result _ _ (List.mem_append_right _ List.mem_cons_self) makes made (ih ?_)
      exact fun index result t ws member => commit index result t ws (List.mem_append_left _ member)

omit [DecidableEq ι] in
theorem Serial.advances {D : Discipline E} {R : ι → Except ε α → T → List W → Prop} {t t' : T}
    {log : List (ι × Except ε α)} (serial : Serial D R t log t') : D.Advances t t' := by
  induction serial with
  | refl => exact .refl _
  | apart _ makes _ ih => exact ih.tail makes
  | commit _ makes _ ih => exact ih.tail makes

/-! ## Admissions -/

/-- A statement of a session writes only where `fresh` holds, as in `Engine.freshly`, and
statements are carried out only while `during` holds of the committed tables. -/
def Engine.amid (E : Engine T W K Memo ε) (fresh : T → Memo → W → Prop) (during : T → Prop) :
    Admission ι (Statement T W Memo Env ε) (Db ι T K) (Session W Memo ε) (Choice Env) where
  admits := fun index db s statement choice =>
    (E.freshly fresh).admits index db s statement choice ∧ during db.tables

section Amid

variable {fresh : T → Memo → W → Prop} {during : T → Prop}
  {w w' : World ι (Statement T W Memo Env ε) ε α (Db ι T K) (Session W Memo ε)}

/-- Any run is one whose writes meet no condition. -/
theorem freely_of_reaches (reaches : World.Reaches E.machine w w') :
    World.Runs E.machine (E.freshly fun _ _ _ => True) w w' := by
  induction reaches with
  | refl => exact .refl
  | @tail w' _ _ step ih =>
      obtain ⟨action, _, acted⟩ := step
      refine ih.tail ⟨action, ?_, acted⟩
      unfold World.Admits
      split
      · split
        · rename_i statement _ _
          cases statement with
          | query run =>
              simp only [Engine.freshly]
              unfold Writes
              split <;> trivial
          | _ => trivial
        · trivial
      · trivial

/-- A fact of the tables that holds in every run whose statements are carried out while it
holds, holds during every run. -/
theorem runs_amid
    (holds : ∀ w', World.Runs E.machine (E.amid fresh during) w w' → during w'.db.tables)
    (runs : World.Runs E.machine (E.freshly fresh) w w') :
    World.Runs E.machine (E.amid fresh during) w w' := by
  induction runs with
  | refl => exact .refl
  | @tail w' w'' _ step ih =>
      obtain ⟨action, admits, acted⟩ := step
      refine ih.tail ⟨action, ?_, acted⟩
      have now := holds w' ih
      unfold World.Admits at admits ⊢
      split at admits
      · split at admits
        · exact ⟨admits, now⟩
        · trivial
      · trivial

end Amid

/-! ## How far a transaction is -/

section Stages

variable (A : Admission ι (Statement T W Memo Env ε) (Db ι T K) (Session W Memo ε) (Choice Env))
  (D : Discipline E) (answers : ε → Bool) (N : α → Assertion (Db ι T K) (Session W Memo ε))
  (X : ε → Assertion (Db ι T K) (Session W Memo ε)) (index : ι)

/-- What the rest of a program meets, from a state since which only others have taken steps. -/
abbrev Awaits (Env : Type) (P : Assertion (Db ι T K) (Session W Memo ε)) :
    Assertion (Db ι T K) (Session W Memo ε) :=
  (D.contract : Contract (E.machine : Machine ι (Statement T W Memo Env ε) ε (Db ι T K)
    (Session W Memo ε) (Choice Env))).Since index P

/-- What is left of a transaction whose body ends with `N` of its value or `X` of its error. -/
inductive Stage (db : Db ι T K) (s : Session W Memo ε) :
    Program (Statement T W Memo Env ε) ε α → Prop
  | opening {opening : Program (Statement T W Memo Env ε) ε Unit}
      {body : Program (Statement T W Memo Env ε) ε α} (reserved : Reserved D.alone opening)
      (reserved' : Reserved D.alone body)
      (met : Awaits D index Env (Meets A (fun _ => True) D.contract index
        (fun _ => Meets A (fun _ => True) D.contract index N X body) (fun _ _ _ => True) opening)
        db s) :
      Stage db s (transaction answers opening body)
  | running {body : Program (Statement T W Memo Env ε) ε α} (reserved : Reserved D.alone body)
      (met : Awaits D index Env (Meets A (fun _ => True) D.contract index N X body) db s) :
      Stage db s (enclose answers body)
  | conceding {e : ε} (met : answers e = true → Awaits D index Env (X e) db s) :
      Stage db s (concede answers e)
  | finished (result : Except ε α) : Stage db s (.ofExcept result)

variable {A D answers N X index} {db db' : Db ι T K} {s s' : Session W Memo ε}

/-- A statement of a body commits nothing, or a single write apart. -/
theorem reserved_exec {statement : Statement T W Memo Env ε β} {choice : Choice Env}
    {answer : Except ε β} (reserved : statement.Reserved D.alone) (coherent : Coherent E db)
    (executed : E.exec index db s statement choice = some (answer, db', s')) :
    db'.tables = db.tables ∨
      ∃ w, D.alone w ∧ D.Makes db.tables [w] ∧ db'.tables = E.apply db.tables w := by
  cases statement with
  | query run =>
      rcases exec_query executed with ⟨_, _, rfl, _⟩ | ⟨_, ran⟩
      · exact .inl rfl
      · exact .inl (ran.tables_eq.trans (Db.advance_tables db s choice.tick))
  | eager run =>
      cases exec_eager executed with
      | @wrote b w ran absent =>
          have alone := reserved _ _ _ _ ran
          exact .inr ⟨w, alone, ⟨coherent.unique, ⟨⟨absent, D.alone_stands alone⟩, trivial⟩,
            .inr ⟨w, rfl, alone⟩⟩, rfl⟩
      | _ => exact .inl rfl
  | choose pick =>
      cases executed
      exact .inl rfl
  | commit => exact reserved.elim
  | rollback =>
      cases executed
      exact .inl rfl

variable (A D answers N X index)

/-- What a statement does to the committed tables: nothing, or a write apart, or it ends
its transaction. -/
inductive Progress (R : ι → Except ε α → T → List W → Prop) (db db' : Db ι T K)
    (s s' : Session W Memo ε) (rest : Program (Statement T W Memo Env ε) ε α) : Prop
  | quiet (tables : db'.tables = db.tables) (stage : Stage A D answers N X index db' s' rest)
      (unanswered : ∀ a, rest ≠ .ret a) : Progress R db db' s s' rest
  | apart {w : W} (makes : D.Makes db.tables [w]) (alone : D.alone w)
      (tables : db'.tables = E.apply db.tables w)
      (stage : Stage A D answers N X index db' s' rest) (unanswered : ∀ a, rest ≠ .ret a) :
      Progress R db db' s s' rest
  | commit {result : Except ε α} (makes : D.Makes db.tables s.pending)
      (made : R index result db.tables s.pending) (tables : db'.tables = E.view db s)
      (finished : rest = .ofExcept result) : Progress R db db' s s' rest

variable {A D answers N X index} {R : ι → Except ε α → T → List W → Prop}

theorem Progress.of_reserved {statement : Statement T W Memo Env ε β} {choice : Choice Env}
    {answer : Except ε β} {rest : Program (Statement T W Memo Env ε) ε α}
    (reserved : statement.Reserved D.alone) (coherent : Coherent E db)
    (executed : E.exec index db s statement choice = some (answer, db', s'))
    (stage : Stage A D answers N X index db' s' rest) (unanswered : ∀ a, rest ≠ .ret a) :
    Progress A D answers N X index R db db' s s' rest := by
  rcases reserved_exec reserved coherent executed with same | ⟨w, alone, makes, tables⟩
  · exact .quiet same stage unanswered
  · exact .apart makes alone tables stage unanswered

theorem concede_ne_ret (e : ε) (a : α) :
    (concede answers e : Program (Statement T W Memo Env ε) ε α) ≠ .ret a := by
  unfold concede
  split <;> nofun

theorem enclose_ne_ret (body : Program (Statement T W Memo Env ε) ε α) (a : α) :
    enclose answers body ≠ .ret a := by
  cases body with
  | ret b => nofun
  | throw e => exact concede_ne_ret e a
  | step statement next => nofun

theorem transaction_ne_ret (opening : Program (Statement T W Memo Env ε) ε Unit)
    (body : Program (Statement T W Memo Env ε) ε α) (a : α) :
    transaction answers opening body ≠ .ret a := by
  cases opening with
  | ret => exact enclose_ne_ret body a
  | throw e => nofun
  | step statement next => nofun

/-- What a transaction has shown at its end holds right before its commit, where the commit
is admitted. -/
structure Ends
    (A : Admission ι (Statement T W Memo Env ε) (Db ι T K) (Session W Memo ε) (Choice Env))
    (D : Discipline E) (answers : ε → Bool) (N : α → Assertion (Db ι T K) (Session W Memo ε))
    (X : ε → Assertion (Db ι T K) (Session W Memo ε)) (R : ι → Except ε α → T → List W → Prop)
    (index : ι) : Prop where
  returns_batch : ∀ a (d : Db ι T K) (s : Session W Memo ε), N a d s → s.broken = false →
    D.batch s.pending
  concedes_batch : ∀ e (d : Db ι T K) (s : Session W Memo ε), X e d s → answers e = true →
    s.broken = false → D.batch s.pending
  returns : ∀ a (d db : Db ι T K) (s : Session W Memo ε) choice, N a d s → s.broken = false →
    D.Advances d.tables db.tables → D.Makes db.tables s.pending →
    A.admits index db s (.commit : Statement T W Memo Env ε Unit) choice →
    R index (.ok a) db.tables s.pending
  concedes : ∀ e (d db : Db ι T K) (s : Session W Memo ε) choice, X e d s → answers e = true →
    s.broken = false → D.Advances d.tables db.tables → D.Makes db.tables s.pending →
    A.admits index db s (.commit : Statement T W Memo Env ε Unit) choice →
    R index (.error e) db.tables s.pending

/-- The session and the store are in order after a step, which is one that is allowed. -/
abbrev Obeys (D : Discipline E) (index : ι) (db db' : Db ι T K) (s' : Session W Memo ε) : Prop :=
  Coherent E db' ∧ D.Follows index db' s' ∧ D.Moves index db db'

theorem Awaits.advances {P : Assertion (Db ι T K) (Session W Memo ε)}
    (awaits : Awaits D index Env P db s) (coherent : Coherent E db) (follows : D.Follows index db s) :
    ∃ d, D.Advances d.tables db.tables ∧ P d s := by
  obtain ⟨d, rely, holds⟩ := awaits
  exact ⟨d, (Discipline.Turn.mk rely coherent follows).advances, holds⟩

/-- A commit makes what is pending, or it fails and changes nothing. -/
theorem commit_exec (allowed : s.broken = false → D.batch s.pending) {choice : Choice Env} {answer : Except ε Unit}
    (coherent : Coherent E db) (follows : D.Follows index db s)
    (executed : E.exec index db s (.commit : Statement T W Memo Env ε Unit) choice =
      some (answer, db', s')) :
    Obeys D index db db' s' ∧
      ((answer = .ok () ∧ s.broken = false ∧ D.Makes db.tables s.pending ∧
          db'.tables = E.view db s) ∨
        (answer = .error E.pendingRollback ∨ answer = .error E.disconnected) ∧
          db'.tables = db.tables) := by
  have met : Meets (M := (E.machine : Machine ι (Statement T W Memo Env ε) ε _ _ _)) .always
      (fun _ => True) D.contract index (fun _ _ _ => True) (fun _ _ _ => True) (.perform .commit)
      db s :=
    Discipline.meets_commit (fun _ _ _ => trivial) (fun _ _ _ _ => trivial)
      (fun _ _ _ _ => trivial) fun _ _ _ whole _ _ => ⟨allowed whole, trivial⟩
  refine ⟨((met db .refl coherent follows).2 choice answer db' s' trivial trivial executed).1, ?_⟩
  have makes : s.broken = false → D.Makes db.tables s.pending :=
    fun whole => ⟨coherent.unique, follows.grounded, .inl (allowed whole)⟩
  cases exec_commit executed with
  | refused => exact .inr ⟨.inl rfl, rfl⟩
  | idle whole inactive =>
      refine .inl ⟨rfl, whole, makes whole, ?_⟩
      simp [Engine.view, follows.held.idle inactive]
  | failed => exact .inr ⟨.inr rfl, rfl⟩
  | committed whole => exact .inl ⟨rfl, whole, makes whole, rfl⟩

theorem rollback_exec {choice : Choice Env} {answer : Except ε Unit}
    (coherent : Coherent E db) (follows : D.Follows index db s)
    (executed : E.exec index db s (.rollback : Statement T W Memo Env ε Unit) choice =
      some (answer, db', s')) :
    Obeys D index db db' s' ∧ answer = .ok () ∧ db'.tables = db.tables := by
  have met : Meets (M := (E.machine : Machine ι (Statement T W Memo Env ε) ε _ _ _)) .always
      (fun _ => True) D.contract index (fun _ _ _ => True) (fun _ _ _ => True)
      (.perform .rollback) db s :=
    Discipline.meets_rollback fun _ _ _ _ => trivial
  refine ⟨((met db .refl coherent follows).2 choice answer db' s' trivial trivial executed).1, ?_⟩
  cases executed
  exact ⟨rfl, rfl⟩

/-- The statement that follows an error of a body. -/
theorem concede_step {e : ε} {statement : Statement T W Memo Env ε β} {choice : Choice Env}
    {answer : Except ε β} {next : Except ε β → Program (Statement T W Memo Env ε) ε α}
    (ends : Ends A D answers N X R index)
    (met : answers e = true → Awaits D index Env (X e) db s)
    (same : concede answers e = .step statement next)
    (coherent : Coherent E db) (follows : D.Follows index db s)
    (admitted : A.admits index db s statement choice)
    (executed : E.exec index db s statement choice = some (answer, db', s')) :
    Obeys D index db db' s' ∧ Progress A D answers N X index R db db' s s' (next answer) := by
  unfold concede at same
  split at same
  · rename_i answered
    cases same
    obtain ⟨d, advances, holds⟩ := (met answered).advances coherent follows
    obtain ⟨orderly, ⟨rfl, whole, makes, tables⟩ | ⟨failed, tables⟩⟩ :=
      commit_exec (ends.concedes_batch e d s holds answered) coherent follows executed
    · exact ⟨orderly, .commit makes
        (ends.concedes e d db s choice holds answered whole advances makes admitted) tables rfl⟩
    · rcases failed with rfl | rfl
      · exact ⟨orderly, .quiet tables (.finished (.error _)) nofun⟩
      · exact ⟨orderly, .quiet tables (.finished (.error _)) nofun⟩
  · cases same
    obtain ⟨orderly, rfl, tables⟩ := rollback_exec coherent follows executed
    exact ⟨orderly, .quiet tables (.finished (.error e)) nofun⟩

/-- A statement of a body, or of what follows it. -/
theorem enclose_step {body : Program (Statement T W Memo Env ε) ε α}
    {statement : Statement T W Memo Env ε β} {choice : Choice Env} {answer : Except ε β}
    {next : Except ε β → Program (Statement T W Memo Env ε) ε α}
    (unanswered : answers E.disconnected = false ∧ answers E.pendingRollback = false)
    (ends : Ends A D answers N X R index) (reserved : Reserved D.alone body)
    (met : Awaits D index Env (Meets A (fun _ => True) D.contract index N X body) db s)
    (same : enclose answers body = .step statement next)
    (coherent : Coherent E db) (follows : D.Follows index db s)
    (admitted : A.admits index db s statement choice)
    (executed : E.exec index db s statement choice = some (answer, db', s')) :
    Obeys D index db db' s' ∧ Progress A D answers N X index R db db' s s' (next answer) := by
  cases body with
  | ret a =>
      cases same
      obtain ⟨d, advances, holds⟩ := met.advances coherent follows
      obtain ⟨orderly, ⟨rfl, whole, makes, tables⟩ | ⟨failed, tables⟩⟩ :=
        commit_exec (ends.returns_batch a d s holds) coherent follows executed
      · exact ⟨orderly, .commit makes
          (ends.returns a d db s choice holds whole advances makes admitted) tables rfl⟩
      · rcases failed with rfl | rfl
        · refine ⟨orderly, .quiet tables (.conceding fun answered => ?_) (concede_ne_ret _)⟩
          simp [unanswered.2] at answered
        · refine ⟨orderly, .quiet tables (.conceding fun answered => ?_) (concede_ne_ret _)⟩
          simp [unanswered.1] at answered
  | throw e => exact concede_step ends (fun _ => met) same coherent follows admitted executed
  | step statement' next' =>
      cases same
      obtain ⟨d, rely, meets⟩ := met
      obtain ⟨orderly, rest⟩ := (meets db rely coherent follows).2 choice answer db' s' trivial
        admitted executed
      exact ⟨orderly, .of_reserved reserved.1 coherent executed
        (.running (reserved.2 answer) (.of_now rest)) (enclose_ne_ret _)⟩

/-- **One statement of a transaction.** -/
theorem Stage.step {statement : Statement T W Memo Env ε β} {choice : Choice Env}
    {answer : Except ε β} {next : Except ε β → Program (Statement T W Memo Env ε) ε α}
   
    (unanswered : answers E.disconnected = false ∧ answers E.pendingRollback = false)
    (ends : Ends A D answers N X R index)
    (stage : Stage A D answers N X index db s (.step statement next))
    (coherent : Coherent E db) (follows : D.Follows index db s)
    (admitted : A.admits index db s statement choice)
    (executed : E.exec index db s statement choice = some (answer, db', s')) :
    Obeys D index db db' s' ∧ Progress A D answers N X index R db db' s s' (next answer) := by
  generalize remaining : Program.step statement next = program at stage
  cases stage with
  | @opening opening body reserved reserved' met =>
      cases opening with
      | ret =>
          exact enclose_step unanswered ends reserved' met remaining.symm coherent follows
            admitted executed
      | throw e => cases remaining
      | step statement' next' =>
          cases remaining
          obtain ⟨d, rely, meets⟩ := met
          obtain ⟨orderly, rest⟩ := (meets db rely coherent follows).2 choice answer db' s' trivial
            admitted executed
          exact ⟨orderly, .of_reserved reserved.1 coherent executed
            (.opening (reserved.2 answer) reserved' (.of_now rest)) (transaction_ne_ret _ _)⟩
  | running reserved met =>
      exact enclose_step unanswered ends reserved met remaining.symm coherent follows admitted
        executed
  | conceding met =>
      exact concede_step ends met remaining.symm coherent follows admitted executed
  | finished result => cases result <;> cases remaining

end Stages

/-! ## Worlds of transactions -/

section Worlds

variable {A : Admission ι (Statement T W Memo Env ε) (Db ι T K) (Session W Memo ε) (Choice Env)}
  {D : Discipline E} {answers : ε → Bool} {N : ι → α → Assertion (Db ι T K) (Session W Memo ε)}
  {X : ι → ε → Assertion (Db ι T K) (Session W Memo ε)} {R : ι → Except ε α → T → List W → Prop}
  {w w' : World ι (Statement T W Memo Env ε) ε α (Db ι T K) (Session W Memo ε)}

/-- Every program of the world is a transaction in progress. -/
structure Transacting
    (A : Admission ι (Statement T W Memo Env ε) (Db ι T K) (Session W Memo ε) (Choice Env))
    (D : Discipline E) (answers : ε → Bool) (N : ι → α → Assertion (Db ι T K) (Session W Memo ε))
    (X : ι → ε → Assertion (Db ι T K) (Session W Memo ε))
    (w : World ι (Statement T W Memo Env ε) ε α (Db ι T K) (Session W Memo ε)) : Prop where
  coherent : Coherent E w.db
  follows : ∀ index, D.Follows index w.db (w.task index).session
  stage : ∀ index program, (w.task index).program = some program →
    Stage A D answers (N index) (X index) index w.db (w.task index).session program

/-- What one action does: the committed tables stay, or one write apart is made, or one
transaction is committed and has its result. -/
inductive Advanced (D : Discipline E) (R : ι → Except ε α → T → List W → Prop)
    (w w' : World ι (Statement T W Memo Env ε) ε α (Db ι T K) (Session W Memo ε)) : Prop
  | quiet (tables : w'.db.tables = w.db.tables)
      (kept : ∀ i result, (w.task i).answer = some result → (w'.task i).answer = some result)
      (returned : ∀ i a, (w'.task i).answer = some (.ok a) → (w.task i).answer = some (.ok a)) :
      Advanced D R w w'
  | apart {x : W} (makes : D.Makes w.db.tables [x]) (alone : D.alone x)
      (tables : w'.db.tables = E.apply w.db.tables x)
      (kept : ∀ i result, (w.task i).answer = some result → (w'.task i).answer = some result)
      (returned : ∀ i a, (w'.task i).answer = some (.ok a) → (w.task i).answer = some (.ok a)) :
      Advanced D R w w'
  | commit {index : ι} {result : Except ε α} {ws : List W} (makes : D.Makes w.db.tables ws)
      (made : R index result w.db.tables ws) (tables : w'.db.tables = E.applyAll w.db.tables ws)
      (before : (w.task index).answer = none) (after : (w'.task index).answer = some result)
      (others : ∀ j, j ≠ index → (w'.task j).answer = (w.task j).answer) : Advanced D R w w'

theorem Stage.awaits {index : ι} {db db' : Db ι T K} {s : Session W Memo ε} {i : ι}
    {program : Program (Statement T W Memo Env ε) ε α}
    (stage : Stage A D answers (N index) (X index) index db s program) (different : i ≠ index)
    (coherent : Coherent E db) (coherent' : Coherent E db') (moves : D.Moves i db db') :
    Stage A D answers (N index) (X index) index db' s program := by
  have later : ∀ {P : Assertion (Db ι T K) (Session W Memo ε)}, Awaits D index Env P db s →
      Awaits D index Env P db' s := by
    rintro P ⟨d, rely, holds⟩
    exact ⟨d, rely.tail ⟨i, different, coherent, coherent', moves⟩, holds⟩
  cases stage with
  | opening reserved reserved' met => exact .opening reserved reserved' (later met)
  | running reserved met => exact .running reserved (later met)
  | conceding met => exact .conceding fun answered => later (met answered)
  | finished result => exact .finished result

/-- The tasks after one of them has taken a step. -/
theorem Transacting.update (transacting : Transacting A D answers N X w) {index : ι}
    {db : Db ι T K} {task : Task (Statement T W Memo Env ε) ε α (Session W Memo ε)}
    (obeys : Obeys D index w.db db task.session)
    (stage : ∀ program, task.program = some program →
      Stage A D answers (N index) (X index) index db task.session program) :
    Transacting A D answers N X ⟨db, Function.update w.task index task⟩ := by
  obtain ⟨coherent, follows, moves⟩ := obeys
  refine ⟨coherent, fun i => ?_, fun i program remaining => ?_⟩
  · by_cases same : i = index
    · subst same
      simpa using follows
    · simpa [same] using (transacting.follows i).other moves.interferes coherent (Ne.symm same)
  · by_cases same : i = index
    · subst same
      simpa using stage program (by simpa using remaining)
    · have before : (w.task i).program = some program := by simpa [same] using remaining
      simpa [same] using (transacting.stage i program before).awaits (Ne.symm same)
        transacting.coherent coherent moves

omit [DecidableEq K] in
/-- A task that has not answered, and does not answer with a value now. -/
theorem unanswered_update {index : ι} (db : Db ι T K)
    (task : Task (Statement T W Memo Env ε) ε α (Session W Memo ε))
    (unfinished : (w.task index).answer = none) (pending : ∀ a, task.answer ≠ some (.ok a)) :
    let w' : World ι (Statement T W Memo Env ε) ε α (Db ι T K) (Session W Memo ε) :=
      ⟨db, Function.update w.task index task⟩
    (∀ i result, (w.task i).answer = some result → (w'.task i).answer = some result) ∧
      ∀ i a, (w'.task i).answer = some (.ok a) → (w.task i).answer = some (.ok a) := by
  constructor
  · intro i result answered
    by_cases same : i = index
    · subst same
      simp [unfinished] at answered
    · simpa [same] using answered
  · intro i a answered
    by_cases same : i = index
    · subst same
      exact absurd (by simpa using answered) (pending a)
    · simpa [same] using answered

/-- **One action of a world of transactions.** -/
theorem Transacting.steps
    (unanswered : answers E.disconnected = false ∧ answers E.pendingRollback = false)
    (ends : ∀ index, Ends A D answers (N index) (X index) R index)
    (transacting : Transacting A D answers N X w) (step : World.Steps E.machine A w w') :
    Transacting A D answers N X w' ∧ Advanced D R w w' := by
  obtain ⟨action, admitted, acted⟩ := step
  rcases World.act_cases acted with
    ⟨index, choice, β, statement, next, answer, db, session, rfl, remaining, executed, rfl⟩ |
    ⟨index, β, statement, next, rfl, remaining, rfl⟩
  · have admitted' : A.admits index w.db (w.task index).session statement choice := by
      simpa [World.Admits, remaining] using admitted
    obtain ⟨obeys, progress⟩ := (transacting.stage index _ remaining).step unanswered
      (ends index) transacting.coherent (transacting.follows index) admitted' executed
    have unfinished : (w.task index).answer = none := by simp [Task.answer, remaining]
    have silent : (∀ a, next answer ≠ .ret a) → ∀ a, (⟨session, some (next answer)⟩ :
        Task (Statement T W Memo Env ε) ε α (Session W Memo ε)).answer ≠ some (.ok a) := by
      intro unreturned a answered
      cases rest : next answer with
      | ret b => exact unreturned b rest
      | throw e => simp [Task.answer, rest] at answered
      | step statement' next' => simp [Task.answer, rest] at answered
    cases progress with
    | quiet tables stage unreturned =>
        obtain ⟨kept, returned⟩ := unanswered_update db _ unfinished (silent unreturned)
        refine ⟨transacting.update obeys fun program same => ?_, .quiet tables kept returned⟩
        cases same
        exact stage
    | apart makes alone tables stage unreturned =>
        obtain ⟨kept, returned⟩ := unanswered_update db _ unfinished (silent unreturned)
        refine ⟨transacting.update obeys fun program same => ?_,
          .apart makes alone tables kept returned⟩
        cases same
        exact stage
    | @commit result makes made tables finished =>
        have answered : (⟨session, some (next answer)⟩ :
            Task (Statement T W Memo Env ε) ε α (Session W Memo ε)).answer = some result := by
          cases result <;> simp [Task.answer, finished, Program.ofExcept]
        refine ⟨transacting.update obeys fun program same => ?_, .commit makes made tables unfinished
          (by simpa using answered) fun j other => by simp [other]⟩
        cases same
        exact finished ▸ .finished result
  · have unfinished : (w.task index).answer = none := by simp [Task.answer, remaining]
    obtain ⟨coherent, follows, moves⟩ := D.contract.crash_keeps (i := index) transacting.coherent
      (transacting.follows index)
    obtain ⟨kept, returned⟩ := unanswered_update (crash index w.db (w.task index).session).1
      ⟨(crash index w.db (w.task index).session).2, none⟩ unfinished (by simp [Task.answer])
    exact ⟨transacting.update ⟨coherent, follows, moves⟩ (by simp), .quiet rfl kept returned⟩

/-- The tables and the answers of a run. -/
structure Chronicle (D : Discipline E) (R : ι → Except ε α → T → List W → Prop)
    (w w' : World ι (Statement T W Memo Env ε) ε α (Db ι T K) (Session W Memo ε))
    (log : List (ι × Except ε α)) : Prop where
  serial : Serial D R w.db.tables log w'.db.tables
  once : (log.map Prod.fst).Nodup
  answered : ∀ entry ∈ log, (w.task entry.1).answer = none ∧
    (w'.task entry.1).answer = some entry.2
  kept : ∀ i result, (w.task i).answer = some result → (w'.task i).answer = some result
  complete : ∀ i a, (w'.task i).answer = some (.ok a) →
    (w.task i).answer = some (.ok a) ∨ (i, .ok a) ∈ log

/-- **Every run is a sequence of transactions**, each with the result that its program has
answered, and every program that has answered with a value is one of them. -/
theorem Transacting.serial
    (unanswered : answers E.disconnected = false ∧ answers E.pendingRollback = false)
    (ends : ∀ index, Ends A D answers (N index) (X index) R index)
    (transacting : Transacting A D answers N X w) (runs : World.Runs E.machine A w w') :
    Transacting A D answers N X w' ∧ ∃ log, Chronicle D R w w' log := by
  induction runs with
  | refl =>
      exact ⟨transacting, [], .refl _, .nil, by simp, fun _ _ answered => answered,
        fun _ _ answered => .inl answered⟩
  | tail _ step ih =>
      obtain ⟨transacting, log, serial, once, answered, kept, complete⟩ := ih
      obtain ⟨transacting', advanced⟩ := transacting.steps unanswered ends step
      refine ⟨transacting', ?_⟩
      cases advanced with
      | quiet tables kept' returned =>
          refine ⟨log, tables ▸ serial, once, fun entry member => ?_,
            fun i result done => kept' i result (kept i result done),
            fun i a done => complete i a (returned i a done)⟩
          exact ⟨(answered entry member).1, kept' _ _ (answered entry member).2⟩
      | apart makes alone tables kept' returned =>
          refine ⟨log, tables ▸ serial.apart makes alone, once, fun entry member => ?_,
            fun i result done => kept' i result (kept i result done),
            fun i a done => complete i a (returned i a done)⟩
          exact ⟨(answered entry member).1, kept' _ _ (answered entry member).2⟩
      | @commit index result ws makes made tables before after others =>
          have new : ∀ entry ∈ log, entry.1 ≠ index := by
            rintro entry member rfl
            exact nomatch before.symm.trans (answered entry member).2
          have unfinished : ∀ result, (w.task index).answer ≠ some result :=
            fun result done => nomatch before.symm.trans (kept index result done)
          refine ⟨log ++ [(index, result)], tables ▸ serial.commit makes made, ?_, ?_, ?_, ?_⟩
          · rw [List.map_append]
            refine once.append (List.nodup_singleton _) fun i old same => ?_
            obtain ⟨entry, member, rfl⟩ := List.mem_map.mp old
            exact new entry member (List.mem_singleton.mp same)
          · intro entry member
            rcases List.mem_append.mp member with old | same
            · rw [others entry.1 (new entry old)]
              exact answered entry old
            · rw [List.mem_singleton.mp same]
              exact ⟨Option.eq_none_iff_forall_ne_some.mpr unfinished, after⟩
          · intro i result' done
            by_cases same : i = index
            · exact absurd (same ▸ done) (unfinished result')
            · exact (others i same).trans (kept i result' done)
          · intro i a done
            by_cases same : i = index
            · subst same
              cases after.symm.trans done
              exact .inr (List.mem_append_right _ List.mem_cons_self)
            · exact (complete i a ((others i same).symm.trans done)).imp_right
                (List.mem_append_left _)

end Worlds
end LandVault.Library.ReadCommitted
