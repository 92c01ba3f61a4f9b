import LandVault.Library.Interference
import LandVault.Library.ReadCommitted

/-!
# What every row and every copy of a row has

Some facts are about rows one by one, and no lock protects them: a column is within its
bounds wherever a value of it is kept, in the tables, in what a session remembers and in
the writes that are pending. Such a fact needs no condition on the others. If each write
that a session makes has it, whenever everything it has seen has it, then it holds in every
reachable state (`Upkept.reaches`), and of every answer.
-/

set_option autoImplicit false

namespace LandVault.Library.ReadCommitted

open LandVault.Library.Programs

variable {ι T W K Memo Env ε α β : Type} [DecidableEq ι] [DecidableEq K]

/-- A fact of the tables, of what a session remembers, and of the writes, such that the
writes keep it. -/
structure Upkeep (E : Engine T W K Memo ε) where
  tables : T → Prop
  memo : Memo → Prop
  write : W → Prop
  tables_apply : ∀ {t w}, tables t → write w → tables (E.apply t w)
  memo_fresh : memo E.fresh
  memo_settled : ∀ {m}, memo m → memo (E.settled m)

variable {E : Engine T W K Memo ε} (U : Upkeep E)

namespace Upkeep

/-- The fact holds of a session. -/
def OfSession (s : Session W Memo ε) : Prop := U.memo s.memo ∧ ∀ w ∈ s.pending, U.write w

/-- The fact holds of what a statement sees. -/
def Sees (v : View T Memo Env) : Prop := U.tables v.tables ∧ U.memo v.memo

/-- Every session keeps the fact, whatever the others do. -/
def contract : Contract (E.machine : Machine ι (Statement T W Memo Env ε) ε (Db ι T K)
    (Session W Memo ε) (Choice Env)) where
  store := fun db => U.tables db.tables
  session := fun _ _ s => U.OfSession s
  guarantee := fun _ _ _ => True
  crashed := fun _ _ _ => True
  session_stable := fun _ _ _ _ holds => holds
  crashed_stable := fun _ _ _ _ _ _ => trivial
  crash_keeps := fun tables session => ⟨tables, ⟨session.1, by simp [Engine.machine, crash,
    Session.close]⟩, trivial⟩

variable {U}

theorem tables_applyAll {t : T} {ws : List W} (tables : U.tables t) (writes : ∀ w ∈ ws, U.write w) :
    U.tables (E.applyAll t ws) := by
  induction ws generalizing t with
  | nil => exact tables
  | cons w ws ih =>
      exact ih (U.tables_apply tables (writes w List.mem_cons_self))
        fun w member => writes w (List.mem_cons_of_mem _ member)

end Upkeep

/-- Whatever the others do, with choices among `C`, the program keeps the fact, and ends
with `Q` of its value if it ends with a value. -/
abbrev Upkept (U : Upkeep E) (C : Choice Env → Prop) (index : ι) (Q : α → Prop)
    (program : Program (Statement T W Memo Env ε) ε α) : Prop :=
  ∀ (db : Db ι T K) (s : Session W Memo ε),
    Meets .always C U.contract index (fun a _ _ => Q a) (fun _ _ _ => True) program db s

variable {U} {C : Choice Env → Prop} {index : ι} {Q : α → Prop}

namespace Upkept

theorem ret {a : α} (holds : Q a) : Upkept U C index Q (.ret a) := fun _ _ => holds

theorem throw (e : ε) : Upkept U C index Q (.throw e) := fun _ _ => trivial

theorem bind {N : β → Prop} {program : Program (Statement T W Memo Env ε) ε β}
    {rest : β → Program (Statement T W Memo Env ε) ε α} (first : Upkept U C index N program)
    (second : ∀ b, N b → Upkept U C index Q (rest b)) : Upkept U C index Q (program.bind rest) :=
  fun db s => Meets.bind (first db s) fun b db s holds => second b holds db s

theorem handle {program : Program (Statement T W Memo Env ε) ε α}
    {handler : ε → Program (Statement T W Memo Env ε) ε α} (body : Upkept U C index Q program)
    (handles : ∀ e, Upkept U C index Q (handler e)) :
    Upkept U C index Q (program.handle handler) :=
  fun db s => Meets.handle (body db s) fun e db s _ => handles e db s

theorem mono {Q' : α → Prop} {program : Program (Statement T W Memo Env ε) ε α}
    (upkept : Upkept U C index Q program) (value : ∀ a, Q a → Q' a) : Upkept U C index Q' program :=
  fun db s => Meets.mono (upkept db s) (fun a _ _ => value a) fun _ _ _ holds => holds

theorem ite {condition : Prop} [Decidable condition]
    {yes no : Program (Statement T W Memo Env ε) ε α}
    (first : condition → Upkept U C index Q yes) (second : ¬ condition → Upkept U C index Q no) :
    Upkept U C index Q (if condition then yes else no) :=
  fun db s => Meets.ite (fun holds => first holds db s) fun holds => second holds db s

theorem ofExcept {result : Except ε α} (value : ∀ a, result = .ok a → Q a) :
    Upkept U C index Q (.ofExcept result) :=
  fun _ _ => Meets.ofExcept value fun _ _ => trivial

/-! ## Statements -/

/-- What is left of a transaction that ended. -/
theorem ofSession_ended {s s' : Session W Memo ε} (session : U.OfSession s)
    (memo : s'.memo = s.memo) (pending : s'.pending = []) : U.OfSession s' :=
  ⟨memo ▸ session.1, by simp [pending]⟩

/-- A statement inside the session. -/
theorem query {run : View T Memo Env → Except ε (Effect W Memo ε α)}
    (keeps : ∀ v memo a w, U.Sees v → run v = .ok ⟨memo, .ok a, w⟩ →
      U.memo memo ∧ (∀ w' ∈ w, U.write w') ∧ Q a) :
    Upkept U C index Q (.perform (.query run)) := by
  intro db s
  refine .perform fun d rely tables session => ⟨trivial, ?_⟩
  intro choice answer d' s' _ _ executed
  -- the transaction has started, which changes nothing that the fact is about
  let now := d.advance s choice.tick
  let opened := s.opened now.clock
  have tables' : U.tables now.tables := by
    rw [Db.advance_tables]
    exact tables
  have session' : U.OfSession opened := by
    refine ⟨?_, ?_⟩
    · rw [Session.opened_memo]
      exact session.1
    · rw [Session.opened_pending]
      exact session.2
  have sees : U.Sees ⟨E.view now opened, opened.memo, opened.startedAt, choice.env⟩ :=
    ⟨Upkeep.tables_applyAll tables' session'.2, session'.1⟩
  have refused : ∀ (e : ε) (w : Option W),
      U.tables (now.release index).tables ∧ U.OfSession (opened.abort e w) ∧ True :=
    fun _ _ => ⟨tables', ofSession_ended session' rfl rfl, trivial⟩
  simp only [Engine.machine, Engine.exec] at executed
  split at executed
  · cases executed
    exact ⟨⟨tables, session, trivial⟩, trivial⟩
  · split at executed
    · cases executed
      exact ⟨refused _ _, trivial⟩
    · split at executed
      · cases executed
        exact ⟨refused _ _, trivial⟩
      · rename_i effect ran
        obtain ⟨memo, value, write⟩ := effect
        unfold Engine.settle at executed
        cases write with
        | none =>
            cases value with
            | error e =>
                cases executed
                exact ⟨refused e none, trivial⟩
            | ok a =>
                cases executed
                obtain ⟨kept, _, holds⟩ := keeps _ _ _ _ sees ran
                exact ⟨⟨tables', ⟨kept, session'.2⟩, trivial⟩, holds⟩
        | some w =>
            dsimp only at executed
            split at executed
            · cases executed
            · split at executed
              · cases executed
                exact ⟨refused _ _, trivial⟩
              · cases value with
                | error e =>
                    cases executed
                    exact ⟨refused e _, trivial⟩
                | ok a =>
                    cases executed
                    obtain ⟨kept, written, holds⟩ := keeps _ _ _ _ sees ran
                    refine ⟨⟨tables', ⟨kept, ?_⟩, trivial⟩, holds⟩
                    intro w' member
                    rcases List.mem_append.mp member with old | new
                    · exact session'.2 w' old
                    · exact written w' (List.mem_singleton.mp new ▸ rfl)

/-- A statement of a session of its own. -/
theorem eager {run : T → Env → Except ε (Option W × α)}
    (keeps : ∀ t env w a, U.tables t → run t env = .ok (w, a) → (∀ w' ∈ w, U.write w') ∧ Q a) :
    Upkept U C index Q (.perform (.eager run)) := by
  intro db s
  refine .perform fun d rely tables session => ⟨trivial, ?_⟩
  intro choice answer d' s' _ _ executed
  simp only [Engine.machine, Engine.exec] at executed
  split at executed
  · cases executed
    exact ⟨⟨tables, session, trivial⟩, trivial⟩
  · split at executed
    · cases executed
      exact ⟨⟨tables, session, trivial⟩, trivial⟩
    · rename_i ran
      cases executed
      exact ⟨⟨tables, session, trivial⟩, (keeps _ _ _ _ tables ran).2⟩
    · rename_i w a ran
      obtain ⟨written, holds⟩ := keeps _ _ _ _ tables ran
      split at executed
      · cases executed
      · split at executed
        · cases executed
          exact ⟨⟨tables, session, trivial⟩, trivial⟩
        · cases executed
          exact ⟨⟨U.tables_apply tables (written w rfl), session, trivial⟩, holds⟩

theorem choose (pick : Env → α) :
    Upkept U C index (fun a => ∃ choice, C choice ∧ a = pick choice.env)
      (.perform (.choose pick)) := by
  intro db s
  refine .perform fun d rely tables session => ⟨trivial, ?_⟩
  intro choice answer d' s' chosen _ executed
  cases executed
  exact ⟨⟨tables, session, trivial⟩, choice, chosen, rfl⟩

theorem commit : Upkept U C index (fun _ => True) (.perform .commit) := by
  intro db s
  refine .perform fun d rely tables session => ⟨trivial, ?_⟩
  intro choice answer d' s' _ _ executed
  simp only [Engine.machine, Engine.exec] at executed
  split at executed
  · cases executed
    exact ⟨⟨tables, session, trivial⟩, trivial⟩
  · split at executed
    · cases executed
      exact ⟨⟨tables, session, trivial⟩, trivial⟩
    · split at executed
      · cases executed
        exact ⟨⟨tables, ofSession_ended session rfl rfl, trivial⟩, trivial⟩
      · cases executed
        exact ⟨⟨Upkeep.tables_applyAll tables session.2,
          ⟨U.memo_settled session.1, by simp [Session.close]⟩, trivial⟩, trivial⟩

theorem rollback : Upkept U C index (fun _ => True) (.perform .rollback) := by
  intro db s
  refine .perform fun d rely tables session => ⟨trivial, ?_⟩
  intro choice answer d' s' _ _ executed
  cases executed
  exact ⟨⟨tables, ⟨U.memo_fresh, by simp [Session.close]⟩, trivial⟩, trivial⟩

/-! ## Runs -/

/-- **The fact holds in every reachable state**, of the tables and of every answer. -/
theorem reaches {tables : T} (holds : U.tables tables)
    {programs : ι → Program (Statement T W Memo Env ε) ε α} {Q : ι → α → Prop}
    (upkept : ∀ index, Upkept U (fun _ => True) index (Q index) (programs index))
    {w : World ι (Statement T W Memo Env ε) ε α (Db ι T K) (Session W Memo ε)}
    (reaches : World.Reaches E.machine
      (World.start { tables } { memo := E.fresh } programs) w) :
    U.tables w.db.tables ∧ ∀ index a, (w.task index).answer = some (.ok a) → Q index a := by
  let K : Contract (E.machine : Machine ι (Statement T W Memo Env ε) ε (Db ι T K)
    (Session W Memo ε) (Choice Env)) := U.contract
  have outline : ∀ index, Valid .always K index (fun a _ _ => Q index a) (fun _ _ _ => True)
      (fun _ _ => True) (programs index) := by
    intro index
    have met : K.Entails index (fun _ _ => True) (K.Since index
        (Meets .always (fun _ => True) K index (fun a _ _ => Q index a) (fun _ _ _ => True)
          (programs index))) :=
      fun db s _ _ _ => .of_now (upkept index db s)
    refine (Meets.valid met).after (fun a _ _ _ _ since => ?_) fun _ _ _ _ _ _ => trivial
    obtain ⟨_, _, answered⟩ := since
    exact answered
  have sound : World.Sound .always K (fun index a _ _ => Q index a) (fun _ _ _ _ => True)
      (World.start { tables } { memo := E.fresh } programs) :=
    World.Sound.start holds (fun _ => ⟨U.memo_fresh, by simp⟩) (fun _ _ _ _ _ _ _ _ _ _ _ => trivial)
      (fun _ => trivial) outline
  have after := sound.runs reaches
  exact ⟨after.store, fun index a answered => (after.answered answered).1 a rfl⟩

end Upkept
end LandVault.Library.ReadCommitted
