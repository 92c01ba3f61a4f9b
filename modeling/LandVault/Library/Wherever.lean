import LandVault.Library.Discipline
import LandVault.Library.Interference

/-!
# What a program does wherever it runs

Some of what a program does depends on no state: which statements it issues, and which of
its errors are its own. `Wherever` says so of a program for every answer that the store can
give to each statement, from any state and any session. It is defined by recursion on the
program, and composes as programs do.

Two things follow. A run that is played ends as the program does (`Wherever.played`). And
where every statement of every program writes only what stands and is allowed, any
interleaving of the programs is a sequence of commits of allowed writes
(`Wherever.advances`).
-/

set_option autoImplicit false

namespace LandVault.Library.Programs

universe u

section Wherever

variable {ι : Type} {Stmt : Type → Type u} {ε α β Db Session Choice : Type}

/-- Wherever its statements are carried out, with choices among `C`: each of them has `L`,
and the program ends with `Q` of its value or `X` of its error. -/
def Wherever (M : Machine ι Stmt ε Db Session Choice) (C : Choice → Prop) (index : ι)
    (L : {β : Type} → Stmt β → Prop) (Q : α → Prop) (X : ε → Prop) : Program Stmt ε α → Prop
  | .ret value => Q value
  | .throw error => X error
  | .step statement next => L statement ∧ ∀ d s choice answer d' s', C choice →
      M.exec index d s statement choice = some (answer, d', s') →
      Wherever M C index L Q X (next answer)

variable {M : Machine ι Stmt ε Db Session Choice} {C : Choice → Prop} {index : ι}
  {L : {β : Type} → Stmt β → Prop} {Q : α → Prop} {X : ε → Prop}

namespace Wherever

theorem bind {N : β → Prop} {program : Program Stmt ε β} {rest : β → Program Stmt ε α}
    (first : Wherever M C index L N X program)
    (second : ∀ b, N b → Wherever M C index L Q X (rest b)) :
    Wherever M C index L Q X (program.bind rest) := by
  induction program with
  | ret b => exact second b first
  | throw e => exact first
  | step statement next ih =>
      exact ⟨first.1, fun d s choice answer d' s' chosen executed =>
        ih answer (first.2 d s choice answer d' s' chosen executed)⟩

theorem handle {N : ε → Prop} {program : Program Stmt ε α} {handler : ε → Program Stmt ε α}
    (body : Wherever M C index L Q N program)
    (handles : ∀ e, N e → Wherever M C index L Q X (handler e)) :
    Wherever M C index L Q X (program.handle handler) := by
  induction program with
  | ret a => exact body
  | throw e => exact handles e body
  | step statement next ih =>
      exact ⟨body.1, fun d s choice answer d' s' chosen executed =>
        ih answer (body.2 d s choice answer d' s' chosen executed)⟩

/-- One statement. -/
theorem perform {statement : Stmt α} (lawful : L statement)
    (value : ∀ d s choice a d' s', C choice →
      M.exec index d s statement choice = some (.ok a, d', s') → Q a)
    (error : ∀ d s choice e d' s', C choice →
      M.exec index d s statement choice = some (.error e, d', s') → X e) :
    Wherever M C index L Q X (.perform statement) := by
  refine ⟨lawful, fun d s choice answer d' s' chosen executed => ?_⟩
  cases answer with
  | ok a => exact value d s choice a d' s' chosen executed
  | error e => exact error d s choice e d' s' chosen executed

theorem ofExcept {result : Except ε α} (value : ∀ a, result = .ok a → Q a)
    (error : ∀ e, result = .error e → X e) : Wherever M C index L Q X (.ofExcept result) := by
  cases result with
  | ok a => exact value a rfl
  | error e => exact error e rfl

theorem ite {condition : Prop} [Decidable condition] {yes no : Program Stmt ε α}
    (first : condition → Wherever M C index L Q X yes)
    (second : ¬ condition → Wherever M C index L Q X no) :
    Wherever M C index L Q X (if condition then yes else no) := by
  by_cases holds : condition
  · simpa [holds] using first holds
  · simpa [holds] using second holds

/-- What a program does wherever it runs, it does among others that ask for nothing. -/
theorem free {A : Admission ι Stmt Db Session Choice} {program : Program Stmt ε α}
    (wherever : Wherever M C index L Q X program) (d : Db) (s : Session) :
    Meets A C (Contract.free (M := M)) index (fun a _ _ => Q a) (fun e _ _ => X e) program d s := by
  induction program generalizing d s with
  | ret a => exact wherever
  | throw e => exact wherever
  | step statement next ih =>
      refine fun d₁ _ _ _ => ⟨trivial, fun choice answer d' s' chosen _ executed => ?_⟩
      exact ⟨⟨trivial, trivial, trivial⟩,
        ih answer (wherever.2 d₁ s choice answer d' s' chosen executed) d' s'⟩

end Wherever

end Wherever

end LandVault.Library.Programs

namespace LandVault.Library.ReadCommitted

open LandVault.Library.Programs

/-! ## Statements that write what is allowed -/

variable {ι T W K Memo Env ε α β : Type} [DecidableEq ι] [DecidableEq K]
  {E : Engine T W K Memo ε}

/-- Whatever it sees, the statement writes only what stands and is allowed. -/
def Discipline.Lawful (D : Discipline E) (ok : W → Prop) {β : Type} :
    Statement T W Memo Env ε β → Prop
  | .query run => ∀ view memo b w, run view = .ok ⟨memo, .ok b, some w⟩ →
      D.stands view.tables w ∧ ok w
  | .eager run => ∀ t env w b, run t env = .ok (some w, b) → D.alone w
  | _ => True

section Statements

variable {index : ι} {C : Choice Env → Prop}
  {L : {β : Type} → Statement T W Memo Env ε β → Prop} {Q : α → Prop} {X : ε → Prop}

/-- A statement inside the session, by what it may see. -/
theorem wherever_query {run : View T Memo Env → Except ε (Effect W Memo ε α)}
    (lawful : L (.query run)) (broken : X E.pendingRollback)
    (errors : ∀ v e w, Raised E run v e w → X e)
    (values : ∀ v memo a w, run v = .ok ⟨memo, .ok a, w⟩ → Q a) :
    Wherever E.machine C index L Q X (.perform (.query run)) := by
  refine .perform lawful ?_ ?_
  · intro d s choice a d' s' _ (executed : E.exec index d s (.query run) choice = _)
    rcases exec_query executed with ⟨_, absurd, _⟩ | ⟨_, ran⟩
    · cases absurd
    · cases ran with
      | read ran => exact values _ _ _ _ ran
      | wrote ran _ _ => exact values _ _ _ _ ran
  · intro d s choice e d' s' _ (executed : E.exec index d s (.query run) choice = _)
    rcases exec_query executed with ⟨_, same, _⟩ | ⟨_, ran⟩
    · cases same
      exact broken
    · cases ran with
      | refused raised => exact errors _ _ _ raised

/-- A statement in a session of its own. -/
theorem wherever_eager {run : T → Env → Except ε (Option W × α)} (lawful : L (.eager run))
    (disconnected : X E.disconnected) (raises : ∀ t env e, run t env = .error e → X e)
    (violates : ∀ k, X (E.violation k))
    (values : ∀ t env w a, run t env = .ok (w, a) → Q a) :
    Wherever E.machine C index L Q X (.perform (.eager run)) := by
  refine .perform lawful ?_ ?_
  · intro d s choice a d' s' _ (executed : E.exec index d s (.eager run) choice = _)
    cases exec_eager executed with
    | read ran => exact values _ _ _ _ ran
    | wrote ran _ => exact values _ _ _ _ ran
  · intro d s choice e d' s' _ (executed : E.exec index d s (.eager run) choice = _)
    cases exec_eager executed with
    | disconnected => exact disconnected
    | raised raised => exact raises _ _ _ raised
    | violation _ _ _ => exact violates _

/-- A value of the outside world. -/
theorem wherever_choose {pick : Env → α} (lawful : L (.choose pick)) :
    Wherever E.machine C index L (fun a => ∃ choice, C choice ∧ a = pick choice.env) X
      (.perform (.choose pick)) := by
  refine .perform lawful ?_ ?_
  · intro d s choice a d' s' chosen executed
    cases executed
    exact ⟨choice, chosen, rfl⟩
  · intro d s choice e d' s' _ (executed : E.exec index d s (.choose pick) choice = _)
    cases executed

theorem wherever_commit (lawful : L .commit) (broken : X E.pendingRollback)
    (disconnected : X E.disconnected) :
    Wherever E.machine C index L (fun _ => True) X (.perform .commit) := by
  refine .perform lawful (fun _ _ _ _ _ _ _ _ => trivial) ?_
  intro d s choice e d' s' _ (executed : E.exec index d s .commit choice = _)
  cases exec_commit executed with
  | refused => exact broken
  | failed => exact disconnected

theorem wherever_rollback (lawful : L .rollback) :
    Wherever E.machine C index L (fun _ => True) X (.perform .rollback) := by
  refine .perform lawful (fun _ _ _ _ _ _ _ _ => trivial) ?_
  intro d s choice e d' s' _ (executed : E.exec index d s .rollback choice = _)
  cases executed

end Statements

variable {D : Discipline E} {ok : W → Prop} {index : ι} {db : Db ι T K} {s : Session W Memo ε}
  {A : Admission ι (Statement T W Memo Env ε) (Db ι T K) (Session W Memo ε) (Choice Env)}
  {C : Choice Env → Prop} {Q : α → Prop} {X : ε → Prop}

/-- Everything that is pending is allowed. -/
def Clean (ok : W → Prop) : Assertion (Db ι T K) (Session W Memo ε) :=
  fun _ s => ∀ w ∈ s.pending, ok w

theorem meets_lawful (batch : ∀ ws, (∀ w ∈ ws, ok w) → D.batch ws)
    {statement : Statement T W Memo Env ε α} (lawful : D.Lawful ok statement)
    (clean : ∀ w ∈ s.pending, ok w) :
    Meets A C D.contract index (fun _ => Clean ok) (fun _ => Clean ok) (.perform statement) db s := by
  cases statement with
  | query run =>
      refine Discipline.meets_query (fun _ _ _ => clean) ?_ ?_ ?_
      · exact fun _ _ _ _ _ _ _ _ _ w member => nomatch member
      · intro _ _ now _ _ _ _ _ _ _ w member
        exact clean w (by simpa using member)
      · intro _ _ now _ memo a w _ _ _ _ ran
        obtain ⟨stands, allowed⟩ := lawful _ _ _ _ ran
        refine ⟨stands, fun w' member => ?_⟩
        rcases List.mem_append.mp member with old | new
        · exact clean w' old
        · exact List.mem_singleton.mp new ▸ allowed
  | eager run =>
      refine Discipline.meets_eager (fun _ _ _ _ => clean) (fun _ _ _ _ _ => clean) ?_
      exact fun _ _ _ _ _ _ ran _ => ⟨lawful _ _ _ _ ran, fun _ => clean⟩
  | choose pick => exact Discipline.meets_choose fun _ _ _ => clean
  | commit =>
      refine Discipline.meets_commit (fun _ _ _ => clean) (fun _ _ _ _ => clean) ?_ ?_
      · exact fun _ _ _ _ w member => nomatch member
      · exact fun _ _ _ _ _ _ => ⟨batch _ clean, fun w member => nomatch member⟩
  | rollback => exact Discipline.meets_rollback fun _ _ _ _ w member => nomatch member

/-- A program of lawful statements keeps the discipline. -/
theorem Wherever.meets (batch : ∀ ws, (∀ w ∈ ws, ok w) → D.batch ws)
    {program : Program (Statement T W Memo Env ε) ε α}
    (wherever : Wherever E.machine (fun _ => True) index (D.Lawful ok) Q X program)
    (clean : ∀ w ∈ s.pending, ok w) :
    Meets A C D.contract index (fun _ => Clean ok) (fun _ => Clean ok) program db s := by
  induction program generalizing db s with
  | ret a => exact clean
  | throw e => exact clean
  | step statement next ih =>
      intro d₁ rely store session
      obtain ⟨crashed, steps⟩ :=
        meets_lawful (C := C) (A := A) batch wherever.1 clean d₁ rely store session
      refine ⟨crashed, fun choice answer d' s' chosen admitted executed => ?_⟩
      obtain ⟨keeps, after⟩ := steps choice answer d' s' chosen admitted executed
      refine ⟨keeps, ih answer (wherever.2 _ _ _ _ _ _ trivial executed) ?_⟩
      cases answer <;> exact after

/-- **Any interleaving is a sequence of commits** of allowed writes that stand. -/
theorem Wherever.advances (batch : ∀ ws, (∀ w ∈ ws, ok w) → D.batch ws) {tables : T}
    (unique : (E.keys tables).Nodup)
    {programs : ι → Program (Statement T W Memo Env ε) ε α} {Q : ι → α → Prop} {X : ι → ε → Prop}
    (wherever : ∀ index, Wherever E.machine (fun _ => True) index (D.Lawful ok) (Q index) (X index)
      (programs index))
    {memo : Memo}
    {w : World ι (Statement T W Memo Env ε) ε α (Db ι T K) (Session W Memo ε)}
    (runs : World.Runs E.machine A (World.start { tables } { memo } programs) w) :
    D.Advances tables w.db.tables := by
  let K : Contract (E.machine : Machine ι (Statement T W Memo Env ε) ε (Db ι T K)
    (Session W Memo ε) (Choice Env)) := D.contract
  have outline : ∀ index, Valid A K index (fun _ => K.Since index (Clean ok))
      (fun _ _ _ => True) (fun _ s => s = { memo }) (programs index) := by
    intro index
    refine (Meets.valid (M := E.machine) (A := A) (K := K) (Q := fun _ => Clean ok)
      (E := fun _ => Clean ok) ?_).after (fun _ => .refl _) fun _ _ _ _ _ _ => trivial
    rintro db _ _ _ rfl
    exact .of_now (Wherever.meets batch (wherever index) (by simp))
  have sound : World.Sound A K (fun index _ => K.Since index (Clean ok)) (fun _ _ _ _ => True)
      (World.start { tables } { memo } programs) := by
    refine World.Sound.start ⟨by simp, unique⟩ (fun index => ?_) (fun index => ?_) (fun _ => rfl)
      outline
    · exact .of_pending ⟨by simp, unique, fun _ => rfl, le_rfl⟩ rfl
    · exact fun _ _ _ _ _ _ _ _ _ same => same
  exact sound.evolves runs (R := fun db db' => D.Advances db.tables db'.tables) (fun _ => .refl _)
    (fun _ _ _ => .trans) fun _ _ _ coherent _ moves => Discipline.Moves.advances moves coherent

end LandVault.Library.ReadCommitted
