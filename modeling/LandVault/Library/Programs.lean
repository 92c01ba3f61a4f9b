import Mathlib.Logic.Relation
import Mathlib.Logic.Function.Basic
import Mathlib.Tactic.Choose

/-!
# Programs that share a store

A program is a tree: it ends with a value or an error, or it hands one statement
to a store and continues with what the store answers. Statements are atomic;
between two statements of one program any other program may run. A machine says
what a statement does to the shared store and to the session of the program that
issues it, for each choice the outside world makes; a statement that has to wait
has no step.

A world runs one program for each index. Its runs are all interleavings of the
steps of its programs, with a crash of any unfinished program possible between
any two steps.

The rules below are rely-guarantee reasoning for such worlds. A contract fixes
what holds of the store and of every session, what one step may do to the store,
and what is left of a program that crashes. `Valid` is a proof outline of one
program against a contract, and `World.Sound.runs` puts the outlines of all
programs together.
-/

set_option autoImplicit false

namespace LandVault.Library.Programs

universe u

/-! ## Programs -/

/-- A program over statements `Stmt`: a value, an error, or a statement and what
follows each of its answers. -/
inductive Program (Stmt : Type → Type u) (ε α : Type) : Type (max 1 u) where
  | ret (value : α)
  | throw (error : ε)
  | step {β : Type} (statement : Stmt β) (next : Except ε β → Program Stmt ε α)

namespace Program

variable {Stmt Stmt' : Type → Type u} {ε α β : Type}

/-- Run one program and continue with its value; an error ends both. -/
def bind : Program Stmt ε α → (α → Program Stmt ε β) → Program Stmt ε β
  | .ret value, rest => rest value
  | .throw error, _ => .throw error
  | .step statement next, rest => .step statement fun answer => (next answer).bind rest

/-- Continue with a handler when a program ends in an error. -/
def handle : Program Stmt ε α → (ε → Program Stmt ε α) → Program Stmt ε α
  | .ret value, _ => .ret value
  | .throw error, handler => handler error
  | .step statement next, handler => .step statement fun answer => (next answer).handle handler

instance : Monad (Program Stmt ε) where
  pure := .ret
  bind := bind

instance : MonadExceptOf ε (Program Stmt ε) where
  throw := .throw
  tryCatch := handle

/-- The value or the error a computation gave, as a program that is over. -/
def ofExcept : Except ε α → Program Stmt ε α
  | .ok value => .ret value
  | .error error => .throw error

/-- One statement as a program. -/
def perform (statement : Stmt α) : Program Stmt ε α := .step statement ofExcept

/-- A program that never fails: it returns the error instead. -/
def attempt (program : Program Stmt ε α) : Program Stmt ε (Except ε α) :=
  (program.bind fun value => .ret (.ok value)).handle fun error => .ret (.error error)

/-- Replace every statement of a program by a program. -/
def interpret (meaning : {γ : Type} → Stmt γ → Program Stmt' ε γ) :
    Program Stmt ε α → Program Stmt' ε α
  | .ret value => .ret value
  | .throw error => .throw error
  | .step statement next =>
      (meaning statement).attempt.bind fun answer => (next answer).interpret meaning

@[simp] theorem pure_eq_ret (value : α) : (pure value : Program Stmt ε α) = .ret value := rfl

@[simp] theorem bind_eq (program : Program Stmt ε α) (rest : α → Program Stmt ε β) :
    program >>= rest = program.bind rest := rfl

@[simp] theorem throw_eq (error : ε) : (throw error : Program Stmt ε α) = .throw error := rfl

@[simp] theorem tryCatch_eq (program : Program Stmt ε α) (handler : ε → Program Stmt ε α) :
    tryCatch program handler = program.handle handler := rfl

end Program

/-! ## Machines and worlds -/

/-- What a store does with a statement of the program at `index`, for each choice
of the outside world, and what is left when a program's session ends without
warning. No answer means that the statement has to wait. -/
structure Machine (ι : Type) (Stmt : Type → Type u) (ε Db Session Choice : Type) where
  exec : {β : Type} → (index : ι) → Db → Session → Stmt β → Choice →
    Option (Except ε β × Db × Session)
  crash : (index : ι) → Db → Session → Db × Session

/-- One program in progress: its session, and what remains of it. A crashed
program has nothing left. -/
structure Task (Stmt : Type → Type u) (ε α Session : Type) where
  session : Session
  program : Option (Program Stmt ε α)

/-- What a finished program answered. -/
def Task.answer {Stmt : Type → Type u} {ε α Session : Type} (task : Task Stmt ε α Session) :
    Option (Except ε α) :=
  match task.program with
  | some (.ret value) => some (.ok value)
  | some (.throw error) => some (.error error)
  | _ => none

/-- The program has ended with a value. -/
def Task.succeeded {Stmt : Type → Type u} {ε α Session : Type} (task : Task Stmt ε α Session) :
    Bool :=
  match task.program with
  | some (.ret _) => true
  | _ => false

/-- A shared store and one task for each index. -/
structure World (ι : Type) (Stmt : Type → Type u) (ε α Db Session : Type) where
  db : Db
  task : ι → Task Stmt ε α Session

/-- What happens next: a program takes a step, or it crashes. -/
inductive Action (ι Choice : Type) where
  | step (index : ι) (choice : Choice)
  | crash (index : ι)

/-- A condition on the state in which a statement runs, and on what the outside world
supplies to it. -/
structure Admission (ι : Type) (Stmt : Type → Type u) (Db Session Choice : Type) where
  admits : {β : Type} → ι → Db → Session → Stmt β → Choice → Prop

/-- Every statement is admitted. -/
def Admission.always {ι : Type} {Stmt : Type → Type u} {Db Session Choice : Type} :
    Admission ι Stmt Db Session Choice :=
  ⟨fun _ _ _ _ _ => True⟩

namespace World

variable {ι : Type} {Stmt : Type → Type u} {ε α Db Session Choice : Type} [DecidableEq ι]

/-- The world in which every program is about to start. -/
def start (db : Db) (session : Session) (programs : ι → Program Stmt ε α) :
    World ι Stmt ε α Db Session :=
  ⟨db, fun index => ⟨session, some (programs index)⟩⟩

/-- One action, if it is possible. Only an unfinished program can crash. -/
def act (M : Machine ι Stmt ε Db Session Choice) (w : World ι Stmt ε α Db Session) :
    Action ι Choice → Option (World ι Stmt ε α Db Session)
  | .step index choice =>
      match (w.task index).program with
      | some (.step statement next) =>
          match M.exec index w.db (w.task index).session statement choice with
          | some (answer, db, session) =>
              some ⟨db, Function.update w.task index ⟨session, some (next answer)⟩⟩
          | none => none
      | _ => none
  | .crash index =>
      match (w.task index).program with
      | some (.step _ _) =>
          let left := M.crash index w.db (w.task index).session
          some ⟨left.1, Function.update w.task index ⟨left.2, none⟩⟩
      | _ => none

/-- A sequence of actions, if each is possible in turn. -/
def run (M : Machine ι Stmt ε Db Session Choice) (w : World ι Stmt ε α Db Session)
    (actions : List (Action ι Choice)) : Option (World ι Stmt ε α Db Session) :=
  actions.foldlM (act M) w

/-- The action is a crash, or a step whose statement is admitted. -/
def Admits (A : Admission ι Stmt Db Session Choice) (w : World ι Stmt ε α Db Session) :
    Action ι Choice → Prop
  | .step index choice =>
      match (w.task index).program with
      | some (.step statement _) => A.admits index w.db (w.task index).session statement choice
      | _ => True
  | .crash _ => True

/-- Each action is admitted, as long as those before it are possible. -/
def Admitted (M : Machine ι Stmt ε Db Session Choice) (A : Admission ι Stmt Db Session Choice) :
    World ι Stmt ε α Db Session → List (Action ι Choice) → Prop
  | _, [] => True
  | w, action :: actions => w.Admits A action ∧
      match w.act M action with
      | some w' => Admitted M A w' actions
      | none => True

instance {A : Admission ι Stmt Db Session Choice}
    [∀ {β} (index : ι) (db : Db) (s : Session) (statement : Stmt β) (choice : Choice),
      Decidable (A.admits index db s statement choice)]
    (w : World ι Stmt ε α Db Session) (action : Action ι Choice) : Decidable (w.Admits A action) :=
  match action with
  | .step index choice =>
      match remaining : (w.task index).program with
      | some (.step statement _) =>
          decidable_of_iff (A.admits index w.db (w.task index).session statement choice)
            (by simp [Admits, remaining])
      | some (.ret _) | some (.throw _) | none => .isTrue (by simp [Admits, remaining])
  | .crash _ => .isTrue trivial

instance {M : Machine ι Stmt ε Db Session Choice} {A : Admission ι Stmt Db Session Choice}
    [∀ {β} (index : ι) (db : Db) (s : Session) (statement : Stmt β) (choice : Choice),
      Decidable (A.admits index db s statement choice)]
    (w : World ι Stmt ε α Db Session) (actions : List (Action ι Choice)) :
    Decidable (w.Admitted M A actions) :=
  go actions w
where
  go : (actions : List (Action ι Choice)) → (w : World ι Stmt ε α Db Session) →
      Decidable (w.Admitted M A actions)
    | [], _ => .isTrue trivial
    | action :: actions, w =>
        match possible : w.act M action with
        | some w' =>
            have := go actions w'
            decidable_of_iff (w.Admits A action ∧ w'.Admitted M A actions)
              (by simp [Admitted, possible])
        | none => decidable_of_iff (w.Admits A action) (by simp [Admitted, possible])

/-- One admitted action leads from one world to another. -/
def Steps (M : Machine ι Stmt ε Db Session Choice) (A : Admission ι Stmt Db Session Choice)
    (w w' : World ι Stmt ε α Db Session) : Prop :=
  ∃ action : Action ι Choice, w.Admits A action ∧ w.act M action = some w'

/-- Finitely many admitted actions lead from one world to another. -/
abbrev Runs (M : Machine ι Stmt ε Db Session Choice) (A : Admission ι Stmt Db Session Choice) :
    World ι Stmt ε α Db Session → World ι Stmt ε α Db Session → Prop :=
  Relation.ReflTransGen (Steps M A)

/-- Any interleaving: a run in which every statement is admitted. -/
abbrev Reaches (M : Machine ι Stmt ε Db Session Choice) :
    World ι Stmt ε α Db Session → World ι Stmt ε α Db Session → Prop :=
  Runs M .always

omit [DecidableEq ι] in
theorem admits_always (w : World ι Stmt ε α Db Session) (action : Action ι Choice) :
    w.Admits .always action := by
  cases action with
  | step index choice =>
      simp only [Admits, Admission.always]
      split <;> trivial
  | crash index => trivial

/-- A sequence of actions that is possible and admitted is a run. -/
theorem runs_of_run {M : Machine ι Stmt ε Db Session Choice}
    {A : Admission ι Stmt Db Session Choice} :
    ∀ {actions : List (Action ι Choice)} {w w' : World ι Stmt ε α Db Session},
      w.run M actions = some w' → w.Admitted M A actions → Runs M A w w' := by
  intro actions
  induction actions with
  | nil =>
      intro w w' ran _
      have same : w = w' := by simpa [run] using ran
      exact same ▸ .refl
  | cons action actions ih =>
      rintro w w' ran ⟨admits, admitted⟩
      cases first : w.act M action with
      | none => simp [run, List.foldlM_cons, first] at ran
      | some middle =>
          have rest : middle.run M actions = some w' := by
            simpa [run, List.foldlM_cons, first] using ran
          exact .head ⟨action, admits, first⟩ (ih rest (by simpa [first] using admitted))

theorem admitted_always {M : Machine ι Stmt ε Db Session Choice} :
    ∀ (actions : List (Action ι Choice)) (w : World ι Stmt ε α Db Session),
      w.Admitted M .always actions := by
  intro actions
  induction actions with
  | nil => exact fun _ => trivial
  | cons action actions ih =>
      refine fun w => ⟨admits_always w action, ?_⟩
      split
      · exact ih _
      · trivial

/-- A sequence of actions that is possible is a run. -/
theorem reaches_of_run {M : Machine ι Stmt ε Db Session Choice} {actions : List (Action ι Choice)}
    {w w' : World ι Stmt ε α Db Session} (ran : w.run M actions = some w') : Reaches M w w' :=
  runs_of_run ran (admitted_always actions w)

instance {β : Type} (index : ι) (db : Db) (s : Session) (statement : Stmt β) (choice : Choice) :
    Decidable (Admission.always.admits index db s statement choice) :=
  .isTrue trivial

/-- Two sequences of actions are possible and admitted, one after the other, and something
holds of the worlds that they lead to. -/
def Observed (M : Machine ι Stmt ε Db Session Choice) (A : Admission ι Stmt Db Session Choice)
    (w : World ι Stmt ε α Db Session) (actions later : List (Action ι Choice))
    (φ : World ι Stmt ε α Db Session → World ι Stmt ε α Db Session → Prop) : Prop :=
  w.Admitted M A actions ∧ ∃ w' ∈ w.run M actions,
    w'.Admitted M A later ∧ ∃ w'' ∈ w'.run M later, φ w' w''

instance {M : Machine ι Stmt ε Db Session Choice} {A : Admission ι Stmt Db Session Choice}
    [∀ {β} (index : ι) (db : Db) (s : Session) (statement : Stmt β) (choice : Choice),
      Decidable (A.admits index db s statement choice)]
    (w : World ι Stmt ε α Db Session) (actions later : List (Action ι Choice))
    (φ : World ι Stmt ε α Db Session → World ι Stmt ε α Db Session → Prop)
    [∀ w' w'', Decidable (φ w' w'')] : Decidable (w.Observed M A actions later φ) :=
  inferInstanceAs (Decidable (w.Admitted M A actions ∧ ∃ w' ∈ w.run M actions,
    w'.Admitted M A later ∧ ∃ w'' ∈ w'.run M later, φ w' w''))

theorem Observed.runs {M : Machine ι Stmt ε Db Session Choice}
    {A : Admission ι Stmt Db Session Choice} {w : World ι Stmt ε α Db Session}
    {actions later : List (Action ι Choice)}
    {φ : World ι Stmt ε α Db Session → World ι Stmt ε α Db Session → Prop}
    (observed : Observed M A w actions later φ) :
    ∃ w' w'', Runs M A w w' ∧ Runs M A w' w'' ∧ φ w' w'' := by
  obtain ⟨admitted, w', ran, admitted', w'', ran', holds⟩ := observed
  exact ⟨w', w'', runs_of_run ran admitted, runs_of_run ran' admitted', holds⟩

/-- The two ways a world changes: a statement of one program is carried out, or
one unfinished program crashes. The other tasks stay as they are. -/
theorem act_cases {M : Machine ι Stmt ε Db Session Choice} {w w' : World ι Stmt ε α Db Session}
    {action : Action ι Choice} (acted : w.act M action = some w') :
    (∃ index choice, ∃ β : Type, ∃ (statement : Stmt β) (next : Except ε β → Program Stmt ε α)
        (answer : Except ε β) (db : Db) (session : Session),
      action = .step index choice ∧ (w.task index).program = some (.step statement next) ∧
      M.exec index w.db (w.task index).session statement choice = some (answer, db, session) ∧
      w' = ⟨db, Function.update w.task index ⟨session, some (next answer)⟩⟩) ∨
    (∃ index, ∃ β : Type, ∃ (statement : Stmt β) (next : Except ε β → Program Stmt ε α),
      action = .crash index ∧ (w.task index).program = some (.step statement next) ∧
      w' = ⟨(M.crash index w.db (w.task index).session).1,
        Function.update w.task index ⟨(M.crash index w.db (w.task index).session).2, none⟩⟩) := by
  cases action with
  | step index choice =>
      simp only [act] at acted
      split at acted
      · rename_i β statement next remaining
        split at acted
        · rename_i answer db session executed
          exact .inl ⟨index, choice, β, statement, next, answer, db, session, rfl, remaining,
            executed, by simpa using acted.symm⟩
        · cases acted
      · cases acted
  | crash index =>
      simp only [act] at acted
      split at acted
      · rename_i β statement next remaining
        exact .inr ⟨index, β, statement, next, rfl, remaining, by simpa using acted.symm⟩
      · cases acted

/-- A property of worlds that every admitted action keeps holds after every run. -/
theorem Runs.induction {M : Machine ι Stmt ε Db Session Choice}
    {A : Admission ι Stmt Db Session Choice} {Φ : World ι Stmt ε α Db Session → Prop}
    (keeps : ∀ w w', Φ w → Steps M A w w' → Φ w') {w w' : World ι Stmt ε α Db Session}
    (initial : Φ w) (runs : Runs M A w w') : Φ w' := by
  induction runs with
  | refl => exact initial
  | tail _ step ih => exact keeps _ _ ih step

end World

/-! ## Contracts and proof outlines -/

/-- A fact about the store and one session. -/
abbrev Assertion (Db Session : Type) := Db → Session → Prop

/-- What holds after a statement, by its answer. -/
def Answered {ε α Db Session : Type} (Q : α → Assertion Db Session) (E : ε → Assertion Db Session) :
    Except ε α → Assertion Db Session
  | .ok value => Q value
  | .error error => E error

section Contracts

variable {ι : Type} {Stmt : Type → Type u} {ε α β Db Session Choice : Type}

/-- What every program of a world keeps: a fact about the store, a fact about
the store and each session, a bound on what one step does to the store, and a
fact about what a crash leaves. -/
structure Contract (M : Machine ι Stmt ε Db Session Choice) where
  store : Db → Prop
  session : ι → Assertion Db Session
  guarantee : ι → Db → Db → Prop
  crashed : ι → Assertion Db Session
  session_stable : ∀ {i j d d' s}, j ≠ i → store d → store d' → guarantee j d d' →
    session i d s → session i d' s
  crashed_stable : ∀ {i j d d' s}, j ≠ i → store d → store d' → guarantee j d d' →
    session i d s → crashed i d s → crashed i d' s
  crash_keeps : ∀ {i d s}, store d → session i d s → store (M.crash i d s).1 ∧
    session i (M.crash i d s).1 (M.crash i d s).2 ∧ guarantee i d (M.crash i d s).1

variable {M : Machine ι Stmt ε Db Session Choice}

namespace Contract

/-- `Q` follows from `P` in every state the contract allows. -/
def Entails (K : Contract M) (index : ι) (P Q : Assertion Db Session) : Prop :=
  ∀ d s, K.store d → K.session index d s → P d s → Q d s

/-- No step of another program makes a stable assertion false. -/
def Stable (K : Contract M) (index : ι) (P : Assertion Db Session) : Prop :=
  ∀ j d d' s, j ≠ index → K.store d → K.store d' → K.guarantee j d d' →
    K.session index d s → P d s → P d' s

/-- A statement that runs from `P` keeps the contract and ends in `N`. -/
def Carries (K : Contract M) (A : Admission ι Stmt Db Session Choice) (index : ι)
    (P : Assertion Db Session) (statement : Stmt β) (N : Except ε β → Assertion Db Session) :
    Prop :=
  ∀ d s choice answer d' s', K.store d → K.session index d s → P d s →
    A.admits index d s statement choice →
    M.exec index d s statement choice = some (answer, d', s') →
    K.store d' ∧ K.session index d' s' ∧ K.guarantee index d d' ∧ N answer d' s'

/-- A program that crashes in `P` leaves what the contract says. -/
def Crashes (K : Contract M) (index : ι) (P : Assertion Db Session) : Prop :=
  ∀ d s, K.store d → K.session index d s → P d s →
    K.crashed index (M.crash index d s).1 (M.crash index d s).2

theorem Entails.refl {K : Contract M} {index : ι} (P : Assertion Db Session) :
    K.Entails index P P :=
  fun _ _ _ _ p => p

end Contract

/-- A proof outline: from a store and session satisfying `P`, every admitted
statement keeps the contract, and the program can only end with `Q` of its value
or `E` of its error. After every statement an assertion holds that the others
cannot make false. -/
inductive Valid (A : Admission ι Stmt Db Session Choice) (K : Contract M) (index : ι)
    (Q : α → Assertion Db Session) (E : ε → Assertion Db Session) :
    Assertion Db Session → Program Stmt ε α → Prop where
  | ret {P : Assertion Db Session} {value : α} (holds : K.Entails index P (Q value)) :
      Valid A K index Q E P (.ret value)
  | throw {P : Assertion Db Session} {error : ε} (holds : K.Entails index P (E error)) :
      Valid A K index Q E P (.throw error)
  | step {P : Assertion Db Session} {γ : Type} {statement : Stmt γ}
      {next : Except ε γ → Program Stmt ε α} (N : Except ε γ → Assertion Db Session)
      (crashes : K.Crashes index P) (stable : ∀ answer, K.Stable index (N answer))
      (carries : K.Carries A index P statement N)
      (follows : ∀ answer, Valid A K index Q E (N answer) (next answer)) :
      Valid A K index Q E P (.step statement next)

namespace Valid

variable {A : Admission ι Stmt Db Session Choice} {K : Contract M} {index : ι}
  {Q : α → Assertion Db Session} {E : ε → Assertion Db Session}

theorem ret_inv {P : Assertion Db Session} {value : α}
    (valid : Valid A K index Q E P (.ret value)) : K.Entails index P (Q value) := by
  cases valid with
  | ret holds => exact holds

theorem throw_inv {P : Assertion Db Session} {error : ε}
    (valid : Valid A K index Q E P (.throw error)) : K.Entails index P (E error) := by
  cases valid with
  | throw holds => exact holds

theorem step_inv {P : Assertion Db Session} {γ : Type} {statement : Stmt γ}
    {next : Except ε γ → Program Stmt ε α}
    (valid : Valid A K index Q E P (.step statement next)) :
    K.Crashes index P ∧ ∃ N : Except ε γ → Assertion Db Session,
      (∀ answer, K.Stable index (N answer)) ∧ K.Carries A index P statement N ∧
      ∀ answer, Valid A K index Q E (N answer) (next answer) := by
  cases valid with
  | step N crashes stable carries follows => exact ⟨crashes, N, stable, carries, follows⟩

/-- The rule of consequence. -/
theorem consequence {P P' : Assertion Db Session} {Q' : α → Assertion Db Session}
    {E' : ε → Assertion Db Session} {program : Program Stmt ε α}
    (valid : Valid A K index Q E P program) (weaker : K.Entails index P' P)
    (value : ∀ a, K.Entails index (Q a) (Q' a)) (error : ∀ e, K.Entails index (E e) (E' e)) :
    Valid A K index Q' E' P' program := by
  induction valid generalizing P' with
  | ret holds =>
      exact .ret fun d s store session p =>
        value _ d s store session (holds d s store session (weaker d s store session p))
  | throw holds =>
      exact .throw fun d s store session p =>
        error _ d s store session (holds d s store session (weaker d s store session p))
  | step N crashes stable carries _ ih =>
      refine .step N ?_ stable ?_ fun answer => ih answer (.refl _)
      · exact fun d s store session p => crashes d s store session (weaker d s store session p)
      · exact fun d s choice answer d' s' store session p =>
          carries d s choice answer d' s' store session (weaker d s store session p)

/-- Strengthen what holds before. -/
theorem before {P P' : Assertion Db Session} {program : Program Stmt ε α}
    (valid : Valid A K index Q E P program) (weaker : K.Entails index P' P) :
    Valid A K index Q E P' program :=
  valid.consequence weaker (fun _ => .refl _) (fun _ => .refl _)

/-- Weaken what holds after. -/
theorem after {P : Assertion Db Session} {Q' : α → Assertion Db Session}
    {E' : ε → Assertion Db Session} {program : Program Stmt ε α}
    (valid : Valid A K index Q E P program) (value : ∀ a, K.Entails index (Q a) (Q' a))
    (error : ∀ e, K.Entails index (E e) (E' e)) : Valid A K index Q' E' P program :=
  valid.consequence (.refl _) value error

/-- Sequential composition. -/
theorem bind {P : Assertion Db Session} {program : Program Stmt ε β}
    {rest : β → Program Stmt ε α} {N : β → Assertion Db Session}
    (first : Valid A K index N E P program)
    (second : ∀ value, Valid A K index Q E (N value) (rest value)) :
    Valid A K index Q E P (program.bind rest) := by
  induction first with
  | ret holds => exact (second _).before holds
  | throw holds => exact .throw holds
  | step N' crashes stable carries _ ih => exact .step N' crashes stable carries ih

/-- A handler takes over where the body ends in an error. -/
theorem handle {P : Assertion Db Session} {program : Program Stmt ε α}
    {handler : ε → Program Stmt ε α} {N : ε → Assertion Db Session}
    (body : Valid A K index Q N P program)
    (handles : ∀ error, Valid A K index Q E (N error) (handler error)) :
    Valid A K index Q E P (program.handle handler) := by
  induction body with
  | ret holds => exact .ret holds
  | throw holds => exact (handles _).before holds
  | step N' crashes stable carries _ ih => exact .step N' crashes stable carries ih

/-- One statement. -/
theorem perform {P : Assertion Db Session} {statement : Stmt α} (crashes : K.Crashes index P)
    (value : ∀ a, K.Stable index (Q a)) (error : ∀ e, K.Stable index (E e))
    (carries : K.Carries A index P statement (Answered Q E)) :
    Valid A K index Q E P (Program.perform statement) := by
  refine .step _ crashes ?_ carries ?_
  · intro answer
    cases answer with
    | ok a => exact value a
    | error e => exact error e
  · intro answer
    cases answer with
    | ok a => exact .ret (.refl _)
    | error e => exact .throw (.refl _)

/-- A program whose errors become values. -/
theorem attempt {P : Assertion Db Session} {program : Program Stmt ε α}
    {N : Except ε α → Assertion Db Session} {F : ε → Assertion Db Session}
    (valid : Valid A K index (fun a => N (.ok a)) (fun e => N (.error e)) P program) :
    Valid A K index N F P program.attempt := by
  have body : Valid A K index N (fun e => N (.error e)) P (program.bind fun a => .ret (.ok a)) :=
    valid.bind fun _ => .ret (.refl _)
  exact body.handle fun _ => .ret (.refl _)

/-- A choice between two programs. -/
theorem ite {P : Assertion Db Session} {condition : Prop} [Decidable condition]
    {yes no : Program Stmt ε α} (first : condition → Valid A K index Q E P yes)
    (second : ¬ condition → Valid A K index Q E P no) :
    Valid A K index Q E P (if condition then yes else no) := by
  by_cases holds : condition
  · simpa [holds] using first holds
  · simpa [holds] using second holds

/-- A value or an error that is already there. -/
theorem ofExcept {P : Assertion Db Session} {result : Except ε α}
    (value : ∀ a, result = .ok a → K.Entails index P (Q a))
    (error : ∀ e, result = .error e → K.Entails index P (E e)) :
    Valid A K index Q E P (Program.ofExcept result : Program Stmt ε α) := by
  cases result with
  | ok a => exact .ret (value a rfl)
  | error e => exact .throw (error e rfl)

/-- An assertion that every call keeps is kept by every program of calls. -/
theorem interpret {Stmt' : Type → Type u} {P : Assertion Db Session}
    {meaning : {γ : Type} → Stmt' γ → Program Stmt ε γ}
    (calls : ∀ {γ : Type} (call : Stmt' γ),
      Valid A K index (fun _ => P) (fun _ => P) P (meaning call))
    (program : Program Stmt' ε α) :
    Valid A K index (fun _ => P) (fun _ => P) P (program.interpret meaning) := by
  induction program with
  | ret value => exact .ret (.refl _)
  | throw error => exact .throw (.refl _)
  | step call next ih => exact (calls call).attempt.bind fun answer => ih answer

/-- An outline for each witness is an outline from the existence of one. -/
theorem exists_before {κ : Sort*} {P : κ → Assertion Db Session} {program : Program Stmt ε α}
    (valid : ∀ k, Valid A K index Q E (P k) program) :
    Valid A K index Q E (fun d s => ∃ k, P k d s) program := by
  induction program generalizing κ with
  | ret value =>
      refine .ret fun d s store session p => ?_
      obtain ⟨k, p⟩ := p
      exact (valid k).ret_inv d s store session p
  | throw error =>
      refine .throw fun d s store session p => ?_
      obtain ⟨k, p⟩ := p
      exact (valid k).throw_inv d s store session p
  | step statement next ih =>
      choose N stable carries follows using fun k => (valid k).step_inv.2
      refine .step (fun answer d s => ∃ k, N k answer d s) ?_ ?_ ?_
        fun answer => ih answer fun k => follows k answer
      · rintro d s store session ⟨k, p⟩
        exact (valid k).step_inv.1 d s store session p
      · rintro answer j d d' s other store store' guarantee session ⟨k, n⟩
        exact ⟨k, stable k answer j d d' s other store store' guarantee session n⟩
      · rintro d s choice answer d' s' store session ⟨k, p⟩ admitted executed
        obtain ⟨store', session', guarantee, n⟩ :=
          carries k d s choice answer d' s' store session p admitted executed
        exact ⟨store', session', guarantee, k, n⟩

/-- A fact that does not depend on the state is an assumption of the outline. -/
theorem given {φ : Prop} {P : Assertion Db Session} {program : Program Stmt ε α}
    (valid : φ → Valid A K index Q E P program) :
    Valid A K index Q E (fun d s => φ ∧ P d s) program :=
  (exists_before valid).before fun _ _ _ _ p => ⟨p.1, p.2⟩

end Valid

/-! ## What outlines give -/

namespace World

variable [DecidableEq ι]

/-- Every program of the world is somewhere in its outline. -/
structure Sound (A : Admission ι Stmt Db Session Choice) (K : Contract M)
    (Q : ι → α → Assertion Db Session) (E : ι → ε → Assertion Db Session)
    (w : World ι Stmt ε α Db Session) : Prop where
  store : K.store w.db
  session : ∀ index, K.session index w.db (w.task index).session
  outline : ∀ index program, (w.task index).program = some program →
    ∃ P : Assertion Db Session, K.Stable index P ∧ P w.db (w.task index).session ∧
      Valid A K index (Q index) (E index) P program
  crashed : ∀ index, (w.task index).program = none →
    K.crashed index w.db (w.task index).session

variable {A : Admission ι Stmt Db Session Choice} {K : Contract M} {Q : ι → α → Assertion Db Session}
  {E : ι → ε → Assertion Db Session} {w w' : World ι Stmt ε α Db Session}

omit [DecidableEq ι] in
/-- A world whose programs are all about to start is sound when each has an outline. -/
theorem Sound.start {db : Db} {session : Session} {programs : ι → Program Stmt ε α}
    {P : ι → Assertion Db Session} (store : K.store db)
    (sessions : ∀ index, K.session index db session)
    (stable : ∀ index, K.Stable index (P index)) (holds : ∀ index, P index db session)
    (valid : ∀ index, Valid A K index (Q index) (E index) (P index) (programs index)) :
    Sound A K Q E (World.start db session programs) where
  store := store
  session := sessions
  outline := by
    intro index program same
    cases same
    exact ⟨P index, stable index, holds index, valid index⟩
  crashed := by
    intro index same
    cases same

/-- What one task's step does, with the other tasks left alone, is sound. -/
theorem Sound.update (sound : Sound A K Q E w) {index : ι} {db : Db}
    {task : Task Stmt ε α Session} (store : K.store db) (session : K.session index db task.session)
    (guarantee : K.guarantee index w.db db)
    (outline : ∀ program, task.program = some program →
      ∃ P : Assertion Db Session, K.Stable index P ∧ P db task.session ∧
        Valid A K index (Q index) (E index) P program)
    (crashed : task.program = none → K.crashed index db task.session) :
    Sound A K Q E ⟨db, Function.update w.task index task⟩ where
  store := store
  session := by
    intro other
    by_cases same : other = index
    · subst same
      simpa using session
    · simpa [same] using K.session_stable (Ne.symm same) sound.store store guarantee
        (sound.session other)
  outline := by
    intro other program remaining
    by_cases same : other = index
    · subst same
      simpa using outline program (by simpa using remaining)
    · have before : (w.task other).program = some program := by simpa [same] using remaining
      obtain ⟨P, stable, holds, valid⟩ := sound.outline other program before
      refine ⟨P, stable, ?_, valid⟩
      simpa [same] using stable index w.db db _ (Ne.symm same) sound.store store guarantee
        (sound.session other) holds
  crashed := by
    intro other gone
    by_cases same : other = index
    · subst same
      simpa using crashed (by simpa using gone)
    · have before : (w.task other).program = none := by simpa [same] using gone
      simpa [same] using K.crashed_stable (Ne.symm same) sound.store store guarantee
        (sound.session other) (sound.crashed other before)

/-- **The step lemma of rely-guarantee reasoning.** An admitted action of a sound
world is one its program's guarantee allows, and leaves a sound world. -/
theorem Sound.steps (sound : Sound A K Q E w) (step : Steps M A w w') :
    Sound A K Q E w' ∧ ∃ index, K.guarantee index w.db w'.db := by
  obtain ⟨action, admitted, acted⟩ := step
  rcases act_cases acted with
    ⟨index, choice, β, statement, next, answer, db, session, rfl, remaining, executed, rfl⟩ |
    ⟨index, β, statement, next, rfl, remaining, rfl⟩
  · obtain ⟨P, _, holds, valid⟩ := sound.outline index _ remaining
    obtain ⟨_, N, stable, carries, follows⟩ := valid.step_inv
    have admitted' : A.admits index w.db (w.task index).session statement choice := by
      simpa [Admits, remaining] using admitted
    obtain ⟨store, session', guarantee, n⟩ := carries _ _ _ _ _ _ sound.store
      (sound.session index) holds admitted' executed
    refine ⟨sound.update store session' guarantee ?_ (by simp), index, guarantee⟩
    intro program same
    cases same
    exact ⟨N answer, stable answer, n, follows answer⟩
  · obtain ⟨P, _, holds, valid⟩ := sound.outline index _ remaining
    obtain ⟨store, session, guarantee⟩ := K.crash_keeps sound.store (sound.session index)
    refine ⟨sound.update store session guarantee (by simp) fun _ => ?_, index, guarantee⟩
    exact valid.step_inv.1 _ _ sound.store (sound.session index) holds

/-- Every run of a sound world is sound. -/
theorem Sound.runs (sound : Sound A K Q E w) (runs : Runs M A w w') : Sound A K Q E w' :=
  Runs.induction (Φ := Sound A K Q E) (fun _ _ sound step => (sound.steps step).1) sound runs

/-- What every guarantee gives for one step, a run gives for its ends. -/
theorem Sound.evolves (sound : Sound A K Q E w) (runs : Runs M A w w') {R : Db → Db → Prop}
    (refl : ∀ d, R d d) (trans : ∀ d d' d'', R d d' → R d' d'' → R d d'')
    (guarantee : ∀ index d d', K.store d → K.store d' → K.guarantee index d d' → R d d') :
    R w.db w'.db := by
  have both : Sound A K Q E w' ∧ R w.db w'.db := by
    refine Runs.induction (Φ := fun v => Sound A K Q E v ∧ R w.db v.db) ?_ ⟨sound, refl _⟩ runs
    rintro v v' ⟨sound, related⟩ step
    obtain ⟨sound', index, allowed⟩ := sound.steps step
    exact ⟨sound', trans _ _ _ related (guarantee index _ _ sound.store sound'.store allowed)⟩
  exact both.2

omit [DecidableEq ι] in
/-- What a crash of an unfinished program would leave. -/
theorem Sound.interrupted (sound : Sound A K Q E w) {index : ι} {γ : Type} {statement : Stmt γ}
    {next : Except ε γ → Program Stmt ε α}
    (remaining : (w.task index).program = some (.step statement next)) :
    K.crashed index (M.crash index w.db (w.task index).session).1
      (M.crash index w.db (w.task index).session).2 := by
  obtain ⟨P, _, holds, valid⟩ := sound.outline index _ remaining
  exact valid.step_inv.1 _ _ sound.store (sound.session index) holds

omit [DecidableEq ι] in
/-- What holds of the answer of a finished program. -/
theorem Sound.answered (sound : Sound A K Q E w) {index : ι} {result : Except ε α}
    (answered : (w.task index).answer = some result) :
    (∀ value, result = .ok value → Q index value w.db (w.task index).session) ∧
      (∀ error, result = .error error → E index error w.db (w.task index).session) := by
  have store := sound.store
  have session := sound.session index
  unfold Task.answer at answered
  split at answered
  · rename_i value remaining
    cases answered
    obtain ⟨P, _, holds, valid⟩ := sound.outline index _ remaining
    refine ⟨fun a same => ?_, nofun⟩
    cases same
    exact valid.ret_inv _ _ store session holds
  · rename_i error remaining
    cases answered
    obtain ⟨P, _, holds, valid⟩ := sound.outline index _ remaining
    refine ⟨nofun, fun e same => ?_⟩
    cases same
    exact valid.throw_inv _ _ store session holds
  · cases answered

end World
end Contracts
end LandVault.Library.Programs
