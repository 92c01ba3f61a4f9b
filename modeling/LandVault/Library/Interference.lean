import Mathlib.Logic.Relation
import LandVault.Library.Programs

/-!
# What a program meets among others

An outline names an assertion for every point of a program. Where the assertions are
only what the answers so far have shown, it is simpler to compute them: `Meets` asks of
a program, for every way the others may change the store before each statement, that
each statement keeps the contract, and that a postcondition holds at the end. It is
defined by recursion on the program, and the facts that the answers give stay available
for what follows.

A program that meets its contract has an outline (`Meets.valid`), so the rules for worlds
apply to it. A program that runs alone, with the choices of the outside world listed in
advance, is a function of them (`play`).
-/

set_option autoImplicit false

namespace LandVault.Library.Programs

universe u

section Interference

variable {ι : Type} {Stmt : Type → Type u} {ε α β Db Session Choice : Type}
  {M : Machine ι Stmt ε Db Session Choice}

/-- One step of another program. -/
def Contract.Other (K : Contract M) (index : ι) (d d' : Db) : Prop :=
  ∃ j, j ≠ index ∧ K.store d ∧ K.store d' ∧ K.guarantee j d d'

/-- Any number of steps of other programs. -/
abbrev Contract.Rely (K : Contract M) (index : ι) : Db → Db → Prop :=
  Relation.ReflTransGen (K.Other index)

/-- Where there is one program, nothing happens beside it. -/
theorem Contract.Rely.eq_of_subsingleton [Subsingleton ι] {K : Contract M} {index : ι} {d d' : Db}
    (rely : K.Rely index d d') : d' = d := by
  induction rely with
  | refl => rfl
  | tail _ other _ =>
      obtain ⟨j, different, _⟩ := other
      exact absurd (Subsingleton.elim j index) different

/-- Whatever the others do before each of its statements, and whatever the outside world
chooses among `C`, the program keeps the contract and ends with `Q` of its value or `E` of
its error. -/
def Meets (A : Admission ι Stmt Db Session Choice) (C : Choice → Prop) (K : Contract M) (index : ι)
    (Q : α → Assertion Db Session) (E : ε → Assertion Db Session) :
    Program Stmt ε α → Assertion Db Session
  | .ret value => Q value
  | .throw error => E error
  | .step statement next => fun d s => ∀ d₁, K.Rely index d d₁ → K.store d₁ →
      K.session index d₁ s →
      K.crashed index (M.crash index d₁ s).1 (M.crash index d₁ s).2 ∧
        ∀ choice answer d' s', C choice → A.admits index d₁ s statement choice →
          M.exec index d₁ s statement choice = some (answer, d', s') →
          (K.store d' ∧ K.session index d' s' ∧ K.guarantee index d₁ d') ∧
            Meets A C K index Q E (next answer) d' s'

namespace Meets

variable {A : Admission ι Stmt Db Session Choice} {C : Choice → Prop} {K : Contract M} {index : ι}
  {Q : α → Assertion Db Session} {E : ε → Assertion Db Session} {d : Db} {s : Session}

/-- Weaken what the program ends with. -/
theorem mono {Q' : α → Assertion Db Session} {E' : ε → Assertion Db Session}
    {program : Program Stmt ε α} (meets : Meets A C K index Q E program d s)
    (value : ∀ a d s, Q a d s → Q' a d s) (error : ∀ e d s, E e d s → E' e d s) :
    Meets A C K index Q' E' program d s := by
  induction program generalizing d s with
  | ret a => exact value a d s meets
  | throw e => exact error e d s meets
  | step statement next ih =>
      intro d₁ rely store session
      obtain ⟨crashed, steps⟩ := meets d₁ rely store session
      refine ⟨crashed, fun choice answer d' s' chosen admitted executed => ?_⟩
      obtain ⟨keeps, rest⟩ := steps choice answer d' s' chosen admitted executed
      exact ⟨keeps, ih answer rest⟩

/-- Sequential composition. -/
theorem bind {N : β → Assertion Db Session} {program : Program Stmt ε β}
    {rest : β → Program Stmt ε α} (first : Meets A C K index N E program d s)
    (second : ∀ b d s, N b d s → Meets A C K index Q E (rest b) d s) :
    Meets A C K index Q E (program.bind rest) d s := by
  induction program generalizing d s with
  | ret b => exact second b d s first
  | throw e => exact first
  | step statement next ih =>
      intro d₁ rely store session
      obtain ⟨crashed, steps⟩ := first d₁ rely store session
      refine ⟨crashed, fun choice answer d' s' chosen admitted executed => ?_⟩
      obtain ⟨keeps, after⟩ := steps choice answer d' s' chosen admitted executed
      exact ⟨keeps, ih answer after⟩

/-- A handler takes over where the body ends in an error. -/
theorem handle {N : ε → Assertion Db Session} {program : Program Stmt ε α}
    {handler : ε → Program Stmt ε α} (body : Meets A C K index Q N program d s)
    (handles : ∀ e d s, N e d s → Meets A C K index Q E (handler e) d s) :
    Meets A C K index Q E (program.handle handler) d s := by
  induction program generalizing d s with
  | ret a => exact body
  | throw e => exact handles e d s body
  | step statement next ih =>
      intro d₁ rely store session
      obtain ⟨crashed, steps⟩ := body d₁ rely store session
      refine ⟨crashed, fun choice answer d' s' chosen admitted executed => ?_⟩
      obtain ⟨keeps, after⟩ := steps choice answer d' s' chosen admitted executed
      exact ⟨keeps, ih answer after⟩

/-- One statement. -/
theorem perform {statement : Stmt α}
    (steps : ∀ d₁, K.Rely index d d₁ → K.store d₁ → K.session index d₁ s →
      K.crashed index (M.crash index d₁ s).1 (M.crash index d₁ s).2 ∧
        ∀ choice answer d' s', C choice → A.admits index d₁ s statement choice →
          M.exec index d₁ s statement choice = some (answer, d', s') →
          (K.store d' ∧ K.session index d' s' ∧ K.guarantee index d₁ d') ∧
            Answered Q E answer d' s') :
    Meets A C K index Q E (.perform statement) d s := by
  intro d₁ rely store session
  obtain ⟨crashed, after⟩ := steps d₁ rely store session
  refine ⟨crashed, fun choice answer d' s' chosen admitted executed => ?_⟩
  obtain ⟨keeps, answered⟩ := after choice answer d' s' chosen admitted executed
  refine ⟨keeps, ?_⟩
  cases answer with
  | ok a => exact answered
  | error e => exact answered

theorem ofExcept {result : Except ε α} (value : ∀ a, result = .ok a → Q a d s)
    (error : ∀ e, result = .error e → E e d s) :
    Meets A C K index Q E (.ofExcept result) d s := by
  cases result with
  | ok a => exact value a rfl
  | error e => exact error e rfl

theorem ite {condition : Prop} [Decidable condition] {yes no : Program Stmt ε α}
    (first : condition → Meets A C K index Q E yes d s)
    (second : ¬ condition → Meets A C K index Q E no d s) :
    Meets A C K index Q E (if condition then yes else no) d s := by
  by_cases holds : condition
  · simpa [holds] using first holds
  · simpa [holds] using second holds

end Meets

/-! ## Alone -/

/-- The contract that asks for nothing. -/
def Contract.free : Contract M where
  store := fun _ => True
  session := fun _ _ _ => True
  guarantee := fun _ _ _ => True
  crashed := fun _ _ _ => True
  session_stable := fun _ _ _ _ _ => trivial
  crashed_stable := fun _ _ _ _ _ _ => trivial
  crash_keeps := fun _ _ => ⟨trivial, trivial, trivial⟩

section Alone

variable {A : Admission ι Stmt Db Session Choice} {C : Choice → Prop} {K : Contract M} {index : ι}
  {Q Q' : α → Assertion Db Session} {E E' : ε → Assertion Db Session} {d : Db} {s : Session}
  {program : Program Stmt ε α}

/-- Both hold at the end. -/
theorem Meets.and (first : Meets A C K index Q E program d s)
    (second : Meets A C K index Q' E' program d s) :
    Meets A C K index (fun a d s => Q a d s ∧ Q' a d s) (fun e d s => E e d s ∧ E' e d s) program
      d s := by
  induction program generalizing d s with
  | ret a => exact ⟨first, second⟩
  | throw e => exact ⟨first, second⟩
  | step statement next ih =>
      intro d₁ rely store session
      obtain ⟨crashed, steps⟩ := first d₁ rely store session
      refine ⟨crashed, fun choice answer d' s' chosen admitted executed => ?_⟩
      obtain ⟨keeps, rest⟩ := steps choice answer d' s' chosen admitted executed
      obtain ⟨_, rest'⟩ := (second d₁ rely store session).2 choice answer d' s' chosen admitted
        executed
      exact ⟨keeps, ih answer rest rest'⟩

/-- Where there is one program, its contract holds all along. -/
theorem Meets.alone [Subsingleton ι] (meets : Meets A C K index Q E program d s) (store : K.store d)
    (session : K.session index d s) :
    Meets A C (Contract.free (M := M)) index
      (fun a d s => Q a d s ∧ K.store d ∧ K.session index d s) E program d s := by
  induction program generalizing d s with
  | ret a => exact ⟨meets, store, session⟩
  | throw e => exact meets
  | step statement next ih =>
      intro d₁ rely _ _
      obtain rfl := rely.eq_of_subsingleton
      refine ⟨trivial, fun choice answer d' s' chosen admitted executed => ?_⟩
      obtain ⟨⟨store', session', _⟩, rest⟩ :=
        (meets d₁ .refl store session).2 choice answer d' s' chosen admitted executed
      exact ⟨⟨trivial, trivial, trivial⟩, ih answer rest store' session'⟩

end Alone

/-! ## From what is met to an outline -/

/-- The assertion held at some earlier time, and only others have taken steps since. -/
def Contract.Since (K : Contract M) (index : ι) (P : Assertion Db Session) :
    Assertion Db Session :=
  fun d s => ∃ d₀, K.Rely index d₀ d ∧ P d₀ s

theorem Contract.Since.of_now {K : Contract M} {index : ι} {P : Assertion Db Session} {d : Db}
    {s : Session} (holds : P d s) : K.Since index P d s :=
  ⟨d, .refl, holds⟩

theorem Contract.stable_since {K : Contract M} {index : ι} {P : Assertion Db Session} :
    K.Stable index (K.Since index P) := by
  rintro j d d' s different store store' guarantee _ ⟨d₀, rely, holds⟩
  exact ⟨d₀, rely.tail ⟨j, different, store, store', guarantee⟩, holds⟩

/-- **A program that meets its contract has an outline**, whose assertions are what is
left to meet. -/
theorem Meets.valid {A : Admission ι Stmt Db Session Choice} {K : Contract M} {index : ι}
    {Q : α → Assertion Db Session} {E : ε → Assertion Db Session} {P : Assertion Db Session}
    {program : Program Stmt ε α}
    (meets : K.Entails index P (K.Since index (Meets A (fun _ => True) K index Q E program))) :
    Valid A K index (fun a => K.Since index (Q a)) (fun e => K.Since index (E e)) P program := by
  induction program generalizing P with
  | ret a => exact .ret meets
  | throw e => exact .throw meets
  | step statement next ih =>
      refine .step (fun answer => K.Since index (Meets A (fun _ => True) K index Q E (next answer)))
        ?_ (fun _ => Contract.stable_since) ?_ fun answer => ih answer (.refl _)
      · intro d s store session p
        obtain ⟨d₀, rely, met⟩ := meets d s store session p
        exact (met d rely store session).1
      · intro d s choice answer d' s' store session p admitted executed
        obtain ⟨d₀, rely, met⟩ := meets d s store session p
        obtain ⟨⟨store', session', guarantee⟩, rest⟩ :=
          (met d rely store session).2 choice answer d' s' trivial admitted executed
        exact ⟨store', session', guarantee, .of_now rest⟩

/-! ## Programs that run alone -/

/-- Run a program by itself, with one choice of the outside world for each of its
statements. -/
def play (M : Machine ι Stmt ε Db Session Choice) (index : ι) :
    List Choice → Db → Session → Program Stmt ε α → Option (Except ε α × Db × Session)
  | [], d, s, .ret value => some (.ok value, d, s)
  | [], d, s, .throw error => some (.error error, d, s)
  | choice :: choices, d, s, .step statement next =>
      match M.exec index d s statement choice with
      | some (answer, d', s') => play M index choices d' s' (next answer)
      | none => none
  | _, _, _, _ => none

/-- What a program does by itself, it can do while the other programs of its world wait. -/
theorem reaches_of_play [DecidableEq ι] {index : ι} {choices : List Choice}
    {w : World ι Stmt ε α Db Session} {program : Program Stmt ε α} {result : Except ε α} {d' : Db}
    {s' : Session} (remaining : (w.task index).program = some program)
    (played : play M index choices w.db (w.task index).session program = some (result, d', s')) :
    World.Reaches M w ⟨d', Function.update w.task index ⟨s', some (.ofExcept result)⟩⟩ := by
  induction choices generalizing w program with
  | nil =>
      have same : Function.update w.task index ⟨(w.task index).session, some program⟩ = w.task := by
        rw [← remaining]
        exact Function.update_eq_self index w.task
      cases program with
      | ret value =>
          cases played
          exact (congrArg (World.mk w.db) same).symm ▸ .refl
      | throw error =>
          cases played
          exact (congrArg (World.mk w.db) same).symm ▸ .refl
      | step statement next => cases played
  | cons choice choices ih =>
      cases program with
      | ret value => cases played
      | throw error => cases played
      | step statement next =>
          simp only [play] at played
          split at played
          · rename_i answer d₁ s₁ executed
            have acted : w.act M (.step index choice) =
                some ⟨d₁, Function.update w.task index ⟨s₁, some (next answer)⟩⟩ := by
              simp only [World.act, remaining, executed]
            let w₁ : World ι Stmt ε α Db Session :=
              ⟨d₁, Function.update w.task index ⟨s₁, some (next answer)⟩⟩
            have remaining₁ : (w₁.task index).program = some (next answer) := by simp [w₁]
            have rest := ih remaining₁ (by simpa [w₁] using played)
            simp only [w₁, Function.update_idem] at rest
            exact .head ⟨_, World.admits_always w _, acted⟩ rest
          · cases played

/-- What a program that meets its contract does when it runs by itself. -/
theorem Meets.played {C : Choice → Prop} {K : Contract M} {index : ι}
    {Q : α → Assertion Db Session} {E : ε → Assertion Db Session} {choices : List Choice} {d d' : Db}
    {s s' : Session} {program : Program Stmt ε α} {result : Except ε α}
    (meets : Meets .always C K index Q E program d s) (store : K.store d)
    (session : K.session index d s) (chosen : ∀ choice ∈ choices, C choice)
    (played : play M index choices d s program = some (result, d', s')) :
    K.store d' ∧ K.session index d' s' ∧ Answered Q E result d' s' := by
  induction choices generalizing d s program with
  | nil =>
      cases program with
      | ret value =>
          cases played
          exact ⟨store, session, meets⟩
      | throw error =>
          cases played
          exact ⟨store, session, meets⟩
      | step statement next => cases played
  | cons choice choices ih =>
      cases program with
      | ret value => cases played
      | throw error => cases played
      | step statement next =>
          simp only [play] at played
          split at played
          · rename_i answer d₁ s₁ executed
            obtain ⟨⟨store', session', _⟩, rest⟩ := (meets d .refl store session).2 choice answer d₁
              s₁ (chosen _ List.mem_cons_self) trivial executed
            exact ih rest store' session' (fun c member => chosen c (List.mem_cons_of_mem _ member))
              played
          · cases played

end Interference
end LandVault.Library.Programs
