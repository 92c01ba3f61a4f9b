import LandVault.Library.Interference

/-!
# What every statement of a program has

Some facts about a program are facts about its statements one by one, whatever they are
answered. `Every` says so by recursion on the program, and composes as programs do. Where
each such statement keeps an assertion, the program keeps it (`Every.meets`).
-/

set_option autoImplicit false

namespace LandVault.Library.Programs

universe u

variable {Stmt : Type → Type u} {ε α β : Type} {L L' : {β : Type} → Stmt β → Prop}

/-- Every statement that the program comes to, whatever is answered, has `L`. -/
def Every (L : {β : Type} → Stmt β → Prop) : Program Stmt ε α → Prop
  | .ret _ | .throw _ => True
  | .step statement next => L statement ∧ ∀ answer, Every L (next answer)

namespace Every

theorem ret {a : α} : Every L (.ret a : Program Stmt ε α) := trivial

theorem throw {e : ε} : Every L (.throw e : Program Stmt ε α) := trivial

theorem bind {program : Program Stmt ε β} {rest : β → Program Stmt ε α}
    (first : Every L program) (second : ∀ b, Every L (rest b)) : Every L (program.bind rest) := by
  induction program with
  | ret b => exact second b
  | throw e => trivial
  | step statement next ih => exact ⟨first.1, fun answer => ih answer (first.2 answer)⟩

/-- What follows an error is never come to. -/
theorem fails {γ : Type} {program : Program Stmt ε β} {e : ε} {rest : γ → Program Stmt ε α}
    (first : Every L program) : Every L ((program.bind fun _ => .throw e).bind rest) := by
  induction program with
  | ret b => trivial
  | throw e => trivial
  | step statement next ih => exact ⟨first.1, fun answer => ih answer (first.2 answer)⟩

theorem handle {program : Program Stmt ε α} {handler : ε → Program Stmt ε α}
    (body : Every L program) (handles : ∀ e, Every L (handler e)) :
    Every L (program.handle handler) := by
  induction program with
  | ret a => trivial
  | throw e => exact handles e
  | step statement next ih => exact ⟨body.1, fun answer => ih answer (body.2 answer)⟩

theorem ofExcept (result : Except ε α) : Every L (.ofExcept result : Program Stmt ε α) := by
  cases result <;> trivial

theorem perform {statement : Stmt α} (has : L statement) :
    Every L (.perform statement : Program Stmt ε α) :=
  ⟨has, ofExcept⟩

theorem ite {condition : Prop} [Decidable condition] {yes no : Program Stmt ε α}
    (first : Every L yes) (second : Every L no) : Every L (if condition then yes else no) := by
  by_cases holds : condition
  · simpa [holds] using first
  · simpa [holds] using second

theorem imp {program : Program Stmt ε α} (every : Every L program)
    (implies : ∀ {β : Type} (statement : Stmt β), L statement → L' statement) :
    Every L' program := by
  induction program with
  | ret a => trivial
  | throw e => trivial
  | step statement next ih => exact ⟨implies statement every.1, fun answer => ih answer (every.2 answer)⟩

section Meets

variable {ι Db Session Choice : Type} {M : Machine ι Stmt ε Db Session Choice}
  {A : Admission ι Stmt Db Session Choice} {C : Choice → Prop} {K : Contract M} {index : ι}

/-- A program whose statements all keep an assertion keeps it. -/
theorem meets {S : Assertion Db Session}
    (each : ∀ {β : Type} (statement : Stmt β) db s, L statement → S db s →
      Meets A C K index (fun _ => S) (fun _ => S) (.perform statement) db s)
    {program : Program Stmt ε α} (every : Every L program) {db : Db} {s : Session} (holds : S db s) :
    Meets A C K index (fun _ => S) (fun _ => S) program db s := by
  induction program generalizing db s with
  | ret a => exact holds
  | throw e => exact holds
  | step statement next ih =>
      intro d rely store session
      obtain ⟨crashed, steps⟩ := each statement db s every.1 holds d rely store session
      refine ⟨crashed, fun choice answer d' s' chosen admitted executed => ?_⟩
      obtain ⟨keeps, after⟩ := steps choice answer d' s' chosen admitted executed
      refine ⟨keeps, ih answer (every.2 answer) ?_⟩
      cases answer <;> exact after

end Meets

end Every
end LandVault.Library.Programs
