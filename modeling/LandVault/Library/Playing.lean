import LandVault.Library.Statements

/-!
# Playing a program

A program that runs alone is a function of the choices of the outside world (`play`).
The rules follow the program, so that a run is played without evaluating the values that
only pass through it; a statement of a session is played by what it answers in the state
it is met in.
-/

set_option autoImplicit false

namespace LandVault.Library.Programs

universe u

theorem Program.bind_assoc {Stmt : Type → Type u} {ε α β γ : Type} (program : Program Stmt ε α)
    (next : α → Program Stmt ε β) (rest : β → Program Stmt ε γ) :
    (program.bind next).bind rest = program.bind fun a => (next a).bind rest := by
  induction program with
  | ret value => rfl
  | throw error => rfl
  | step statement after ih =>
      simp only [Program.bind]
      congr 1
      funext answer
      exact ih answer

section Play

variable {ι : Type} {Stmt : Type → Type u} {ε α β Db Session Choice : Type}
  {M : Machine ι Stmt ε Db Session Choice} {index : ι} {choices rest : List Choice} {d d' : Db}
  {s s' : Session}

theorem play_bind {program : Program Stmt ε β} {next : β → Program Stmt ε α} {b : β}
    (first : play M index choices d s program = some (.ok b, d', s')) :
    play M index (choices ++ rest) d s (program.bind next) =
      play M index rest d' s' (next b) := by
  induction choices generalizing d s program with
  | nil =>
      cases program with
      | ret value =>
          cases first
          rfl
      | throw error => cases first
      | step statement next => cases first
  | cons choice choices ih =>
      cases program with
      | ret value => cases first
      | throw error => cases first
      | step statement after =>
          simp only [play] at first
          split at first
          · rename_i answer d₁ s₁ executed
            simp only [Program.bind, List.cons_append, play, executed]
            exact ih first
          · cases first

/-- A run that ends with a value has played the first part to a value of its own. -/
theorem exists_play_bind {program : Program Stmt ε β} {next : β → Program Stmt ε α} {a : α}
    (played : play M index choices d s (program.bind next) = some (.ok a, d', s')) :
    ∃ before after b d₁ s₁, choices = before ++ after ∧
      play M index before d s program = some (.ok b, d₁, s₁) ∧
      play M index after d₁ s₁ (next b) = some (.ok a, d', s') := by
  induction choices generalizing d s program with
  | nil =>
      cases program with
      | ret value => exact ⟨[], [], value, d, s, rfl, rfl, played⟩
      | throw error => cases played
      | step statement after => cases played
  | cons choice choices ih =>
      cases program with
      | ret value => exact ⟨[], choice :: choices, value, d, s, rfl, rfl, played⟩
      | throw error => cases played
      | step statement after =>
          simp only [Program.bind, play] at played
          split at played
          · rename_i answer d₁ s₁ executed
            obtain ⟨before, rest, b, d₂, s₂, rfl, first, second⟩ := ih played
            refine ⟨choice :: before, rest, b, d₂, s₂, rfl, ?_, second⟩
            simp only [play, executed]
            exact first
          · cases played

/-- A handler around a program that has not raised yet. -/
theorem play_bind_handle {program : Program Stmt ε β} {next : β → Program Stmt ε α}
    {handler : ε → Program Stmt ε α} {b : β}
    (first : play M index choices d s program = some (.ok b, d', s')) :
    play M index (choices ++ rest) d s ((program.bind next).handle handler) =
      play M index rest d' s' ((next b).handle handler) := by
  induction choices generalizing d s program with
  | nil =>
      cases program with
      | ret value =>
          cases first
          rfl
      | throw error => cases first
      | step statement next => cases first
  | cons choice choices ih =>
      cases program with
      | ret value => cases first
      | throw error => cases first
      | step statement after =>
          simp only [play] at first
          split at first
          · rename_i answer d₁ s₁ executed
            simp only [Program.bind, Program.handle, List.cons_append, play, executed]
            exact ih first
          · cases first

/-- What follows has no statement. -/
theorem play_bind_last {program : Program Stmt ε β} {next : β → Program Stmt ε α} {b : β}
    (first : play M index choices d s program = some (.ok b, d', s')) :
    play M index choices d s (program.bind next) = play M index [] d' s' (next b) := by
  have played := @play_bind _ _ _ _ _ _ _ _ M index choices [] _ _ _ _ program next b first
  rwa [List.append_nil] at played

theorem play_bind_throw {program : Program Stmt ε β} {next : β → Program Stmt ε α} {e : ε}
    (first : play M index choices d s program = some (.error e, d', s')) :
    play M index (choices ++ rest) d s (program.bind next) =
      play M index rest d' s' (.throw e) := by
  induction choices generalizing d s program with
  | nil =>
      cases program with
      | ret value => cases first
      | throw error =>
          cases first
          rfl
      | step statement next => cases first
  | cons choice choices ih =>
      cases program with
      | ret value => cases first
      | throw error => cases first
      | step statement after =>
          simp only [play] at first
          split at first
          · rename_i answer d₁ s₁ executed
            simp only [Program.bind, List.cons_append, play, executed]
            exact ih first
          · cases first

/-- An error ends the whole program. -/
theorem play_bind_error {program : Program Stmt ε β} {next : β → Program Stmt ε α} {e : ε}
    (first : play M index choices d s program = some (.error e, d', s')) :
    play M index choices d s (program.bind next) = some (.error e, d', s') := by
  have played := @play_bind_throw _ _ _ _ _ _ _ _ M index choices [] _ _ _ _ program next e first
  rwa [List.append_nil] at played

/-- A handler takes over. -/
theorem play_handle {program : Program Stmt ε α} {handler : ε → Program Stmt ε α} {e : ε}
    (body : play M index choices d s program = some (.error e, d', s')) :
    play M index (choices ++ rest) d s (program.handle handler) =
      play M index rest d' s' (handler e) := by
  induction choices generalizing d s program with
  | nil =>
      cases program with
      | ret value => cases body
      | throw error =>
          cases body
          rfl
      | step statement next => cases body
  | cons choice choices ih =>
      cases program with
      | ret value => cases body
      | throw error => cases body
      | step statement after =>
          simp only [play] at body
          split at body
          · rename_i answer d₁ s₁ executed
            simp only [Program.handle, List.cons_append, play, executed]
            exact ih body
          · cases body

/-- A handler has nothing to do. -/
theorem play_handle_ok {program : Program Stmt ε α} {handler : ε → Program Stmt ε α} {a : α}
    (body : play M index choices d s program = some (.ok a, d', s')) :
    play M index choices d s (program.handle handler) = some (.ok a, d', s') := by
  induction choices generalizing d s program with
  | nil =>
      cases program with
      | ret value => exact body
      | throw error => cases body
      | step statement next => cases body
  | cons choice choices ih =>
      cases program with
      | ret value => cases body
      | throw error => cases body
      | step statement after =>
          simp only [play] at body
          split at body
          · rename_i answer d₁ s₁ executed
            simp only [Program.handle, play, executed]
            exact ih body
          · cases body

theorem play_perform {statement : Stmt α} {choice : Choice} {answer : Except ε α}
    (executed : M.exec index d s statement choice = some (answer, d', s')) :
    play M index [choice] d s (.perform statement) = some (answer, d', s') := by
  simp only [Program.perform, play, executed]
  cases answer <;> rfl

/-- A program ends after as many statements as it has: with more choices, or fewer, it is
not played to its end. -/
theorem play_prefix {program : Program Stmt ε α} {result result' : Except ε α × Db × Session}
    (played : play M index choices d s program = some result)
    (played' : play M index (choices ++ rest) d s program = some result') : rest = [] := by
  induction choices generalizing d s program with
  | nil =>
      cases rest with
      | nil => rfl
      | cons choice rest =>
          cases program with
          | ret value => cases played'
          | throw error => cases played'
          | step statement next => cases played
  | cons choice choices ih =>
      cases program with
      | ret value => cases played
      | throw error => cases played
      | step statement next =>
          simp only [List.cons_append, play] at played played'
          split at played
          · rename_i answer d₁ s₁ executed
            rw [executed] at played'
            exact ih played played'
          · cases played

end Play

end LandVault.Library.Programs

namespace LandVault.Library.ReadCommitted

open LandVault.Library.Programs

section Statements

variable {ι T W K Memo Env ε β : Type} [DecidableEq ι] [DecidableEq K]
  {E : Engine T W K Memo ε} {index : ι} {db : Db ι T K} {s : Session W Memo ε}
  {choice : Choice Env}

/-- A statement that answers inside an open transaction. -/
theorem play_read {run : View T Memo Env → Except ε (Effect W Memo ε β)} {memo : Memo} {b : β}
    (whole : s.broken = false) (active : s.active = true) (works : choice.fails = false)
    (ran : run ⟨E.view db s, s.memo, s.startedAt, choice.env⟩ = .ok ⟨memo, .ok b, none⟩) :
    play E.machine index [choice] db s (.perform (.query run)) =
      some (.ok b, db, { s with memo := memo }) := by
  refine play_perform ?_
  simp [Engine.machine, Engine.exec, whole, works, Db.advance, Session.opened, active, ran,
    Engine.settle]

/-- A statement that raises inside an open transaction. -/
theorem play_raise {run : View T Memo Env → Except ε (Effect W Memo ε β)} {e : ε}
    (whole : s.broken = false) (active : s.active = true) (works : choice.fails = false)
    (ran : run ⟨E.view db s, s.memo, s.startedAt, choice.env⟩ = .error e) :
    play E.machine index [choice] db s (.perform (.query run)) =
      some (.error e, db.release index, s.abort e none) := by
  refine play_perform ?_
  simp [Engine.machine, Engine.exec, whole, works, Db.advance, Session.opened, active, ran, refuse]

/-- A value that the outside world supplies. -/
theorem play_choose {pick : Env → β} :
    play E.machine index [choice] db s (.perform (.choose pick)) =
      some (.ok (pick choice.env), db, s) := rfl

/-- A statement of its own that reads. -/
theorem play_eager_read {run : T → Env → Except ε (Option W × β)} {b : β}
    (works : choice.fails = false) (ran : run db.tables choice.env = .ok (none, b)) :
    play E.machine index [choice] db s (.perform (.eager run)) = some (.ok b, db, s) := by
  refine play_perform ?_
  simp [Engine.machine, Engine.exec, works, ran]

/-- A statement of its own that writes. -/
theorem play_eager_write {run : T → Env → Except ε (Option W × β)} {w : W} {b : β}
    (works : choice.fails = false) (ran : run db.tables choice.env = .ok (some w, b))
    (free : db.locks = []) (absent : ∀ k ∈ E.adds w, k ∉ E.keys db.tables) :
    play E.machine index [choice] db s (.perform (.eager run)) =
      some (.ok b, { db with tables := E.apply db.tables w },
        { s with durable := s.durable ++ [w] }) := by
  refine play_perform ?_
  simp [Engine.machine, Engine.exec, works, ran, free, E.conflict_eq_none.mpr absent]

/-- The end of a transaction. -/
theorem play_commit (whole : s.broken = false) (active : s.active = true)
    (works : choice.fails = false) :
    play E.machine index [choice] db s (.perform .commit) =
      some (.ok (), { db.release index with tables := E.view db s },
        { s.close with durable := s.durable ++ s.pending, memo := E.settled s.memo }) := by
  refine play_perform ?_
  simp [Engine.machine, Engine.exec, whole, works, active]

end Statements

end LandVault.Library.ReadCommitted
