import LandVault.Library.Playing

/-!
# Programs that nothing disturbs

`Concludes` says that a program that runs alone ends, and how, for all choices of the
outside world that are admitted: each of its statements is carried out, whatever is chosen.
So it speaks of every run that is played (`Concludes.played`), and there is one
(`Concludes.exists_play`). The rules for the statements of a session, below, admit only
choices that let the connection work.
-/

set_option autoImplicit false

namespace LandVault.Library.Programs

universe u

section Concludes

variable {ι : Type} {Stmt : Type → Type u} {ε α β Db Session Choice : Type}

/-- For all choices among `C`, the program ends with `Q` of its value or `E` of its error. -/
def Concludes (M : Machine ι Stmt ε Db Session Choice) (C : Choice → Prop) (index : ι)
    (Q : α → Assertion Db Session) (E : ε → Assertion Db Session) :
    Program Stmt ε α → Assertion Db Session
  | .ret value => Q value
  | .throw error => E error
  | .step statement next => fun d s => ∀ choice, C choice → ∃ answer d' s',
      M.exec index d s statement choice = some (answer, d', s') ∧
        Concludes M C index Q E (next answer) d' s'

variable {M : Machine ι Stmt ε Db Session Choice} {C : Choice → Prop} {index : ι}
  {Q : α → Assertion Db Session} {E : ε → Assertion Db Session} {d : Db} {s : Session}

namespace Concludes

theorem mono {Q' : α → Assertion Db Session} {E' : ε → Assertion Db Session}
    {program : Program Stmt ε α} (concludes : Concludes M C index Q E program d s)
    (value : ∀ a d s, Q a d s → Q' a d s) (error : ∀ e d s, E e d s → E' e d s) :
    Concludes M C index Q' E' program d s := by
  induction program generalizing d s with
  | ret a => exact value a d s concludes
  | throw e => exact error e d s concludes
  | step statement next ih =>
      intro choice chosen
      obtain ⟨answer, d', s', executed, rest⟩ := concludes choice chosen
      exact ⟨answer, d', s', executed, ih answer rest⟩

theorem bind {N : β → Assertion Db Session} {program : Program Stmt ε β}
    {rest : β → Program Stmt ε α} (first : Concludes M C index N E program d s)
    (second : ∀ b d s, N b d s → Concludes M C index Q E (rest b) d s) :
    Concludes M C index Q E (program.bind rest) d s := by
  induction program generalizing d s with
  | ret b => exact second b d s first
  | throw e => exact first
  | step statement next ih =>
      intro choice chosen
      obtain ⟨answer, d', s', executed, after⟩ := first choice chosen
      exact ⟨answer, d', s', executed, ih answer after⟩

theorem handle {N : ε → Assertion Db Session} {program : Program Stmt ε α}
    {handler : ε → Program Stmt ε α} (body : Concludes M C index Q N program d s)
    (handles : ∀ e d s, N e d s → Concludes M C index Q E (handler e) d s) :
    Concludes M C index Q E (program.handle handler) d s := by
  induction program generalizing d s with
  | ret a => exact body
  | throw e => exact handles e d s body
  | step statement next ih =>
      intro choice chosen
      obtain ⟨answer, d', s', executed, after⟩ := body choice chosen
      exact ⟨answer, d', s', executed, ih answer after⟩

theorem perform {statement : Stmt α}
    (steps : ∀ choice, C choice → ∃ answer d' s',
      M.exec index d s statement choice = some (answer, d', s') ∧ Answered Q E answer d' s') :
    Concludes M C index Q E (.perform statement) d s := by
  intro choice chosen
  obtain ⟨answer, d', s', executed, answered⟩ := steps choice chosen
  refine ⟨answer, d', s', executed, ?_⟩
  cases answer with
  | ok a => exact answered
  | error e => exact answered

theorem ite {condition : Prop} [Decidable condition] {yes no : Program Stmt ε α}
    (first : condition → Concludes M C index Q E yes d s)
    (second : ¬ condition → Concludes M C index Q E no d s) :
    Concludes M C index Q E (if condition then yes else no) d s := by
  by_cases holds : condition
  · simpa [holds] using first holds
  · simpa [holds] using second holds

/-- Every run that is played ends so. -/
theorem played {choices : List Choice} {d' : Db} {s' : Session} {program : Program Stmt ε α}
    {result : Except ε α} (concludes : Concludes M C index Q E program d s)
    (chosen : ∀ choice ∈ choices, C choice)
    (played : play M index choices d s program = some (result, d', s')) :
    Answered Q E result d' s' := by
  induction choices generalizing d s program with
  | nil =>
      cases program with
      | ret value =>
          cases played
          exact concludes
      | throw error =>
          cases played
          exact concludes
      | step statement next => cases played
  | cons choice choices ih =>
      cases program with
      | ret value => cases played
      | throw error => cases played
      | step statement next =>
          obtain ⟨answer, d₁, s₁, executed, rest⟩ := concludes choice (chosen _ List.mem_cons_self)
          simp only [play, executed] at played
          exact ih rest (fun c member => chosen c (List.mem_cons_of_mem _ member)) played

/-- There is a run to play, if there is anything to choose. -/
theorem exists_play {choice : Choice} (admitted : C choice) {program : Program Stmt ε α}
    (concludes : Concludes M C index Q E program d s) :
    ∃ choices result d' s', (∀ c ∈ choices, C c) ∧
      play M index choices d s program = some (result, d', s') ∧ Answered Q E result d' s' := by
  induction program generalizing d s with
  | ret value => exact ⟨[], .ok value, d, s, by simp, rfl, concludes⟩
  | throw error => exact ⟨[], .error error, d, s, by simp, rfl, concludes⟩
  | step statement next ih =>
      obtain ⟨answer, d₁, s₁, executed, rest⟩ := concludes choice admitted
      obtain ⟨choices, result, d', s', chosen, ran, answered⟩ := ih answer rest
      refine ⟨choice :: choices, result, d', s', ?_, by simp only [play, executed, ran], answered⟩
      exact List.forall_mem_cons.mpr ⟨admitted, chosen⟩

end Concludes

end Concludes

end LandVault.Library.Programs

namespace LandVault.Library.ReadCommitted

open LandVault.Library.Programs

/-! ## The statements of a session -/

section Statements

variable {T W K Memo Env ε β : Type} [DecidableEq K] {E : Engine T W K Memo ε}
  {C : Choice Env → Prop} {Q : β → Assertion (Db Unit T K) (Session W Memo ε)}
  {X : ε → Assertion (Db Unit T K) (Session W Memo ε)} {db : Db Unit T K} {s : Session W Memo ε}

/-- A statement that reads, inside an open transaction. -/
theorem concludes_read {run : View T Memo Env → Except ε (Effect W Memo ε β)}
    (works : ∀ choice, C choice → choice.fails = false) (whole : s.broken = false)
    (active : s.active = true)
    (reads : ∀ choice, C choice → ∃ memo b,
      run ⟨E.view db s, s.memo, s.startedAt, choice.env⟩ = .ok ⟨memo, .ok b, none⟩ ∧
        Q b db { s with memo := memo }) :
    Concludes E.machine C () Q X (.perform (.query run)) db s := by
  refine .perform fun choice chosen => ?_
  obtain ⟨memo, b, ran, holds⟩ := reads choice chosen
  refine ⟨.ok b, db, { s with memo := memo }, ?_, holds⟩
  simp [Engine.machine, Engine.exec, whole, works choice chosen, Db.advance, Session.opened, active,
    ran, Engine.settle]

/-- A statement that reads, and opens the transaction where there is none. -/
theorem concludes_open {run : View T Memo Env → Except ε (Effect W Memo ε β)}
    (works : ∀ choice, C choice → choice.fails = false) (whole : s.broken = false)
    (reads : ∀ choice now, C choice → ∃ memo b,
      run ⟨E.view db s, s.memo, (s.opened now).startedAt, choice.env⟩ = .ok ⟨memo, .ok b, none⟩ ∧
        Q b (db.advance s choice.tick) { s.opened now with memo := memo }) :
    Concludes E.machine C () Q X (.perform (.query run)) db s := by
  refine .perform fun choice chosen => ?_
  obtain ⟨memo, b, ran, holds⟩ := reads choice (db.advance s choice.tick).clock chosen
  refine ⟨.ok b, _, _, ?_, holds⟩
  simp [Engine.machine, Engine.exec, whole, works choice chosen, ran, Engine.settle]

/-- A statement that is refused. -/
theorem concludes_raise {run : View T Memo Env → Except ε (Effect W Memo ε β)}
    (works : ∀ choice, C choice → choice.fails = false) (whole : s.broken = false)
    (active : s.active = true)
    (raises : ∀ choice, C choice → ∃ e,
      run ⟨E.view db s, s.memo, s.startedAt, choice.env⟩ = .error e ∧
        X e (db.release ()) (s.abort e none)) :
    Concludes E.machine C () Q X (.perform (.query run)) db s := by
  refine .perform fun choice chosen => ?_
  obtain ⟨e, ran, holds⟩ := raises choice chosen
  refine ⟨.error e, db.release (), s.abort e none, ?_, holds⟩
  simp [Engine.machine, Engine.exec, whole, works choice chosen, Db.advance, Session.opened, active,
    ran, refuse]

/-- A statement that writes: a unique entry can be taken. -/
theorem concludes_write {run : View T Memo Env → Except ε (Effect W Memo ε β)}
    (works : ∀ choice, C choice → choice.fails = false) (whole : s.broken = false)
    (active : s.active = true)
    (writes : ∀ choice, C choice → ∃ memo b w,
      run ⟨E.view db s, s.memo, s.startedAt, choice.env⟩ = .ok ⟨memo, .ok b, some w⟩ ∧
        (∀ k ∈ E.adds w, k ∈ E.keys (E.view db s) →
          X (E.violation k) (db.release ()) (s.abort (E.violation k) (some w))) ∧
        ((∀ k ∈ E.adds w, k ∉ E.keys (E.view db s)) →
          Q b (db.acquire () (E.guards w))
            { s with memo := memo, pending := s.pending ++ [w] })) :
    Concludes E.machine C () Q X (.perform (.query run)) db s := by
  refine .perform fun choice chosen => ?_
  obtain ⟨memo, b, w, ran, taken, free⟩ := writes choice chosen
  have unblocked : ∀ k, db.heldByOther () k = false := by simp [Db.heldByOther]
  cases conflict : E.conflict (E.view db s) w with
  | some k =>
      obtain ⟨added, present⟩ := E.conflict_eq_some conflict
      refine ⟨.error (E.violation k), _, _, ?_, taken k added present⟩
      simp [Engine.machine, Engine.exec, whole, works choice chosen, Db.advance, Session.opened,
        active, ran, Engine.settle, unblocked, conflict, refuse]
  | none =>
      refine ⟨.ok b, _, _, ?_, free (E.conflict_eq_none.mp conflict)⟩
      simp [Engine.machine, Engine.exec, whole, works choice chosen, Db.advance, Session.opened,
        active, ran, Engine.settle, unblocked, conflict]

/-- A value that the outside world supplies. -/
theorem concludes_choose {pick : Env → β} (holds : ∀ choice, C choice → Q (pick choice.env) db s) :
    Concludes E.machine C () Q X (.perform (.choose pick)) db s :=
  .perform fun choice chosen => ⟨.ok (pick choice.env), db, s, rfl, holds choice chosen⟩

/-- A statement in a session of its own that reads. -/
theorem concludes_peek {run : T → Env → Except ε (Option W × β)}
    (works : ∀ choice, C choice → choice.fails = false)
    (reads : ∀ choice, C choice → ∃ b, run db.tables choice.env = .ok (none, b) ∧ Q b db s) :
    Concludes E.machine C () Q X (.perform (.eager run)) db s := by
  refine .perform fun choice chosen => ?_
  obtain ⟨b, ran, holds⟩ := reads choice chosen
  refine ⟨.ok b, db, s, ?_, holds⟩
  simp [Engine.machine, Engine.exec, works choice chosen, ran]

/-- A statement in a session of its own that is refused. -/
theorem concludes_refused {run : T → Env → Except ε (Option W × β)}
    (works : ∀ choice, C choice → choice.fails = false)
    (raises : ∀ choice, C choice → ∃ e, run db.tables choice.env = .error e ∧ X e db s) :
    Concludes E.machine C () Q X (.perform (.eager run)) db s := by
  refine .perform fun choice chosen => ?_
  obtain ⟨e, ran, holds⟩ := raises choice chosen
  refine ⟨.error e, db, s, ?_, holds⟩
  simp [Engine.machine, Engine.exec, works choice chosen, ran]

/-- A statement in a session of its own that writes: nobody holds what it locks. -/
theorem concludes_apart {run : T → Env → Except ε (Option W × β)}
    (works : ∀ choice, C choice → choice.fails = false)
    (writes : ∀ choice, C choice → ∃ b w, run db.tables choice.env = .ok (some w, b) ∧
      (∀ k ∈ E.guards w, ((), k) ∉ db.locks) ∧
      (∀ k ∈ E.adds w, k ∈ E.keys db.tables → X (E.violation k) db s) ∧
      ((∀ k ∈ E.adds w, k ∉ E.keys db.tables) →
        Q b { db with tables := E.apply db.tables w } { s with durable := s.durable ++ [w] })) :
    Concludes E.machine C () Q X (.perform (.eager run)) db s := by
  refine .perform fun choice chosen => ?_
  obtain ⟨b, w, ran, free, taken, absent⟩ := writes choice chosen
  have unblocked : ∀ k ∈ E.guards w, ∀ holder : Unit, (holder, k) ∉ db.locks :=
    fun k guard _ => free k guard
  cases conflict : E.conflict db.tables w with
  | some k =>
      obtain ⟨added, present⟩ := E.conflict_eq_some conflict
      refine ⟨.error (E.violation k), db, s, ?_, taken k added present⟩
      simpa [Engine.machine, Engine.exec, works choice chosen, ran, conflict] using unblocked
  | none =>
      refine ⟨.ok b, _, _, ?_, absent (E.conflict_eq_none.mp conflict)⟩
      simpa [Engine.machine, Engine.exec, works choice chosen, ran, conflict] using unblocked

theorem concludes_commit {Q : Unit → Assertion (Db Unit T K) (Session W Memo ε)}
    (works : ∀ choice, C choice → choice.fails = false) (whole : s.broken = false)
    (idle : s.active = false → Q () db s)
    (committed : s.active = true → Q () { db.release () with tables := E.view db s }
      { s.close with durable := s.durable ++ s.pending, memo := E.settled s.memo }) :
    Concludes E.machine C () Q X (.perform (.commit : Statement T W Memo Env ε Unit)) db s := by
  refine .perform fun choice chosen => ?_
  cases active : s.active with
  | false =>
      refine ⟨.ok (), db, s, ?_, idle active⟩
      simp [Engine.machine, Engine.exec, whole, active]
  | true =>
      refine ⟨.ok (), _, _, ?_, committed active⟩
      simp [Engine.machine, Engine.exec, whole, active, works choice chosen]

theorem concludes_rollback {Q : Unit → Assertion (Db Unit T K) (Session W Memo ε)}
    (rolledBack : Q () (db.release ()) { s.close with memo := E.fresh }) :
    Concludes E.machine C () Q X (.perform (.rollback : Statement T W Memo Env ε Unit)) db s :=
  .perform fun _ _ => ⟨.ok (), _, _, rfl, rolledBack⟩

end Statements

end LandVault.Library.ReadCommitted
