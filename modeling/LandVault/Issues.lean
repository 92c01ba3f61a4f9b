import LandVault.Commits
import LandVault.Library.Wherever

/-!
# Statements and errors, wherever a request runs

Which writes the operations of a mapped class issue, and which errors they end with,
whatever the tables hold and whatever the session remembers. An UPDATE writes the columns
that differ over the row that it finds; the errors are those of the database, of the
connection and of the session.
-/

set_option autoImplicit false

namespace LandVault

open Kernel Kernel.Audit Library.Programs Library.ReadCommitted Python

/-! ## Errors of the ports -/

/-- The exceptions of the database and of its session, of a repository that misses a row,
and of a service outside the database. -/
inductive FromPort : PyExc → Prop where
  | refusal {e : PyExc} (refusal : e.isRefusal = true) : FromPort e
  | disconnected : FromPort .disconnected
  | pendingRollback : FromPort .pendingRollback
  | multipleResultsFound : FromPort .multipleResultsFound
  | staleData : FromPort .staleData
  | notFound (name id : String) : FromPort (notFoundError name id)
  | outside (message : String) : FromPort (.outside message)

/-! ## Requests -/

/-- Transactions whose writes are all allowed, one by one. -/
abbrev writing (ok : Write → Prop) : Discipline engine :=
  committing (fun ws => ∀ w ∈ ws, ok w) (by simp)

/-- Wherever it runs, with choices among `C`, the request writes only what is allowed, and
ends with `Q` of its value or `X` of its error. -/
abbrev Issues {ι α : Type} [DecidableEq ι] (ok : Write → Prop) (C : Choice Env → Prop) (index : ι)
    (Q : α → Prop) (X : PyExc → Prop) (request : Request α) : Prop :=
  Wherever (postgres ι) C index ((writing ok).Lawful ok) Q X request

section Rules

variable {ι α β : Type} [DecidableEq ι] {ok : Write → Prop} {C : Choice Env → Prop} {index : ι}
  {Q : α → Prop} {X : PyExc → Prop}

/-- A statement inside the session. -/
theorem issues_query {run : View Tables Memo Env → Except PyExc (Effect Write Memo PyExc α)}
    (ports : ∀ e, FromPort e → X e)
    (errors : ∀ v e, (run v = .error e ∨ ∃ memo w, run v = .ok ⟨memo, .error e, w⟩) → FromPort e)
    (values : ∀ v memo a w, run v = .ok ⟨memo, .ok a, w⟩ → Q a)
    (writes : ∀ v memo a w, run v = .ok ⟨memo, .ok a, some w⟩ → Stands v.tables w ∧ ok w) :
    Issues ok C index Q X (.perform (.query run)) := by
  refine wherever_query writes (ports _ .pendingRollback) ?_ values
  intro v e w raised
  cases raised with
  | disconnected => exact ports _ .disconnected
  | run raised => exact ports e (errors _ e (.inl raised))
  | answer raised => exact ports e (errors _ e (.inr ⟨_, _, raised⟩))
  | violation => exact ports _ (.refusal rfl)

theorem issues_choose (pick : Env → α) :
    Issues ok C index (fun a => ∃ choice, C choice ∧ a = pick choice.env) X (choose pick) :=
  wherever_choose trivial

theorem issues_commit (ports : ∀ e, FromPort e → X e) :
    Issues ok C index (fun _ => True) X Kernel.commit :=
  wherever_commit trivial (ports _ .pendingRollback) (ports _ .disconnected)

theorem issues_rollback : Issues ok C index (fun _ => True) X Kernel.rollback :=
  wherever_rollback trivial

theorem issues_setConfig (ports : ∀ e, FromPort e → X e) (scope : Scope) :
    Issues ok C index (fun _ => True) X (setConfig scope) := by
  refine issues_query ports ?_ (fun _ _ _ _ _ => trivial) ?_
  · rintro v e (raised | ⟨memo, w, raised⟩) <;> cases raised
  · intro v memo a w ran
    cases ran

/-! ## Mapped classes -/

theorem issues_get (ports : ∀ e, FromPort e → X e) (e : Entity) (key : e.Id) :
    Issues ok C index (fun _ => True) X (e.mapper.get key) := by
  refine issues_query ports ?_ (fun _ _ _ _ _ => trivial) ?_
  · rintro v error (raised | ⟨memo, w, raised⟩) <;> grind
  · intro v memo a w ran
    grind

theorem issues_select (ports : ∀ e, FromPort e → X e) (e : Entity) (condition : e.Row → Bool) :
    Issues ok C index (fun _ => True) X (e.mapper.select condition) := by
  refine issues_query ports ?_ (fun _ _ _ _ _ => trivial) ?_
  · rintro v error (raised | ⟨memo, w, raised⟩) <;> cases raised
  · intro v memo a w ran
    cases ran

theorem issues_scalarOneOrNone (ports : ∀ e, FromPort e → X e) (e : Entity)
    (condition : e.Row → Bool) :
    Issues ok C index (fun _ => True) X (e.mapper.scalarOneOrNone condition) := by
  refine (issues_select ports e condition).bind fun records _ => ?_
  match records with
  | [] | [_] => trivial
  | _ :: _ :: _ => exact ports _ .multipleResultsFound

/-- A new row. -/
theorem issues_add (ports : ∀ e, FromPort e → X e) (e : Entity)
    {row : View Tables Memo Env → e.Row} (allowed : ∀ v, ok (e.mapper.insert (row v))) :
    Issues ok C index (fun _ => True) X (e.mapper.add row) := by
  refine issues_query ports ?_ (fun _ _ _ _ _ => trivial) ?_
  · rintro v error (raised | ⟨memo, w, raised⟩)
    · rcases bind_eq_error raised with failed | ⟨_, _, failed⟩
      · exact .refusal (e.values_refusal failed)
      · split at failed
        · cases failed
        · cases failed
          exact .refusal rfl
    · obtain ⟨_, _, ran⟩ := bind_eq_ok raised
      split at ran
      · simp only [Except.ok.injEq, Effect.mk.injEq] at ran
        exact .refusal (e.foreign_refusal (map_eq_error ran.2.1))
      · cases ran
  · intro v memo a w ran
    obtain ⟨_, _, ran⟩ := bind_eq_ok ran
    split at ran
    · simp only [Except.ok.injEq, Effect.mk.injEq, Option.some.injEq] at ran
      obtain ⟨_, _, rfl⟩ := ran
      exact ⟨e.stands_insert _ _, allowed v⟩
    · cases ran

/-- An edit of a record. -/
theorem issues_flush (ports : ∀ e, FromPort e → X e) (e : Entity) {loaded new : e.Row}
    (allowed : ∀ stored, ok (e.mapper.update stored (e.mapper.merge loaded new stored))) :
    Issues ok C index (fun _ => True) X (e.mapper.flush loaded new) := by
  refine .ite (fun _ => trivial) fun _ => ?_
  refine issues_query ports ?_ (fun _ _ _ _ _ => trivial) ?_
  · rintro v error (raised | ⟨memo, w, raised⟩)
    · split at raised
      · cases raised
        exact .staleData
      · cases raised
    · split at raised
      · cases raised
      · simp only [Except.ok.injEq, Effect.mk.injEq] at raised
        exact .refusal (e.foreign_refusal (map_eq_error raised.2.1))
  · intro v memo flushed w ran
    split at ran
    · cases ran
    · rename_i stored found
      simp only [Except.ok.injEq, Effect.mk.injEq, Option.some.injEq] at ran
      obtain ⟨_, _, rfl⟩ := ran
      have member : stored ∈ e.mapper.rows v.tables :=
        List.mem_of_mem_filter (List.mem_of_find?_eq_some found)
      exact ⟨Entity.stands_update.mpr ⟨member, e.mapper.key_merge _ _ _⟩, allowed stored⟩

/-- What the updates of the repositories share. -/
theorem issues_update (ports : ∀ e, FromPort e → X e) (e : Entity) {key : e.Id}
    {rest : Option e.Row → Request α} (absent : Issues ok C index Q X (rest none))
    (present : ∀ record, Issues ok C index Q X (rest (some record))) :
    Issues ok C index Q X ((e.mapper.get key).bind rest) := by
  refine (issues_get ports e key).bind fun found _ => ?_
  cases found with
  | none => exact absent
  | some record => exact present record

/-! ## The kernel -/

/-- The row of a call can always be stored. -/
theorem storedRecord_ok (platform : Platform) (ctx : ExecutionContext) (call : AuditCall)
    (prevHash : String) (entryUuid recordUuid : UUID) (now : DateTime) :
    ∃ record, storedRecord platform (buildEntry platform.sha256 ctx call prevHash entryUuid now)
      recordUuid = .ok record := by
  have back := readBack_buildEntry platform.sha256 platform.normalise ctx call prevHash now
    entryUuid recordUuid
  obtain ⟨record, made, _⟩ := Option.map_eq_some_iff.mp back
  exact ⟨record.stored platform.normalise, by rw [storedRecord, made]⟩

theorem issues_audit (ports : ∀ e, FromPort e → X e) (platform : Platform) (ctx : ExecutionContext)
    (call : AuditCall) : Issues ok C index (fun _ => True) X (Kernel.audit platform ctx call) := by
  refine Wherever.bind (N := fun _ => True) ?_ fun prevHash _ => ?_
  · exact wherever_eager (fun _ _ _ _ ran => nomatch ran) (ports _ .disconnected)
      (fun _ _ _ raised => nomatch raised) (fun _ => ports _ (.refusal rfl)) fun _ _ _ _ _ => trivial
  refine (issues_choose _).bind ?_
  rintro ⟨entryUuid, now⟩ _
  refine Wherever.bind (N := fun _ => True) ?_ fun _ _ => trivial
  refine wherever_eager ?_ (ports _ .disconnected) ?_ (fun _ => ports _ (.refusal rfl))
    fun _ _ _ _ _ => trivial
  · intro t env w b ran
    obtain ⟨row, _, same⟩ := map_eq_ok ran
    cases same
    exact ⟨row, rfl⟩
  · intro t env e raised
    rcases inserted_error (map_eq_error raised) with refusal | raised
    · exact ports _ (.refusal refusal)
    · obtain ⟨record, stored⟩ := storedRecord_ok platform ctx call prevHash entryUuid env.uuid now
      rw [stored] at raised
      cases raised

/-- The unit of work adds only errors of the database to those of the request. -/
theorem issues_getDbSession (ports : ∀ e, FromPort e → X e) (ctx : ExecutionContext)
    {request : Request α} (body : Issues ok C index Q X request) :
    Issues ok C index Q X (getDbSession ctx request) := by
  refine (issues_setConfig ports _).bind fun _ _ => ?_
  refine Wherever.handle (N := X) ?_ fun e raised => ?_
  · exact body.bind fun a holds => (issues_commit ports).bind fun _ _ => holds
  · cases e with
    | http status detail => exact (issues_commit ports).bind fun _ _ => raised
    | _ => exact issues_rollback.bind fun _ _ => raised

end Rules
end LandVault
