import LandVault.Commits
import LandVault.Library.Upkeep

/-!
# What every row of a mapped class has

A rule asks something of every row of the mapped classes, and of every parcel counter. The
records of the identity map are copies of rows, and an UPDATE writes columns of a copy over
a row: where both have it and the merge keeps it, so has the row that is written.
-/

set_option autoImplicit false

namespace LandVault

open Kernel Kernel.Audit Library.Programs Library.ReadCommitted Python

/-- What is asked of the rows of each class and of the counters. -/
structure RowRule where
  row : (e : Entity) → e.Row → Prop
  counter : String → Nat → Prop
  merge : ∀ (e : Entity) {loaded new stored : e.Row}, row e loaded → row e new → row e stored →
    row e (e.mapper.merge loaded new stored)
  assign : ∀ (e : Entity) {new stored : e.Row}, row e new → row e stored →
    row e (e.mapper.assign new stored)

namespace RowRule

variable (rule : RowRule)

/-- All rows have it. -/
structure OfTables (t : Tables) : Prop where
  rows : ∀ e : Entity, ∀ row ∈ e.mapper.rows t, rule.row e row
  counters : ∀ counter ∈ t.parcelCounters, rule.counter counter.1 counter.2

/-- All records of the identity map have it. -/
def OfMemo (memo : Memo) : Prop := ∀ e : Entity, ∀ row ∈ e.mapper.loaded memo, rule.row e row

/-- What is written has it. -/
def OfWrite : Write → Prop
  | .insertUser row | .updateUser _ row => rule.row .user row
  | .insertTenant row | .updateTenant _ row => rule.row .tenant row
  | .insertSession row | .updateSession _ row => rule.row .session row
  | .insertInvitation row | .updateInvitation _ row => rule.row .invitation row
  | .insertDelegation row | .updateDelegation _ row => rule.row .delegation row
  | .insertParcel row | .updateParcel _ row => rule.row .parcel row
  | .insertGeometry row | .updateGeometry _ row => rule.row .geometry row
  | .insertEvidence row | .updateEvidence _ row => rule.row .evidence row
  | .upsertCounter countryCode lastAllocated => rule.counter countryCode lastAllocated
  | .insertAudit _ | .insertOwnership _ | .insertStatus _ | .insertAttribution _ => True

variable {rule}

theorem ofWrite_insert (e : Entity) (row : e.Row) :
    rule.OfWrite (e.mapper.insert row) ↔ rule.row e row := by
  cases e <;> exact .rfl

theorem ofWrite_update (e : Entity) (stored row : e.Row) :
    rule.OfWrite (e.mapper.update stored row) ↔ rule.row e row := by
  cases e <;> exact .rfl

theorem mem_setCounter {code : String} {value : Nat} {counter : String × Nat}
    {rows : List (String × Nat)} (member : counter ∈ Tables.setCounter code value rows) :
    counter = (code, value) ∨ counter ∈ rows := by
  induction rows with
  | nil => exact .inl (List.mem_singleton.mp member)
  | cons row rows ih =>
      unfold Tables.setCounter at member
      split at member
      · exact (List.mem_cons.mp member).imp_right (List.mem_cons_of_mem _)
      · rcases List.mem_cons.mp member with rfl | member
        · exact .inr List.mem_cons_self
        · exact (ih member).imp_right (List.mem_cons_of_mem _)

theorem OfTables.apply {t : Tables} {w : Write} (tables : rule.OfTables t)
    (write : rule.OfWrite w) : rule.OfTables (t.apply w) where
  rows := by
    intro e row member
    rcases e.write_cases w with same | ⟨new, rfl⟩ | ⟨stored, new, rfl⟩
    · exact tables.rows e row (same t ▸ member)
    · rw [Entity.rows_insert] at member
      rcases List.mem_append.mp member with old | inserted
      · exact tables.rows e row old
      · rw [List.mem_singleton.mp inserted]
        exact (ofWrite_insert e new).mp write
    · rw [Entity.rows_update] at member
      obtain ⟨old, known, rfl⟩ := List.mem_map.mp member
      split
      · exact rule.assign e ((ofWrite_update e stored new).mp write) (tables.rows e old known)
      · exact tables.rows e old known
  counters := by
    intro counter member
    cases w with
    | upsertCounter code value =>
        rcases mem_setCounter member with rfl | old
        · exact write
        · exact tables.counters counter old
    | _ => exact tables.counters counter member

theorem ofMemo_same {memo memo' : Memo} (holds : rule.OfMemo memo)
    (same : ∀ e : Entity, e.mapper.loaded memo' = e.mapper.loaded memo) : rule.OfMemo memo' :=
  fun e row member => holds e row (same e ▸ member)

theorem OfMemo.keep {memo : Memo} (holds : rule.OfMemo memo) {e : Entity} {row : e.Row}
    (has : rule.row e row) : rule.OfMemo (e.mapper.keep row memo) := by
  intro e' other member
  by_cases same : e' = e
  · subst same
    rcases Entity.mem_loaded_keep.mp member with rfl | ⟨old, _⟩
    · exact has
    · exact holds _ other old
  · exact holds e' other (Entity.loaded_keep_of_ne same row ▸ member)

variable (rule)

/-- The rule as a fact that sessions keep. -/
def upkeep : Upkeep engine where
  tables := rule.OfTables
  memo := rule.OfMemo
  write := rule.OfWrite
  tables_apply := OfTables.apply
  memo_fresh := fun e row member => by cases e <;> cases member
  memo_settled := fun holds => ofMemo_same holds fun e => by cases e <;> rfl

end RowRule

/-- Wherever it runs among others, the request keeps the rule, and ends with `Q` of its
value if it ends with a value. -/
abbrev Respects {ι α : Type} [DecidableEq ι] (rule : RowRule) (C : Choice Env → Prop) (index : ι)
    (Q : α → Prop) (request : Request α) : Prop :=
  Upkept rule.upkeep C index Q request

section Rules

variable {ι α β : Type} [DecidableEq ι] {rule : RowRule} {C : Choice Env → Prop} {index : ι}
  {Q : α → Prop}

/-- A statement inside the session. -/
theorem respects_query {run : View Tables Memo Env → Except PyExc (Effect Write Memo PyExc α)}
    (keeps : ∀ v memo a w, rule.OfTables v.tables → rule.OfMemo v.memo →
      run v = .ok ⟨memo, .ok a, w⟩ → rule.OfMemo memo ∧ (∀ w' ∈ w, rule.OfWrite w') ∧ Q a) :
    Respects rule C index Q (.perform (.query run)) :=
  Upkept.query fun v memo a w sees ran => keeps v memo a w sees.1 sees.2 ran

/-- A statement of a session of its own. -/
theorem respects_eager {run : Tables → Env → Except PyExc (Option Write × α)}
    (keeps : ∀ t env w a, run t env = .ok (w, a) → (∀ w' ∈ w, rule.OfWrite w') ∧ Q a) :
    Respects rule C index Q (.perform (.eager run)) :=
  Upkept.eager fun t env w a _ ran => keeps t env w a ran

/-! ## Mapped classes -/

/-- A record of the identity map has what is asked. -/
theorem RowRule.OfMemo.mapped {v : View Tables Memo Env} (memo : rule.OfMemo v.memo) {e : Entity}
    {key : e.Id} {record : e.Row} (mapped : e.mapper.mapped v key = some record) :
    rule.row e record := by
  unfold Mapper.mapped at mapped
  split at mapped
  · cases mapped
  · exact memo e record (List.mem_of_find?_eq_some mapped)

theorem RowRule.OfTables.seen {t : Tables} (tables : rule.OfTables t) {e : Entity} {scope : Scope}
    {row : e.Row} (member : row ∈ e.mapper.seen t scope) : rule.row e row :=
  tables.rows e row (List.mem_of_mem_filter member)

theorem respects_get (e : Entity) (key : e.Id) :
    Respects rule C index (fun found => ∀ record ∈ found, rule.row e record) (e.mapper.get key) := by
  refine respects_query fun v memo found w tables loaded ran => ?_
  cases mapped : e.mapper.mapped v key with
  | some record =>
      simp only [mapped, Except.ok.injEq, Effect.mk.injEq] at ran
      obtain ⟨rfl, rfl, rfl⟩ := ran
      refine ⟨loaded, by simp, ?_⟩
      rintro _ ⟨⟩
      exact loaded.mapped mapped
  | none =>
      cases present : (e.mapper.seen v.tables v.memo.scope).find? (e.mapper.key · = key) with
      | none =>
          simp only [mapped, present, Except.ok.injEq, Effect.mk.injEq] at ran
          obtain ⟨rfl, rfl, rfl⟩ := ran
          exact ⟨loaded, by simp, by simp⟩
      | some row =>
          simp only [mapped, present, Except.ok.injEq, Effect.mk.injEq] at ran
          obtain ⟨rfl, rfl, rfl⟩ := ran
          have has := tables.seen (List.mem_of_find?_eq_some present)
          refine ⟨loaded.keep has, by simp, ?_⟩
          rintro _ ⟨⟩
          exact has

theorem respects_select (e : Entity) (condition : e.Row → Bool) :
    Respects rule C index (fun rows => ∀ row ∈ rows, rule.row e row)
      (e.mapper.select condition) := by
  refine respects_query fun v memo rows w tables loaded ran => ?_
  simp only [Except.ok.injEq, Effect.mk.injEq] at ran
  obtain ⟨rfl, rfl, rfl⟩ := ran
  have known : ∀ row ∈ (e.mapper.seen v.tables v.memo.scope).filter condition, rule.row e row :=
    fun row member => tables.seen (List.mem_of_mem_filter member)
  refine ⟨?_, by simp, ?_⟩
  · generalize (e.mapper.seen v.tables v.memo.scope).filter condition = found at known
    have loads : ∀ memo, rule.OfMemo memo → rule.OfMemo (found.foldl (e.mapper.found v) memo) := by
      induction found with
      | nil => exact fun _ holds => holds
      | cons row rows ih =>
          intro memo holds
          refine ih (fun row member => known row (List.mem_cons_of_mem _ member)) _ ?_
          unfold Mapper.found
          split
          · exact holds
          · exact holds.keep (known row List.mem_cons_self)
    exact loads v.memo loaded
  · intro record member
    obtain ⟨row, found, rfl⟩ := List.mem_map.mp member
    unfold Mapper.record
    cases mapped : e.mapper.mapped v (e.mapper.key row) with
    | none => exact known row found
    | some record => exact loaded.mapped mapped

/-- A new row. -/
theorem respects_add (e : Entity) {row : View Tables Memo Env → e.Row}
    (has : ∀ v, e.mapper.values (row v) = .ok () → rule.row e (row v)) :
    Respects rule C index (rule.row e) (e.mapper.add row) := by
  refine respects_query fun v memo added w tables loaded ran => ?_
  obtain ⟨_, values, ran⟩ := bind_eq_ok ran
  split at ran
  · simp only [Except.ok.injEq, Effect.mk.injEq] at ran
    obtain ⟨rfl, answered, rfl⟩ := ran
    obtain ⟨_, _, rfl⟩ := map_eq_ok answered
    refine ⟨loaded.keep (has v values), ?_, has v values⟩
    rintro _ ⟨⟩
    exact (RowRule.ofWrite_insert e _).mpr (has v values)
  · cases ran

/-- An edit of a record. -/
theorem respects_flush (e : Entity) {loaded new : e.Row} (had : rule.row e loaded)
    (has : rule.row e new) : Respects rule C index (rule.row e) (e.mapper.flush loaded new) := by
  refine .ite (fun _ => .ret has) fun _ => ?_
  refine respects_query fun v memo flushed w tables known ran => ?_
  split at ran
  · cases ran
  · rename_i stored present
    simp only [Except.ok.injEq, Effect.mk.injEq] at ran
    obtain ⟨rfl, answered, rfl⟩ := ran
    obtain ⟨_, _, rfl⟩ := map_eq_ok answered
    refine ⟨known.keep has, ?_, has⟩
    rintro _ ⟨⟩
    exact (RowRule.ofWrite_update e _ _).mpr
      (rule.merge e had has (tables.seen (List.mem_of_find?_eq_some present)))

/-! ## The kernel -/

theorem respects_choose (pick : Env → α) :
    Respects rule C index (fun a => ∃ choice, C choice ∧ a = pick choice.env) (choose pick) :=
  Upkept.choose pick

/-- The audit log has no rows that anything is asked of. -/
theorem respects_audit (platform : Platform) (ctx : ExecutionContext) (call : AuditCall) :
    Respects rule C index (fun _ => True) (Kernel.audit platform ctx call) := by
  refine Upkept.bind (N := fun _ => True) (respects_eager fun t env w a ran => ?_) fun prevHash _ => ?_
  · cases ran
    exact ⟨by simp, trivial⟩
  refine (respects_choose _).bind fun drawn _ => ?_
  refine Upkept.bind (N := fun _ => True) (respects_eager fun t env w a ran => ?_)
    fun _ _ => .ret trivial
  obtain ⟨record, _, same⟩ := map_eq_ok ran
  cases same
  refine ⟨?_, trivial⟩
  rintro _ ⟨⟩
  trivial

/-- The unit of work adds nothing. -/
theorem respects_getDbSession (ctx : ExecutionContext) {request : Request α}
    (body : Respects rule C index Q request) :
    Respects rule C index Q (getDbSession ctx request) := by
  refine Upkept.bind (N := fun _ => True) (respects_query fun v memo a w _ loaded ran => ?_)
    fun _ _ => ?_
  · cases ran
    exact ⟨RowRule.ofMemo_same loaded fun e => by cases e <;> rfl, by simp, trivial⟩
  refine Upkept.handle ?_ fun e => ?_
  · exact body.bind fun a holds => Upkept.commit.bind fun _ _ => .ret holds
  · cases e with
    | http status detail => exact Upkept.commit.bind fun _ _ => .throw _
    | _ => exact Upkept.rollback.bind fun _ _ => .throw _

end Rules
end LandVault
