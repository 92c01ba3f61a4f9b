import LandVault.Database

/-!
# Mapped classes

What an ORM session does with the rows of one table. It keeps the records that it has
loaded in an identity map. A record that the map still has is handed out as it is,
whatever the table holds by now; the map may have lost it when nothing else referred to
it, and then it is loaded again. A flush writes the columns of a record that differ
from what was loaded; the other columns keep what the table has.
-/

set_option autoImplicit false

namespace LandVault.Kernel

open Library.Programs Library.ReadCommitted Python

/-- A mapped class: its table, the policy and the constraints of the table, and the
records of the class in the identity map. `merge` writes what differs between a record
as it was loaded and as it is now over a row of the table, unless the two are `clean`;
`assign` is the effect of the UPDATE on the row. What a transaction has of a row is
`noted`. -/
structure Mapper (R K : Type) where
  table : String
  rows : Tables → List R
  sees : Tables → Scope → R → Bool
  key : R → K
  loaded : Memo → List R
  remember : List R → Memo → Memo
  merge : R → R → R → R
  clean : R → R → Bool
  assign : R → R → R
  insert : R → Write
  update : R → R → Write
  values : R → Except PyExc Unit := fun _ => .ok ()
  foreign : Tables → R → Except PyExc Unit := fun _ _ => .ok ()
  noted : R → Read
  key_merge : ∀ loaded new stored, key (merge loaded new stored) = key stored := by intros; rfl
  key_assign : ∀ row stored, key row = key stored → key (assign row stored) = key stored := by
    intros; first | rfl | assumption
  eq_of_clean : ∀ {loaded new}, clean loaded new = true → new = loaded := by simp
  assign_of_merge : ∀ {loaded new}, merge loaded new loaded = new → assign new loaded = new

/-- The column of `merge`. -/
def merged {C : Type} [DecidableEq C] (loaded new stored : C) : C :=
  if new = loaded then stored else new

@[simp] theorem merged_self {C : Type} [DecidableEq C] (loaded new : C) :
    merged loaded new loaded = new := by
  by_cases same : new = loaded <;> simp [merged, same]

@[simp] theorem merged_same {C : Type} [DecidableEq C] (loaded stored : C) :
    merged loaded loaded stored = stored := by
  simp [merged]

namespace Mapper

variable {R K : Type} [DecidableEq K] (m : Mapper R K)

/-- The rows that row-level security lets a statement see. -/
def seen (t : Tables) (scope : Scope) : List R := (m.rows t).filter (m.sees t scope)

/-- Put a record into the identity map, and note it. -/
def keep (row : R) (memo : Memo) : Memo :=
  let kept := m.remember (row :: (m.loaded memo).filter (m.key · ≠ m.key row)) memo
  { kept with reads := m.noted row :: kept.reads }

/-- The record that the identity map has for a key. -/
def mapped (view : View Tables Memo Env) (key : K) : Option R :=
  if view.env.lost then none else (m.loaded view.memo).find? (m.key · = key)

/-- `session.get`. -/
def get (key : K) : Request (Option R) :=
  .perform <| .query fun view =>
    match m.mapped view key with
    | some record => .ok { memo := view.memo, answer := .ok (some record) }
    | none =>
        match (m.seen view.tables view.memo.scope).find? (m.key · = key) with
        | some row => .ok { memo := m.keep row view.memo, answer := .ok (some row) }
        | none => .ok { memo := view.memo, answer := .ok none }

/-- The identity map after a row was found: its record, or the row itself. -/
def found (view : View Tables Memo Env) (memo : Memo) (row : R) : Memo :=
  match m.mapped view (m.key row) with
  | some _ => memo
  | none => m.keep row memo

/-- The record of a row that a statement has found. -/
def record (view : View Tables Memo Env) (row : R) : R := (m.mapped view (m.key row)).getD row

/-- `select(...).where(...)`, and its `scalars()`. -/
def select (condition : R → Bool) : Request (List R) :=
  .perform <| .query fun view =>
    let rows := (m.seen view.tables view.memo.scope).filter condition
    .ok { memo := rows.foldl (m.found view) view.memo
          answer := .ok (rows.map (m.record view)) }

/-- `scalar_one_or_none`. -/
def scalarOneOrNone (condition : R → Bool) : Request (Option R) := do
  match ← m.select condition with
  | [] => pure none
  | [record] => pure (some record)
  | _ => throw .multipleResultsFound

/-- `session.add` of a new record, and `flush`. -/
def add (row : View Tables Memo Env → R) : Request R :=
  .perform <| .query fun view =>
    (m.values (row view)).bind fun _ =>
      if m.sees view.tables view.memo.scope (row view) then
        .ok { memo := m.keep (row view) view.memo
              answer := (m.foreign view.tables (row view)).map fun _ => row view
              write := some (m.insert (row view)) }
      else .error (rowSecurityViolation m.table)

/-- `flush`, after the columns of a loaded record were assigned. -/
def flush (loaded new : R) : Request R :=
  if m.clean loaded new then pure new
  else .perform <| .query fun view =>
    match (m.seen view.tables view.memo.scope).find? (m.key · = m.key loaded) with
    | none => .error .staleData
    | some stored =>
        let row := m.merge loaded new stored
        .ok { memo := m.keep new view.memo
              answer := (m.foreign view.tables row).map fun _ => new
              write := some (m.update stored row) }

end Mapper

/-! ## Repositories -/

/-- What a repository raises for a record that is not there. -/
def notFoundError (name id : String) : PyExc := .value (name ++ " " ++ id ++ " not found")

/-- `ORDER BY created_at DESC`. -/
def newestFirst {R : Type} (createdAt : R → Timestamp) (rows : List R) : List R :=
  rows.insertionSort fun a b => (createdAt b).position ≤ (createdAt a).position

/-! ## Foreign keys -/

/-- A foreign key to `identity_users`. -/
def userExists (constraint : String) (t : Tables) (id : UUID) : Except PyExc Unit :=
  if (t.identityUsers.map (·.id)).contains id then .ok ()
  else .error (foreignKeyViolation constraint)

/-- A foreign key to `identity_users` that may be null. -/
def optionalUserExists (constraint : String) (t : Tables) (id : Option UUID) : Except PyExc Unit :=
  match id with
  | none => .ok ()
  | some id => userExists constraint t id

/-- A foreign key to `tenants`. -/
def tenantExists (constraint : String) (t : Tables) (id : String) : Except PyExc Unit :=
  if (t.tenants.map (·.id)).contains id then .ok () else .error (foreignKeyViolation constraint)

/-- A foreign key to `parcels`. -/
def parcelExists (constraint : String) (t : Tables) (id : UUID) : Except PyExc Unit :=
  if (t.parcels.map (·.parcelId)).contains id then .ok ()
  else .error (foreignKeyViolation constraint)

end LandVault.Kernel
