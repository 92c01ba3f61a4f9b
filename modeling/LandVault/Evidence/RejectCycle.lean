import LandVault.Evidence.Attribution
import LandVault.Library.Lineage

/-!
# No statement closes a cycle of attributions

An INSERT statement stores its rows one after another. Before each row the triggers
run, over the rows stored so far; the row then has to satisfy the policy, the CHECK
constraints and the unique indexes. The foreign keys are checked when all rows are
stored. A statement that is refused at any point leaves the table as it was.

The trigger's walk follows pointers, so a row that closes a cycle finds itself at the
end of the walk, or the walk is as long as its bound; both are refused. A row of an
earlier statement cannot be on such a cycle, since the foreign keys already held
without the new rows; so it does not matter that the walk sees the rows of one tenant
only.
-/

set_option autoImplicit false

namespace LandVault.Evidence

open LandVault.Identity LandVault.Kernel LandVault.Library.Lineage LandVault.Python

/-! ## INSERT statements -/

/-- An INSERT into `evidence_actor_attributions`: the settings of its transaction, the
other tables as they are at that time, and the rows. -/
structure InsertStatement where
  scope : Scope
  tenants : List String
  users : List UserRecord
  evidence : List EvidenceRecordModel
  rows : List EvidenceActorAttributionModel

namespace InsertStatement

/-- Store one row. -/
def storeRow (statement : InsertStatement) (rows : List EvidenceActorAttributionModel)
    (row : EvidenceActorAttributionModel) : Except PyExc (List EvidenceActorAttributionModel) :=
  (checkNewRow statement.scope statement.users statement.evidence rows row).bind fun _ =>
    if row.id ∈ rows.map (·.id) then .error (uniqueViolation (attributionTable ++ "_pkey"))
    else if row.supersedesId.isSome && (rows.map (·.supersedesId)).contains row.supersedesId then
      .error (uniqueViolation ("uq_" ++ attributionTable ++ "_supersedes_once"))
    else .ok (rows ++ [row])

/-- Store rows in turn. -/
def storeRows (statement : InsertStatement) :
    List EvidenceActorAttributionModel → List EvidenceActorAttributionModel →
      Except PyExc (List EvidenceActorAttributionModel)
  | rows, [] => .ok rows
  | rows, row :: rest => (statement.storeRow rows row).bind fun rows => statement.storeRows rows rest

/-- The foreign keys of all new rows. -/
def checkAllForeignKeys (statement : InsertStatement)
    (rows : List EvidenceActorAttributionModel) :
    List EvidenceActorAttributionModel → Except PyExc Unit
  | [] => .ok ()
  | row :: rest =>
      (checkForeignKeys statement.tenants statement.users statement.evidence rows row).bind fun _ =>
        statement.checkAllForeignKeys rows rest

/-- The whole statement. -/
def run (statement : InsertStatement) (rows : List EvidenceActorAttributionModel) :
    Except PyExc (List EvidenceActorAttributionModel) :=
  (statement.storeRows rows statement.rows).bind fun stored =>
    (statement.checkAllForeignKeys stored statement.rows).map fun _ => stored

/-- The table after the statement, refused or not. -/
def execute (rows : List EvidenceActorAttributionModel) (statement : InsertStatement) :
    List EvidenceActorAttributionModel :=
  match statement.run rows with
  | .ok stored => stored
  | .error _ => rows

end InsertStatement

/-! ## The trigger's walk -/

/-- Following `k` stored pointers from the value `p` leads to the value `q`. -/
inductive Follows (rows : List EvidenceActorAttributionModel) : UUID → UUID → Nat → Prop where
  | here (p : UUID) : Follows rows p p 0
  | pointer {row : EvidenceActorAttributionModel} {p q : UUID} {k : Nat} (member : row ∈ rows)
      (names : row.supersedesId = some p) (rest : Follows rows p q k) :
      Follows rows row.id q (k + 1)

theorem ancestry_cons {rows : List EvidenceActorAttributionModel} {depth : Nat} {level : List UUID}
    {p : UUID} (member : p ∈ level) : ancestry rows (depth + 1) level =
      level ++ ancestry rows depth
        (level.flatMap fun id => (rows.filter (·.id = id)).filterMap (·.supersedesId)) := by
  cases level with
  | nil => cases member
  | cons q level => rfl

theorem mem_nextLevel {rows : List EvidenceActorAttributionModel} {level : List UUID}
    {row : EvidenceActorAttributionModel} {p : UUID} (member : row ∈ rows)
    (inLevel : row.id ∈ level) (names : row.supersedesId = some p) :
    p ∈ level.flatMap fun id => (rows.filter (·.id = id)).filterMap (·.supersedesId) :=
  List.mem_flatMap.mpr ⟨row.id, inLevel,
    List.mem_filterMap.mpr ⟨row, by simp [member], names⟩⟩

/-- A value that is near enough is visited. -/
theorem Follows.mem_ancestry {rows : List EvidenceActorAttributionModel} {p q : UUID} {k : Nat}
    (follows : Follows rows p q k) {depth : Nat} (near : k < depth) {level : List UUID}
    (member : p ∈ level) : q ∈ ancestry rows depth level := by
  induction follows generalizing depth level with
  | here p =>
      obtain ⟨depth, rfl⟩ : ∃ d, depth = d + 1 := ⟨depth - 1, by omega⟩
      rw [ancestry_cons member]
      exact List.mem_append_left _ member
  | pointer stored names _ ih =>
      obtain ⟨depth, rfl⟩ : ∃ d, depth = d + 1 := ⟨depth - 1, by omega⟩
      rw [ancestry_cons member]
      exact List.mem_append_right _ (ih (by omega) (mem_nextLevel stored member names))

/-- A walk that goes on visits at least one value at each level. -/
theorem Follows.le_length {rows : List EvidenceActorAttributionModel} {p q : UUID} {k : Nat}
    (follows : Follows rows p q k) {depth : Nat} (far : depth ≤ k + 1) {level : List UUID}
    (member : p ∈ level) : depth ≤ (ancestry rows depth level).length := by
  induction follows generalizing depth level with
  | here p =>
      rcases Nat.eq_zero_or_pos depth with rfl | positive
      · exact Nat.zero_le _
      · obtain rfl : depth = 1 := by omega
        rw [ancestry_cons member, List.length_append]
        have := List.length_pos_of_mem member
        omega
  | pointer stored names _ ih =>
      rcases Nat.eq_zero_or_pos depth with rfl | positive
      · exact Nat.zero_le _
      · obtain ⟨depth, rfl⟩ : ∃ d, depth = d + 1 := ⟨depth - 1, by omega⟩
        rw [ancestry_cons member, List.length_append]
        have := List.length_pos_of_mem member
        have := @ih depth (by omega) _ (mem_nextLevel stored member names)
        omega

/-- **A row that passes the trigger closes no cycle with the rows that are seen**, of
whatever length. -/
theorem rejectCycle_sound {scope : Scope} {rows : List EvidenceActorAttributionModel}
    {row : EvidenceActorAttributionModel} (passed : rejectCycle scope rows row = .ok ())
    {pointer : UUID} (names : row.supersedesId = some pointer) {k : Nat} :
    ¬ Follows (rows.filter fun stored => scope.sees stored.tenantId) pointer row.id k := by
  intro follows
  simp only [rejectCycle, names] at passed
  split_ifs at passed with found long
  rcases Nat.lt_or_ge k maxCycleDepth with near | far
  · exact found (List.contains_iff_mem.mpr (follows.mem_ancestry near List.mem_cons_self))
  · exact long (follows.le_length (by omega) List.mem_cons_self)

/-! ## One statement -/

/-- The relation of the table. -/
abbrev supersedesIn (rows : List EvidenceActorAttributionModel) :
    EvidenceActorAttributionModel → EvidenceActorAttributionModel → Prop :=
  SupersedesIn (·.id) (·.supersedesId) rows

/-- Between two statements: identifiers are unique, every pointer names a stored row,
and no row leads back to itself. -/
structure Sound (rows : List EvidenceActorAttributionModel) : Prop where
  unique : (rows.map (·.id)).Nodup
  closed : ∀ row ∈ rows, ∀ p, row.supersedesId = some p → ∃ older ∈ rows, older.id = p
  acyclic : ∀ row, ¬ Relation.TransGen (supersedesIn rows) row row

/-- Within a statement over the table `base`, when `added` is stored. -/
structure Storing (scope : Scope) (base added : List EvidenceActorAttributionModel) : Prop where
  unique : ((base ++ added).map (·.id)).Nodup
  seen : ∀ row ∈ added, scope.sees row.tenantId = true
  acyclic : ∀ row, ¬ Relation.TransGen (supersedesIn (base ++ added)) row row

/-- What a stored row leads to is stored with it: nothing points into the rows of the
running statement. -/
theorem mem_base_of_path {base rows : List EvidenceActorAttributionModel} (sound : Sound base)
    (unique : (rows.map (·.id)).Nodup) (subset : base ⊆ rows)
    {row row' : EvidenceActorAttributionModel}
    (path : Relation.ReflTransGen (supersedesIn rows) row row') (member : row ∈ base) :
    row' ∈ base := by
  induction path with
  | refl => exact member
  | tail _ step ih =>
      obtain ⟨_, stored, names⟩ := step
      obtain ⟨older, present, same⟩ := sound.closed _ ih _ names
      exact List.inj_on_of_nodup_map unique (subset present) stored same ▸ present

/-- A path to the new row is one that the trigger's walk follows. -/
theorem follows_of_path {scope : Scope} {base added : List EvidenceActorAttributionModel}
    {row first : EvidenceActorAttributionModel} (sound : Sound base)
    (storing : Storing scope base added)
    (fresh : row.id ∉ (base ++ added).map (·.id))
    (path : Relation.ReflTransGen (supersedesIn (base ++ added ++ [row])) first row) :
    ∃ k, Follows ((base ++ added).filter fun stored => scope.sees stored.tenantId)
      first.id row.id k := by
  have unique : ((base ++ added ++ [row]).map (·.id)).Nodup := by
    rw [List.map_append, List.map_singleton]
    exact storing.unique.append (by simp) (by simpa using fresh)
  induction path using Relation.ReflTransGen.head_induction_on with
  | refl => exact ⟨0, .here _⟩
  | head step rest ih =>
      rename_i current next
      obtain ⟨stored, _, names⟩ := step
      obtain ⟨k, follows⟩ := ih
      by_cases new : current = row
      · exact ⟨0, new ▸ .here _⟩
      · -- an earlier row leads to earlier rows only, so this one belongs to the statement
        have here : current ∈ base ++ added := by simpa [new] using stored
        have notOld : current ∉ base := by
          intro old
          have target := mem_base_of_path sound unique (by simp) (rest.head ⟨stored, ‹_›, names⟩) old
          exact fresh (List.mem_map.mpr ⟨row, List.mem_append_left _ target, rfl⟩)
        have ours : current ∈ added := (List.mem_append.mp here).resolve_left notOld
        exact ⟨k + 1, .pointer (by simp [ours, storing.seen current ours]) names follows⟩

theorem InsertStatement.storeRow_spec {statement : InsertStatement}
    {base added rows : List EvidenceActorAttributionModel} {row : EvidenceActorAttributionModel}
    (sound : Sound base) (storing : Storing statement.scope base added)
    (stored : statement.storeRow (base ++ added) row = .ok rows) :
    rows = base ++ (added ++ [row]) ∧ Storing statement.scope base (added ++ [row]) := by
  obtain ⟨_, checked, stored⟩ := bind_eq_ok stored
  obtain ⟨_, _, cycle, seen, _⟩ := checkNewRow_ok checked
  split_ifs at stored with present once
  cases stored
  refine ⟨List.append_assoc _ _ _, ?_, ?_, ?_⟩
  · rw [← List.append_assoc, List.map_append, List.map_singleton]
    exact storing.unique.append (by simp) (by simpa using present)
  · intro stored member
    rcases List.mem_append.mp member with old | new
    · exact storing.seen stored old
    · exact List.mem_singleton.mp new ▸ seen
  · intro start loop
    rw [← List.append_assoc] at loop
    have elsewhere : ∀ a b, supersedesIn (base ++ added ++ [row]) a b → a ≠ row → b ≠ row →
        supersedesIn (base ++ added) a b := by
      rintro a b ⟨first, second, names⟩ notFirst notSecond
      exact ⟨by simpa [notFirst] using first, by simpa [notSecond] using second, names⟩
    rcases transGen_through elsewhere loop with old | ⟨toRow, fromRow⟩
    · exact storing.acyclic start old
    · -- the loop goes through the new row: its pointer leads back to it
      have back := loop.trans_left toRow |>.trans_right fromRow
      obtain ⟨next, step, rest⟩ := Relation.TransGen.head'_iff.mp back
      obtain ⟨k, follows⟩ := follows_of_path sound storing present rest
      exact rejectCycle_sound cycle step.2.2 follows

theorem InsertStatement.storeRows_spec {statement : InsertStatement}
    {base : List EvidenceActorAttributionModel} (sound : Sound base)
    {new added rows : List EvidenceActorAttributionModel}
    (storing : Storing statement.scope base added)
    (stored : statement.storeRows (base ++ added) new = .ok rows) :
    rows = base ++ (added ++ new) ∧ Storing statement.scope base (added ++ new) := by
  induction new generalizing added with
  | nil =>
      cases stored
      exact ⟨by simp, by simpa using storing⟩
  | cons row new ih =>
      obtain ⟨_, one, rest⟩ := bind_eq_ok stored
      obtain ⟨rfl, storing⟩ := storeRow_spec sound storing one
      simpa using ih storing rest

theorem InsertStatement.checkAllForeignKeys_spec {statement : InsertStatement}
    {rows new : List EvidenceActorAttributionModel}
    (checked : statement.checkAllForeignKeys rows new = .ok ()) :
    ∀ row ∈ new, ∀ p, row.supersedesId = some p → ∃ older ∈ rows, older.id = p := by
  induction new with
  | nil => simp
  | cons row new ih =>
      obtain ⟨_, first, rest⟩ := bind_eq_ok checked
      intro other member p names
      rcases List.mem_cons.mp member with rfl | later
      · exact checkForeignKeys_ok first names
      · exact ih rest other later p names

/-- **A statement keeps the table sound**, accepted or refused. -/
theorem InsertStatement.execute_sound (statement : InsertStatement)
    {rows : List EvidenceActorAttributionModel} (sound : Sound rows) :
    Sound (execute rows statement) := by
  unfold execute
  split
  · rename_i stored ran
    obtain ⟨stored', all, checked⟩ := bind_eq_ok ran
    cases keys : statement.checkAllForeignKeys stored' statement.rows with
    | error error => simp [keys, Except.map] at checked
    | ok _ =>
        simp only [keys, Except.map, Except.ok.injEq] at checked
        subst checked
        have start : Storing statement.scope rows [] :=
          ⟨by simpa using sound.unique, by simp, by simpa using sound.acyclic⟩
        obtain ⟨rfl, storing⟩ := storeRows_spec sound start (by simpa using all)
        simp only [List.nil_append] at keys storing ⊢
        refine ⟨storing.unique, ?_, storing.acyclic⟩
        intro row member p names
        rcases List.mem_append.mp member with old | new
        · obtain ⟨older, present, same⟩ := sound.closed row old p names
          exact ⟨older, List.mem_append_left _ present, same⟩
        · exact checkAllForeignKeys_spec keys row new p names
  · exact sound

/-! ## Any sequence of statements -/

theorem sound_foldl (statements : List InsertStatement)
    {rows : List EvidenceActorAttributionModel} (sound : Sound rows) :
    Sound (statements.foldl InsertStatement.execute rows) := by
  induction statements generalizing rows with
  | nil => exact sound
  | cons statement statements ih => exact ih (statement.execute_sound sound)

/-- **No sequence of INSERT statements builds a cycle**: no row of the resulting table
leads back to itself, and every walk along `supersedes_id` or along successors ends. -/
theorem insertStatements_acyclic (statements : List InsertStatement) :
    let rows := statements.foldl InsertStatement.execute []
    (∀ row, ¬ Relation.TransGen (supersedesIn rows) row row) ∧
      (¬ ∃ walk : Nat → EvidenceActorAttributionModel,
        ∀ n, supersedesIn rows (walk n) (walk (n + 1))) ∧
      (¬ ∃ walk : Nat → EvidenceActorAttributionModel,
        ∀ n, supersedesIn rows (walk (n + 1)) (walk n)) := by
  intro rows
  have sound : Sound rows := sound_foldl statements ⟨by simp, by simp, by
    intro row loop
    obtain ⟨_, step, _⟩ := Relation.TransGen.head'_iff.mp loop
    cases step.1⟩
  refine ⟨sound.acyclic, ?_, ?_⟩
  · rintro ⟨walk, steps⟩
    exact no_infinite_walk (fun row _ => sound.acyclic row)
      ⟨walk, fun n => ⟨(steps n).1, steps n⟩⟩
  · rintro ⟨walk, steps⟩
    refine @no_infinite_walk _ rows (fun older newer => supersedesIn rows newer older)
      (fun row _ loop => sound.acyclic row (Relation.transGen_swap.mp loop))
      ⟨walk, fun n => ⟨(steps n).2.1, steps n⟩⟩

end LandVault.Evidence
