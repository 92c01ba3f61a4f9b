import Mathlib.Data.Fintype.Pigeonhole
import Mathlib.Data.Fintype.Sets
import Mathlib.Data.List.Chain
import Mathlib.Logic.Relation
import LandVault.Library.HashLinks

/-!
# Lineages of rows

Rows that are never changed: a correction is a new row that names the row it
supersedes. A lineage is such a sequence of corrections, oldest first.

A table in which every row supersedes nothing or an earlier row, and no row is
superseded twice, splits into lineages, each with one row that is not superseded,
its last (`exists_chained`, `Chained.head`). The links alone are enough for the
absence of infinite walks: a finite table without cycles has none, in either
direction (`no_infinite_walk`).

The row that a query orders first may depend on the database where several rows
share the greatest time; `newest` takes one of them.
-/

set_option autoImplicit false

namespace LandVault.Library.Lineage

open LandVault.Library.HashLinks

variable {R I β : Type} (id : R → I) (parent : R → Option I)

/-- The row `newer` supersedes the row `older`. -/
def Supersedes (newer older : R) : Prop := parent newer = some (id older)

/-- Every row supersedes the row before it; the first supersedes none. -/
def IsLineage : List R → Prop
  | [] => True
  | row :: rows => parent row = none ∧ (row :: rows).IsChain fun older newer =>
      Supersedes id parent newer older

/-- No row of the table supersedes the row. -/
def Unsuperseded (rows : List R) (row : R) : Prop :=
  ∀ newer ∈ rows, ¬ Supersedes id parent newer row

/-- The table is made of lineages without a common row. -/
structure Chained (rows : List R) (chains : List (List R)) : Prop where
  partition : chains.flatten.Perm rows
  nonempty : ∀ chain ∈ chains, chain ≠ []
  lineage : ∀ chain ∈ chains, IsLineage id parent chain

variable {id parent}

/-! ## One lineage -/

theorem isLineage_append {chain : List R} {row : R} :
    IsLineage id parent (chain ++ [row]) ↔
      IsLineage id parent chain ∧ parent row = chain.getLast?.map id := by
  cases chain with
  | nil => simp [IsLineage]
  | cons first rest =>
      have last : (first :: rest).getLast? = some ((first :: rest).getLast (by simp)) :=
        List.getLast?_eq_some_getLast _
      simp only [IsLineage, List.cons_append]
      rw [← List.cons_append, List.isChain_append]
      simp only [last, Option.map_some, List.isChain_singleton, true_and, Option.mem_def,
        Option.some.injEq, List.head?_cons, forall_eq', Supersedes, and_assoc]

/-- What a row of a lineage supersedes is in the lineage. -/
theorem IsLineage.parent_mem {chain : List R} (lineage : IsLineage id parent chain) {row : R}
    {p : I} (member : row ∈ chain) (names : parent row = some p) : p ∈ chain.map id := by
  induction chain using List.reverseRecOn with
  | nil => simp at member
  | append_singleton chain last ih =>
      obtain ⟨before, link⟩ := isLineage_append.mp lineage
      rw [List.map_append]
      rcases List.mem_append.mp member with earlier | here
      · exact List.mem_append_left _ (ih before earlier)
      · cases List.mem_singleton.mp here
        obtain ⟨older, newest, same⟩ := Option.map_eq_some_iff.mp (link.symm.trans names)
        exact List.mem_append_left _ (List.mem_map.mpr ⟨older, List.mem_of_getLast? newest, same⟩)

/-- The row of a lineage that no other supersedes is the last one. -/
theorem IsLineage.unsuperseded_iff {chain : List R} (lineage : IsLineage id parent chain)
    (unique : (chain.map id).Nodup) {row : R} (member : row ∈ chain) :
    Unsuperseded id parent chain row ↔ chain.getLast? = some row := by
  induction chain using List.reverseRecOn with
  | nil => simp at member
  | append_singleton chain last ih =>
      obtain ⟨before, link⟩ := isLineage_append.mp lineage
      rw [List.map_append, List.map_singleton, List.nodup_append] at unique
      obtain ⟨unique, -, apart⟩ := unique
      have fresh : id last ∉ chain.map id := fun old => apart _ old _ (by simp) rfl
      rw [List.getLast?_concat, Option.some.injEq]
      constructor
      · intro free
        rcases List.mem_append.mp member with earlier | here
        · have newest := (ih before unique earlier).mp fun newer present =>
            free newer (List.mem_append_left _ present)
          exact absurd (by rw [Supersedes, link, newest, Option.map_some]) (free last (by simp))
        · exact (List.mem_singleton.mp here).symm
      · rintro rfl newer present names
        rcases List.mem_append.mp present with earlier | here
        · exact fresh (before.parent_mem earlier names)
        · cases List.mem_singleton.mp here
          obtain ⟨older, newest, same⟩ := Option.map_eq_some_iff.mp (link.symm.trans names)
          exact fresh (List.mem_map.mpr ⟨older, List.mem_of_getLast? newest, same⟩)

/-- What every link of a lineage keeps is the same in the whole lineage. -/
theorem IsLineage.constant {chain : List R} (lineage : IsLineage id parent chain)
    (unique : (chain.map id).Nodup) {f : R → β}
    (keeps : ∀ newer ∈ chain, ∀ older ∈ chain, Supersedes id parent newer older →
      f newer = f older) :
    ∀ row ∈ chain, ∀ row' ∈ chain, f row = f row' := by
  induction chain using List.reverseRecOn with
  | nil => simp
  | append_singleton chain last ih =>
      obtain ⟨before, link⟩ := isLineage_append.mp lineage
      have old := ih before (by rw [List.map_append] at unique; exact unique.of_append_left)
        fun newer new older old => keeps newer (List.mem_append_left _ new) older
          (List.mem_append_left _ old)
      have new : ∀ row ∈ chain, f row = f last := by
        intro row member
        obtain ⟨newest, found⟩ : ∃ newest, chain.getLast? = some newest := by
          cases chain with
          | nil => simp at member
          | cons first rest => exact ⟨_, List.getLast?_eq_some_getLast (by simp)⟩
        have present := List.mem_of_getLast? found
        exact (old row member newest present).trans (keeps last (by simp) newest
          (List.mem_append_left _ present) (by rw [Supersedes, link, found, Option.map_some])).symm
      intro row member row' member'
      rcases List.mem_append.mp member with earlier | here <;>
        rcases List.mem_append.mp member' with earlier' | here'
      · exact old row earlier row' earlier'
      · cases List.mem_singleton.mp here'
        exact new row earlier
      · cases List.mem_singleton.mp here
        exact (new row' earlier').symm
      · rw [List.mem_singleton.mp here, List.mem_singleton.mp here']

/-! ## Tables of lineages -/

theorem unsuperseded_of_nodup {rows : List R} {row h : R}
    (once : ((rows ++ [row]).filterMap parent).Nodup) (names : Supersedes id parent row h) :
    Unsuperseded id parent rows h := by
  intro newer present supersedes
  rw [List.filterMap_append, List.nodup_append] at once
  exact once.2.2 (id h) (List.mem_filterMap.mpr ⟨newer, present, supersedes⟩) (id h)
    (List.mem_filterMap.mpr ⟨row, by simp, names⟩) rfl

/-- One lineage of a table has each identifier once. -/
theorem Chained.nodup {rows : List R} {chains : List (List R)}
    (chained : Chained id parent rows chains) (unique : (rows.map id).Nodup) {chain : List R}
    (member : chain ∈ chains) : (chain.map id).Nodup :=
  ((chained.partition.map id).nodup_iff.mpr unique).sublist
    ((List.sublist_flatten_of_mem member).map id)

theorem Chained.mem_rows {rows : List R} {chains : List (List R)}
    (chained : Chained id parent rows chains) {chain : List R} (member : chain ∈ chains) {row : R}
    (inChain : row ∈ chain) : row ∈ rows :=
  chained.partition.mem_iff.mp (List.mem_flatten.mpr ⟨chain, member, inChain⟩)

/-- A row that supersedes a row of a lineage is in the same lineage. -/
theorem Chained.mem_of_supersedes {rows : List R} {chains : List (List R)}
    (chained : Chained id parent rows chains) (unique : (rows.map id).Nodup) {chain : List R}
    (member : chain ∈ chains) {newer older : R} (inChain : older ∈ chain) (present : newer ∈ rows)
    (supersedes : Supersedes id parent newer older) : newer ∈ chain := by
  obtain ⟨chain', member', inChain'⟩ := List.mem_flatten.mp (chained.partition.mem_iff.mpr present)
  obtain ⟨row, inChain'', same⟩ :=
    List.mem_map.mp ((chained.lineage chain' member').parent_mem inChain' supersedes)
  have twice : row = older := List.inj_on_of_nodup_map unique (chained.mem_rows member' inChain'')
    (chained.mem_rows member inChain) same
  subst twice
  have apart : chains.flatten.Nodup :=
    .of_map id ((chained.partition.map id).nodup_iff.mpr unique)
  by_cases equal : chain' = chain
  · exact equal ▸ inChain'
  · have : Std.Symm (List.Disjoint (α := R)) := ⟨fun _ _ disjoint => disjoint.symm⟩
    exact absurd inChain ((List.nodup_flatten.mp apart).2.forall member' member equal inChain'')

/-- **Every lineage has exactly one row that is not superseded, its last.** -/
theorem Chained.head {rows : List R} {chains : List (List R)}
    (chained : Chained id parent rows chains) (unique : (rows.map id).Nodup) {chain : List R}
    (member : chain ∈ chains) {row : R} (inChain : row ∈ chain) :
    Unsuperseded id parent rows row ↔ chain.getLast? = some row := by
  rw [← (chained.lineage chain member).unsuperseded_iff (chained.nodup unique member) inChain]
  constructor
  · exact fun free newer new => free newer (chained.mem_rows member new)
  · exact fun free newer present supersedes =>
      free newer (chained.mem_of_supersedes unique member inChain present supersedes) supersedes

theorem Chained.existsUnique_head {rows : List R} {chains : List (List R)}
    (chained : Chained id parent rows chains) (unique : (rows.map id).Nodup) {chain : List R}
    (member : chain ∈ chains) : ∃! row, row ∈ chain ∧ Unsuperseded id parent rows row := by
  have last := List.getLast?_eq_some_getLast (chained.nonempty chain member)
  refine ⟨chain.getLast (chained.nonempty chain member), ⟨List.getLast_mem _, ?_⟩, ?_⟩
  · exact (chained.head unique member (List.getLast_mem _)).mpr last
  · rintro row ⟨inChain, free⟩
    exact Option.some.inj (((chained.head unique member inChain).mp free).symm.trans last)

/-- A lineage of a table lies in any part of the table that has its last row and, of every
row, what that supersedes. -/
theorem IsLineage.subset_of_last {rows part : List R} (unique : (rows.map id).Nodup)
    (within : part ⊆ rows)
    (closed : ∀ row ∈ part, ∀ p, parent row = some p → p ∈ part.map id) {chain : List R}
    (lineage : IsLineage id parent chain) (stored : chain ⊆ rows) {last : R}
    (newest : chain.getLast? = some last) (present : last ∈ part) : chain ⊆ part := by
  induction chain using List.reverseRecOn generalizing last with
  | nil => exact List.nil_subset part
  | append_singleton chain row ih =>
      obtain ⟨before, link⟩ := isLineage_append.mp lineage
      obtain rfl : row = last := by simpa using newest
      have earlier : chain ⊆ part := by
        cases newest' : chain.getLast? with
        | none =>
            obtain rfl : chain = [] := List.getLast?_eq_none_iff.mp newest'
            exact List.nil_subset part
        | some older =>
            have names : parent row = some (id older) := by rw [link, newest', Option.map_some]
            obtain ⟨other, inPart, same⟩ := List.mem_map.mp (closed row present _ names)
            have stored' : older ∈ rows :=
              stored (List.mem_append_left _ (List.mem_of_getLast? newest'))
            obtain rfl : other = older :=
              List.inj_on_of_nodup_map unique (within inPart) stored' same
            exact ih before (fun r member => stored (List.mem_append_left _ member)) newest' inPart
      intro other member
      rcases List.mem_append.mp member with old | new
      · exact earlier old
      · exact List.mem_singleton.mp new ▸ present

/-- A row that supersedes nothing starts a lineage. -/
theorem Chained.start {rows : List R} {chains : List (List R)}
    (chained : Chained id parent rows chains) {row : R} (root : parent row = none) :
    Chained id parent (rows ++ [row]) (chains ++ [[row]]) := by
  refine ⟨by simpa using chained.partition.append_right [row], ?_, ?_⟩
  · simpa [or_imp, forall_and] using chained.nonempty
  · simpa [or_imp, forall_and, IsLineage, root] using chained.lineage

/-- A row that supersedes the last row of a lineage continues it. -/
theorem Chained.extend {rows : List R} {before after : List (List R)} {chain : List R}
    (chained : Chained id parent rows (before ++ chain :: after)) {row last : R}
    (newest : chain.getLast? = some last) (names : Supersedes id parent row last) :
    Chained id parent (rows ++ [row]) (before ++ (chain ++ [row]) :: after) := by
  have longer : IsLineage id parent (chain ++ [row]) :=
    isLineage_append.mpr ⟨chained.lineage chain (by simp), by rw [names, newest]; rfl⟩
  refine ⟨?_, ?_, ?_⟩
  · have moved : ([row] ++ after.flatten).Perm (after.flatten ++ [row]) := List.perm_append_comm
    have whole := chained.partition.append_right [row]
    simp only [List.flatten_append, List.flatten_cons, List.append_assoc,
      List.singleton_append] at whole ⊢
    exact ((moved.append_left chain).append_left before.flatten).trans whole
  · intro chain' member'
    rcases List.mem_append.mp member' with old | new
    · exact chained.nonempty chain' (List.mem_append_left _ old)
    · rcases List.mem_cons.mp new with rfl | old
      · simp
      · exact chained.nonempty chain' (by simp [old])
  · intro chain' member'
    rcases List.mem_append.mp member' with old | new
    · exact chained.lineage chain' (List.mem_append_left _ old)
    · rcases List.mem_cons.mp new with rfl | old
      · exact longer
      · exact chained.lineage chain' (by simp [old])

/-- A row that is superseded for the first time is the last of its lineage. -/
theorem Chained.last_of_once {rows : List R} {chains : List (List R)}
    (chained : Chained id parent rows chains) (unique : (rows.map id).Nodup) {row older : R}
    (once : ((rows ++ [row]).filterMap parent).Nodup) (present : older ∈ rows)
    (names : Supersedes id parent row older) :
    ∃ chain ∈ chains, older ∈ chain ∧ chain.getLast? = some older := by
  obtain ⟨chain, inChains, inChain⟩ :=
    List.mem_flatten.mp (chained.partition.mem_iff.mpr present)
  have free := unsuperseded_of_nodup once names
  exact ⟨chain, inChains, inChain, (chained.head unique inChains inChain).mp free⟩

/-- **A table that only grew by corrections is made of lineages**: every row
supersedes none or an earlier row, and no row is superseded twice. -/
theorem exists_chained {rows : List R} (unique : (rows.map id).Nodup)
    (once : (rows.filterMap parent).Nodup)
    (linked : Linked (fun row => some (id row)) parent none [] rows) :
    ∃ chains, Chained id parent rows chains := by
  induction rows using List.reverseRecOn with
  | nil => exact ⟨[], .rfl, by simp, by simp⟩
  | append_singleton rows row ih =>
      obtain ⟨linked, resolves, -⟩ := linked_append.mp linked
      have unique' : (rows.map id).Nodup := by
        rw [List.map_append] at unique
        exact unique.of_append_left
      have once' : (rows.filterMap parent).Nodup := by
        rw [List.filterMap_append] at once
        exact once.of_append_left
      obtain ⟨chains, chained⟩ := ih unique' once' linked
      rcases resolves with root | ⟨older, member, names⟩
      · exact ⟨_, chained.start root⟩
      · -- the corrected row ends its lineage, which the new row continues
        have present : older ∈ rows := by simpa using member
        obtain ⟨chain, inChains, -, newest⟩ :=
          chained.last_of_once unique' once present names.symm
        obtain ⟨before, after, rfl⟩ := List.append_of_mem inChains
        exact ⟨_, chained.extend newest names.symm⟩

/-! ## Walks -/

/-- One row of the table supersedes another. -/
def SupersedesIn (id : R → I) (parent : R → Option I) (rows : List R) (newer older : R) : Prop :=
  newer ∈ rows ∧ older ∈ rows ∧ Supersedes id parent newer older

/-- A path in a relation that grew at one point is an old path or goes through it. -/
theorem transGen_through {old new : R → R → Prop} {point : R}
    (elsewhere : ∀ a b, new a b → a ≠ point → b ≠ point → old a b) {a b : R}
    (path : Relation.TransGen new a b) : Relation.TransGen old a b ∨
      (Relation.ReflTransGen new a point ∧ Relation.ReflTransGen new point b) := by
  have edge : ∀ a b, new a b → old a b ∨
      (Relation.ReflTransGen new a point ∧ Relation.ReflTransGen new point b) := by
    intro a b step
    by_cases first : a = point
    · exact .inr ⟨first ▸ .refl, first ▸ .single step⟩
    by_cases second : b = point
    · exact .inr ⟨second ▸ .single step, second ▸ .refl⟩
    exact .inl (elsewhere a b step first second)
  induction path with
  | single step => exact (edge _ _ step).imp_left .single
  | tail before step ih =>
      rcases ih with old | ⟨toPoint, fromPoint⟩
      · rcases edge _ _ step with old' | ⟨toPoint, fromPoint⟩
        · exact .inl (old.tail old')
        · exact .inr ⟨before.to_reflTransGen.trans toPoint, fromPoint⟩
      · exact .inr ⟨toPoint, fromPoint.tail step⟩

/-- A walk that stays in a finite table without cycles ends. -/
theorem no_infinite_walk {rows : List R} {related : R → R → Prop}
    (acyclic : ∀ row ∈ rows, ¬ Relation.TransGen related row row) :
    ¬ ∃ walk : Nat → R, ∀ n, walk n ∈ rows ∧ related (walk n) (walk (n + 1)) := by
  classical
  rintro ⟨walk, steps⟩
  have later : ∀ n m, Relation.TransGen related (walk n) (walk (n + m + 1)) := by
    intro n m
    induction m with
    | zero => exact .single (steps n).2
    | succ m ih => exact ih.tail (steps (n + m + 1)).2
  obtain ⟨i, j, differ, same⟩ := Finite.exists_ne_map_eq_of_infinite
    fun n => (⟨walk n, (steps n).1⟩ : {row // row ∈ rows})
  have same : walk i = walk j := congrArg Subtype.val same
  rcases Nat.lt_or_gt_of_ne differ with before | before
  · have cycle := later i (j - i - 1)
    rw [show i + (j - i - 1) + 1 = j by omega, ← same] at cycle
    exact acyclic _ (steps i).1 cycle
  · have cycle := later j (i - j - 1)
    rw [show j + (i - j - 1) + 1 = i by omega, same] at cycle
    exact acyclic _ (steps j).1 cycle

/-! ## The newest row -/

/-- The first row of the query that orders by time, newest first: one of those
that share the greatest time. -/
def newest (time : R → Nat) (pick : Nat) (rows : List R) : Option R :=
  let first := rows.filter fun row => rows.all fun other => time other ≤ time row
  first[pick % first.length]?

theorem newest_mem {time : R → Nat} {pick : Nat} {rows : List R} {row : R}
    (found : newest time pick rows = some row) : row ∈ rows :=
  List.mem_of_mem_filter (List.mem_of_getElem? found)

@[simp] theorem newest_nil {time : R → Nat} {pick : Nat} : newest time pick [] = none := rfl

end LandVault.Library.Lineage
