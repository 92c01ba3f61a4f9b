import Mathlib.Data.List.Nodup
import Mathlib.Logic.Relation

/-!
# Nodes linked by hashes

Nodes that store a hash of themselves and the hash of one predecessor form a
graph that grows away from a root: several nodes may name the same predecessor.
A node is well placed when following predecessors through the stored hashes ends
at the root.

Three facts carry the uses of such graphs. The sequence of predecessors of a hash
is unique. Two graphs that store the same node under every hash they share agree
on the whole sequence of predecessors of every shared hash. And a list in which
every node names the root or an earlier node has all its nodes well placed,
whatever is inserted between.
-/

set_option autoImplicit false

namespace LandVault.Library.HashLinks

variable {N H : Type} (hash prev : N → H) (root : H)

/-- The root, or the hash of a stored node. -/
def Resolves (nodes : List N) (h : H) : Prop := h = root ∨ ∃ n ∈ nodes, hash n = h

/-- Following predecessors from `h` through the stored hashes ends at the root. -/
inductive ReachesRoot (nodes : List N) : H → Prop where
  | root : ReachesRoot nodes root
  | link {n : N} (member : n ∈ nodes) (rest : ReachesRoot nodes (prev n)) :
      ReachesRoot nodes (hash n)

/-- `path` is the sequence of nodes from `h` down to the root, each the predecessor
of the one before. -/
inductive PredChain (nodes : List N) : H → List N → Prop where
  | root : PredChain nodes root []
  | link {n : N} {path : List N} (member : n ∈ nodes) (above : hash n ≠ root)
      (rest : PredChain nodes (prev n) path) : PredChain nodes (hash n) (n :: path)

/-- The hash `h` is above the root and is stored with the predecessor `h'`. -/
def Link (nodes : List N) (h h' : H) : Prop := h ≠ root ∧ ∃ n ∈ nodes, hash n = h ∧ prev n = h'

variable {hash prev root}

theorem ReachesRoot.exists_predChain {nodes : List N} {h : H}
    (reaches : ReachesRoot hash prev root nodes h) :
    ∃ path, PredChain hash prev root nodes h path := by
  induction reaches with
  | root => exact ⟨[], .root⟩
  | link member _ ih =>
      rename_i n _
      obtain ⟨path, chain⟩ := ih
      by_cases above : hash n = root
      · exact ⟨[], above ▸ .root⟩
      · exact ⟨n :: path, .link member above chain⟩

/-- Reaching the root needs the nodes on the way only. -/
theorem ReachesRoot.mono {nodes nodes' : List N} (subset : nodes ⊆ nodes') {h : H}
    (reaches : ReachesRoot hash prev root nodes h) : ReachesRoot hash prev root nodes' h := by
  induction reaches with
  | root => exact .root
  | link member _ ih => exact .link (subset member) ih

/-- A hash that reaches the root is the root or has its node. -/
theorem ReachesRoot.resolves {nodes : List N} {h : H}
    (reaches : ReachesRoot hash prev root nodes h) : Resolves hash root nodes h := by
  cases reaches with
  | root => exact .inl rfl
  | link member _ => exact .inr ⟨_, member, rfl⟩

/-! ## One node for each hash -/

section Unique

variable {nodes : List N} (unique : (nodes.map hash).Nodup)
include unique

theorem eq_of_hash {n n' : N} (member : n ∈ nodes) (member' : n' ∈ nodes)
    (same : hash n = hash n') : n = n' :=
  List.inj_on_of_nodup_map unique member member' same

/-- A node above the root reaches the root exactly when its predecessor does. -/
theorem reachesRoot_node {n : N} (member : n ∈ nodes) (above : hash n ≠ root) :
    ReachesRoot hash prev root nodes (hash n) ↔ ReachesRoot hash prev root nodes (prev n) := by
  refine ⟨fun reaches => ?_, .link member⟩
  generalize stored : hash n = h at reaches
  cases reaches with
  | root => exact absurd stored above
  | link member' rest => exact eq_of_hash unique member member' stored ▸ rest

/-- No hash that reaches the root comes back to itself. -/
theorem ReachesRoot.acyclic {h : H} (reaches : ReachesRoot hash prev root nodes h) :
    ¬ Relation.TransGen (Link hash prev root nodes) h h := by
  have accessible : Acc (fun h' h => Link hash prev root nodes h h') h := by
    induction reaches with
    | root => exact ⟨_, fun h' link => absurd rfl link.1⟩
    | link member _ ih =>
        refine ⟨_, fun h' link => ?_⟩
        obtain ⟨_, n', member', stored, rfl⟩ := link
        cases eq_of_hash unique member' member stored
        exact ih
  intro cycle
  have descending : Acc (Relation.TransGen fun h' h => Link hash prev root nodes h h') h :=
    accessible.transGen
  have back : Relation.TransGen (fun h' h => Link hash prev root nodes h h') h h :=
    Relation.transGen_swap.mp cycle
  clear cycle reaches accessible
  induction descending with
  | intro h _ ih => exact ih h back back

end Unique

/-! ## Two graphs -/

theorem PredChain.nil_of_root {nodes : List N} {h : H} {path : List N}
    (chain : PredChain hash prev root nodes h path) (isRoot : h = root) : path = [] := by
  cases chain with
  | root => rfl
  | link _ above _ => exact absurd isRoot above

/-- **Graphs that agree on shared hashes agree on the past.** If the two graphs
store one node under every hash they share, a hash has the same sequence of
predecessors in both. -/
theorem PredChain.agree {nodes nodes' : List N}
    (same : ∀ n ∈ nodes, ∀ n' ∈ nodes', hash n = hash n' → n = n') {h : H} {path path' : List N}
    (chain : PredChain hash prev root nodes h path)
    (chain' : PredChain hash prev root nodes' h path') : path = path' := by
  induction chain generalizing path' with
  | root => exact (chain'.nil_of_root rfl).symm
  | link member above _ ih =>
      rename_i n path _
      generalize stored : hash n = h at chain'
      cases chain' with
      | root => exact absurd stored above
      | link member' _ rest =>
          cases same _ member _ member' stored
          rw [ih rest]

/-! ## Lists that grow -/

/-- Every node of `added` names the root, a node of `base` or an earlier one of
`added`. -/
def Linked (hash prev : N → H) (root : H) : List N → List N → Prop
  | _, [] => True
  | base, n :: added => Resolves hash root base (prev n) ∧ Linked hash prev root (base ++ [n]) added

theorem Resolves.mono {base base' : List N} (subset : base ⊆ base') {h : H}
    (resolves : Resolves hash root base h) : Resolves hash root base' h :=
  resolves.imp_right fun ⟨n, member, stored⟩ => ⟨n, subset member, stored⟩

/-- What was linked stays linked when nodes come in before it. -/
theorem Linked.mono {base base' added : List N} (subset : base ⊆ base')
    (linked : Linked hash prev root base added) : Linked hash prev root base' added := by
  induction added generalizing base base' with
  | nil => trivial
  | cons n added ih =>
      exact ⟨linked.1.mono subset, ih (List.append_subset.mpr
        ⟨fun _ member => List.mem_append_left _ (subset member), by simp⟩) linked.2⟩

theorem linked_append {base first second : List N} :
    Linked hash prev root base (first ++ second) ↔
      Linked hash prev root base first ∧ Linked hash prev root (base ++ first) second := by
  induction first generalizing base with
  | nil => simp [Linked]
  | cons n first ih => simp [Linked, ih, and_assoc]

/-- What every node of a list that grew names is the root or a node of the list. -/
theorem Linked.resolves {base added : List N} (linked : Linked hash prev root base added) {n : N}
    (member : n ∈ added) : Resolves hash root (base ++ added) (prev n) := by
  induction added generalizing base with
  | nil => cases member
  | cons m added ih =>
      rcases List.mem_cons.mp member with rfl | later
      · exact linked.1.mono (List.subset_append_left _ _)
      · simpa using ih linked.2 later

/-- Links that are finer than others. -/
theorem Linked.map {H' : Type} (f : H → H') {base added : List N}
    (linked : Linked hash prev root base added) :
    Linked (f ∘ hash) (f ∘ prev) (f root) base added := by
  induction added generalizing base with
  | nil => trivial
  | cons n added ih =>
      refine ⟨linked.1.imp (congrArg f) ?_, ih linked.2⟩
      rintro ⟨m, member, stored⟩
      exact ⟨m, member, congrArg f stored⟩

/-- Every node of a list that grew from a well placed one is well placed. -/
theorem Linked.reachesRoot {base added : List N} (linked : Linked hash prev root base added)
    (placed : ∀ n ∈ base, ReachesRoot hash prev root base (hash n)) :
    ∀ n ∈ base ++ added, ReachesRoot hash prev root (base ++ added) (hash n) := by
  induction added generalizing base with
  | nil => simpa using placed
  | cons n added ih =>
      have before : ReachesRoot hash prev root (base ++ [n]) (prev n) := by
        rcases linked.1 with isRoot | ⟨m, member, stored⟩
        · exact isRoot ▸ .root
        · exact stored ▸ (placed m member).mono (List.subset_append_left _ _)
      have placed' : ∀ m ∈ base ++ [n], ReachesRoot hash prev root (base ++ [n]) (hash m) := by
        intro m member
        rcases List.mem_append.mp member with old | new
        · exact (placed m old).mono (List.subset_append_left _ _)
        · cases List.mem_singleton.mp new
          exact .link (by simp) before
      simpa using ih linked.2 placed'

end LandVault.Library.HashLinks
