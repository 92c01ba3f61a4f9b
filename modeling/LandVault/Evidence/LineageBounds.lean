import LandVault.Entities
import LandVault.Evidence.AttributionConcurrency
import LandVault.Evidence.RejectCycle
import LandVault.Library.Interference

/-!
# The two bounds of a lineage

The trigger that rejects cycles counts the pointers that lead backward from a new row and
gives up at a bound; the service looks successors up and gives up after as many. A lineage
that the trigger lets grow has at most as many rows as the bound says, and from the first
of them the service needs all its look-ups to find that the last has no successor.
-/

set_option autoImplicit false

namespace LandVault.Evidence

open Kernel Library.HashLinks Library.Lineage Library.Programs Library.ReadCommitted Python

abbrev AttributionRow := EvidenceActorAttributionModel

/-! ## Tables built by inserts of single rows -/

/-- The row is as the service makes it: it supersedes nothing, or a stored row of its
tenant and its evidence. -/
def Issued (rows : List AttributionRow) (row : AttributionRow) : Prop :=
  placeBelow row = none ∨ ∃ older ∈ rows, place older = placeBelow row

/-- The tables that accepted INSERTs of single rows build. -/
inductive Built : List AttributionRow → Prop where
  | empty : Built []
  | insert {rows stored : List AttributionRow} {statement : InsertStatement} {row : AttributionRow} (built : Built rows)
      (single : statement.rows = [row]) (issued : Issued rows row)
      (accepted : statement.run rows = .ok stored) : Built stored

/-! ## The trigger counts the rows of the lineage -/

/-- The one row that a condition selects from rows without two of its kind. -/
theorem filter_eq_singleton {I : Type} [DecidableEq I] {f : AttributionRow → Option I} {rows : List AttributionRow}
    (once : (rows.filterMap f).Nodup) {row : AttributionRow} {i : I} (member : row ∈ rows)
    (named : f row = some i) : rows.filter (f · = some i) = [row] := by
  induction rows with
  | nil => cases member
  | cons first rows ih =>
      rcases List.mem_cons.mp member with rfl | later
      · have others : rows.filter (f · = some i) = [] := by
          refine List.filter_eq_nil_iff.mpr fun other present same => ?_
          rw [List.filterMap_cons_some named] at once
          exact (List.nodup_cons.mp once).1
            (List.mem_filterMap.mpr ⟨other, present, by simpa using same⟩)
        simp [named, others]
      · have once' : (rows.filterMap f).Nodup := by
          cases given : f first with
          | none => rwa [List.filterMap_cons_none given] at once
          | some j =>
              rw [List.filterMap_cons_some given] at once
              exact (List.nodup_cons.mp once).2
        have other : f first ≠ some i := by
          intro same
          rw [List.filterMap_cons_some same] at once
          exact (List.nodup_cons.mp once).1 (List.mem_filterMap.mpr ⟨row, later, named⟩)
        rw [List.filter_cons_of_neg (by simpa using other)]
        exact ih once' later

/-- From the last row of a lineage the walk visits the rows of the lineage, newest first,
up to its depth. -/
theorem ancestry_lineage {seen : List AttributionRow} (unique : (seen.map (·.id)).Nodup) {chain : List AttributionRow}
    (lineage : IsLineage (·.id) (·.supersedesId) chain) (visible : chain ⊆ seen) {last : AttributionRow}
    (newest : chain.getLast? = some last) (depth : Nat) :
    ancestry seen depth [last.id] = (chain.reverse.map (·.id)).take depth := by
  induction chain using List.reverseRecOn generalizing last depth with
  | nil => cases newest
  | append_singleton chain row ih =>
      obtain ⟨before, link⟩ := isLineage_append.mp lineage
      obtain rfl : row = last := by simpa using newest
      cases depth with
      | zero => rfl
      | succ depth =>
          have ids : (seen.filterMap fun row => some row.id).Nodup := by simpa using unique
          have found : seen.filter (fun stored => stored.id = row.id) = [row] := by
            simpa using filter_eq_singleton ids (visible (by simp)) rfl
          rw [ancestry_cons List.mem_cons_self, List.flatMap_singleton, found,
            List.reverse_append]
          cases older : chain.getLast? with
          | none =>
              obtain rfl : chain = [] := List.getLast?_eq_none_iff.mp older
              have root : row.supersedesId = none := by simpa using link
              cases depth <;> simp [root, ancestry]
          | some previous =>
              have names : row.supersedesId = some previous.id := by simpa [older] using link
              have rest := ih before (fun r member => visible (by simp [member])) older depth
              simp [names, rest]

/-- **The trigger accepts a correction exactly up to its bound**: the lineage that it
extends has fewer rows. -/
theorem rejectCycle_iff {rows : List AttributionRow} (unique : (rows.map (·.id)).Nodup) {chain : List AttributionRow}
    (lineage : IsLineage (·.id) (·.supersedesId) chain) (stored : chain ⊆ rows) {head : AttributionRow}
    (newest : chain.getLast? = some head) {scope : Scope}
    (visible : ∀ row ∈ chain, scope.sees row.tenantId = true) {row : AttributionRow}
    (names : row.supersedesId = some head.id) (fresh : row.id ∉ rows.map (·.id)) :
    rejectCycle scope rows row = .ok () ↔ chain.length < maxCycleDepth := by
  have seen : chain ⊆ rows.filter fun stored => scope.sees stored.tenantId :=
    fun r member => List.mem_filter.mpr ⟨stored member, visible r member⟩
  have walk := ancestry_lineage (unique.sublist (List.filter_sublist.map _)) lineage seen newest
    maxCycleDepth
  have other : row.id ∉ ancestry (rows.filter fun stored => scope.sees stored.tenantId)
      maxCycleDepth [head.id] := by
    rw [walk]
    intro visited
    obtain ⟨r, member, same⟩ := List.mem_map.mp (List.mem_of_mem_take visited)
    exact fresh (List.mem_map.mpr ⟨r, stored (List.mem_reverse.mp member), same⟩)
  have unvisited : (ancestry (rows.filter fun stored => scope.sees stored.tenantId)
      maxCycleDepth [head.id]).contains row.id = false := by simpa using other
  simp only [rejectCycle, names, unvisited, Bool.false_eq_true, if_false]
  rw [walk, List.length_take, List.length_map, List.length_reverse]
  split
  · rename_i long
    exact ⟨fun ok => (by cases ok), fun short => absurd long (by omega)⟩
  · rename_i short
    exact ⟨fun _ => by omega, fun _ => rfl⟩

/-! ## What single inserts build -/

/-- The lineages of a table, none longer than the bound. -/
structure Bounded (rows : List AttributionRow) (chains : List (List AttributionRow)) : Prop where
  ordered : InOrder rows
  unique : (rows.map (·.id)).Nodup
  once : (rows.filterMap (·.supersedesId)).Nodup
  chained : Chained (·.id) (·.supersedesId) rows chains
  short : ∀ chain ∈ chains, chain.length ≤ maxCycleDepth

/-- The rows of one lineage have one tenant and one evidence. -/
theorem Bounded.constant {rows : List AttributionRow} {chains : List (List AttributionRow)}
    (bounded : Bounded rows chains) {chain : List AttributionRow} (member : chain ∈ chains) :
    ∀ row ∈ chain, ∀ row' ∈ chain,
      row.tenantId = row'.tenantId ∧ row.evidenceId = row'.evidenceId :=
  bounded.ordered.constant bounded.unique bounded.chained member

theorem Bounded.tenant {rows : List AttributionRow} {chains : List (List AttributionRow)}
    (bounded : Bounded rows chains) {chain : List AttributionRow} (member : chain ∈ chains) :
    ∀ row ∈ chain, ∀ row' ∈ chain, row.tenantId = row'.tenantId :=
  fun row inChain row' inChain' => (bounded.constant member row inChain row' inChain').1

/-- What an accepted INSERT of one row has passed. -/
theorem run_single {statement : InsertStatement} {rows stored : List AttributionRow} {row : AttributionRow}
    (single : statement.rows = [row]) (accepted : statement.run rows = .ok stored) :
    stored = rows ++ [row] ∧ rejectCycle statement.scope rows row = .ok () ∧
      statement.scope.sees row.tenantId = true ∧ row.id ∉ rows.map (·.id) ∧
      (row.supersedesId.isSome = true → row.supersedesId ∉ rows.map (·.supersedesId)) := by
  obtain ⟨stored', all, checked⟩ := bind_eq_ok accepted
  obtain ⟨_, _, same⟩ := map_eq_ok checked
  subst same
  rw [single] at all
  obtain ⟨after, one, rest⟩ := bind_eq_ok all
  cases rest
  obtain ⟨_, passed, one⟩ := bind_eq_ok one
  obtain ⟨_, _, cycle, seen, _⟩ := checkNewRow_ok passed
  split_ifs at one with present twice
  cases one
  refine ⟨rfl, cycle, seen, present, fun given listed => twice ?_⟩
  simpa [given] using listed

/-- A row that supersedes nothing begins a lineage. -/
theorem Bounded.begin {rows : List AttributionRow} {chains : List (List AttributionRow)}
    (bounded : Bounded rows chains) {row : AttributionRow} (fresh : row.id ∉ rows.map (·.id))
    (root : row.supersedesId = none) : Bounded (rows ++ [row]) (chains ++ [[row]]) where
  ordered := bounded.ordered.append (.inl (by simp [placeBelow, root]))
  unique := by
    rw [List.map_append, List.map_singleton]
    exact bounded.unique.append (by simp) (by simpa using fresh)
  once := by simpa [root] using bounded.once
  chained := bounded.chained.start root
  short := by
    intro chain member
    rcases List.mem_append.mp member with old | new
    · exact bounded.short chain old
    · cases List.mem_singleton.mp new
      exact Nat.le_add_left 1 _

/-- What the row supersedes, as a stored row of its tenant and evidence. -/
theorem Issued.superseded {rows : List AttributionRow} {row : AttributionRow}
    (issued : Issued rows row) {superseded : UUID} (given : row.supersedesId = some superseded) :
    ∃ older ∈ rows, older.id = superseded ∧ older.tenantId = row.tenantId ∧
      older.evidenceId = row.evidenceId := by
  rcases issued with root | ⟨older, present, agrees⟩
  · simp [placeBelow, given] at root
  · exact ⟨older, present, by simpa [place, placeBelow, given] using agrees⟩

/-- A row that supersedes the last row of a lineage, where the lineage has room. -/
theorem Bounded.correct {rows : List AttributionRow} {chains : List (List AttributionRow)}
    (bounded : Bounded rows chains) {row : AttributionRow} (fresh : row.id ∉ rows.map (·.id))
    (issued : Issued rows row)
    (once : ((rows ++ [row]).filterMap (·.supersedesId)).Nodup) {older : AttributionRow}
    (present : older ∈ rows) (names : row.supersedesId = some older.id)
    (room : ∀ chain ∈ chains, chain.getLast? = some older → chain.length < maxCycleDepth) :
    ∃ chains', Bounded (rows ++ [row]) chains' := by
  have unique : ((rows ++ [row]).map (·.id)).Nodup := by
    rw [List.map_append, List.map_singleton]
    exact bounded.unique.append (by simp) (by simpa using fresh)
  obtain ⟨chain, member, _, newest⟩ :=
    bounded.chained.last_of_once bounded.unique once present names
  have short := room chain member newest
  obtain ⟨before, after, rfl⟩ := List.append_of_mem member
  refine ⟨_, bounded.ordered.append issued, unique, once, bounded.chained.extend newest names, ?_⟩
  intro chain' member'
  rcases List.mem_append.mp member' with old | new
  · exact bounded.short chain' (List.mem_append_left _ old)
  · rcases List.mem_cons.mp new with rfl | old
    · simpa [Nat.succ_le_iff] using short
    · exact bounded.short chain' (by simp [old])

/-- The trigger has measured the lineage that the row continues, at the rows that were
stored when it ran. -/
theorem Bounded.room {rows earlier : List AttributionRow} {chains : List (List AttributionRow)}
    (bounded : Bounded rows chains) (stored : earlier ⊆ rows) (ordered : InOrder earlier)
    (unique : (earlier.map (·.id)).Nodup) {row older : AttributionRow} (present : older ∈ earlier)
    (names : row.supersedesId = some older.id) (tenant : older.tenantId = row.tenantId)
    {scope : Scope} (seen : scope.sees row.tenantId = true)
    (accepted : rejectCycle scope earlier row = .ok ()) (fresh : row.id ∉ rows.map (·.id))
    {chain : List AttributionRow} (member : chain ∈ chains)
    (newest : chain.getLast? = some older) : chain.length < maxCycleDepth := by
  have lineage := bounded.chained.lineage chain member
  have closed : ∀ other ∈ earlier, ∀ p, other.supersedesId = some p →
      p ∈ earlier.map (·.id) := by
    intro other inEarlier p given
    obtain ⟨below, present', same, _⟩ :=
      Issued.superseded (by simpa [Issued, Resolves] using ordered.resolves inEarlier) given
    exact List.mem_map.mpr ⟨below, present', same⟩
  have visited : chain ⊆ earlier :=
    lineage.subset_of_last bounded.unique stored closed
      (fun r inChain => bounded.chained.mem_rows member inChain) newest present
  refine (rejectCycle_iff unique lineage visited newest (fun r inChain => ?_) names
    fun old => fresh (List.map_subset _ stored old)).mp accepted
  rw [bounded.tenant member r inChain older (List.mem_of_getLast? newest), tenant]
  exact seen

theorem Built.bounded {rows : List AttributionRow} (built : Built rows) :
    ∃ chains, Bounded rows chains := by
  induction built with
  | empty => exact ⟨[], trivial, by simp, by simp, ⟨.rfl, by simp, by simp⟩, by simp⟩
  | @insert rows stored statement row built single issued accepted ih =>
      obtain ⟨chains, bounded⟩ := ih
      obtain ⟨rfl, cycle, seen, fresh, first⟩ := run_single single accepted
      cases given : row.supersedesId with
      | none => exact ⟨_, bounded.begin fresh given⟩
      | some superseded =>
          have once : ((rows ++ [row]).filterMap (·.supersedesId)).Nodup := by
            rw [List.filterMap_append]
            refine bounded.once.append (by simp [given]) ?_
            intro p old new
            obtain ⟨newer, present, names⟩ := List.mem_filterMap.mp old
            have named : row.supersedesId = some p := by simpa [given, eq_comm] using new
            exact first (by simp [given]) (List.mem_map.mpr ⟨newer, present, names.trans named.symm⟩)
          obtain ⟨older, present, rfl, tenant, _⟩ := issued.superseded given
          exact bounded.correct fresh issued once present given fun chain member newest =>
            bounded.room (List.Subset.refl rows) bounded.ordered bounded.unique present given tenant
              seen cycle fresh member newest

/-! ## The service finds the head -/

/-- A session that sees these attributions, in this scope. -/
structure Sees (rows : List AttributionRow) (scope : Scope) (db : Database Unit) (s : DbSession) : Prop where
  whole : s.broken = false
  rows : (engine.view db s).attributions = rows
  scope : s.memo.scope = scope

/-- However the outside world decides, a program that runs alone returns this value after
so many statements, as long as the connection is there. -/
def Returns {α : Type} (statements : Nat) (program : Request α) (value : α) (db : Database Unit)
    (s : DbSession) : Prop :=
  ∀ choices : List (Choice Env), choices.length = statements →
    (∀ choice ∈ choices, choice.fails = false) →
      ∃ db' s', play (postgres Unit) () choices db s program = some (.ok value, db', s')

variable {α β : Type} {rows : List AttributionRow} {scope : Scope} {db : Database Unit} {s : DbSession}

theorem returns_pure (value : α) : Returns 0 (.ret value) value db s := by
  intro choices none _
  obtain rfl : choices = [] := List.length_eq_zero_iff.mp none
  exact ⟨db, s, rfl⟩

/-- A SELECT answers what the session sees, and leaves it as it is. -/
theorem returns_select {answer : View Tables Memo Env → Except PyExc β} {b : β}
    {next : Except PyExc β → Request α} {value : α} {statements : Nat} (whole : s.broken = false)
    (answers : ∀ startedAt env, answer ⟨engine.view db s, s.memo, startedAt, env⟩ = .ok b)
    (continues : ∀ db' s', s'.broken = false → engine.view db' s' = engine.view db s →
      s'.memo = s.memo → Returns statements (next (.ok b)) value db' s') :
    Returns (statements + 1)
      (.step (.query fun view => (answer view).map fun b => { memo := view.memo, answer := .ok b })
        next) value db s := by
  intro choices length kept
  obtain ⟨choice, choices, rfl⟩ := List.exists_cons_of_length_eq_add_one length
  let now := db.advance s choice.tick
  let begun := s.opened now.clock
  have view : engine.view now begun = engine.view db s := by simp [now, begun, Engine.view]
  have memo : begun.memo = s.memo := by simp [begun]
  have ran : answer ⟨engine.view now begun, begun.memo, begun.startedAt, choice.env⟩ = .ok b := by
    rw [view, memo]
    exact answers _ _
  have executed : (postgres Unit).exec () db s
      (.query fun view => (answer view).map fun b => { memo := view.memo, answer := .ok b }) choice =
        some (.ok b, now, begun) := by
    simp only [postgres, Engine.machine, Engine.exec, whole, kept choice List.mem_cons_self,
      Bool.false_eq_true, if_false]
    rw [ran]
    rfl
  obtain ⟨db', s', played⟩ := continues now begun (by simpa [begun] using whole) view memo choices
    (by simpa using length) fun c member => kept c (List.mem_cons_of_mem _ member)
  exact ⟨db', s', by simp only [play, executed, played]⟩

/-- A SELECT whose answer depends on the visible attributions only. -/
theorem Sees.select (sees : Sees rows scope db s) {answer : View Tables Memo Env → Except PyExc β}
    {b : β} {next : Except PyExc β → Request α} {value : α} {statements : Nat}
    (answers : ∀ view : View Tables Memo Env, view.tables.attributions = rows →
      view.memo.scope = scope → answer view = .ok b)
    (continues : ∀ db s, Sees rows scope db s → Returns statements (next (.ok b)) value db s) :
    Returns (statements + 1)
      (.step (.query fun view => (answer view).map fun b => { memo := view.memo, answer := .ok b })
        next) value db s := by
  refine returns_select sees.whole (fun _ _ => answers _ sees.rows sees.scope) ?_
  intro db' s' whole view memo
  exact continues db' s' ⟨whole, view ▸ sees.rows, memo ▸ sees.scope⟩

/-- The rows of the table that supersede a row of a lineage: the next one, if there is one. -/
theorem Bounded.successors {chains : List (List AttributionRow)} (bounded : Bounded rows chains)
    {before after : List AttributionRow} {current : AttributionRow} (member : before ++ current :: after ∈ chains)
    (visible : ∀ row ∈ before ++ current :: after, scope.sees row.tenantId = true) :
    ((rows.filter fun row => scope.sees row.tenantId).filter (·.supersedesId = some current.id)) =
      after.head?.toList := by
  have lineage := bounded.chained.lineage _ member
  cases after with
  | nil =>
      have newest : (before ++ [current]).getLast? = some current := by simp
      have free := (bounded.chained.head bounded.unique member (by simp)).mpr newest
      refine List.filter_eq_nil_iff.mpr fun row inRows names => ?_
      have names : row.supersedesId = some current.id := by simpa using names
      exact free row (List.mem_of_mem_filter inRows) names
  | cons next after =>
      have names : next.supersedesId = some current.id := by
        cases before with
        | nil => exact (List.isChain_cons_cons.mp lineage.2).1
        | cons first before =>
            have links := (@List.isChain_append _ _ (first :: before) _).mp lineage.2
            exact (List.isChain_cons_cons.mp links.2.1).1
      have stored : next ∈ rows.filter fun row => scope.sees row.tenantId :=
        List.mem_filter.mpr ⟨bounded.chained.mem_rows member (by simp), visible next (by simp)⟩
      exact filter_eq_singleton (bounded.once.sublist (List.filter_sublist.filterMap _)) stored names

/-- The walk from a row of a lineage, with as many look-ups as rows are left. -/
theorem Bounded.walkToHead {chains : List (List AttributionRow)} (bounded : Bounded rows chains)
    (attributionId : String) {after : List AttributionRow} {current head : AttributionRow} {hops : Nat}
    (enough : after.length < hops) {before : List AttributionRow}
    (member : before ++ current :: after ∈ chains)
    (visible : ∀ row ∈ before ++ current :: after, scope.sees row.tenantId = true)
    (newest : (current :: after).getLast? = some head) (sees : Sees rows scope db s) :
    Returns (after.length + 1) (Evidence.walkToHead attributionId hops current.attribution)
      head.attribution db s := by
  have found := bounded.successors member visible
  have answers : ∀ view : View Tables Memo Env, view.tables.attributions = rows →
      view.memo.scope = scope →
      (Except.ok ((LandVault.visible (·.tenantId) (·.attributions) view).filter
        (·.supersedesId = some current.id)) : Except PyExc (List AttributionRow)) = .ok after.head?.toList := by
    intro view table inScope
    rw [← found, LandVault.visible, table, inScope]
  induction after generalizing before current hops db s with
  | nil =>
      obtain ⟨hops, rfl⟩ : ∃ n, hops = n + 1 := ⟨hops - 1, by omega⟩
      obtain rfl : current = head := by simpa using newest
      exact sees.select answers fun db s sees => returns_pure _
  | cons next after ih =>
      obtain ⟨hops, rfl⟩ : ∃ n, hops = n + 1 := ⟨hops - 1, by omega⟩
      refine sees.select answers fun db s sees => ?_
      have member' : (before ++ [current]) ++ next :: after ∈ chains := by simpa using member
      have visible' : ∀ row ∈ (before ++ [current]) ++ next :: after,
          scope.sees row.tenantId = true := by simpa using visible
      have found' := bounded.successors member' visible'
      refine ih (by simpa using enough) member' visible' (by simpa using newest) sees found'
        fun view table inScope => ?_
      rw [← found', LandVault.visible, table, inScope]

/-- `_resolve_active_head`, from a row of a lineage. -/
theorem Bounded.resolveActiveHead {chains : List (List AttributionRow)} (bounded : Bounded rows chains)
    {chain : List AttributionRow} (member : chain ∈ chains) {row head : AttributionRow} (inChain : row ∈ chain)
    (newest : chain.getLast? = some head) (seen : scope.sees row.tenantId = true)
    (sees : Sees rows scope db s) :
    ∃ statements,
      Returns statements (Evidence.resolveActiveHead row.id.str) head.attribution db s := by
  have visible : ∀ other ∈ chain, scope.sees other.tenantId = true :=
    fun other inChain' => bounded.tenant member other inChain' row inChain ▸ seen
  obtain ⟨before, after, rfl⟩ := List.append_of_mem inChain
  have short := bounded.short _ member
  have enough : after.length < maxLineageWalk := by
    rw [List.length_append, List.length_cons] at short
    have same : maxLineageWalk = maxCycleDepth := rfl
    omega
  have stored : row ∈ rows.filter fun row => scope.sees row.tenantId :=
    List.mem_filter.mpr ⟨bounded.chained.mem_rows member inChain, seen⟩
  have found : (rows.filter fun row => scope.sees row.tenantId).find? (·.id = row.id) = some row :=
    (find?_eq_some_iff (bounded.unique.sublist (List.filter_sublist.map _))).mpr ⟨stored, rfl⟩
  have answers : ∀ view : View Tables Memo Env, view.tables.attributions = rows →
      view.memo.scope = scope →
      (Except.ok (((LandVault.visible (·.tenantId) (·.attributions) view).find?
        (·.id = row.id)).map (·.attribution)) : Except PyExc (Option EvidenceActorAttribution)) =
        .ok (some row.attribution) := by
    intro view table inScope
    rw [LandVault.visible, table, inScope, found]
    rfl
  refine ⟨after.length + 1 + 1, ?_⟩
  have last : (row :: after).getLast? = some head := by simpa using newest
  unfold Evidence.resolveActiveHead EvidenceActorAttributionRepository.get
  rw [UUID.parse_str]
  exact sees.select answers fun db s sees =>
    bounded.walkToHead row.id.str enough member visible last sees

/-- **The two bounds agree exactly.** The rows that single inserts build are lineages of at
most 10,000 rows. From every row of a lineage the service returns, within its look-ups, the
one row of the lineage that is not superseded; and the trigger accepts a correction exactly
while the lineage that it extends has at most 9,999 rows. -/
theorem lineage_bounds_agree {rows : List AttributionRow} (built : Built rows) :
    ∃ chains, Chained (·.id) (·.supersedesId) rows chains ∧ ∀ chain ∈ chains,
      chain.length ≤ 10000 ∧
      ∃ head ∈ chain, (∀ row ∈ chain, Unsuperseded (·.id) (·.supersedesId) rows row ↔ row = head) ∧
        (∀ row ∈ chain, ∀ (scope : Scope) (db : Database Unit) (s : DbSession),
          scope.sees row.tenantId = true → Sees rows scope db s →
          ∃ statements, Returns statements (resolveActiveHead row.id.str) head.attribution db s) ∧
        ∀ (scope : Scope) (row : AttributionRow), scope.sees head.tenantId = true →
          row.supersedesId = some head.id → row.id ∉ rows.map (·.id) →
          (rejectCycle scope rows row = .ok () ↔ chain.length ≤ 9999) := by
  obtain ⟨chains, bounded⟩ := built.bounded
  refine ⟨chains, bounded.chained, fun chain member => ⟨bounded.short chain member, ?_⟩⟩
  obtain ⟨head, newest⟩ : ∃ head, chain.getLast? = some head :=
    ⟨_, List.getLast?_eq_some_getLast (bounded.chained.nonempty chain member)⟩
  have last := List.mem_of_getLast? newest
  refine ⟨head, last, fun row inChain => ?_, fun row inChain scope db s seen sees => ?_,
    fun scope row seen names fresh => ?_⟩
  · rw [bounded.chained.head bounded.unique member inChain, newest, Option.some.injEq]
    exact eq_comm
  · exact bounded.resolveActiveHead member inChain newest seen sees
  · have visible : ∀ other ∈ chain, scope.sees other.tenantId = true := fun other inChain =>
      bounded.tenant member other inChain head last ▸ seen
    have accepts := rejectCycle_iff bounded.unique (bounded.chained.lineage chain member)
      (fun other inChain => bounded.chained.mem_rows member inChain) newest visible names fresh
    exact accepts.trans Nat.lt_succ_iff

/-! ## Two inserts -/

def firstRow : AttributionRow :=
  { id := sampleUuid 1, tenantId := "t-1", evidenceId := sampleUuid 9
    attributionRole := originatedBy, actorReferenceKind := unknownReference
    actorPrincipalId := none, actorName := none, actorOrganizationName := none
    actorType := "UNKNOWN", basis := "declared", reviewMethod := none, recordedBy := sampleUuid 8
    recordedAt := 0, auditRef := none, supersedesId := none }

def insertOf (row : AttributionRow) : InsertStatement where
  scope := .tenant "t-1"
  tenants := ["t-1"]
  users := [{ id := sampleUuid 8, tenantId := "t-1", identitySubject := "s-1", email := "1" }]
  evidence :=
    [{ evidenceId := sampleUuid 9, tenantId := "t-1", parcelId := sampleUuid 7
       uploadedBy := sampleUuid 8 }]
  rows := [row]

def secondRow : AttributionRow := { firstRow with id := sampleUuid 2, supersedesId := some (sampleUuid 1) }

theorem built_sample : Built [firstRow, secondRow] := by
  have first : (insertOf firstRow).run [] = .ok [firstRow] := by decide +kernel
  have second : (insertOf secondRow).run [firstRow] = .ok [firstRow, secondRow] := by decide +kernel
  have one : Built [firstRow] := .insert .empty rfl (.inl rfl) first
  exact .insert one rfl (.inr ⟨firstRow, by simp, rfl⟩) second

theorem lineage_bounds_agree_sample :
    ∃ chains, Chained (·.id) (·.supersedesId) [firstRow, secondRow] chains ∧ ∀ chain ∈ chains,
      chain.length ≤ 10000 := by
  obtain ⟨chains, chained, agree⟩ := lineage_bounds_agree built_sample
  exact ⟨chains, chained, fun chain member => (agree chain member).1⟩

end LandVault.Evidence
