import LandVault.Evidence.LineageBounds

/-!
# The listing and the walk

The listing of a record of evidence decides from its own rows which of them are active; the
walk follows successors through the whole table. They agree because a lineage lies in one
record of evidence, which its tenant sees as a whole, and because no lineage is longer than
the walk. All of that is an invariant of concurrent requests, which the triggers check where
a row is made and the unique indexes where it is committed.
-/

set_option autoImplicit false

namespace LandVault.Evidence

open Identity Kernel Library.HashLinks Library.Lineage Library.Programs Library.ReadCommitted
open Python

/-! ## What requests keep -/

/-- The row is about stored evidence of its tenant. -/
def Founded (evidence : List EvidenceRecordModel) (row : AttributionRow) : Prop :=
  ∃ record ∈ evidence, record.evidenceId = row.evidenceId ∧ record.tenantId = row.tenantId

def boundedProtocol : Protocol Tables Write where
  invariant := fun t => (∃ chains, Bounded t.attributions chains) ∧
    ∀ row ∈ t.attributions, Founded t.evidenceRecords row
  evolves := fun t t' => t.attributions ⊆ t'.attributions ∧ t'.evidenceRecords = t.evidenceRecords
  crashed := fun durable => durable = []
  evolves_refl := fun _ => ⟨List.Subset.refl _, rfl⟩

theorem evolves_of_reflTransGen {t t' : Tables}
    (later : Relation.ReflTransGen boundedProtocol.evolves t t') : boundedProtocol.evolves t t' := by
  induction later with
  | refl => exact boundedProtocol.evolves_refl t
  | tail _ step ih => exact ⟨fun _ member => step.1 (ih.1 member), step.2.trans ih.2⟩

theorem founded_of_checked {scope : Scope} {evidence : List EvidenceRecordModel}
    {row : AttributionRow} (checked : checkEvidenceTenant scope evidence row = .ok ()) :
    Founded evidence row := by
  unfold checkEvidenceTenant at checked
  simp only at checked
  split at checked
  · rename_i tenant
    obtain ⟨record, found, same⟩ := Option.map_eq_some_iff.mp tenant
    exact ⟨record, List.mem_of_mem_filter (List.mem_of_find?_eq_some found),
      by simpa using List.find?_some found, same⟩
  · cases checked

theorem Founded.tenant {t : Tables} (unique : t.keys.Nodup) {row : AttributionRow}
    (founded : Founded t.evidenceRecords row) {record : EvidenceRecordModel}
    (stored : record ∈ t.evidenceRecords) (same : row.evidenceId = record.evidenceId) :
    row.tenantId = record.tenantId := by
  obtain ⟨other, stored', evidence, tenant⟩ := founded
  have identical : other = record := List.inj_on_of_nodup_map
    (Entity.keys_nodup .evidence unique) stored' stored (evidence.trans same)
  exact identical ▸ tenant.symm

/-- A row that the database has examined, and that is committed, continues a lineage that
has room for it or begins one. -/
theorem Bounded.add {t : Tables} {chains : List (List AttributionRow)}
    (bounded : Bounded t.attributions chains) {row : AttributionRow}
    (unique : ((t.attributions ++ [row]).map (·.id)).Nodup)
    (once : ((t.attributions ++ [row]).filterMap (·.supersedesId)).Nodup)
    (issued : Issued t.attributions row) (examined : Examined boundedProtocol row t) :
    ∃ chains', Bounded (t.attributions ++ [row]) chains' := by
  have fresh : row.id ∉ t.attributions.map (·.id) := by
    intro present
    rw [List.map_append, List.nodup_append] at unique
    exact unique.2.2 _ present _ (by simp) rfl
  cases given : row.supersedesId with
  | none => exact ⟨_, bounded.begin fresh given⟩
  | some superseded =>
      obtain ⟨t₀, scope, later, ⟨⟨_, bounded₀⟩, _⟩, _, resolves, passed⟩ := examined
      obtain ⟨_, _, cycle, seen, _⟩ := checkNewRow_ok passed
      obtain ⟨older, present, rfl, tenant, _⟩ := Issued.superseded resolves given
      have grown := (evolves_of_reflTransGen later).1
      refine bounded.correct fresh issued once (grown present) given fun chain member newest => ?_
      exact bounded.room grown bounded₀.ordered bounded₀.unique present given tenant seen cycle
        fresh member newest

instance : AttributionProtocol boundedProtocol where
  grows := fun evolves => evolves.1
  idle := rfl
  records := by
    rintro t row entry ⟨⟨chains, bounded⟩, founded⟩ unique resolves examined _
    have ids := Tables.attributionIds_nodup unique
    have once := Tables.supersedes_nodup unique
    rw [attributions_withRow] at ids once
    refine ⟨⟨bounded.add ids once resolves examined, fun other member => ?_⟩,
      List.subset_append_left _ _, rfl⟩
    rcases List.mem_append.mp member with old | new
    · exact founded other old
    · obtain ⟨t₀, scope, later, _, _, _, passed⟩ := examined
      have checked := founded_of_checked (checkNewRow_ok passed).1
      rw [List.mem_singleton.mp new]
      exact (evolves_of_reflTransGen later).2 ▸ checked

/-! ## What the listing answers -/

/-- A session that sees these tables, in this scope. -/
structure Looks (t : Tables) (scope : Scope) (db : Database Unit) (s : DbSession) : Prop where
  whole : s.broken = false
  tables : engine.view db s = t
  scope : s.memo.scope = scope

variable {t : Tables} {scope : Scope} {db : Database Unit} {s : DbSession}

theorem Looks.sees (looks : Looks t scope db s) : Sees t.attributions scope db s :=
  ⟨looks.whole, congrArg Tables.attributions looks.tables, looks.scope⟩

theorem Looks.select {α β : Type} (looks : Looks t scope db s)
    {answer : View Tables Memo Env → Except PyExc β} {b : β} {next : Except PyExc β → Request α}
    {value : α} {statements : Nat}
    (answers : ∀ view : View Tables Memo Env, view.tables = t → view.memo.scope = scope →
      answer view = .ok b)
    (continues : ∀ db s, Looks t scope db s → Returns statements (next (.ok b)) value db s) :
    Returns (statements + 1)
      (.step (.query fun view => (answer view).map fun b => { memo := view.memo, answer := .ok b })
        next) value db s := by
  refine returns_select looks.whole (fun _ _ => answers _ looks.tables looks.scope) ?_
  intro db' s' whole view memo
  exact continues db' s' ⟨whole, view.trans looks.tables, memo ▸ looks.scope⟩

/-- Whoever is in the scope of a tenant sees its rows. -/
theorem sees_of_inScope {ctx : ExecutionContext} {tenantId : String}
    (inside : inScope ctx tenantId = true) : (scopeOf ctx).sees tenantId = true := by
  unfold scopeOf
  cases given : ctx.tenantId with
  | none => rfl
  | some own =>
      by_cases bypass : (ctx.isAnonymous || ctx.hasAnyRole [Role.superAdmin.value]) = true
      · simp [bypass, Scope.sees]
      · have plain : ctx.hasAnyRole [Role.superAdmin.value] = false := by
          simp only [Bool.or_eq_true, not_or, Bool.not_eq_true] at bypass
          exact bypass.2
        simp only [inScope, given, plain, Bool.or_false, beq_iff_eq, Option.some.injEq] at inside
        simp [bypass, Scope.sees, inside]

/-- The rows of a record of evidence. -/
def rowsOf (t : Tables) (record : EvidenceRecordModel) : List AttributionRow :=
  t.attributions.filter (·.evidenceId = record.evidenceId)

/-- What the listing makes of the rows that it finds. -/
def viewsOf (ctx : ExecutionContext) (rows : List EvidenceActorAttribution) :
    List AttributionView :=
  (rows.filter fun row => inScope ctx row.tenantId).map fun row =>
    ⟨row, !(rows.filterMap (·.supersedesId)).contains row.id⟩

/-- Who is in the scope of the evidence gets the view of all its rows. -/
theorem Looks.listAttributionsForEvidence {ctx : ExecutionContext} {record : EvidenceRecordModel}
    (looks : Looks t (scopeOf ctx) db s) (unique : t.keys.Nodup)
    (stored : record ∈ t.evidenceRecords) (inside : inScope ctx record.tenantId = true)
    (tenant : ∀ row ∈ rowsOf t record, row.tenantId = record.tenantId) :
    Returns 2 (Evidence.listAttributionsForEvidence ctx record.evidenceId.str)
      (viewsOf ctx (((rowsOf t record).map (·.attribution)).insertionSort fun a b =>
        a.recordedAt.position ≤ b.recordedAt.position)) db s := by
  have seen := sees_of_inScope inside
  have found : (t.evidenceRecords.filter fun record => (scopeOf ctx).sees record.tenantId).find?
      (·.evidenceId = record.evidenceId) = some record :=
    (find?_eq_some_iff ((Entity.keys_nodup .evidence unique).sublist
      (List.filter_sublist.map _))).mpr ⟨List.mem_filter.mpr ⟨stored, seen⟩, rfl⟩
  have rows : (t.attributions.filter fun row => (scopeOf ctx).sees row.tenantId).filter
      (·.evidenceId = record.evidenceId) = rowsOf t record := by
    rw [List.filter_filter]
    refine List.filter_congr fun row member => ?_
    by_cases about : row.evidenceId = record.evidenceId
    · have same := tenant row (List.mem_filter.mpr ⟨member, by simpa using about⟩)
      simp [about, same, seen]
    · simp [about]
  unfold Evidence.listAttributionsForEvidence loadEvidenceInScope EvidenceRepository.get
    EvidenceActorAttributionRepository.listForEvidence
  have key : toUuid record.evidenceId.str = .ok record.evidenceId := by
    rw [toUuid, UUID.parse_str]
  rw [UUID.parse_str, key]
  refine looks.select (b := some record) (fun view tables scope => ?_) fun db s looks => ?_
  · rw [LandVault.visible, tables, scope, found]
  simp only [Program.ofExcept, Program.bind, inside, if_true]
  refine looks.select (b := rowsOf t record) (fun view tables scope => ?_) fun db s looks => ?_
  · rw [LandVault.visible, tables, scope, rows]
  exact returns_pure _

/-- The listing has every row once, where its reader is in the scope of all of them. -/
theorem viewsOf_attributions {ctx : ExecutionContext} {rows : List EvidenceActorAttribution}
    (inside : ∀ row ∈ rows, inScope ctx row.tenantId = true) :
    (viewsOf ctx rows).map (·.attribution) = rows := by
  rw [viewsOf, List.filter_eq_self.mpr inside, List.map_map]
  exact List.map_id' rows

/-- A row is listed as active where no row of its evidence supersedes it, which is where no
row at all does. -/
theorem Bounded.active_iff {chains : List (List AttributionRow)}
    (bounded : Bounded t.attributions chains) {ctx : ExecutionContext}
    {record : EvidenceRecordModel} {listed : List EvidenceActorAttribution}
    (lists : listed.Perm ((rowsOf t record).map (·.attribution))) {row : AttributionRow}
    (about : row ∈ rowsOf t record) {view : AttributionView} (member : view ∈ viewsOf ctx listed)
    (same : view.attribution.id = row.id) :
    view.isActive = true ↔ Unsuperseded (·.id) (·.supersedesId) t.attributions row := by
  obtain ⟨attribution, _, rfl⟩ := List.mem_map.mp member
  have same : attribution.id = row.id := same
  have stored : row ∈ t.attributions := List.mem_of_mem_filter about
  have listedAs : ∀ newer : EvidenceActorAttribution, newer ∈ listed ↔
      ∃ row' ∈ rowsOf t record, row'.attribution = newer :=
    fun newer => lists.mem_iff.trans List.mem_map
  simp only [Bool.not_eq_true', List.contains_eq_mem, decide_eq_false_iff_not, same]
  constructor
  · intro free newer present names
    have agrees := bounded.ordered.agree bounded.unique present stored names
    have evidence : row.evidenceId = record.evidenceId := by
      simpa using (List.mem_filter.mp about).2
    have about' : newer ∈ rowsOf t record :=
      List.mem_filter.mpr ⟨present, by simpa using agrees.2.trans evidence⟩
    exact free (List.mem_filterMap.mpr ⟨_, (listedAs _).mpr ⟨newer, about', rfl⟩, names⟩)
  · intro free superseded
    obtain ⟨_, inListed, names⟩ := List.mem_filterMap.mp superseded
    obtain ⟨newer, about', rfl⟩ := (listedAs _).mp inListed
    exact free newer (List.mem_of_mem_filter about') names

/-- **The listing agrees with the walk.** Any number of clients record and correct
attributions, in any order of their steps, each correction addressed through any row. In
every state that is reached, whoever is in the scope of a record of evidence is listed all
its rows, each once. The walk from each of them returns a row that is listed as active, and
a row is listed as active exactly where the walk from it returns it. -/
theorem listing_agrees_with_walk {ι : Type} [DecidableEq ι] (platform : Platform)
    (tables : Tables) (unique : tables.keys.Nodup) (empty : tables.attributions = [])
    (ctx : ι → ExecutionContext) (requests : ι → AttributionRequest)
    {w : World ι DbStatement PyExc AttributionView (Database ι) DbSession}
    (reaches : World.Reaches (postgres ι) (World.start { tables } freshSession fun index =>
      getDbSession (ctx index) ((requests index).handler platform (ctx index))) w)
    {reader : ExecutionContext} {record : EvidenceRecordModel}
    (stored : record ∈ w.db.tables.evidenceRecords)
    (inside : inScope reader record.tenantId = true) {db : Database Unit} {s : DbSession}
    (looks : Looks w.db.tables (scopeOf reader) db s) :
    ∃ views, Returns 2 (listAttributionsForEvidence reader record.evidenceId.str) views db s ∧
      (views.map (·.attribution)).Perm ((rowsOf w.db.tables record).map (·.attribution)) ∧
      ∀ row ∈ rowsOf w.db.tables record, ∃ head statements,
        Returns statements (resolveActiveHead row.id.str) head db s ∧
        (∃ view ∈ views, view.attribution = head ∧ view.isActive = true) ∧
        ∀ view ∈ views, view.attribution = row.attribution →
          (view.isActive = true ↔ head = row.attribution) := by
  have invariant : boundedProtocol.invariant tables := by
    refine ⟨⟨[], ?_⟩, ?_⟩
    · rw [empty]
      exact ⟨trivial, by simp, by simp, ⟨.rfl, by simp, by simp⟩, by simp⟩
    · simp [empty]
  have start : InOutline boundedProtocol .always _ :=
    sound_start platform unique invariant ctx requests
  have sound := start.runs reaches
  have keys := sound.store.1.unique
  obtain ⟨⟨chains, bounded⟩, founded⟩ := sound.store.2
  have tenant : ∀ row ∈ rowsOf w.db.tables record, row.tenantId = record.tenantId := by
    intro row about
    obtain ⟨present, evidence⟩ := List.mem_filter.mp about
    exact (founded row present).tenant keys stored (by simpa using evidence)
  let rows := (rowsOf w.db.tables record).map (·.attribution)
  let listed := rows.insertionSort fun a b => a.recordedAt.position ≤ b.recordedAt.position
  have lists : listed.Perm rows := List.perm_insertionSort _ _
  have attributions : (viewsOf reader listed).map (·.attribution) = listed := by
    refine viewsOf_attributions fun attribution member => ?_
    obtain ⟨row, about, rfl⟩ := List.mem_map.mp (lists.mem_iff.mp member)
    have same : row.attribution.tenantId = record.tenantId := tenant row about
    exact same ▸ inside
  refine ⟨_, looks.listAttributionsForEvidence keys stored inside tenant, ?_, fun row about => ?_⟩
  · exact attributions.symm ▸ lists
  have present : row ∈ w.db.tables.attributions := List.mem_of_mem_filter about
  obtain ⟨chain, member, inChain⟩ :=
    List.mem_flatten.mp (bounded.chained.partition.mem_iff.mpr present)
  obtain ⟨head, newest⟩ : ∃ head, chain.getLast? = some head :=
    ⟨_, List.getLast?_eq_some_getLast (bounded.chained.nonempty chain member)⟩
  have last := List.mem_of_getLast? newest
  have seen : (scopeOf reader).sees row.tenantId = true :=
    sees_of_inScope (tenant row about ▸ inside)
  obtain ⟨statements, returns⟩ := bounded.resolveActiveHead member inChain newest seen looks.sees
  have aboutHead : head ∈ rowsOf w.db.tables record := by
    refine List.mem_filter.mpr ⟨bounded.chained.mem_rows member last, ?_⟩
    rw [(bounded.constant member head last row inChain).2]
    exact (List.mem_filter.mp about).2
  have heads : ∀ row' ∈ chain, row' ∈ rowsOf w.db.tables record →
      ∀ view ∈ viewsOf reader listed, view.attribution = row'.attribution →
        (view.isActive = true ↔ head = row') := by
    intro row' inChain' about' view inViews same
    rw [bounded.active_iff lists about' inViews (congrArg EvidenceActorAttribution.id same),
      bounded.chained.head bounded.unique member inChain', newest, Option.some.injEq]
  refine ⟨head.attribution, statements, returns, ?_, fun view inViews same => ?_⟩
  · have listedHead : head.attribution ∈ (viewsOf reader listed).map (·.attribution) := by
      rw [attributions]
      exact lists.mem_iff.mpr (List.mem_map_of_mem aboutHead)
    obtain ⟨view, inViews, same⟩ := List.mem_map.mp listedHead
    exact ⟨view, inViews, same, (heads head last aboutHead view inViews same).mpr rfl⟩
  · rw [heads row inChain about view inViews same]
    refine ⟨congrArg _, fun same => ?_⟩
    exact List.inj_on_of_nodup_map bounded.unique (bounded.chained.mem_rows member last) present
      (congrArg EvidenceActorAttribution.id same)

theorem listedActivity_of_returns {t : Tables} {views : List AttributionView}
    (returns : Returns 2 (listAttributionsForEvidence sampleContext (sampleUuid 3).str) views
      { tables := t } sampleSession) :
    listedActivity t = some (views.map fun view => (view.attribution.id, view.isActive)) := by
  obtain ⟨db, s, played⟩ := returns
    (List.replicate 2 { env := { uuid := sampleUuid 0, now := .newYear } }) rfl (by simp)
  rw [listedActivity, played]

def sampleRecord : EvidenceRecordModel :=
  { evidenceId := sampleUuid 3, tenantId := "t-1", parcelId := sampleUuid 2
    uploadedBy := sampleUuid 1 }

/-- After two corrections, one of them addressed through a row that was superseded, the
last row is listed as active and no other, and the walk from each row ends there. -/
theorem listing_agrees_with_walk_sample : ∃ w views, sampleRun = some w ∧
    Returns 2 (listAttributionsForEvidence sampleContext (sampleUuid 3).str) views
      { tables := w.db.tables } sampleSession ∧
    views.map (fun view => (view.attribution.id, view.isActive)) = sampleActivity ∧
    ∀ row ∈ rowsOf w.db.tables sampleRecord, ∃ head statements,
      Returns statements (resolveActiveHead row.id.str) head { tables := w.db.tables } sampleSession ∧
      head.id = sampleUuid 15 := by
  obtain ⟨w, ran, _, _, _, records, activity⟩ := sampleRun_ends
  have stored : sampleRecord ∈ w.db.tables.evidenceRecords := records ▸ List.mem_cons_self
  have inside : inScope sampleContext sampleRecord.tenantId = true := by decide
  have looks : Looks w.db.tables (scopeOf sampleContext) { tables := w.db.tables } sampleSession :=
    ⟨rfl, rfl, by decide⟩
  obtain ⟨views, returns, _, walks⟩ := listing_agrees_with_walk lineagePlatform sampleTables
    (by decide) rfl (fun _ => sampleContext) sampleRequest (World.reaches_of_run ran)
    stored inside looks
  have listed := Option.some.inj ((listedActivity_of_returns returns).symm.trans activity)
  refine ⟨w, views, ran, returns, listed, fun row about => ?_⟩
  obtain ⟨head, statements, ends, ⟨view, inViews, same, active⟩, _⟩ := walks row about
  refine ⟨head, statements, ends, ?_⟩
  have seen : (head.id, true) ∈ sampleActivity :=
    listed ▸ List.mem_map.mpr ⟨view, inViews, by rw [same, active]⟩
  simpa [sampleActivity] using seen

end LandVault.Evidence
