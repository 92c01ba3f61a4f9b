import Mathlib.Algebra.BigOperators.Ring.Finset
import Mathlib.Algebra.Order.BigOperators.Group.Finset
import LandVault.Evidence.AttributionOutlines
import LandVault.Library.Interference

/-!
# Attribution lineages under concurrency

Any number of clients record and correct attributions at once. The rows are kept in the
order of their commits, and each supersedes none or an earlier row of its tenant and
evidence; that is one invariant (`InOrder`), and with the two unique indexes it makes
the table a set of lineages.

How many rows there are, and whose they are, follows from the account of the sessions:
a session that ended with a view has made one row durable, every other session none.
-/

set_option autoImplicit false

namespace LandVault.Evidence

open Kernel Kernel.Audit Library.HashLinks Library.Lineage Library.Programs Library.ReadCommitted
open Python

/-! ## The order of the rows -/

/-- Every row supersedes none, or an earlier row of its tenant and evidence. -/
def InOrder (rows : List EvidenceActorAttributionModel) : Prop := Linked place placeBelow none [] rows

theorem InOrder.append {rows : List EvidenceActorAttributionModel}
    {row : EvidenceActorAttributionModel} (ordered : InOrder rows)
    (resolves : Resolves place none rows (placeBelow row)) : InOrder (rows ++ [row]) :=
  linked_append.mpr ⟨ordered, resolves, trivial⟩

/-- A row that supersedes another one is of its tenant and evidence. -/
theorem InOrder.agree {rows : List EvidenceActorAttributionModel} (ordered : InOrder rows)
    (unique : (rows.map (·.id)).Nodup) {newer older : EvidenceActorAttributionModel}
    (present : newer ∈ rows) (present' : older ∈ rows)
    (names : newer.supersedesId = some older.id) :
    newer.tenantId = older.tenantId ∧ newer.evidenceId = older.evidenceId := by
  rcases ordered.resolves present with none | ⟨row, member, same⟩
  · simp [placeBelow, names] at none
  · simp only [place, placeBelow, names, Option.map_some, Option.some.injEq, Prod.mk.injEq] at same
    have identical : row = older :=
      List.inj_on_of_nodup_map unique (by simpa using member) present' same.1
    exact ⟨identical ▸ same.2.1.symm, identical ▸ same.2.2.symm⟩

/-! ## What requests keep -/

def lineageProtocol : Protocol Tables Write where
  invariant := fun t => InOrder t.attributions
  evolves := fun t t' => t.attributions ⊆ t'.attributions
  crashed := fun durable => durable = []
  evolves_refl := fun _ _ member => member

theorem attributions_withRow (t : Tables) (row : EvidenceActorAttributionModel)
    (entry : AuditLogRecord) : (withRow t row entry).attributions = t.attributions ++ [row] := rfl

instance : AttributionProtocol lineageProtocol where
  grows := id
  idle := rfl
  records := fun ordered _ resolves _ _ =>
    ⟨ordered.append resolves, List.subset_append_left _ _⟩

/-- The rows of one lineage have one tenant and one evidence. -/
theorem InOrder.constant {rows : List EvidenceActorAttributionModel} (ordered : InOrder rows)
    (unique : (rows.map (·.id)).Nodup) {chains : List (List EvidenceActorAttributionModel)}
    (chained : Chained (·.id) (·.supersedesId) rows chains)
    {chain : List EvidenceActorAttributionModel} (member : chain ∈ chains) :
    ∀ row ∈ chain, ∀ row' ∈ chain,
      row.tenantId = row'.tenantId ∧ row.evidenceId = row'.evidenceId := by
  intro row present row' present'
  have agree := (chained.lineage chain member).constant (chained.nodup unique member)
    (f := fun row => (row.tenantId, row.evidenceId)) (fun newer inChain older inChain' names => by
      have links := ordered.agree unique (chained.mem_rows member inChain)
        (chained.mem_rows member inChain') names
      exact Prod.ext links.1 links.2) row present row' present'
  exact ⟨congrArg Prod.fst agree, congrArg Prod.snd agree⟩

/-- The rows that supersede nothing, or an earlier row, and never the same one twice,
are a set of lineages. -/
theorem InOrder.chained {rows : List EvidenceActorAttributionModel} (ordered : InOrder rows)
    (unique : (rows.map (·.id)).Nodup) (once : (rows.filterMap (·.supersedesId)).Nodup) :
    ∃ chains, Chained (·.id) (·.supersedesId) rows chains ∧ ∀ chain ∈ chains,
      (∃! head, head ∈ chain ∧ Unsuperseded (·.id) (·.supersedesId) rows head) ∧
      ∀ row ∈ chain, ∀ row' ∈ chain,
        row.tenantId = row'.tenantId ∧ row.evidenceId = row'.evidenceId := by
  have linked : Linked (fun row : EvidenceActorAttributionModel => some row.id) (·.supersedesId)
      none [] rows := by
    have coarse := ordered.map (Option.map Prod.fst)
    have below : Option.map Prod.fst ∘ placeBelow = (·.supersedesId) := by
      funext row
      cases given : row.supersedesId <;> simp [placeBelow, given]
    rw [below] at coarse
    exact coarse
  obtain ⟨chains, chained⟩ := exists_chained unique once linked
  exact ⟨chains, chained, fun chain member =>
    ⟨chained.existsUnique_head unique member, ordered.constant unique chained member⟩⟩

/-! ## The account of the sessions -/

section Account

variable {ι : Type} [DecidableEq ι] {p : Protocol Tables Write} [AttributionProtocol p]
  {A : Admission ι DbStatement (Database ι) DbSession (Choice Env)}
  {w : World ι DbStatement PyExc AttributionView (Database ι) DbSession}

/-- Every request is in its outline. -/
abbrev InOutline (p : Protocol Tables Write) [AttributionProtocol p]
    (A : Admission ι DbStatement (Database ι) DbSession (Choice Env))
    (w : World ι DbStatement PyExc AttributionView (Database ι) DbSession) : Prop :=
  World.Sound A (p.contract engine) (fun _ => Stored) (fun _ => Rejected) w

/-- A session has made a row and its entry durable when its request ended with a view,
and nothing otherwise. -/
theorem durable_cases (sound : InOutline p A w) (nothing : ∀ durable, p.crashed durable → durable = [])
    (index : ι) :
    (∃ view row entry, (w.task index).answer = some (.ok view) ∧
      (w.task index).succeeded = true ∧ row.attribution = view.attribution ∧
      (w.task index).session.durable = [.insertAttribution row, .insertAudit entry]) ∨
    ((w.task index).succeeded = false ∧ (w.task index).session.durable = []) := by
  cases remaining : (w.task index).program with
  | none => exact .inr ⟨by simp [Task.succeeded, remaining], nothing _ (sound.crashed index remaining)⟩
  | some program =>
      cases program with
      | ret view =>
          have answered : (w.task index).answer = some (.ok view) := by simp [Task.answer, remaining]
          obtain ⟨⟨row, entry, durable, same⟩, _⟩ := (sound.answered answered).1 view rfl
          exact .inl ⟨view, row, entry, answered, by simp [Task.succeeded, remaining], same, durable⟩
      | throw e =>
          have answered : (w.task index).answer = some (.error e) := by simp [Task.answer, remaining]
          exact .inr ⟨by simp [Task.succeeded, remaining], ((sound.answered answered).2 e rfl).1⟩
      | step statement next =>
          exact .inr ⟨by simp [Task.succeeded, remaining], nothing _ (sound.interrupted remaining)⟩

/-- The amount of a new row. -/
def amount (f : EvidenceActorAttributionModel → Nat) : Write → Nat
  | .insertAttribution row => f row
  | _ => 0

def auditAmount : Write → Nat
  | .insertAudit _ => 1
  | _ => 0

theorem sum_apply (f : EvidenceActorAttributionModel → Nat) (t : Tables) (w : Write) :
    ((t.apply w).attributions.map f).sum = (t.attributions.map f).sum + amount f w := by
  cases w <;> simp [Tables.apply, Tables.writeRow, amount]

/-- The rows that supersede a given one, counted in two ways. -/
theorem sum_eq_count (superseded : UUID) (rows : List EvidenceActorAttributionModel) :
    (rows.map fun row => if row.supersedesId = some superseded then 1 else 0).sum =
      (rows.filterMap (·.supersedesId)).count superseded := by
  induction rows with
  | nil => rfl
  | cons row rows ih =>
      cases given : row.supersedesId <;> simp [given, ih, List.count_cons, Nat.add_comm]

theorem auditLog_apply (t : Tables) (w : Write) :
    (t.apply w).auditLog.length = t.auditLog.length + auditAmount w := by
  cases w <;> simp [Tables.apply, Tables.writeRow, auditAmount]

/-- Every request is in its outline at the start. -/
theorem sound_start (platform : Platform) {tables : Tables} (unique : tables.keys.Nodup)
    (invariant : p.invariant tables) (ctx : ι → ExecutionContext)
    (requests : ι → AttributionRequest) :
    InOutline p A (World.start { tables } freshSession fun index =>
      getDbSession (ctx index) ((requests index).handler platform (ctx index))) :=
  World.Sound.start (P := fun _ => Unused) ⟨⟨by simp, unique⟩, invariant⟩
    (fun _ => ⟨by simp [freshSession], unique, fun _ => rfl, le_rfl⟩) (fun _ => kept_of_session)
    (fun _ => ⟨rfl, rfl, rfl, rfl⟩) fun index => request_outline platform (ctx index) (requests index)

variable [Fintype ι]

omit [Fintype ι] in
/-- What the sessions have added to an amount of the rows, when each row counts by its
attribution. -/
theorem sum_durable (sound : InOutline p A w) (nothing : ∀ durable, p.crashed durable → durable = [])
    (index : ι) :
    ((w.task index).session.durable.map (amount fun _ => 1)).sum =
        (if (w.task index).succeeded = true then 1 else 0) ∧
      ((w.task index).session.durable.map auditAmount).sum =
        (if (w.task index).succeeded = true then 1 else 0) := by
  rcases durable_cases sound nothing index with ⟨_, row, entry, _, ended, _, durable⟩ |
    ⟨unended, durable⟩
  · simp [durable, ended, amount, auditAmount]
  · simp [durable, unended]

/-- Two requests that superseded the same row are one. -/
theorem eq_of_superseded (sound : InOutline p A w) {superseded : UUID}
    (atMost : ∑ i, ((w.task i).session.durable.map
      (amount fun row => if row.supersedesId = some superseded then 1 else 0)).sum ≤ 1)
    {i j : ι} {view view' : AttributionView} (answered : (w.task i).answer = some (.ok view))
    (answered' : (w.task j).answer = some (.ok view'))
    (names : view.attribution.supersedesId = some superseded)
    (names' : view'.attribution.supersedesId = some superseded) : i = j := by
  have one : ∀ {index view}, (w.task index).answer = some (.ok view) →
      view.attribution.supersedesId = some superseded →
      ((w.task index).session.durable.map
        (amount fun row => if row.supersedesId = some superseded then 1 else 0)).sum = 1 := by
    intro index view answered names
    obtain ⟨⟨row, entry, durable, same⟩, _⟩ := (sound.answered answered).1 view rfl
    have rowNames : row.supersedesId = some superseded :=
      (congrArg EvidenceActorAttribution.supersedesId same).trans names
    simp [durable, amount, rowNames]
  by_contra other
  have two := Finset.add_le_sum (f := fun i => ((w.task i).session.durable.map
    (amount fun row => if row.supersedesId = some superseded then 1 else 0)).sum)
    (fun _ _ => Nat.zero_le _) (Finset.mem_univ i) (Finset.mem_univ j) other
  rw [one answered names, one answered' names'] at two
  omega

end Account

/-! ## Any number of clients in any order -/

/-- **Attribution lineages under concurrency.** From tables without attributions, any
number of clients record and correct attributions, in any order of their steps and with
a crash possible at any point. In every state that is reached, no row is superseded
twice; the rows are lineages, each with one row that is not superseded and with one
tenant and one evidence; there are as many rows, and as many new audit entries, as
requests that answered with a view. No two requests that succeeded superseded the same
row; a request that failed has stored nothing; and one whose row was refused because a
committed row supersedes the same one answers 409. -/
theorem attributions_of_reaches {ι : Type} [Fintype ι] [DecidableEq ι] (platform : Platform)
    (tables : Tables) (unique : tables.keys.Nodup) (empty : tables.attributions = [])
    (ctx : ι → ExecutionContext) (requests : ι → AttributionRequest)
    {w : World ι DbStatement PyExc AttributionView (Database ι) DbSession}
    (reaches : World.Reaches (postgres ι) (World.start { tables } freshSession fun index =>
      getDbSession (ctx index) ((requests index).handler platform (ctx index))) w) :
    let rows := w.db.tables.attributions
    let successes := (Finset.univ.filter fun index => (w.task index).succeeded = true).card
    (rows.filterMap (·.supersedesId)).Nodup ∧
      (∃ chains, Chained (·.id) (·.supersedesId) rows chains ∧ ∀ chain ∈ chains,
        (∃! head, head ∈ chain ∧ Unsuperseded (·.id) (·.supersedesId) rows head) ∧
        ∀ row ∈ chain, ∀ row' ∈ chain,
          row.tenantId = row'.tenantId ∧ row.evidenceId = row'.evidenceId) ∧
      rows.length = successes ∧
      w.db.tables.auditLog.length = tables.auditLog.length + successes ∧
      (∀ i j view view' superseded, (w.task i).answer = some (.ok view) →
        (w.task j).answer = some (.ok view') → view.attribution.supersedesId = some superseded →
        view'.attribution.supersedesId = some superseded → i = j) ∧
      ∀ index result, (w.task index).answer = some result →
        (∀ e, result = .error e → (w.task index).session.durable = []) ∧
        ((w.task index).session.lastError = some supersededTwice ↔
          result = .error alreadySuperseded) ∧
        (result = .error alreadySuperseded → Lost w.db.tables (w.task index).session) := by
  intro rows successes
  have nothing : ∀ durable, lineageProtocol.crashed durable → durable = [] := fun _ same => same
  have start : InOutline lineageProtocol .always _ :=
    sound_start platform unique (by simp [lineageProtocol, InOrder, empty, Linked]) ctx requests
  have sound := start.runs reaches
  have ordered : InOrder rows := sound.store.2
  have ids := Tables.attributionIds_nodup sound.store.1.unique
  have once := Tables.supersedes_nodup sound.store.1.unique
  have steady : Steady engine (World.start { tables } freshSession fun index =>
      getDbSession (ctx index) ((requests index).handler platform (ctx index))) :=
    Steady.start rfl unique rfl le_rfl
  have counted : ∀ f, (rows.map f).sum =
      0 + ∑ i, ((w.task i).session.durable.map (amount f)).sum :=
    fun f => account (μ := fun t => (t.attributions.map f).sum) (sum_apply f) steady
      (by simp [World.start, freshSession, empty]) reaches
  have entries : w.db.tables.auditLog.length =
      tables.auditLog.length + ∑ i, ((w.task i).session.durable.map auditAmount).sum :=
    account (μ := fun t => t.auditLog.length) auditLog_apply steady
      (by simp [World.start, freshSession]) reaches
  refine ⟨once, ordered.chained ids once, ?_, ?_, ?_, ?_⟩
  · have length := counted fun _ => 1
    simp only [(sum_durable sound nothing _).1, Finset.sum_boole, zero_add] at length
    simpa using length
  · simpa only [(sum_durable sound nothing _).2, Finset.sum_boole, Nat.cast_id] using entries
  · intro i j view view' superseded answered answered' names names'
    refine eq_of_superseded sound ?_ answered answered' names names'
    have total := counted fun row => if row.supersedesId = some superseded then 1 else 0
    rw [sum_eq_count, zero_add] at total
    exact total ▸ List.nodup_iff_count_le_one.mp once superseded
  · intro index result answered
    have ended := sound.answered answered
    cases result with
    | ok view =>
        have stored := ended.1 view rfl
        exact ⟨fun e absurd => (by cases absurd), by simp [stored.2], fun absurd => by cases absurd⟩
    | error e =>
        obtain ⟨durable, outcome⟩ := ended.2 e rfl
        refine ⟨fun _ _ => durable, ?_⟩
        rcases outcome with ⟨other, unrefused⟩ | ⟨rfl, lost⟩
        · simp [other, unrefused]
        · exact ⟨by simp [lost.1], fun _ => lost⟩

def sampleUuid (id : Nat) : UUID := .ofInt id

/-- A tenant with one user, a parcel and one record of evidence. -/
def sampleTables : Tables where
  tenants := [{ id := "t-1" }]
  identityUsers := [{ id := sampleUuid 1, tenantId := "t-1" }]
  parcels := [{ parcelId := sampleUuid 2, tenantId := "t-1", countryCode := "NG", origin := "o"
                createdBy := sampleUuid 1, createdAt := .now 0, updatedAt := .now 0 }]
  evidenceRecords := [{ evidenceId := sampleUuid 3, tenantId := "t-1", parcelId := sampleUuid 2,
                        uploadedBy := sampleUuid 1 }]

def sampleContext : ExecutionContext :=
  { principalId := (sampleUuid 1).str, tenantId := some "t-1" }

def sampleClaim : ActorClaim :=
  { attributionRole := reviewedBy, actorReferenceKind := unknownReference, actorType := "UNKNOWN"
    basis := "field survey" }

/-- One client records an attribution, and three correct it by its identifier. -/
def sampleRequest : Fin 4 → AttributionRequest
  | 0 => .record (sampleUuid 3).str sampleClaim
  | _ => .correct (sampleUuid 5).str sampleClaim

/-- The digest tells the entries apart by their times. -/
def lineagePlatform : Platform := ⟨digestAt 72, id⟩

/-- Client 3 comes a day later. -/
def sampleClock : Fin 4 → DateTime
  | 3 => { DateTime.newYear with day := 2, date := by decide }
  | _ => .newYear

/-- The next statements of a client, with the identifiers that they draw. -/
def sampleSteps (index : Fin 4) (uuids : List Nat) : List (Action (Fin 4) (Choice Env)) :=
  uuids.map fun uuid => .step index { env := { uuid := .ofInt uuid, now := sampleClock index } }

/-- Clients 1 and 2 both find the recorded row at the head, client 1 supersedes it, and the
row of client 2 is refused. To client 3 the row that it names is not the head any more, and
it supersedes that of client 1. -/
def sampleRun : Option (World (Fin 4) DbStatement PyExc AttributionView (Database (Fin 4)) DbSession) :=
  World.run (postgres (Fin 4))
    (World.start { tables := sampleTables } freshSession fun index =>
      getDbSession sampleContext ((sampleRequest index).handler lineagePlatform sampleContext))
    (sampleSteps 0 [0, 0, 0, 4, 5, 0, 0, 6, 7, 0] ++ sampleSteps 1 [0, 0, 0, 0, 0, 8, 9] ++
      sampleSteps 2 [0, 0, 0, 0, 0, 11, 12] ++ sampleSteps 1 [0, 0, 10, 13, 0] ++
      sampleSteps 2 [0, 0, 0] ++ sampleSteps 3 [0, 0, 0, 0, 0, 0, 14, 15, 0, 0, 16, 17, 0])

/-- The rows of the run, by their identifiers and what they supersede. -/
def sampleLineage : List (UUID × Option UUID) :=
  [(sampleUuid 5, none), (sampleUuid 9, some (sampleUuid 5)), (sampleUuid 15, some (sampleUuid 9))]

/-- A session in the scope of the tenant. -/
def sampleSession : DbSession := { freshSession with memo := { scope := .tenant "t-1" } }

/-- What the listing says of each row of these tables. -/
def listedActivity (t : Tables) : Option (List (UUID × Bool)) :=
  match play (postgres Unit) () (List.replicate 2 { env := { uuid := sampleUuid 0, now := .newYear } })
    { tables := t } sampleSession (listAttributionsForEvidence sampleContext (sampleUuid 3).str) with
  | some (.ok views, _) => some (views.map fun view => (view.attribution.id, view.isActive))
  | _ => none

/-- The rows of the run, and whether they are listed as active. -/
def sampleActivity : List (UUID × Bool) :=
  [(sampleUuid 5, false), (sampleUuid 9, false), (sampleUuid 15, true)]

/-- What can be seen of the run: client 2 has ended with a row that was refused, and the
others have stored theirs. -/
theorem sampleRun_ends : ∃ w, sampleRun = some w ∧
    (w.task 2).answer.isSome = true ∧ (w.task 2).session.lastError = some supersededTwice ∧
    w.db.tables.attributions.map (fun row => (row.id, row.supersedesId)) = sampleLineage ∧
    w.db.tables.evidenceRecords = sampleTables.evidenceRecords ∧
    listedActivity w.db.tables = some sampleActivity := by
  have observed : ∃ w ∈ sampleRun,
      (w.task 2).answer.isSome = true ∧ (w.task 2).session.lastError = some supersededTwice ∧
      w.db.tables.attributions.map (fun row => (row.id, row.supersedesId)) = sampleLineage ∧
      w.db.tables.evidenceRecords = sampleTables.evidenceRecords ∧
      listedActivity w.db.tables = some sampleActivity := by
    decide +kernel
  exact observed

/-- The second of two corrections that have found the same head is answered with 409 and
leaves nothing behind; three rows and three entries are stored, and the rows are lineages
with one head each. -/
theorem attributions_of_reaches_sample : ∃ w, sampleRun = some w ∧
    (w.task 2).answer = some (.error alreadySuperseded) ∧ (w.task 2).session.durable = [] ∧
    Lost w.db.tables (w.task 2).session ∧
    w.db.tables.attributions.map (fun row => (row.id, row.supersedesId)) = sampleLineage ∧
    w.db.tables.auditLog.length = 3 ∧
    ∃ chains, Chained (·.id) (·.supersedesId) w.db.tables.attributions chains ∧
      ∀ chain ∈ chains, ∃! head, head ∈ chain ∧
        Unsuperseded (·.id) (·.supersedesId) w.db.tables.attributions head := by
  obtain ⟨w, ran, answered, refused, rows, _⟩ := sampleRun_ends
  obtain ⟨_, ⟨chains, chained, heads⟩, length, entries, _, ended⟩ :=
    attributions_of_reaches lineagePlatform sampleTables (by decide) rfl
      (fun _ => sampleContext) sampleRequest (World.reaches_of_run ran)
  obtain ⟨result, answered⟩ := Option.isSome_iff_exists.mp answered
  obtain ⟨nothing, twice, lost⟩ := ended 2 result answered
  obtain rfl := twice.mp refused
  refine ⟨w, ran, answered, nothing _ rfl, lost rfl, rows, ?_, chains, chained,
    fun chain member => (heads chain member).1⟩
  have three : w.db.tables.attributions.length = 3 := by
    simpa [sampleLineage] using congrArg List.length rows
  rw [entries, ← length, three]
  rfl

end LandVault.Evidence
