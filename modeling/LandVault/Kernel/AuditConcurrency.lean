import LandVault.Kernel.AuditVerifier
import LandVault.Kernel.Uow
import LandVault.Library.Sessions

/-!
# The audit chain under concurrency

Requests read the hash of a predecessor in one statement and append their entry in a
later one, some in sessions of their own and some in the session of the request, which
may still be rolled back. Two entries may name one predecessor, so the log branches;
what never happens is that an entry loses its predecessor.

Two facts carry this. Every committed entry descends to `GENESIS_HASH` through
committed entries. And the entries that a session has staged name, each of them, the
genesis, a committed entry or one staged before it: the last hash is read with the
session's own entries in view, and the staged entries go together, by a commit, a
rollback or a crash.
-/

set_option autoImplicit false

namespace LandVault.Kernel.Audit

open Library.HashLinks Library.Lineage Library.Programs Library.ReadCommitted Library.JsonText

/-! ## Requests that write audit entries -/

/-- The entry of a call comes back from storage unchanged. -/
def AuditCall.Survives (platform : Platform) (call : AuditCall) : Prop :=
  call.PlainEntryId ∧
    ∀ n ∈ numbersOfMembers call.payloadOrEmpty.members, platform.normalise n = n

/-- What a request may do: write audit entries in either way, end its transaction at
any point, and issue any statement that does not write to `audit_log`. -/
inductive AuditedCall (platform : Platform) : Type → Type 1 where
  | audit (ctx : ExecutionContext) (call : AuditCall) (survives : call.Survives platform) :
      AuditedCall platform AuditEntry
  | auditStaged (ctx : ExecutionContext) (call : AuditCall) (survives : call.Survives platform) :
      AuditedCall platform AuditEntry
  | sql {β : Type} (run : View Tables Memo Env → Except PyExc (Effect Write Memo PyExc β))
      (elsewhere : ∀ view effect row, run view = .ok effect →
        effect.write ≠ some (.insertAudit row)) : AuditedCall platform β
  | commit : AuditedCall platform Unit
  | rollback : AuditedCall platform Unit

def AuditedCall.request {platform : Platform} {β : Type} :
    AuditedCall platform β → Request β
  | .audit ctx call _ => Kernel.audit platform ctx call
  | .auditStaged ctx call _ => Kernel.auditStaged platform ctx call
  | .sql run _ => .perform (.query run)
  | .commit => Kernel.commit
  | .rollback => Kernel.rollback

/-! ## Entries of tables and sessions -/

/-- The entries that `all_entries` makes of the committed rows. -/
def entries (t : Tables) : List AuditEntry := t.auditLog.map AuditLogRecord.entry

/-- The entry that a write adds to the log. -/
def entryOf : Write → Option AuditEntry
  | .insertAudit row => some row.entry
  | _ => none

/-- The entries that a session has staged. -/
def stagedEntries (s : DbSession) : List AuditEntry := s.pending.filterMap entryOf

theorem entries_apply (t : Tables) (w : Write) :
    entries (t.apply w) = entries t ++ (entryOf w).toList := by
  cases w <;> simp [entries, entryOf, Tables.apply, Tables.writeRow]

theorem entries_applyAll (t : Tables) (ws : List Write) :
    entries (engine.applyAll t ws) = entries t ++ ws.filterMap entryOf := by
  induction ws generalizing t with
  | nil => simp
  | cons w ws ih =>
      have one : entries (engine.apply t w) = entries t ++ (entryOf w).toList := entries_apply t w
      rw [engine.applyAll_cons, ih, one, List.append_assoc]
      cases given : entryOf w <;> simp [given]

theorem entries_view {ι : Type} (db : Database ι) (s : DbSession) :
    entries (engine.view db s) = entries db.tables ++ stagedEntries s :=
  entries_applyAll db.tables s.pending

/-- The row with the last hash is one of the log. -/
theorem lastHash_resolves (rows : List AuditLogRecord) (pick : Nat) :
    Resolves AuditEntry.hash genesisHash (rows.map AuditLogRecord.entry) (lastHash rows pick) := by
  unfold lastHash
  split
  · exact .inl rfl
  · rename_i row found
    split
    · exact .inl rfl
    · exact .inr ⟨row.entry, List.mem_map_of_mem (newest_mem found), rfl⟩

/-- The row of a surviving call stores the entry that was built. -/
theorem storedRecord_entry {platform : Platform} {ctx : ExecutionContext} {call : AuditCall}
    {prevHash : String} {entryUuid recordUuid : Python.UUID} {now : Python.DateTime}
    {record : AuditLogRecord} (survives : call.Survives platform)
    (made : storedRecord platform (buildEntry platform.sha256 ctx call prevHash entryUuid now)
      recordUuid = .ok record) :
    record.entry = buildEntry platform.sha256 ctx call prevHash entryUuid now := by
  have plain := (AuditCall.plainEntryId_iff entryUuid).mp survives.1
  rw [storedRecord_eq made, hex_parse_eq_self.mpr plain, Payload.normalised_eq_self.mpr survives.2]
  rfl

theorem insertAudit_of_map {result : Except PyExc AuditLogRecord} {b : Unit} {w : Write}
    (wrote : (result.map fun record => (some (Write.insertAudit record), ())) =
      .ok (some w, b)) : ∃ record, result = .ok record ∧ w = .insertAudit record := by
  cases result with
  | error error => cases wrote
  | ok record =>
      cases wrote
      exact ⟨record, rfl, rfl⟩

theorem insertAudit_of_staged {result : Except PyExc AuditLogRecord} {b : Unit} {w : Write}
    {before memo : Memo}
    (wrote : (result.map fun record => (⟨before, .ok (), some (.insertAudit record)⟩ :
      Effect Write Memo PyExc Unit)) = .ok ⟨memo, .ok b, some w⟩) :
    ∃ record, result = .ok record ∧ w = .insertAudit record := by
  cases result with
  | error error => cases wrote
  | ok record =>
      cases wrote
      exact ⟨record, rfl, rfl⟩

/-! ## What requests keep -/

/-- Every entry's hash is that of its text, and its predecessors lead to the genesis. -/
def Placed (platform : Platform) (log : List AuditEntry) : Prop :=
  (∀ entry ∈ log, entry.recomputeHash platform.sha256 = entry.hash) ∧
    ∀ entry ∈ log, DescendsToGenesis log entry.hash

/-- New entries over a log: each hash is that of its text, and each names the genesis,
an entry of the log or an earlier new one. -/
def Grows (platform : Platform) (log new : List AuditEntry) : Prop :=
  (∀ entry ∈ new, entry.recomputeHash platform.sha256 = entry.hash) ∧
    Linked AuditEntry.hash AuditEntry.prevHash genesisHash log new

theorem Placed.append {platform : Platform} {log new : List AuditEntry}
    (placed : Placed platform log) (grows : Grows platform log new) :
    Placed platform (log ++ new) := by
  refine ⟨?_, grows.2.reachesRoot placed.2⟩
  intro entry member
  rcases List.mem_append.mp member with old | fresh
  · exact placed.1 entry old
  · exact grows.1 entry fresh

theorem Grows.append {platform : Platform} {log new : List AuditEntry} {entry : AuditEntry}
    (grows : Grows platform log new) (hashed : entry.recomputeHash platform.sha256 = entry.hash)
    (resolves : Resolves AuditEntry.hash genesisHash (log ++ new) entry.prevHash) :
    Grows platform log (new ++ [entry]) := by
  refine ⟨?_, linked_append.mpr ⟨grows.2, resolves, trivial⟩⟩
  intro other member
  rcases List.mem_append.mp member with old | last
  · exact grows.1 other old
  · exact List.mem_singleton.mp last ▸ hashed

/-- What all requests keep: the committed log is well placed, and it only grows. -/
def auditProtocol (platform : Platform) : Protocol Tables Write where
  invariant := fun t => Placed platform (entries t)
  evolves := fun t t' => entries t ⊆ entries t'
  evolves_refl := fun _ _ member => member

section Outlines

variable {ι : Type} [DecidableEq ι] {platform : Platform} {index : ι}

abbrev auditContract (ι : Type) [DecidableEq ι] (platform : Platform) : Contract (postgres ι) :=
  (auditProtocol platform).contract engine

/-- The staged entries of a session, over the committed log. -/
def Staged (platform : Platform) : Assertion (Database ι) DbSession :=
  fun db s => Grows platform (entries db.tables) (stagedEntries s)

/-- Besides, a hash that was read of the committed log names the genesis or an entry of it. -/
def CommittedOver (platform : Platform) (prevHash : String) : Assertion (Database ι) DbSession :=
  fun db s => Staged platform db s ∧
    Resolves AuditEntry.hash genesisHash (entries db.tables) prevHash

/-- Besides, a hash that was read in the session names the genesis, a committed entry
or a staged one. -/
def StagedOver (platform : Platform) (prevHash : String) : Assertion (Database ι) DbSession :=
  fun db s => Staged platform db s ∧
    Resolves AuditEntry.hash genesisHash (entries db.tables ++ stagedEntries s) prevHash

omit [DecidableEq ι] in
theorem staged_kept : Kept (auditProtocol platform) engine index (Staged platform) :=
  fun _ _ _ _ _ _ _ guarantee _ staged => ⟨staged.1, staged.2.mono guarantee.2⟩

omit [DecidableEq ι] in
theorem staged_of_pending {db : Database ι} {s : DbSession} (pending : s.pending = []) :
    Staged platform db s := by
  simp [Staged, Grows, stagedEntries, pending, Linked]

theorem staged_standing :
    Standing (auditProtocol platform) engine index (Staged platform) (fun _ => Staged platform) where
  kept := staged_kept
  failed := fun _ => staged_kept
  crashes := fun _ _ _ => trivial
  refused := fun _ _ _ staged => staged
  opens := fun _ _ _ staged => by simpa [Staged, stagedEntries] using staged
  fails := fun _ _ _ _ _ => staged_of_pending rfl

theorem committedOver_standing {prevHash : String} :
    Standing (auditProtocol platform) engine index (CommittedOver platform prevHash)
      (fun _ => Staged platform) :=
  staged_standing.and (F := fun t => Resolves AuditEntry.hash genesisHash (entries t) prevHash)
    fun _ _ grows resolves => resolves.mono grows

theorem stagedOver_standing {prevHash : String} :
    Standing (auditProtocol platform) engine index (StagedOver platform prevHash)
      (fun _ => Staged platform) where
  kept := by
    intro j db db' s other store store' guarantee held staged
    refine ⟨staged_kept j db db' s other store store' guarantee held staged.1, ?_⟩
    exact staged.2.mono (List.append_subset.mpr
      ⟨fun _ member => List.mem_append_left _ (guarantee.2 member), List.subset_append_right _ _⟩)
  failed := fun _ => staged_kept
  crashes := fun _ _ _ => trivial
  refused := fun _ _ _ staged => staged.1
  opens := fun _ _ _ staged => by simpa [StagedOver, Staged, stagedEntries] using staged
  fails := fun _ _ _ _ _ => staged_of_pending rfl

/-- A statement of the session that adds no audit entry. -/
theorem sql_outline {β : Type}
    {run : View Tables Memo Env → Except PyExc (Effect Write Memo PyExc β)}
    (elsewhere : ∀ view effect row, run view = .ok effect → effect.write ≠ some (.insertAudit row)) :
    Valid .always (auditContract ι platform) index (fun _ => Staged platform)
      (fun _ => Staged platform) (Staged platform) (Program.perform (.query run)) := by
  refine Valid.query staged_standing (fun _ => staged_kept) ?_ ?_
  · intro db s env memo b _ _ _ _ staged _
    exact staged
  · intro db s env memo b w _ _ _ _ staged ran _
    have none : entryOf w = none := by
      cases w with
      | insertAudit row => exact absurd rfl (elsewhere _ _ row ran)
      | _ => rfl
    simpa [Staged, stagedEntries, Db.acquire, none] using staged

/-- The entry of a call, over a hash that resolves. -/
theorem grows_of_call {ctx : ExecutionContext} {call : AuditCall} {prevHash : String}
    {entryUuid recordUuid : Python.UUID} {now : Python.DateTime} {record : AuditLogRecord}
    {log new : List AuditEntry} (survives : call.Survives platform)
    (made : storedRecord platform (buildEntry platform.sha256 ctx call prevHash entryUuid now)
      recordUuid = .ok record) (grows : Grows platform log new)
    (resolves : Resolves AuditEntry.hash genesisHash (log ++ new) prevHash) :
    Grows platform log (new ++ [record.entry]) := by
  rw [storedRecord_entry survives made]
  exact grows.append (buildEntry_recomputeHash ..) resolves

/-- An entry over a hash of the committed log may be appended to it, whatever was
committed in between. -/
theorem audit_outline (ctx : ExecutionContext) {call : AuditCall}
    (survives : call.Survives platform) :
    Valid .always (auditContract ι platform) index (fun _ => Staged platform)
      (fun _ => Staged platform) (Staged platform) (audit platform ctx call) := by
  refine Valid.bind (N := fun prevHash => CommittedOver platform prevHash) ?_ fun prevHash =>
    Valid.bind (N := fun _ => CommittedOver platform prevHash) ?_ fun chosen =>
      Valid.bind (N := fun _ => Staged platform) ?_ fun _ => .ret (.refl _)
  · refine Valid.eager staged_standing (fun _ => committedOver_standing.kept)
      (fun _ _ _ staged => staged) ?_ ?_
    · intro db s env b _ _ _ staged read
      cases read
      exact ⟨staged, lastHash_resolves db.tables.auditLog env.pick⟩
    · intro db s env b w _ _ _ _ read
      cases read
  · exact Valid.choose committedOver_standing.toResting (fun _ => committedOver_standing.kept)
      (fun _ => staged_kept) fun _ _ _ _ _ _ staged => staged
  · refine Valid.eager committedOver_standing (fun _ => staged_kept)
      (fun _ _ _ staged => staged.1) (fun _ _ _ _ _ _ _ staged _ => staged.1) ?_
    intro db s env b w _ placed _ staged wrote _
    obtain ⟨record, made, rfl⟩ := insertAudit_of_map wrote
    have appended : entries (engine.apply db.tables (.insertAudit record)) =
        entries db.tables ++ [record.entry] := entries_apply db.tables (.insertAudit record)
    have grows : Grows platform (entries db.tables) ([] ++ [record.entry]) :=
      grows_of_call survives (storedRecord_of_inserted made) ⟨by simp, trivial⟩ (by simpa using staged.2)
    have subset : entries db.tables ⊆ entries (engine.apply db.tables (.insertAudit record)) :=
      appended ▸ List.subset_append_left _ _
    have placed' : Placed platform (entries (engine.apply db.tables (.insertAudit record))) :=
      appended ▸ placed.append grows
    exact ⟨placed', subset, staged.1.1, staged.1.2.mono subset⟩

/-- An entry over a hash that the session read joins what the session has staged. -/
theorem auditStaged_outline (ctx : ExecutionContext) {call : AuditCall}
    (survives : call.Survives platform) :
    Valid .always (auditContract ι platform) index (fun _ => Staged platform)
      (fun _ => Staged platform) (Staged platform) (auditStaged platform ctx call) := by
  refine Valid.bind (N := fun prevHash => StagedOver platform prevHash) ?_ fun prevHash =>
    Valid.bind (N := fun _ => StagedOver platform prevHash) ?_ fun chosen =>
      Valid.bind (N := fun _ => Staged platform) ?_ fun _ => .ret (.refl _)
  · refine Valid.query staged_standing (fun _ => stagedOver_standing.kept) ?_ ?_
    · intro db s env memo b _ _ _ _ staged read
      cases read
      refine ⟨staged, ?_⟩
      have resolves := lastHash_resolves (engine.view db s).auditLog env.pick
      exact entries_view db s ▸ resolves
    · intro db s env memo b w _ _ _ _ _ read
      cases read
  · exact Valid.choose stagedOver_standing.toResting (fun _ => stagedOver_standing.kept)
      (fun _ => staged_kept) fun _ _ _ _ _ _ staged => staged
  · refine Valid.query stagedOver_standing (fun _ => staged_kept) ?_ ?_
    · intro db s env memo b _ _ _ _ staged _
      exact staged.1
    · intro db s env memo b w _ _ _ _ staged wrote _
      obtain ⟨record, made, rfl⟩ := insertAudit_of_staged wrote
      have grows := grows_of_call survives made staged.1 staged.2
      simpa [Staged, stagedEntries, entryOf, Db.acquire] using grows

theorem rollback_outline : Valid .always (auditContract ι platform) index
    (fun _ => Staged platform) (fun _ => Staged platform) (Staged platform) rollback :=
  Valid.rollback (fun _ _ _ => trivial) staged_kept (fun _ => staged_kept)
    fun _ _ _ => staged_of_pending rfl

/-- The staged entries become part of the log together. -/
theorem commit_outline : Valid .always (auditContract ι platform) index
    (fun _ => Staged platform) (fun _ => Staged platform) (Staged platform) commit := by
  refine Valid.commit (fun _ _ _ => trivial) staged_kept (fun _ => staged_kept)
    (fun _ _ _ staged => staged) (fun _ _ _ _ staged => staged)
    (fun _ _ _ _ _ => staged_of_pending rfl) ?_
  intro db s _ placed _ _ _ staged _
  have placed' : Placed platform (entries (engine.view db s)) :=
    entries_view db s ▸ placed.append staged
  have subset : entries db.tables ⊆ entries (engine.view db s) :=
    entries_view db s ▸ List.subset_append_left _ _
  exact ⟨placed', subset, staged_of_pending rfl⟩

theorem call_outline {β : Type} (call : AuditedCall platform β) :
    Valid .always (auditContract ι platform) index (fun _ => Staged platform)
      (fun _ => Staged platform) (Staged platform) call.request := by
  cases call with
  | audit ctx call survives => exact audit_outline ctx survives
  | auditStaged ctx call survives => exact auditStaged_outline ctx survives
  | sql run elsewhere => exact sql_outline elsewhere
  | commit => exact commit_outline
  | rollback => exact rollback_outline

/-- A request in its unit of work keeps the chain, whatever it does in between. -/
theorem getDbSession_outline {α : Type} (ctx : ExecutionContext)
    (handler : Program (AuditedCall platform) PyExc α) :
    Valid .always (auditContract ι platform) index (fun _ => Staged platform)
      (fun _ => Staged platform) (Staged platform)
      (getDbSession ctx (handler.interpret AuditedCall.request)) := by
  refine Valid.bind (N := fun _ => Staged platform) (sql_outline ?_) fun _ => ?_
  · rintro view effect row ran
    cases ran
    exact nofun
  refine Valid.handle (N := fun _ => Staged platform) ?_ fun error => ?_
  · exact (Valid.interpret call_outline handler).bind fun _ =>
      Valid.bind (N := fun _ => Staged platform) commit_outline fun _ => .ret (.refl _)
  · cases error with
    | http status detail =>
        exact Valid.bind (N := fun _ => Staged platform) commit_outline fun _ => .throw (.refl _)
    | _ => exact Valid.bind (N := fun _ => Staged platform) rollback_outline fun _ => .throw (.refl _)

end Outlines

/-! ## Any number of requests in any order -/

theorem wellFormed_of_placed {platform : Platform} {t : Tables} (unique : t.keys.Nodup)
    (placed : Placed platform (entries t)) : WellFormed platform.sha256 (entries t) where
  unique := by
    have hashes := Tables.auditHashes_nodup unique
    rw [entries, List.map_map]
    exact hashes
  recomputed := placed.1
  descends := placed.2

/-- **The committed audit log always verifies.** From tables whose log verifies, any
number of requests may run in any order, with a crash possible at any point: each
writes any entries in both ways, issues any other statements, and its session is
committed or rolled back. In every state that is reached, `verify_chain` over the
committed entries, in any order, answers `True`. -/
theorem verifyChain_of_reaches {ι α : Type} [DecidableEq ι] (platform : Platform)
    (tables : Tables) (unique : tables.keys.Nodup)
    (verifies : verifyChain platform.sha256 (entries tables) = true)
    (ctx : ι → ExecutionContext) (handlers : ι → Program (AuditedCall platform) PyExc α)
    {w : World ι DbStatement PyExc α (Database ι) DbSession}
    (reaches : World.Reaches (postgres ι) (World.start { tables } freshSession fun index =>
      getDbSession (ctx index) ((handlers index).interpret AuditedCall.request)) w)
    {listed : List AuditEntry} (all : listed.Perm (entries w.db.tables)) :
    verifyChain platform.sha256 listed = true := by
  have start := (verifyChain_eq_true platform.sha256 (entries tables)).mp verifies
  have sound : World.Sound .always (auditContract ι platform) (fun _ _ => Staged platform)
      (fun _ _ => Staged platform) (World.start { tables } freshSession fun index =>
        getDbSession (ctx index) ((handlers index).interpret AuditedCall.request)) := by
    refine World.Sound.start (P := fun _ => Staged platform)
      ⟨⟨by simp, unique⟩, start.recomputed, start.descends⟩ (fun _ => ⟨by simp [freshSession],
        unique, fun _ => rfl, Nat.zero_le _⟩) (fun _ => staged_kept)
      (fun _ => staged_of_pending rfl) fun index => getDbSession_outline (ctx index) (handlers index)
  have store := (sound.runs reaches).store
  have wellFormed := wellFormed_of_placed store.1.unique store.2
  exact (verifyChain_eq_true platform.sha256 listed).mpr (wellFormed.perm all.symm)

def sampleCall : AuditCall := { action := "registry.parcel.updated" }

theorem sampleCall_survives : sampleCall.Survives ⟨id, id⟩ := ⟨nofun, fun _ _ => rfl⟩

/-- The one stores an entry at once, the other stages one. -/
def sampleHandler : Bool → Program (AuditedCall ⟨id, id⟩) PyExc AuditEntry
  | true => .perform (.audit { principalId := "u-1" } sampleCall sampleCall_survives)
  | false => .perform (.auditStaged { principalId := "u-2" } sampleCall sampleCall_survives)

def sampleStep (index : Bool) (uuid : Nat) : Action Bool (Choice Env) :=
  .step index { env := { uuid := .ofInt uuid, now := .newYear } }

/-- Both read the hash of the genesis before either entry is stored. -/
def sampleRun : Option (World Bool DbStatement PyExc AuditEntry (Database Bool) DbSession) :=
  World.run (postgres Bool)
    (World.start { tables := {} } freshSession fun index =>
      getDbSession { principalId := "u" } ((sampleHandler index).interpret AuditedCall.request))
    [sampleStep true 1, sampleStep false 1, sampleStep true 1, sampleStep false 1,
      sampleStep true 1, sampleStep false 2, sampleStep false 3, sampleStep true 4,
      sampleStep false 1, sampleStep true 1]

/-- Two entries with one predecessor verify. -/
theorem verifyChain_of_reaches_sample :
    ∃ w, sampleRun = some w ∧ (entries w.db.tables).map (·.prevHash) = [genesisHash, genesisHash] ∧
      verifyChain id (entries w.db.tables) = true := by
  obtain ⟨w, ran, forked⟩ : ∃ w, sampleRun = some w ∧
      (entries w.db.tables).map (·.prevHash) = [genesisHash, genesisHash] := by
    have observed : sampleRun.map (fun w => (entries w.db.tables).map (·.prevHash)) =
        some [genesisHash, genesisHash] := by decide +kernel
    exact Option.map_eq_some_iff.mp observed
  exact ⟨w, ran, forked, verifyChain_of_reaches ⟨id, id⟩ {} (by decide) (by decide) _
    sampleHandler (World.reaches_of_run ran) (.refl _)⟩

end LandVault.Kernel.Audit
