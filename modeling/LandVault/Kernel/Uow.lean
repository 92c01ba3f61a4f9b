import LandVault.Database
import LandVault.Identity.Authority

/-!
# The unit of work and the two ways to write an audit entry

`get_db_session` (`app/kernel/uow.py`) sets the scope of row-level security, runs the
request and commits; it also commits after an `HTTPException`, and rolls back after
any other exception.

`audit` (`app/kernel/audit.py`) writes through sessions of its own: one reads the last
hash, another appends the entry and commits. `audit_staged`
(`app/kernel/audit_postgres.py`) does both in the session of the request and leaves
the commit to it.
-/

set_option autoImplicit false

namespace LandVault.Kernel

open Audit Identity Library.JsonText Library.Lineage Library.Programs Library.ReadCommitted Python

/-- What the audit log takes from outside: the digest of what a text is encoded to, and what a
JSONB column does to numbers. -/
structure Platform where
  sha256 : String → String
  normalise : Number → Number

/-- A digest that is quick to compute: one byte of a text, and all of a shorter one. -/
def digestAt (place : Nat) (text : String) : String :=
  match text.toByteArray.data.toList.drop place with
  | [] => text
  | byte :: _ => String.singleton (Char.ofNat byte.toNat)

/-! ## The unit of work -/

/-- The setting that `get_db_session` makes for a request. -/
def scopeOf (ctx : ExecutionContext) : Scope :=
  match ctx.tenantId with
  | none => .superAdmin
  | some tenantId =>
      if ctx.isAnonymous || ctx.hasAnyRole [Role.superAdmin.value] then .superAdmin
      else .tenant tenantId

/-- `SELECT set_config(...)`. -/
def setConfig (scope : Scope) : Request Unit :=
  .perform <| .query fun view => .ok { memo := { view.memo with scope }, answer := .ok () }

def commit : Request Unit := .perform .commit

def rollback : Request Unit := .perform .rollback

/-- `get_db_session` around a request. -/
def getDbSession {α : Type} (ctx : ExecutionContext) (request : Request α) : Request α := do
  setConfig (scopeOf ctx)
  tryCatch
    (do
      let answer ← request
      commit
      pure answer)
    fun
      | .http status detail => do
          commit
          throw (.http status detail)
      | error => do
          rollback
          throw error

/-! ## Audit entries -/

/-- `last_hash`: the hash of a row with the latest `created_at`. -/
def lastHash (rows : List AuditLogRecord) (pick : Nat) : String :=
  match newest (fun row => row.createdAt.position) pick rows with
  | none => genesisHash
  | some row => if row.hash = "" then genesisHash else row.hash

/-- The row of an entry as the database stores it. -/
def storedRecord (platform : Platform) (entry : AuditEntry) (uuid4 : UUID) :
    Except PyExc AuditLogRecord :=
  match toRecord entry uuid4 with
  | some record => .ok (record.stored platform.normalise)
  | none => .error (.value ("Invalid isoformat string: " ++ reprString entry.createdAt))

/-- The texts that go into the columns of a row. -/
def AuditEntry.columns (entry : AuditEntry) : List String :=
  entry.action :: entry.resourceType :: entry.principalId ::
    (entry.resourceId.toList ++ entry.decision.toList)

/-- The row of an entry, as far as Postgres takes its texts. -/
def insertedRecord (platform : Platform) (entry : AuditEntry) (uuid4 : UUID) :
    Except PyExc AuditLogRecord :=
  (bindTexts (AuditEntry.columns entry)).bind fun _ =>
    (bindJsonb entry.payload.texts).bind fun _ => storedRecord platform entry uuid4

theorem storedRecord_of_inserted {platform : Platform} {entry : AuditEntry} {uuid4 : UUID}
    {record : AuditLogRecord} (made : insertedRecord platform entry uuid4 = .ok record) :
    storedRecord platform entry uuid4 = .ok record := by
  obtain ⟨_, _, rest⟩ := bind_eq_ok made
  obtain ⟨_, _, stored⟩ := bind_eq_ok rest
  exact stored

/-- The texts that a call puts into its row. -/
def AuditCall.texts (ctx : ExecutionContext) (call : AuditCall) : List String :=
  call.action :: call.resourceType :: ctx.principalId ::
    (call.resourceId.toList ++ call.decision.toList) ++ call.payloadOrEmpty.texts

/-- A call whose texts Postgres takes, each by itself. -/
theorem plain_texts {ctx : ExecutionContext} {action resourceType : String}
    {resourceId decision : Option String} {members : List (String × Detail)}
    (principal : hasNul ctx.principalId = false)
    (words : ∀ text ∈ action :: resourceType :: decision.toList, hasNul text = false)
    (resource : ∀ text ∈ resourceId, hasNul text = false)
    (payload : ∀ member ∈ members, ∀ text ∈ member.1 :: member.2.strings, hasNul text = false) :
    ∀ text ∈ AuditCall.texts ctx
      { action := action
        resourceType := resourceType
        resourceId := resourceId
        decision := decision
        payload := some (.details members) }, hasNul text = false := by
  intro text member
  simp only [AuditCall.texts, AuditCall.payloadOrEmpty, Option.getD_some, List.mem_append,
    List.mem_cons, Option.mem_toList] at member
  rcases member with (rfl | rfl | rfl | named | decided) | inPayload
  · exact words _ List.mem_cons_self
  · exact words _ (List.mem_cons_of_mem _ List.mem_cons_self)
  · exact principal
  · exact resource text named
  · refine words text (List.mem_cons_of_mem _ (List.mem_cons_of_mem _ ?_))
    exact Option.mem_toList.mpr decided
  · obtain ⟨member, listed, named⟩ := Payload.texts_details inPayload
    exact payload member listed text (List.mem_cons.mpr named)

theorem insertedRecord_of_plain {platform : Platform} {ctx : ExecutionContext} {call : AuditCall}
    {prevHash : String} {entryUuid recordUuid : UUID} {now : DateTime}
    (plain : ∀ text ∈ AuditCall.texts ctx call, hasNul text = false) :
    insertedRecord platform (buildEntry platform.sha256 ctx call prevHash entryUuid now)
      recordUuid = storedRecord platform
        (buildEntry platform.sha256 ctx call prevHash entryUuid now) recordUuid := by
  have columns : bindTexts (AuditEntry.columns
      (buildEntry platform.sha256 ctx call prevHash entryUuid now)) = .ok () :=
    bindTexts_of_plain fun text member => plain text (List.mem_append_left _ member)
  have payload : bindJsonb (buildEntry platform.sha256 ctx call prevHash entryUuid
      now).payload.texts = .ok () :=
    bindJsonb_of_plain fun text member => plain text (List.mem_append_right _ member)
  rw [insertedRecord, columns, payload, Except.bind, Except.bind]

/-- A text with U+0000 keeps the row out. -/
theorem insertedRecord_of_nul {platform : Platform} {ctx : ExecutionContext} {call : AuditCall}
    {prevHash : String} {entryUuid recordUuid : UUID} {now : DateTime} {text : String}
    (member : text ∈ AuditCall.texts ctx call) (nul : hasNul text = true) :
    ∃ message, insertedRecord platform
      (buildEntry platform.sha256 ctx call prevHash entryUuid now) recordUuid =
        .error (.database message) := by
  rw [insertedRecord]
  rcases List.mem_append.mp member with inColumns | inPayload
  · have refused : bindTexts (AuditEntry.columns
        (buildEntry platform.sha256 ctx call prevHash entryUuid now)) = _ :=
      if_pos (List.any_eq_true.mpr ⟨text, inColumns, nul⟩)
    exact ⟨_, by rw [refused]; rfl⟩
  · cases bound : bindTexts (AuditEntry.columns
        (buildEntry platform.sha256 ctx call prevHash entryUuid now)) with
    | error e =>
        obtain ⟨message, rfl⟩ := bindTexts_error bound
        exact ⟨message, rfl⟩
    | ok _ =>
        have refused : bindJsonb (buildEntry platform.sha256 ctx call prevHash entryUuid
            now).payload.texts = _ := if_pos (List.any_eq_true.mpr ⟨text, inPayload, nul⟩)
        exact ⟨_, by rw [refused]; rfl⟩

/-- A row that is not inserted: Postgres refuses a text of it, or the entry has no row. -/
theorem inserted_error {platform : Platform} {entry : AuditEntry} {uuid4 : UUID} {e : PyExc}
    (raised : insertedRecord platform entry uuid4 = .error e) :
    e.isRefusal = true ∨ storedRecord platform entry uuid4 = .error e := by
  rcases bind_eq_error raised with bound | ⟨_, _, raised⟩
  · exact .inl (isRefusal_of_bindTexts bound)
  · exact (bind_eq_error raised).imp isRefusal_of_bindJsonb fun ⟨_, _, stored⟩ => stored

/-- What the row of a call says when it is read back. -/
theorem storedRecord_eq {platform : Platform} {ctx : ExecutionContext} {call : AuditCall}
    {prevHash : String} {entryUuid recordUuid : UUID} {now : DateTime} {record : AuditLogRecord}
    (made : storedRecord platform (buildEntry platform.sha256 ctx call prevHash entryUuid now)
      recordUuid = .ok record) :
    record.entry = { buildEntry platform.sha256 ctx call prevHash entryUuid now with
      entryId := ((UUID.parse (call.entryIdOr entryUuid)).getD recordUuid).hex
      payload := call.payloadOrEmpty.normalised platform.normalise } := by
  have back := readBack_buildEntry platform.sha256 platform.normalise ctx call prevHash now
    entryUuid recordUuid
  unfold storedRecord at made
  unfold readBack at back
  split at made
  · rename_i row converted
    cases made
    simpa [converted] using back
  · cases made

/-- `audit`, through `EagerPostgresAuditStore`. -/
def audit (platform : Platform) (ctx : ExecutionContext) (call : AuditCall) :
    Request AuditEntry := do
  let prevHash ← .perform (.eager fun tables env =>
    .ok (none, lastHash tables.auditLog env.pick))
  let (uuid4, now) ← choose fun env => (env.uuid, env.now)
  let entry := buildEntry platform.sha256 ctx call prevHash uuid4 now
  .perform (.eager fun _ env =>
    (insertedRecord platform entry env.uuid).map fun record => (some (.insertAudit record), ()))
  pure entry

/-- `audit_staged`, in the session of the request. What its callers put into an entry is
stored already, or one of a fixed list of words, so Postgres takes the texts. -/
def auditStaged (platform : Platform) (ctx : ExecutionContext) (call : AuditCall) :
    Request AuditEntry := do
  let prevHash ← select fun view => .ok (lastHash view.tables.auditLog view.env.pick)
  let (uuid4, now) ← choose fun env => (env.uuid, env.now)
  let entry := buildEntry platform.sha256 ctx call prevHash uuid4 now
  .perform (.query fun view =>
    (storedRecord platform entry view.env.uuid).map fun record =>
      { memo := view.memo, answer := .ok (), write := some (.insertAudit record) })
  pure entry

end LandVault.Kernel
