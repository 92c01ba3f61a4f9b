import LandVault.Kernel.Audit

/-!
# Audit entries in Postgres

How an entry becomes a row of `audit_log` and a row an entry again
(`app/kernel/audit_postgres.py`). The `id` column holds a 128-bit identifier and
`created_at` a point in time, so the two texts of the entry are read on the way
in and written anew on the way out; a JSONB column keeps a payload up to the
spelling of its numbers, which `normalise` stands for.
-/

set_option autoImplicit false

namespace LandVault.Kernel.Audit

open LandVault.Library.JsonText LandVault.Python

/-- A payload as a JSONB column hands it back. -/
def Payload.normalised (normalise : Number → Number) (payload : Payload) : Payload where
  members := mapNumbersMembers normalise payload.members
  canonical := by
    have same := Json.mapNumbers_canonical normalise (.object payload.members)
    exact same.trans payload.canonical

theorem Payload.normalised_eq_self {normalise : Number → Number} {payload : Payload} :
    payload.normalised normalise = payload ↔
      ∀ n ∈ numbersOfMembers payload.members, normalise n = n := by
  rw [Payload.ext_iff]
  exact mapNumbersMembers_eq_self normalise payload.members

/-- `AuditLogRecord`. -/
structure AuditLogRecord where
  id : UUID
  action : String
  resourceType : String
  resourceId : Option String
  decision : Option String
  principalId : String
  payload : Payload
  prevHash : String
  hash : String
  createdAt : DateTime

/-- `_looks_like_uuid`. -/
def looksLikeUuid (value : String) : Bool := (UUID.parse value).isSome

/-- `_to_record`; nothing where `datetime.fromisoformat` raises. `uuid4` is what
`uuid.uuid4()` would return. -/
def toRecord (entry : AuditEntry) (uuid4 : UUID) : Option AuditLogRecord :=
  (DateTime.fromisoformat entry.createdAt).map fun createdAt =>
    { id := if looksLikeUuid entry.entryId then (UUID.parse entry.entryId).getD uuid4 else uuid4
      action := entry.action
      resourceType := entry.resourceType
      resourceId := entry.resourceId
      decision := entry.decision
      principalId := entry.principalId
      payload := entry.payload
      prevHash := entry.prevHash
      hash := entry.hash
      createdAt }

/-- The row that the database keeps of a record. -/
def AuditLogRecord.stored (normalise : Number → Number) (record : AuditLogRecord) :
    AuditLogRecord :=
  { record with payload := record.payload.normalised normalise }

/-- The entry that `all_entries` makes of a row. -/
def AuditLogRecord.entry (record : AuditLogRecord) : AuditEntry where
  entryId := record.id.hex
  action := record.action
  resourceType := record.resourceType
  resourceId := record.resourceId
  decision := record.decision
  principalId := record.principalId
  payload := record.payload
  createdAt := record.createdAt.isoformat
  prevHash := record.prevHash
  hash := record.hash

/-- An entry written by `_to_record` and read by `all_entries`. -/
def readBack (normalise : Number → Number) (entry : AuditEntry) (uuid4 : UUID) :
    Option AuditEntry :=
  (toRecord entry uuid4).map fun record => (record.stored normalise).entry

/-- The entry of a call comes back with every hashed field, so that its hash is
recomputed. -/
def RoundTrips (sha256 : String → String) (normalise : Number → Number) (ctx : ExecutionContext)
    (call : AuditCall) (prevHash : String) (now : DateTime) (entryUuid recordUuid : UUID) : Prop :=
  let entry := buildEntry sha256 ctx call prevHash entryUuid now
  ∃ entry', readBack normalise entry recordUuid = some entry' ∧
    { entry' with hash := entry.hash } = entry ∧ entry'.recomputeHash sha256 = entry'.hash

/-- The identifier is left to the code, or is 32 lower-case hexadecimal digits. -/
def AuditCall.PlainEntryId (call : AuditCall) : Prop :=
  ∀ entryId, call.entryId = some entryId → entryId = "" ∨ isHex32 entryId = true

theorem recordId_eq (value : String) (uuid4 : UUID) :
    (if looksLikeUuid value then (UUID.parse value).getD uuid4 else uuid4) =
      (UUID.parse value).getD uuid4 := by
  cases parsed : UUID.parse value <;> simp [looksLikeUuid, parsed]

/-- The entry of a call as it comes back. -/
theorem readBack_buildEntry (sha256 : String → String) (normalise : Number → Number)
    (ctx : ExecutionContext) (call : AuditCall) (prevHash : String) (now : DateTime)
    (entryUuid recordUuid : UUID) :
    readBack normalise (buildEntry sha256 ctx call prevHash entryUuid now) recordUuid =
      some { buildEntry sha256 ctx call prevHash entryUuid now with
        entryId := ((UUID.parse (call.entryIdOr entryUuid)).getD recordUuid).hex
        payload := call.payloadOrEmpty.normalised normalise } := by
  simp only [readBack, toRecord, recordId_eq]
  simp only [buildEntry, DateTime.fromisoformat_isoformat, Option.map_some,
    AuditLogRecord.stored, AuditLogRecord.entry]

/-- Reading an identifier and writing its `hex` keeps exactly the plain ones. -/
theorem hex_parse_eq_self {text : String} {uuid4 : UUID} :
    ((UUID.parse text).getD uuid4).hex = text ↔ isHex32 text = true := by
  constructor
  · intro same
    rw [← same]
    exact UUID.isHex32_hex _
  · intro hex
    obtain ⟨id, parsed, same⟩ := UUID.parse_of_isHex32 hex
    rw [parsed, Option.getD_some, same]

theorem AuditCall.plainEntryId_iff {call : AuditCall} (uuid4 : UUID) :
    call.PlainEntryId ↔ isHex32 (call.entryIdOr uuid4) = true := by
  unfold PlainEntryId entryIdOr
  cases call.entryId with
  | none => simp [UUID.isHex32_hex]
  | some entryId =>
      by_cases empty : entryId = ""
      · simp [empty, UUID.isHex32_hex]
      · simp [empty]

theorem roundTrips_iff_fields {sha256 : String → String} {normalise : Number → Number}
    {ctx : ExecutionContext} {call : AuditCall} {prevHash : String} {now : DateTime}
    {entryUuid recordUuid : UUID} :
    RoundTrips sha256 normalise ctx call prevHash now entryUuid recordUuid ↔
      isHex32 (call.entryIdOr entryUuid) = true ∧
        call.payloadOrEmpty.normalised normalise = call.payloadOrEmpty := by
  simp only [RoundTrips, readBack_buildEntry, Option.some.injEq, exists_eq_left']
  constructor
  · rintro ⟨same, -⟩
    have entryId := congrArg AuditEntry.entryId same
    have payload := congrArg AuditEntry.payload same
    exact ⟨hex_parse_eq_self.mp entryId, payload⟩
  · rintro ⟨hex, payload⟩
    rw [hex_parse_eq_self.mpr hex, payload]
    exact ⟨rfl, buildEntry_recomputeHash sha256 ctx call prevHash entryUuid now⟩

/-- An entry comes back as it was written exactly when its identifier is plain
and its payload has no number that JSONB spells differently. -/
theorem roundTrips_iff (sha256 : String → String) (normalise : Number → Number)
    (ctx : ExecutionContext) (call : AuditCall) (prevHash : String) (now : DateTime)
    (entryUuid recordUuid : UUID) :
    RoundTrips sha256 normalise ctx call prevHash now entryUuid recordUuid ↔
      call.PlainEntryId ∧
        ∀ n ∈ numbersOfMembers call.payloadOrEmpty.members, normalise n = n := by
  rw [roundTrips_iff_fields, AuditCall.plainEntryId_iff entryUuid,
    Payload.normalised_eq_self]

/-- An identifier with hyphens comes back without them. -/
theorem not_roundTrips_hyphenated :
    ¬ ∃ (sha256 : String → String) (recordUuid : UUID),
      RoundTrips sha256 id { principalId := "u-1" }
        { action := "registry.parcel.updated",
          entryId := some "6f9619ff-8b86-4011-b42d-00c04fc964ff" }
        genesisHash ⟨2026, 1, 1, 0, 0, 0, 0, by decide, by decide⟩ ⟨1, by decide⟩ recordUuid := by
  rintro ⟨sha256, recordUuid, roundTrips⟩
  have hex := (roundTrips_iff_fields.mp roundTrips).1
  exact absurd hex (by decide)

end LandVault.Kernel.Audit
