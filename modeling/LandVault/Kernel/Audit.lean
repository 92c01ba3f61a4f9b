import Mathlib.Data.List.AList
import LandVault.Kernel.Context
import LandVault.Library.HashLinks
import LandVault.Library.JsonText
import LandVault.Python.Datetime
import LandVault.Python.Uuid

/-!
# The audit chain

The kernel's append-only audit log (`app/kernel/audit.py`). Each entry stores the
SHA-256 digest of a canonical JSON text of its own fields, the digest of one
predecessor among them. Entries may share a predecessor, so the log is a graph
that grows away from `GENESIS_HASH`, and `verify_chain` walks it backwards from
every entry, remembering what earlier walks found.

`sha256` stands for the hexadecimal SHA-256 digest of a text.
-/

set_option autoImplicit false

namespace LandVault.Kernel.Audit

open LandVault.Library.HashLinks LandVault.Library.JsonText LandVault.Python

/-! ## Entries -/

/-- `GENESIS_HASH = "0" * 64`. -/
def genesisHash : String := String.ofList (List.replicate 64 '0')

/-- A Python dict of JSON values: its members in the order of their keys. -/
@[ext] structure Payload where
  members : List (String × Json)
  canonical : (Json.object members).canonical = true

/-- The dict of a display with JSON values. -/
def Payload.dict (members : List (String × Json))
    (values : ∀ member ∈ members, member.2.canonical = true) : Payload :=
  ⟨Json.dict members, Json.dict_canonical values⟩

def Payload.empty : Payload := ⟨[], rfl⟩

/-- A `str | None` as a JSON value. -/
def optional : Option String → Json
  | none => .null
  | some s => .string s

/-- A value in the payload of a service: a `str | None` or a list of texts. -/
inductive Detail where
  | text (value : Option String)
  | texts (values : List String)

def Detail.json : Detail → Json
  | .text value => optional value
  | .texts values => .array (values.map .string)

theorem Detail.json_canonical (detail : Detail) : detail.json.canonical = true := by
  cases detail with
  | text value => cases value <;> rfl
  | texts values =>
      have items : canonicalItems (values.map .string) = true := by
        induction values with
        | nil => rfl
        | cons value values ih => simpa [canonicalItems, Json.canonical] using ih
      simpa [Detail.json, Json.canonical] using items

/-- The payload of a service. -/
def Payload.details (members : List (String × Detail)) : Payload :=
  Payload.dict (members.map fun member => (member.1, member.2.json)) fun member listed => by
    obtain ⟨given, _, rfl⟩ := List.mem_map.mp listed
    exact given.2.json_canonical

/-- The strings of a payload, its keys among them. -/
def Payload.texts (payload : Payload) : List String := textsOfMembers payload.members

/-- The strings of a value in the payload of a service. -/
def Detail.strings : Detail → List String
  | .text value => value.toList
  | .texts values => values

theorem Detail.texts_json (detail : Detail) : detail.json.texts = detail.strings := by
  cases detail with
  | text value => cases value <;> rfl
  | texts values =>
      simp only [Detail.json, Json.texts, Detail.strings]
      induction values with
      | nil => rfl
      | cons value values ih => simp [textsOfItems, Json.texts, ih]

theorem Payload.texts_details {members : List (String × Detail)} {text : String}
    (listed : text ∈ (Payload.details members).texts) :
    ∃ member ∈ members, text = member.1 ∨ text ∈ member.2.strings := by
  obtain ⟨member, inside, named⟩ := mem_textsOfMembers.mp listed
  obtain ⟨given, known, rfl⟩ := List.mem_map.mp (mem_dict inside)
  rw [Detail.texts_json] at named
  exact ⟨given, known, named⟩

/-- A text of a payload, under a key that no later member has. -/
theorem Payload.mem_texts (front back : List (String × Detail)) {key : String} (text : String)
    (fresh : ∀ member ∈ back, member.1 ≠ key) :
    text ∈ (Payload.details (front ++ (key, .text (some text)) :: back)).texts := by
  refine mem_textsOfMembers.mpr ⟨(key, .string text), ?_, .inr List.mem_cons_self⟩
  have fresh : ∀ member ∈ back.map fun member => (member.1, member.2.json), member.1 ≠ key := by
    intro member listed
    obtain ⟨given, known, rfl⟩ := List.mem_map.mp listed
    exact fresh given known
  have inside := mem_dict_of_fresh (front.map fun member => (member.1, member.2.json))
    (.string text) fresh
  simpa [Payload.details, Payload.dict, Detail.json, optional] using inside

/-- The text that `_compute_hash` digests: `json.dumps` of the nine hashed fields
with `sort_keys=True` and `separators=(",", ":")`. -/
def canonicalText (entryId action resourceType : String) (resourceId decision : Option String)
    (principalId : String) (payload : Payload) (createdAt prevHash : String) : String :=
  String.ofList <| Json.text <| .object <| Json.dict
    [("entry_id", .string entryId),
     ("action", .string action),
     ("resource_type", .string resourceType),
     ("resource_id", optional resourceId),
     ("decision", optional decision),
     ("principal_id", .string principalId),
     ("payload", .object payload.members),
     ("created_at", .string createdAt),
     ("prev_hash", .string prevHash)]

structure AuditEntry where
  entryId : String
  action : String
  resourceType : String
  resourceId : Option String
  decision : Option String
  principalId : String
  payload : Payload
  createdAt : String
  prevHash : String
  hash : String

/-- The text whose digest the entry should store. -/
def AuditEntry.text (entry : AuditEntry) : String :=
  canonicalText entry.entryId entry.action entry.resourceType entry.resourceId entry.decision
    entry.principalId entry.payload entry.createdAt entry.prevHash

section Hashing

variable (sha256 : String → String)

/-- `_compute_hash`. -/
def computeHash (entryId action resourceType : String) (resourceId decision : Option String)
    (principalId : String) (payload : Payload) (createdAt prevHash : String) : String :=
  sha256 (canonicalText entryId action resourceType resourceId decision principalId payload
    createdAt prevHash)

def AuditEntry.recomputeHash (entry : AuditEntry) : String :=
  computeHash sha256 entry.entryId entry.action entry.resourceType entry.resourceId
    entry.decision entry.principalId entry.payload entry.createdAt entry.prevHash

/-- The keyword arguments of `audit` and `audit_staged`. -/
structure AuditCall where
  action : String
  resourceType : String := "unknown"
  resourceId : Option String := none
  decision : Option String := none
  payload : Option Payload := none
  entryId : Option String := none

/-- `payload or {}`. -/
def AuditCall.payloadOrEmpty (call : AuditCall) : Payload := call.payload.getD .empty

/-- `entry_id or uuid.uuid4().hex`. -/
def AuditCall.entryIdOr (call : AuditCall) (uuid4 : UUID) : String :=
  match call.entryId with
  | none => uuid4.hex
  | some entryId => if entryId = "" then uuid4.hex else entryId

/-- `_build_entry`, given the store's last hash, the identifier that `uuid4`
would return and the time of the call. -/
def buildEntry (ctx : ExecutionContext) (call : AuditCall) (prevHash : String) (uuid4 : UUID)
    (now : DateTime) : AuditEntry :=
  let entryId := call.entryIdOr uuid4
  let createdAt := now.isoformat
  let payload := call.payloadOrEmpty
  { entryId, action := call.action, resourceType := call.resourceType,
    resourceId := call.resourceId, decision := call.decision, principalId := ctx.principalId,
    payload, createdAt, prevHash,
    hash := computeHash sha256 entryId call.action call.resourceType call.resourceId call.decision
      ctx.principalId payload createdAt prevHash }

@[simp] theorem buildEntry_recomputeHash (ctx : ExecutionContext) (call : AuditCall)
    (prevHash : String) (uuid4 : UUID) (now : DateTime) :
    (buildEntry sha256 ctx call prevHash uuid4 now).recomputeHash sha256 =
      (buildEntry sha256 ctx call prevHash uuid4 now).hash := rfl

@[simp] theorem buildEntry_prevHash (ctx : ExecutionContext) (call : AuditCall)
    (prevHash : String) (uuid4 : UUID) (now : DateTime) :
    (buildEntry sha256 ctx call prevHash uuid4 now).prevHash = prevHash := rfl

end Hashing

/-! ## Verification -/

abbrev ByHash : Type := AList fun _ : String => AuditEntry

abbrev Resolved : Type := AList fun _ : String => Bool

/-- The first loop of `verify_chain`: the entries by their hash, or nothing when
a hash occurs twice. -/
def indexByHash : List AuditEntry → ByHash → Option ByHash
  | [], byHash => some byHash
  | entry :: entries, byHash =>
      if entry.hash ∈ byHash then none
      else indexByHash entries (byHash.insert entry.hash entry)

theorem unseen_decreases {byHash : ByHash} {path : List String} {current : String}
    {entry : AuditEntry} (unseen : current ∉ path) (found : byHash.lookup current = some entry) :
    (byHash.keys.filter (· ∉ current :: path)).length <
      (byHash.keys.filter (· ∉ path)).length := by
  have known : current ∈ byHash.keys :=
    AList.mem_keys.mpr (AList.lookup_isSome.mp (by simp [found]))
  have nodup := byHash.keys_nodup
  have split : byHash.keys.filter (· ∉ current :: path) =
      (byHash.keys.filter (· ∉ path)).filter (· ≠ current) := by
    rw [List.filter_filter]
    refine List.filter_congr fun h _ => ?_
    simp
  rw [split]
  refine List.length_filter_lt_length_iff_exists.mpr ⟨current, ?_, by simp⟩
  simp [known, unseen]

/-- The loop of `_reaches_genesis`: one walk backwards from `current`. It answers
with the result and the hashes it went through, the last one first; `path_seen`
holds the same hashes. -/
def walk (byHash : ByHash) (resolved : Resolved) (path : List String) (current : String) :
    Bool × List String :=
  if current = genesisHash then (true, path)
  else
    match resolved.lookup current with
    | some result => (result, path)
    | none =>
        if _ : current ∈ path then (false, path)
        else
          match _ : byHash.lookup current with
          | none => (false, path)
          | some entry => walk byHash resolved (current :: path) entry.prevHash
termination_by (byHash.keys.filter (· ∉ path)).length
decreasing_by exact unseen_decreases ‹_› ‹_›

/-- `_reaches_genesis`, with the memo it leaves behind. -/
def reachesGenesis (startHash : String) (byHash : ByHash) (resolved : Resolved) :
    Bool × Resolved :=
  let (result, path) := walk byHash resolved [] startHash
  (result, path.reverse.foldl (fun resolved node => resolved.insert node result) resolved)

/-- The last loop of `verify_chain`: a walk from every entry, with one memo. -/
def allReachGenesis (byHash : ByHash) : List AuditEntry → Resolved → Bool
  | [], _ => true
  | entry :: entries, resolved =>
      let (result, resolved) := reachesGenesis entry.hash byHash resolved
      if result then allReachGenesis byHash entries resolved else false

/-- `verify_chain` over the entries its store returned. -/
def verifyChain (sha256 : String → String) (entries : List AuditEntry) : Bool :=
  match indexByHash entries ∅ with
  | none => false
  | some byHash =>
      if entries.all fun entry => entry.recomputeHash sha256 == entry.hash then
        allReachGenesis byHash entries ∅
      else false

end LandVault.Kernel.Audit
