import LandVault.Kernel.Context
import LandVault.Library.JsonText
import LandVault.Python.Datetime
import LandVault.Python.Values

/-!
# What Postgres and its drivers give every table

The exceptions that a request can meet, row-level security, and points in time as
the tables hold them.

Every tenant-scoped table has one policy: a row is visible, and may be written,
when its `tenant_id` equals the setting `app.tenant_id` or when
`app.is_super_admin` is `'true'`. Both settings are local to a transaction.
-/

set_option autoImplicit false

namespace LandVault.Kernel

open LandVault.Library.Numerals LandVault.Python

/-! ## Exceptions -/

/-- The exceptions of the modelled code. `http` is FastAPI's `HTTPException`;
`integrity` is SQLAlchemy's `IntegrityError` with its two diagnostics, and
`database` any other error of the driver; `outside` is any error of a service outside
the database. -/
inductive PyExc where
  | http (status : Nat) (detail : String)
  | integrity (sqlstate constraint : String)
  | database (message : String)
  | disconnected
  | pendingRollback
  | multipleResultsFound
  | staleData
  | value (message : String)
  | runtime (message : String)
  | parcelArchived (message : String)
  | geometryAlreadySuperseded (message : String)
  | evidenceSealed (message : String)
  | evidenceLifecycle (message : String)
  | evidenceIntegrity (message : String)
  | optimisticLock (message : String)
  | overflow
  | typeError (message : String)
  | identityProvider (code message : String)
  | outside (message : String)
  deriving DecidableEq

def PyExc.isHttp : PyExc → Bool
  | .http _ _ => true
  | _ => false

/-- The database or its driver refuses what a statement wants to write. -/
def PyExc.isRefusal : PyExc → Bool
  | .integrity _ _ | .database _ => true
  | _ => false

theorem notHttp_of_isRefusal {e : PyExc} (refusal : e.isRefusal = true) : e.isHttp = false := by
  cases e <;> first | rfl | cases refusal

/-- `unique_violation`. -/
def uniqueViolation (constraint : String) : PyExc := .integrity "23505" constraint

/-- `foreign_key_violation`. -/
def foreignKeyViolation (constraint : String) : PyExc := .integrity "23503" constraint

/-- `check_violation`. -/
def checkViolation (constraint : String) : PyExc := .integrity "23514" constraint

/-- What a policy raises for a new row that it does not admit. -/
def rowSecurityViolation (table : String) : PyExc :=
  .database ("new row violates row-level security policy for table \"" ++ table ++ "\"")

@[simp] theorem isHttp_uniqueViolation (constraint : String) :
    (uniqueViolation constraint).isHttp = false := rfl

/-- A computation that succeeded went through both of its parts. -/
theorem bind_eq_ok {α β : Type} {first : Except PyExc α} {rest : α → Except PyExc β} {b : β}
    (succeeded : first.bind rest = .ok b) : ∃ a, first = .ok a ∧ rest a = .ok b := by
  cases first with
  | error error => cases succeeded
  | ok a => exact ⟨a, rfl, succeeded⟩

theorem map_eq_ok {α β : Type} {first : Except PyExc α} {f : α → β} {b : β}
    (succeeded : first.map f = .ok b) : ∃ a, first = .ok a ∧ f a = b := by
  cases first with
  | error error => cases succeeded
  | ok a => exact ⟨a, rfl, by simpa [Except.map] using succeeded⟩

/-- A computation that failed did so in one of its parts. -/
theorem bind_eq_error {α β : Type} {first : Except PyExc α} {rest : α → Except PyExc β} {e : PyExc}
    (failed : first.bind rest = .error e) :
    first = .error e ∨ ∃ a, first = .ok a ∧ rest a = .error e := by
  cases first with
  | error error =>
      cases failed
      exact .inl rfl
  | ok a => exact .inr ⟨a, rfl, failed⟩

theorem map_eq_error {α β : Type} {first : Except PyExc α} {f : α → β} {e : PyExc}
    (failed : first.map f = .error e) : first = .error e := by
  cases first with
  | error error => simpa [Except.map] using failed
  | ok a => cases failed

/-! ## Identifiers from texts -/

/-- `uuid.UUID(text)` inside a repository: a `ValueError` where it raises. -/
def toUuid (text : String) : Except PyExc UUID :=
  match UUID.parse text with
  | some id => .ok id
  | none => .error (.value "badly formed hexadecimal UUID string")

/-- `uuid.UUID(text) if text else None`. -/
def toOptionalUuid (text : Option String) : Except PyExc (Option UUID) :=
  match text with
  | none => .ok none
  | some text => if text = "" then .ok none else (toUuid text).map some

theorem toUuid_error {text : String} {e : PyExc} (failed : toUuid text = .error e) :
    ∃ message, e = .value message := by
  unfold toUuid at failed
  split at failed
  · cases failed
  · cases failed
    exact ⟨_, rfl⟩

theorem toOptionalUuid_error {text : Option String} {e : PyExc}
    (failed : toOptionalUuid text = .error e) : ∃ message, e = .value message := by
  unfold toOptionalUuid at failed
  split at failed
  · cases failed
  · split at failed
    · cases failed
    · exact toUuid_error (map_eq_error failed)

/-- How the driver reads a text that is bound to a `uuid` parameter: 32 hexadecimal
digits, with hyphens anywhere, in at most 36 bytes. -/
def driverUuid (text : String) : Except PyExc UUID :=
  let digits := text.toList.filter (· ≠ '-')
  if 32 ≤ text.utf8ByteSize && text.utf8ByteSize ≤ 36 && digits.length = 32 &&
      digits.all isHexDigit then toUuid text
  else .error (.database "invalid input for query argument $1")
where
  isHexDigit (c : Char) : Bool :=
    ('0' ≤ c && c ≤ '9') || ('a' ≤ c && c ≤ 'f') || ('A' ≤ c && c ≤ 'F')

theorem utf8ByteSize_ascii {text : List Char} (ascii : ∀ c ∈ text, c.val ≤ 127) :
    (String.ofList text).utf8ByteSize = text.length := by
  induction text with
  | nil => rfl
  | cons c text ih =>
      have one : c.utf8Size = 1 := Char.utf8Size_eq_one_iff.mpr (ascii c List.mem_cons_self)
      have rest := ih fun d member => ascii d (List.mem_cons_of_mem _ member)
      rw [String.ofList_cons, String.utf8ByteSize_append, String.utf8ByteSize_singleton, one, rest,
        List.length_cons, Nat.add_comm]

/-- The digits of an identifier's text are digits to the driver. -/
theorem isHexDigit_of_digitValue {c : Char} (digit : (digitValue c).isSome = true) :
    driverUuid.isHexDigit c = true ∧ c.val ≤ 127 := by
  unfold digitValue at digit
  split at digit
  · rename_i range
    have upper : c.val ≤ '9'.val := range.2
    exact ⟨by simp [driverUuid.isHexDigit, range], UInt32.le_trans upper (by decide)⟩
  · split at digit
    · rename_i range
      have upper : c.val ≤ 'f'.val := range.2
      exact ⟨by simp [driverUuid.isHexDigit, range], UInt32.le_trans upper (by decide)⟩
    · cases digit

/-- The driver reads the `str` of an identifier. -/
theorem driverUuid_str (id : UUID) : driverUuid id.str = .ok id := by
  have digits : ∀ c ∈ fixed 16 32 id.int, (digitValue c).isSome = true :=
    digitValue_fixed (by decide) (by decide)
  have plain : id.str.toList.filter (· ≠ '-') = fixed 16 32 id.int := by
    rw [UUID.str, String.toList_ofList]
    exact filter_hyphenated fun c member => ne_of_digitValue (digits c member) (by decide)
  have ascii : ∀ c ∈ id.str.toList, c.val ≤ 127 := by
    intro c member
    by_cases hyphen : c = '-'
    · exact hyphen ▸ (by decide)
    · have digit := digits c (plain ▸ List.mem_filter.mpr ⟨member, by simpa using hyphen⟩)
      exact (isHexDigit_of_digitValue digit).2
  have size : id.str.utf8ByteSize = 36 := by
    rw [← String.ofList_toList (s := id.str), utf8ByteSize_ascii ascii, UUID.str,
      String.toList_ofList]
    simp [fixed_length]
  have all : (fixed 16 32 id.int).all driverUuid.isHexDigit = true :=
    List.all_eq_true.mpr fun c member => (isHexDigit_of_digitValue (digits c member)).1
  unfold driverUuid
  simp only [plain, size, all, fixed_length, toUuid, UUID.parse_str]
  rfl

/-! ## U+0000 -/

/-- The text holds U+0000, which Postgres stores in no text. -/
def hasNul (text : String) : Bool :=
  (Library.JsonText.characters text).any fun c => Nat.beq c.toNat 0

/-- A code point in a value for a JSONB column, which holds no surrogate either: U+0000 stands
for one. -/
def jsonbChar : CodePoint → Char
  | .char c => c
  | .surrogate _ => '\x00'

def jsonbText (s : Str) : String := String.ofList (s.map jsonbChar)

@[simp] theorem jsonbText_ofText (text : String) : jsonbText (Str.ofText text) = text := by
  have plain : jsonbChar ∘ CodePoint.char = id := rfl
  rw [jsonbText, Str.ofText, List.map_map, plain, List.map_id, String.ofList_toList]

/-- Texts that are bound to a statement. -/
def bindTexts (texts : List String) : Except PyExc Unit :=
  if texts.any hasNul then .error (.database "invalid byte sequence for encoding \"UTF8\": 0x00")
  else .ok ()

/-- The texts of a value for a JSONB column. -/
def bindJsonb (texts : List String) : Except PyExc Unit :=
  if texts.any hasNul then .error (.database "unsupported Unicode escape sequence")
  else .ok ()

theorem bindTexts_error {texts : List String} {e : PyExc} (refused : bindTexts texts = .error e) :
    ∃ message, e = .database message := by
  unfold bindTexts at refused
  split at refused <;> cases refused
  exact ⟨_, rfl⟩

theorem isRefusal_of_bindTexts {texts : List String} {e : PyExc}
    (refused : bindTexts texts = .error e) : e.isRefusal = true := by
  obtain ⟨message, rfl⟩ := bindTexts_error refused
  rfl

theorem isRefusal_of_bindJsonb {texts : List String} {e : PyExc}
    (refused : bindJsonb texts = .error e) : e.isRefusal = true := by
  unfold bindJsonb at refused
  split at refused <;> cases refused
  rfl

theorem bindTexts_of_plain {texts : List String} (plain : ∀ text ∈ texts, hasNul text = false) :
    bindTexts texts = .ok () :=
  if_neg fun nul => by
    obtain ⟨text, member, nul⟩ := List.any_eq_true.mp nul
    rw [plain text member] at nul
    cases nul

theorem bindJsonb_of_plain {texts : List String} (plain : ∀ text ∈ texts, hasNul text = false) :
    bindJsonb texts = .ok () :=
  if_neg fun nul => by
    obtain ⟨text, member, nul⟩ := List.any_eq_true.mp nul
    rw [plain text member] at nul
    cases nul

/-- What the driver reads as an identifier is made of hyphens and digits. -/
theorem hasNul_of_driverUuid {text : String} {id : UUID} (read : driverUuid text = .ok id) :
    hasNul text = false := by
  unfold driverUuid at read
  simp only at read
  split at read
  · rename_i shape
    simp only [Bool.and_eq_true, List.all_eq_true] at shape
    rw [hasNul, Library.JsonText.characters_eq, List.any_eq_false]
    intro c member nul
    by_cases hyphen : c = '-'
    · subst hyphen
      exact absurd nul (by decide)
    · have digit := shape.2 c (List.mem_filter.mpr ⟨member, by simpa using hyphen⟩)
      have zero : c = '\x00' := by
        have same : c.toNat = 0 := Nat.eq_of_beq_eq_true nul
        rw [← Char.ofNat_toNat c, same]
      subst zero
      exact absurd digit (by decide)
  · cases read

theorem hasNul_str (id : UUID) : hasNul id.str = false := hasNul_of_driverUuid (driverUuid_str id)

/-! ## Row-level security -/

/-- The settings of a transaction: none, a tenant, or the flag of a super
administrator. -/
inductive Scope where
  | unset
  | tenant (tenantId : String)
  | superAdmin
  deriving DecidableEq

/-- `tenant_id = current_setting('app.tenant_id', true) OR
current_setting('app.is_super_admin', true) = 'true'`. -/
def Scope.sees : Scope → String → Bool
  | .unset, _ => false
  | .tenant scope, tenantId => scope == tenantId
  | .superAdmin, _ => true

/-- The policy of the counters: `current_setting('app.tenant_id', true) <> ''`, or
the flag. -/
def Scope.authenticated : Scope → Bool
  | .unset => false
  | .tenant scope => scope != ""
  | .superAdmin => true

/-! ## Points in time -/

/-- A `timestamptz`: `now()`, which is the start of the transaction, or a time of
the application's clock. -/
inductive Timestamp where
  | now (transactionStart : Nat)
  | clock (time : DateTime)
  deriving DecidableEq

/-- A number that orders the times of one column, which are all of one kind. -/
def Timestamp.position : Timestamp → Nat
  | .now transactionStart => transactionStart
  | .clock time => time.position

end LandVault.Kernel
