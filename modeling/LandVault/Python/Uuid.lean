import LandVault.Library.Numerals

/-!
# `uuid.UUID`

The identifiers of Python's `uuid` module: 128-bit numbers, written as 32
hexadecimal digits (`hex`), and read from texts in many spellings by the
constructor, which drops `urn:`, `uuid:`, hyphens and outer braces and gives the
32 characters that remain to `int(_, 16)`.

Reading a `hex` gives the number back, and the `hex` of any number is 32
lower-case hexadecimal digits; so a text survives reading and writing exactly
when it has that shape.
-/

set_option autoImplicit false

namespace LandVault.Python

open LandVault.Library.Numerals

/-! ## Texts -/

/-- `str.replace(pattern, "")`; the number counts characters still to be dropped. -/
def removeFrom (pattern : List Char) : Nat → List Char → List Char
  | _, [] => []
  | skip + 1, _ :: text => removeFrom pattern skip text
  | 0, c :: text =>
      if pattern.isPrefixOf (c :: text) then removeFrom pattern (pattern.length - 1) text
      else c :: removeFrom pattern 0 text

def remove (pattern text : List Char) : List Char := removeFrom pattern 0 text

/-- `str.strip(chars)`. -/
def strip (drops : Char → Bool) (text : List Char) : List Char :=
  ((text.dropWhile drops).reverse.dropWhile drops).reverse

theorem removeFrom_eq_self {pattern text : List Char} {c : Char} (mark : c ∈ pattern)
    (absent : c ∉ text) : removeFrom pattern 0 text = text := by
  induction text with
  | nil => rfl
  | cons d text ih =>
      have noPrefix : pattern.isPrefixOf (d :: text) = false := by
        refine Bool.eq_false_iff.mpr fun isPrefix => ?_
        exact absent ((List.isPrefixOf_iff_prefix.mp isPrefix).subset mark)
      simp only [removeFrom, noPrefix, Bool.false_eq_true, if_false]
      rw [ih fun member => absent (List.mem_cons_of_mem _ member)]

theorem strip_eq_self {drops : Char → Bool} {text : List Char}
    (kept : ∀ c ∈ text, drops c = false) : strip drops text = text := by
  have keep : ∀ text : List Char, (∀ c ∈ text, drops c = false) → text.dropWhile drops = text := by
    intro text kept
    cases text with
    | nil => rfl
    | cons c text => simp [kept c List.mem_cons_self]
  rw [strip, keep text kept, keep text.reverse fun c member => kept c (List.mem_reverse.mp member),
    List.reverse_reverse]

theorem remove_singleton (c : Char) (text : List Char) :
    remove [c] text = text.filter (· ≠ c) := by
  rw [remove]
  induction text with
  | nil => rfl
  | cons d text ih =>
      by_cases same : d = c
      · subst same
        simp [removeFrom, List.isPrefixOf, ih]
      · simp [removeFrom, List.isPrefixOf, ih, same, Ne.symm same]

/-! ## `int(text, 16)` -/

/-- The code points of the zeros of Unicode's decimal digits outside ASCII; the
other nine digits follow each of them. -/
def decimalZeros : List Nat :=
  [0x660, 0x6f0, 0x7c0, 0x966, 0x9e6, 0xa66, 0xae6, 0xb66, 0xbe6, 0xc66, 0xce6, 0xd66, 0xde6,
   0xe50, 0xed0, 0xf20, 0x1040, 0x1090, 0x17e0, 0x1810, 0x1946, 0x19d0, 0x1a80, 0x1a90, 0x1b50,
   0x1bb0, 0x1c40, 0x1c50, 0xa620, 0xa8d0, 0xa900, 0xa9d0, 0xa9f0, 0xaa50, 0xabf0, 0xff10,
   0x104a0, 0x10d30, 0x11066, 0x110f0, 0x11136, 0x111d0, 0x112f0, 0x11450, 0x114d0, 0x11650,
   0x116c0, 0x11730, 0x118e0, 0x11950, 0x11c50, 0x11d50, 0x11da0, 0x11f50, 0x16a60, 0x16ac0,
   0x16b50, 0x1d7ce, 0x1d7d8, 0x1d7e2, 0x1d7ec, 0x1d7f6, 0x1e140, 0x1e2f0, 0x1e4f0, 0x1e950,
   0x1fbf0]

/-- The value of a hexadecimal digit in either case, or of a decimal digit of any script. -/
def hexValue (c : Char) : Option Nat :=
  match digitValue c with
  | some d => some d
  | none =>
      if 'A' ≤ c ∧ c ≤ 'F' then some (c.toNat - 55)
      else
        (decimalZeros.find? fun first => first ≤ c.toNat ∧ c.toNat < first + 10).map (c.toNat - ·)

/-- The blanks that may stand around the digits. -/
def isBlank (c : Char) : Bool :=
  (9 ≤ c.toNat ∧ c.toNat ≤ 13) ∨ c.toNat ∈ [0x20, 0x85, 0xa0, 0x1680, 0x2028, 0x2029, 0x202f,
    0x205f, 0x3000] ∨ (0x2000 ≤ c.toNat ∧ c.toNat ≤ 0x200a)

/-- Digits with single underscores between them. -/
def readDigits (n : Nat) : List Char → Option Nat
  | [] => some n
  | '_' :: c :: text =>
      match hexValue c with
      | some d => readDigits (16 * n + d) text
      | none => none
  | c :: text =>
      match hexValue c with
      | some d => readDigits (16 * n + d) text
      | none => none

/-- The digits after the sign: an optional `0x`, which an underscore may follow. -/
def readUnsigned : List Char → Option Nat
  | '0' :: 'x' :: text | '0' :: 'X' :: text =>
      match text with
      | [] => none
      | _ :: _ => readDigits 0 text
  | [] => none
  | '_' :: _ => none
  | c :: text => readDigits 0 (c :: text)

/-- `int(text, 16)` for texts without a minus sign. -/
def int16 (text : List Char) : Option Nat :=
  match strip isBlank text with
  | '+' :: text => readUnsigned text
  | text => readUnsigned text

/-! ## Identifiers -/

/-- A 128-bit identifier. -/
structure UUID where
  int : Nat
  small : int < 16 ^ 32
  deriving DecidableEq

theorem mod_small (int : Nat) : int % 16 ^ 32 < 16 ^ 32 := Nat.mod_lt int (by decide)

/-- `UUID(int=int)` of a number of 128 bits; of a larger one, its last 128 bits. -/
def UUID.ofInt (int : Nat) : UUID := ⟨int % 16 ^ 32, mod_small int⟩

/-- `UUID.hex`. -/
def UUID.hex (id : UUID) : String := String.ofList (fixed 16 32 id.int)

/-- `str(id)`. -/
def UUID.str (id : UUID) : String :=
  let hex := fixed 16 32 id.int
  String.ofList (hex.take 8 ++ '-' :: (hex.drop 8).take 4 ++ '-' :: (hex.drop 12).take 4 ++
    '-' :: (hex.drop 16).take 4 ++ '-' :: hex.drop 20)

/-- `uuid.UUID(text)`; nothing where it raises `ValueError`. -/
def UUID.parse (text : String) : Option UUID :=
  let hex := remove "uuid:".toList (remove "urn:".toList text.toList)
  let hex := remove ['-'] (strip (fun c => c == '\x7b' || c == '\x7d') hex)
  if hex.length = 32 then
    (int16 hex).bind fun n => if small : n < 16 ^ 32 then some ⟨n, small⟩ else none
  else none

/-- Thirty-two lower-case hexadecimal digits. -/
def isHex32 (text : String) : Bool :=
  text.toList.length == 32 && text.toList.all fun c => (digitValue c).isSome

theorem digitValue_fixed {base width n : Nat} (positive : 0 < base) (bound : base ≤ 16) :
    ∀ c ∈ fixed base width n, (digitValue c).isSome = true := by
  induction width generalizing n with
  | zero => simp [fixed]
  | succ width ih =>
      intro c member
      rcases List.mem_append.mp member with before | last
      · exact ih c before
      · rw [List.mem_singleton.mp last,
          digitValue_digitChar ((Nat.mod_lt n positive).trans_le bound)]
        rfl

theorem UUID.isHex32_hex (id : UUID) : isHex32 id.hex = true := by
  simp only [isHex32, UUID.hex, String.toList_ofList, fixed_length, beq_self_eq_true,
    Bool.true_and, List.all_eq_true]
  exact digitValue_fixed (by decide) (by decide)

theorem digitValue_lt {c : Char} {d : Nat} (value : digitValue c = some d) : d < 16 := by
  unfold digitValue at value
  split at value
  · rename_i range
    have upper : c.toNat ≤ 57 := range.2
    cases value
    omega
  · split at value
    · rename_i range
      have upper : c.toNat ≤ 102 := range.2
      cases value
      omega
    · cases value

theorem readDigits_eq {text : List Char} (digits : ∀ c ∈ text, (digitValue c).isSome = true)
    (n : Nat) : readDigits n text = readFrom 16 n text := by
  induction text generalizing n with
  | nil => rfl
  | cons c text ih =>
      obtain ⟨d, value⟩ := Option.isSome_iff_exists.mp (digits c List.mem_cons_self)
      have notUnderscore : c ≠ '_' := by
        rintro rfl
        cases value
      have hex : hexValue c = some d := by simp [hexValue, value]
      rw [readDigits.eq_def]
      split
      · rename_i same
        cases same
      · rename_i same
        cases same
        exact absurd rfl notUnderscore
      · rename_i same
        cases same
        simp only [hex, readFrom, value, digitValue_lt value, if_true]
        exact ih (fun c member => digits c (List.mem_cons_of_mem _ member)) _

/-- A hexadecimal digit is none of the characters that have another meaning. -/
theorem ne_of_digitValue {c d : Char} (digit : (digitValue c).isSome = true)
    (other : digitValue d = none) : c ≠ d := by
  rintro rfl
  simp [other] at digit

theorem isBlank_of_digitValue {c : Char} (digit : (digitValue c).isSome = true) :
    isBlank c = false := by
  have range : (48 ≤ c.toNat ∧ c.toNat ≤ 57) ∨ (97 ≤ c.toNat ∧ c.toNat ≤ 102) := by
    unfold digitValue at digit
    split at digit
    · rename_i range
      exact .inl range
    · split at digit
      · rename_i range
        exact .inr range
      · simp at digit
  simp only [isBlank, List.mem_cons, List.not_mem_nil, or_false, decide_eq_false_iff_not]
  omega

theorem int16_eq {text : List Char} (digits : ∀ c ∈ text, (digitValue c).isSome = true)
    (nonempty : text ≠ []) : int16 text = readFrom 16 0 text := by
  rw [int16, strip_eq_self fun c member => isBlank_of_digitValue (digits c member)]
  cases text with
  | nil => exact absurd rfl nonempty
  | cons c text =>
      have first : ∀ d, digitValue d = none → c ≠ d :=
        fun d => ne_of_digitValue (digits c List.mem_cons_self)
      have second : ∀ d rest, digitValue d = none → text ≠ d :: rest := by
        rintro d rest other rfl
        exact ne_of_digitValue (digits d (by simp)) other rfl
      split
      · rename_i same
        cases same
        exact absurd rfl (first '+' (by decide))
      · unfold readUnsigned
        split
        · rename_i same
          cases same
          exact absurd rfl (second 'x' _ (by decide))
        · rename_i same
          cases same
          exact absurd rfl (second 'X' _ (by decide))
        · rename_i same
          cases same
        · rename_i same
          cases same
          exact absurd rfl (first '_' (by decide))
        · rename_i same
          cases same
          exact readDigits_eq digits 0

theorem readFrom_isSome {text : List Char} (digits : ∀ c ∈ text, (digitValue c).isSome = true)
    (n : Nat) : ∃ m, readFrom 16 n text = some m := by
  induction text generalizing n with
  | nil => exact ⟨n, rfl⟩
  | cons c text ih =>
      obtain ⟨d, value⟩ := Option.isSome_iff_exists.mp (digits c List.mem_cons_self)
      simp only [readFrom, value, digitValue_lt value, if_true]
      exact ih (fun c member => digits c (List.mem_cons_of_mem _ member)) _

/-- Thirty-two lower-case digits are read as the identifier they are the `hex` of. -/
theorem UUID.parse_of_isHex32 {text : String} (hex : isHex32 text = true) :
    ∃ id, UUID.parse text = some id ∧ id.hex = text := by
  simp only [isHex32, Bool.and_eq_true, beq_iff_eq, List.all_eq_true] at hex
  obtain ⟨length, digits⟩ := hex
  have absent : ∀ d, digitValue d = none → d ∉ text.toList :=
    fun d other member => ne_of_digitValue (digits d member) other rfl
  have nonempty : text.toList ≠ [] := by
    intro empty
    simp [empty] at length
  obtain ⟨n, read⟩ := readFrom_isSome digits 0
  obtain ⟨numeral, quotient⟩ := fixed_of_readFrom (by decide) read
  rw [length] at numeral quotient
  have small : n < 16 ^ 32 := by
    by_contra large
    have positive := Nat.div_pos (not_lt.mp large) (by decide)
    omega
  refine ⟨⟨n, small⟩, ?_, ?_⟩
  · have urn : remove "urn:".toList text.toList = text.toList :=
      removeFrom_eq_self (c := ':') (by decide) (absent ':' (by decide))
    have uuid : remove "uuid:".toList text.toList = text.toList :=
      removeFrom_eq_self (c := ':') (by decide) (absent ':' (by decide))
    have braces : strip (fun c => c == '\x7b' || c == '\x7d') text.toList = text.toList := by
      refine strip_eq_self fun c member => ?_
      have first := ne_of_digitValue (digits c member) (d := '\x7b') (by decide)
      have second := ne_of_digitValue (digits c member) (d := '\x7d') (by decide)
      simp [first, second]
    have hyphens : remove ['-'] text.toList = text.toList :=
      removeFrom_eq_self (c := '-') (by decide) (absent '-' (by decide))
    simp only [UUID.parse, urn, uuid, braces, hyphens, length, if_true, int16_eq digits nonempty,
      read, Option.bind_some, small, dite_true]
  · rw [UUID.hex, numeral, String.ofList_toList]

theorem UUID.hex_inj {id id' : UUID} (same : id.hex = id'.hex) : id = id' := by
  obtain ⟨n, small⟩ := id
  obtain ⟨n', small'⟩ := id'
  have numeral : fixed 16 32 n = fixed 16 32 n' := String.ofList_injective same
  cases fixed_inj (by decide) (by decide) small small' numeral
  rfl

/-- The `hex` of an identifier is read as the identifier. -/
@[simp] theorem UUID.parse_hex (id : UUID) : UUID.parse id.hex = some id := by
  obtain ⟨id', parsed, same⟩ := UUID.parse_of_isHex32 id.isHex32_hex
  rw [parsed, UUID.hex_inj same]

/-- Hyphens between the digits do not matter. -/
theorem UUID.parse_hyphens {text : String}
    (digits : ∀ c ∈ text.toList, c = '-' ∨ (digitValue c).isSome = true) :
    UUID.parse text = UUID.parse (String.ofList (text.toList.filter (· ≠ '-'))) := by
  have plain : ∀ list : List Char, (∀ c ∈ list, c = '-' ∨ (digitValue c).isSome = true) →
      remove ['-'] (strip (fun c => c == '\x7b' || c == '\x7d')
        (remove "uuid:".toList (remove "urn:".toList list))) = list.filter (· ≠ '-') := by
    intro list digits
    have other : ∀ d, d ≠ '-' → digitValue d = none → ∀ c ∈ list, c ≠ d := by
      intro d notHyphen none c member
      rcases digits c member with rfl | digit
      · exact notHyphen.symm
      · exact ne_of_digitValue digit none
    have colon : ':' ∉ list := fun member => other ':' (by decide) (by decide) _ member rfl
    have urn : remove "urn:".toList list = list := removeFrom_eq_self (c := ':') (by decide) colon
    have uuid : remove "uuid:".toList list = list :=
      removeFrom_eq_self (c := ':') (by decide) colon
    have braces : strip (fun c => c == '\x7b' || c == '\x7d') list = list := by
      refine strip_eq_self fun c member => ?_
      have first := other '\x7b' (by decide) (by decide) c member
      have second := other '\x7d' (by decide) (by decide) c member
      simp [first, second]
    rw [urn, uuid, braces, remove_singleton]
  have rest : ∀ c ∈ text.toList.filter (· ≠ '-'), c = '-' ∨ (digitValue c).isSome = true :=
    fun c member => digits c (List.mem_filter.mp member).1
  simp only [UUID.parse, String.toList_ofList]
  rw [plain _ digits, plain _ rest, List.filter_filter]
  simp only [Bool.and_self]

/-- Thirty-two characters with the hyphens of `str` between them. -/
theorem filter_hyphenated {hex : List Char} (digits : ∀ c ∈ hex, c ≠ '-') :
    (hex.take 8 ++ '-' :: (hex.drop 8).take 4 ++ '-' :: (hex.drop 12).take 4 ++
      '-' :: (hex.drop 16).take 4 ++ '-' :: hex.drop 20).filter (· ≠ '-') = hex := by
  have kept : ∀ {part : List Char}, (∀ c ∈ part, c ∈ hex) → part.filter (· ≠ '-') = part :=
    fun inside => List.filter_eq_self.mpr fun c member => by simpa using digits c (inside c member)
  have cut : ∀ n k, (hex.drop n).take k ++ hex.drop (n + k) = hex.drop n := by
    intro n k
    rw [← List.drop_drop, List.take_append_drop]
  have part : ∀ n k, ((hex.drop n).take k).filter (· ≠ '-') = (hex.drop n).take k :=
    fun n k => kept fun c member => List.mem_of_mem_drop (List.mem_of_mem_take member)
  have hyphen : ∀ text : List Char, ('-' :: text).filter (· ≠ '-') = text.filter (· ≠ '-') :=
    fun text => by simp
  rw [List.filter_append, List.filter_append, List.filter_append, List.filter_append, hyphen, hyphen,
    hyphen, hyphen, part, part, part, kept fun c => List.mem_of_mem_take,
    kept fun c => List.mem_of_mem_drop, List.append_assoc, cut 16 4, List.append_assoc, cut 12 4,
    List.append_assoc, cut 8 4, List.take_append_drop]

/-- The `str` of an identifier is read as the identifier. -/
@[simp] theorem UUID.parse_str (id : UUID) : UUID.parse id.str = some id := by
  have digits : ∀ c ∈ fixed 16 32 id.int, (digitValue c).isSome = true :=
    digitValue_fixed (by decide) (by decide)
  have text : id.str.toList.filter (· ≠ '-') = fixed 16 32 id.int := by
    rw [UUID.str, String.toList_ofList]
    exact filter_hyphenated fun c member => ne_of_digitValue (digits c member) (by decide)
  rw [UUID.parse_hyphens, text]
  · exact UUID.parse_hex id
  · intro c member
    by_cases hyphen : c = '-'
    · exact .inl hyphen
    · exact .inr (digits c (text ▸ List.mem_filter.mpr ⟨member, by simpa using hyphen⟩))

theorem UUID.str_inj {id id' : UUID} (same : id.str = id'.str) : id = id' := by
  have parsed := congrArg UUID.parse same
  rw [UUID.parse_str, UUID.parse_str] at parsed
  exact Option.some_injective _ parsed

-- an open text stays unparsed: unfolding the parser on it leads nowhere
attribute [irreducible] UUID.parse

end LandVault.Python
