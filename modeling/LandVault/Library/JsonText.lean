import Mathlib.Data.List.Basic
import Mathlib.Data.Char
import Mathlib.Data.List.Lex
import LandVault.Library.Numerals

/-!
# JSON texts

JSON values and the compact ASCII text of a value: no blanks, object members in
the order of their keys, every character outside the printable ASCII range
written as UTF-16 escapes. Integers are exact; a floating-point number is named
by the text it is printed as.

The text determines the value, also when more text follows it (`text_append`).
-/

set_option autoImplicit false

namespace LandVault.Library.JsonText

open LandVault.Library.Numerals

/-! ## Values -/

/-- The characters of a printed number. -/
def isNumeric (c : Char) : Bool := c.isDigit || c == '-' || c == '+' || c == '.' || c == 'e'

/-- The shape of a printed floating-point number: it starts with a sign or a
digit, and a point or an exponent tells it from an integer. -/
def isFloatText (text : List Char) : Bool :=
  text.all isNumeric && text.any (fun c => c == '.' || c == 'e') &&
    (text.head?.any fun c => c.isDigit || c == '-')

/-- A finite floating-point number, named by its text. -/
structure FloatText where
  text : List Char
  wellFormed : isFloatText text = true
  deriving DecidableEq

inductive Number where
  | int (value : Int)
  | float (value : FloatText)
  deriving DecidableEq

/-- A JSON value. The members of an object are listed in the order of their keys. -/
inductive Json where
  | null
  | bool (value : Bool)
  | number (value : Number)
  | string (value : String)
  | array (items : List Json)
  | object (members : List (String × Json))

/-- Add a member to an object, replacing the one of the same key. -/
def insertMember (key : String) (value : Json) : List (String × Json) → List (String × Json)
  | [] => [(key, value)]
  | (key', value') :: members =>
      if key = key' then (key, value) :: members
      else if key.toList < key'.toList then (key, value) :: (key', value') :: members
      else (key', value') :: insertMember key value members

/-- The object of a dict display: later members win. -/
def Json.dict (members : List (String × Json)) : List (String × Json) :=
  members.foldl (fun object member => insertMember member.1 member.2 object) []

mutual

/-- The keys of every object in a value are in order, each once. -/
def Json.canonical : Json → Bool
  | .array items => canonicalItems items
  | .object members =>
      decide ((members.map (·.1.toList)).Pairwise (· < ·)) && canonicalMembers members
  | _ => true

def canonicalItems : List Json → Bool
  | [] => true
  | item :: items => item.canonical && canonicalItems items

def canonicalMembers : List (String × Json) → Bool
  | [] => true
  | (_, value) :: members => value.canonical && canonicalMembers members

end

/-! ## Characters of a string -/

/-- The characters of a string, read off its bytes where all of them are in ASCII. -/
def characters (s : String) : List Char :=
  let bytes := s.toByteArray.data.toList
  if bytes.all fun b => b.toNat.ble 127 then bytes.map fun b => Char.ofNat b.toNat else s.toList

/-- A character of several bytes has a first byte outside ASCII. -/
theorem small_of_ascii {c : Char} (ascii : ∀ b ∈ String.utf8EncodeChar c, b.toNat ≤ 127) :
    c.val.toNat ≤ 127 := by
  by_contra large
  have valid := c.valid
  unfold String.utf8EncodeChar at ascii
  simp only [large, if_false] at ascii
  split at ascii
  · have first := ascii _ List.mem_cons_self
    simp at first
    omega
  · split at ascii
    all_goals
      have first := ascii _ List.mem_cons_self
      simp at first
      omega

theorem map_ofNat_utf8 {l : List Char}
    (ascii : ∀ b ∈ l.flatMap String.utf8EncodeChar, b.toNat ≤ 127) :
    ((l.flatMap String.utf8EncodeChar).map fun b => Char.ofNat b.toNat) = l := by
  induction l with
  | nil => rfl
  | cons c l ih =>
      rw [List.flatMap_cons] at ascii ⊢
      have rest := ih fun b member => ascii b (List.mem_append_right _ member)
      have small := small_of_ascii fun b member => ascii b (List.mem_append_left _ member)
      have single : String.utf8EncodeChar c = [UInt8.ofNat c.val.toNat] := if_pos small
      rw [List.map_append, rest, single, List.map_singleton, UInt8.toNat_ofNat',
        Nat.mod_eq_of_lt (by omega)]
      exact congrArg (· :: l) (Char.ofNat_toNat c)

theorem characters_eq (s : String) : characters s = s.toList := by
  have bytes : s.toByteArray.data.toList = s.toList.flatMap String.utf8EncodeChar := by
    conv_lhs => rw [← String.ofList_toList (s := s), String.toByteArray_ofList, List.utf8Encode,
      List.toList_data_toByteArray]
  unfold characters
  dsimp only
  split
  · rename_i ascii
    rw [bytes] at ascii ⊢
    exact map_ofNat_utf8 fun b member => Nat.le_of_ble_eq_true (List.all_eq_true.mp ascii b member)
  · rfl

theorem characters_inj {s t : String} (same : characters s = characters t) : s = t := by
  rw [characters_eq, characters_eq] at same
  exact String.toList_inj.mp same

/-! ## Texts -/

/-- One UTF-16 unit. -/
def unit (n : Nat) : List Char := '\\' :: 'u' :: fixed 16 4 n

/-- A printable character of ASCII that stands for itself. -/
def isPlain (c : Char) : Bool :=
  Nat.ble 32 c.toNat && Nat.ble c.toNat 126 && !Nat.beq c.toNat 34 && !Nat.beq c.toNat 92

/-- A character inside a string. -/
def escape (c : Char) : List Char :=
  if isPlain c then [c]
  else if c = '"' then ['\\', '"']
  else if c = '\\' then ['\\', '\\']
  else if c = '\n' then ['\\', 'n']
  else if c = '\r' then ['\\', 'r']
  else if c = '\t' then ['\\', 't']
  else if c = '\x0c' then ['\\', 'f']
  else if c = '\x08' then ['\\', 'b']
  else if c.toNat < 0x10000 then unit c.toNat
  else unit (0xd800 + (c.toNat - 0x10000) / 0x400) ++ unit (0xdc00 + (c.toNat - 0x10000) % 0x400)

/-- A string with its quotes. -/
def quote (s : List Char) : List Char := '"' :: s.flatMap escape ++ ['"']

def Number.text : Number → List Char
  | .int value =>
      if value < 0 then '-' :: Nat.toDigits 10 value.natAbs else Nat.toDigits 10 value.natAbs
  | .float value => value.text

mutual

/-- The compact text of a value. -/
def Json.text : Json → List Char
  | .null => ['n', 'u', 'l', 'l']
  | .bool true => ['t', 'r', 'u', 'e']
  | .bool false => ['f', 'a', 'l', 's', 'e']
  | .number value => value.text
  | .string value => quote (characters value)
  | .array [] => ['[', ']']
  | .array (item :: items) => '[' :: (item.text ++ itemsText items)
  | .object [] => ['\x7b', '\x7d']
  | .object ((key, value) :: members) =>
      '\x7b' :: (quote (characters key) ++ ':' :: (value.text ++ membersText members))

/-- The items after the first, and the closing bracket. -/
def itemsText : List Json → List Char
  | [] => [']']
  | item :: items => ',' :: (item.text ++ itemsText items)

/-- The members after the first, and the closing brace. -/
def membersText : List (String × Json) → List Char
  | [] => ['\x7d']
  | (key, value) :: members =>
      ',' :: (quote (characters key) ++ ':' :: (value.text ++ membersText members))

end

/-! ## Characters and strings -/

/-- Four hexadecimal digits, and what follows them. -/
def readUnit (text : List Char) : Option (Nat × List Char) :=
  (readFrom 16 0 (text.take 4)).map fun n => (n, text.drop 4)

/-- The first character of what `escape` writes, and what follows it. -/
def unescape : List Char → Option (Char × List Char)
  | '\\' :: 'u' :: text =>
      (readUnit text).bind fun (n, rest) =>
        if 0xd800 ≤ n ∧ n < 0xdc00 then
          (readUnit (rest.drop 2)).map fun (m, rest') =>
            (Char.ofNat (0x10000 + (n - 0xd800) * 0x400 + (m - 0xdc00)), rest')
        else some (Char.ofNat n, rest)
  | '\\' :: c :: text =>
      some (if c = 'n' then '\n' else if c = 'r' then '\r' else if c = 't' then '\t'
        else if c = 'f' then '\x0c' else if c = 'b' then '\x08' else c, text)
  | '"' :: _ => none
  | c :: text => some (c, text)
  | [] => none

theorem readUnit_fixed {n : Nat} (small : n < 0x10000) (text : List Char) :
    readUnit (fixed 16 4 n ++ text) = some (n, text) := by
  have digits : (fixed 16 4 n ++ text).take 4 = fixed 16 4 n := by
    simp
  have rest : (fixed 16 4 n ++ text).drop 4 = text := by
    simp
  rw [readUnit, digits, rest, read_fixed (by decide) (by decide) small, Option.map_some]

/-- A character of the basic plane is what its unit reads as. -/
theorem unescape_unit {n : Nat} (small : n < 0x10000) (plain : ¬ (0xd800 ≤ n ∧ n < 0xdc00))
    (text : List Char) : unescape (unit n ++ text) = some (Char.ofNat n, text) := by
  simp only [unit, List.cons_append, unescape, readUnit_fixed small, Option.bind_some, plain,
    if_false]

/-- Two surrogates read as the character they stand for. -/
theorem unescape_surrogates {high low : Nat} (isHigh : 0xd800 ≤ high ∧ high < 0xdc00)
    (small : low < 0x10000) (text : List Char) :
    unescape (unit high ++ unit low ++ text) =
      some (Char.ofNat (0x10000 + (high - 0xd800) * 0x400 + (low - 0xdc00)), text) := by
  simp only [unit, List.cons_append, List.append_assoc, unescape,
    readUnit_fixed (isHigh.2.trans (by decide)), Option.bind_some, isHigh, and_self, if_true,
    List.drop_succ_cons, List.drop_zero, readUnit_fixed small, Option.map_some]

/-- A character is what its escape reads as. -/
theorem unescape_escape (c : Char) (text : List Char) :
    unescape (escape c ++ text) = some (c, text) := by
  have valid : c.toNat < 0xd800 ∨ 0xdfff < c.toNat ∧ c.toNat < 0x110000 := c.valid
  unfold escape
  split
  · rename_i plain
    have noBackslash : c ≠ '\\' := by
      rintro rfl
      exact absurd plain (by decide)
    have noQuote : c ≠ '"' := by
      rintro rfl
      exact absurd plain (by decide)
    simp only [List.singleton_append]
    unfold unescape
    split <;> simp_all
  split
  · subst_vars; rfl
  split
  · subst_vars; rfl
  split
  · subst_vars; rfl
  split
  · subst_vars; rfl
  split
  · subst_vars; rfl
  split
  · subst_vars; rfl
  split
  · subst_vars; rfl
  split
  · rename_i small
    rw [unescape_unit small (by omega), Char.ofNat_toNat]
  · rename_i large
    rw [unescape_surrogates (by omega) (by omega)]
    have back : 0x10000 + (0xd800 + (c.toNat - 0x10000) / 0x400 - 0xd800) * 0x400 +
        (0xdc00 + (c.toNat - 0x10000) % 0x400 - 0xdc00) = c.toNat := by omega
    rw [back, Char.ofNat_toNat]

theorem escape_append_inj {c d : Char} {text text' : List Char}
    (same : escape c ++ text = escape d ++ text') : c = d ∧ text = text' := by
  have read := unescape_escape c text
  rw [same, unescape_escape] at read
  cases read
  exact ⟨rfl, rfl⟩

/-- No escape starts with a quote. -/
theorem escape_ne_quote (c : Char) (text text' : List Char) :
    escape c ++ text ≠ '"' :: text' := by
  intro same
  have read := unescape_escape c text
  rw [same] at read
  cases read

theorem quote_append_inj {s s' text text' : List Char}
    (same : quote s ++ text = quote s' ++ text') : s = s' ∧ text = text' := by
  simp only [quote, List.cons_append, List.append_assoc, List.cons.injEq, true_and,
    List.nil_append] at same
  induction s generalizing s' with
  | nil =>
      cases s' with
      | nil => simpa using same
      | cons d s' =>
          rw [List.flatMap_cons, List.append_assoc] at same
          exact absurd same.symm (escape_ne_quote _ _ _)
  | cons c s ih =>
      cases s' with
      | nil =>
          rw [List.flatMap_cons, List.append_assoc] at same
          exact absurd same (escape_ne_quote _ _ _)
      | cons d s' =>
          rw [List.flatMap_cons, List.flatMap_cons, List.append_assoc, List.append_assoc] at same
          obtain ⟨rfl, rest⟩ := escape_append_inj same
          obtain ⟨rfl, after⟩ := ih rest
          exact ⟨rfl, after⟩

/-! ## Numbers -/

/-- What may follow a value. -/
def Delimited (rest : List Char) : Prop := rest.head?.all (fun c => !isNumeric c) = true

theorem toDigits_isDigit (n : Nat) : ∀ c ∈ Nat.toDigits 10 n, c.isDigit = true :=
  fun _ member => Nat.isDigit_of_mem_toDigits (by decide) (by decide) member

theorem Number.text_numeric (n : Number) : ∀ c ∈ n.text, isNumeric c = true := by
  cases n with
  | int value =>
      have digits := toDigits_isDigit value.natAbs
      intro c member
      simp only [Number.text] at member
      split at member
      · rcases List.mem_cons.mp member with rfl | member
        · decide
        · simp [isNumeric, digits c member]
      · simp [isNumeric, digits c member]
  | float value =>
      have wellFormed := value.wellFormed
      simp only [isFloatText, Bool.and_eq_true, List.all_eq_true] at wellFormed
      exact wellFormed.1.1

/-- A point or an exponent tells a floating-point number from an integer. -/
theorem Number.int_text_ne_float (value : Int) (float : FloatText) :
    (Number.int value).text ≠ (Number.float float).text := by
  intro same
  have wellFormed := float.wellFormed
  simp only [isFloatText, Bool.and_eq_true, List.any_eq_true, Bool.or_eq_true,
    beq_iff_eq] at wellFormed
  obtain ⟨c, member, mark⟩ := wellFormed.1.2
  have digits := toDigits_isDigit value.natAbs
  have inInt : c ∈ (Number.int value).text := same ▸ member
  simp only [Number.text] at inInt
  split at inInt
  · rcases List.mem_cons.mp inInt with rfl | inInt
    · simp at mark
    · rcases mark with rfl | rfl <;> exact absurd (digits _ inInt) (by decide)
  · rcases mark with rfl | rfl <;> exact absurd (digits _ inInt) (by decide)

theorem toDigits_inj {m n : Nat} (same : Nat.toDigits 10 m = Nat.toDigits 10 n) : m = n := by
  have read := read_toDigits m
  rw [same, read_toDigits] at read
  simpa using read.symm

theorem toDigits_ne_minus (n : Nat) (text : List Char) : Nat.toDigits 10 n ≠ '-' :: text := by
  intro same
  exact absurd (toDigits_isDigit n '-' (same ▸ List.mem_cons_self)) (by decide)

theorem Number.text_inj {m n : Number} (same : m.text = n.text) : m = n := by
  cases m with
  | int a =>
      cases n with
      | int b =>
          simp only [Number.text] at same
          congr 1
          split at same <;> split at same
          · have digits := toDigits_inj (List.cons.inj same).2
            omega
          · exact absurd same.symm (toDigits_ne_minus _ _)
          · exact absurd same (toDigits_ne_minus _ _)
          · have digits := toDigits_inj same
            omega
      | float b => exact absurd same (Number.int_text_ne_float a b)
  | float a =>
      cases n with
      | int b => exact absurd same.symm (Number.int_text_ne_float b a)
      | float b =>
          obtain ⟨text, _⟩ := a
          obtain ⟨text', _⟩ := b
          cases same
          rfl

theorem takeWhile_numeric {token rest : List Char} (numeric : ∀ c ∈ token, isNumeric c = true)
    (delimited : Delimited rest) : (token ++ rest).takeWhile isNumeric = token := by
  rw [List.takeWhile_append_of_pos numeric]
  cases rest with
  | nil => simp
  | cons c rest =>
      have stops : isNumeric c = false := by simpa [Delimited] using delimited
      simp [stops]

theorem Number.text_append_inj {m n : Number} {rest rest' : List Char}
    (delimited : Delimited rest) (delimited' : Delimited rest')
    (same : m.text ++ rest = n.text ++ rest') : m = n ∧ rest = rest' := by
  have tokens : m.text = n.text := by
    rw [← takeWhile_numeric m.text_numeric delimited, same,
      takeWhile_numeric n.text_numeric delimited']
  refine ⟨Number.text_inj tokens, ?_⟩
  rw [tokens] at same
  exact List.append_cancel_left same

/-! ## Values -/

/-- Which constructor a value has. -/
def Json.shape : Json → Nat
  | .null => 0
  | .bool _ => 1
  | .number _ => 2
  | .string _ => 3
  | .array _ => 4
  | .object _ => 5

/-- The shape of a value, from the first character of its text. -/
def leading (c : Char) : Nat :=
  if c = 'n' then 0
  else if c = 't' ∨ c = 'f' then 1
  else if c = '"' then 3
  else if c = '[' then 4
  else if c = '\x7b' then 5
  else if c.isDigit ∨ c = '-' then 2
  else 6

theorem leading_of_isDigit {c : Char} (digit : c.isDigit = true ∨ c = '-') : leading c = 2 := by
  have other : ∀ d : Char, d.isDigit = false → d ≠ '-' → c ≠ d := by
    rintro d notDigit notMinus rfl
    rcases digit with digit | minus
    · rw [notDigit] at digit
      cases digit
    · exact notMinus minus
  simp [leading, other 'n', other 't', other 'f', other '"', other '[', other '\x7b', digit]

theorem Number.text_leading (n : Number) : ∃ c text, n.text = c :: text ∧ leading c = 2 := by
  cases n with
  | int value =>
      simp only [Number.text]
      split
      · exact ⟨_, _, rfl, by decide⟩
      · cases digits : Nat.toDigits 10 value.natAbs with
        | nil => exact absurd digits Nat.toDigits_ne_nil
        | cons c text =>
            exact ⟨c, text, rfl, leading_of_isDigit
              (.inl (toDigits_isDigit value.natAbs c (digits ▸ List.mem_cons_self)))⟩
  | float value =>
      have wellFormed := value.wellFormed
      simp only [isFloatText, Bool.and_eq_true] at wellFormed
      cases digits : value.text with
      | nil => simp [digits] at wellFormed
      | cons c text =>
          refine ⟨c, text, digits, leading_of_isDigit ?_⟩
          simpa [digits] using wellFormed.2

theorem Json.text_leading (value : Json) : ∃ c text, value.text = c :: text ∧
    leading c = value.shape := by
  match value with
  | .null => exact ⟨_, _, rfl, by decide⟩
  | .bool true => exact ⟨_, _, rfl, by decide⟩
  | .bool false => exact ⟨_, _, rfl, by decide⟩
  | .number n =>
      obtain ⟨c, text, same, lead⟩ := n.text_leading
      exact ⟨c, text, by simpa [Json.text] using same, by simpa [Json.shape] using lead⟩
  | .string s => exact ⟨'"', _, rfl, by simp [leading, Json.shape]⟩
  | .array [] => exact ⟨_, _, rfl, by decide⟩
  | .array (_ :: _) => exact ⟨'[', _, rfl, by simp [leading, Json.shape]⟩
  | .object [] => exact ⟨_, _, rfl, by decide⟩
  | .object ((_, _) :: _) => exact ⟨'\x7b', _, rfl, by simp [leading, Json.shape]⟩

/-- Values whose texts start alike have one constructor. -/
theorem Json.shape_eq {a b : Json} {rest rest' : List Char}
    (same : a.text ++ rest = b.text ++ rest') : a.shape = b.shape := by
  obtain ⟨c, text, start, lead⟩ := a.text_leading
  obtain ⟨d, text', start', lead'⟩ := b.text_leading
  rw [start, start', List.cons_append, List.cons_append] at same
  rw [← lead, ← lead', (List.cons.inj same).1]

theorem Json.text_ne_bracket (value : Json) (rest text : List Char) :
    value.text ++ rest ≠ ']' :: text := by
  intro same
  obtain ⟨c, start, head, lead⟩ := value.text_leading
  rw [head, List.cons_append] at same
  cases (List.cons.inj same).1
  have outside : leading ']' = 6 := by decide
  rw [outside] at lead
  cases value <;> cases lead

theorem delimited_itemsText (items : List Json) (rest : List Char) :
    Delimited (itemsText items ++ rest) := by
  cases items <;> simp [itemsText, Delimited, isNumeric]

theorem delimited_membersText (members : List (String × Json)) (rest : List Char) :
    Delimited (membersText members ++ rest) := by
  cases members <;> simp [membersText, Delimited, isNumeric]

mutual

/-- **The text of a value determines it**, and where it ends, whatever follows. -/
theorem Json.text_append_inj (a b : Json) {rest rest' : List Char} (delimited : Delimited rest)
    (delimited' : Delimited rest') (same : a.text ++ rest = b.text ++ rest') :
    a = b ∧ rest = rest' := by
  have shape := Json.shape_eq same
  match a, b with
  | .null, .null => simpa [Json.text] using same
  | .bool x, .bool y => cases x <;> cases y <;> simp_all [Json.text]
  | .number m, .number n =>
      obtain ⟨rfl, after⟩ := Number.text_append_inj delimited delimited' same
      exact ⟨rfl, after⟩
  | .string s, .string t =>
      obtain ⟨chars, after⟩ := quote_append_inj same
      exact ⟨by rw [characters_inj chars], after⟩
  | .array [], .array [] => simpa [Json.text] using same
  | .array [], .array (item :: items) =>
      simp only [Json.text, List.cons_append, List.nil_append, List.cons.injEq, true_and,
        List.append_assoc] at same
      exact absurd same.symm (item.text_ne_bracket _ _)
  | .array (item :: items), .array [] =>
      simp only [Json.text, List.cons_append, List.nil_append, List.cons.injEq, true_and,
        List.append_assoc] at same
      exact absurd same (item.text_ne_bracket _ _)
  | .array (item :: items), .array (item' :: items') =>
      simp only [Json.text, List.cons_append, List.cons.injEq, true_and,
        List.append_assoc] at same
      obtain ⟨rfl, tails⟩ := Json.text_append_inj item item' (delimited_itemsText _ _)
        (delimited_itemsText _ _) same
      obtain ⟨rfl, after⟩ := itemsText_append_inj items items' tails
      exact ⟨rfl, after⟩
  | .object [], .object [] => simpa [Json.text] using same
  | .object [], .object ((key, value) :: members) =>
      simp [Json.text, quote] at same
  | .object ((key, value) :: members), .object [] =>
      simp [Json.text, quote] at same
  | .object ((key, value) :: members), .object ((key', value') :: members') =>
      simp only [Json.text, List.cons_append, List.cons.injEq, true_and,
        List.append_assoc] at same
      obtain ⟨chars, values⟩ := quote_append_inj same
      cases characters_inj chars
      obtain ⟨rfl, tails⟩ := Json.text_append_inj value value' (delimited_membersText _ _)
        (delimited_membersText _ _) (List.cons.inj values).2
      obtain ⟨rfl, after⟩ := membersText_append_inj members members' tails
      exact ⟨rfl, after⟩

theorem itemsText_append_inj (items items' : List Json) {rest rest' : List Char}
    (same : itemsText items ++ rest = itemsText items' ++ rest') :
    items = items' ∧ rest = rest' := by
  match items, items' with
  | [], [] => simpa [itemsText] using same
  | [], _ :: _ => simp [itemsText] at same
  | _ :: _, [] => simp [itemsText] at same
  | item :: items, item' :: items' =>
      simp only [itemsText, List.cons_append, List.cons.injEq, true_and,
        List.append_assoc] at same
      obtain ⟨rfl, tails⟩ := Json.text_append_inj item item' (delimited_itemsText _ _)
        (delimited_itemsText _ _) same
      obtain ⟨rfl, after⟩ := itemsText_append_inj items items' tails
      exact ⟨rfl, after⟩

theorem membersText_append_inj (members members' : List (String × Json)) {rest rest' : List Char}
    (same : membersText members ++ rest = membersText members' ++ rest') :
    members = members' ∧ rest = rest' := by
  match members, members' with
  | [], [] => simpa [membersText] using same
  | [], (_, _) :: _ => simp [membersText] at same
  | (_, _) :: _, [] => simp [membersText] at same
  | (key, value) :: members, (key', value') :: members' =>
      simp only [membersText, List.cons_append, List.cons.injEq, true_and,
        List.append_assoc] at same
      obtain ⟨chars, values⟩ := quote_append_inj same
      cases characters_inj chars
      obtain ⟨rfl, tails⟩ := Json.text_append_inj value value' (delimited_membersText _ _)
        (delimited_membersText _ _) (List.cons.inj values).2
      obtain ⟨rfl, after⟩ := membersText_append_inj members members' tails
      exact ⟨rfl, after⟩

end

/-- Different values have different texts. -/
theorem Json.text_inj {a b : Json} (same : a.text = b.text) : a = b := by
  have ends : a.text ++ [] = b.text ++ [] := by rw [same]
  have nothing : Delimited [] := rfl
  exact (Json.text_append_inj a b nothing nothing ends).1

/-! ## Objects -/

theorem mem_insertMember {key : String} {value : Json} {members : List (String × Json)}
    {member : String × Json} (inserted : member ∈ insertMember key value members) :
    member = (key, value) ∨ member ∈ members := by
  induction members with
  | nil => simpa [insertMember] using inserted
  | cons first members ih =>
      obtain ⟨key', value'⟩ := first
      simp only [insertMember] at inserted
      split at inserted
      · rcases List.mem_cons.mp inserted with same | old
        · exact .inl same
        · exact .inr (List.mem_cons_of_mem _ old)
      · split at inserted
        · exact List.mem_cons.mp inserted
        · rcases List.mem_cons.mp inserted with same | later
          · exact .inr (same ▸ List.mem_cons_self)
          · exact (ih later).imp_right (List.mem_cons_of_mem _)

theorem insertMember_sorted {key : String} {value : Json} {members : List (String × Json)}
    (sorted : (members.map (·.1.toList)).Pairwise (· < ·)) :
    ((insertMember key value members).map (·.1.toList)).Pairwise (· < ·) := by
  induction members with
  | nil => simp [insertMember]
  | cons first members ih =>
      obtain ⟨key', value'⟩ := first
      rw [List.map_cons, List.pairwise_cons] at sorted
      simp only [insertMember]
      split
      · rename_i same
        subst same
        exact List.pairwise_cons.mpr sorted
      · rename_i different
        split
        · rename_i smaller
          refine List.pairwise_cons.mpr ⟨?_, List.pairwise_cons.mpr sorted⟩
          intro other member
          rcases List.mem_cons.mp member with rfl | later
          · exact smaller
          · exact smaller.trans (sorted.1 other later)
        · rename_i larger
          refine List.pairwise_cons.mpr ⟨?_, ih sorted.2⟩
          intro other member
          obtain ⟨⟨key'', value''⟩, inserted, rfl⟩ := List.mem_map.mp member
          rcases mem_insertMember inserted with same | old
          · cases same
            exact lt_of_le_of_ne (not_lt.mp larger) fun same => different (String.toList_inj.mp same.symm)
          · exact sorted.1 _ (List.mem_map_of_mem old)

theorem canonicalMembers_iff {members : List (String × Json)} :
    canonicalMembers members = true ↔ ∀ member ∈ members, member.2.canonical = true := by
  induction members with
  | nil => simp [canonicalMembers]
  | cons member members ih => simp [canonicalMembers, ih]

/-- The object of a dict display is in canonical order when its values are. -/
theorem Json.dict_canonical {members : List (String × Json)}
    (values : ∀ member ∈ members, member.2.canonical = true) :
    (Json.object (Json.dict members)).canonical = true := by
  have both : ∀ object : List (String × Json),
      (object.map (·.1.toList)).Pairwise (· < ·) ∧ (∀ m ∈ object, m.2.canonical = true) →
      ((members.foldl (fun object m => insertMember m.1 m.2 object) object).map
        (·.1.toList)).Pairwise (· < ·) ∧
      ∀ m ∈ members.foldl (fun object m => insertMember m.1 m.2 object) object,
        m.2.canonical = true := by
    induction members with
    | nil => exact fun _ holds => holds
    | cons first members ih =>
        intro object holds
        refine ih (fun m member => values m (List.mem_cons_of_mem _ member)) _
          ⟨insertMember_sorted holds.1, fun m inserted => ?_⟩
        rcases mem_insertMember inserted with rfl | old
        · exact values first List.mem_cons_self
        · exact holds.2 m old
  obtain ⟨sorted, canonical⟩ := both [] ⟨by simp, by simp⟩
  simp only [Json.canonical, Bool.and_eq_true, decide_eq_true_eq]
  exact ⟨sorted, canonicalMembers_iff.mpr canonical⟩

/-! ## Numbers inside a value -/

mutual

/-- Replace every number in a value. -/
def Json.mapNumbers (f : Number → Number) : Json → Json
  | .number n => .number (f n)
  | .array items => .array (mapNumbersItems f items)
  | .object members => .object (mapNumbersMembers f members)
  | value => value

def mapNumbersItems (f : Number → Number) : List Json → List Json
  | [] => []
  | item :: items => item.mapNumbers f :: mapNumbersItems f items

def mapNumbersMembers (f : Number → Number) : List (String × Json) → List (String × Json)
  | [] => []
  | (key, value) :: members => (key, value.mapNumbers f) :: mapNumbersMembers f members

end

mutual

/-- The numbers that occur in a value. -/
def Json.numbers : Json → List Number
  | .number n => [n]
  | .array items => numbersOfItems items
  | .object members => numbersOfMembers members
  | _ => []

def numbersOfItems : List Json → List Number
  | [] => []
  | item :: items => item.numbers ++ numbersOfItems items

def numbersOfMembers : List (String × Json) → List Number
  | [] => []
  | (_, value) :: members => value.numbers ++ numbersOfMembers members

end

/-! ## Texts inside a value -/

mutual

/-- The strings and the keys that occur in a value. -/
def Json.texts : Json → List String
  | .string s => [s]
  | .array items => textsOfItems items
  | .object members => textsOfMembers members
  | _ => []

def textsOfItems : List Json → List String
  | [] => []
  | item :: items => item.texts ++ textsOfItems items

def textsOfMembers : List (String × Json) → List String
  | [] => []
  | (key, value) :: members => key :: value.texts ++ textsOfMembers members

end

theorem mem_textsOfMembers {members : List (String × Json)} {text : String} :
    text ∈ textsOfMembers members ↔
      ∃ member ∈ members, text = member.1 ∨ text ∈ member.2.texts := by
  induction members with
  | nil => simp [textsOfMembers]
  | cons member members ih =>
      obtain ⟨key, value⟩ := member
      simp [textsOfMembers, ih, or_assoc]

theorem mem_dict {members : List (String × Json)} {member : String × Json}
    (listed : member ∈ Json.dict members) : member ∈ members := by
  have all : ∀ object : List (String × Json),
      member ∈ members.foldl (fun object m => insertMember m.1 m.2 object) object →
        member ∈ object ∨ member ∈ members := by
    clear listed
    induction members with
    | nil => exact fun _ inside => .inl inside
    | cons first members ih =>
        intro object inside
        rcases ih _ inside with inserted | later
        · rcases mem_insertMember inserted with rfl | old
          · exact .inr List.mem_cons_self
          · exact .inl old
        · exact .inr (List.mem_cons_of_mem _ later)
  exact (all [] listed).resolve_left List.not_mem_nil

theorem mem_insertMember_self (key : String) (value : Json) (members : List (String × Json)) :
    (key, value) ∈ insertMember key value members := by
  induction members with
  | nil => exact List.mem_cons_self
  | cons first members ih =>
      simp only [insertMember]
      split
      · exact List.mem_cons_self
      · split
        · exact List.mem_cons_self
        · exact List.mem_cons_of_mem _ ih

theorem mem_insertMember_of_ne {key : String} {value : Json} {members : List (String × Json)}
    {member : String × Json} (listed : member ∈ members) (other : member.1 ≠ key) :
    member ∈ insertMember key value members := by
  induction members with
  | nil => cases listed
  | cons first members ih =>
      obtain ⟨key', value'⟩ := first
      simp only [insertMember]
      rcases List.mem_cons.mp listed with rfl | later
      · rw [if_neg fun same => other same.symm]
        split
        · exact List.mem_cons_of_mem _ List.mem_cons_self
        · exact List.mem_cons_self
      · split
        · exact List.mem_cons_of_mem _ later
        · split
          · exact List.mem_cons_of_mem _ (List.mem_cons_of_mem _ later)
          · exact List.mem_cons_of_mem _ (ih later)

/-- A member of a display stays, if no later one has its key. -/
theorem mem_dict_of_fresh (front : List (String × Json)) {back : List (String × Json)} {key : String}
    (value : Json) (fresh : ∀ member ∈ back, member.1 ≠ key) :
    (key, value) ∈ Json.dict (front ++ (key, value) :: back) := by
  have kept : ∀ object, (key, value) ∈ object →
      (key, value) ∈ back.foldl (fun object member => insertMember member.1 member.2 object) object := by
    induction back with
    | nil => exact fun _ inside => inside
    | cons member back ih =>
        intro object inside
        refine ih (fun other listed => fresh other (List.mem_cons_of_mem _ listed)) _ ?_
        exact mem_insertMember_of_ne inside (fresh member List.mem_cons_self).symm
  rw [Json.dict, List.foldl_append]
  exact kept _ (mem_insertMember_self key value _)

section MapNumbers

variable (f : Number → Number)

mutual

theorem Json.mapNumbers_eq_self (value : Json) :
    value.mapNumbers f = value ↔ ∀ n ∈ value.numbers, f n = n := by
  match value with
  | .null => simp [Json.mapNumbers, Json.numbers]
  | .bool _ => simp [Json.mapNumbers, Json.numbers]
  | .number n => simp [Json.mapNumbers, Json.numbers]
  | .string _ => simp [Json.mapNumbers, Json.numbers]
  | .array items => simpa [Json.mapNumbers, Json.numbers] using mapNumbersItems_eq_self items
  | .object members =>
      simpa [Json.mapNumbers, Json.numbers] using mapNumbersMembers_eq_self members

theorem mapNumbersItems_eq_self (items : List Json) :
    mapNumbersItems f items = items ↔ ∀ n ∈ numbersOfItems items, f n = n := by
  match items with
  | [] => simp [mapNumbersItems, numbersOfItems]
  | item :: items =>
      simp only [mapNumbersItems, numbersOfItems, List.cons.injEq, List.forall_mem_append,
        Json.mapNumbers_eq_self item, mapNumbersItems_eq_self items]

theorem mapNumbersMembers_eq_self (members : List (String × Json)) :
    mapNumbersMembers f members = members ↔ ∀ n ∈ numbersOfMembers members, f n = n := by
  match members with
  | [] => simp [mapNumbersMembers, numbersOfMembers]
  | (key, value) :: members =>
      simp only [mapNumbersMembers, numbersOfMembers, List.cons.injEq, Prod.mk.injEq, true_and,
        List.forall_mem_append, Json.mapNumbers_eq_self value, mapNumbersMembers_eq_self members]

end

theorem mapNumbersMembers_keys (members : List (String × Json)) :
    (mapNumbersMembers f members).map (·.1.toList) = members.map (·.1.toList) := by
  induction members with
  | nil => rfl
  | cons member members ih => simp [mapNumbersMembers, ih]

mutual

/-- Replacing numbers keeps a value canonical. -/
theorem Json.mapNumbers_canonical (value : Json) :
    (value.mapNumbers f).canonical = value.canonical := by
  match value with
  | .null | .bool _ | .number _ | .string _ => rfl
  | .array items => simpa [Json.mapNumbers, Json.canonical] using mapNumbersItems_canonical items
  | .object members =>
      simp only [Json.mapNumbers, Json.canonical, mapNumbersMembers_keys,
        mapNumbersMembers_canonical members]

theorem mapNumbersItems_canonical (items : List Json) :
    canonicalItems (mapNumbersItems f items) = canonicalItems items := by
  match items with
  | [] => rfl
  | item :: items =>
      simp only [mapNumbersItems, canonicalItems, Json.mapNumbers_canonical item,
        mapNumbersItems_canonical items]

theorem mapNumbersMembers_canonical (members : List (String × Json)) :
    canonicalMembers (mapNumbersMembers f members) = canonicalMembers members := by
  match members with
  | [] => rfl
  | (key, value) :: members =>
      simp only [mapNumbersMembers, canonicalMembers, Json.mapNumbers_canonical value,
        mapNumbersMembers_canonical members]

end

end MapNumbers
end LandVault.Library.JsonText
