import LandVault.Library.Numerals
import LandVault.Python.Uuid

/-!
# Strings and floats

The parts of Python's `str` and `float` that the modelled code uses: truth of an
optional string, `strip`, `upper`, `repr`, and comparison of floats with the
special values.
-/

set_option autoImplicit false

namespace LandVault.Python

open LandVault.Library.Numerals

/-! ## Strings -/

/-- `bool(s)` for a `str | None`. -/
def truthy (s : Option String) : Bool :=
  match s with
  | none => false
  | some text => text != ""

/-- `a or b` for two values of type `str | None`. -/
def orElse (a b : Option String) : Option String := if truthy a then a else b

/-- `str.isspace` of one character. -/
def isSpace (c : Char) : Bool := isBlank c || (0x1c ≤ c.toNat && c.toNat ≤ 0x1f)

/-- `not s.strip()`. -/
def isBlankText (s : String) : Bool := s.toList.all isSpace

/-- `s.strip()`. -/
def stripText (s : String) : String := String.ofList (strip isSpace s.toList)

/-- `str.upper` of one character, as far as the result is in ASCII: the letters of
ASCII and the others whose upper case is made of them. Any other character is left
as it is. -/
def upperChar (c : Char) : List Char :=
  if 'a' ≤ c ∧ c ≤ 'z' then [Char.ofNat (c.toNat - 32)]
  else
    match c.toNat with
    | 0xdf => ['S', 'S']
    | 0x131 => ['I']
    | 0x17f => ['S']
    | 0xfb00 => ['F', 'F']
    | 0xfb01 => ['F', 'I']
    | 0xfb02 => ['F', 'L']
    | 0xfb03 => ['F', 'F', 'I']
    | 0xfb04 => ['F', 'F', 'L']
    | 0xfb05 => ['S', 'T']
    | 0xfb06 => ['S', 'T']
    | _ => [c]

def upper (s : String) : String := String.ofList (s.toList.flatMap upperChar)

/-- `str.lower`, of the letters of ASCII. Any other character is left as it is. -/
def lowerChar (c : Char) : Char := if 'A' ≤ c ∧ c ≤ 'Z' then Char.ofNat (c.toNat + 32) else c

def lower (s : String) : String := String.ofList (s.toList.map lowerChar)

theorem lowerChar_lowerChar (c : Char) : lowerChar (lowerChar c) = lowerChar c := by
  unfold lowerChar
  by_cases upper : 'A' ≤ c ∧ c ≤ 'Z'
  · rw [if_pos upper, if_neg]
    rintro ⟨_, below⟩
    have bounds : 65 ≤ c.toNat ∧ c.toNat ≤ 90 := upper
    have valid : (c.toNat + 32).isValidChar := .inl (by omega)
    have place : (Char.ofNat (c.toNat + 32)).toNat = c.toNat + 32 := by
      rw [Char.ofNat, dif_pos valid]
      rfl
    have small : (Char.ofNat (c.toNat + 32)).toNat ≤ 90 := below
    omega
  · rw [if_neg upper, if_neg upper]

/-- What is lowered stays as it is. -/
theorem lower_lower (s : String) : lower (lower s) = lower s := by
  have twice : lowerChar ∘ lowerChar = lowerChar := funext lowerChar_lowerChar
  rw [lower, lower, String.toList_ofList, List.map_map, twice]

/-- `repr` of one character inside quotes; characters outside ASCII are taken as
printable. -/
def reprChar (quote c : Char) : List Char :=
  if c = quote ∨ c = '\\' then ['\\', c]
  else if c = '\n' then ['\\', 'n']
  else if c = '\r' then ['\\', 'r']
  else if c = '\t' then ['\\', 't']
  else if c.toNat < 0x20 ∨ c.toNat = 0x7f then '\\' :: 'x' :: fixed 16 2 c.toNat
  else [c]

/-- `repr(s)`. -/
def reprString (s : String) : String :=
  let quote := if s.toList.contains '\'' && !s.toList.contains '"' then '"' else '\''
  String.ofList (quote :: s.toList.flatMap (reprChar quote) ++ [quote])

/-! ## Strings that JSON can write -/

/-- A code point of a `str`: a character, or a surrogate by itself, which an escape of JSON can
leave there. `offset` counts from U+D800. -/
inductive CodePoint where
  | char (c : Char)
  | surrogate (offset : Fin 0x800)
  deriving DecidableEq

/-- A `str` as JSON has it. -/
abbrev Str : Type := List CodePoint

namespace Str

/-- A text is a `str` without surrogates. -/
def ofText (text : String) : Str := text.toList.map .char

instance : Coe String Str := ⟨ofText⟩

/-- The characters of the `str`; nothing where one of its code points is a surrogate. -/
def characters : Str → Option (List Char)
  | [] => some []
  | .char c :: rest => (characters rest).map (c :: ·)
  | .surrogate _ :: _ => none

/-- What `encode("utf-8")` has to encode; nothing where it raises. -/
def text (s : Str) : Option String := (characters s).map String.ofList

def isSurrogate : CodePoint → Bool
  | .char _ => false
  | .surrogate _ => true

/-- The text of the `UnicodeEncodeError`. It names the first surrogate, or the first and the
last of those that stand together. -/
def encodeError (s : Str) : String :=
  let start := s.findIdx isSurrogate
  match (s.drop start).takeWhile isSurrogate with
  | [.surrogate offset] =>
      "'utf-8' codec can't encode character '\\u" ++ String.ofList (fixed 16 4 (0xd800 + offset)) ++
        "' in position " ++ toString start ++ ": surrogates not allowed"
  | run =>
      "'utf-8' codec can't encode characters in position " ++ toString start ++ "-" ++
        toString (start + run.length - 1) ++ ": surrogates not allowed"

theorem characters_map (chars : List Char) : characters (chars.map .char) = some chars := by
  induction chars with
  | nil => rfl
  | cons c chars ih => simp [characters, ih]

@[simp] theorem text_ofText (text : String) : (ofText text).text = some text := by
  simp [Str.text, ofText, characters_map]

end Str

theorem truthy_iff {s : Option String} : truthy s = true ↔ ∃ text, s = some text ∧ text ≠ "" := by
  cases s with
  | none => simp [truthy]
  | some text => simp [truthy]

/-! ## Floats -/

/-- A `float`: a rational number, or one of the special values. -/
inductive PyFloat where
  | finite (value : Rat)
  | nan
  | infinite (negative : Bool)
  deriving DecidableEq

/-- `x == y`: not-a-number equals nothing. -/
def PyFloat.eq : PyFloat → PyFloat → Bool
  | .finite x, .finite y => x == y
  | .infinite x, .infinite y => x == y
  | _, _ => false

/-- `x <= 0`: no comparison with not-a-number holds. -/
def PyFloat.leZero : PyFloat → Bool
  | .finite x => x ≤ 0
  | .nan => false
  | .infinite negative => negative

theorem PyFloat.eq_of_eq {x y : PyFloat} (same : x.eq y = true) : x = y := by
  cases x <;> cases y <;> simp_all [PyFloat.eq]

/-- `a == b` for two values of type `float | None`. -/
def eqFloat : Option PyFloat → Option PyFloat → Bool
  | none, none => true
  | some x, some y => x.eq y
  | _, _ => false

theorem eq_of_eqFloat {a b : Option PyFloat} (same : eqFloat a b = true) : a = b := by
  cases a <;> cases b <;> simp_all [eqFloat]
  exact PyFloat.eq_of_eq same

end LandVault.Python
