import LandVault.Library.Binary64
import LandVault.Python.Values

/-!
# Decimal digits

What Python reads as a decimal digit (`str.isdecimal`, `\d`), and the numbers that
`int` and `float` make of such digits.
-/

set_option autoImplicit false

namespace LandVault.Python

/-- `unicodedata.decimal`. -/
def decimal (c : Char) : Option Nat :=
  (decimalZeros.find? fun first => first ≤ c.toNat && c.toNat < first + 10).elim
    (if c.isDigit then some (c.toNat - 48) else none) fun first => some (c.toNat - first)

/-- `str.isdecimal` of one character. -/
def isDecimal (c : Char) : Bool := (decimal c).isSome

/-- The number that a text of digits denotes. -/
def digitsValue (digits : List Char) : Nat :=
  digits.foldl (fun n c => 10 * n + (decimal c).getD 0) 0

/-- `sys.get_int_max_str_digits()`. -/
def maxStrDigits : Nat := 4300

/-- The minus sign of a negative number. -/
def minus (negative : Bool) : List Char := if negative then ['-'] else []

/-- The exact value of a numeral with these parts. -/
def decimalValue (negative : Bool) (whole fraction : List Char) : Rat :=
  (if negative then -1 else 1) * (digitsValue whole + digitsValue fraction / 10 ^ fraction.length)

theorem isDecimal_of_isDigit {c : Char} (digit : c.isDigit = true) : isDecimal c = true := by
  unfold isDecimal decimal
  cases decimalZeros.find? fun first => first ≤ c.toNat && c.toNat < first + 10 with
  | none => simp [digit]
  | some first => rfl

/-- A digit is no blank, and no mark of ASCII before the digits. -/
theorem isDecimal_eq_false {c : Char} (other : isSpace c = true ∨ c.toNat < 48) :
    isDecimal c = false := by
  have spaces : isSpace c = true → c.toNat ∈ [9, 10, 11, 12, 13, 0x1c, 0x1d, 0x1e, 0x1f, 0x20, 0x85,
      0xa0, 0x1680, 0x2028, 0x2029, 0x202f, 0x205f, 0x3000, 0x2000, 0x2001, 0x2002, 0x2003, 0x2004,
      0x2005, 0x2006, 0x2007, 0x2008, 0x2009, 0x200a] := by
    intro space
    simp only [isSpace, isBlank, List.mem_cons, List.not_mem_nil, or_false, Bool.or_eq_true,
      Bool.and_eq_true, decide_eq_true_eq] at space ⊢
    generalize c.toNat = n at space
    rcases space with (control | listed | wide) | separator <;> omega
  have outside : ∀ first ∈ decimalZeros, ¬ (first ≤ c.toNat ∧ c.toNat < first + 10) := by
    rcases other with space | small
    · have listed := spaces space
      generalize c.toNat = n at listed
      revert n
      decide
    · intro first listed
      have above : 48 ≤ first := by
        revert first
        decide
      omega
  have plain : c.isDigit = false := by
    rw [Bool.eq_false_iff]
    intro digit
    have bounds : 48 ≤ c.toNat ∧ c.toNat ≤ 57 := by
      simpa [Char.isDigit, UInt32.le_iff_toNat_le] using digit
    rcases other with space | small
    · have listed := spaces space
      generalize c.toNat = n at listed bounds
      revert n
      decide
    · omega
  have nothing : decimalZeros.find? (fun first => first ≤ c.toNat && c.toNat < first + 10) = none :=
    List.find?_eq_none.mpr fun first listed => by simpa using outside first listed
  simp [isDecimal, decimal, nothing, plain]

end LandVault.Python
