import Mathlib.Data.List.Induction
import Mathlib.Data.Nat.Digits.Defs
import Mathlib.Tactic.IntervalCases
import Mathlib.Tactic.Ring

/-!
# Numerals

Digits of a fixed number of places in bases up to sixteen, as formats such as
`%02d` and `%04x` write them, and decimal numerals padded with zeros to at least
some width. Reading the digits gives the number back, and a text of digits is
the numeral of the number it reads as.
-/

set_option autoImplicit false

namespace LandVault.Library.Numerals

/-! ## Digits -/

/-- The value of a digit, lower-case letters continuing after `9`. -/
def digitValue (c : Char) : Option Nat :=
  if '0' ≤ c ∧ c ≤ '9' then some (c.toNat - 48)
  else if 'a' ≤ c ∧ c ≤ 'f' then some (c.toNat - 87)
  else none

@[simp] theorem digitValue_digitChar {d : Nat} (small : d < 16) :
    digitValue (Nat.digitChar d) = some d := by
  interval_cases d <;> decide

theorem digitChar_of_digitValue {c : Char} {d : Nat} (value : digitValue c = some d) :
    Nat.digitChar d = c := by
  have same : c = Char.ofNat c.toNat := (Char.ofNat_toNat c).symm
  unfold digitValue at value
  split at value
  · rename_i range
    have lower : 48 ≤ c.toNat := range.1
    have upper : c.toNat ≤ 57 := range.2
    cases value
    rw [same]
    generalize c.toNat = n at *
    interval_cases n <;> decide
  · split at value
    · rename_i range
      have lower : 97 ≤ c.toNat := range.1
      have upper : c.toNat ≤ 102 := range.2
      cases value
      rw [same]
      generalize c.toNat = n at *
      interval_cases n <;> decide
    · cases value

/-- Read digits after those already read as `n`. -/
def readFrom (base : Nat) : Nat → List Char → Option Nat
  | n, [] => some n
  | n, c :: cs =>
      match digitValue c with
      | some d => if d < base then readFrom base (base * n + d) cs else none
      | none => none

theorem readFrom_append (base n : Nat) (xs ys : List Char) :
    readFrom base n (xs ++ ys) = (readFrom base n xs).bind fun m => readFrom base m ys := by
  induction xs generalizing n with
  | nil => rfl
  | cons c cs ih =>
      simp only [List.cons_append, readFrom]
      split
      · split
        · exact ih _
        · rfl
      · rfl

theorem readFrom_digit {base d : Nat} (n : Nat) (small : d < base) (bound : base ≤ 16) :
    readFrom base n [Nat.digitChar d] = some (base * n + d) := by
  simp [readFrom, digitValue_digitChar (small.trans_le bound), small]

/-! ## A fixed number of places -/

/-- The last `width` digits of a number. -/
def fixed (base : Nat) : Nat → Nat → List Char
  | 0, _ => []
  | width + 1, n => fixed base width (n / base) ++ [Nat.digitChar (n % base)]

@[simp] theorem fixed_length (base width n : Nat) : (fixed base width n).length = width := by
  induction width generalizing n with
  | zero => rfl
  | succ width ih => simp [fixed, ih]

/-- Reading the last digits of a number gives the number, up to the places left out. -/
theorem readFrom_fixed {base : Nat} (positive : 0 < base) (bound : base ≤ 16) (m width n : Nat) :
    readFrom base m (fixed base width n) = some (base ^ width * m + n % base ^ width) := by
  induction width generalizing n with
  | zero => simp [fixed, readFrom, Nat.mod_one]
  | succ width ih =>
      rw [fixed, readFrom_append, ih, Option.bind_some,
        readFrom_digit _ (Nat.mod_lt n positive) bound, Nat.pow_succ, Nat.mul_comm _ base,
        Nat.mod_mul]
      congr 1
      ring

theorem read_fixed {base width n : Nat} (positive : 0 < base) (bound : base ≤ 16)
    (small : n < base ^ width) : readFrom base 0 (fixed base width n) = some n := by
  rw [readFrom_fixed positive bound, Nat.mod_eq_of_lt small]
  simp

/-- Numbers with different digits are different. -/
theorem fixed_inj {base width m n : Nat} (positive : 0 < base) (bound : base ≤ 16)
    (first : m < base ^ width) (second : n < base ^ width)
    (same : fixed base width m = fixed base width n) : m = n := by
  have read := read_fixed positive bound first
  rw [same, read_fixed positive bound second] at read
  simpa using read.symm

/-- A text of digits is the numeral of what it reads as. -/
theorem fixed_of_readFrom {base : Nat} (positive : 0 < base) {text : List Char} {m n : Nat}
    (read : readFrom base m text = some n) :
    fixed base text.length n = text ∧ n / base ^ text.length = m := by
  induction text using List.reverseRecOn generalizing n with
  | nil =>
      cases read
      exact ⟨rfl, by simp⟩
  | append_singleton cs c ih =>
      rw [readFrom_append] at read
      obtain ⟨k, before, last⟩ := Option.bind_eq_some_iff.mp read
      obtain ⟨digits, quotient⟩ := ih before
      simp only [readFrom] at last
      split at last
      · rename_i d value
        split at last
        · rename_i small
          cases last
          have up : (base * k + d) / base = k := by
            rw [Nat.mul_add_div positive, Nat.div_eq_of_lt small, Nat.add_zero]
          have down : (base * k + d) % base = d := by
            rw [Nat.mul_add_mod, Nat.mod_eq_of_lt small]
          refine ⟨?_, ?_⟩
          · simp only [List.length_append, List.length_singleton, fixed, up, down, digits,
              digitChar_of_digitValue value]
          · rw [List.length_append, List.length_singleton, Nat.pow_succ',
              ← Nat.div_div_eq_div_mul, up, quotient]
        · cases last
      · cases last

/-! ## Decimal numerals -/

theorem read_toDigits (n : Nat) : readFrom 10 0 (Nat.toDigits 10 n) = some n := by
  induction n using Nat.strongRecOn with
  | ind n ih =>
      rw [Nat.toDigits_eq_if (by decide)]
      split
      · rename_i small
        simpa using readFrom_digit 0 small (by decide)
      · rename_i large
        have smaller : n / 10 < n := Nat.div_lt_self (by omega) (by decide)
        rw [readFrom_append, ih _ smaller, Option.bind_some,
          readFrom_digit _ (Nat.mod_lt n (by decide)) (by decide), Nat.div_add_mod]

theorem readFrom_zeros (base k : Nat) (positive : 0 < base) (text : List Char) :
    readFrom base 0 (List.replicate k '0' ++ text) = readFrom base 0 text := by
  induction k with
  | zero => rfl
  | succ k ih =>
      rw [List.replicate_succ, List.cons_append, readFrom]
      simpa [digitValue, positive] using ih

/-- A decimal numeral with zeros in front up to `width` places, as `%0{width}d` writes it. -/
def padded (width n : Nat) : List Char :=
  let digits := Nat.toDigits 10 n
  List.replicate (width - digits.length) '0' ++ digits

/-- A padded numeral reads as its number, however many places that takes. -/
theorem read_padded (width n : Nat) : readFrom 10 0 (padded width n) = some n := by
  rw [padded, readFrom_zeros 10 _ (by decide), read_toDigits]

theorem padded_inj {width m n : Nat} (same : padded width m = padded width n) : m = n := by
  have read := read_padded width m
  rw [same, read_padded] at read
  simpa using read.symm

end LandVault.Library.Numerals
