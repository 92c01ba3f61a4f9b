import LandVault.Library.Numerals

/-!
# `datetime.datetime` in UTC

Points in time as Python's `datetime` counts them, with the zone fixed to UTC, and
the texts that `isoformat` writes for them. `fromisoformat` is modelled on the
texts that `isoformat` writes: it gives the time back.
-/

set_option autoImplicit false

namespace LandVault.Python

open LandVault.Library.Numerals

/-! ## Points in time -/

def isLeap (year : Nat) : Bool := year % 4 = 0 ∧ (year % 100 ≠ 0 ∨ year % 400 = 0)

def daysInMonth (year month : Nat) : Nat :=
  if month = 2 then if isLeap year then 29 else 28
  else if month ∈ [4, 6, 9, 11] then 30
  else 31

/-- A `datetime` whose `tzinfo` is UTC. -/
structure DateTime where
  year : Nat
  month : Nat
  day : Nat
  hour : Nat
  minute : Nat
  second : Nat
  microsecond : Nat
  date : (1 ≤ year ∧ year ≤ 9999) ∧ (1 ≤ month ∧ month ≤ 12) ∧ 1 ≤ day ∧ day ≤ daysInMonth year month
  time : hour < 24 ∧ minute < 60 ∧ second < 60 ∧ microsecond < 1000000
  deriving DecidableEq

/-- The first moment of 2026. -/
def DateTime.newYear : DateTime := ⟨2026, 1, 1, 0, 0, 0, 0, by decide, by decide⟩

/-- A number that orders points in time. -/
def DateTime.position (d : DateTime) : Nat :=
  (((((d.year * 13 + d.month) * 32 + d.day) * 24 + d.hour) * 60 + d.minute) * 60 + d.second) *
    1000000 + d.microsecond

/-- The same time on the next day; nothing after the last day of the year 9999. -/
def DateTime.nextDay (d : DateTime) : Option DateTime :=
  if day : d.day < daysInMonth d.year d.month then
    some { d with
      day := d.day + 1
      date := ⟨d.date.1, d.date.2.1, by have := d.date; omega⟩ }
  else if month : d.month < 12 then
    some { d with
      month := d.month + 1
      day := 1
      date := ⟨d.date.1, by have := d.date; omega, le_rfl, one_le_daysInMonth _ _⟩ }
  else if year : d.year < 9999 then
    some { d with
      year := d.year + 1
      month := 1
      day := 1
      date := ⟨by have := d.date; omega, by omega, le_rfl, one_le_daysInMonth _ _⟩ }
  else none
where
  one_le_daysInMonth (year month : Nat) : 1 ≤ daysInMonth year month := by
    unfold daysInMonth
    split
    · split <;> omega
    · split <;> omega

/-- `d + timedelta(days=days)`; nothing where it raises `OverflowError`. -/
def DateTime.addDays (d : DateTime) : Nat → Option DateTime
  | 0 => some d
  | days + 1 => d.nextDay.bind fun next => next.addDays days

/-! ## Texts -/

/-- Three numbers with a separator between them. -/
def triple (width : Nat) (separator : Char) (first second third : Nat) : List Char :=
  fixed 10 width first ++ separator :: (fixed 10 2 second ++ separator :: fixed 10 2 third)

/-- The microseconds, left out when there are none. -/
def fraction (microsecond : Nat) : List Char :=
  if microsecond = 0 then [] else '.' :: fixed 10 6 microsecond

/-- `isoformat()`. -/
def DateTime.isoformat (d : DateTime) : String :=
  String.ofList <| triple 4 '-' d.year d.month d.day ++ 'T' ::
    (triple 2 ':' d.hour d.minute d.second ++
      (fraction d.microsecond ++ ['+', '0', '0', ':', '0', '0']))

/-- A number of `width` digits, and what follows it. -/
def readNumber (width : Nat) (text : List Char) : Option (Nat × List Char) :=
  (readFrom 10 0 (text.take width)).map fun n => (n, text.drop width)

/-- One given character. -/
def readChar (c : Char) : List Char → Option (List Char)
  | [] => none
  | d :: text => if c = d then some text else none

def readFraction : List Char → Option (Nat × List Char)
  | '.' :: text => readNumber 6 text
  | text => some (0, text)

/-- Three numbers of `width`, 2 and 2 digits with a separator between them. -/
def readTriple (width : Nat) (separator : Char) (text : List Char) :
    Option ((Nat × Nat × Nat) × List Char) := do
  let (first, text) ← readNumber width text
  let text ← readChar separator text
  let (second, text) ← readNumber 2 text
  let text ← readChar separator text
  let (third, text) ← readNumber 2 text
  return ((first, second, third), text)

/-- The `datetime` with these fields; nothing where the constructor raises. -/
def DateTime.ofFields (date : Nat × Nat × Nat) (time : Nat × Nat × Nat) (microsecond : Nat) :
    Option DateTime :=
  let (year, month, day) := date
  let (hour, minute, second) := time
  if date : (1 ≤ year ∧ year ≤ 9999) ∧ (1 ≤ month ∧ month ≤ 12) ∧ 1 ≤ day ∧
      day ≤ daysInMonth year month then
    if time : hour < 24 ∧ minute < 60 ∧ second < 60 ∧ microsecond < 1000000 then
      some ⟨year, month, day, hour, minute, second, microsecond, date, time⟩
    else none
  else none

/-- `datetime.fromisoformat(text)` on the texts that `isoformat` writes; nothing
on others. -/
def DateTime.fromisoformat (text : String) : Option DateTime := do
  let (date, text) ← readTriple 4 '-' text.toList
  let text ← readChar 'T' text
  let (time, text) ← readTriple 2 ':' text
  let (microsecond, text) ← readFraction text
  if text = ['+', '0', '0', ':', '0', '0'] then DateTime.ofFields date time microsecond else none

theorem readNumber_fixed {width n : Nat} (small : n < 10 ^ width) (text : List Char) :
    readNumber width (fixed 10 width n ++ text) = some (n, text) := by
  have digits : (fixed 10 width n ++ text).take width = fixed 10 width n := by
    simp
  have rest : (fixed 10 width n ++ text).drop width = text := by
    simp
  rw [readNumber, digits, rest, read_fixed (by decide) (by decide) small, Option.map_some]

@[simp] theorem readChar_cons (c : Char) (text : List Char) :
    readChar c (c :: text) = some text := by
  simp [readChar]

theorem readFraction_fraction {microsecond : Nat} (small : microsecond < 1000000)
    (text : List Char) :
    readFraction (fraction microsecond ++ '+' :: text) = some (microsecond, '+' :: text) := by
  unfold fraction
  split
  · rename_i zero
    simp [readFraction, zero]
  · have six : microsecond < 10 ^ 6 := small
    simpa [readFraction] using readNumber_fixed six ('+' :: text)

theorem readTriple_triple {width first second third : Nat} (separator : Char)
    (isFirst : first < 10 ^ width) (isSecond : second < 10 ^ 2) (isThird : third < 10 ^ 2)
    (text : List Char) :
    readTriple width separator (triple width separator first second third ++ text) =
      some ((first, second, third), text) := by
  simp only [readTriple, triple, List.append_assoc, List.cons_append, readNumber_fixed isFirst,
    readNumber_fixed isSecond, readNumber_fixed isThird, readChar_cons, Option.bind_eq_bind,
    Option.bind_some, Option.pure_def]

theorem DateTime.ofFields_fields (d : DateTime) :
    DateTime.ofFields (d.year, d.month, d.day) (d.hour, d.minute, d.second) d.microsecond =
      some d := by
  simp only [DateTime.ofFields, dif_pos d.date, dif_pos d.time]

theorem daysInMonth_le (year month : Nat) : daysInMonth year month ≤ 31 := by
  unfold daysInMonth
  split
  · split <;> decide
  · split <;> decide

theorem DateTime.lt_nextDay {time next : DateTime} (same : time.nextDay = some next) :
    time.position < next.position := by
  have date := time.date
  have clock := time.time
  have bound := daysInMonth_le time.year time.month
  unfold nextDay at same
  split at same
  · cases same
    simp only [position]
    omega
  split at same
  · cases same
    simp only [position]
    omega
  split at same
  · cases same
    simp only [position]
    omega
  · cases same

/-- A number of days later it is later. -/
theorem DateTime.le_addDays {time later : DateTime} {days : Nat}
    (added : time.addDays days = some later) : time.position + days ≤ later.position := by
  induction days generalizing time with
  | zero =>
      cases added
      exact (Nat.add_zero _).le
  | succ days ih =>
      obtain ⟨next, first, rest⟩ := Option.bind_eq_some_iff.mp added
      have day := lt_nextDay first
      have := ih rest
      omega


/-- A point in time survives being written and read. -/
@[simp] theorem DateTime.fromisoformat_isoformat (d : DateTime) :
    DateTime.fromisoformat d.isoformat = some d := by
  have days := daysInMonth_le d.year d.month
  have date := d.date
  have time := d.time
  have year : d.year < 10 ^ 4 := by omega
  have month : d.month < 10 ^ 2 := by omega
  have day : d.day < 10 ^ 2 := by omega
  have hour : d.hour < 10 ^ 2 := by omega
  have minute : d.minute < 10 ^ 2 := by omega
  have second : d.second < 10 ^ 2 := by omega
  have dateText := readTriple_triple '-' year month day
  have timeText := readTriple_triple ':' hour minute second
  simp only [DateTime.fromisoformat, DateTime.isoformat, String.toList_ofList, dateText, timeText,
    readChar_cons, readFraction_fraction time.2.2.2, Option.bind_eq_bind, Option.bind_some,
    DateTime.ofFields_fields, if_true]

end LandVault.Python
