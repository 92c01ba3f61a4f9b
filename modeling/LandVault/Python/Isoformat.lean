import Mathlib.Data.List.TakeDrop
import LandVault.Python.Datetime
import LandVault.Python.Values

/-!
# `datetime.fromisoformat`

The texts that the documentation of Python 3.12 lists: a date of the calendar or a day of a
week, with hyphens or without them; then any one character and a time of the day, to the
hour, the minute, the second or a fraction of it; then an offset from UTC. A time with an
offset is given by the time in UTC that it denotes.
-/

set_option autoImplicit false

namespace LandVault.Python

open LandVault.Library.Numerals

/-- A `datetime` with a zone, by the time in UTC that it denotes: that may lie before the
year 1 or after the year 9999. -/
inductive ZonedTime where
  | early
  | within (time : DateTime)
  | late
  deriving DecidableEq

/-- `zoned <= now`. -/
def ZonedTime.notAfter (now : DateTime) : ZonedTime → Bool
  | .early => true
  | .within time => time.position ≤ now.position
  | .late => false

/-! ## Dates -/

/-- A year, a month and a day. -/
abbrev Date : Type := Nat × Nat × Nat

def dayAfter : Date → Option Date
  | (year, month, day) =>
      if day < daysInMonth year month then some (year, month, day + 1)
      else if month < 12 then some (year, month + 1, 1)
      else if year < 9999 then some (year + 1, 1, 1)
      else none

def dayBefore : Date → Option Date
  | (year, month, day) =>
      if 1 < day then some (year, month, day - 1)
      else if 1 < month then some (year, month - 1, daysInMonth year (month - 1))
      else if 1 < year then some (year - 1, 12, 31)
      else none

/-- A number of days later, or earlier. -/
def shiftDate (date : Date) : Int → Option Date
  | .ofNat days => days.rec (some date) fun _ shifted => shifted.bind dayAfter
  | .negSucc days => days.rec (dayBefore date) fun _ shifted => shifted.bind dayBefore

/-- The weekday of 1 January; a Monday is 0. -/
def firstWeekday (year : Nat) : Nat :=
  let past := year - 1
  (365 * past + past / 4 - past / 100 + past / 400) % 7

/-- The day of a week. The first week of a year is that of its first Thursday, and a year of
53 weeks begins on a Thursday, or on a Wednesday where it is a leap year. -/
def ofWeek (year week day : Nat) : Option Date :=
  let weekday := firstWeekday year
  let long := weekday = 3 || weekday = 2 && isLeap year
  if 1 ≤ year ∧ 1 ≤ week ∧ week ≤ (if long then 53 else 52) ∧ 1 ≤ day ∧ day ≤ 7 then
    let monday : Int := if weekday ≤ 3 then -(weekday : Int) else 7 - weekday
    shiftDate (year, 1, 1) (monday + 7 * (week - 1) + (day - 1))
  else none

/-! ## Reading -/

/-- A number of exactly `width` digits, and what follows it. -/
def readExactly (width : Nat) (text : List Char) : Option (Nat × List Char) :=
  if width ≤ text.length then readNumber width text else none

/-- The separator of an extended format; a basic format has none. -/
def readSeparator (extended : Bool) (separator : Char) (text : List Char) : Option (List Char) :=
  if extended then readChar separator text else some text

def readDate (text : List Char) : Option Date := do
  let (year, text) ← readExactly 4 text
  let extended := text.head? == some '-'
  let text ← readSeparator extended '-' text
  if text.head? = some 'W' then
    let (week, text) ← readExactly 2 text.tail
    if text.isEmpty then ofWeek year week 1
    else
      let text ← readSeparator extended '-' text
      let (day, text) ← readExactly 1 text
      if text.isEmpty then ofWeek year week day else none
  else
    let (month, text) ← readExactly 2 text
    let text ← readSeparator extended '-' text
    let (day, text) ← readExactly 2 text
    if text.isEmpty then some (year, month, day) else none

/-- The digits after a point or a comma, of which the first six count. -/
def readMicroseconds : List Char → Option Nat
  | [] => some 0
  | mark :: digits =>
      if (mark = '.' ∨ mark = ',') ∧ digits ≠ [] ∧ digits.all Char.isDigit then
        (readNumber 6 (digits.take 6 ++ List.replicate (6 - digits.length) '0')).map Prod.fst
      else none

/-- A time of the day: hour, minute, second, and microsecond. -/
def readClock (text : List Char) : Option ((Nat × Nat × Nat) × Nat) := do
  let (hour, text) ← readExactly 2 text
  if text.isEmpty then return ((hour, 0, 0), 0)
  let extended := text.head? == some ':'
  let text ← readSeparator extended ':' text
  let (minute, text) ← readExactly 2 text
  if text.isEmpty then return ((hour, minute, 0), 0)
  let text ← readSeparator extended ':' text
  let (second, text) ← readExactly 2 text
  let microsecond ← readMicroseconds text
  return ((hour, minute, second), microsecond)

/-- Microseconds since the hour 0. -/
def inMicroseconds (clock : (Nat × Nat × Nat) × Nat) : Nat :=
  ((clock.1.1 * 60 + clock.1.2.1) * 60 + clock.1.2.2) * 1000000 + clock.2

abbrev microsecondsPerDay : Nat := 24 * 60 * 60 * 1000000

/-- An offset from UTC in microseconds, if there is one; it is less than a day. -/
def readOffset : List Char → Option (Option Int)
  | [] => some none
  | 'Z' :: text => if text.isEmpty then some (some 0) else none
  | sign :: text => do
      let offset := inMicroseconds (← readClock text)
      if microsecondsPerDay ≤ offset then none
      else some (some (if sign = '-' then -(offset : Int) else offset))

/-- The time in UTC of a local time. -/
def ZonedTime.ofLocal (date : Date) (clock : Nat) (offset : Int) : Option ZonedTime :=
  let utc := (clock : Int) - offset
  let timeOf (date : Option Date) (beyond : ZonedTime) (rest : Int) : Option ZonedTime :=
    match date with
    | none => some beyond
    | some date =>
        let seconds := rest.toNat / 1000000
        (DateTime.ofFields date (seconds / 3600, seconds / 60 % 60, seconds % 60)
          (rest.toNat % 1000000)).map .within
  if utc < 0 then timeOf (dayBefore date) .early (utc + microsecondsPerDay)
  else if utc < microsecondsPerDay then timeOf (some date) .early utc
  else timeOf (dayAfter date) .late (utc - microsecondsPerDay)

def charAt (text : Str) (n : Nat) (c : Char) : Bool := text[n]? = some (.char c)

def CodePoint.isDigit : CodePoint → Bool
  | .char c => c.isDigit
  | .surrogate _ => false

/-- Where the date ends: each format has a length of its own, and where digits may belong to
the date or to the time, their number decides. -/
def separatorLocation (text : Str) : Nat :=
  if charAt text 4 '-' then
    if charAt text 5 'W' && charAt text 8 '-' then
      if text[10]?.any CodePoint.isDigit then 8 else 10
    else if charAt text 5 'W' then 8
    else 10
  else if charAt text 4 'W' then
    let last := 7 + ((text.drop 7).takeWhile CodePoint.isDigit).length
    if last < 9 then last else if last % 2 = 0 then 7 else 8
  else 8

/-- `datetime.fromisoformat(text)`: nothing where it raises `ValueError`, else a time without a
zone (`some none`) or one with a zone. -/
def fromisoformat (text : Str) : Option (Option ZonedTime) := do
  let location := separatorLocation text
  let date ← readDate (← Str.characters (text.take location))
  let time ← Str.characters (text.drop (location + 1))
  let (clock, zone) := time.span fun c => !(['+', '-', 'Z'].contains c)
  let clock ← if text.length ≤ location then some ((0, 0, 0), 0) else readClock clock
  let _ ← DateTime.ofFields date clock.1 clock.2
  match ← readOffset zone with
  | none => some none
  | some offset => (ZonedTime.ofLocal date (inMicroseconds clock) offset).map some

/-! ## What `isoformat` writes -/

theorem isDigit_fixed {width n : Nat} : ∀ c ∈ fixed 10 width n, c.isDigit = true := by
  induction width generalizing n with
  | zero => simp [fixed]
  | succ width ih =>
      intro c member
      rcases List.mem_append.mp member with before | last
      · exact ih c before
      · have small : n % 10 < 10 := Nat.mod_lt n (by decide)
        rw [List.mem_singleton.mp last]
        generalize n % 10 = digit at small ⊢
        interval_cases digit <;> decide

theorem readExactly_fixed {width n : Nat} (small : n < 10 ^ width) (text : List Char) :
    readExactly width (fixed 10 width n ++ text) = some (n, text) := by
  rw [readExactly, if_pos (by simp [fixed_length]), readNumber_fixed small]

theorem readExactly_end {width n : Nat} (small : n < 10 ^ width) :
    readExactly width (fixed 10 width n) = some (n, []) := by
  simpa using readExactly_fixed small []

/-- What begins with a digit does not begin with another character. -/
theorem head_fixed {width n : Nat} (nonempty : width ≠ 0) (text : List Char) {c : Char}
    (other : c.isDigit = false) : (fixed 10 width n ++ text).head? ≠ some c := by
  intro first
  have some' : fixed 10 width n ≠ [] := by
    simpa [← List.length_pos_iff, Nat.pos_iff_ne_zero] using nonempty
  rw [List.head?_append, List.head?_eq_some_head some', Option.some_or] at first
  have digit := isDigit_fixed _ (List.head_mem some')
  rw [Option.some_inj.mp first, other] at digit
  cases digit

theorem readDate_triple {year month day : Nat} (isYear : year < 10 ^ 4) (isMonth : month < 10 ^ 2)
    (isDay : day < 10 ^ 2) : readDate (triple 4 '-' year month day) = some (year, month, day) := by
  have notWeek := head_fixed (n := month) two_ne_zero ('-' :: fixed 10 2 day) (c := 'W') (by decide)
  simp only [readDate, triple, readExactly_fixed isYear, readExactly_fixed isMonth,
    readExactly_end isDay, readSeparator, readChar_cons, Option.bind_eq_bind, Option.bind_some,
    List.head?_cons, BEq.rfl, if_true, if_neg notWeek, List.isEmpty_nil]

theorem readMicroseconds_fraction {microsecond : Nat} (small : microsecond < 1000000) :
    readMicroseconds (fraction microsecond) = some microsecond := by
  unfold fraction
  split
  · rename_i zero
    simp [readMicroseconds, zero]
  · have six : (fixed 10 6 microsecond).length = 6 := fixed_length 10 6 microsecond
    have digits : (fixed 10 6 microsecond).all Char.isDigit = true :=
      List.all_eq_true.mpr isDigit_fixed
    have nonempty : fixed 10 6 microsecond ≠ [] := by
      rw [← List.length_pos_iff, six]
      decide
    have places : microsecond < 10 ^ 6 := small
    have read : readNumber 6 (fixed 10 6 microsecond) = some (microsecond, []) := by
      simpa using readNumber_fixed places []
    have padded : (fixed 10 6 microsecond).take 6 ++
        List.replicate (6 - (fixed 10 6 microsecond).length) '0' = fixed 10 6 microsecond := by
      rw [six, Nat.sub_self, List.replicate_zero, List.append_nil, List.take_of_length_le six.le]
    rw [readMicroseconds, if_pos ⟨.inl rfl, nonempty, digits⟩, padded, read]
    rfl

theorem readClock_triple {hour minute second microsecond : Nat} (isHour : hour < 10 ^ 2)
    (isMinute : minute < 10 ^ 2) (isSecond : second < 10 ^ 2) (small : microsecond < 1000000) :
    readClock (triple 2 ':' hour minute second ++ fraction microsecond) =
      some ((hour, minute, second), microsecond) := by
  simp only [readClock, triple, List.append_assoc, List.cons_append, readExactly_fixed isHour,
    readExactly_fixed isMinute, readExactly_fixed isSecond, readSeparator, readChar_cons,
    readMicroseconds_fraction small, Option.bind_eq_bind, Option.bind_some, List.head?_cons,
    BEq.rfl, if_true, List.isEmpty_cons, Bool.false_eq_true, if_false, Option.pure_def]

theorem ZonedTime.ofLocal_utc (d : DateTime) :
    ZonedTime.ofLocal (d.year, d.month, d.day)
      (inMicroseconds ((d.hour, d.minute, d.second), d.microsecond)) 0 = some (.within d) := by
  have time := d.time
  have clock : inMicroseconds ((d.hour, d.minute, d.second), d.microsecond) =
      ((d.hour * 60 + d.minute) * 60 + d.second) * 1000000 + d.microsecond := rfl
  generalize inMicroseconds ((d.hour, d.minute, d.second), d.microsecond) = micros at clock ⊢
  have before : ¬ (micros : Int) < 0 := by omega
  have within : (micros : Int) < microsecondsPerDay := by
    simp only [microsecondsPerDay]
    omega
  have fields : (micros / 1000000 / 3600, micros / 1000000 / 60 % 60, micros / 1000000 % 60) =
      (d.hour, d.minute, d.second) := by
    refine Prod.ext ?_ (Prod.ext ?_ ?_) <;> dsimp only <;> omega
  have rest : micros % 1000000 = d.microsecond := by omega
  simp only [ZonedTime.ofLocal, Int.sub_zero, if_neg before, if_pos within, Int.toNat_natCast,
    fields, rest, DateTime.ofFields_fields, Option.map_some]

theorem separatorLocation_triple (year month day : Nat) (rest : List Char) :
    separatorLocation ((triple 4 '-' year month day ++ rest).map .char) = 10 := by
  have hyphen : (triple 4 '-' year month day ++ rest)[4]? = some '-' := by
    simp [triple]
  have notWeek : (triple 4 '-' year month day ++ rest)[5]? ≠ some 'W' := by
    have first := head_fixed (n := month) two_ne_zero ('-' :: fixed 10 2 day ++ rest) (c := 'W')
      (by decide)
    rw [List.head?_eq_getElem?] at first
    simpa [triple, List.getElem?_append_right] using first
  have fourth : charAt ((triple 4 '-' year month day ++ rest).map .char) 4 '-' = true := by
    simp only [charAt, List.getElem?_map, hyphen, Option.map_some, decide_true]
  have fifth : charAt ((triple 4 '-' year month day ++ rest).map .char) 5 'W' = false := by
    simp only [charAt, List.getElem?_map, decide_eq_false_iff_not]
    intro same
    obtain ⟨c, found, same⟩ := Option.map_eq_some_iff.mp same
    cases same
    exact notWeek found
  rw [separatorLocation, if_pos fourth, fifth, Bool.false_and, if_neg Bool.false_ne_true,
    if_neg Bool.false_ne_true]

/-- No character of a time of the day begins an offset. -/
theorem clock_plain (hour minute second microsecond : Nat) :
    ∀ c ∈ triple 2 ':' hour minute second ++ fraction microsecond,
      (!(['+', '-', 'Z'].contains c)) = true := by
  have digit {width n : Nat} :
      ∀ c ∈ fixed 10 width n, (!(['+', '-', 'Z'].contains c)) = true := by
    intro c member
    rw [Bool.not_eq_true', List.contains_eq_mem, decide_eq_false_iff_not]
    intro sign
    have digit := isDigit_fixed c member
    simp only [List.mem_cons, List.not_mem_nil, or_false] at sign
    rcases sign with rfl | rfl | rfl <;> exact absurd digit (by decide)
  have colon : (!(['+', '-', 'Z'].contains ':')) = true := by decide
  have point : (!(['+', '-', 'Z'].contains '.')) = true := by decide
  intro c member
  rcases List.mem_append.mp member with inClock | inFraction
  · simp only [triple, List.mem_append, List.mem_cons] at inClock
    rcases inClock with inHour | rfl | inMinute | rfl | inSecond
    · exact digit c inHour
    · exact colon
    · exact digit c inMinute
    · exact colon
    · exact digit c inSecond
  · unfold fraction at inFraction
    split at inFraction
    · cases inFraction
    · rcases List.mem_cons.mp inFraction with rfl | inDigits
      · exact point
      · exact digit c inDigits

/-- A date, a time of the day and an offset, each as it is read. -/
theorem fromisoformat_of_parts {text : Str} {location : Nat} {dateText timeText clockText zone : List Char}
    {date : Date} {clock : (Nat × Nat × Nat) × Nat} {local' : DateTime} {offset : Int}
    {time : ZonedTime} (separates : separatorLocation text = location)
    (longer : ¬ text.length ≤ location)
    (before : Str.characters (text.take location) = some dateText)
    (after : Str.characters (text.drop (location + 1)) = some timeText)
    (parts : timeText.span (fun c => !(['+', '-', 'Z'].contains c)) = (clockText, zone))
    (isDate : readDate dateText = some date) (isClock : readClock clockText = some clock)
    (valid : DateTime.ofFields date clock.1 clock.2 = some local')
    (isOffset : readOffset zone = some (some offset))
    (utc : ZonedTime.ofLocal date (inMicroseconds clock) offset = some time) :
    Python.fromisoformat text = some (some time) := by
  simp only [Python.fromisoformat, separates, before, after, isDate, parts, if_neg longer, isClock,
    valid, isOffset, utc, Option.bind_eq_bind, Option.bind_some, Option.map_some]

/-- The offset that `isoformat` writes. -/
def utcOffset : List Char := ['+', '0', '0', ':', '0', '0']

/-- **What `isoformat` writes is read as the time itself.** -/
theorem fromisoformat_isoformat (d : DateTime) :
    Python.fromisoformat (Str.ofText d.isoformat) = some (some (.within d)) := by
  have days := daysInMonth_le d.year d.month
  have date := d.date
  have time := d.time
  have dateText : readDate (triple 4 '-' d.year d.month d.day) = some (d.year, d.month, d.day) :=
    readDate_triple (by omega) (by omega) (by omega)
  have timeText : readClock (triple 2 ':' d.hour d.minute d.second ++ fraction d.microsecond) =
      some ((d.hour, d.minute, d.second), d.microsecond) :=
    readClock_triple (by omega) (by omega) (by omega) time.2.2.2
  have plain := clock_plain d.hour d.minute d.second d.microsecond
  have text : d.isoformat = String.ofList (triple 4 '-' d.year d.month d.day ++ 'T' ::
      (triple 2 ':' d.hour d.minute d.second ++ fraction d.microsecond ++ utcOffset)) := by
    rw [DateTime.isoformat, List.append_assoc]
    rfl
  generalize triple 2 ':' d.hour d.minute d.second ++ fraction d.microsecond = clock
    at timeText plain text
  have location := separatorLocation_triple d.year d.month d.day ('T' :: (clock ++ utcOffset))
  have dateLength : (triple 4 '-' d.year d.month d.day).length = 10 := by simp [triple]
  generalize triple 4 '-' d.year d.month d.day = dateOf at dateText text location dateLength
  have before : (dateOf ++ 'T' :: (clock ++ utcOffset)).take 10 = dateOf := by
    rw [← dateLength, List.take_left]
  have after : (dateOf ++ 'T' :: (clock ++ utcOffset)).drop (10 + 1) = clock ++ utcOffset := by
    rw [← dateLength, List.drop_append, List.drop_of_length_le (Nat.le_succ _),
      Nat.add_sub_cancel_left]
    rfl
  have longer : ¬ ((dateOf ++ 'T' :: (clock ++ utcOffset)).map CodePoint.char).length ≤ 10 := by
    simp only [List.length_map, List.length_append, List.length_cons]
    omega
  have parts : (clock ++ utcOffset).span (fun c => !(['+', '-', 'Z'].contains c)) =
      (clock, utcOffset) := by
    rw [List.span_eq_takeWhile_dropWhile, List.takeWhile_append_of_pos plain,
      List.dropWhile_append_of_pos plain]
    simp [utcOffset]
  have zone : readOffset utcOffset = some (some 0) := by decide
  rw [Str.ofText, text, String.toList_ofList]
  refine fromisoformat_of_parts location longer ?_ ?_ parts dateText timeText
    (DateTime.ofFields_fields d) zone (ZonedTime.ofLocal_utc d)
  · rw [← List.map_take, before, Str.characters_map]
  · rw [← List.map_drop, after, Str.characters_map]

end LandVault.Python
