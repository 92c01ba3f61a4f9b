import LandVault.Spatial.GeometryValidation

/-!
# The grammar of boundaries

`Wkt` is the grammar that the validator is meant for: one polygon of rings, each a list
of points with decimal coordinates, read as exact rational numbers. The validator looks
for the rings inside the parentheses instead of reading from one end to the other, drops
empty points, and computes with floats; `Misjudged` names the texts on which that makes a
difference, and `judged_iff` says that there are no others.
-/

set_option autoImplicit false

namespace LandVault.Spatial

open Library.Binary64 Python

/-! ## Texts -/

def Blank (text : List Char) : Prop := ∀ c ∈ text, isSpace c = true

/-- The text is the keyword, in any case. -/
def Keyword (keyword text : List Char) : Prop :=
  List.Forall₂ (fun letter c => sameLetter letter c = true) keyword text

/-- A decimal numeral over these digits, and its value. -/
inductive Numeral (digit : Char → Bool) : List Char → Rat → Prop where
  | whole {negative : Bool} {whole : List Char} (nonempty : whole ≠ [])
      (digits : ∀ c ∈ whole, digit c = true) :
      Numeral digit (minus negative ++ whole) (decimalValue negative whole [])
  | fraction {negative : Bool} {whole fraction : List Char} (nonempty : whole ≠ [])
      (digits : ∀ c ∈ whole, digit c = true) (nonempty' : fraction ≠ [])
      (digits' : ∀ c ∈ fraction, digit c = true) :
      Numeral digit (minus negative ++ (whole ++ '.' :: fraction))
        (decimalValue negative whole fraction)

/-- Two numerals, with blanks between and around them. -/
inductive PointText (digit : Char → Bool) : List Char → Point → Prop where
  | mk {before gap after first second : List Char} {x y : Rat} (before_blank : Blank before)
      (first_numeral : Numeral digit first x) (nonempty : gap ≠ []) (gap_blank : Blank gap)
      (second_numeral : Numeral digit second y) (after_blank : Blank after) :
      PointText digit (before ++ (first ++ (gap ++ (second ++ after)))) (x, y)

/-- Points, with commas between them. -/
def RingText (digit : Char → Bool) (text : List Char) (points : List Point) : Prop :=
  ∃ pieces, pieces ≠ [] ∧ text = [','].intercalate pieces ∧
    List.Forall₂ (PointText digit) pieces points

/-- Items in parentheses, with commas between them and blanks around them. -/
inductive Listed {ρ : Type} (item : List Char → ρ → Prop) : List Char → List ρ → Prop where
  | last {before text after : List Char} {r : ρ} (before_blank : Blank before)
      (reads : item text r) (after_blank : Blank after) :
      Listed item (before ++ '(' :: (text ++ ')' :: after)) [r]
  | more {before text after rest : List Char} {r : ρ} {rs : List ρ} (before_blank : Blank before)
      (reads : item text r) (after_blank : Blank after) (others : Listed item rest rs) :
      Listed item (before ++ '(' :: (text ++ ')' :: (after ++ ',' :: rest))) (r :: rs)

/-- Twice the signed area of a closed ring. -/
def area (points : List Point) : Rat := shoelace (fun q => q) 0 points

def InRange (points : List Point) : Prop :=
  ∀ point ∈ points, (-180 ≤ point.1 ∧ point.1 ≤ 180) ∧ -90 ≤ point.2 ∧ point.2 ≤ 90

/-- What the grammar asks of the points of a ring. -/
structure WellFormed (isExterior : Bool) (points : List Point) : Prop where
  inRange : InRange points
  closed : points.head? = points.getLast?
  vertices : ∃ a ∈ points, ∃ b ∈ points, ∃ c ∈ points, a ≠ b ∧ b ≠ c ∧ a ≠ c
  winding : if isExterior then 0 < area points else area points < 0

/-- The prefix that names the reference system, or nothing. -/
inductive SridText : List Char → Prop where
  | none : SridText []
  | some {name gap : List Char} (keyword : Keyword ['S', 'R', 'I', 'D'] name) (gap_blank : Blank gap) :
      SridText (name ++ '=' :: '4' :: '3' :: '2' :: '6' :: ';' :: gap)

/-- **The grammar.** -/
inductive Wkt (s : String) : Prop where
  | polygon {before srid name gap body after : List Char} {exterior : List Point}
      {holes : List (List Point)}
      (text : s.toList = before ++ (srid ++ (name ++ (gap ++ '(' :: (body ++ ')' :: after)))))
      (before_blank : Blank before) (prefix' : SridText srid)
      (keyword : Keyword ['P', 'O', 'L', 'Y', 'G', 'O', 'N'] name) (gap_blank : Blank gap)
      (after_blank : Blank after) (rings : Listed (RingText Char.isDigit) body (exterior :: holes))
      (outline : WellFormed true exterior) (inner : ∀ hole ∈ holes, WellFormed false hole)

/-! ## Blanks -/

theorem Blank.append {a b : List Char} (first : Blank a) (second : Blank b) : Blank (a ++ b) :=
  fun c member => (List.mem_append.mp member).elim (first c) (second c)

theorem Blank.dropWhile {a : List Char} (blank : Blank a) (text : List Char) :
    (a ++ text).dropWhile isSpace = text.dropWhile isSpace :=
  List.dropWhile_append_of_pos blank

theorem Blank.takeWhile {a : List Char} (blank : Blank a) (text : List Char) :
    (a ++ text).takeWhile isSpace = a ++ text.takeWhile isSpace :=
  List.takeWhile_append_of_pos blank

/-- The text does not start with a blank. -/
def Solid (text : List Char) : Prop := ∀ c, text.head? = some c → isSpace c = false

theorem Solid.dropWhile {text : List Char} (solid : Solid text) : text.dropWhile isSpace = text := by
  cases text with
  | nil => rfl
  | cons c text => simp [solid c rfl]

theorem Solid.takeWhile {text : List Char} (solid : Solid text) : text.takeWhile isSpace = [] := by
  cases text with
  | nil => rfl
  | cons c text => simp [solid c rfl]

theorem solid_dropWhile (text : List Char) : Solid (text.dropWhile isSpace) := by
  intro c first
  have nonempty : text.dropWhile isSpace ≠ [] := by
    intro empty
    simp [empty] at first
  have stops := List.head_dropWhile_not isSpace nonempty
  rw [List.head?_eq_some_head nonempty, Option.some.injEq] at first
  rw [← first]
  exact stops

theorem exists_dropWhile (text : List Char) :
    ∃ before, Blank before ∧ text = before ++ text.dropWhile isSpace :=
  ⟨text.takeWhile isSpace, List.all_eq_true.mp List.all_takeWhile,
    (List.takeWhile_append_dropWhile).symm⟩

/-- A text is what `strip` leaves of it, with blanks around. -/
theorem exists_strip (text : List Char) :
    ∃ before after, Blank before ∧ Blank after ∧ text = before ++ (strip isSpace text ++ after) := by
  obtain ⟨before, blank, same⟩ := exists_dropWhile text
  obtain ⟨after, blank', same'⟩ := exists_dropWhile (text.dropWhile isSpace).reverse
  refine ⟨before, after.reverse, blank, fun c member => blank' c (List.mem_reverse.mp member), ?_⟩
  have back := congrArg List.reverse same'
  rw [List.reverse_reverse, List.reverse_append] at back
  rw [strip, ← back]
  exact same

/-- `strip` takes away the blanks around a text that neither starts nor ends with one. -/
theorem strip_between {before text after : List Char} (blank : Blank before) (blank' : Blank after)
    (starts : Solid text) (ends : Solid text.reverse) (nonempty : text ≠ []) :
    strip isSpace (before ++ (text ++ after)) = text := by
  have starts' : Solid (text ++ after) := by
    intro c first
    rw [List.head?_append_of_ne_nil _ nonempty] at first
    exact starts c first
  have blank'' : Blank after.reverse := fun c member => blank' c (List.mem_reverse.mp member)
  rw [strip, blank.dropWhile, starts'.dropWhile, List.reverse_append, blank''.dropWhile,
    ends.dropWhile, List.reverse_reverse]

/-! ## Keywords -/

theorem matchLiteral_iff (keyword text rest : List Char) :
    matchLiteral keyword text = some rest ↔ ∃ name, Keyword keyword name ∧ text = name ++ rest := by
  induction keyword generalizing text with
  | nil =>
      constructor
      · intro found
        exact ⟨[], .nil, Option.some.inj found⟩
      · rintro ⟨name, matched, rfl⟩
        cases matched
        rfl
  | cons letter keyword ih =>
      cases text with
      | nil =>
          constructor
          · intro found
            cases found
          · rintro ⟨name, matched, same⟩
            cases matched
            cases same
      | cons c text =>
          rw [matchLiteral]
          constructor
          · intro found
            split_ifs at found with same
            obtain ⟨name, matched, rfl⟩ := (ih text).mp found
            exact ⟨c :: name, .cons same matched, rfl⟩
          · rintro ⟨name, matched, whole⟩
            cases matched with
            | cons same matched =>
                cases whole
                rw [if_pos same]
                exact (ih _).mpr ⟨_, matched, rfl⟩

theorem eq_of_sameLetter {c : Char} (same : sameLetter 'P' c = true) : c = 'P' ∨ c = 'p' := by
  simpa [sameLetter, show Char.toLower 'P' = 'p' from rfl] using same

theorem polygon_solid {name rest : List Char}
    (keyword : Keyword ['P', 'O', 'L', 'Y', 'G', 'O', 'N'] name) : Solid (name ++ rest) := by
  intro c first
  cases keyword with
  | cons same _ =>
      cases first
      rcases eq_of_sameLetter same with rfl | rfl
      · decide
      · decide

theorem srid_solid {name rest : List Char} (keyword : Keyword ['S', 'R', 'I', 'D'] name) :
    Solid (name ++ rest) := by
  intro c first
  cases keyword with
  | cons same _ =>
      cases first
      simp only [sameLetter, Bool.or_eq_true, Bool.and_eq_true, beq_iff_eq] at same
      rcases same with ((rfl | rfl) | ⟨_, code⟩) | ⟨wrong, _⟩
      · decide
      · decide
      · simp only [isSpace, isBlank, code]
        decide
      · cases wrong

/-! ## Numerals -/

theorem decimal_blank {c : Char} (blank : isSpace c = true) : isDecimal c = false :=
  isDecimal_eq_false (.inl blank)

/-- The character is neither a digit nor a point. -/
def Stops (rest : List Char) : Prop := ∀ c, rest.head? = some c → isDecimal c = false ∧ c ≠ '.'

theorem takeWhile_digits {whole rest : List Char} (digits : ∀ c ∈ whole, isDecimal c = true)
    (stops : ∀ c, rest.head? = some c → isDecimal c = false) :
    (whole ++ rest).takeWhile isDecimal = whole ∧ (whole ++ rest).dropWhile isDecimal = rest := by
  rw [List.takeWhile_append_of_pos digits, List.dropWhile_append_of_pos digits]
  cases rest with
  | nil => simp
  | cons c rest => simp [stops c rfl]

/-- What is read is the numeral with the longest parts. -/
theorem matchNumber_append {numeral rest : List Char} {x : Rat}
    (reads : Numeral isDecimal numeral x) (stops : Stops rest) :
    matchNumber (numeral ++ rest) = some (x, rest) := by
  have unsigned : ∀ (negative : Bool) {text : List Char}, text ≠ [] →
      (∀ c ∈ text.head?, isDecimal c = true) →
      ((minus negative ++ text).head? == some '-') = negative ∧
        (if negative then (minus negative ++ text).tail else minus negative ++ text) = text := by
    intro negative text nonempty digit
    cases negative with
    | true => simp [minus]
    | false =>
        obtain ⟨c, text, rfl⟩ := List.exists_cons_of_ne_nil nonempty
        have other : c ≠ '-' := by
          rintro rfl
          have numeric := digit '-' rfl
          rw [isDecimal_eq_false (.inr (by decide))] at numeric
          cases numeric
        simp [minus, other]
  have leading : ∀ {whole text : List Char}, whole ≠ [] → (∀ c ∈ whole, isDecimal c = true) →
      whole ++ text ≠ [] ∧ ∀ c ∈ (whole ++ text).head?, isDecimal c = true := by
    intro whole text nonempty digits
    obtain ⟨c, whole, rfl⟩ := List.exists_cons_of_ne_nil nonempty
    refine ⟨by simp, fun d first => ?_⟩
    cases first
    exact digits c (by simp)
  cases reads with
  | @whole negative whole nonempty digits =>
      obtain ⟨nonempty', digits'⟩ := @leading _ rest nonempty digits
      obtain ⟨sign, text⟩ := unsigned negative nonempty' digits'
      obtain ⟨taken, dropped⟩ := takeWhile_digits digits fun c first => (stops c first).1
      have point : ¬ (rest.head? = some '.' ∧ rest.tail.takeWhile isDecimal ≠ []) := by
        rintro ⟨first, _⟩
        exact (stops '.' first).2 rfl
      rw [matchNumber, List.append_assoc]
      simp only [sign, text, taken, dropped, if_neg nonempty, if_neg point]
  | @fraction negative whole fraction nonempty digits nonempty' digits' =>
      have again : ((whole ++ '.' :: fraction) ++ rest) = whole ++ ('.' :: (fraction ++ rest)) := by
        simp
      obtain ⟨nonempty'', digits''⟩ :=
        @leading _ ('.' :: (fraction ++ rest)) nonempty digits
      obtain ⟨sign, text⟩ := unsigned negative nonempty'' digits''
      obtain ⟨taken, dropped⟩ := @takeWhile_digits _ ('.' :: (fraction ++ rest)) digits
        fun c first => by
          cases first
          exact isDecimal_eq_false (.inr (by decide))
      obtain ⟨taken', dropped'⟩ := takeWhile_digits digits' fun c first => (stops c first).1
      rw [matchNumber, List.append_assoc, again]
      simp only [sign, text, taken, dropped, if_neg nonempty, List.head?_cons, List.tail_cons,
        taken', dropped', ne_eq, nonempty', not_false_eq_true, and_self, if_true]

theorem numeral_of_matchNumber {text rest : List Char} {x : Rat}
    (found : matchNumber text = some (x, rest)) :
    ∃ numeral, Numeral isDecimal numeral x ∧ text = numeral ++ rest := by
  have digits : ∀ text : List Char, ∀ c ∈ text.takeWhile isDecimal, isDecimal c = true := by
    intro text
    exact List.all_eq_true.mp List.all_takeWhile
  obtain ⟨negative, unsigned, same, read⟩ : ∃ negative unsigned, text = minus negative ++ unsigned ∧
      matchNumber text = (
        let whole := unsigned.takeWhile isDecimal
        let rest := unsigned.dropWhile isDecimal
        if whole = [] then none
        else if rest.head? = some '.' ∧ rest.tail.takeWhile isDecimal ≠ [] then
          some (decimalValue negative whole (rest.tail.takeWhile isDecimal),
            rest.tail.dropWhile isDecimal)
        else some (decimalValue negative whole [], rest)) := by
    by_cases sign : text.head? = some '-'
    · obtain ⟨unsigned, rfl⟩ : ∃ unsigned, text = '-' :: unsigned := by
        cases text with
        | nil => cases sign
        | cons c text =>
            cases sign
            exact ⟨text, rfl⟩
      exact ⟨true, unsigned, rfl, by simp [matchNumber]⟩
    · have plain : (text.head? == some '-') = false := beq_eq_false_iff_ne.mpr sign
      exact ⟨false, text, rfl, by simp [matchNumber, plain]⟩
  rw [found] at read
  have split := (List.takeWhile_append_dropWhile (p := isDecimal) (l := unsigned)).symm
  simp only at read
  split_ifs at read with empty point
  · obtain ⟨first, nonempty⟩ := point
    obtain ⟨rfl, rfl⟩ := Prod.mk.inj (Option.some.inj read)
    refine ⟨_, .fraction empty (digits _) nonempty (digits _), ?_⟩
    obtain ⟨tail, shape⟩ : ∃ tail, unsigned.dropWhile isDecimal = '.' :: tail := by
      cases dropped : unsigned.dropWhile isDecimal with
      | nil => simp [dropped] at first
      | cons c tail =>
          rw [dropped] at first
          cases first
          exact ⟨tail, rfl⟩
    rw [same, shape, List.tail_cons, List.append_assoc, List.append_assoc, List.cons_append,
      List.takeWhile_append_dropWhile, ← shape, List.takeWhile_append_dropWhile]
  · obtain ⟨rfl, rfl⟩ := Prod.mk.inj (Option.some.inj read)
    exact ⟨_, .whole empty (digits _), by
      rw [same, List.append_assoc, List.takeWhile_append_dropWhile]⟩

/-- A numeral starts with a sign or a digit, and consists of such characters and a point. -/
theorem Numeral.chars {digit : Char → Bool} {numeral : List Char} {x : Rat}
    (reads : Numeral digit numeral x) :
    ∀ c ∈ numeral, digit c = true ∨ c = '-' ∨ c = '.' := by
  have sign : ∀ negative, ∀ c ∈ minus negative, c = '-' := by
    intro negative c member
    cases negative with
    | true => simpa [minus] using member
    | false => simp [minus] at member
  cases reads with
  | whole _ digits =>
      intro c member
      rcases List.mem_append.mp member with first | second
      · exact .inr (.inl (sign _ c first))
      · exact .inl (digits c second)
  | fraction _ digits _ digits' =>
      intro c member
      simp only [List.mem_append, List.mem_cons] at member
      rcases member with first | second | rfl | third
      · exact .inr (.inl (sign _ c first))
      · exact .inl (digits c second)
      · exact .inr (.inr rfl)
      · exact .inl (digits' c third)

theorem Numeral.nonempty {digit : Char → Bool} {numeral : List Char} {x : Rat}
    (reads : Numeral digit numeral x) : numeral ≠ [] := by
  cases reads with
  | whole nonempty => simp [nonempty]
  | fraction nonempty => simp [nonempty]

theorem Numeral.solid {numeral : List Char} {x : Rat} (reads : Numeral isDecimal numeral x) :
    ∀ c ∈ numeral, isSpace c = false := by
  intro c member
  rw [Bool.eq_false_iff]
  intro blank
  rcases reads.chars c member with digit | rfl | rfl
  · rw [decimal_blank blank] at digit
    cases digit
  · revert blank
    decide
  · revert blank
    decide

/-- Numerals over some of the digits of another numeral system are numerals there. -/
theorem Numeral.mono {digit digit' : Char → Bool} {numeral : List Char} {x : Rat}
    (reads : Numeral digit numeral x)
    (imp : ∀ c ∈ numeral, digit c = true → digit' c = true) : Numeral digit' numeral x := by
  cases reads with
  | whole nonempty digits =>
      exact .whole nonempty fun c member =>
        imp c (List.mem_append_right _ member) (digits c member)
  | fraction nonempty digits nonempty' digits' =>
      refine .fraction nonempty (fun c member => imp c ?_ (digits c member)) nonempty'
        fun c member => imp c ?_ (digits' c member)
      · simp [member]
      · simp [member]

/-! ## Points -/

theorem Solid.append {text rest : List Char} (solid : ∀ c ∈ text, isSpace c = false)
    (nonempty : text ≠ []) : Solid (text ++ rest) := by
  intro c first
  rw [List.head?_append_of_ne_nil _ nonempty] at first
  exact solid c (List.mem_of_head? first)

theorem Blank.stops {gap rest : List Char} (blank : Blank gap)
    (stops : gap ≠ [] ∨ rest = []) : Stops (gap ++ rest) := by
  intro c first
  have member : c ∈ gap := by
    rcases stops with nonempty | rfl
    · rw [List.head?_append_of_ne_nil _ nonempty] at first
      exact List.mem_of_head? first
    · rw [List.append_nil] at first
      exact List.mem_of_head? first
  refine ⟨decimal_blank (blank c member), ?_⟩
  rintro rfl
  exact absurd (blank '.' member) (by decide)

theorem matchPoint_iff (raw : List Char) (point : Point) :
    matchPoint raw = some point ↔ PointText isDecimal raw point := by
  constructor
  · intro found
    rw [matchPoint, Option.bind_eq_some_iff] at found
    obtain ⟨⟨x, rest⟩, first, found⟩ := found
    dsimp only at found
    split_ifs at found with empty
    rw [Option.bind_eq_some_iff] at found
    obtain ⟨⟨y, after⟩, second, found⟩ := found
    dsimp only at found
    split_ifs at found with blank
    cases found
    obtain ⟨numeral, reads, same⟩ := numeral_of_matchNumber first
    obtain ⟨numeral', reads', same'⟩ := numeral_of_matchNumber second
    obtain ⟨before, before_blank, whole⟩ := exists_dropWhile raw
    rw [whole, same, ← List.takeWhile_append_dropWhile (p := isSpace) (l := rest), same']
    exact .mk before_blank reads empty (List.all_eq_true.mp List.all_takeWhile) reads'
      (List.all_eq_true.mp blank)
  · rintro ⟨before_blank, first, nonempty, gap_blank, second, after_blank⟩
    rename_i before gap after numeral numeral' x y
    have next : Solid (numeral' ++ after) := .append second.solid second.nonempty
    rw [matchPoint, before_blank.dropWhile,
      (Solid.append first.solid first.nonempty).dropWhile,
      matchNumber_append first (gap_blank.stops (.inl nonempty)), Option.bind_some]
    simp only [gap_blank.takeWhile, next.takeWhile, List.append_nil, if_neg nonempty,
      gap_blank.dropWhile, next.dropWhile]
    have ends : Stops after := by simpa using @Blank.stops _ [] after_blank (.inr rfl)
    rw [matchNumber_append second ends, Option.bind_some, if_pos (List.all_eq_true.mpr after_blank)]

/-- The characters of a point. -/
theorem PointText.chars {digit : Char → Bool} {text : List Char} {point : Point}
    (reads : PointText digit text point) :
    ∀ c ∈ text, digit c = true ∨ c = '-' ∨ c = '.' ∨ isSpace c = true := by
  obtain ⟨before_blank, first, _, gap_blank, second, after_blank⟩ := reads
  intro c member
  simp only [List.mem_append] at member
  rcases member with blank | numeral | blank | numeral | blank
  · exact .inr (.inr (.inr (before_blank c blank)))
  · have := first.chars c numeral
    tauto
  · exact .inr (.inr (.inr (gap_blank c blank)))
  · have := second.chars c numeral
    tauto
  · exact .inr (.inr (.inr (after_blank c blank)))

theorem PointText.mono {digit digit' : Char → Bool} {text : List Char} {point : Point}
    (reads : PointText digit text point)
    (imp : ∀ c ∈ text, digit c = true → digit' c = true) : PointText digit' text point := by
  obtain ⟨before_blank, first, nonempty, gap_blank, second, after_blank⟩ := reads
  refine .mk before_blank (first.mono fun c member => imp c ?_) nonempty gap_blank
    (second.mono fun c member => imp c ?_) after_blank
  · simp [member]
  · simp [member]

/-- A point is not blank. -/
theorem PointText.not_blank {text : List Char} {point : Point}
    (reads : PointText isDecimal text point) : text.all isSpace = false := by
  obtain ⟨_, first, _, _, _, _⟩ := reads
  obtain ⟨c, numeral, rfl⟩ := List.exists_cons_of_ne_nil first.nonempty
  rw [List.all_eq_false]
  exact ⟨c, by simp, by simp [first.solid c (by simp)]⟩

/-! ## Rings -/

/-- The exact points of a ring as the validator splits it. -/
def exactPoints (ring : List Char) : Option (List Point) := (rawPoints ring).mapM matchPoint

/-- No piece between the commas of a ring is blank. -/
def Gapless (ring : List Char) : Prop := ∀ piece ∈ ring.splitOn ',', piece.all isSpace = false

/-- All digits of a ring are in ASCII. -/
def Ascii (ring : List Char) : Prop := ∀ c ∈ ring, isDecimal c = true → c.isDigit = true

theorem mapM_eq_some {α β : Type} {f : α → Option β} (xs : List α) (ys : List β) :
    xs.mapM f = some ys ↔ List.Forall₂ (fun x y => f x = some y) xs ys := by
  induction xs generalizing ys with
  | nil => simp [eq_comm]
  | cons x xs ih =>
      rw [List.mapM_cons]
      cases ys with
      | nil => simp [Option.bind_eq_some_iff]
      | cons y ys => simp [Option.bind_eq_some_iff, ih]

theorem exists_of_forall₂ {α β : Type} {R : α → β → Prop} {xs : List α} {ys : List β}
    (each : List.Forall₂ R xs ys) {x : α} (member : x ∈ xs) : ∃ y ∈ ys, R x y := by
  induction each with
  | nil => cases member
  | @cons first second xs ys related _ ih =>
      rcases List.mem_cons.mp member with rfl | later
      · exact ⟨second, by simp, related⟩
      · obtain ⟨y, mem, related⟩ := ih later
        exact ⟨y, List.mem_cons_of_mem _ mem, related⟩

theorem ringText_iff (ring : List Char) (points : List Point) :
    RingText isDecimal ring points ↔ Gapless ring ∧ exactPoints ring = some points := by
  constructor
  · rintro ⟨pieces, nonempty, rfl, reads⟩
    have plain : ∀ piece ∈ pieces, ',' ∉ piece ∧ piece.all isSpace = false := by
      intro piece member
      obtain ⟨point, _, read⟩ := exists_of_forall₂ reads member
      refine ⟨fun comma => ?_, read.not_blank⟩
      rcases read.chars ',' comma with digit | wrong | wrong | blank
      · rw [isDecimal_eq_false (.inr (by decide))] at digit
        cases digit
      · cases wrong
      · cases wrong
      · revert blank
        decide
    have split := List.splitOn_intercalate ',' (fun piece member => (plain piece member).1) nonempty
    refine ⟨fun piece member => (plain piece (split ▸ member)).2, ?_⟩
    have kept : rawPoints ([','].intercalate pieces) = pieces := by
      rw [rawPoints, split]
      exact List.filter_eq_self.mpr fun piece member => by simp [(plain piece member).2]
    rw [exactPoints, kept, mapM_eq_some]
    exact reads.imp fun piece point read => (matchPoint_iff piece point).mpr read
  · rintro ⟨gapless, read⟩
    have kept : rawPoints ring = ring.splitOn ',' :=
      List.filter_eq_self.mpr fun piece member => by simp [gapless piece member]
    rw [exactPoints, kept, mapM_eq_some] at read
    exact ⟨ring.splitOn ',', List.splitOn_ne_nil ',' ring, (List.intercalate_splitOn ',').symm,
      read.imp fun piece point => (matchPoint_iff piece point).mp⟩

theorem mem_intercalate {c : Char} {pieces : List (List Char)} {piece : List Char}
    (member : piece ∈ pieces) (mem : c ∈ piece) : c ∈ [','].intercalate pieces := by
  induction pieces with
  | nil => cases member
  | cons first pieces ih =>
      cases pieces with
      | nil =>
          rw [List.intercalate_singleton]
          exact List.mem_singleton.mp member ▸ mem
      | cons second pieces =>
          rw [List.intercalate_cons_cons]
          rcases List.mem_cons.mp member with rfl | later
          · simp [mem]
          · simp [ih later]

theorem of_mem_intercalate {c : Char} {pieces : List (List Char)}
    (member : c ∈ [','].intercalate pieces) : c = ',' ∨ ∃ piece ∈ pieces, c ∈ piece := by
  induction pieces with
  | nil => cases member
  | cons first pieces ih =>
      cases pieces with
      | nil =>
          rw [List.intercalate_singleton] at member
          exact .inr ⟨first, by simp, member⟩
      | cons second pieces =>
          rw [List.intercalate_cons_cons, List.mem_append, List.mem_append,
            List.mem_singleton] at member
          rcases member with (mem | comma) | later
          · exact .inr ⟨first, by simp, mem⟩
          · exact .inl comma
          · rcases ih later with comma | ⟨piece, mem, holds⟩
            · exact .inl comma
            · exact .inr ⟨piece, List.mem_cons_of_mem _ mem, holds⟩

/-- The characters of a ring. -/
theorem RingText.chars {digit : Char → Bool} {ring : List Char} {points : List Point}
    (reads : RingText digit ring points) :
    ∀ c ∈ ring, digit c = true ∨ c = '-' ∨ c = '.' ∨ isSpace c = true ∨ c = ',' := by
  obtain ⟨pieces, _, rfl, reads⟩ := reads
  intro c member
  rcases of_mem_intercalate member with comma | ⟨piece, mem, holds⟩
  · exact .inr (.inr (.inr (.inr comma)))
  · obtain ⟨point, _, read⟩ := exists_of_forall₂ reads mem
    have := read.chars c holds
    tauto

/-- The grammar allows the digits of ASCII only. -/
theorem ringText_isDigit_iff (ring : List Char) (points : List Point) :
    RingText Char.isDigit ring points ↔ Ascii ring ∧ RingText isDecimal ring points := by
  constructor
  · intro reads
    refine ⟨fun c member digit => ?_, ?_⟩
    · have other : ∀ d : Char, d.toNat < 48 → d ≠ c := by
        rintro d small rfl
        rw [isDecimal_eq_false (.inr small)] at digit
        cases digit
      rcases reads.chars c member with ascii | rfl | rfl | blank | rfl
      · exact ascii
      · exact absurd rfl (other _ (by decide))
      · exact absurd rfl (other _ (by decide))
      · rw [decimal_blank blank] at digit
        cases digit
      · exact absurd rfl (other _ (by decide))
    · obtain ⟨pieces, nonempty, same, reads⟩ := reads
      exact ⟨pieces, nonempty, same, reads.imp fun piece point read =>
        read.mono fun c _ => isDecimal_of_isDigit⟩
  · rintro ⟨ascii, pieces, nonempty, rfl, reads⟩
    refine ⟨pieces, nonempty, rfl, ?_⟩
    rw [List.forall₂_iff_get] at reads ⊢
    refine ⟨reads.1, fun i below below' => (reads.2 i below below').mono fun c member => ?_⟩
    exact ascii c (mem_intercalate (List.get_mem pieces ⟨i, below⟩) member)

/-! ## Lists of rings -/

/-- A ring as the validator finds it: whatever stands between two parentheses. -/
def Verbatim (text ring : List Char) : Prop := ring = text ∧ ∀ c ∈ text, c ≠ '(' ∧ c ≠ ')'

theorem findRingsFrom_append {text : List Char} (plain : ∀ c ∈ text, c ≠ '(' ∧ c ≠ ')')
    (ring : Option (List Char)) (rest : List Char) :
    findRingsFrom ring (text ++ rest) =
      findRingsFrom (ring.map fun found => text.reverse ++ found) rest := by
  induction text generalizing ring with
  | nil => cases ring <;> rfl
  | cons c text ih =>
      have other := plain c (by simp)
      rw [List.cons_append, findRingsFrom, if_neg other.1, if_neg other.2,
        ih fun d member => plain d (List.mem_cons_of_mem c member)]
      cases ring <;> simp

theorem Blank.plain {text : List Char} (blank : Blank text) : ∀ c ∈ text, c ≠ '(' ∧ c ≠ ')' := by
  intro c member
  have space := blank c member
  constructor
  · rintro rfl
    revert space
    decide
  · rintro rfl
    revert space
    decide

theorem findRingsFrom_blank {text : List Char} (blank : Blank text) (rest : List Char) :
    findRingsFrom none (text ++ rest) = findRingsFrom none rest :=
  findRingsFrom_append blank.plain none rest

/-- One ring is found, and the search goes on behind it. -/
theorem findRingsFrom_ring {before text : List Char} (blank : Blank before)
    (plain : ∀ c ∈ text, c ≠ '(' ∧ c ≠ ')') (rest : List Char) :
    findRingsFrom none (before ++ '(' :: (text ++ ')' :: rest)) =
      text :: findRingsFrom none rest := by
  rw [findRingsFrom_blank blank, findRingsFrom, if_pos rfl, findRingsFrom_append plain,
    findRingsFrom, if_neg (by decide), if_pos rfl]
  simp

theorem Listed.findRings {body : List Char} {rings : List (List Char)}
    (listed : Listed Verbatim body rings) : findRings body = rings := by
  unfold Spatial.findRings
  induction listed with
  | last before_blank reads after_blank =>
      obtain ⟨rfl, plain⟩ := reads
      have ends := findRingsFrom_blank after_blank []
      rw [List.append_nil] at ends
      rw [findRingsFrom_ring before_blank plain, ends, findRingsFrom]
  | more before_blank reads after_blank _ ih =>
      obtain ⟨rfl, plain⟩ := reads
      rw [findRingsFrom_ring before_blank plain, findRingsFrom_blank after_blank, findRingsFrom,
        if_neg (by decide), if_neg (by decide)]
      exact congrArg _ ih

/-- A list of items is a list of rings that are such items. -/
theorem listed_iff {ρ : Type} {item : List Char → ρ → Prop}
    (plain : ∀ {text r}, item text r → ∀ c ∈ text, c ≠ '(' ∧ c ≠ ')') (body : List Char)
    (rs : List ρ) :
    Listed item body rs ↔
      ∃ rings, Listed Verbatim body rings ∧ List.Forall₂ item rings rs := by
  constructor
  · intro listed
    induction listed with
    | last before_blank reads after_blank =>
        exact ⟨_, .last before_blank ⟨rfl, plain reads⟩ after_blank, .cons reads .nil⟩
    | more before_blank reads after_blank _ ih =>
        obtain ⟨rings, listed, each⟩ := ih
        exact ⟨_, .more before_blank ⟨rfl, plain reads⟩ after_blank listed, .cons reads each⟩
  · rintro ⟨rings, listed, each⟩
    induction listed generalizing rs with
    | last before_blank reads after_blank =>
        obtain ⟨rfl, _⟩ := reads
        cases each with
        | cons read rest =>
            cases rest
            exact .last before_blank read after_blank
    | more before_blank reads after_blank _ ih =>
        obtain ⟨rfl, _⟩ := reads
        cases each with
        | cons read rest => exact .more before_blank read after_blank (ih _ rest)

theorem RingText.plain {digit : Char → Bool} (decimal : ∀ c, digit c = true → isDecimal c = true)
    {ring : List Char} {points : List Point} (reads : RingText digit ring points) :
    ∀ c ∈ ring, c ≠ '(' ∧ c ≠ ')' := by
  intro c member
  have other : ∀ d : Char, d = '(' ∨ d = ')' → c ≠ d := by
    rintro d bracket rfl
    have unread : isDecimal c = false ∧ isSpace c = false ∧ c ≠ '-' ∧ c ≠ '.' ∧ c ≠ ',' := by
      rcases bracket with rfl | rfl
      · exact ⟨isDecimal_eq_false (.inr (by decide)), by decide⟩
      · exact ⟨isDecimal_eq_false (.inr (by decide)), by decide⟩
    obtain ⟨no_digit, solid, no_sign, no_point, no_comma⟩ := unread
    rcases reads.chars c member with digit | sign | point | blank | comma
    · exact Bool.false_ne_true (no_digit.symm.trans (decimal c digit))
    · exact no_sign sign
    · exact no_point point
    · exact Bool.false_ne_true (solid.symm.trans blank)
    · exact no_comma comma
  exact ⟨other _ (.inl rfl), other _ (.inr rfl)⟩

/-! ## The frame -/

theorem matchPolygon_iff (text group : List Char) :
    matchPolygon text = some group ↔
      ∃ name gap after, text = name ++ (gap ++ '(' :: (group ++ ')' :: after)) ∧
        Keyword ['P', 'O', 'L', 'Y', 'G', 'O', 'N'] name ∧ Blank gap ∧ Blank after := by
  rw [matchPolygon, Option.bind_eq_some_iff]
  constructor
  · rintro ⟨rest, found, ends⟩
    obtain ⟨name, keyword, rfl⟩ := (matchLiteral_iff _ _ _).mp found
    obtain ⟨gap, gap_blank, split⟩ := exists_dropWhile rest
    split at ends
    · rename_i inner opens
      obtain ⟨tail, tail_blank, split'⟩ := exists_dropWhile inner.reverse
      split at ends
      · rename_i body closes
        obtain rfl := Option.some.inj ends
        refine ⟨name, gap, tail.reverse, ?_, keyword, gap_blank,
          fun c member => tail_blank c (List.mem_reverse.mp member)⟩
        have back := congrArg List.reverse split'
        rw [List.reverse_reverse, closes, List.reverse_append, List.reverse_cons,
          List.append_assoc] at back
        rw [split, opens, back]
        rfl
      · cases ends
    · cases ends
  · rintro ⟨name, gap, after, rfl, keyword, gap_blank, after_blank⟩
    refine ⟨_, (matchLiteral_iff _ _ _).mpr ⟨name, keyword, rfl⟩, ?_⟩
    have opens : Solid ('(' :: (group ++ ')' :: after)) := by
      intro c first
      cases first
      decide
    have closes : Solid (')' :: group.reverse) := by
      intro c first
      cases first
      decide
    have tail_blank : Blank after.reverse := fun c member =>
      after_blank c (List.mem_reverse.mp member)
    rw [gap_blank.dropWhile, opens.dropWhile]
    simp only [List.reverse_append, List.reverse_cons, List.append_assoc, List.singleton_append,
      tail_blank.dropWhile, closes.dropWhile, List.reverse_reverse]

theorem matchSrid_append {name rest : List Char} (keyword : Keyword ['S', 'R', 'I', 'D'] name) :
    matchSrid (name ++ '=' :: '4' :: '3' :: '2' :: '6' :: ';' :: rest) =
      some (['4', '3', '2', '6'], rest) := by
  have found : matchLiteral ['S', 'R', 'I', 'D', '=']
      (name ++ '=' :: '4' :: '3' :: '2' :: '6' :: ';' :: rest) =
        some ('4' :: '3' :: '2' :: '6' :: ';' :: rest) := by
    refine (matchLiteral_iff _ _ _).mpr ⟨name ++ ['='], ?_, by simp⟩
    exact List.rel_append keyword (.cons (by decide) .nil)
  have digits : ∀ c ∈ ['4', '3', '2', '6'], isDecimal c = true :=
    List.all_eq_true.mp (by decide)
  obtain ⟨taken, dropped⟩ := @takeWhile_digits _ (';' :: rest) digits fun c first => by
    cases first
    decide
  rw [matchSrid, found, Option.bind_some]
  simp only [List.cons_append, List.nil_append] at taken dropped
  rw [taken, dropped]
  rfl

theorem srid_of_matchSrid {text digits rest : List Char}
    (found : matchSrid text = some (digits, rest)) :
    ∃ name, Keyword ['S', 'R', 'I', 'D'] name ∧ text = name ++ '=' :: (digits ++ ';' :: rest) := by
  rw [matchSrid, Option.bind_eq_some_iff] at found
  obtain ⟨number, literal, found⟩ := found
  obtain ⟨name, keyword, rfl⟩ := (matchLiteral_iff _ _ _).mp literal
  obtain ⟨front, keyword', rfl⟩ : ∃ front, Keyword ['S', 'R', 'I', 'D'] front ∧
      name = front ++ ['='] := by
    cases keyword with
    | cons s keyword => cases keyword with
      | cons r keyword => cases keyword with
        | cons i keyword => cases keyword with
          | cons d keyword => cases keyword with
            | cons sign keyword =>
                cases keyword
                rename_i c
                have equals : c = '=' := by
                  simpa [sameLetter, show Char.toLower '=' = '=' from rfl] using sign
                exact ⟨[_, _, _, _], .cons s (.cons r (.cons i (.cons d .nil))), by rw [equals]; rfl⟩
  split at found
  · rename_i taken dropped
    cases found
    refine ⟨front, keyword', ?_⟩
    rw [← taken, ← dropped, List.takeWhile_append_dropWhile, List.append_assoc]
    rfl
  · cases found

/-- What the validator reads between the parentheses of `POLYGON`. -/
def Framed (s : String) (group : List Char) : Prop :=
  ∃ text, bareText s.toList = .ok text ∧ matchPolygon text = some group

/-- The prefix, if there is one, names the reference system by the digits 4326. -/
def Spelled (s : String) : Prop :=
  ∀ digits rest, matchSrid (strip isSpace s.toList) = some (digits, rest) →
    digits = ['4', '3', '2', '6']

/-- The parts of a text around the list of rings. -/
structure Frame (s : String) (before srid name gap group after : List Char) : Prop where
  text : s.toList = before ++ (srid ++ (name ++ (gap ++ '(' :: (group ++ ')' :: after))))
  before_blank : Blank before
  prefix' : SridText srid
  keyword : Keyword ['P', 'O', 'L', 'Y', 'G', 'O', 'N'] name
  gap_blank : Blank gap
  after_blank : Blank after

theorem matchSrid_polygon {name rest : List Char}
    (keyword : Keyword ['P', 'O', 'L', 'Y', 'G', 'O', 'N'] name) :
    matchSrid (name ++ rest) = none := by
  cases keyword with
  | cons same _ =>
      rw [List.cons_append, matchSrid, matchLiteral, if_neg, Option.bind_none]
      rcases eq_of_sameLetter same with rfl | rfl
      · decide
      · decide

theorem closing_solid (front : List Char) : Solid (front ++ [')']).reverse := by
  intro c first
  rw [List.reverse_append] at first
  cases first
  decide

theorem Frame.framed {s : String} {before srid name gap group after : List Char}
    (frame : Frame s before srid name gap group after) : Framed s group ∧ Spelled s := by
  obtain ⟨text, before_blank, prefix', keyword, gap_blank, after_blank⟩ := frame
  obtain ⟨core, same⟩ : ∃ core, core = name ++ (gap ++ '(' :: (group ++ [')'])) := ⟨_, rfl⟩
  have polygon : matchPolygon core = some group :=
    (matchPolygon_iff _ _).mpr ⟨name, gap, [], same, keyword, gap_blank, by simp [Blank]⟩
  have starts : Solid core := same ▸ polygon_solid keyword
  have nonempty : core ≠ [] := by simp [same]
  have closes : ∀ front : List Char, Solid (front ++ core).reverse := by
    intro front
    have shape : front ++ core = (front ++ (name ++ (gap ++ '(' :: group))) ++ [')'] := by
      simp [same]
    rw [shape]
    exact closing_solid _
  cases prefix' with
  | none =>
      have bare : strip isSpace s.toList = core := by
        rw [← strip_between before_blank after_blank starts (closes []) nonempty, text, same]
        simp
      have nothing : matchSrid core = none := same ▸ matchSrid_polygon keyword
      refine ⟨⟨core, ?_, polygon⟩, fun digits rest found => ?_⟩
      · rw [bareText]
        simp only [bare, if_neg nonempty, nothing]
      · rw [bare, nothing] at found
        cases found
  | @some srid blank keyword' blank' =>
      have found := @matchSrid_append _ (blank ++ core) keyword'
      have bare : strip isSpace s.toList =
          srid ++ '=' :: '4' :: '3' :: '2' :: '6' :: ';' :: (blank ++ core) := by
        have ends := closes (srid ++ '=' :: '4' :: '3' :: '2' :: '6' :: ';' :: blank)
        simp only [List.append_assoc, List.cons_append] at ends
        rw [← strip_between before_blank after_blank (srid_solid keyword') ends (by simp), text,
          same]
        simp
      have inner : strip isSpace (blank ++ core) = core := by
        have stripped := @strip_between _ _ [] blank' (by simp [Blank]) starts (closes [])
          nonempty
        rwa [List.append_nil] at stripped
      have value : digitsValue ['4', '3', '2', '6'] = supportedSrid := by decide +kernel
      refine ⟨⟨core, ?_, polygon⟩, fun digits rest found' => ?_⟩
      · rw [bareText]
        simp only [bare, found, inner, value]
        rw [if_neg (by simp), if_neg (by decide), if_neg (by simp)]
      · rw [bare, found] at found'
        cases found'
        rfl

theorem Framed.frame {s : String} {group : List Char} (framed : Framed s group)
    (spelled : Spelled s) :
    ∃ before srid name gap after, Frame s before srid name gap group after := by
  obtain ⟨text, bare, polygon⟩ := framed
  obtain ⟨name, gap, after, same, keyword, gap_blank, after_blank⟩ :=
    (matchPolygon_iff _ _).mp polygon
  obtain ⟨before, behind, before_blank, behind_blank, whole⟩ := exists_strip s.toList
  rw [bareText] at bare
  split_ifs at bare
  cases found : matchSrid (strip isSpace s.toList) with
  | none =>
      rw [found] at bare
      cases bare
      refine ⟨before, [], name, gap, after ++ behind, ?_, before_blank, .none, keyword, gap_blank,
        after_blank.append behind_blank⟩
      rw [whole, same]
      simp
  | some srid =>
      obtain ⟨digits, rest⟩ := srid
      rw [found] at bare
      dsimp only at bare
      split_ifs at bare
      cases bare
      obtain rfl := spelled digits rest found
      obtain ⟨front, keyword', shape⟩ := srid_of_matchSrid found
      obtain ⟨blank, end', blank', end_blank, shape'⟩ := exists_strip rest
      refine ⟨before, front ++ '=' :: '4' :: '3' :: '2' :: '6' :: ';' :: blank, name, gap,
        after ++ (end' ++ behind), ?_, before_blank, .some keyword' blank', keyword, gap_blank,
        after_blank.append (end_blank.append behind_blank)⟩
      rw [whole, shape, shape', same]
      simp

/-- The grammar, in terms of what the validator finds. -/
theorem wkt_iff (s : String) :
    Wkt s ↔ ∃ group, Framed s group ∧ Spelled s ∧ ∃ exterior holes,
      Listed (RingText Char.isDigit) group (exterior :: holes) ∧ WellFormed true exterior ∧
        ∀ hole ∈ holes, WellFormed false hole := by
  constructor
  · rintro ⟨text, before_blank, prefix', keyword, gap_blank, after_blank, rings, outline, inner⟩
    have frame := Frame.framed ⟨text, before_blank, prefix', keyword, gap_blank, after_blank⟩
    exact ⟨_, frame.1, frame.2, _, _, rings, outline, inner⟩
  · rintro ⟨group, framed, spelled, exterior, holes, rings, outline, inner⟩
    obtain ⟨before, srid, name, gap, after, frame⟩ := framed.frame spelled
    exact .polygon frame.text frame.before_blank frame.prefix' frame.keyword frame.gap_blank
      frame.after_blank rings outline inner

end LandVault.Spatial
