import LandVault.Spatial.WktGrammar

/-!
# What the validator gets wrong

`Judged s` says that the validator decides the text `s` by the grammar. `Misjudged` names
the texts on which it does not: a prefix with other digits, text between the rings, empty
points, digits outside ASCII, a hole without area, and coordinates that rounding moves.
`judged_iff` says that these are all of them.
-/

set_option autoImplicit false

namespace LandVault.Spatial

open Library.Binary64 Python

/-! ## What the validator accepts -/

/-- The ring passes the checks, which are made on the rounded points. -/
structure Fits (isExterior : Bool) (ring : List Char) (points : List Point) : Prop where
  reads : exactPoints ring = some points
  long : 4 ≤ points.length
  inRange : InRange (points.map toFloat)
  closed : (points.map toFloat).head? = (points.map toFloat).getLast?
  winding : isExterior = true ↔ 0 < signedArea (points.map toFloat)

theorem parsePoint_ok_iff (raw : List Char) (point : Point) :
    parsePoint raw = .ok point ↔ ∃ exact, matchPoint raw = some exact ∧ toFloat exact = point ∧
      (-180 ≤ point.1 ∧ point.1 ≤ 180) ∧ -90 ≤ point.2 ∧ point.2 ≤ 90 := by
  unfold parsePoint
  cases matchPoint raw with
  | none => simp
  | some exact =>
      dsimp only
      constructor
      · intro ok
        split_ifs at ok with longitude latitude
        cases ok
        exact ⟨exact, rfl, rfl, longitude, latitude⟩
      · rintro ⟨other, same, rfl, longitude, latitude⟩
        cases same
        rw [if_neg (not_not.mpr longitude), if_neg (not_not.mpr latitude)]

theorem mapM_eq_ok {ε α β : Type} {f : α → Except ε β} (xs : List α) (ys : List β) :
    xs.mapM f = .ok ys ↔ List.Forall₂ (fun x y => f x = .ok y) xs ys := by
  induction xs generalizing ys with
  | nil => simp [pure, Except.pure, eq_comm]
  | cons x xs ih =>
      rw [List.mapM_cons]
      cases first : f x with
      | error e =>
          constructor
          · intro ok
            cases ok
          · intro each
            cases each with
            | cons read _ => simp [first] at read
      | ok y =>
          cases rest : xs.mapM f with
          | error e =>
              constructor
              · intro ok
                cases ok
              · intro each
                cases each with
                | cons _ others => simp [(ih _).mpr others] at rest
          | ok others =>
              constructor
              · intro ok
                cases ok
                exact .cons first ((ih _).mp rest)
              · intro each
                cases each with
                | cons read others' =>
                    cases first.symm.trans read
                    cases rest.symm.trans ((ih _).mpr others')
                    rfl

theorem mapM_parsePoint (raws : List (List Char)) (points : List Point) :
    raws.mapM parsePoint = .ok points ↔
      ∃ exact, raws.mapM matchPoint = some exact ∧ exact.map toFloat = points ∧ InRange points := by
  rw [mapM_eq_ok]
  constructor
  · intro each
    induction each with
    | nil => exact ⟨[], rfl, rfl, by simp [InRange]⟩
    | cons read _ ih =>
        obtain ⟨others, found, same, inRange⟩ := ih
        obtain ⟨exact, first, rounded, bounds⟩ := (parsePoint_ok_iff _ _).mp read
        refine ⟨exact :: others, ?_, by rw [List.map_cons, rounded, same], ?_⟩
        · rw [mapM_eq_some] at found ⊢
          exact .cons first found
        · intro point member
          rcases List.mem_cons.mp member with rfl | later
          · exact bounds
          · exact inRange point later
  · rintro ⟨exact, found, rfl, inRange⟩
    rw [mapM_eq_some] at found
    induction found with
    | nil => exact .nil
    | @cons raw first raws others read _ ih =>
        refine .cons ((parsePoint_ok_iff _ _).mpr ⟨first, read, rfl, inRange _ (by simp)⟩) (ih ?_)
        exact fun point member => inRange point (List.mem_cons_of_mem _ member)

theorem parseRing_eq (ring : List Char) :
    parseRing ring =
      if (rawPoints ring).length < 4 then .error (.tooFewPoints (rawPoints ring).length)
      else
        match (rawPoints ring).mapM parsePoint with
        | .error e => .error e
        | .ok points =>
            if points.head? = points.getLast? then .ok points else .error .notClosed := by
  unfold parseRing
  split_ifs with few
  · rfl
  · cases (rawPoints ring).mapM parsePoint with
    | error e => rfl
    | ok points =>
        by_cases closed : points.head? = points.getLast?
        · simp [closed, pure, Except.pure, bind, Except.bind]
        · simp [closed, bind, Except.bind]

theorem parseRing_ok_iff (ring : List Char) (points : List Point) :
    parseRing ring = .ok points ↔ ∃ exact, exactPoints ring = some exact ∧
      exact.map toFloat = points ∧ 4 ≤ exact.length ∧ InRange points ∧
        points.head? = points.getLast? := by
  have counted : ∀ {exact}, exactPoints ring = some exact →
      (rawPoints ring).length = exact.length := fun read =>
    ((mapM_eq_some _ _).mp read).length_eq
  rw [parseRing_eq]
  constructor
  · intro ok
    split_ifs at ok with few
    cases parsed : (rawPoints ring).mapM parsePoint with
    | error e =>
        rw [parsed] at ok
        cases ok
    | ok found =>
        rw [parsed] at ok
        dsimp only at ok
        split_ifs at ok with closed
        cases ok
        obtain ⟨exact, read, same, inRange⟩ := (mapM_parsePoint _ _).mp parsed
        exact ⟨exact, read, same, counted read ▸ not_lt.mp few, inRange, closed⟩
  · rintro ⟨exact, read, same, long, inRange, closed⟩
    have parsed := (mapM_parsePoint (rawPoints ring) points).mpr ⟨exact, read, same, inRange⟩
    rw [if_neg (not_lt.mpr (counted read ▸ long)), parsed]
    dsimp only
    rw [if_pos closed]

theorem validateRing_ok_iff (isExterior : Bool) (ring : List Char) :
    validateRing isExterior ring = .ok () ↔ ∃ points, Fits isExterior ring points := by
  have wound : ∀ points, validateRingWinding points isExterior = .ok () ↔
      (isExterior = true ↔ 0 < signedArea points) := by
    intro points
    unfold validateRingWinding
    dsimp only
    split_ifs with outer inner
    · simp [outer.1, outer.2]
    · simp [inner.2, inner.1]
    · simp
      tauto
  unfold validateRing
  constructor
  · intro ok
    cases parsed : parseRing ring with
    | error e =>
        rw [parsed] at ok
        cases ok
    | ok points =>
        rw [parsed] at ok
        obtain ⟨exact, reads, rfl, long, inRange, closed⟩ := (parseRing_ok_iff _ _).mp parsed
        exact ⟨exact, reads, long, inRange, closed, (wound _).mp ok⟩
  · rintro ⟨exact, reads, long, inRange, closed, winding⟩
    rw [(parseRing_ok_iff _ _).mpr ⟨exact, reads, rfl, long, inRange, closed⟩]
    exact (wound _).mpr winding

/-- The rings that the validator finds: the first one is the exterior. -/
inductive Found (group : List Char) : Bool → List Char → Prop where
  | exterior {ring : List Char} {holes : List (List Char)} (rings : findRings group = ring :: holes) :
      Found group true ring
  | hole {ring hole : List Char} {holes : List (List Char)} (rings : findRings group = ring :: holes)
      (member : hole ∈ holes) : Found group false hole

/-- The rings that the validator finds pass its checks. -/
def Passes (group : List Char) : Prop :=
  findRings group ≠ [] ∧
    ∀ {isExterior ring}, Found group isExterior ring → ∃ points, Fits isExterior ring points

theorem found_iff {group exterior : List Char} {holes : List (List Char)}
    (rings : findRings group = exterior :: holes) (holds : Bool → List Char → Prop) :
    (∀ {isExterior ring}, Found group isExterior ring → holds isExterior ring) ↔
      holds true exterior ∧ ∀ hole ∈ holes, holds false hole := by
  constructor
  · exact fun each => ⟨each (.exterior rings), fun hole member => each (.hole rings member)⟩
  · rintro ⟨outline, inner⟩ isExterior ring found
    cases found with
    | exterior rings' =>
        cases rings.symm.trans rings'
        exact outline
    | hole rings' member =>
        cases rings.symm.trans rings'
        exact inner _ member

theorem validateRings_ok_iff (group : List Char) : validateRings group = .ok () ↔ Passes group := by
  unfold validateRings Passes
  cases rings : findRings group with
  | nil => simp
  | cons exterior holes =>
      dsimp only
      have each : (∃ results, holes.mapM (validateRing false) = .ok results) ↔
          ∀ hole ∈ holes, ∃ points, Fits false hole points := by
        constructor
        · rintro ⟨results, ok⟩ hole member
          obtain ⟨_, _, read⟩ := exists_of_forall₂ ((mapM_eq_ok _ _).mp ok) member
          exact (validateRing_ok_iff _ _).mp read
        · intro fits
          refine ⟨holes.map fun _ => (), (mapM_eq_ok _ _).mpr ?_⟩
          rw [List.forall₂_map_right_iff, List.forall₂_same]
          exact fun hole member => (validateRing_ok_iff _ _).mpr (fits hole member)
      rw [found_iff rings fun isExterior ring => ∃ points, Fits isExterior ring points]
      constructor
      · intro ok
        cases outer : validateRing true exterior with
        | error e =>
            rw [outer] at ok
            cases ok
        | ok result =>
            rw [outer] at ok
            cases inner : holes.mapM (validateRing false) with
            | error e =>
                rw [inner] at ok
                cases ok
            | ok results =>
                exact ⟨by simp, (validateRing_ok_iff _ _).mp outer, each.mp ⟨results, inner⟩⟩
      · rintro ⟨_, outline, inner⟩
        obtain ⟨results, inner⟩ := each.mpr inner
        have outer := (validateRing_ok_iff _ _).mpr outline
        simp only [outer, inner, bind, Except.bind]
        rfl

/-- Blanks behind the list of rings make no difference. -/
theorem findRingsFrom_trailing {after : List Char} (blank : Blank after) (text : List Char)
    (ring : Option (List Char)) : findRingsFrom ring (text ++ after) = findRingsFrom ring text := by
  induction text generalizing ring with
  | nil =>
      have passed := findRingsFrom_append blank.plain ring []
      rw [List.append_nil] at passed
      rw [List.nil_append, passed, findRingsFrom, findRingsFrom]
  | cons c text ih =>
      rw [List.cons_append, findRingsFrom, findRingsFrom, ih, ih, ih]

theorem findRings_strip (group : List Char) : findRings (strip isSpace group) = findRings group := by
  obtain ⟨before, after, before_blank, after_blank, same⟩ := exists_strip group
  have whole := congrArg findRings same
  unfold findRings at whole ⊢
  rw [whole, findRingsFrom_blank before_blank, findRingsFrom_trailing after_blank]

theorem Framed.unique {s : String} {group group' : List Char} (framed : Framed s group)
    (framed' : Framed s group') : group = group' := by
  obtain ⟨text, bare, found⟩ := framed
  obtain ⟨text', bare', found'⟩ := framed'
  cases bare.symm.trans bare'
  exact Option.some.inj (found.symm.trans found')

/-- What the validator does, from the text without the prefix on. -/
theorem validateWktPolygon_eq (s : String) :
    validateWktPolygon s =
      match bareText s.toList with
      | .error e => .error e
      | .ok text =>
          match matchPolygon text with
          | none => .error (.invalidGeometry .notPolygon)
          | some group =>
              if strip isSpace group = [] then .error (.invalidGeometry .noRings)
              else
                match validateRings (strip isSpace group) with
                | .error defect => .error (.invalidGeometry defect)
                | .ok () => .ok ("POLYGON(" ++ String.ofList (strip isSpace group) ++ ")") := by
  unfold validateWktPolygon
  cases bareText s.toList with
  | error e => rfl
  | ok text =>
      simp only [bind, Except.bind]
      cases matchPolygon text with
      | none => rfl
      | some group =>
          dsimp only
          split_ifs with empty
          · rfl
          · cases validateRings (strip isSpace group) with
            | error defect => rfl
            | ok result => rfl

theorem accepted_iff (s : String) :
    (∃ text, validateWktPolygon s = .ok text) ↔ ∃ group, Framed s group ∧ Passes group := by
  have checked : ∀ group, validateRings (strip isSpace group) = .ok () ↔ Passes group := by
    intro group
    have same : ∀ isExterior ring,
        Found (strip isSpace group) isExterior ring ↔ Found group isExterior ring := by
      intro isExterior ring
      constructor
      · rintro (rings | ⟨rings, member⟩)
        · exact .exterior (findRings_strip group ▸ rings)
        · exact .hole (findRings_strip group ▸ rings) member
      · rintro (rings | ⟨rings, member⟩)
        · exact .exterior ((findRings_strip group).trans rings)
        · exact .hole ((findRings_strip group).trans rings) member
    rw [validateRings_ok_iff, Passes, Passes, findRings_strip]
    simp only [same]
  rw [validateWktPolygon_eq]
  constructor
  · rintro ⟨result, ok⟩
    cases bare : bareText s.toList with
    | error e => simp [bare] at ok
    | ok text =>
        cases found : matchPolygon text with
        | none => simp [bare, found] at ok
        | some group =>
            rw [bare] at ok
            simp only [found] at ok
            split_ifs at ok
            cases passed : validateRings (strip isSpace group) with
            | error defect => simp [passed] at ok
            | ok result => exact ⟨group, ⟨text, bare, found⟩, (checked group).mp passed⟩
  · rintro ⟨group, ⟨text, bare, found⟩, passes⟩
    have nonempty : strip isSpace group ≠ [] := by
      intro empty
      exact passes.1 (by rw [← findRings_strip, empty]; rfl)
    simp only [bare, found, if_neg nonempty, (checked group).mpr passes]
    exact ⟨_, rfl⟩

/-- The digits of the prefix are too many for `int`. -/
def ManyDigits (s : String) : Prop :=
  ∃ digits rest, matchSrid (strip isSpace s.toList) = some (digits, rest) ∧
    maxStrDigits < digits.length

/-- There is no other error than the validator's own, but for the one of `int`. -/
theorem other_error_iff (s : String) :
    (∃ e, validateWktPolygon s = .error e ∧ ∀ defect, e ≠ .invalidGeometry defect) ↔
      ManyDigits s := by
  rw [validateWktPolygon_eq]
  have bare : (∃ e, bareText s.toList = .error e ∧ ∀ defect, e ≠ .invalidGeometry defect) ↔
      ManyDigits s := by
    unfold bareText ManyDigits
    cases found : matchSrid (strip isSpace s.toList) with
    | none =>
        simp only [found]
        split_ifs <;> simp
    | some srid =>
        obtain ⟨digits, rest⟩ := srid
        have nonempty : strip isSpace s.toList ≠ [] := by
          rintro empty
          rw [empty] at found
          cases found
        simp only [found]
        rw [if_neg nonempty]
        split_ifs with many other
        · simp [many]
        · simp [many]
        · simp [many]
  rw [← bare]
  cases bareText s.toList with
  | error e => simp
  | ok text =>
      dsimp only
      cases matchPolygon text with
      | none => simp
      | some group =>
          dsimp only
          split_ifs
          · simp
          · cases validateRings (strip isSpace group) with
            | error defect => simp
            | ok result => simp

/-! ## Closed rings with an area -/

/-- The formula is additive in what it starts from. -/
theorem shoelace_add (total : Rat) (points : List Point) :
    shoelace (fun q => q) total points = total + area points := by
  unfold area
  induction points generalizing total with
  | nil => simp [shoelace]
  | cons p points ih =>
      cases points with
      | nil => simp [shoelace]
      | cons q points =>
          rw [shoelace, shoelace, ih, ih (0 + _)]
          ring

/-- Along points whose products are differences of a potential, the terms cancel. -/
theorem area_of_potential (g : Point → Rat) (p : Point) (points : List Point)
    (products : ∀ a ∈ p :: points, ∀ b ∈ p :: points, a.1 * b.2 - b.1 * a.2 = g b - g a) :
    area (p :: points) = g ((p :: points).getLast (by simp)) - g p := by
  induction points generalizing p with
  | nil => simp [area, shoelace]
  | cons q points ih =>
      have rest := ih q fun a mem b mem' =>
        products a (List.mem_cons_of_mem p mem) b (List.mem_cons_of_mem p mem')
      have first := products p (by simp) q (by simp)
      rw [area, shoelace, shoelace_add, rest, first, List.getLast_cons_cons]
      ring

/-- A closed ring with an area has three vertices. -/
theorem three_vertices {points : List Point} (closed : points.head? = points.getLast?)
    (surface : area points ≠ 0) :
    ∃ a ∈ points, ∃ b ∈ points, ∃ c ∈ points, a ≠ b ∧ b ≠ c ∧ a ≠ c := by
  by_contra few
  push Not at few
  cases points with
  | nil => exact surface rfl
  | cons a points =>
      have last : (a :: points).getLast (by simp) = a := by
        rw [List.head?_cons, List.getLast?_eq_getLast_of_ne_nil (by simp)] at closed
        exact (Option.some.inj closed).symm
      have two : ∃ b, ∀ c ∈ a :: points, c = a ∨ c = b := by
        by_cases all : ∀ c ∈ a :: points, c = a
        · exact ⟨a, fun c member => .inl (all c member)⟩
        · push Not at all
          obtain ⟨b, member, other⟩ := all
          refine ⟨b, fun c member' => ?_⟩
          by_contra neither
          push Not at neither
          exact neither.1 (few a (by simp) b member c member' other.symm neither.2.symm).symm
      obtain ⟨b, two⟩ := two
      by_cases same : a = b
      · have flat := area_of_potential (fun _ => 0) a points fun c member d member' => by
          have first : c = a := by simpa [same] using two c member
          have second : d = a := by simpa [same] using two d member'
          rw [first, second]
          ring
        exact surface (by simpa using flat)
      · have flat := area_of_potential
          (fun q => if q = b then a.1 * b.2 - b.1 * a.2 else 0) a points fun c member d member' => by
            rcases two c member with rfl | rfl <;> rcases two d member' with rfl | rfl
            · simp
            · simp [same]
            · simp [same]
            · simp
        rw [last, sub_self] at flat
        exact surface flat

/-- A closed list with three different elements has four places. -/
theorem four_le_length {points : List Point} (closed : points.head? = points.getLast?)
    (vertices : ∃ a ∈ points, ∃ b ∈ points, ∃ c ∈ points, a ≠ b ∧ b ≠ c ∧ a ≠ c) :
    4 ≤ points.length := by
  obtain ⟨a, mem, b, mem', c, mem'', ab, bc, ac⟩ := vertices
  match points, closed with
  | [], _ => cases mem
  | [p], _ =>
      rw [List.mem_singleton] at mem mem'
      exact absurd (mem.trans mem'.symm) ab
  | [p, q], closed =>
      obtain rfl : p = q := by simpa using closed
      simp only [List.mem_cons, List.not_mem_nil, or_false, or_self] at mem mem'
      exact absurd (mem.trans mem'.symm) ab
  | [p, q, r], closed =>
      obtain rfl : p = r := by simpa using closed
      simp only [List.mem_cons, List.not_mem_nil, or_false] at mem mem' mem''
      rcases mem with rfl | rfl | rfl <;> rcases mem' with rfl | rfl | rfl <;>
        rcases mem'' with rfl | rfl | rfl <;> simp_all
  | _ :: _ :: _ :: _ :: _, _ => simp

/-- Rounding keeps a point in range. -/
theorem InRange.toFloat {points : List Point} (inRange : InRange points) :
    InRange (points.map toFloat) := by
  intro point member
  obtain ⟨exact, mem, rfl⟩ := List.mem_map.mp member
  obtain ⟨longitude, latitude⟩ := inRange exact mem
  constructor
  · exact abs_le.mp (abs_binary64_le (n := 180) (abs_le.mpr (by exact_mod_cast longitude)) (by decide))
  · exact abs_le.mp (abs_binary64_le (n := 90) (abs_le.mpr (by exact_mod_cast latitude)) (by decide))

theorem closed_toFloat {points : List Point} (closed : points.head? = points.getLast?) :
    (points.map toFloat).head? = (points.map toFloat).getLast? := by
  rw [List.head?_map, List.getLast?_map, closed]

/-! ## The texts on which the validator and the grammar differ -/

/-- What the grammar asks of a ring. -/
structure Proper (isExterior : Bool) (ring : List Char) (points : List Point) : Prop where
  gapless : Gapless ring
  ascii : Ascii ring
  reads : exactPoints ring = some points
  wellFormed : WellFormed isExterior points

theorem proper_iff (isExterior : Bool) (ring : List Char) (points : List Point) :
    Proper isExterior ring points ↔
      RingText Char.isDigit ring points ∧ WellFormed isExterior points := by
  rw [ringText_isDigit_iff, ringText_iff]
  constructor
  · rintro ⟨gapless, ascii, reads, wellFormed⟩
    exact ⟨⟨ascii, gapless, reads⟩, wellFormed⟩
  · rintro ⟨⟨ascii, gapless, reads⟩, wellFormed⟩
    exact ⟨gapless, ascii, reads, wellFormed⟩

theorem exists_forall₂ {α β : Type} {R : α → β → Prop} {xs : List α}
    (each : ∀ x ∈ xs, ∃ y, R x y) : ∃ ys, List.Forall₂ R xs ys := by
  induction xs with
  | nil => exact ⟨[], .nil⟩
  | cons x xs ih =>
      obtain ⟨y, first⟩ := each x (by simp)
      obtain ⟨ys, rest⟩ := ih fun x' member => each x' (List.mem_cons_of_mem x member)
      exact ⟨y :: ys, .cons first rest⟩

/-- The grammar, ring by ring. -/
theorem wkt_iff_found (s : String) :
    Wkt s ↔ ∃ group, Framed s group ∧ Spelled s ∧ Listed Verbatim group (findRings group) ∧
      findRings group ≠ [] ∧
        ∀ {isExterior ring}, Found group isExterior ring → ∃ points, Proper isExterior ring points := by
  have plain : ∀ {text r}, RingText Char.isDigit text r → ∀ c ∈ text, c ≠ '(' ∧ c ≠ ')' :=
    fun reads => reads.plain fun c => isDecimal_of_isDigit
  rw [wkt_iff]
  constructor
  · rintro ⟨group, framed, spelled, exterior, holes, listed, outline, inner⟩
    obtain ⟨rings, listed, each⟩ := (listed_iff plain _ _).mp listed
    have rings_eq := listed.findRings
    refine ⟨group, framed, spelled, rings_eq ▸ listed, ?_⟩
    cases each with
    | cons read reads =>
        rw [rings_eq, found_iff rings_eq fun isExterior ring => ∃ points, Proper isExterior ring points]
        refine ⟨by simp, ⟨_, (proper_iff _ _ _).mpr ⟨read, outline⟩⟩, fun hole member => ?_⟩
        obtain ⟨points, member', read'⟩ := exists_of_forall₂ reads member
        exact ⟨points, (proper_iff _ _ _).mpr ⟨read', inner points member'⟩⟩
  · rintro ⟨group, framed, spelled, listed, nonempty, each⟩
    obtain ⟨ring, rest, rings⟩ := List.exists_cons_of_ne_nil nonempty
    rw [found_iff rings fun isExterior ring => ∃ points, Proper isExterior ring points] at each
    obtain ⟨⟨exterior, outline⟩, inner⟩ := each
    obtain ⟨holes, reads⟩ := exists_forall₂ inner
    obtain ⟨read, outline⟩ := (proper_iff _ _ _).mp outline
    refine ⟨group, framed, spelled, exterior, holes, (listed_iff plain _ _).mpr
      ⟨ring :: rest, rings ▸ listed, .cons read (reads.imp fun hole points proper =>
        ((proper_iff _ _ _).mp proper).1)⟩, outline, fun points member => ?_⟩
    obtain ⟨hole, _, proper⟩ := exists_of_forall₂ (List.Forall₂.flip reads) member
    exact proper.wellFormed

/-- How a ring that the validator lets through fails to be one of the grammar. -/
inductive Flaw (isExterior : Bool) (ring : List Char) (points : List Point) : Prop where
  /-- A piece between two commas is blank, and dropped. -/
  | gap (blank : ¬ Gapless ring)
  /-- A digit is not in ASCII. -/
  | script (digit : ¬ Ascii ring)
  /-- A coordinate lies outside the range, and rounds into it. -/
  | range (outside : ¬ InRange points)
  /-- The first and the last point differ, and round to one. -/
  | opened (differ : points.head? ≠ points.getLast?)
  /-- The ring has no area, or the wrong orientation and an area that rounds away. -/
  | winding (wrong : ¬ if isExterior then 0 < area points else area points < 0)

/-- **The misjudged texts.** -/
inductive Misjudged (s : String) : Prop where
  /-- The digits of the prefix are too many for `int`, whose error is another one. -/
  | manyDigits (digits : ManyDigits s)
  /-- The prefix spells 4326 with other digits, and the rest passes. -/
  | spelling {group : List Char} (framed : Framed s group) (passes : Passes group)
      (other : ¬ Spelled s)
  /-- More than the rings, blanks and commas stands inside, and the rings pass. -/
  | stray {group : List Char} (framed : Framed s group) (passes : Passes group)
      (extra : ¬ Listed Verbatim group (findRings group))
  /-- The rings pass, and one of them is not of the grammar. -/
  | ring {group ring : List Char} {isExterior : Bool} {points : List Point}
      (framed : Framed s group) (passes : Passes group) (found : Found group isExterior ring)
      (reads : exactPoints ring = some points) (flaw : Flaw isExterior ring points)
  /-- The area of a ring of the grammar rounds to one of the wrong sign. -/
  | rounding {group ring : List Char} {isExterior : Bool} {points : List Point} (wkt : Wkt s)
      (framed : Framed s group) (found : Found group isExterior ring)
      (reads : exactPoints ring = some points)
      (flips : ¬ (isExterior = true ↔ 0 < signedArea (points.map toFloat)))

/-- The validator decides a text by the grammar, and raises no other error than its own. -/
def Judged (s : String) : Prop :=
  ((∃ text, validateWktPolygon s = .ok text) ↔ Wkt s) ∧
    ∀ e, validateWktPolygon s = .error e → ∃ defect, e = .invalidGeometry defect

theorem Fits.proper {isExterior : Bool} {ring : List Char} {points : List Point}
    (fits : Fits isExterior ring points) (sound : ¬ Flaw isExterior ring points) :
    Proper isExterior ring points := by
  have closed : points.head? = points.getLast? := by
    by_contra differ
    exact sound (.opened differ)
  have winding : if isExterior then 0 < area points else area points < 0 := by
    by_contra wrong
    exact sound (.winding wrong)
  have surface : area points ≠ 0 := by
    cases isExterior with
    | true => exact ne_of_gt (by simpa using winding)
    | false => exact ne_of_lt (by simpa using winding)
  exact {
    gapless := by
      by_contra blank
      exact sound (.gap blank)
    ascii := by
      by_contra digit
      exact sound (.script digit)
    reads := fits.reads
    wellFormed := {
      inRange := by
        by_contra outside
        exact sound (.range outside)
      closed := closed
      vertices := three_vertices closed surface
      winding := winding } }

theorem Proper.no_flaw {isExterior : Bool} {ring : List Char} {points : List Point}
    (proper : Proper isExterior ring points) : ¬ Flaw isExterior ring points := by
  intro flaw
  cases flaw with
  | gap blank => exact blank proper.gapless
  | script digit => exact digit proper.ascii
  | range outside => exact outside proper.wellFormed.inRange
  | opened differ => exact differ proper.wellFormed.closed
  | winding wrong => exact wrong proper.wellFormed.winding

theorem Proper.fits {isExterior : Bool} {ring : List Char} {points : List Point}
    (proper : Proper isExterior ring points)
    (winding : isExterior = true ↔ 0 < signedArea (points.map toFloat)) :
    Fits isExterior ring points where
  reads := proper.reads
  long := four_le_length proper.wellFormed.closed proper.wellFormed.vertices
  inRange := proper.wellFormed.inRange.toFloat
  closed := closed_toFloat proper.wellFormed.closed
  winding := winding

theorem Misjudged.not_judged {s : String} (misjudged : Misjudged s) : ¬ Judged s := by
  rintro ⟨decides, errors⟩
  have wkt : ∀ {group}, Framed s group → Passes group → Spelled s ∧
      Listed Verbatim group (findRings group) ∧ ∀ {isExterior ring},
        Found group isExterior ring → ∃ points, Proper isExterior ring points := by
    intro group framed passes
    obtain ⟨group', framed', spelled, listed, _, each⟩ :=
      (wkt_iff_found s).mp (decides.mp ((accepted_iff s).mpr ⟨group, framed, passes⟩))
    cases framed.unique framed'
    exact ⟨spelled, listed, each⟩
  cases misjudged with
  | manyDigits digits =>
      obtain ⟨e, raised, other⟩ := (other_error_iff s).mpr digits
      obtain ⟨defect, same⟩ := errors e raised
      exact other defect same
  | spelling framed passes other => exact other (wkt framed passes).1
  | stray framed passes extra => exact extra (wkt framed passes).2.1
  | ring framed passes found reads flaw =>
      obtain ⟨points, proper⟩ := (wkt framed passes).2.2 found
      cases reads.symm.trans proper.reads
      exact proper.no_flaw flaw
  | rounding wkt framed found reads flips =>
      obtain ⟨group', framed', _, each⟩ := (accepted_iff s).mp (decides.mpr wkt)
      cases framed.unique framed'
      obtain ⟨points, fits⟩ := each found
      cases reads.symm.trans fits.reads
      exact flips fits.winding

/-- A list of rings starts with a blank or a parenthesis. -/
theorem Listed.starts {ρ : Type} {item : List Char → ρ → Prop} {body : List Char} {rs : List ρ}
    (listed : Listed item body rs) : ∀ c, body.head? = some c → isSpace c = true ∨ c = '(' := by
  have first : ∀ {before rest : List Char}, Blank before →
      ∀ c, (before ++ '(' :: rest).head? = some c → isSpace c = true ∨ c = '(' := by
    intro before rest blank c starts
    cases before with
    | nil => exact .inr (Option.some.inj starts).symm
    | cons d before =>
        cases starts
        exact .inl (blank c (by simp))
  cases listed with
  | last before_blank => exact first before_blank
  | more before_blank => exact first before_blank

/-- A letter before the ring goes unnoticed. -/
theorem strayLetter_not_judged : ¬ Judged "POLYGON(x(0 0,1 0,1 1,0 0))" := by
  have framed : Framed "POLYGON(x(0 0,1 0,1 1,0 0))" "x(0 0,1 0,1 1,0 0)".toList :=
    ⟨"POLYGON(x(0 0,1 0,1 1,0 0))".toList, by decide +kernel, by decide +kernel⟩
  have passes : Passes "x(0 0,1 0,1 1,0 0)".toList :=
    (validateRings_ok_iff _).mp (by decide +kernel)
  refine Misjudged.not_judged (.stray framed passes fun listed => ?_)
  rcases listed.starts 'x' (by decide +kernel) with blank | bracket
  · revert blank
    decide
  · revert bracket
    decide

/-- **The validator decides exactly the texts that are not among the misjudged ones.** -/
theorem judged_iff (s : String) : Judged s ↔ ¬ Misjudged s := by
  refine ⟨fun judged misjudged => misjudged.not_judged judged, fun none => ⟨⟨?_, ?_⟩, ?_⟩⟩
  · intro accepted
    obtain ⟨group, framed, passes⟩ := (accepted_iff s).mp accepted
    refine (wkt_iff_found s).mpr ⟨group, framed, ?_, ?_, passes.1, fun found => ?_⟩
    · by_contra other
      exact none (.spelling framed passes other)
    · by_contra extra
      exact none (.stray framed passes extra)
    · obtain ⟨points, fits⟩ := passes.2 found
      exact ⟨points, fits.proper fun flaw => none (.ring framed passes found fits.reads flaw)⟩
  · intro wkt
    obtain ⟨group, framed, _, _, nonempty, each⟩ := (wkt_iff_found s).mp wkt
    refine (accepted_iff s).mpr ⟨group, framed, nonempty, fun found => ?_⟩
    obtain ⟨points, proper⟩ := each found
    refine ⟨points, proper.fits ?_⟩
    by_contra flips
    exact none (.rounding wkt framed found proper.reads flips)
  · intro e raised
    by_contra other
    push Not at other
    exact none (.manyDigits ((other_error_iff s).mp ⟨e, raised, other⟩))

end LandVault.Spatial
