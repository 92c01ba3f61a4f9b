import LandVault.Spatial.ParcelGeometry
import LandVault.Spatial.WktJudgement

/-!
# The stored boundary

The validator answers with a text of its own: the body of the polygon between the keyword
and two parentheses. Read again, this text frames the same body, so it is its own answer,
with the same rings in it.
-/

set_option autoImplicit false

namespace LandVault.Spatial

open LandVault.Kernel LandVault.Python

/-- The rings that the validator finds in a text. -/
def ringTexts (raw : String) : Option (List (List Char)) :=
  (bareText raw.toList).toOption.bind fun text =>
    (matchPolygon text).map fun group => findRings (strip isSpace group)

/-- The points of these rings, in their order. -/
def ringPoints (raw : String) : Option (List (List Point)) :=
  (ringTexts raw).bind fun rings => (rings.mapM parseRing).toOption

theorem solid_strip (text : List Char) :
    Solid (strip isSpace text) ∧ Solid (strip isSpace text).reverse := by
  constructor
  · obtain ⟨after, _, same⟩ := exists_dropWhile (text.dropWhile isSpace).reverse
    have back := congrArg List.reverse same
    rw [List.reverse_reverse, List.reverse_append] at back
    intro c first
    refine solid_dropWhile text c ?_
    rw [back, List.head?_append]
    rw [strip] at first
    rw [first]
    rfl
  · rw [strip, List.reverse_reverse]
    exact solid_dropWhile _

theorem strip_strip (text : List Char) :
    strip isSpace (strip isSpace text) = strip isSpace text := by
  by_cases empty : strip isSpace text = []
  · rw [empty]
    rfl
  · obtain ⟨starts, ends⟩ := solid_strip text
    have between := @strip_between [] _ [] (by simp [Blank]) (by simp [Blank]) starts ends empty
    rwa [List.append_nil, List.nil_append] at between

/-- A text that starts with the keyword and ends with a parenthesis is read as it is. -/
theorem bareText_polygon (body : List Char) :
    bareText ("POLYGON(" ++ String.ofList body ++ ")").toList =
        .ok ("POLYGON(" ++ String.ofList body ++ ")").toList ∧
      matchPolygon ("POLYGON(" ++ String.ofList body ++ ")").toList = some body := by
  have keyword : Keyword ['P', 'O', 'L', 'Y', 'G', 'O', 'N'] ['P', 'O', 'L', 'Y', 'G', 'O', 'N'] := by
    repeat refine .cons (by decide) ?_
    exact .nil
  have text : ("POLYGON(" ++ String.ofList body ++ ")").toList =
      ['P', 'O', 'L', 'Y', 'G', 'O', 'N'] ++ ([] ++ '(' :: (body ++ ')' :: [])) := by
    simp
  have starts : Solid ("POLYGON(" ++ String.ofList body ++ ")").toList :=
    text ▸ polygon_solid keyword
  have ends : Solid ("POLYGON(" ++ String.ofList body ++ ")").toList.reverse := by
    rw [String.toList_append]
    exact closing_solid _
  have nonempty : ("POLYGON(" ++ String.ofList body ++ ")").toList ≠ [] := by simp [text]
  have stripped := @strip_between [] _ [] (by simp [Blank]) (by simp [Blank]) starts ends nonempty
  rw [List.append_nil, List.nil_append] at stripped
  have nothing : matchSrid ("POLYGON(" ++ String.ofList body ++ ")").toList = none :=
    text ▸ matchSrid_polygon keyword
  constructor
  · rw [bareText]
    simp only [stripped, if_neg nonempty, nothing]
  · exact (matchPolygon_iff _ _).mpr ⟨_, [], [], text, keyword, by simp [Blank], by simp [Blank]⟩

/-- The rings that pass have points. -/
theorem exists_points {body : List Char} (passes : Passes body) :
    ∃ points, (findRings body).mapM parseRing = .ok points ∧ points ≠ [] := by
  obtain ⟨nonempty, fits⟩ := passes
  have parses : ∀ ring ∈ findRings body, ∃ points, parseRing ring = .ok points := by
    intro ring member
    obtain ⟨isExterior, found⟩ : ∃ isExterior, Found body isExterior ring := by
      cases rings : findRings body with
      | nil => exact absurd rings nonempty
      | cons exterior holes =>
          rw [rings] at member
          rcases List.mem_cons.mp member with rfl | hole
          · exact ⟨true, .exterior rings⟩
          · exact ⟨false, .hole rings hole⟩
    have valid := (validateRing_ok_iff isExterior ring).mpr (fits found)
    unfold validateRing at valid
    cases parsed : parseRing ring with
    | error e =>
        rw [parsed] at valid
        cases valid
    | ok points => exact ⟨points, rfl⟩
  obtain ⟨points, each⟩ := exists_forall₂ parses
  refine ⟨points, (mapM_eq_ok _ _).mpr each, ?_⟩
  rintro rfl
  exact nonempty (List.forall₂_nil_right_iff.mp each)

/-- **The stored boundary is canonical**: what the validator answers it accepts again with the
same answer, and finds the same rings and points in it as in the submitted text. A geometry
stores such an answer. -/
theorem canonical_boundary :
    (∀ s r : String, validateWktPolygon s = .ok r →
      validateWktPolygon r = .ok r ∧ ringTexts r = ringTexts s ∧ ringPoints r = ringPoints s ∧
        ∃ rings, ringPoints s = some rings ∧ rings ≠ []) ∧
    ∀ (geometryId : UUID) (now : DateTime) (tenantId parcelId s createdBy : String)
      (geometry : ParcelGeometry),
      ParcelGeometry.new validateWktPolygon geometryId now tenantId parcelId s createdBy =
        .ok geometry →
      validateWktPolygon geometry.boundary = .ok geometry.boundary ∧
        ringTexts geometry.boundary = ringTexts s ∧ ringPoints geometry.boundary = ringPoints s := by
  have fixed : ∀ s r : String, validateWktPolygon s = .ok r →
      validateWktPolygon r = .ok r ∧ ringTexts r = ringTexts s ∧ ringPoints r = ringPoints s ∧
        ∃ rings, ringPoints s = some rings ∧ rings ≠ [] := by
    intro s r accepted
    rw [validateWktPolygon_eq] at accepted
    cases bare : bareText s.toList with
    | error e => simp [bare] at accepted
    | ok text =>
        cases found : matchPolygon text with
        | none => simp [bare, found] at accepted
        | some group =>
            rw [bare] at accepted
            simp only [found] at accepted
            split_ifs at accepted with empty
            cases passed : validateRings (strip isSpace group) with
            | error defect => simp [passed] at accepted
            | ok result =>
                rw [passed] at accepted
                cases accepted
                obtain ⟨bare', found'⟩ := bareText_polygon (strip isSpace group)
                have texts : ringTexts s = some (findRings (strip isSpace group)) := by
                  simp [ringTexts, bare, found, Except.toOption]
                have texts' : ringTexts ("POLYGON(" ++ String.ofList (strip isSpace group) ++ ")") =
                    some (findRings (strip isSpace group)) := by
                  simp only [ringTexts, bare', found', Except.toOption, Option.bind_some,
                    Option.map_some, strip_strip]
                have same := texts'.trans texts.symm
                refine ⟨?_, same, by rw [ringPoints, ringPoints, same], ?_⟩
                · rw [validateWktPolygon_eq, bare']
                  simp only [found', strip_strip, if_neg empty, passed]
                · obtain ⟨points, parsed, nonempty⟩ :=
                    exists_points ((validateRings_ok_iff _).mp passed)
                  refine ⟨points, ?_, nonempty⟩
                  rw [ringPoints, texts, Option.bind_some, parsed]
                  rfl
  refine ⟨fixed, fun geometryId now tenantId parcelId s createdBy geometry made => ?_⟩
  unfold ParcelGeometry.new at made
  cases accepted : validateWktPolygon s with
  | error e =>
      rw [accepted] at made
      cases made
  | ok r =>
      rw [accepted] at made
      cases made
      obtain ⟨again, texts, points, _⟩ := fixed s r accepted
      exact ⟨again, texts, points⟩

/-- Blanks, a prefix and a line break around a square. -/
theorem canonical_boundary_square :
    validateWktPolygon " srid=4326; polygon (\n (0 0, 1 0, 1 1, 0 0) )" =
      .ok "POLYGON((0 0, 1 0, 1 1, 0 0))" ∧
    validateWktPolygon "POLYGON((0 0, 1 0, 1 1, 0 0))" = .ok "POLYGON((0 0, 1 0, 1 1, 0 0))" := by
  have accepted : validateWktPolygon " srid=4326; polygon (\n (0 0, 1 0, 1 1, 0 0) )" =
      .ok "POLYGON((0 0, 1 0, 1 1, 0 0))" := by decide +kernel
  exact ⟨accepted, (canonical_boundary.1 _ _ accepted).1⟩

end LandVault.Spatial
