import LandVault.Python.Decimals

/-!
# The validator of boundaries

`app/contexts/spatial/domain/geometry_validation.py`. Texts are lists of characters. The
regular expressions are read as the `re` module reads them: `\s` and `\d` go by Unicode,
a repetition takes as much as it can, and `findall` looks for the next ring anywhere in
the rest of the text. Coordinates are floats, so every operation on them rounds.
-/

set_option autoImplicit false

namespace LandVault.Spatial

open Library.Binary64 Python

/-! ## Errors -/

/-- The reasons of an `InvalidGeometryError`. -/
inductive GeometryDefect where
  | empty
  | unsupportedCrs (srid : Nat)
  | notPolygon
  | noRings
  | noWellFormedRings
  | tooFewPoints (count : Nat)
  | invalidPair (raw : List Char)
  | longitude (x : Rat)
  | latitude (y : Rat)
  | notClosed
  | exteriorWinding
  | interiorWinding
  deriving DecidableEq

/-- `SUPPORTED_SRID`. -/
def supportedSrid : Nat := 4326

/-- The message of the error; `repr` prints a float. -/
def GeometryDefect.message (repr : Rat → String) : GeometryDefect → String
  | .empty => "boundary must not be empty"
  | .unsupportedCrs srid =>
      s!"unsupported CRS: SRID {srid} (only {supportedSrid} is supported)"
  | .notPolygon =>
      "boundary must be a well-formed WKT POLYGON, e.g. 'POLYGON((0 0, 0 1, 1 1, 1 0, 0 0))'"
  | .noRings => "polygon has no rings"
  | .noWellFormedRings => "polygon has no well-formed rings"
  | .tooFewPoints count =>
      s!"each ring needs at least 4 points (3 distinct vertices plus the closing point); got {count}"
  | .invalidPair raw => "invalid coordinate pair: " ++ reprString (String.ofList raw)
  | .longitude x => "longitude out of range: " ++ repr x
  | .latitude y => "latitude out of range: " ++ repr y
  | .notClosed => "ring is not closed: first and last points differ"
  | .exteriorWinding =>
      "exterior ring must be wound counter-clockwise (OGC Simple Features convention)"
  | .interiorWinding =>
      "interior ring (hole) must be wound clockwise (OGC Simple Features convention)"

/-- What the validator raises: its own error, or the `ValueError` of `int` for a text with
too many digits. -/
inductive WktError where
  | invalidGeometry (defect : GeometryDefect)
  | tooManyDigits (count : Nat)
  deriving DecidableEq

/-! ## Regular expressions -/

/-- Whether the letter of a pattern matches under `re.IGNORECASE`. -/
def sameLetter (letter c : Char) : Bool :=
  c == letter || c == letter.toLower ||
    (letter == 'S' && c.toNat == 0x17f) ||
    (letter == 'I' && (c.toNat == 0x130 || c.toNat == 0x131))

/-- What follows a literal at the start of a text. -/
def matchLiteral : List Char → List Char → Option (List Char)
  | [], text => some text
  | letter :: literal, c :: text => if sameLetter letter c then matchLiteral literal text else none
  | _ :: _, [] => none

/-- `_EWKT_SRID_RE`: the digits, and what follows the match. -/
def matchSrid (text : List Char) : Option (List Char × List Char) :=
  (matchLiteral ['S', 'R', 'I', 'D', '='] text).bind fun rest =>
    match rest.takeWhile isDecimal, rest.dropWhile isDecimal with
    | digit :: digits, ';' :: rest => some (digit :: digits, rest)
    | _, _ => none

/-- `_POLYGON_RE`: its group, which ends before the last parenthesis of the text. -/
def matchPolygon (text : List Char) : Option (List Char) :=
  (matchLiteral ['P', 'O', 'L', 'Y', 'G', 'O', 'N'] text).bind fun rest =>
    match rest.dropWhile isSpace with
    | '(' :: rest =>
        match rest.reverse.dropWhile isSpace with
        | ')' :: body => some body.reverse
        | _ => none
    | _ => none

/-- `_RING_RE.findall`: `ring` is what follows the last opening parenthesis, if no
parenthesis has come since, in reverse. -/
def findRingsFrom (ring : Option (List Char)) : List Char → List (List Char)
  | [] => []
  | c :: text =>
      if c = '(' then findRingsFrom (some []) text
      else if c = ')' then ring.toList.map List.reverse ++ findRingsFrom none text
      else findRingsFrom (ring.map (c :: ·)) text

def findRings (body : List Char) : List (List Char) := findRingsFrom none body

/-- A number of `_POINT_RE` at the start of a text, and what follows it. -/
def matchNumber (text : List Char) : Option (Rat × List Char) :=
  let negative := text.head? == some '-'
  let unsigned := if negative then text.tail else text
  let whole := unsigned.takeWhile isDecimal
  let rest := unsigned.dropWhile isDecimal
  if whole = [] then none
  else if rest.head? = some '.' ∧ rest.tail.takeWhile isDecimal ≠ [] then
    some (decimalValue negative whole (rest.tail.takeWhile isDecimal), rest.tail.dropWhile isDecimal)
  else some (decimalValue negative whole [], rest)

/-- `_POINT_RE`: the exact values of its groups. -/
def matchPoint (raw : List Char) : Option (Rat × Rat) :=
  (matchNumber (raw.dropWhile isSpace)).bind fun (x, rest) =>
    if rest.takeWhile isSpace = [] then none
    else
      (matchNumber (rest.dropWhile isSpace)).bind fun (y, rest) =>
        if rest.all isSpace then some (x, y) else none

/-! ## Points and rings -/

abbrev Point : Type := Rat × Rat

/-- `float` of both groups. -/
def toFloat (point : Point) : Point := (binary64 point.1, binary64 point.2)

/-- `_parse_point`. -/
def parsePoint (raw : List Char) : Except GeometryDefect Point :=
  match matchPoint raw with
  | none => .error (.invalidPair raw)
  | some exact =>
      let (x, y) := toFloat exact
      if ¬ (-180 ≤ x ∧ x ≤ 180) then .error (.longitude x)
      else if ¬ (-90 ≤ y ∧ y ≤ 90) then .error (.latitude y)
      else .ok (x, y)

/-- `[p for p in raw.split(",") if p.strip()]`. -/
def rawPoints (raw : List Char) : List (List Char) :=
  (raw.splitOn ',').filter fun piece => !piece.all isSpace

/-- `_parse_ring`. -/
def parseRing (raw : List Char) : Except GeometryDefect (List Point) := do
  if (rawPoints raw).length < 4 then .error (.tooFewPoints (rawPoints raw).length)
  let points ← (rawPoints raw).mapM parsePoint
  if points.head? ≠ points.getLast? then .error .notClosed
  pure points

/-- The terms of the shoelace formula; `round` rounds the result of an operation. -/
def shoelace (round : Rat → Rat) : Rat → List Point → Rat
  | total, p :: q :: points =>
      shoelace round
        (round (total + round (round (p.1 * q.2) - round (q.1 * p.2)))) (q :: points)
  | total, _ => total

/-- `_signed_area`. -/
def signedArea (points : List Point) : Rat := shoelace binary64 0 points

/-- `_validate_ring_winding`. -/
def validateRingWinding (points : List Point) (isExterior : Bool) : Except GeometryDefect Unit :=
  let isCcw := 0 < signedArea points
  if isExterior ∧ ¬ isCcw then .error .exteriorWinding
  else if ¬ isExterior ∧ isCcw then .error .interiorWinding
  else .ok ()

/-- The body of the loop over the rings. -/
def validateRing (isExterior : Bool) (raw : List Char) : Except GeometryDefect Unit := do
  let points ← parseRing raw
  validateRingWinding points isExterior

/-! ## The validator -/

/-- The text without the prefix that names the reference system. -/
def bareText (raw : List Char) : Except WktError (List Char) :=
  let text := strip isSpace raw
  if text = [] then .error (.invalidGeometry .empty)
  else
    match matchSrid text with
    | none => .ok text
    | some (digits, rest) =>
        if maxStrDigits < digits.length then .error (.tooManyDigits digits.length)
        else if digitsValue digits ≠ supportedSrid then
          .error (.invalidGeometry (.unsupportedCrs (digitsValue digits)))
        else .ok (strip isSpace rest)

/-- The checks of the rings, the exterior one first. -/
def validateRings (body : List Char) : Except GeometryDefect Unit :=
  match findRings body with
  | [] => .error .noWellFormedRings
  | exterior :: holes => do
      validateRing true exterior
      let _ ← holes.mapM (validateRing false)
      pure ()

/-- `validate_wkt_polygon`. -/
def validateWktPolygon (raw : String) : Except WktError String := do
  let text ← bareText raw.toList
  match matchPolygon text with
  | none => .error (.invalidGeometry .notPolygon)
  | some group =>
      let body := strip isSpace group
      if body = [] then .error (.invalidGeometry .noRings)
      (validateRings body).mapError .invalidGeometry
      pure ("POLYGON(" ++ String.ofList body ++ ")")

end LandVault.Spatial
