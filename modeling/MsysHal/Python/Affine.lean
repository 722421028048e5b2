import MsysHal.Python.Validation

/-!
# Touch affine documents

The documents of the touch calibration in `msys_hal/ch347.py`: the persisted
`touch_affine.env`, the runtime document the display provider reads, and the
receipt it writes back. A document is the ASCII text of a file, one assignment a
line; this module holds its writer, its reader and the checks on a matrix.

Floating point enters through `Floats`: a finite `float` is its exact value, and
an operation on floats is the exact operation followed by `Floats.round`.
-/

namespace MsysHal.Ch347

open Python (Value PyFloat)

/-! ## Text -/

/-- The line boundaries of `str.splitlines` that are ASCII. -/
def isLineBreak (c : Char) : Bool :=
  c == '\n' || c == '\r' || c == '\x0b' || c == '\x0c' || c == '\x1c' || c == '\x1d' || c == '\x1e'

/-- The ASCII characters that `str.strip` removes. -/
def isSpace (c : Char) : Bool :=
  isLineBreak c || c == ' ' || c == '\t' || c == '\x1f'

/-- `str.splitlines` when `line` has been read of the current line. -/
def splitlinesFrom (line : List Char) : List Char → List (List Char)
  | [] => if line.isEmpty then [] else [line]
  | '\r' :: '\n' :: rest => line :: splitlinesFrom [] rest
  | c :: rest =>
    if isLineBreak c then line :: splitlinesFrom [] rest else splitlinesFrom (line ++ [c]) rest

/-- `text.splitlines()`. -/
def splitlines (text : List Char) : List (List Char) := splitlinesFrom [] text

/-- `text.strip()`. -/
def strip (text : List Char) : List Char := (text.dropWhile isSpace).rdropWhile isSpace

/-- `"\n".join(lines) + "\n"`. -/
def document (lines : List (List Char)) : List Char := lines.flatMap (· ++ ['\n'])

/-- Digits with single underscores between them; `digit` tells whether the
    character before is a digit. -/
def isGrouped (digit : Bool) : List Char → Bool
  | [] => digit
  | c :: rest =>
    if c.isDigit then isGrouped true rest else c == '_' && digit && isGrouped false rest

/-- `int(text, 10)` without a sign. -/
def natOf (text : List Char) : Option Nat :=
  if isGrouped false text then some (Nat.ofDigitChars 10 (text.filter Char.isDigit) 0) else none

/-- `int(text, 10)`; `none` for a `ValueError`. -/
def intOf (text : List Char) : Option Int :=
  match strip text with
  | '-' :: digits => (natOf digits).map fun n : Nat => -(n : Int)
  | '+' :: digits => (natOf digits).map fun n : Nat => (n : Int)
  | digits => (natOf digits).map fun n : Nat => (n : Int)

/-! ## Numbers -/

/-- The characters of a formatted number. -/
def isNumberChar (c : Char) : Bool := c.isDigit || c == '+' || c == '-' || c == '.' || c == 'e'

/-- Floating point: conversion of an integer (`none` for an `OverflowError`),
    `float(text)` (`none` for a `ValueError`), rounding to a `float`, and
    `format(x, ".12g")`. A formatted number is a short plain text, and formatting
    what it reads as gives it back. -/
structure Floats where
  ofInt : Int → Option ℚ
  parse : List Char → Option PyFloat
  round : ℚ → ℚ
  format : ℚ → List Char
  format_ne_nil : ∀ x, format x ≠ []
  length_format_le : ∀ x, (format x).length ≤ 48
  isNumberChar_format : ∀ x, ∀ c ∈ format x, isNumberChar c = true
  format_parse : ∀ x y text, parse (format x) = some (.finite y text) → format y = format x

/-- A 3×3 matrix in row order. -/
abbrev Affine := Vector ℚ 9

/-- `IDENTITY_AFFINE`. -/
def identityAffine : Affine := #v[1, 0, 0, 0, 1, 0, 0, 0, 1]

/-- `MAX_AFFINE_REVISION`. -/
def maxAffineRevision : Nat := 2 ^ 31 - 1

section Checks

variable (F : Floats)

/-- One item of a matrix: an `int` or a `float`, and within `-4.0 .. 4.0`. -/
def affineNumber (label : String) (item : Value) : Except PyError ℚ := do
  let number ← match item with
    | .int n =>
      match F.ofInt n with
      | some x => pure (PyFloat.finite x "")
      | none => throw (PyError.exc "OverflowError" "int too large to convert to float")
    | .float f => pure f
    | _ => throw (.hal (.validation s!"{label} contains a non-number"))
  match number with
  | .finite x _ =>
    if -4 ≤ x ∧ x ≤ 4 then pure x
    else throw (.hal (.validation s!"{label} contains an unsafe value"))
  | .nonFinite => throw (.hal (.validation s!"{label} contains an unsafe value"))

/-- `a * x + b * y + c` in floating point. -/
def mapped (a b c x y : ℚ) : ℚ := F.round (F.round (F.round (a * x) + F.round (b * y)) + c)

/-- `-1.0 <= mapped_x <= 2.0 and -1.0 <= mapped_y <= 2.0` at one corner. -/
def mapsInside (m : Affine) (corner : ℚ × ℚ) : Bool :=
  let x := mapped F m[0] m[1] m[2] corner.1 corner.2
  let y := mapped F m[3] m[4] m[5] corner.1 corner.2
  x ≤ 2 && -1 ≤ x && y ≤ 2 && -1 ≤ y

/-- The checks of `_validated_affine` on the nine numbers. -/
def checkAffine (label : String) (m : Affine) : Except PyError Affine :=
  let tiny := F.round (1 / 10 ^ 9)
  if tiny < |m[6]| || tiny < |m[7]| || tiny < |F.round (m[8] - 1)| then
    .error (.hal (.validation s!"{label} must have final row 0,0,1"))
  else if |F.round (F.round (m[0] * m[4]) - F.round (m[1] * m[3]))| < F.round (1 / 10 ^ 6) then
    .error (.hal (.validation s!"{label} must be invertible"))
  else if !([(0, 0), (1, 0), (0, 1), (1, 1)] : List (ℚ × ℚ)).all (mapsInside F m) then
    .error (.hal (.validation s!"{label} maps outside safe normalized bounds"))
  else .ok m

/-- `_validated_affine`. -/
def validatedAffine (value : Value) (label : String := "matrix") : Except PyError Affine :=
  match value with
  | .list items =>
    if items.length ≠ 9 then
      .error (.hal (.validation s!"{label} must contain exactly nine numbers"))
    else do
      match ← items.mapM (affineNumber F label) with
      | [a, b, c, d, e, f, g, h, i] => checkAffine F label #v[a, b, c, d, e, f, g, h, i]
      | _ => throw (.hal (.validation s!"{label} must contain exactly nine numbers"))
  | _ => .error (.hal (.validation s!"{label} must contain exactly nine numbers"))

/-- `_matrix_equal`. -/
def matrixEqual (left right : Affine) : Bool :=
  (left.toList.zip right.toList).all fun p => |F.round (p.1 - p.2)| ≤ F.round (1 / 10 ^ 9)

end Checks

/-! ## What the checks say -/

/-- One row of a matrix at the corners other than the origin. -/
def RowInside (a b c : ℚ) : Prop := ∀ s ∈ [a + c, b + c, a + b + c], (-1 : ℚ) ≤ s ∧ s ≤ 2

instance (a b c : ℚ) : Decidable (RowInside a b c) := List.decidableBAll _ _

/-- What `_validated_affine` checks of single coefficients. -/
structure Bounded (m : Affine) : Prop where
  coefficients : ∀ x ∈ m.toList, |x| ≤ 4
  row : |m[6]| ≤ 1 / 10 ^ 9 ∧ |m[7]| ≤ 1 / 10 ^ 9 ∧ |m[8] - 1| ≤ 1 / 10 ^ 9
  origin : ((-1 : ℚ) ≤ m[2] ∧ m[2] ≤ 2) ∧ (-1 : ℚ) ≤ m[5] ∧ m[5] ≤ 2

/-- What `_validated_affine` checks of several coefficients together. -/
structure Safe (m : Affine) : Prop where
  horizontal : RowInside m[0] m[1] m[2]
  vertical : RowInside m[3] m[4] m[5]
  invertible : 1 / 10 ^ 6 ≤ |m[0] * m[4] - m[1] * m[3]|

/-! ## Writing a document -/

/-- The key of the revision. -/
def revisionKey : List Char := "MSYS_TOUCH_AFFINE_REVISION".toList

/-- The key of the flag that tells whether there is a value to undo to. -/
def undoValidKey : List Char := "MSYS_TOUCH_AFFINE_UNDO_VALID".toList

/-- The keys of a matrix: a stem with the row and the column. -/
def matrixKeys (stem : List Char) : List (List Char) :=
  ['0', '1', '2'].flatMap fun row => ['0', '1', '2'].map fun column => stem ++ [row, column]

/-- `AFFINE_KEYS`. -/
def affineKeys : List (List Char) := matrixKeys "CH347_TOUCH_AFFINE_".toList

/-- `UNDO_AFFINE_KEYS`. -/
def undoAffineKeys : List (List Char) := matrixKeys "MSYS_TOUCH_AFFINE_UNDO_".toList

/-- The line `key=value`. -/
def assignmentLine (item : List Char × List Char) : List Char := item.1 ++ '=' :: item.2

/-- The assignments of a matrix. -/
def matrixItems (F : Floats) (keys : List (List Char)) (m : Affine) :
    List (List Char × List Char) :=
  keys.zip (m.toList.map F.format)

/-- The assignments of `_affine_effective_text`. -/
def effectiveItems (F : Floats) (revision : Nat) (m : Affine) : List (List Char × List Char) :=
  (revisionKey, Nat.toDigits 10 revision) :: matrixItems F affineKeys m

/-- The assignments of `_affine_state_text`. -/
def stateItems (F : Floats) (revision : Nat) (m : Affine) (previous : Option Affine) :
    List (List Char × List Char) :=
  effectiveItems F revision m ++
    (undoValidKey, if previous.isSome then ['1'] else ['0']) ::
      matrixItems F undoAffineKeys (previous.getD identityAffine)

/-- `_affine_effective_text`. -/
def affineEffectiveText (F : Floats) (revision : Nat) (m : Affine) : List Char :=
  document ((effectiveItems F revision m).map assignmentLine)

/-- `_affine_state_text`. -/
def affineStateText (F : Floats) (revision : Nat) (m : Affine) (previous : Option Affine) :
    List Char :=
  document ("# Managed atomically by MSYS HAL touch calibration".toList ::
    (stateItems F revision m previous).map assignmentLine)

/-! ## Reading a document -/

/-- What `_parse_affine_document` returns. -/
structure AffineDocument where
  revision : Nat
  matrix : Affine
  previous : Option Affine := none
deriving DecidableEq

/-- A `ProviderError` of a document reader, with the place in the file. -/
def lineError (message filename : String) (number : Nat) : PyError :=
  .hal (.provider message [("file", .str filename), ("line", .int number)])

/-- The loop of `_parse_affine_document` over the lines from a given number on. -/
def assignments (allowed : List (List Char)) (filename : String) :
    Nat → List (List Char) → List (List Char × List Char) →
    Except PyError (List (List Char × List Char))
  | _, [], values => .ok values
  | number, raw :: rest, values =>
    let line := strip raw
    if line.isEmpty || line.head? == some '#' then
      assignments allowed filename (number + 1) rest values
    else if !line.contains '=' then
      .error (lineError "touch affine configuration contains an invalid line" filename number)
    else
      let key := line.takeWhile (· != '=')
      let value := (line.dropWhile (· != '=')).tail
      if !allowed.contains key || value.isEmpty || (values.lookup key).isSome ||
        value.length > 48 then
        .error (lineError "touch affine configuration contains an invalid assignment"
          filename number)
      else assignments allowed filename (number + 1) rest (values ++ [(key, value)])

/-- `[float(values[key]) for key in keys]`, checked by `_validated_affine`. -/
def documentMatrix (F : Floats) (values : List (List Char × List Char)) (keys : List (List Char))
    (label complaint : String) : Except PyError Affine :=
  match keys.mapM fun key => (values.lookup key).bind F.parse with
  | none => .error (.hal (.provider complaint))
  | some numbers => validatedAffine F (.list (numbers.map .float)) label

/-- The keys of a document. -/
def requiredKeys (state : Bool) : List (List Char) :=
  revisionKey :: affineKeys ++ if state then undoValidKey :: undoAffineKeys else []

/-- The undo value of a persisted document. Its matrix is checked also when the
    flag says that it is not valid. -/
def undoMatrix (F : Floats) (values : List (List Char × List Char)) :
    Except PyError (Option Affine) :=
  let decoded := documentMatrix F values undoAffineKeys "touch affine undo matrix"
    "touch affine undo contains an invalid number"
  match values.lookup undoValidKey with
  | some ['0'] => decoded.map fun _ => none
  | some ['1'] => decoded.map some
  | _ => .error (.hal (.provider "touch affine undo flag must be 0 or 1"))

/-- `_parse_affine_document` when the assignments have been read. -/
def readAffineDocument (F : Floats) (state : Bool) (filename : String)
    (values : List (List Char × List Char)) : Except PyError AffineDocument :=
  let required := requiredKeys state
  let missing := required.filter fun key => (values.lookup key).isNone
  if !missing.isEmpty || (state && values.length != required.length) then
    .error (.hal (.provider "touch affine configuration is incomplete" [("file", .str filename),
      ("missing", .list ((sortStrings (missing.map String.ofList)).map .str))]))
  else
    match (values.lookup revisionKey).bind intOf with
    | none => .error (.hal (.provider "touch affine configuration contains an invalid number"))
    | some revision => do
      let matrix ← documentMatrix F values affineKeys "touch affine matrix"
        "touch affine configuration contains an invalid number"
      if revision < 0 || (maxAffineRevision : Int) < revision then
        .error (.hal (.provider "touch affine revision is outside supported bounds"))
      else
        let previous ← if state then undoMatrix F values else .ok none
        return ⟨revision.toNat, matrix, previous⟩

/-- `_parse_affine_document`. -/
def parseAffineDocument (F : Floats) (text : List Char) (state : Bool) (filename : String) :
    Except PyError AffineDocument := do
  let values ← assignments (requiredKeys true) filename 1 (splitlines text) []
  readAffineDocument F state filename values

/-! ## The owner file and the receipt -/

/-- `[0-9]{1,n}`. -/
def isNumeral (n : Nat) (text : List Char) : Bool :=
  !text.isEmpty && text.length ≤ n && text.all Char.isDigit

/-- `text` without one newline at its end. -/
def chomp (text : List Char) : List Char :=
  if text.getLast? = some '\n' then text.dropLast else text

/-- The generation and the process id of an owner file,
    `([0-9]{1,10}):([0-9]{1,10}):[0-9]{1,12}\n?`. -/
def matchOwner (owner : List Char) : Option (Nat × Nat) :=
  match (chomp owner).splitOn ':' with
  | [generation, pid, start] =>
    if isNumeral 10 generation && isNumeral 10 pid && isNumeral 12 start then
      some (Nat.ofDigitChars 10 generation 0, Nat.ofDigitChars 10 pid 0)
    else none
  | _ => none

/-- The generation in the first line of a receipt, `MSYS_GENERATION=[0-9]{1,10}`. -/
def matchGeneration (line : List Char) : Option Nat :=
  let mark := "MSYS_GENERATION=".toList
  if mark.isPrefixOf line && isNumeral 10 (line.drop mark.length) then
    some (Nat.ofDigitChars 10 (line.drop mark.length) 0)
  else none

end MsysHal.Ch347
