import MsysHal.Python.Affine

/-!
# Statistics in the sink log

The bounded tail of the log the display sink writes, and the two measurements that
`msys_hal/ch347.py` reads from its lines: the newest `dirty` or `rect` line and the
newest `dirty_stats` line.
-/

namespace MsysHal.Ch347

open Python (PyFloat)

/-! ## The tail -/

/-- `MAX_LOG_TAIL_BYTES`. -/
def maxLogTailBytes : Nat := 64 * 1024

/-- One byte of `data.decode("ascii", "replace")`. -/
def decodeByte (b : UInt8) : Char := if b < 0x80 then Char.ofNat b.toNat else '\uFFFD'

/-- `data.decode("ascii", "replace")`. -/
def decodeAscii (data : List UInt8) : List Char := data.map decodeByte

/-- The last bytes of a file, as many as are read. -/
def logTail (file : List UInt8) : List UInt8 := file.drop (file.length - maxLogTailBytes)

/-- `_bounded_log_tail`; `none` for a log that cannot be read. -/
def boundedLogTail (file : Option (List UInt8)) : List (List Char) :=
  match file with
  | none => []
  | some file => splitlines (decodeAscii (logTail file))

/-! ## Pieces of a line -/

/-- What follows a text that the input starts with. -/
def literal (text : List Char) (input : List Char) : Option (List Char) :=
  if text.isPrefixOf input then some (input.drop text.length) else none

/-- `[0-9]{1,most}` before a character that is no digit. -/
def digitRun (most : Nat) (input : List Char) : Option (List Char × List Char) :=
  let digits := input.takeWhile Char.isDigit
  if 1 ≤ digits.length ∧ digits.length ≤ most then some (digits, input.dropWhile Char.isDigit)
  else none

/-- `[0-9]{1,most}(?:\.[0-9]{1,3})?` before a character that goes on with neither. -/
def decimalRun (most : Nat) (input : List Char) : Option (List Char × List Char) := do
  let (whole, rest) ← digitRun most input
  match rest with
  | '.' :: rest =>
    let (fraction, rest) ← digitRun 3 rest
    return (whole ++ '.' :: fraction, rest)
  | rest => return (whole, rest)

/-! ## Samples -/

/-- The groups of `DEBUG_SAMPLE_RE`: frames, the rate of the bus and the rate of the panel. -/
def matchDebugSample (line : List Char) : Option (List Char × List Char × List Char) := do
  let rest ← literal "dirty".toList line <|> literal "rect".toList line
  let (frames, rest) ← literal " frame=".toList rest >>= digitRun 10
  let (_, rest) ← literal " captured=".toList rest >>= digitRun 10
  let (_, rest) ← literal " drop=".toList rest >>= digitRun 10
  let (_, rest) ← literal " sent_rects=".toList rest >>= digitRun 3
  let (_, rest) ← literal " dirty=".toList rest >>= decimalRun 3
  let (panel, rest) ← literal "% bus_fps=".toList rest >>= decimalRun 6
  let (observed, rest) ← literal " out_fps=".toList rest >>= decimalRun 6
  if rest.isEmpty then some (frames, panel, observed) else none

/-- What `_debug_sample` returns; the length of the window is never known. -/
structure DebugSample where
  observedFps : ℚ
  panelFps : ℚ
  frames : Nat
deriving DecidableEq

/-- `float(text)` of a rate that is allowed. -/
def rate (F : Floats) (text : List Char) : Option ℚ :=
  match F.parse text with
  | some (.finite x _) => if 0 ≤ x ∧ x ≤ 1000 then some x else none
  | _ => none

/-- The sample of one line. -/
def debugLine (F : Floats) (raw : List Char) : Option DebugSample := do
  let (frames, panel, observed) ← matchDebugSample (strip raw)
  let panelFps ← rate F panel
  let observedFps ← rate F observed
  let frames := Nat.ofDigitChars 10 frames 0
  if frames > 2 ^ 32 - 1 then none else some { observedFps, panelFps, frames }

/-- `_debug_sample`. -/
def debugSample (F : Floats) (lines : List (List Char)) : Option DebugSample :=
  lines.reverse.findSome? (debugLine F)

/-! ## Counters -/

/-- `DIRTY_STATS_FIELDS`. -/
def dirtyStatsFields : List String :=
  ["sent_frames", "zero_damage", "full_refreshes", "large_refreshes", "sent_pixels",
    "last_sent_pixels", "last_rects"]

/-- The groups of `DIRTY_STATS_RE` after its first word: a value without white space
    for each of the names. -/
def matchFields : List String → List Char → Option (List (List Char))
  | [], rest => if rest.isEmpty then some [] else none
  | name :: names, input => do
    let rest ← literal (' ' :: name.toList ++ ['=']) input
    let value := rest.takeWhile (!isSpace ·)
    if value.isEmpty then none
    else (matchFields names (rest.dropWhile (!isSpace ·))).map (value :: ·)

/-- The groups of `DIRTY_STATS_RE`. -/
def matchDirtyStats (line : List Char) : Option (List (List Char)) :=
  literal "dirty_stats".toList line >>= matchFields ("frame" :: dirtyStatsFields)

/-- One counter: `[0-9]+` and at most `UINT64_MAX`. -/
def counter (text : List Char) : Option Nat :=
  let n := Nat.ofDigitChars 10 text 0
  if !text.isEmpty && text.all Char.isDigit && decide (n ≤ 2 ^ 64 - 1) then some n else none

/-- What `_dirty_stats_sample` makes of a `dirty_stats` line. -/
def dirtyCounters (line : List Char) : Option (List (String × Nat)) := do
  let groups ← matchDirtyStats line
  let counters ← groups.mapM counter
  return dirtyStatsFields.zip counters.tail

/-- The counters of one line: `none` where it is no `dirty_stats` line, `some none`
    where it is an invalid one. -/
def dirtyStatsLine (raw : List Char) : Option (Option (List (String × Nat))) :=
  let line := strip raw
  if "dirty_stats ".toList.isPrefixOf line then some (dirtyCounters line) else none

/-- `_dirty_stats_sample`. -/
def dirtyStatsSample (lines : List (List Char)) : Option (List (String × Nat)) :=
  (lines.reverse.findSome? dirtyStatsLine).join

end MsysHal.Ch347
