import MsysHal.ForStd.Text

/-!
# Fields of a text

Splitting at a separator with a limit, `str.isprintable`, and
`bytes.decode("utf-8", "replace")`.

## Key results

- `splitMax_append`: a line of fields is split at its separators
- `splitlines_lines`: a text of terminated lines is split into them
- `decodeReplace_encode`: the encoding of a text is decoded to it
-/

namespace Python.Text

/-! ## Printable characters -/

/-- The characters that `str.isprintable` accepts: a table of Unicode, of which the ASCII
    part and the separators matter. -/
structure PrintTable where
  isPrintable : Char → Bool
  ascii : ∀ c : Char, c.toNat < 128 → isPrintable c =
    (decide (32 ≤ c.toNat) && decide (c.toNat < 127))
  separator : ∀ c : Char, isSpace c = true → c ≠ ' ' → isPrintable c = false

/-- `text.isprintable()`. -/
def PrintTable.printable (table : PrintTable) (text : List Char) : Bool :=
  text.all table.isPrintable

/-- The ASCII part of the table. -/
def asciiTable : PrintTable where
  isPrintable c := decide (32 ≤ c.toNat) && decide (c.toNat < 127)
  ascii _ _ := rfl
  separator c hspace hne := by
    have hcode : c.toNat ≠ 32 := fun h => hne (Char.toNat_inj.mp h)
    by_contra hprintable
    simp only [Bool.and_eq_true, decide_eq_true_eq, Bool.not_eq_false] at hprintable
    have hlt : c.toNat < 127 := hprintable.2
    have hgt : 33 ≤ c.toNat := by omega
    have hne' (d : Char) (hd : d.toNat < 33 ∨ 126 < d.toNat) : (c == d) = false := by
      apply beq_false_of_ne
      rintro rfl
      omega
    have hle : (decide ('\u2000' ≤ c)) = false := by
      apply decide_eq_false
      intro h
      have h : ('\u2000').toNat ≤ c.toNat := h
      have heq : ('\u2000').toNat = 8192 := rfl
      omega
    simp only [isSpace, isBoundary, hle] at hspace
    repeat rw [hne' _ (by decide)] at hspace
    exact nomatch hspace

namespace PrintTable

variable (table : PrintTable)

theorem not_boundary {c : Char} (h : table.isPrintable c = true) : isBoundary c = false := by
  by_contra hb
  rw [Bool.not_eq_false] at hb
  have hspace : isSpace c = true := by simp [isSpace, hb]
  have hne : c ≠ ' ' := by
    rintro rfl
    exact absurd hb (by decide)
  rw [table.separator c hspace hne] at h
  exact nomatch h

theorem not_nul {text : List Char} (h : table.printable text = true) : '\x00' ∉ text := by
  intro hmem
  have hnul := List.all_eq_true.mp h _ hmem
  rw [table.ascii _ (by decide)] at hnul
  exact absurd hnul (by decide)

end PrintTable

/-! ## Splitting -/

/-- `text.split(sep, n)`. -/
def splitMax (sep : Char) : Nat → List Char → List (List Char)
  | 0, text => [text]
  | n + 1, text =>
    match text.dropWhile (· ≠ sep) with
    | [] => [text]
    | _ :: rest => text.takeWhile (· ≠ sep) :: splitMax sep n rest

/-- A field, a separator and the rest. -/
theorem splitMax_append {sep : Char} {field : List Char} (h : sep ∉ field) (n : Nat)
    (rest : List Char) :
    splitMax sep (n + 1) (field ++ sep :: rest) = field :: splitMax sep n rest := by
  have hfield : ∀ c ∈ field, decide (c ≠ sep) = true := fun c hc =>
    decide_eq_true fun heq => h (heq ▸ hc)
  have hdrop : (field ++ sep :: rest).dropWhile (· ≠ sep) = sep :: rest := by
    rw [List.dropWhile_append_of_pos hfield, List.dropWhile_cons_of_neg (by simp)]
  have htake : (field ++ sep :: rest).takeWhile (· ≠ sep) = field := by
    rw [List.takeWhile_append_of_pos hfield, List.takeWhile_cons_of_neg (by simp), List.append_nil]
  rw [splitMax, hdrop, htake]

/-- A text without the separator. -/
theorem splitMax_of_notMem {sep : Char} {text : List Char} (h : sep ∉ text) (n : Nat) :
    splitMax sep n text = [text] := by
  cases n with
  | zero => rfl
  | succ n =>
    have hdrop : text.dropWhile (· ≠ sep) = [] :=
      List.dropWhile_eq_nil_iff.mpr fun c hc => decide_eq_true fun heq => h (heq ▸ hc)
    rw [splitMax, hdrop]

/-- The pieces of a text hold its characters. -/
theorem splitMax_forall {P : Char → Prop} {sep : Char} {text : List Char} (h : ∀ c ∈ text, P c)
    (n : Nat) : ∀ field ∈ splitMax sep n text, ∀ c ∈ field, P c := by
  induction n generalizing text with
  | zero => exact fun field hfield => List.mem_singleton.mp hfield ▸ h
  | succ n ih =>
    rw [splitMax]
    split
    · exact fun field hfield => List.mem_singleton.mp hfield ▸ h
    · next c rest hrest =>
      intro field hfield
      rcases List.mem_cons.mp hfield with rfl | hmem
      · exact fun c hc => h c ((List.takeWhile_sublist _).mem hc)
      · have hsub : rest.Sublist text :=
          (List.sublist_cons_self c rest).trans (hrest ▸ List.dropWhile_sublist _)
        exact ih (fun c hc => h c (hsub.mem hc)) field hmem

/-! ## Lines -/

private theorem splitlinesFrom_append {start line rest : List Char}
    (h : ∀ c ∈ line, isBoundary c = false) :
    splitlinesFrom start (line ++ '\n' :: rest) = (start ++ line) :: splitlinesFrom [] rest := by
  induction line generalizing start with
  | nil =>
    rw [List.nil_append, List.append_nil, splitlinesFrom]
    · rw [if_pos (by decide)]
    · exact fun rest' heq _ => nomatch heq
  | cons c line ih =>
    rw [List.forall_mem_cons] at h
    have hcr : c ≠ '\r' := by
      rintro rfl
      exact absurd h.1 (by decide)
    rw [List.cons_append, splitlinesFrom]
    · rw [if_neg (by rw [h.1]; exact Bool.false_ne_true), ih h.2, List.append_assoc]
      rfl
    · exact fun rest' heq _ => hcr heq

private theorem splitlinesFrom_last {start line : List Char} (h : ∀ c ∈ line, isBoundary c = false)
    (hne : start ++ line ≠ []) : splitlinesFrom start line = [start ++ line] := by
  induction line generalizing start with
  | nil =>
    rw [splitlinesFrom, List.append_nil, if_neg]
    simpa using hne
  | cons c line ih =>
    rw [List.forall_mem_cons] at h
    have hcr : c ≠ '\r' := by
      rintro rfl
      exact absurd h.1 (by decide)
    rw [splitlinesFrom]
    · rw [if_neg (by rw [h.1]; exact Bool.false_ne_true), ih h.2 (by simp), List.append_assoc]
      rfl
    · exact fun rest' heq _ => hcr heq

/-- Terminated lines. -/
def terminated (lines : List (List Char)) : List Char := lines.flatMap fun line => line ++ ['\n']

theorem splitlines_terminated {lines : List (List Char)}
    (h : ∀ line ∈ lines, ∀ c ∈ line, isBoundary c = false) (rest : List Char) :
    splitlines (terminated lines ++ rest) = lines ++ splitlines rest := by
  induction lines with
  | nil => rfl
  | cons line lines ih =>
    rw [List.forall_mem_cons] at h
    have hline : terminated (line :: lines) ++ rest = line ++ '\n' ::
        (terminated lines ++ rest) := by
      simp [terminated]
    rw [hline, splitlines, splitlinesFrom_append h.1, ← splitlines, ih h.2]
    rfl

theorem splitlines_single {line : List Char} (h : ∀ c ∈ line, isBoundary c = false)
    (hne : line ≠ []) : splitlines line = [line] := splitlinesFrom_last h hne

/-! ## Decoding with replacement -/

/-- What a first byte of UTF-8 leads in: how many bytes follow, the bounds of the next one,
    and the bits it gives. -/
def leadByte (b : UInt8) : Option (Nat × UInt8 × UInt8 × Nat) :=
  if 0xc2 ≤ b && b ≤ 0xdf then some (1, 0x80, 0xbf, b.toNat % 32)
  else if b = 0xe0 then some (2, 0xa0, 0xbf, 0)
  else if b = 0xed then some (2, 0x80, 0x9f, 13)
  else if 0xe1 ≤ b && b ≤ 0xef then some (2, 0x80, 0xbf, b.toNat % 16)
  else if b = 0xf0 then some (3, 0x90, 0xbf, 0)
  else if b = 0xf4 then some (3, 0x80, 0x8f, 4)
  else if 0xf1 ≤ b && b ≤ 0xf3 then some (3, 0x80, 0xbf, b.toNat % 8)
  else none

/-- U+FFFD. -/
def replacement : Char := '\uFFFD'

/-- The characters of a byte that starts a sequence, and what is left open. -/
def startByte (b : UInt8) : List Char × Option (Nat × UInt8 × UInt8 × Nat) :=
  if b < 0x80 then ([Char.ofNat b.toNat], none)
  else
    match leadByte b with
    | some open' => ([], some open')
    | none => ([replacement], none)

/-- The decoder after a sequence was opened, if one was: each longest start of a sequence
    that is broken off is one replacement character. -/
def replaceFrom : Option (Nat × UInt8 × UInt8 × Nat) → List UInt8 → List Char
  | none, [] => []
  | some _, [] => [replacement]
  | none, b :: rest => (startByte b).1 ++ replaceFrom (startByte b).2 rest
  | some (need, low, high, bits), b :: rest =>
    if low ≤ b && b ≤ high then
      if need = 1 then Char.ofNat (bits * 64 + b.toNat % 64) :: replaceFrom none rest
      else replaceFrom (some (need - 1, 0x80, 0xbf, bits * 64 + b.toNat % 64)) rest
    else replacement :: (startByte b).1 ++ replaceFrom (startByte b).2 rest

/-- `data.decode("utf-8", "replace")`. -/
def decodeReplace (data : ByteArray) : List Char :=
  match String.fromUTF8? data with
  | some text => text.toList
  | none => replaceFrom none data.data.toList

/-- The encoding of a text is decoded to it. -/
theorem decodeReplace_encode (text : String) : decodeReplace text.toByteArray = text.toList := by
  have h : String.fromUTF8? text.toByteArray = some text := by
    rw [String.fromUTF8?]
    split
    · rfl
    · next hinvalid => exact absurd text.isValidUTF8 hinvalid
  rw [decodeReplace, h]

example : decodeReplace ⟨#[0x61, 0xf0, 0x9f, 0x62, 0xff]⟩ =
    ['a', replacement, 'b', replacement] := by
  decide +kernel

end Python.Text
