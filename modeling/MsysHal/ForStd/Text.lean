import Mathlib

/-!
# Texts of Python

The functions of `str` that split and trim a text, over lists of characters, and
`bytes.decode("utf-8")`.

## Key results

- `splitlines_forall`, `splitBlocks_forall`, `strip_forall`, `cut_forall`: a piece of a text
  has no characters of its own
- `length_decode_le`, `decode_nul`: a decoded text is not longer than its bytes, and
  has a NUL only where they have one
-/

namespace Python.Text

/-! ## Characters -/

/-- The line boundaries of `str.splitlines`. -/
def isBoundary (c : Char) : Bool :=
  c == '\n' || c == '\r' || c == '\x0b' || c == '\x0c' || c == '\x1c' || c == '\x1d' ||
    c == '\x1e' ||
    c == '\u0085' || c == '\u2028' || c == '\u2029'

/-- `str.isspace` for one character. -/
def isSpace (c : Char) : Bool :=
  isBoundary c || c == ' ' || c == '\t' || c == '\x1f' || c == '\u00a0' || c == '\u1680' ||
    ('\u2000' ≤ c && c ≤ '\u200a') || c == '\u202f' || c == '\u205f' || c == '\u3000'

/-! ## Pieces of a text -/

/-- `str.splitlines` when `line` has been read of the current line. -/
def splitlinesFrom (line : List Char) : List Char → List (List Char)
  | [] => if line.isEmpty then [] else [line]
  | '\r' :: '\n' :: rest => line :: splitlinesFrom [] rest
  | c :: rest =>
    if isBoundary c then line :: splitlinesFrom [] rest else splitlinesFrom (line ++ [c]) rest

/-- `text.splitlines()`. -/
def splitlines (text : List Char) : List (List Char) := splitlinesFrom [] text

/-- `text.split("\n\n")` when `block` has been read of the current piece. -/
def splitBlocksFrom (block : List Char) : List Char → List (List Char)
  | [] => [block]
  | '\n' :: '\n' :: rest => block :: splitBlocksFrom [] rest
  | c :: rest => splitBlocksFrom (block ++ [c]) rest

/-- `text.split("\n\n")`. -/
def splitBlocks (text : List Char) : List (List Char) := splitBlocksFrom [] text

/-- `text.split()` when `word` has been read of the current word. -/
def wordsFrom (word : List Char) : List Char → List (List Char)
  | [] => if word.isEmpty then [] else [word]
  | c :: rest =>
    if isSpace c then (if word.isEmpty then [] else [word]) ++ wordsFrom [] rest
    else wordsFrom (word ++ [c]) rest

/-- `text.split()`. -/
def words (text : List Char) : List (List Char) := wordsFrom [] text

/-- `text.strip()`. -/
def strip (text : List Char) : List Char := (text.dropWhile isSpace).rdropWhile isSpace

/-- `text.strip(mark)` for one character. -/
def stripMark (mark : Char) (text : List Char) : List Char :=
  (text.dropWhile (· == mark)).rdropWhile (· == mark)

/-- `text.split(": ", 1)` where the separator occurs. -/
def cut : List Char → Option (List Char × List Char)
  | [] => none
  | ':' :: ' ' :: rest => some ([], rest)
  | c :: rest => (cut rest).map fun p => (c :: p.1, p.2)

/-! ### What the pieces hold -/

section Pieces

variable {P : Char → Prop}

private theorem forall_of_snoc {start rest : List Char} {a : Char} (hstart : ∀ c ∈ start, P c)
    (h : ∀ c ∈ a :: rest, P c) : ∀ c ∈ start ++ [a], P c := by
  intro c hc
  rcases List.mem_append.mp hc with hc | hc
  · exact hstart c hc
  · exact h c (List.mem_singleton.mp hc ▸ List.mem_cons_self)

private theorem splitlinesFrom_forall {start text : List Char} (hstart : ∀ c ∈ start, P c)
    (h : ∀ c ∈ text, P c) : ∀ line ∈ splitlinesFrom start text, ∀ c ∈ line, P c := by
  fun_induction splitlinesFrom start text with
  | case1 start hempty => exact fun line hline => nomatch hline
  | case2 start hempty =>
    intro line hline
    exact List.mem_singleton.mp hline ▸ hstart
  | case3 start rest ih =>
    rw [List.forall_mem_cons]
    refine ⟨hstart, ih (fun c hc => nomatch hc) fun c hc => ?_⟩
    exact h c (List.mem_cons_of_mem _ (List.mem_cons_of_mem _ hc))
  | case4 start a rest hne hbreak ih =>
    rw [List.forall_mem_cons]
    exact ⟨hstart, ih (fun _ hc => nomatch hc) fun c hc => h c (List.mem_cons_of_mem _ hc)⟩
  | case5 start a rest hne hbreak ih =>
    exact ih (forall_of_snoc hstart h) fun c hc => h c (List.mem_cons_of_mem _ hc)

theorem splitlines_forall {text : List Char} (h : ∀ c ∈ text, P c) :
    ∀ line ∈ splitlines text, ∀ c ∈ line, P c :=
  splitlinesFrom_forall (fun _ hc => nomatch hc) h

private theorem splitBlocksFrom_forall {start text : List Char} (hstart : ∀ c ∈ start, P c)
    (h : ∀ c ∈ text, P c) : ∀ block ∈ splitBlocksFrom start text, ∀ c ∈ block, P c := by
  fun_induction splitBlocksFrom start text with
  | case1 start =>
    intro block hblock
    exact List.mem_singleton.mp hblock ▸ hstart
  | case2 start rest ih =>
    rw [List.forall_mem_cons]
    refine ⟨hstart, ih (fun c hc => nomatch hc) fun c hc => ?_⟩
    exact h c (List.mem_cons_of_mem _ (List.mem_cons_of_mem _ hc))
  | case3 start a rest hne ih =>
    exact ih (forall_of_snoc hstart h) fun c hc => h c (List.mem_cons_of_mem _ hc)

theorem splitBlocks_forall {text : List Char} (h : ∀ c ∈ text, P c) :
    ∀ block ∈ splitBlocks text, ∀ c ∈ block, P c :=
  splitBlocksFrom_forall (fun _ hc => nomatch hc) h

theorem strip_forall {text : List Char} (h : ∀ c ∈ text, P c) : ∀ c ∈ strip text, P c :=
  fun c hc => h c ((List.dropWhile_sublist _).mem ((List.rdropWhile_prefix _ _).mem hc))

theorem stripMark_forall {text : List Char} (mark : Char) (h : ∀ c ∈ text, P c) :
    ∀ c ∈ stripMark mark text, P c :=
  fun c hc => h c ((List.dropWhile_sublist _).mem ((List.rdropWhile_prefix _ _).mem hc))

theorem cut_forall {text head tail : List Char} (h : ∀ c ∈ text, P c)
    (hcut : cut text = some (head, tail)) : ∀ c ∈ tail, P c := by
  fun_induction cut text generalizing head with
  | case1 => exact nomatch hcut
  | case2 rest =>
    cases hcut
    exact fun c hc => h c (List.mem_cons_of_mem _ (List.mem_cons_of_mem _ hc))
  | case3 a rest hne ih =>
    obtain ⟨p, hp, heq⟩ := Option.map_eq_some_iff.mp hcut
    cases heq
    exact ih (fun c hc => h c (List.mem_cons_of_mem _ hc)) hp

end Pieces

/-! ## Decoding -/

theorem length_strip_le (text : List Char) : (strip text).length ≤ text.length :=
  (List.rdropWhile_prefix _ _).length_le.trans (List.dropWhile_sublist _).length_le

/-- The bytes of a decoded text. -/
theorem bytes_of_decode {data : ByteArray} {text : String} (h : String.fromUTF8? data = some text) :
    data.data.toList = text.toList.flatMap String.utf8EncodeChar := by
  rw [String.fromUTF8?] at h
  split at h
  · rw [Option.some.injEq] at h
    have hbytes : text.toByteArray = data := h ▸ rfl
    rw [← hbytes, ← String.utf8Encode_toList, List.utf8Encode, List.data_toByteArray]
  · exact nomatch h

/-- A decoded text is not longer than its bytes. -/
theorem length_decode_le {data : ByteArray} {text : String}
    (h : String.fromUTF8? data = some text) : text.length ≤ data.size := by
  have hle : ∀ chars : List Char, chars.length ≤ (chars.flatMap String.utf8EncodeChar).length := by
    intro chars
    induction chars with
    | nil => exact Nat.zero_le _
    | cons c chars ih =>
      have hc : 0 < (String.utf8EncodeChar c).length :=
        List.length_pos_iff.mpr String.utf8EncodeChar_ne_nil
      rw [List.flatMap_cons, List.length_append, List.length_cons]
      omega
  have hsize : data.size = data.data.toList.length := rfl
  rw [hsize, bytes_of_decode h, ← String.length_toList]
  exact hle _

/-- A decoded text has a NUL only where its bytes have one. -/
theorem decode_nul {data : ByteArray} {text : String} (h : String.fromUTF8? data = some text)
    (hdata : 0 ∉ data.data.toList) : '\x00' ∉ text.toList := by
  intro hc
  rw [bytes_of_decode h] at hdata
  exact hdata (List.mem_flatMap.mpr ⟨_, hc, by decide⟩)

end Python.Text
