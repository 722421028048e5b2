import MsysHal.Native.Buffers
import MsysHal.Spec.Credential

/-!
# Slugs inside their buffer

`storage_slug` joins the words of a text with dashes and checks its bound once for the
dash and the byte after it. It stays inside its buffer, and leaves a safe path component
there, unless the words before some word take 127 bytes and this word starts with a byte
that is not trimmed.

## Key results

- `collect_spec`: what the loop leaves, for every text
- `overrunOf_eq_some_iff`: where the loop writes a byte too many
- `slug_safe_iff`: when the result is a safe path component
-/

namespace MsysHal.Native

/-! ## Words -/

/-- The words of a text: what is kept between white space. -/
def slugWords (value : Bytes) : List Bytes :=
  ((value.splitOnP isSpaceByte).map (·.filter isSlugByte)).filter (!·.isEmpty)

/-- Words joined with dashes. -/
def joined (words : List Bytes) : Bytes := [0x2d].intercalate words

/-- The words before some word take 127 bytes, and this word starts with neither `.` nor
    `-`. -/
def Overruns (value : Bytes) : Prop :=
  ∃ before word after, slugWords value = before ++ word :: after ∧ (joined before).length = 127 ∧
    word.head? ≠ some 0x2e ∧ word.head? ≠ some 0x2d

/-- A string that is safe as a component of a path. -/
structure SafeComponent (text : Bytes) : Prop where
  ne : text ≠ []
  chars : ∀ b ∈ text, isSlugByte b = true
  ne_dot : text ≠ ascii "."
  ne_dots : text ≠ ascii ".."

/-- What is kept before the first white space. -/
private def leadingWord (value : Bytes) : Bytes :=
  ((value.splitOnP isSpaceByte).headD []).filter isSlugByte

/-- The words after the first white space. -/
private def laterWords (value : Bytes) : List Bytes :=
  ((value.splitOnP isSpaceByte).tail.map (·.filter isSlugByte)).filter (!·.isEmpty)

/-- A byte that is kept is neither white space nor NUL. -/
theorem isSlugByte_spec {b : UInt8} (h : isSlugByte b = true) : isSpaceByte b = false ∧ b ≠ 0 := by
  revert h
  exact forall_byte (P := fun b => isSlugByte b = true → isSpaceByte b = false ∧ b ≠ 0)
    (by decide +kernel) b

section Words

variable {c : UInt8} (value : Bytes)

private theorem slugWords_eq (value : Bytes) : slugWords value =
    if leadingWord value = [] then laterWords value else leadingWord value :: laterWords value := by
  rw [slugWords, leadingWord, laterWords]
  cases h : value.splitOnP isSpaceByte with
  | nil => exact absurd h (List.splitOnP_ne_nil _ _)
  | cons first later =>
    by_cases hfirst : first.filter isSlugByte = []
    · simp [hfirst]
    · simp only [List.map_cons, List.headD_cons, List.tail_cons, hfirst, if_false]
      rw [List.filter_cons_of_pos (by simp [hfirst])]

/-- White space ends the word. -/
private theorem words_space (h : isSpaceByte c = true) :
    slugWords (c :: value) = slugWords value ∧ laterWords (c :: value) = slugWords value ∧
      leadingWord (c :: value) = [] := by
  have hsplit := List.splitOnP_cons_eq_if_modifyHead (p := isSpaceByte) c value
  rw [if_pos h] at hsplit
  simp [slugWords, laterWords, leadingWord, hsplit]

/-- Any other byte belongs to the first word. -/
private theorem words_byte (h : isSpaceByte c = false) :
    laterWords (c :: value) = laterWords value ∧
      leadingWord (c :: value) =
        if isSlugByte c then c :: leadingWord value else leadingWord value := by
  have hsplit := List.splitOnP_cons_eq_if_modifyHead (p := isSpaceByte) c value
  rw [if_neg (by simp [h])] at hsplit
  rw [laterWords, laterWords, leadingWord, leadingWord, hsplit]
  cases hvalue : value.splitOnP isSpaceByte with
  | nil => exact absurd hvalue (List.splitOnP_ne_nil _ _)
  | cons first later => simp [List.filter_cons]

private theorem slugWords_kept (h : isSlugByte c = true) :
    slugWords (c :: value) = (c :: leadingWord value) :: laterWords value := by
  obtain ⟨hlater, hfirst⟩ := words_byte value (isSlugByte_spec h).1
  rw [if_pos h] at hfirst
  rw [slugWords_eq, hfirst, hlater, if_neg (List.cons_ne_nil _ _)]

private theorem words_dropped (hspace : isSpaceByte c = false) (h : isSlugByte c = false) :
    slugWords (c :: value) = slugWords value ∧ laterWords (c :: value) = laterWords value ∧
      leadingWord (c :: value) = leadingWord value := by
  obtain ⟨hlater, hfirst⟩ := words_byte value hspace
  rw [h, if_neg Bool.false_ne_true] at hfirst
  rw [slugWords_eq, slugWords_eq value, hfirst, hlater]
  exact ⟨rfl, rfl, rfl⟩

end Words

private theorem slugWords_ne {word value : Bytes} (h : word ∈ slugWords value) : word ≠ [] := by
  have hmem := (List.mem_filter.mp h).2
  simpa using hmem

/-! ## Where a byte too many is written -/

/-- The first byte of the word that starts at index 128, when `length` bytes come before
    the words. -/
def overrunAt : Nat → List Bytes → Option UInt8
  | _, [] => none
  | length, word :: words =>
    if length = 127 then word.head? else overrunAt (length + 1 + word.length) words

/-- The same for all words of a text. -/
def overrunOf : List Bytes → Option UInt8
  | [] => none
  | word :: words => overrunAt word.length words

private theorem overrunAt_of_lt {length : Nat} (h : 127 < length) (words : List Bytes) :
    overrunAt length words = none := by
  induction words generalizing length with
  | nil => rfl
  | cons word words ih =>
    rw [overrunAt, if_neg (by omega)]
    exact ih (by omega)

theorem overrunAt_eq_some_iff {length : Nat} {words : List Bytes} {c : UInt8} :
    overrunAt length words = some c ↔ ∃ before word after, words = before ++ word :: after ∧
      length + (before.map fun w => w.length + 1).sum = 127 ∧ word.head? = some c := by
  induction words generalizing length with
  | nil => simp [overrunAt]
  | cons word words ih =>
    rw [overrunAt]
    by_cases hlength : length = 127
    · rw [if_pos hlength]
      constructor
      · intro h
        exact ⟨[], word, words, rfl, by simpa using hlength, h⟩
      · rintro ⟨before, word', after, hwords, hsum, hhead⟩
        -- No word fits before the one at index 128.
        cases before with
        | nil =>
          rw [List.nil_append, List.cons.injEq] at hwords
          rwa [hwords.1]
        | cons w before =>
          simp only [List.map_cons, List.sum_cons] at hsum
          omega
    · rw [if_neg hlength, ih]
      constructor
      · rintro ⟨before, word', after, rfl, hsum, hhead⟩
        refine ⟨word :: before, word', after, rfl, ?_, hhead⟩
        simp only [List.map_cons, List.sum_cons]
        omega
      · rintro ⟨before, word', after, hwords, hsum, hhead⟩
        cases before with
        | nil => exact absurd (by simpa using hsum) hlength
        | cons w before =>
          rw [List.cons_append, List.cons.injEq] at hwords
          obtain ⟨rfl, rfl⟩ := hwords
          simp only [List.map_cons, List.sum_cons] at hsum
          exact ⟨before, word', after, rfl, by omega, hhead⟩

theorem length_joined (word : Bytes) (words : List Bytes) :
    (joined (word :: words)).length = word.length + (words.map fun w => w.length + 1).sum := by
  induction words generalizing word with
  | nil => simp [joined, List.intercalate]
  | cons next words ih =>
    have hjoined : joined (word :: next :: words) = word ++ 0x2d :: joined (next :: words) := by
      simp [joined, List.intercalate]
    rw [hjoined, List.length_append, List.length_cons, ih, List.map_cons, List.sum_cons]
    omega

theorem overrunOf_eq_some_iff {words : List Bytes} {c : UInt8} :
    overrunOf words = some c ↔ ∃ before word after, words = before ++ word :: after ∧
      (joined before).length = 127 ∧ word.head? = some c := by
  cases words with
  | nil => simp [overrunOf]
  | cons first words =>
    rw [overrunOf, overrunAt_eq_some_iff]
    constructor
    · rintro ⟨before, word, after, rfl, hsum, hhead⟩
      exact ⟨first :: before, word, after, rfl, by rwa [length_joined], hhead⟩
    · rintro ⟨before, word, after, hwords, hlength, hhead⟩
      cases before with
      | nil => simp [joined, List.intercalate] at hlength
      | cons w before =>
        rw [List.cons_append, List.cons.injEq] at hwords
        obtain ⟨rfl, rfl⟩ := hwords
        rw [length_joined] at hlength
        exact ⟨before, word, after, rfl, hlength, hhead⟩

/-! ## The loop -/

/-- The buffer has its size, and what is written is kept text. -/
structure Slug.Fits (s : Slug) : Prop where
  length : s.output.length = maxName + 1
  written_le : s.written ≤ maxName + 1
  chars : ∀ b ∈ s.output.take s.written, isSlugByte b = true

namespace Slug

variable {s : Slug} {b : UInt8}

private theorem put_eq (h : s.Fits) (hroom : s.written < maxName + 1) :
    s.put b = some { s with output := s.output.set s.written b, written := s.written + 1 } := by
  have hlength := h.length
  rw [put, store, if_pos (by omega)]
  rfl

private theorem Fits.set (h : s.Fits) (hroom : s.written < maxName + 1) (hb : isSlugByte b = true)
    (pending : Bool) : Fits ⟨s.output.set s.written b, s.written + 1, pending⟩ where
  length := by rw [List.length_set, h.length]
  written_le := hroom
  chars := by
    intro c hc
    have hlength := h.length
    rw [take_set_succ (by omega)] at hc
    rcases List.mem_append.mp hc with hc | hc
    · exact h.chars c hc
    · rw [List.mem_singleton.mp hc]
      exact hb

/-- A byte that is kept, in a word or as the first one. -/
private theorem step_kept (h : s.Fits) (hroom : s.written < maxName) (hb : isSlugByte b = true)
    (hopen : s.pendingDash = false ∨ s.written = 0) :
    s.step b = some ⟨s.output.set s.written b, s.written + 1, false⟩ := by
  have hdash :
      (s.pendingDash && decide (0 < s.written) && decide (s.written < maxName)) = false := by
    rcases hopen with hopen | hopen <;> simp [hopen]
  rw [step, if_pos hb, hdash]
  simp [put_eq h (show s.written < maxName + 1 by omega)]

/-- A byte that is kept after white space comes with a dash. -/
private theorem step_dash (h : s.Fits) (hroom : s.written < maxName) (hb : isSlugByte b = true)
    (hpending : s.pendingDash = true) (hpos : 0 < s.written) :
    s.step b =
      some ⟨(s.output.set s.written 0x2d).set (s.written + 1) b, s.written + 2, false⟩ := by
  have hdash :
      (s.pendingDash && decide (0 < s.written) && decide (s.written < maxName)) = true := by
    simp [hpending, hpos, hroom]
  have hfits :=
    h.set (show s.written < maxName + 1 by omega) (show isSlugByte 0x2d = true by decide)
    s.pendingDash
  have hput := put_eq (b := b) hfits (show s.written + 1 < maxName + 1 by omega)
  rw [step, if_pos hb, hdash]
  simp [put_eq h (show s.written < maxName + 1 by omega), hput]

private theorem step_space (hspace : isSpaceByte b = true) :
    s.step b = some { s with pendingDash := true } := by
  have hb : isSlugByte b = false := by
    by_contra hb
    rw [Bool.not_eq_false] at hb
    rw [(isSlugByte_spec hb).1] at hspace
    exact Bool.false_ne_true hspace
  rw [step, if_neg (by simp [hb]), if_pos hspace]

private theorem step_dropped (hspace : isSpaceByte b = false) (hb : isSlugByte b = false) :
    s.step b = some s := by
  rw [step, if_neg (by simp [hb]), if_neg (by simp [hspace])]

/-- The loop ends when the bound is reached. -/
private theorem collect_full (h : maxName ≤ s.written) (value : Bytes) :
    collect value s = some s := by
  cases value with
  | nil => rfl
  | cons c value => rw [collect, if_neg (by omega)]

/-- What the loop leaves: 129 bytes with the given last one, or no byte too many. -/
def Leaves (s : Slug) : Option UInt8 → Prop
  | some c => s.written = maxName + 1 ∧ s.output[maxName]? = some c
  | none => s.written ≤ maxName

/-- The byte too many that the rest of a text leads to. -/
private def overrun (s : Slug) (value : Bytes) : Option UInt8 :=
  if s.written = 0 then overrunOf (slugWords value)
  else if s.pendingDash then overrunAt s.written (slugWords value)
  else overrunAt (s.written + (leadingWord value).length) (laterWords value)

/-- One turn leads to the same end. -/
private theorem step_overrun (h : s.Fits) (hroom : s.written < maxName) (c : UInt8)
    (value : Bytes) : ∃ t, s.step c = some t ∧ t.Fits ∧
      (t.written < maxName ∧ overrun t value = overrun s (c :: value) ∨
        maxName ≤ t.written ∧ t.Leaves (overrun s (c :: value))) := by
  have hmax : maxName = 128 := rfl
  by_cases hkept : isSlugByte c = true
  · obtain ⟨hlater, hfirst⟩ := words_byte value (isSlugByte_spec hkept).1
    rw [if_pos hkept] at hfirst
    have hwords := slugWords_kept value hkept
    by_cases hdash : s.pendingDash = true ∧ 0 < s.written
    · -- A dash and the byte: the bound was checked for the dash only.
      have hstep := step_dash h hroom hkept hdash.1 hdash.2
      have hfits :=
        (h.set (show s.written < maxName + 1 by omega) (show isSlugByte 0x2d = true by decide)
        false).set (show s.written + 1 < maxName + 1 by omega) hkept false
      have hbefore : overrun s (c :: value) =
          overrunAt s.written ((c :: leadingWord value) :: laterWords value) := by
        rw [overrun, if_neg (by omega), if_pos hdash.1, hwords]
      refine ⟨_, hstep, hfits, ?_⟩
      rw [hbefore, overrunAt]
      -- With the dash in the last place the byte is written behind the bound.
      by_cases hlast : s.written = 127
      · right
        rw [if_pos hlast]
        have hlength := h.length
        refine ⟨by simp only; omega, by simp only; omega, ?_⟩
        simp only [hlast, hmax]
        rw [List.getElem?_set_self (by rw [List.length_set, hlength]; omega)]
      · rw [if_neg hlast, List.length_cons]
        -- The byte takes the last place, and the loop ends.
        by_cases hfull : s.written = 126
        · right
          rw [overrunAt_of_lt (by omega)]
          exact ⟨by simp only; omega, by simp only [Leaves]; omega⟩
        · left
          refine ⟨by simp only; omega, ?_⟩
          rw [overrun, if_neg (by simp), if_neg (by simp)]
          congr 1
          simp only
          omega
    · have hopen : s.pendingDash = false ∨ s.written = 0 := by
        rw [not_and_or, Bool.not_eq_true] at hdash
        rcases hdash with hdash | hdash
        · exact .inl hdash
        · exact .inr (by omega)
      -- No dash is pending, or nothing is written yet: only the byte is stored.
      have hstep := step_kept h hroom hkept hopen
      have hfits := h.set (show s.written < maxName + 1 by omega) hkept false
      have hbefore : overrun s (c :: value) =
          overrunAt (s.written + (leadingWord value).length + 1) (laterWords value) := by
        rw [overrun]
        by_cases hzero : s.written = 0
        · rw [if_pos hzero, hwords, overrunOf, List.length_cons]
          congr 1
          omega
        · rw [if_neg hzero, hopen.resolve_right hzero, if_neg Bool.false_ne_true, hlater, hfirst,
            List.length_cons]
          congr 1
      refine ⟨_, hstep, hfits, ?_⟩
      rw [hbefore]
      by_cases hfull : s.written = 127
      · right
        rw [overrunAt_of_lt (by omega)]
        exact ⟨by simp only; omega, by simp only [Leaves]; omega⟩
      · left
        refine ⟨by simp only; omega, ?_⟩
        rw [overrun, if_neg (by simp), if_neg (by simp)]
        congr 1
        simp only
        omega
  · rw [Bool.not_eq_true] at hkept
    -- A byte that is not kept stores nothing; it at most leaves a dash pending.
    by_cases hspace : isSpaceByte c = true
    · obtain ⟨hall, hlater, hfirst⟩ := words_space value hspace
      refine ⟨_, step_space hspace, ⟨h.length, h.written_le, h.chars⟩, .inl ⟨hroom, ?_⟩⟩
      simp [overrun, hall, hlater, hfirst]
    · rw [Bool.not_eq_true] at hspace
      obtain ⟨hall, hlater, hfirst⟩ := words_dropped value hspace hkept
      refine ⟨s, step_dropped hspace hkept, h, .inl ⟨hroom, ?_⟩⟩
      rw [overrun, overrun, hall, hlater, hfirst]

/-- What the loop leaves, by induction on the text. -/
theorem collect_spec (value : Bytes) (h : s.Fits) (hroom : s.written < maxName) :
    ∃ t, collect value s = some t ∧ t.Fits ∧ t.Leaves (overrun s value) := by
  induction value generalizing s with
  | nil =>
    refine ⟨s, rfl, h, ?_⟩
    have hnone : overrun s [] = none := by
      rw [overrun]
      split
      · rfl
      · split <;> rfl
    rw [hnone]
    exact hroom.le
  | cons c value ih =>
    obtain ⟨t, hstep, hfits, hend⟩ := step_overrun h hroom c value
    rw [collect, if_pos hroom, hstep, Option.bind_some]
    rcases hend with ⟨hmore, heq⟩ | ⟨hfull, hleaves⟩
    · rw [← heq]
      exact ih hfits hmore
    · exact ⟨t, collect_full hfull value, hfits, hleaves⟩

end Slug

/-! ## The end of the text -/

/-- The trimmed text ends with a byte that is not trimmed. -/
theorem trimmedLength_spec (output : Bytes) {written : Nat} (h : written ≤ output.length) :
    ∃ n, trimmedLength output written = some n ∧ n ≤ written ∧
      ∀ b, 0 < n → output[n - 1]? = some b → b ≠ 0x2e ∧ b ≠ 0x2d := by
  induction written with
  | zero => exact ⟨0, rfl, Nat.le_refl 0, fun _ hpos => absurd hpos (Nat.lt_irrefl 0)⟩
  | succ written ih =>
    have hload : output[written]? = some output[written] := List.getElem?_eq_getElem h
    obtain ⟨n, hn, hle, hlast⟩ := ih (by omega)
    by_cases htrim : output[written] = 0x2e ∨ output[written] = 0x2d
    · refine ⟨n, ?_, by omega, hlast⟩
      rw [trimmedLength, hload]
      simp [htrim, hn]
    · refine ⟨written + 1, ?_, Nat.le_refl _, fun b _ hb => ?_⟩
      · rw [trimmedLength, hload]
        simp [htrim]
      · rw [Nat.add_sub_cancel, hload, Option.some.injEq] at hb
        subst hb
        exact not_or.mp htrim

/-- Nothing is trimmed where the last byte stays. -/
private theorem trimmedLength_last {output : Bytes} {written : Nat} {b : UInt8}
    (h : output[written]? = some b) (hb : b ≠ 0x2e ∧ b ≠ 0x2d) :
    trimmedLength output (written + 1) = some (written + 1) := by
  rw [trimmedLength, h]
  simp [hb.1, hb.2]

theorem cText_append {text : Bytes} (h : 0 ∉ text) (rest : Bytes) :
    cText (text ++ 0 :: rest) = text := by
  rw [cText, List.takeWhile_append_of_pos]
  · simp
  · intro b hb
    have hne : b ≠ 0 := fun heq => h (heq ▸ hb)
    simp [hne]

private theorem not_nul {text : Bytes} (h : ∀ b ∈ text, isSlugByte b = true) : 0 ∉ text :=
  fun hmem => (isSlugByte_spec (h 0 hmem)).2 rfl

/-- `isalnum` is the same of a byte and of its character. -/
theorem isAlnumC_ofNat (b : UInt8) : isAlnumC (Char.ofNat b.toNat) = isAlnumByte b :=
  forall_byte (P := fun b => isAlnumC (Char.ofNat b.toNat) = isAlnumByte b) (by decide +kernel) b

theorem isAlnumByte_of_char {c : Char} (h : isAlnumC c = true) :
    isAlnumByte c.toNat.toUInt8 = true := by
  have hascii : c.toNat < 128 := by
    simp only [isAlnumC, isLower, isUpper, isAsciiDigit, Bool.or_eq_true, Bool.and_eq_true,
      decide_eq_true_eq] at h
    rcases h with (⟨-, h⟩ | ⟨-, h⟩) | ⟨-, h⟩ <;> exact lt_of_le_of_lt (Char.le_def.mp h) (by decide)
  have hbyte : c.toNat.toUInt8.toNat = c.toNat := Nat.mod_eq_of_lt (by omega)
  rwa [← isAlnumC_ofNat, hbyte, Char.ofNat_toNat]

/-- A character of a valid name is a byte that is kept; the first one is a letter or a digit. -/
private theorem slugByte_of_char {c : Char} :
    ((isAlnumC c || c == '.' || c == '_' || c == '-') = true → isSlugByte c.toNat.toUInt8 = true) ∧
      (isAlnumC c = true → c.toNat.toUInt8 ≠ 0x2e) := by
  constructor
  · intro h
    simp only [Bool.or_eq_true, beq_iff_eq] at h
    rcases h with ((halnum | rfl) | rfl) | rfl
    · rw [isSlugByte, isAlnumByte_of_char halnum]
      rfl
    · decide
    · decide
    · decide
  · intro h heq
    have halnum := isAlnumByte_of_char h
    rw [heq] at halnum
    exact absurd halnum (by decide)

/-- A valid name is a safe component of a path. -/
theorem SafeComponent.of_validName {name : String} (h : validName name = true) :
    SafeComponent (ascii name) ∧ (ascii name).length ≤ maxName := by
  simp only [validName, Bool.and_eq_true, List.all_eq_true, decide_eq_true_eq] at h
  obtain ⟨⟨hhead, hall⟩, hlength⟩ := h
  rw [ascii, List.length_map]
  cases hname : name.toList with
  | nil => simp [hname] at hhead
  | cons c rest =>
    rw [hname] at hhead hall hlength
    have hne : c.toNat.toUInt8 ≠ 0x2e := slugByte_of_char.2 (by simpa using hhead)
    refine ⟨⟨by simp, fun b hb => ?_, ?_, ?_⟩, hlength⟩
    · obtain ⟨d, hd, rfl⟩ := List.mem_map.mp hb
      exact slugByte_of_char.1 (hall d hd)
    · exact fun heq => hne (List.cons.inj heq).1
    · exact fun heq => hne (List.cons.inj heq).1

section Result

variable (value : Bytes) {fallback : String} {output : Bytes}

/-- The text that is left, or the fallback. -/
private theorem storageSlug_eq {s : Slug} {n : Nat}
    (hcollect : Slug.collect value ⟨output, 0, false⟩ = some s)
    (htrim : trimmedLength s.output s.written = some n) :
    storageSlug value (ascii fallback) output = (store s.output n 0).map fun output =>
        if n = 0 ∨ cText output = ascii "." ∨ cText output = ascii ".." then
          printString output (ascii fallback) (maxName + 1)
        else output := by
  rw [storageSlug, hcollect]
  simp only [Option.bind_eq_bind, Option.bind_some, htrim]
  cases store s.output n 0 with
  | none => rfl
  | some output =>
    simp only [Option.bind_some, Option.map_some]
    split <;> rfl

/-- What the loop leaves of a text. -/
private theorem collect_value (hlength : output.length = maxName + 1) :
    ∃ s, Slug.collect value ⟨output, 0, false⟩ = some s ∧ s.Fits ∧
    s.Leaves (overrunOf (slugWords value)) :=
  Slug.collect_spec value ⟨hlength, Nat.zero_le _, by simp⟩ (by simp [maxName])

/-- The result is a safe component if the last store is inside the buffer. -/
private theorem safe_of_trimmed {s : Slug} {n : Nat} (hfits : s.Fits)
    (hfallback : validName fallback = true)
    (hcollect : Slug.collect value ⟨output, 0, false⟩ = some s)
    (htrim : trimmedLength s.output s.written = some n) (hle : n ≤ s.written) (hn : n ≤ maxName) :
    ∃ slug, storageSlug value (ascii fallback) output = some slug ∧ slug.length = maxName + 1 ∧
      0 ∈ slug ∧ SafeComponent (cText slug) := by
  have hlength := hfits.length
  have hroom : n < s.output.length := by omega
  obtain ⟨hsafe, hshort⟩ := SafeComponent.of_validName hfallback
  -- The text that is left before the NUL
  have hset : s.output.set n 0 = s.output.take n ++ 0 :: s.output.drop (n + 1) := by
    rw [List.set_eq_take_append_cons_drop, if_pos hroom]
  have hchars : ∀ b ∈ s.output.take n, isSlugByte b = true := fun b hb =>
    hfits.chars b (List.take_subset_take_left _ hle hb)
  have htext : cText (s.output.set n 0) = s.output.take n := by
    rw [hset, cText_append (not_nul hchars)]
  rw [storageSlug_eq value hcollect htrim, store, if_pos hroom, Option.map_some, htext]
  by_cases hempty : n = 0 ∨ s.output.take n = ascii "." ∨ s.output.take n = ascii ".."
  · rw [if_pos hempty]
    refine ⟨_, rfl, ?_, ?_, ?_⟩
    · simp only [printString, Nat.add_sub_cancel, List.take_of_length_le hshort, List.length_append,
        List.length_cons, List.length_drop, List.length_set]
      omega
    · simp [printString]
    · rw [printString, Nat.add_sub_cancel, List.take_of_length_le hshort,
        cText_append (not_nul hsafe.chars)]
      exact hsafe
  · rw [if_neg hempty]
    rw [not_or, not_or] at hempty
    refine ⟨_, rfl, by rw [List.length_set, hlength], by simp [hset], ?_⟩
    rw [htext]
    refine ⟨fun hnil => ?_, hchars, hempty.2.1, hempty.2.2⟩
    have hzero := congrArg List.length hnil
    rw [List.length_take_of_le (by omega), List.length_nil] at hzero
    exact hempty.1 hzero

variable (fallback) in
/-- For every text and every valid fallback: `storage_slug` writes inside its buffer and
    leaves a safe component of a path there, exactly if the text does not overrun. -/
theorem slug_safe_iff (hfallback : validName fallback = true)
    (hlength : output.length = maxName + 1) :
    (∃ slug, storageSlug value (ascii fallback) output = some slug ∧ slug.length = maxName + 1 ∧
      0 ∈ slug ∧ SafeComponent (cText slug)) ↔ ¬ Overruns value := by
  obtain ⟨s, hcollect, hfits, hleaves⟩ := collect_value value hlength
  have hmax : maxName = 128 := rfl
  have hsize := hfits.length
  have hwritten := hfits.written_le
  obtain ⟨n, htrim, hle, hlast⟩ :=
    trimmedLength_spec s.output (show s.written ≤ s.output.length by omega)
  constructor
  · rintro ⟨slug, hslug, -⟩ ⟨before, word, after, hwords, hbefore, hdot, hdash⟩
    cases word with
    | nil =>
      have hmem : [] ∈ slugWords value := by simp [hwords]
      exact slugWords_ne hmem rfl
    | cons c word =>
      have hoverrun : overrunOf (slugWords value) = some c :=
        overrunOf_eq_some_iff.mpr ⟨before, c :: word, after, hwords, hbefore, rfl⟩
      rw [hoverrun] at hleaves
      obtain ⟨hfull, hbyte⟩ := hleaves
      -- The byte at index 128 stays, and the NUL goes behind the buffer.
      have hlast :=
        trimmedLength_last hbyte ⟨fun h => hdot (by simp [h]), fun h => hdash (by simp [h])⟩
      rw [← hfull] at hlast
      rw [storageSlug_eq value hcollect hlast, store, if_neg (by omega)] at hslug
      exact absurd hslug (by simp)
  · intro hnot
    have hn : n ≤ maxName := by
      -- A length behind the bound means a word overran, by a character that is not trimmed.
      by_contra hlong
      cases hoverrun : overrunOf (slugWords value) with
      | none =>
        rw [hoverrun] at hleaves
        have hshort : s.written ≤ maxName := hleaves
        omega
      | some c =>
        rw [hoverrun] at hleaves
        obtain ⟨hfull, hbyte⟩ := hleaves
        have hc := hlast c (by omega) (by rwa [show n - 1 = maxName by omega])
        obtain ⟨before, word, after, hwords, hbefore, hhead⟩ := overrunOf_eq_some_iff.mp hoverrun
        refine hnot ⟨before, word, after, hwords, hbefore, ?_, ?_⟩
        · simp [hhead, hc.1]
        · simp [hhead, hc.2]
    exact safe_of_trimmed value hfits hfallback hcollect htrim hle hn

/-- A label that fits is its words joined with dashes. -/
theorem slug_safe_label :
    ∃ slug, storageSlug (ascii "My Photos") (ascii "sda1") (List.replicate 129 0) = some slug ∧
    slug.length = maxName + 1 ∧ 0 ∈ slug ∧ SafeComponent (cText slug) := by
  refine (slug_safe_iff (ascii "My Photos") "sda1" (by decide) (by simp [maxName])).mpr ?_
  have hwords : slugWords (ascii "My Photos") = [ascii "My", ascii "Photos"] := by decide
  -- No part of two short words is 127 bytes long.
  rintro ⟨before, word, after, heq, hlength, -, -⟩
  rw [hwords] at heq
  match before with
  | [] => simp [joined, List.intercalate] at hlength
  | [first] =>
    obtain ⟨rfl, -⟩ := List.cons.inj heq
    exact absurd hlength (by decide)
  | first :: second :: before => simp at heq

/-- Words of 127 bytes and one byte more: the NUL is written behind the buffer. -/
theorem slug_overrun :
    ¬ ∃ slug, storageSlug (List.replicate 127 0x61 ++ [0x20, 0x62]) (ascii "sda1")
    (List.replicate 129 0) = some slug ∧ slug.length = maxName + 1 ∧ 0 ∈ slug ∧
    SafeComponent (cText slug) := by
  have hnone : storageSlug (List.replicate 127 0x61 ++ [0x20, 0x62]) (ascii "sda1")
      (List.replicate 129 0) = none := by
    decide +kernel
  rw [hnone]
  simp

end Result

end MsysHal.Native
