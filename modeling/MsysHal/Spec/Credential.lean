import MsysHal.Spec.Listing

/-!
# The credential that a connect request sends

`_validate_psk` and `_psk_argument` of the Python client work on characters, `valid_psk` and
`psk_argument` of the native one on bytes and in a buffer of 132 bytes. What either accepts
is ASCII, so a byte is a character; an argument is at most twice as long as its passphrase
with two quotes, so the buffer is never full.

## Key results

- `validPsk_eq`: both accept the same texts
- `pskArgument_utf8`: both write the same argument
- `credential_agrees`: the two together, with what the argument stands for
-/

namespace MsysHal.Native

open Python (Value)

/-- What a C function sees of a text: the bytes before the first NUL. -/
def cString (text : String) : Bytes := (utf8 text.toList).takeWhile (· ≠ 0)

/-- Undo the backslash escapes; a quote has to be escaped. -/
def unescape : List Char → Option (List Char)
  | [] => some []
  | '\\' :: c :: rest => (unescape rest).map (c :: ·)
  | '\\' :: [] => none
  | c :: rest => if c = '"' then none else (unescape rest).map (c :: ·)

/-- Remove the outer quotes and undo the backslash escapes. -/
def unquote : List Char → Option (List Char)
  | '"' :: rest => if rest.getLast? = some '"' then unescape rest.dropLast else none
  | _ => none

/-! ## ASCII -/

/-- The byte of an ASCII character. -/
def asciiByte (c : Char) : UInt8 := UInt8.ofNat c.toNat

theorem toNat_asciiByte {c : Char} (h : c.toNat < 128) : (asciiByte c).toNat = c.toNat := by
  rw [asciiByte, UInt8.toNat_ofNat']
  omega

theorem utf8_of_ascii {text : List Char} (h : ∀ c ∈ text, c.toNat < 128) :
    utf8 text = text.map asciiByte := by
  induction text with
  | nil => rfl
  | cons c text ih =>
    rw [List.forall_mem_cons] at h
    have hv : c.val.toNat < 128 := h.1
    have hbyte : String.utf8EncodeChar c = [asciiByte c] := by
      rw [String.utf8EncodeChar, if_pos (by omega)]
      rfl
    rw [utf8, List.flatMap_cons, hbyte, List.map_cons, ← ih h.2]
    rfl

/-- A text whose bytes are ASCII is ASCII. -/
theorem ascii_of_utf8 {text : List Char} (h : ∀ b ∈ utf8 text, b.toNat < 128) :
    ∀ c ∈ text, c.toNat < 128 := by
  intro c hc
  obtain ⟨b, hb⟩ := List.exists_mem_of_ne_nil _ (String.utf8EncodeChar_ne_nil (c := c))
  have hlow := h b (List.mem_flatMap.mpr ⟨c, hc, hb⟩)
  rcases mem_encode hb with ⟨hascii, -⟩ | hhigh
  · exact hascii
  · omega

/-- A byte of a text is zero only where a character is. -/
theorem cString_of_not_nul {text : String} (h : '\x00' ∉ text.toList) :
    cString text = utf8 text.toList := by
  rw [cString, List.takeWhile_eq_self_iff]
  intro b hb
  obtain ⟨c, hc, hmem⟩ := List.mem_flatMap.mp hb
  rw [decide_eq_true_eq]
  rintro rfl
  rcases mem_encode hmem with ⟨-, heq⟩ | hhigh
  · have hzero : c = '\x00' := Char.toNat_inj.mp heq.symm
    exact h (hzero ▸ hc)
  · exact absurd hhigh (by decide)

/-- A fact about every ASCII character, from the 128 of them. -/
theorem forall_ascii {P : Char → Prop} (h : ∀ n < 128, P (Char.ofNat n)) {c : Char}
    (hc : c.toNat < 128) : P c := by
  have := h c.toNat hc
  rwa [Char.ofNat_toNat] at this

/-- A fact about every byte, from the 256 of them. -/
theorem forall_byte {P : UInt8 → Prop} (h : ∀ n < 256, P (UInt8.ofNat n)) (b : UInt8) : P b := by
  have hb := h b.toNat b.toNat_lt
  rwa [UInt8.ofNat_toNat] at hb

theorem isXdigit_asciiByte {c : Char} (h : c.toNat < 128) :
    isXdigit (asciiByte c) = Network.isHex c :=
  forall_ascii (P := fun c => isXdigit (asciiByte c) = Network.isHex c) (by decide) h

theorem toLowerByte_asciiByte {c : Char} (h : c.toNat < 128) :
    toLowerByte (asciiByte c) = asciiByte c.toLower :=
  forall_ascii (P := fun c => toLowerByte (asciiByte c) = asciiByte c.toLower) (by decide) h

theorem isHex_lt {c : Char} (h : Network.isHex c = true) : c.toNat < 128 := by
  simp only [Network.isHex, isAsciiDigit, Bool.or_eq_true, Bool.and_eq_true, decide_eq_true_eq] at h
  rcases h with (⟨-, h⟩ | ⟨-, h⟩) | ⟨-, h⟩ <;> exact lt_of_le_of_lt (Char.le_def.mp h) (by decide)

theorem isHex_toLower {c : Char} (h : Network.isHex c = true) :
    (isAsciiDigit c.toLower || ('a' ≤ c.toLower && c.toLower ≤ 'f')) = true := by
  refine forall_ascii (P := fun c => Network.isHex c = true →
    (isAsciiDigit c.toLower || ('a' ≤ c.toLower && c.toLower ≤ 'f')) = true) ?_ (isHex_lt h) h
  decide

/-! ## What is accepted -/

/-- 64 hexadecimal digits. -/
def HexKey (text : List Char) : Prop := text.length = 64 ∧ ∀ c ∈ text, Network.isHex c = true

/-- A passphrase. -/
structure Passphrase (text : List Char) : Prop where
  minimum : 8 ≤ text.length
  maximum : text.length ≤ 63
  printable : ∀ c ∈ text, 32 ≤ c.toNat ∧ c.toNat ≤ 126

theorem Passphrase.ascii {text : List Char} (h : Passphrase text) : ∀ c ∈ text, c.toNat < 128 := by
  intro c hc
  have := (h.printable c hc).2
  omega

theorem validatePsk_hex {s : String} (h : HexKey s.toList) :
    Network.validatePsk (.str s) = .ok (s.toList.map Char.toLower) := by
  rw [Network.validatePsk]
  exact if_pos ⟨h.1, List.all_eq_true.mpr h.2⟩

theorem validatePsk_passphrase {s : String} (h : Passphrase s.toList) :
    Network.validatePsk (.str s) = .ok s.toList := by
  have hlength : ¬ s.toList.length = 64 := by
    have := h.maximum
    omega
  have hany : s.toList.any (fun c => decide (c.toNat < 32) || decide (c.toNat > 126)) = false := by
    rw [List.any_eq_false]
    intro c hc
    have := h.printable c hc
    rw [Bool.or_eq_true, decide_eq_true_eq, decide_eq_true_eq]
    omega
  simp only [Network.validatePsk, hlength, h.minimum, h.maximum, hany, false_and,
    if_false, decide_true, Bool.and_self, Bool.not_true, Bool.or_self, Bool.false_eq_true]

/-- `_validate_psk` accepts a key or a passphrase. -/
theorem psk_of_validatePsk {s : String} {psk : List Char}
    (h : Network.validatePsk (.str s) = .ok psk) : HexKey s.toList ∨ Passphrase s.toList := by
  simp only [Network.validatePsk] at h
  split at h
  · next hhex => exact .inl ⟨hhex.1, List.all_eq_true.mp hhex.2⟩
  · split at h
    · exact nomatch h
    · next hphrase =>
      simp only [Bool.or_eq_true, Bool.not_eq_true', Bool.and_eq_false_iff, decide_eq_false_iff_not,
        List.any_eq_true, decide_eq_true_eq, not_or, not_exists, not_and, not_not] at hphrase
      exact .inr ⟨hphrase.1.1, hphrase.1.2, fun c hc => by have := hphrase.2 c hc; omega⟩

theorem HexKey.ascii {text : List Char} (h : HexKey text) : ∀ c ∈ text, c.toNat < 128 :=
  fun c hc => isHex_lt (h.2 c hc)

theorem validPsk_hex {text : List Char} (h : HexKey text) :
    validPsk (text.map asciiByte) = true := by
  rw [validPsk, if_pos (by rw [List.length_map, h.1]), List.all_map, List.all_eq_true]
  exact fun c hc => (isXdigit_asciiByte (h.ascii c hc)).trans (h.2 c hc)

theorem validPsk_passphrase {text : List Char} (h : Passphrase text) :
    validPsk (text.map asciiByte) = true := by
  have hmin := h.minimum
  have hmax := h.maximum
  rw [validPsk, List.length_map, if_neg (by omega), decide_eq_true hmin, decide_eq_true hmax,
    List.all_map, Bool.and_self, Bool.true_and, List.all_eq_true]
  intro c hc
  have hbyte := toNat_asciiByte (h.ascii c hc)
  have hc := h.printable c hc
  rw [Function.comp_apply, Bool.and_eq_true, decide_eq_true_eq, decide_eq_true_eq,
    UInt8.le_iff_toNat_le, UInt8.le_iff_toNat_le, hbyte]
  exact hc

theorem isXdigit_lt {b : UInt8} (h : isXdigit b = true) : b.toNat < 128 := by
  simp only [isXdigit, Bool.or_eq_true, Bool.and_eq_true, decide_eq_true_eq,
    UInt8.le_iff_toNat_le] at h
  have h39 : (0x39 : UInt8).toNat = 0x39 := rfl
  have h46 : (0x46 : UInt8).toNat = 0x46 := rfl
  have h66 : (0x66 : UInt8).toNat = 0x66 := rfl
  omega

/-- `valid_psk` accepts the bytes of a key or of a passphrase. -/
theorem psk_of_validPsk {text : List Char} (h : validPsk (utf8 text) = true) :
    HexKey text ∨ Passphrase text := by
  rw [validPsk] at h
  split at h
  · next hlength =>
    rw [List.all_eq_true] at h
    have hascii := ascii_of_utf8 fun b hb => isXdigit_lt (h b hb)
    rw [utf8_of_ascii hascii] at h hlength
    refine .inl ⟨by rwa [List.length_map] at hlength, fun c hc => ?_⟩
    rw [← isXdigit_asciiByte (hascii c hc)]
    exact h _ (List.mem_map_of_mem hc)
  · simp only [Bool.and_eq_true, decide_eq_true_eq, List.all_eq_true, UInt8.le_iff_toNat_le] at h
    obtain ⟨⟨hmin, hmax⟩, hall⟩ := h
    have hascii := ascii_of_utf8 fun b hb => lt_of_le_of_lt (hall b hb).2 (by decide)
    rw [utf8_of_ascii hascii] at hmin hmax hall
    rw [List.length_map] at hmin hmax
    refine .inr ⟨hmin, hmax, fun c hc => ?_⟩
    have hbyte := hall _ (List.mem_map_of_mem hc)
    rw [toNat_asciiByte (hascii c hc)] at hbyte
    exact hbyte

/-- The two clients accept the same texts. -/
theorem validPsk_eq (s : String) :
    validPsk (utf8 s.toList) = (Network.validatePsk (.str s)).isOk := by
  rw [Bool.eq_iff_iff]
  constructor
  · intro h
    rcases psk_of_validPsk h with hhex | hphrase
    · rw [validatePsk_hex hhex]
      rfl
    · rw [validatePsk_passphrase hphrase]
      rfl
  · intro h
    cases hpsk : Network.validatePsk (.str s) with
    | error e =>
      rw [hpsk] at h
      exact nomatch h
    | ok psk =>
      rcases psk_of_validatePsk hpsk with hhex | hphrase
      · rw [utf8_of_ascii hhex.ascii]
        exact validPsk_hex hhex
      · rw [utf8_of_ascii hphrase.ascii]
        exact validPsk_passphrase hphrase

/-! ## The argument -/

/-- A character of a passphrase in the argument. -/
def escapePsk (c : Char) : List Char :=
  if c = '\\' then ['\\', '\\'] else if c = '"' then ['\\', '"'] else [c]

theorem length_escapePsk_le (c : Char) : (escapePsk c).length ≤ 2 := by
  unfold escapePsk
  split_ifs
  · exact le_rfl
  · exact le_rfl
  · exact Nat.le_succ 1

theorem escapePsk_printable {c d : Char} (h : 32 ≤ c.toNat ∧ c.toNat ≤ 126) (hd : d ∈ escapePsk c) :
    32 ≤ d.toNat ∧ d.toNat ≤ 126 := by
  unfold escapePsk at hd
  split_ifs at hd <;> simp only [List.mem_cons, List.not_mem_nil, or_false] at hd
  · rcases hd with rfl | rfl <;> decide
  · rcases hd with rfl | rfl <;> decide
  · exact hd ▸ h

/-- One turn of the loop of `psk_argument` that has room for two bytes. -/
private theorem quoteFrom_cons {c : Char} (hc : c.toNat < 128) {capacity : Nat}
    {rest output : Bytes} (hroom : output.length + 2 < capacity) :
    quoteFrom capacity (asciiByte c :: rest) output =
      quoteFrom capacity rest (output ++ (escapePsk c).map asciiByte) := by
  have hquote : asciiByte c = 0x22 ↔ c = '"' :=
    forall_ascii (P := fun c => asciiByte c = 0x22 ↔ c = '"') (by decide) hc
  have hslash : asciiByte c = 0x5c ↔ c = '\\' :=
    forall_ascii (P := fun c => asciiByte c = 0x5c ↔ c = '\\') (by decide) hc
  rw [quoteFrom, escapePsk]
  by_cases h1 : c = '\\'
  · subst h1
    rw [if_pos (.inr (hslash.mpr rfl)), if_neg (by omega), if_pos rfl]
    rfl
  · by_cases h2 : c = '"'
    · subst h2
      rw [if_pos (.inl (hquote.mpr rfl)), if_neg (by omega), if_neg h1, if_pos rfl]
      rfl
    · rw [if_neg (not_or.mpr ⟨h2 ∘ hquote.mp, h1 ∘ hslash.mp⟩), if_neg (by omega),
        if_neg h1, if_neg h2]
      rfl

/-- With two bytes for every character and the quote and NUL at the end, the loop of
    `psk_argument` writes everything. -/
private theorem quoteFrom_eq (capacity : Nat) (text : List Char) (h : ∀ c ∈ text, c.toNat < 128)
    (output : Bytes) (hroom : output.length + 2 * text.length + 2 ≤ capacity) :
    quoteFrom capacity (text.map asciiByte) output =
      some (output ++ (text.flatMap escapePsk).map asciiByte ++ [0x22]) := by
  induction text generalizing output with
  | nil =>
    rw [List.map_nil, quoteFrom, if_neg (by simpa using hroom)]
    simp
  | cons c text ih =>
    rw [List.forall_mem_cons] at h
    rw [List.length_cons] at hroom
    have hlength := length_escapePsk_le c
    rw [List.map_cons, quoteFrom_cons h.1 (by omega),
      ih h.2 _ (by rw [List.length_append, List.length_map]; omega)]
    simp only [List.flatMap_cons, List.map_append, List.append_assoc]

theorem pskArgument_hex {text : List Char} (h : HexKey text) :
    (Network.pskArgument (text.map Char.toLower)).toList = text.map Char.toLower := by
  have hall :
      (text.map Char.toLower).all (fun c => isAsciiDigit c || ('a' ≤ c && c ≤ 'f')) = true := by
    rw [List.all_map, List.all_eq_true]
    exact fun c hc => isHex_toLower (h.2 c hc)
  rw [Network.pskArgument, if_pos ⟨by rw [List.length_map, h.1], hall⟩, String.toList_ofList]

theorem pskArgument_passphrase {text : List Char} (h : Passphrase text) :
    (Network.pskArgument text).toList = '"' :: text.flatMap escapePsk ++ ['"'] := by
  have hmax := h.maximum
  rw [Network.pskArgument, if_neg fun heq => by omega, String.toList_ofList]
  rfl

theorem toLower_printable {c : Char} (h : Network.isHex c = true) :
    32 ≤ c.toLower.toNat ∧ c.toLower.toNat ≤ 126 :=
  forall_ascii (P := fun c => Network.isHex c = true → 32 ≤ c.toLower.toNat ∧ c.toLower.toNat ≤ 126)
    (by decide) (isHex_lt h) h

/-- An argument has no control character. -/
theorem pskArgument_printable {s : String} {psk : List Char}
    (h : Network.validatePsk (.str s) = .ok psk) :
    ∀ c ∈ (Network.pskArgument psk).toList, 32 ≤ c.toNat ∧ c.toNat ≤ 126 := by
  rcases psk_of_validatePsk h with hhex | hphrase
  · rw [validatePsk_hex hhex, Except.ok.injEq] at h
    subst h
    rw [pskArgument_hex hhex]
    intro c hc
    obtain ⟨d, hd, rfl⟩ := List.mem_map.mp hc
    exact toLower_printable (hhex.2 d hd)
  · rw [validatePsk_passphrase hphrase, Except.ok.injEq] at h
    subst h
    rw [pskArgument_passphrase hphrase]
    intro c hc
    simp only [List.cons_append, List.mem_cons, List.mem_append, List.mem_flatMap, List.not_mem_nil,
      or_false] at hc
    rcases hc with rfl | ⟨d, hd, hmem⟩ | rfl
    · decide
    · exact escapePsk_printable (hphrase.printable d hd) hmem
    · decide

/-- Both clients write the same argument. -/
theorem pskArgument_utf8 {s : String} {psk : List Char}
    (h : Network.validatePsk (.str s) = .ok psk) :
    pskArgument (utf8 s.toList) 132 = some (utf8 (Network.pskArgument psk).toList) := by
  have hascii : ∀ c ∈ (Network.pskArgument psk).toList, c.toNat < 128 := fun c hc => by
    have := (pskArgument_printable h c hc).2
    omega
  rw [utf8_of_ascii hascii]
  rcases psk_of_validatePsk h with hhex | hphrase
  · rw [validatePsk_hex hhex, Except.ok.injEq] at h
    subst h
    rw [pskArgument_hex hhex, utf8_of_ascii hhex.ascii, pskArgument, validPsk_hex hhex,
      List.length_map, hhex.1, List.map_map, List.map_map]
    have hmap : s.toList.map (toLowerByte ∘ asciiByte) = s.toList.map (asciiByte ∘ Char.toLower) :=
      List.map_congr_left fun c hc => toLowerByte_asciiByte (hhex.ascii c hc)
    rw [hmap]
    rfl
  · rw [validatePsk_passphrase hphrase, Except.ok.injEq] at h
    subst h
    have hmax := hphrase.maximum
    have hquote := quoteFrom_eq 132 s.toList hphrase.ascii [0x22] (by simp; omega)
    rw [pskArgument_passphrase hphrase, utf8_of_ascii hphrase.ascii, pskArgument,
      validPsk_passphrase hphrase, List.length_map, Bool.not_true, if_neg Bool.false_ne_true,
      if_neg (by omega), if_neg (by decide), hquote]
    simp only [List.map_append, List.map_cons, List.map_nil, List.cons_append, List.nil_append]
    rfl

private theorem unescape_escapePsk (c : Char) (rest : List Char) :
    unescape (escapePsk c ++ rest) = (unescape rest).map (c :: ·) := by
  by_cases h1 : c = '\\'
  · subst h1
    rfl
  · by_cases h2 : c = '"'
    · subst h2
      rfl
    · rw [escapePsk, if_neg h1, if_neg h2, List.singleton_append, unescape]
      · exact if_neg h2
      · exact fun _ _ heq _ => h1 heq
      · exact fun heq _ => h1 heq

theorem unescape_flatMap (text : List Char) : unescape (text.flatMap escapePsk) = some text := by
  induction text with
  | nil => rfl
  | cons c text ih => rw [List.flatMap_cons, unescape_escapePsk, ih, Option.map_some]

/-- The argument of a passphrase stands for it. -/
theorem unquote_pskArgument {text : List Char} (h : Passphrase text) :
    unquote (Network.pskArgument text).toList = some text := by
  rw [pskArgument_passphrase h, List.cons_append, unquote, if_pos (by simp), List.dropLast_concat,
    unescape_flatMap]

/-- For every text without NUL, the native client accepts it exactly when the Python one does,
    and then writes the same argument. It has no control character, and for a passphrase it
    is the passphrase within quotes and with its escapes. -/
theorem credential_agrees (s : String) (hnul : '\x00' ∉ s.toList) :
    validPsk (cString s) = (Network.validatePsk (.str s)).isOk ∧
    ∀ psk, Network.validatePsk (.str s) = .ok psk →
      pskArgument (cString s) 132 = some (utf8 (Network.pskArgument psk).toList) ∧
      (∀ c ∈ (Network.pskArgument psk).toList, 32 ≤ c.toNat ∧ c.toNat ≠ 127) ∧
      (s.toList.length ≠ 64 → unquote (Network.pskArgument psk).toList = some s.toList) := by
  rw [cString_of_not_nul hnul]
  refine ⟨validPsk_eq s, fun psk h => ⟨pskArgument_utf8 h, fun c hc => ?_, fun hlength => ?_⟩⟩
  · have := pskArgument_printable h c hc
    omega
  · rcases psk_of_validatePsk h with hhex | hphrase
    · exact absurd hhex.1 hlength
    · rw [validatePsk_passphrase hphrase, Except.ok.injEq] at h
      subst h
      exact unquote_pskArgument hphrase

/-- A passphrase of 63 quotes fills 127 of the 132 bytes. -/
theorem credential_agrees_quotes :
    validPsk (cString (String.ofList (List.replicate 63 '"'))) = true ∧
    pskArgument (cString (String.ofList (List.replicate 63 '"'))) 132 =
      some (utf8 (Network.pskArgument (List.replicate 63 '"')).toList) := by
  have hagrees := credential_agrees (String.ofList (List.replicate 63 '"')) (by
    rw [String.toList_ofList]
    decide)
  have hvalid : Network.validatePsk (.str (String.ofList (List.replicate 63 '"'))) =
      .ok (List.replicate 63 '"') := by
    have hphrase : Passphrase (String.ofList (List.replicate 63 '"')).toList := by
      rw [String.toList_ofList]
      exact ⟨by decide, by decide, fun c hc => by rw [List.eq_of_mem_replicate hc]; decide⟩
    rw [validatePsk_passphrase hphrase, String.toList_ofList]
  exact ⟨by rw [hagrees.1, hvalid]; rfl, (hagrees.2 _ hvalid).1⟩

end MsysHal.Native
