import MsysHal.Spec.Credential
import MsysHal.Spec.Tokenizer

/-!
# Strings as JSON

`buffer_string` writes a byte string as a JSON string. The tokenizer takes what it writes as
one string, it is valid UTF-8, and a JSON decoder reads it back as the string, with U+FFFD
for each byte that starts no sequence.

## Key results

- `exists_char_of_sequence`: what `utf8_sequence_length` accepts is a character
- `Decodes.unique`, `exists_decodes`: a byte string has one sequence of characters
- `bufferString_data`: what is appended, by the characters of the string
- `string_encoded`: how it is read back
-/

namespace MsysHal.Native.Json

/-! ## Characters of a byte string -/

/-- The characters of a byte string from left to right; `none` for a byte that starts no
    character. -/
inductive Decodes : Bytes → List (Option Char) → Prop where
  | nil : Decodes [] []
  | char (c : Char) {rest : Bytes} {units : List (Option Char)} (h : Decodes rest units) :
    Decodes (String.utf8EncodeChar c ++ rest) (some c :: units)
  | bad {b : UInt8} {rest : Bytes} {units : List (Option Char)}
    (hnone : ∀ c, ¬ String.utf8EncodeChar c <+: b :: rest) (h : Decodes rest units) :
    Decodes (b :: rest) (none :: units)

/-- The characters with the replacement character for each bad byte. -/
def replaced (units : List (Option Char)) : List Char := units.map (·.getD '\uFFFD')

/-- No character is the start of another one. -/
theorem char_unique {c d : Char} {rest rest' : Bytes}
    (h : String.utf8EncodeChar c ++ rest = String.utf8EncodeChar d ++ rest') : c = d ∧
    rest = rest' := by
  have hc := ByteArray.utf8DecodeChar?_utf8EncodeChar_append (b := rest.toByteArray) (c := c)
  have hd := ByteArray.utf8DecodeChar?_utf8EncodeChar_append (b := rest'.toByteArray) (c := d)
  rw [← List.toByteArray_append, h, List.toByteArray_append, hd, Option.some.injEq] at hc
  subst hc
  exact ⟨rfl, List.append_cancel_left h⟩

theorem Decodes.unique {text : Bytes} {units units' : List (Option Char)} (h : Decodes text units)
    (h' : Decodes text units') : units = units' := by
  induction h generalizing units' with
  | nil =>
    generalize htext : ([] : Bytes) = text at h'
    cases h' with
    | nil => rfl
    | char c h =>
      have hne : String.utf8EncodeChar c ≠ [] := String.utf8EncodeChar_ne_nil
      exact absurd (List.append_eq_nil_iff.mp htext.symm).1 hne
    | bad hnone h => exact nomatch htext
  | @char c rest units h ih =>
    generalize htext : String.utf8EncodeChar c ++ rest = text at h'
    cases h' with
    | nil =>
      have hne : String.utf8EncodeChar c ≠ [] := String.utf8EncodeChar_ne_nil
      exact absurd (List.append_eq_nil_iff.mp htext).1 hne
    | char d h' =>
      obtain ⟨rfl, rfl⟩ := char_unique htext
      rw [ih h']
    | bad hnone h' => exact absurd ⟨rest, htext⟩ (hnone c)
  | @bad b rest units hnone h ih =>
    generalize htext : b :: rest = text at h'
    cases h' with
    | nil => exact nomatch htext
    | @char d rest' units' h' => exact absurd ⟨rest', htext.symm⟩ (hnone d)
    | bad hnone' h' =>
      obtain ⟨rfl, rfl⟩ := List.cons.inj htext
      rw [ih h']

/-- A text decodes to its own characters. -/
theorem decodes_utf8 (text : List Char) : Decodes (utf8 text) (text.map some) := by
  induction text with
  | nil => exact .nil
  | cons c text ih => exact .char c ih

theorem exists_decodes (text : Bytes) : ∃ units, Decodes text units := by
  induction hlength : text.length using Nat.strong_induction_on generalizing text with
  | h length ih =>
    cases text with
    | nil => exact ⟨[], .nil⟩
    | cons b rest =>
      by_cases hchar : ∃ c, String.utf8EncodeChar c <+: b :: rest
      · obtain ⟨c, rest', heq⟩ := hchar
        have hpos : 0 < (String.utf8EncodeChar c).length :=
          List.length_pos_iff.mpr String.utf8EncodeChar_ne_nil
        have hle := congrArg List.length heq
        rw [List.length_append] at hle
        obtain ⟨units, hunits⟩ := ih rest'.length (by omega) rest' rfl
        exact ⟨some c :: units, heq ▸ .char c hunits⟩
      · rw [not_exists] at hchar
        obtain ⟨units, hunits⟩ := ih rest.length (by rw [← hlength]; simp) rest rfl
        exact ⟨none :: units, .bad hchar hunits⟩

/-! ## Sequences are characters -/

private theorem ofNat_toNat {n : Nat} (h : n.isValidChar) : (Char.ofNat n).val.toNat = n := by
  rw [Char.ofNat, dif_pos h]
  rfl

private theorem ofNat_eq {n : Nat} {b : UInt8} (h : n = b.toNat) : UInt8.ofNat n = b := by
  rw [h, UInt8.ofNat_toNat]

section Sequences

variable {a b c d : UInt8}

private theorem char_of_one (ha : a.toNat < 0x80) : ∃ ch, String.utf8EncodeChar ch = [a] := by
  refine ⟨Char.ofNat a.toNat, ?_⟩
  rw [String.utf8EncodeChar, ofNat_toNat (.inl (by omega)), if_pos (by omega), UInt8.ofNat_toNat]

private theorem char_of_two (ha : 0xc2 ≤ a.toNat ∧ a.toNat ≤ 0xdf)
    (hb : 0x80 ≤ b.toNat ∧ b.toNat ≤ 0xbf) : ∃ ch, String.utf8EncodeChar ch = [a, b] := by
  refine ⟨Char.ofNat ((a.toNat - 0xc0) * 64 + (b.toNat - 0x80)), ?_⟩
  rw [String.utf8EncodeChar, ofNat_toNat (.inl (by omega)), if_neg (by omega), if_pos (by omega),
    ofNat_eq (b := a) (by omega), ofNat_eq (b := b) (by omega)]

private theorem char_of_three (ha : 0xe0 ≤ a.toNat ∧ a.toNat ≤ 0xef)
    (hb : 0x80 ≤ b.toNat ∧ b.toNat ≤ 0xbf)
    (hc : 0x80 ≤ c.toNat ∧ c.toNat ≤ 0xbf) (hlow : a.toNat = 0xe0 → 0xa0 ≤ b.toNat)
    (hhigh : a.toNat = 0xed → b.toNat < 0xa0) : ∃ ch, String.utf8EncodeChar ch = [a, b, c] := by
  have hvalid : ((a.toNat - 0xe0) * 4096 + (b.toNat - 0x80) * 64 +
      (c.toNat - 0x80)).isValidChar := by
    rw [Nat.isValidChar]
    omega
  refine ⟨Char.ofNat ((a.toNat - 0xe0) * 4096 + (b.toNat - 0x80) * 64 + (c.toNat - 0x80)), ?_⟩
  rw [String.utf8EncodeChar, ofNat_toNat hvalid, if_neg (by omega), if_neg (by omega),
    if_pos (by omega), ofNat_eq (b := a) (by omega), ofNat_eq (b := b) (by omega),
    ofNat_eq (b := c) (by omega)]

private theorem char_of_four (ha : 0xf0 ≤ a.toNat ∧ a.toNat ≤ 0xf4)
    (hb : 0x80 ≤ b.toNat ∧ b.toNat ≤ 0xbf)
    (hc : 0x80 ≤ c.toNat ∧ c.toNat ≤ 0xbf) (hd : 0x80 ≤ d.toNat ∧ d.toNat ≤ 0xbf)
    (hlow : a.toNat = 0xf0 → 0x90 ≤ b.toNat) (hhigh : a.toNat = 0xf4 → b.toNat < 0x90) :
    ∃ ch, String.utf8EncodeChar ch = [a, b, c, d] := by
  have hvalid : ((a.toNat - 0xf0) * 262144 + (b.toNat - 0x80) * 4096 + (c.toNat - 0x80) * 64 +
      (d.toNat - 0x80)).isValidChar := by
    rw [Nat.isValidChar]
    omega
  refine ⟨Char.ofNat ((a.toNat - 0xf0) * 262144 + (b.toNat - 0x80) * 4096 + (c.toNat - 0x80) * 64 +
      (d.toNat - 0x80)), ?_⟩
  rw [String.utf8EncodeChar, ofNat_toNat hvalid, if_neg (by omega), if_neg (by omega),
    if_neg (by omega), ofNat_eq (b := a) (by omega), ofNat_eq (b := b) (by omega),
    ofNat_eq (b := c) (by omega), ofNat_eq (b := d) (by omega)]

end Sequences

/-- A byte that is not there is loaded as 0. -/
private theorem cons_of_getD {cursor : Bytes} (h : 0 < (cursor.getD 0 0).toNat) :
    ∃ rest, cursor = cursor.getD 0 0 :: rest ∧ ∀ i, cursor.getD (i + 1) 0 = rest.getD i 0 := by
  cases cursor with
  | nil => exact absurd h (by decide)
  | cons b rest => exact ⟨rest, rfl, fun i => rfl⟩

private theorem beq_iff_toNat {a b : UInt8} : (a == b) = true ↔ a.toNat = b.toNat := by
  rw [beq_iff_eq, UInt8.toNat_inj]

/-- What `utf8_sequence_length` accepts is a character. -/
theorem exists_char_of_sequence {a : UInt8} {rest : Bytes}
    (h : 0 < utf8SequenceLength (a :: rest)) : ∃ c, String.utf8EncodeChar c <+: a :: rest := by
  rw [utf8SequenceLength] at h
  simp only [List.getD_cons_zero, List.getD_cons_succ] at h
  split at h
  -- One byte.
  · next ha =>
    obtain ⟨c, hc⟩ := char_of_one (UInt8.lt_iff_toNat_lt.mp ha)
    exact ⟨c, rest, by rw [hc]; rfl⟩
  split at h
  -- Two bytes; the continuation is not the NUL, so there is one.
  · next _ htwo =>
    simp only [Bool.and_eq_true, decide_eq_true_eq, UInt8.le_iff_toNat_le] at htwo
    obtain ⟨⟨hlow, hhigh⟩, hb⟩ := htwo
    have hpos : 0 < (rest.getD 0 0).toNat := lt_of_lt_of_le (by decide) hb.1
    obtain ⟨tail, hrest, -⟩ := cons_of_getD hpos
    obtain ⟨c, hc⟩ := char_of_two ⟨hlow, hhigh⟩ hb
    exact ⟨c, tail, by rw [hc, hrest]; rfl⟩
  split at h
  -- Three bytes, neither overlong nor a surrogate.
  · next _ _ hthree =>
    simp only [Bool.and_eq_true, Bool.not_eq_true', Bool.and_eq_false_iff, beq_eq_false_iff_ne,
      decide_eq_true_eq, decide_eq_false_iff_not, UInt8.le_iff_toNat_le,
      UInt8.lt_iff_toNat_lt, ge_iff_le, ne_eq, ← UInt8.toNat_inj] at hthree
    obtain ⟨⟨⟨⟨⟨hlow, hhigh⟩, hb⟩, hc⟩, hoverlong⟩, hsurrogate⟩ := hthree
    have hbpos : 0 < (rest.getD 0 0).toNat := lt_of_lt_of_le (by decide) hb.1
    obtain ⟨tail, hrest, hnext⟩ := cons_of_getD hbpos
    rw [hnext 0] at hc
    have hcpos : 0 < (tail.getD 0 0).toNat := lt_of_lt_of_le (by decide) hc.1
    obtain ⟨tail', htail, -⟩ := cons_of_getD hcpos
    obtain ⟨ch, hch⟩ := char_of_three ⟨hlow, hhigh⟩ hb hc
      (fun heq => not_lt.mp (hoverlong.resolve_left (not_not.mpr heq)))
      (fun heq => not_le.mp (hsurrogate.resolve_left (not_not.mpr heq)))
    exact ⟨ch, tail', by rw [hch, hrest, htail]; rfl⟩
  split at h
  -- Four bytes, neither overlong nor behind the last character.
  · next _ _ _ hfour =>
    simp only [Bool.and_eq_true, Bool.not_eq_true', Bool.and_eq_false_iff, beq_eq_false_iff_ne,
      decide_eq_true_eq, decide_eq_false_iff_not, UInt8.le_iff_toNat_le,
      UInt8.lt_iff_toNat_lt, ge_iff_le, ne_eq, ← UInt8.toNat_inj] at hfour
    obtain ⟨⟨⟨⟨⟨⟨hlow, hhigh⟩, hb⟩, hc⟩, hd⟩, hoverlong⟩, hlarge⟩ := hfour
    have hbpos : 0 < (rest.getD 0 0).toNat := lt_of_lt_of_le (by decide) hb.1
    obtain ⟨tail, hrest, hnext⟩ := cons_of_getD hbpos
    rw [hnext 0] at hc
    rw [hnext 1] at hd
    have hcpos : 0 < (tail.getD 0 0).toNat := lt_of_lt_of_le (by decide) hc.1
    obtain ⟨tail', htail, hnext'⟩ := cons_of_getD hcpos
    rw [hnext' 0] at hd
    have hdpos : 0 < (tail'.getD 0 0).toNat := lt_of_lt_of_le (by decide) hd.1
    obtain ⟨tail'', htail', -⟩ := cons_of_getD hdpos
    obtain ⟨ch, hch⟩ := char_of_four ⟨hlow, hhigh⟩ hb hc hd
      (fun heq => not_lt.mp (hoverlong.resolve_left (not_not.mpr heq)))
      (fun heq => not_le.mp (hlarge.resolve_left (not_not.mpr heq)))
    exact ⟨ch, tail'', by rw [hch, hrest, htail, htail']; rfl⟩
  · exact absurd h (Nat.lt_irrefl 0)

/-! ## What is written -/

/-- The text of a character inside the quotes. -/
def unitText : Option Char → List Char
  | none => "\\ufffd".toList
  | some c =>
    if c = '"' ∨ c = '\\' then ['\\', c]
    else if c.toNat < 0x20 ∨ c.toNat = 0x7f then
      ['\\', 'u', '0', '0', Python.hexDigit (c.toNat / 16), Python.hexDigit c.toNat]
    else [c]

/-- The text between the quotes. -/
def bodyText (units : List (Option Char)) : List Char := units.flatMap unitText

private theorem encode_ascii {c : Char} (h : c.toNat < 128) :
    String.utf8EncodeChar c = [c.toNat.toUInt8] := by
  have hv : c.val.toNat ≤ 0x7f := Nat.le_of_lt_succ h
  rw [String.utf8EncodeChar, if_pos hv]
  rfl

/-- The cursor does not matter below 0x80. -/
private theorem stringUnit_ascii {value : UInt8} (h : value < 0x80) (cursor : Bytes) :
    stringUnit value cursor = stringUnit value [] := by
  have hnot : ¬ 0x80 ≤ value := UInt8.not_le.mpr h
  rw [stringUnit, stringUnit, if_neg hnot, if_neg hnot]

/-- A turn of the loop at an ASCII character. -/
private theorem stringUnit_char_ascii {c : Char} (h : c.toNat < 128) (cursor : Bytes) :
    stringUnit c.toNat.toUInt8 cursor = (utf8 (unitText (some c)), 1) := by
  have hlow : c.toNat.toUInt8 < 0x80 := by
    rw [UInt8.lt_iff_toNat_lt, Nat.toUInt8, UInt8.toNat_ofNat']
    exact (Nat.mod_le _ _).trans_lt h
  rw [stringUnit_ascii hlow]
  exact forall_ascii (P := fun c => stringUnit c.toNat.toUInt8 [] = (utf8 (unitText (some c)), 1))
    (by decide +kernel) h

/-- A turn of the loop at any other character. -/
private theorem stringUnit_char_high {c : Char} (h : 128 ≤ c.toNat) {b : UInt8} {tail : Bytes}
    (hencode : String.utf8EncodeChar c = b :: tail) (rest : Bytes) :
    stringUnit b (String.utf8EncodeChar c ++ rest) =
      (utf8 (unitText (some c)), (String.utf8EncodeChar c).length) := by
  have hb : 128 ≤ b.toNat := by
    rcases mem_encode (c := c) (b := b) (by simp [hencode]) with hlow | hhigh
    · omega
    · exact hhigh
  have hquote : ¬ (b = 0x22 ∨ b = 0x5c) := by
    rintro (rfl | rfl) <;> exact absurd hb (by decide)
  have hplain : ¬ (0x20 ≤ b ∧ b ≤ 0x7e) := by
    rw [UInt8.le_iff_toNat_le, UInt8.le_iff_toNat_le]
    exact fun hrange => absurd hrange.2 (by simp; omega)
  have hhigh : 0x80 ≤ b := UInt8.le_iff_toNat_le.mpr hb
  have hpos : 0 < (String.utf8EncodeChar c).length := by simp [hencode]
  rw [stringUnit, if_neg hquote, if_neg hplain, if_pos hhigh]
  simp only [utf8SequenceLength_encode, gt_iff_lt, hpos, if_true, List.take_left]
  have htext : unitText (some c) = [c] := by
    have hne : ¬ (c = '"' ∨ c = '\\') := by
      rintro (rfl | rfl) <;> exact absurd h (by decide)
    rw [unitText, if_neg hne, if_neg (by omega)]
  rw [htext, utf8, List.flatMap_singleton]

/-- A turn of the loop at a byte that starts no character. -/
private theorem stringUnit_bad {b : UInt8} {rest : Bytes}
    (hnone : ∀ c, ¬ String.utf8EncodeChar c <+: b :: rest) :
    stringUnit b (b :: rest) = (utf8 (unitText none), 1) := by
  have hhigh : 128 ≤ b.toNat := by
    by_contra hlow
    obtain ⟨c, hc⟩ := char_of_one (a := b) (by omega)
    exact hnone c ⟨rest, by rw [hc]; rfl⟩
  have hzero : utf8SequenceLength (b :: rest) = 0 := by
    by_contra hpos
    obtain ⟨c, hc⟩ := exists_char_of_sequence (Nat.pos_of_ne_zero hpos)
    exact hnone c hc
  have hquote : ¬ (b = 0x22 ∨ b = 0x5c) := by
    rintro (rfl | rfl) <;> exact absurd hhigh (by decide)
  have hplain : ¬ (0x20 ≤ b ∧ b ≤ 0x7e) := by
    rw [UInt8.le_iff_toNat_le, UInt8.le_iff_toNat_le]
    exact fun hrange => absurd hrange.2 (by simp; omega)
  have hle : 0x80 ≤ b := UInt8.le_iff_toNat_le.mpr hhigh
  rw [stringUnit, if_neg hquote, if_neg hplain, if_pos hle, hzero]
  rfl

theorem append_data {buffer : JsonBuffer} {text : Bytes} (h : (buffer.append text).failed = false) :
    buffer.failed = false ∧ (buffer.append text).data = buffer.data ++ text := by
  rw [JsonBuffer.append] at h ⊢
  split at h
  · exact nomatch h
  · next hroom =>
    rw [if_neg hroom]
    exact ⟨h, rfl⟩

/-- A turn of the loop, and what the turns behind it append. -/
private theorem bufferStringFrom_step {value : UInt8} {tail : Bytes} {u : Option Char} {n : Nat}
    {units : List (Option Char)} (hunit : stringUnit value (value :: tail) = (utf8 (unitText u), n))
    (hpos : 0 < n) {fuel : Nat} (hfuel : (value :: tail).length ≤ fuel) {buffer : JsonBuffer}
    (h : (bufferStringFrom fuel (value :: tail) buffer).failed = false)
    (hrest : ∀ {fuel : Nat}, ((value :: tail).drop n).length ≤ fuel → ∀ {buffer : JsonBuffer},
      (bufferStringFrom fuel ((value :: tail).drop n) buffer).failed = false →
      buffer.failed = false ∧
        (bufferStringFrom fuel ((value :: tail).drop n) buffer).data = buffer.data ++
          utf8 (bodyText units)) :
    buffer.failed = false ∧
      (bufferStringFrom fuel (value :: tail) buffer).data = buffer.data ++
        utf8 (bodyText (u :: units)) := by
  obtain ⟨fuel, rfl⟩ : ∃ k, fuel = k + 1 := ⟨fuel - 1, by simp at hfuel; omega⟩
  rw [bufferStringFrom] at h ⊢
  by_cases hfailed : buffer.failed = true
  · rw [if_pos hfailed, hfailed] at h
    exact nomatch h
  · rw [if_neg hfailed] at h ⊢
    simp only [hunit] at h ⊢
    have hleft : ((value :: tail).drop n).length ≤ fuel := by
      rw [List.length_drop]
      omega
    obtain ⟨happended, hdata⟩ := hrest hleft h
    obtain ⟨hok, hfront⟩ := append_data happended
    refine ⟨hok, ?_⟩
    rw [hdata, hfront, List.append_assoc, bodyText, bodyText, List.flatMap_cons, utf8_append]

/-- What the loop appends, by induction on the characters. -/
theorem bufferStringFrom_data {text : Bytes} {units : List (Option Char)}
    (hdecodes : Decodes text units) {fuel : Nat} (hfuel : text.length ≤ fuel) {buffer : JsonBuffer}
    (h : (bufferStringFrom fuel text buffer).failed = false) :
    buffer.failed = false ∧
      (bufferStringFrom fuel text buffer).data = buffer.data ++ utf8 (bodyText units) := by
  induction hdecodes generalizing fuel buffer with
  | nil =>
    have hsame : bufferStringFrom fuel [] buffer = buffer := by
      cases fuel with
      | zero => rfl
      | succ fuel => rw [bufferStringFrom]; split <;> rfl
    rw [hsame] at h ⊢
    exact ⟨h, by simp [bodyText, utf8]⟩
  | @char c rest units hrest ih =>
    have hdrop : (String.utf8EncodeChar c ++ rest).drop (String.utf8EncodeChar c).length = rest :=
      List.drop_left
    cases hencode : String.utf8EncodeChar c with
    | nil => exact absurd hencode String.utf8EncodeChar_ne_nil
    | cons b tail =>
      rw [hencode] at hfuel h hdrop
      have hunit : stringUnit b (b :: (tail ++ rest)) =
          (utf8 (unitText (some c)), (b :: tail).length) := by
        by_cases hascii : c.toNat < 128
        · have hsingle := (encode_ascii hascii).symm.trans hencode
          obtain ⟨rfl, rfl⟩ := List.cons.inj hsingle
          exact stringUnit_char_ascii hascii _
        · have hhigh := stringUnit_char_high (not_lt.mp hascii) hencode rest
          rwa [hencode] at hhigh
      exact bufferStringFrom_step hunit (by simp) hfuel h (hdrop.symm ▸ ih)
  | @bad b rest units hnone hrest ih =>
    exact bufferStringFrom_step (stringUnit_bad hnone) (by decide) hfuel h ih

/-- What a string adds to a buffer that does not fail. -/
theorem bufferString_data {text : Bytes} {units : List (Option Char)}
    (hdecodes : Decodes text units)
    {buffer : JsonBuffer} (h : (bufferString buffer text).failed = false) :
    (bufferString buffer text).data = buffer.data ++ utf8 ('"' :: (bodyText units ++ ['"'])) := by
  obtain ⟨hloop, hdata⟩ := append_data h
  obtain ⟨hopen, hbody⟩ := bufferStringFrom_data hdecodes le_rfl hloop
  obtain ⟨-, hquote⟩ := append_data hopen
  have htext : utf8 ('"' :: (bodyText units ++ ['"'])) =
      [0x22] ++ utf8 (bodyText units) ++ [0x22] := by
    rw [← List.singleton_append, utf8_append, utf8_append, List.append_assoc]
    rfl
  rw [bufferString, hdata, hbody, hquote, htext]
  simp

/-! ## How it is read back -/

open Python in
/-- The scanner of a JSON decoder reads a character back. -/
private theorem scanUnits_unit (u : Option Char) (text : List Char) :
    scanUnits (unitText u ++ text) = (scanUnits text).map fun p =>
      ((u.getD '\uFFFD').toNat :: p.1, p.2) := by
  cases u with
  | none =>
    have hcode : hexCode 'f' 'f' 'f' 'd' = some 0xfffd := by decide
    have htext : unitText none ++ text = '\\' :: 'u' :: 'f' :: 'f' :: 'f' :: 'd' :: text := rfl
    rw [htext, scanUnits, hcode]
    cases scanUnits text <;> rfl
  | some c =>
    rw [unitText]
    by_cases hescape : c = '"' ∨ c = '\\'
    · rw [if_pos hescape]
      rcases hescape with rfl | rfl
      · exact scanUnits_simpleEscape _ _ _ (by decide) (by decide)
      · exact scanUnits_simpleEscape _ _ _ (by decide) (by decide)
    · rw [if_neg hescape]
      by_cases hcontrol : c.toNat < 0x20 ∨ c.toNat = 0x7f
      · rw [if_pos hcontrol]
        exact scanUnits_hexEscape c.toNat text (by omega)
      · rw [if_neg hcontrol]
        rw [not_or] at hescape hcontrol
        exact scanUnits_plain c text hescape.1 hescape.2 hcontrol.1

open Python in
theorem scanString_body (units : List (Option Char)) (after : List Char) :
    scanString (bodyText units ++ '"' :: after) =
      some (.str (String.ofList (replaced units)), after) := by
  have hunits : scanUnits (bodyText units ++ '"' :: after) =
      some ((replaced units).map Char.toNat, after) := by
    induction units with
    | nil => simp only [bodyText, List.flatMap_nil, List.nil_append, replaced,
        List.map_nil, scanUnits]
    | cons u units ih =>
      rw [bodyText, List.flatMap_cons, List.append_assoc, scanUnits_unit]
      rw [bodyText] at ih
      rw [ih]
      rfl
  rw [scanString, hunits, Option.map_some, joinSurrogates_chars, strOfCodes_chars]

/-- Bytes that need no escape are part of a string one by one. -/
private theorem stringLength_plain {bytes : Bytes} (h : ∀ b ∈ bytes, 0x20 ≤ b ∧ b ≠ 0x22 ∧ b ≠ 0x5c)
    (rest : Bytes) : stringLength (bytes ++ rest) = (stringLength rest).map (· + bytes.length) := by
  induction bytes with
  | nil => simp
  | cons b bytes ih =>
    obtain ⟨⟨hlow, hquote, hescape⟩, hrest⟩ := List.forall_mem_cons.mp h
    rw [List.cons_append, stringLength_cons hlow hquote hescape, ih hrest, Option.map_map,
      List.length_cons]
    rfl

/-- A hexadecimal digit is one byte. -/
private theorem encode_hexDigit (n : Nat) :
    ∃ b, String.utf8EncodeChar (Python.hexDigit n) = [b] ∧ isHexByte b = true := by
  have hall : ∀ n < 16, (String.utf8EncodeChar (Python.hexDigit n)).length = 1 ∧
      (String.utf8EncodeChar (Python.hexDigit n)).all isHexByte = true := by decide +kernel
  have hmod : Python.hexDigit n = Python.hexDigit (n % 16) := by simp [Python.hexDigit]
  obtain ⟨hlength, hhex⟩ := hall (n % 16) (Nat.mod_lt n (by decide))
  rw [← hmod] at hlength hhex
  obtain ⟨b, hb⟩ := List.length_eq_one_iff.mp hlength
  exact ⟨b, hb, by simpa [hb] using hhex⟩

/-- The bytes of a character that needs no escape. -/
private theorem encode_plain {c : Char} (hquote : c ≠ '"') (hescape : c ≠ '\\')
    (hlow : ¬ c.toNat < 0x20) : ∀ b ∈ String.utf8EncodeChar c, 0x20 ≤ b ∧ b ≠ 0x22 ∧ b ≠ 0x5c := by
  intro b hb
  have hne {d : Char} (h : b.toNat = d.toNat) (hd : d.toNat < 128) : c = d := by
    rcases mem_encode hb with ⟨-, heq⟩ | hhigh
    · exact Char.ext (UInt32.toNat_inj.mp (heq.symm.trans h))
    · omega
  refine ⟨UInt8.le_iff_toNat_le.mpr ?_, fun h => hquote (hne (h ▸ rfl) (by decide)),
    fun h => hescape (hne (h ▸ rfl) (by decide))⟩
  have htwenty : (0x20 : UInt8).toNat = 32 := rfl
  rcases mem_encode hb with ⟨-, heq⟩ | hhigh <;> omega

private theorem stringLength_unit (u : Option Char) (rest : Bytes) :
    stringLength (utf8 (unitText u) ++ rest) =
      (stringLength rest).map (· + (utf8 (unitText u)).length) := by
  cases u with
  | none => exact stringLength_hex (by decide) rest
  | some c =>
    rw [unitText]
    by_cases hescape : c = '"' ∨ c = '\\'
    · rw [if_pos hescape]
      rcases hescape with rfl | rfl
      · exact stringLength_escape (by decide) rest
      · exact stringLength_escape (by decide) rest
    · rw [if_neg hescape]
      rw [not_or] at hescape
      by_cases hcontrol : c.toNat < 0x20 ∨ c.toNat = 0x7f
      · obtain ⟨high, hhigh, hhex⟩ := encode_hexDigit (c.toNat / 16)
        obtain ⟨low, hlow, hhex'⟩ := encode_hexDigit c.toNat
        have htext :
            utf8 ['\\', 'u', '0', '0', Python.hexDigit (c.toNat / 16), Python.hexDigit c.toNat] =
            [0x5c, 0x75, 0x30, 0x30, high, low] := by
          simp only [utf8, List.flatMap_cons, hhigh, hlow]
          rfl
        rw [if_pos hcontrol, htext]
        have hzero : isHexByte 0x30 = true := by decide
        exact stringLength_hex (by rw [hzero, hhex, hhex']; rfl) rest
      · rw [if_neg hcontrol]
        rw [not_or] at hcontrol
        have hplain := stringLength_plain (encode_plain hescape.1 hescape.2 hcontrol.1) rest
        simpa [utf8] using hplain

theorem stringLength_body (units : List (Option Char)) (after : Bytes) :
    stringLength (utf8 (bodyText units) ++ 0x22 :: after) =
      some (utf8 (bodyText units)).length := by
  induction units with
  | nil => rw [bodyText, List.flatMap_nil, utf8, List.flatMap_nil, List.nil_append,
      stringLength.eq_def]; rfl
  | cons u units ih =>
    have hcons : utf8 (bodyText (u :: units)) = utf8 (unitText u) ++ utf8 (bodyText units) := by
      rw [bodyText, List.flatMap_cons, utf8_append, bodyText]
    rw [hcons, List.append_assoc, stringLength_unit, ih, Option.map_some, List.length_append,
      Nat.add_comm]

/-- The tokenizer takes the text as one string and stops behind it. -/
theorem parseString_body (units : List (Option Char)) (before after : Bytes) (tokens : List Token)
    {capacity : Nat} (hroom : tokens.length < capacity) (parent : Int) :
    let text := utf8 ('"' :: (bodyText units ++ ['"']))
    (JsonParser.mk (before ++ text ++ after) before.length tokens capacity).parseString parent =
      some ⟨before ++ text ++ after, before.length + text.length,
        tokens ++ [⟨.string, before.length + 1, (before.length + text.length - 1 : Nat), parent⟩],
        capacity⟩ := by
  have htext : utf8 ('"' :: (bodyText units ++ ['"'])) =
      0x22 :: (utf8 (bodyText units) ++ [0x22]) := by
    rw [← List.singleton_append, utf8_append, utf8_append]
    rfl
  have hlength := stringLength_body units after
  dsimp only
  rw [htext, JsonParser.parseString_iff]
  refine ⟨utf8 (bodyText units), after, ?_, hlength, hroom, ?_⟩
  · simp [JsonParser.rest]
  · simp [JsonParser.mk.injEq]
    omega

/-! ## Printable ASCII -/

/-- The text of a printable ASCII byte. -/
private theorem unitText_printable {b : UInt8} (h : isPrintable b = true) :
    String.utf8EncodeChar (Char.ofNat b.toNat) = [b] ∧
      utf8 (unitText (some (Char.ofNat b.toNat))) = if b = 0x22 ∨ b = 0x5c then [0x5c, b]
        else [b] := by
  revert h
  exact forall_byte (P := fun b => isPrintable b = true →
    String.utf8EncodeChar (Char.ofNat b.toNat) = [b] ∧
      utf8 (unitText (some (Char.ofNat b.toNat))) = if b = 0x22 ∨ b = 0x5c then [0x5c, b] else [b])
    (by decide +kernel) b

/-- The characters of a printable ASCII text are its bytes. -/
private theorem decodes_printable {text : Bytes} (h : text.all isPrintable = true) :
    Decodes text (text.map fun b => some (Char.ofNat b.toNat)) := by
  induction text with
  | nil => exact .nil
  | cons b text ih =>
    rw [List.all_cons, Bool.and_eq_true] at h
    have hchar := Decodes.char (Char.ofNat b.toNat) (ih h.2)
    rw [(unitText_printable h.1).1] at hchar
    exact hchar

/-- `copy_string` undoes the escapes, by induction on the text. -/
private theorem copyFrom_body {text : Bytes} (h : text.all isPrintable = true) {capacity : Nat}
    (output : Bytes) (hroom : output.length + text.length < capacity) :
    copyFrom escapedByte (fun value position =>
        decide (0x20 ≤ value) && decide (value ≤ 0x7e) && decide (position + 1 < capacity))
      (utf8 (bodyText (text.map fun b => some (Char.ofNat b.toNat)))) output =
        some (output ++ text) := by
  -- Induction on the text; each byte is one unit of the encoded body.
  induction text generalizing output with
  | nil => simp [bodyText, utf8, copyFrom]
  | cons b text ih =>
    rw [List.all_cons, Bool.and_eq_true] at h
    obtain ⟨hb, htext⟩ := h
    have hnext := ih htext (output ++ [b]) (by simp at hroom ⊢; omega)
    have hcons : utf8 (bodyText ((b :: text).map fun b => some (Char.ofNat b.toNat))) =
        utf8 (unitText (some (Char.ofNat b.toNat))) ++
          utf8 (bodyText (text.map fun b => some (Char.ofNat b.toNat))) := by
      rw [List.map_cons, bodyText, List.flatMap_cons, utf8_append, bodyText]
    have haccept : (decide (0x20 ≤ b) && decide (b ≤ 0x7e) &&
        decide (output.length + 1 < capacity)) = true := by
      have hrange : decide (0x20 ≤ b) = true ∧ decide (b ≤ 0x7e) = true := by
        simpa [isPrintable] using hb
      rw [hrange.1, hrange.2, decide_eq_true]
      · rfl
      · simp at hroom
        omega
    rw [hcons, (unitText_printable hb).2]
    -- A quote and a backslash are escaped, all else stands for itself.
    by_cases hescape : b = 0x22 ∨ b = 0x5c
    · have hvalue : escapedByte b = some b := by rcases hescape with rfl | rfl <;> rfl
      rw [if_pos hescape, List.cons_append, List.singleton_append, copyFrom, hvalue]
      simp only [haccept, if_true]
      rw [hnext]
      simp
    · rw [not_or] at hescape
      rw [if_neg (not_or.mpr hescape), List.singleton_append, copyFrom]
      · rw [haccept, if_pos rfl, hnext]
        simp
      · exact fun heq _ => hescape.2 heq
      · exact fun _ _ heq _ => hescape.2 heq

/-! ## The round trip -/

/-- For every C string, and every buffer that does not fail: the bytes that `buffer_string`
    appends are valid UTF-8, the tokenizer takes them as one string and stops behind them,
    and a JSON decoder reads them back as the string with U+FFFD for each byte that starts no
    character. `copy_string` gives back a printable ASCII string that fits. -/
theorem string_encoded (text : Bytes) (buffer : JsonBuffer)
    (h : (bufferString buffer text).failed = false) :
    ∃ units, Decodes text units ∧ (∀ units', Decodes text units' → units' = units) ∧
      (∀ chars, text = utf8 chars → replaced units = chars) ∧
      (bufferString buffer text).data = buffer.data ++ utf8 ('"' :: (bodyText units ++ ['"'])) ∧
      (∀ before after tokens capacity parent, tokens.length < capacity →
        let written := utf8 ('"' :: (bodyText units ++ ['"']))
        (JsonParser.mk (before ++ written ++ after) before.length tokens capacity).parseString
          parent =
          some ⟨before ++ written ++ after, before.length + written.length, tokens ++
            [⟨.string, before.length + 1, (before.length + written.length - 1 : Nat), parent⟩],
            capacity⟩) ∧
      (∀ after, Python.scanString (bodyText units ++ '"' :: after) =
        some (.str (String.ofList (replaced units)), after)) ∧
      (text.all isPrintable = true → ∀ capacity, text.length < capacity →
        copyString (.string (utf8 (bodyText units))) capacity = some text) := by
  obtain ⟨units, hunits⟩ := exists_decodes text
  refine ⟨units, hunits, fun units' h' => h'.unique hunits, fun chars htext =>
    ?_, bufferString_data hunits h, fun before after tokens capacity parent hroom =>
      parseString_body units before after tokens hroom parent,
    scanString_body units, fun hprint capacity hroom => ?_⟩
  · subst htext
    rw [hunits.unique (decodes_utf8 chars), replaced, List.map_map]
    exact List.map_id chars
  · rw [hunits.unique (decodes_printable hprint), copyString]
    simpa using copyFrom_body hprint [] (by simpa using hroom)

/-- A text with a quote is escaped and copied back. -/
theorem string_encoded_quote : ∃ units, Decodes (ascii "a\"b") units ∧
    (bufferString ⟨[], 16, false⟩ (ascii "a\"b")).data = utf8 ('"' :: (bodyText units ++ ['"'])) ∧
    copyString (.string (utf8 (bodyText units))) 4 = some (ascii "a\"b") := by
  obtain ⟨units, hunits, -, -, hdata, -, -, hcopy⟩ :=
    string_encoded (ascii "a\"b") ⟨[], 16, false⟩ (by decide)
  exact ⟨units, hunits, hdata, hcopy (by decide) 4 (by decide)⟩

end MsysHal.Native.Json
