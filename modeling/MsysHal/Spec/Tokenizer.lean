import MsysHal.Native.Json

/-!
# The tokenizer step by step

What each function of the JSON tokenizer consumes and which token it adds, told by the bytes
from the position on.

## Key results

- `JsonParser.skipSpace_spec`, `JsonParser.parseString_iff`, `JsonParser.parsePrimitive_iff`
-/

namespace MsysHal.Native.Json

/-! ## Lists of tokens -/

/-- The last token is closed. -/
theorem modify_append_last {α : Type} (l : List α) (a : α) (f : α → α) :
    (l ++ [a]).modify l.length f = l ++ [f a] := by
  induction l with
  | nil => rfl
  | cons b l ih => simpa using ih

/-- A token before others is closed. -/
theorem modify_append_cons {α : Type} (l r : List α) (a : α) (f : α → α) :
    (l ++ a :: r).modify l.length f = l ++ f a :: r := by
  induction l with
  | nil => rfl
  | cons b l ih => simpa using ih

namespace JsonParser

variable {p p' : JsonParser}

@[simp] theorem advance_text (p : JsonParser) (n : Nat) : (p.advance n).text = p.text := rfl
@[simp] theorem advance_position (p : JsonParser) (n : Nat) :
    (p.advance n).position = p.position + n := rfl
@[simp] theorem advance_tokens (p : JsonParser) (n : Nat) : (p.advance n).tokens = p.tokens := rfl
@[simp] theorem advance_capacity (p : JsonParser) (n : Nat) : (p.advance n).capacity = p.capacity :=
  rfl
@[simp] theorem skipSpace_text (p : JsonParser) : p.skipSpace.text = p.text := rfl
@[simp] theorem skipSpace_tokens (p : JsonParser) : p.skipSpace.tokens = p.tokens := rfl
@[simp] theorem skipSpace_capacity (p : JsonParser) : p.skipSpace.capacity = p.capacity := rfl
@[simp] theorem close_text (p : JsonParser) (i n : Nat) : (p.close i n).text = p.text := rfl
@[simp] theorem close_position (p : JsonParser) (i n : Nat) : (p.close i n).position = p.position :=
  rfl
@[simp] theorem close_capacity (p : JsonParser) (i n : Nat) : (p.close i n).capacity = p.capacity :=
  rfl

/-- The bytes that are left after some of them. -/
theorem rest_advance (text : Bytes) {after : Bytes} (h : p.rest = text ++ after) :
    (p.advance text.length).rest = after := by
  rw [rest] at h
  rw [rest, advance_text, advance_position, ← List.drop_drop, h, List.drop_left]

theorem load_iff {b : UInt8} : p.text[p.position]? = some b ↔ ∃ after, p.rest = b :: after := by
  rw [← List.head?_drop, List.head?_eq_some_iff]
  rfl

/-- White space is passed over as far as it goes. -/
theorem skipSpace_spec (p : JsonParser) : ∃ space, (∀ b ∈ space, isSpaceByte b = true) ∧
    p.rest = space ++ p.skipSpace.rest ∧ p.skipSpace.position = p.position + space.length := by
  refine ⟨p.rest.takeWhile isSpaceByte, fun b hb => List.mem_takeWhile_imp hb, ?_, rfl⟩
  have hsplit : p.rest = p.rest.takeWhile isSpaceByte ++ p.rest.dropWhile isSpaceByte :=
    List.takeWhile_append_dropWhile.symm
  rw [skipSpace, rest_advance _ hsplit]
  exact hsplit

theorem newToken_iff {type : JsonType} {start : Nat} {parent : Int} :
    p.newToken type start parent = some p' ↔
    p.tokens.length < p.capacity ∧ p' =
      { p with tokens := p.tokens ++ [⟨type, start, -1, parent⟩] } := by
  rw [newToken]
  split
  · next hfull => exact ⟨nofun, fun h => absurd h.1 (by omega)⟩
  · next hroom => exact ⟨fun h => ⟨by omega, (Option.some.inj h).symm⟩, fun h => h.2 ▸ rfl⟩

end JsonParser

/-! ## Strings -/

theorem stringLength_cons {b : UInt8} (hlow : 0x20 ≤ b) (hquote : b ≠ 0x22) (hescape : b ≠ 0x5c)
    (rest : Bytes) : stringLength (b :: rest) = (stringLength rest).map (· + 1) := by
  rw [stringLength.eq_def]
  simp only [hquote, UInt8.not_lt.mpr hlow, hescape, if_false]

theorem stringLength_escape {b : UInt8} (h : isEscape b = true) (rest : Bytes) :
    stringLength (0x5c :: b :: rest) = (stringLength rest).map (· + 2) := by
  rw [stringLength.eq_def]
  simp [h]

theorem stringLength_hex {h₁ h₂ h₃ h₄ : UInt8}
    (h : (isHexByte h₁ && isHexByte h₂ && isHexByte h₃ && isHexByte h₄) = true) (rest : Bytes) :
    stringLength (0x5c :: 0x75 :: h₁ :: h₂ :: h₃ :: h₄ :: rest) =
      (stringLength rest).map (· + 6) := by
  have hu : isEscape 0x75 = false := by decide
  rw [stringLength.eq_def]
  simp [hu, h]

/-- Where a string ends: what follows the quote does not matter. -/
theorem stringLength_spec {text : Bytes} {n : Nat} (h : stringLength text = some n) :
    ∃ raw after, text = raw ++ 0x22 :: after ∧ raw.length = n ∧
      ∀ after, stringLength (raw ++ 0x22 :: after) = some n := by
  -- Each turn takes a front of the text, and the rest of the string is behind it.
  have hfront (front : Bytes) {rest : Bytes} {k m : Nat}
      (hstep : ∀ rest, stringLength (front ++ rest) = (stringLength rest).map (· + k))
      (hm : (stringLength rest).map (· + k) = some m) (hlength : front.length = k)
      (ih : ∀ {n}, stringLength rest = some n → ∃ raw after, rest = raw ++ 0x22 :: after ∧
        raw.length = n ∧
        ∀ after, stringLength (raw ++ 0x22 :: after) = some n) :
      ∃ raw after, front ++ rest = raw ++ 0x22 :: after ∧ raw.length = m ∧
        ∀ after, stringLength (raw ++ 0x22 :: after) = some m := by
    obtain ⟨j, hj, rfl⟩ := Option.map_eq_some_iff.mp hm
    obtain ⟨raw, after, rfl, rfl, hall⟩ := ih hj
    refine ⟨front ++ raw, after, by simp, by rw [List.length_append, hlength, Nat.add_comm],
      fun after => ?_⟩
    rw [List.append_assoc, hstep, hall]
    rfl
  fun_induction stringLength text generalizing n with
  | case1 => exact nomatch h
  | case2 rest =>
    obtain rfl := Option.some.inj h
    exact ⟨[], rest, rfl, rfl, fun after => by rw [List.nil_append, stringLength.eq_def]; rfl⟩
  | case3 => exact nomatch h
  | case4 => exact nomatch h
  | case5 escaped rest hescape _ _ ih =>
    exact hfront [0x5c, escaped] (stringLength_escape hescape) h rfl ih
  | case6 => exact nomatch h
  | case7 escaped hescape hu h₁ h₂ h₃ h₄ rest hhex _ _ ih =>
    obtain rfl := not_not.mp hu
    exact hfront [0x5c, 0x75, h₁, h₂, h₃, h₄] (stringLength_hex hhex) h rfl ih
  | case8 => exact nomatch h
  | case9 => exact nomatch h
  | case10 b rest hquote hlow hescape ih =>
    exact hfront [b] (stringLength_cons (UInt8.not_lt.mp hlow) hquote hescape) h rfl ih

theorem stringLength_cut {raw after : Bytes}
    (h : stringLength (raw ++ 0x22 :: after) = some raw.length)
    (after' : Bytes) : stringLength (raw ++ 0x22 :: after') = some raw.length := by
  obtain ⟨raw', after'', heq, hlength, hall⟩ := stringLength_spec h
  rw [(List.append_inj heq hlength.symm).1]
  rw [hlength]
  exact hall after'

namespace JsonParser

variable {p p' : JsonParser}

/-- What `parse_string` takes and adds. -/
theorem parseString_iff {parent : Int} : p.parseString parent = some p' ↔
    ∃ raw after, p.rest = 0x22 :: (raw ++ 0x22 :: after) ∧
      stringLength (raw ++ 0x22 :: after) = some raw.length ∧ p.tokens.length < p.capacity ∧
      p' = { p with
        position := p.position + (raw.length + 2)
        tokens := p.tokens ++
          [⟨.string, p.position + 1, (p.position + 1 + raw.length : Nat), parent⟩] } := by
  rw [parseString]
  by_cases hquote : p.text[p.position]? = some 0x22
  · rw [if_pos hquote]
    obtain ⟨tail, htail⟩ := load_iff.mp hquote
    -- The scan took a token and a text that ends at a quote.
    constructor
    · intro h
      obtain ⟨q, hq, h⟩ := Option.bind_eq_some_iff.mp h
      obtain ⟨length, hlength, heq⟩ := Option.bind_eq_some_iff.mp h
      obtain ⟨hroom, rfl⟩ := newToken_iff.mp hq
      have hrest : (p.advance 1).rest = tail := rest_advance [0x22] htail
      change stringLength (p.advance 1).rest = some length at hlength
      rw [hrest] at hlength
      obtain ⟨raw, after, rfl, rfl, -⟩ := stringLength_spec hlength
      refine ⟨raw, after, htail, hlength, hroom, ?_⟩
      cases heq
      simp only [close, advance, modify_append_last, mk.injEq, true_and, and_true]
      omega
    · rintro ⟨raw, after, hrest, hlength, hroom, rfl⟩
      -- Such a text is scanned to its end.
      have hopened : (p.advance 1).newToken .string (p.position + 1) parent =
          some { p.advance 1 with
            tokens := p.tokens ++ [⟨.string, p.position + 1, -1, parent⟩] } :=
        newToken_iff.mpr ⟨hroom, rfl⟩
      have hraw : (p.advance 1).rest = raw ++ 0x22 :: after := rest_advance [0x22] hrest
      rw [← hraw] at hlength
      simp only [hopened, Option.bind_eq_bind, Option.bind_some]
      change (stringLength (p.advance 1).rest).bind _ = _
      rw [hlength, Option.bind_some]
      simp only [close, advance, modify_append_last, Option.pure_def, Option.some.injEq,
        mk.injEq, true_and, and_true]
      omega
  · rw [if_neg hquote]
    refine ⟨nofun, ?_⟩
    -- A value that is no string starts with another byte.
    rintro ⟨raw, after, hrest, -⟩
    exact absurd (load_iff.mpr ⟨_, hrest⟩) hquote

/-! ## What is taken -/

/-- The parser has taken a front of what was left. -/
structure Took (p : JsonParser) (front : Bytes) (p' : JsonParser) : Prop where
  text : p'.text = p.text
  capacity : p'.capacity = p.capacity
  position : p'.position = p.position + front.length
  rest : p.rest = front ++ p'.rest

namespace Took

variable {q : JsonParser} {front more : Bytes}

theorem trans (h : Took p front p') (h' : Took p' more q) : Took p (front ++ more) q where
  text := h'.text.trans h.text
  capacity := h'.capacity.trans h.capacity
  position := by rw [h'.position, h.position, List.length_append, Nat.add_assoc]
  rest := by rw [h.rest, h'.rest, List.append_assoc]

/-- What was taken is inside the text. -/
theorem inside (h : Took p front p') (hne : front ≠ [] := by simp) :
    p.position + front.length ≤ p.text.length := by
  have hlength := congrArg List.length h.rest
  rw [JsonParser.rest, List.length_drop, List.length_append] at hlength
  have := List.length_pos_iff.mpr hne
  omega

/-- Only text and position count. -/
theorem of_position (htext : p'.text = p.text) (hcapacity : p'.capacity = p.capacity)
    (hposition : p'.position = p.position + front.length) (after : Bytes)
    (hrest : p.rest = front ++ after) :
    Took p front p' := by
  refine ⟨htext, hcapacity, hposition, ?_⟩
  have hafter : p'.rest = after := by
    rw [JsonParser.rest, htext, hposition]
    exact rest_advance front hrest
  rw [hafter]
  exact hrest

theorem advance {b : UInt8} (h : p.text[p.position]? = some b) : Took p [b] (p.advance 1) := by
  obtain ⟨after, hafter⟩ := load_iff.mp h
  exact of_position rfl rfl rfl after hafter

theorem close (h : Took p front p') (index stop : Nat) : Took p front (p'.close index stop) :=
  ⟨h.text, h.capacity, h.position, h.rest⟩

theorem skipSpace (p : JsonParser) : ∃ space, (∀ b ∈ space, isSpaceByte b = true) ∧
    Took p space p.skipSpace := by
  obtain ⟨space, hspace, hrest, hposition⟩ := skipSpace_spec p
  exact ⟨space, hspace, rfl, rfl, hposition, hrest⟩

theorem newToken {type : JsonType} {start : Nat} {parent : Int}
    (h : p.newToken type start parent = some p') :
    Took p [] p' ∧ p'.tokens = p.tokens ++ [⟨type, start, -1, parent⟩] := by
  obtain ⟨-, rfl⟩ := newToken_iff.mp h
  exact ⟨⟨rfl, rfl, rfl, rfl⟩, rfl⟩

theorem parseString {parent : Int} (h : p.parseString parent = some p') :
    ∃ raw, stringLength (raw ++ [0x22]) = some raw.length ∧ Took p (0x22 :: (raw ++ [0x22])) p' ∧
      p'.tokens =
        p.tokens ++ [⟨.string, p.position + 1, (p.position + 1 + raw.length : Nat), parent⟩] := by
  obtain ⟨raw, after, hrest, hlength, -, rfl⟩ := parseString_iff.mp h
  refine ⟨raw, stringLength_cut hlength [], of_position rfl rfl ?_ after ?_, rfl⟩
  · simp
  · rw [hrest]
    simp

theorem parsePrimitive {parent : Int} (h : p.parsePrimitive parent = some p') :
    ∃ raw, raw ≠ [] ∧ (∀ b ∈ raw, isDelimiter b = false) ∧ validPrimitive raw = true ∧
    Took p raw p' ∧
      p'.tokens =
        p.tokens ++ [⟨.primitive, p.position, (p.position + raw.length : Nat), parent⟩] := by
  rw [JsonParser.parsePrimitive] at h
  have hsplit : p.rest = p.rest.takeWhile (!isDelimiter ·) ++ p.rest.dropWhile (!isDelimiter ·) :=
    List.takeWhile_append_dropWhile.symm
  have hplain : ∀ b ∈ p.rest.takeWhile (!isDelimiter ·), isDelimiter b = false := fun b hb => by
    simpa using List.mem_takeWhile_imp hb
  generalize p.rest.takeWhile (!isDelimiter ·) = raw at h hsplit hplain
  dsimp only at h
  split at h
  · exact nomatch h
  · next hne =>
    split at h
    · next hvalid =>
      obtain ⟨q, hq, heq⟩ := Option.bind_eq_some_iff.mp h
      obtain ⟨-, rfl⟩ := newToken_iff.mp hq
      cases heq
      refine ⟨raw, hne, hplain, hvalid, of_position rfl rfl rfl _ hsplit, ?_⟩
      simp only [JsonParser.close, JsonParser.advance, modify_append_last]
    · exact nomatch h

end Took

end JsonParser

end MsysHal.Native.Json
