import MsysHal.Native.Buffers

/-!
# Mount paths read back

The kernel escapes the separators of `/proc/self/mountinfo` in a path. Decoding the
escaped form in place gives the path, and the write cursor stays behind the read cursor.

## Key results

- `MountPath.step_cursors`, `MountPath.Reaches.write_le`: the cursors
- `decodeMountPath_text`: decoding in place is `unoctal`, for every text
- `mount_path_decoded`: every path without NUL is read back
-/

namespace MsysHal.Native

/-! ## What the kernel writes -/

/-- A byte that the kernel escapes: space, tab, newline, backslash and `#`. -/
def isMangled (b : UInt8) : Bool := b == 0x20 || b == 0x09 || b == 0x0a || b == 0x5c || b == 0x23

/-- The last octal digit of a number. -/
def octalDigit (n : Nat) : UInt8 := UInt8.ofNat (0x30 + n % 8)

/-- A byte of a path: itself, or a backslash and three octal digits. -/
def mangleByte (b : UInt8) : Bytes :=
  if isMangled b then
    [0x5c, octalDigit (b.toNat / 64), octalDigit (b.toNat / 8), octalDigit b.toNat]
  else [b]

/-- The escaped form of a path. -/
def mangle (path : Bytes) : Bytes := path.flatMap mangleByte

example : mangle (ascii "/media/a b") = ascii "/media/a\\040b" := by decide

/-- What is left when the escapes of a text are replaced. -/
def unoctal : Bytes → Bytes
  | [] => []
  | b :: d₁ :: d₂ :: d₃ :: rest =>
    if b = 0x5c ∧ isOctal d₁ = true ∧ isOctal d₂ = true ∧ isOctal d₃ = true then
      ((d₁ - 0x30) * 64 + (d₂ - 0x30) * 8 + (d₃ - 0x30)) :: unoctal rest
    else b :: unoctal (d₁ :: d₂ :: d₃ :: rest)
  | b :: rest => b :: unoctal rest

theorem unoctal_cons {b : UInt8} (hb : b ≠ 0x5c) (rest : Bytes) :
    unoctal (b :: rest) = b :: unoctal rest := by
  rcases rest with _ | ⟨d₁, _ | ⟨d₂, _ | ⟨d₃, rest⟩⟩⟩
  · rfl
  · rfl
  · rfl
  · rw [unoctal, if_neg fun h => hb h.1]

theorem unoctal_mangle (path : Bytes) : unoctal (mangle path) = path := by
  induction path with
  | nil => rfl
  | cons b path ih =>
    rw [mangle, List.flatMap_cons, mangleByte]
    rw [mangle] at ih
    by_cases hmangled : isMangled b = true
    · have hbyte : b = 0x20 ∨ b = 0x09 ∨ b = 0x0a ∨ b = 0x5c ∨ b = 0x23 := by
        simpa [isMangled, or_assoc] using hmangled
      rw [if_pos hmangled]
      simp only [List.cons_append, List.nil_append]
      rw [unoctal, ih]
      -- The digits of each of the five bytes
      rcases hbyte with rfl | rfl | rfl | rfl | rfl <;> rfl
    · have hne : b ≠ 0x5c := by
        rintro rfl
        exact hmangled (by decide)
      rw [if_neg hmangled, List.singleton_append, unoctal_cons hne, ih]

/-! ## Cursors -/

namespace MountPath

/-- The states of a decoding: the loop turns while the byte under the read cursor is not NUL. -/
inductive Reaches : MountPath → MountPath → Prop
  | refl (s : MountPath) : Reaches s s
  | turn {s t u : MountPath} {b : UInt8} (hb : s.buffer[s.read]? = some b) (hne : b ≠ 0)
    (hstep : s.step = some t) (h : Reaches t u) : Reaches s u

/-- One turn writes one byte and reads at least one. -/
theorem step_cursors {s t : MountPath} (h : s.step = some t) :
    t.write = s.write + 1 ∧ s.read + 1 ≤ t.read := by
  unfold step at h
  simp only [Option.bind_eq_bind, Option.bind_eq_some_iff] at h
  obtain ⟨escaped, -, h⟩ := h
  cases escaped with
  | some b =>
    simp only [Option.bind_eq_some_iff] at h
    obtain ⟨buffer, -, h⟩ := h
    cases h
    exact ⟨rfl, by simp only; omega⟩
  | none =>
    simp only [Option.bind_eq_some_iff] at h
    obtain ⟨b, -, buffer, -, h⟩ := h
    cases h
    exact ⟨rfl, Nat.le_refl _⟩

/-- The write cursor never passes the read cursor. -/
theorem Reaches.write_le {s t : MountPath} (h : Reaches s t) (hs : s.write ≤ s.read) :
    t.write ≤ t.read := by
  induction h with
  | refl s => exact hs
  | turn hb hne hstep h ih =>
    have hcursors := step_cursors hstep
    exact ih (by omega)

/-! ## One turn -/

section Step

variable {buffer tail : Bytes} {read write : Nat} {b : UInt8}

private theorem getElem?_of_drop {rest : Bytes} (h : buffer.drop read = rest) (i : Nat) :
    buffer[read + i]? = rest[i]? := by
  rw [← h, List.getElem?_drop]

/-- A byte that starts no escape is copied. -/
private theorem step_plain (h : buffer.drop read = b :: tail)
    (hescape : escapeAt buffer read = some none) (hwrite : write ≤ read) :
    step ⟨buffer, read, write⟩ = some ⟨buffer.set write b, read + 1, write + 1⟩ := by
  have hload := getElem?_of_drop h 0
  rw [Nat.add_zero, List.getElem?_cons_zero] at hload
  have hroom : write < buffer.length := by
    have := (List.getElem?_eq_some_iff.mp hload).1
    omega
  simp [step, hescape, hload, store, hroom]

/-- A backslash and three octal digits are the byte they stand for. -/
private theorem step_escape {d₁ d₂ d₃ : UInt8}
    (h : buffer.drop read = 0x5c :: d₁ :: d₂ :: d₃ :: tail)
    (h₁ : isOctal d₁ = true) (h₂ : isOctal d₂ = true) (h₃ : isOctal d₃ = true)
    (hwrite : write ≤ read) :
    step ⟨buffer, read, write⟩ =
      some ⟨buffer.set write ((d₁ - 0x30) * 64 + (d₂ - 0x30) * 8 + (d₃ - 0x30)),
      read + 4, write + 1⟩ := by
  have hload := getElem?_of_drop h 0
  rw [Nat.add_zero] at hload
  have hroom : write < buffer.length := by
    have := (List.getElem?_eq_some_iff.mp hload).1
    omega
  have hescape : escapeAt buffer read =
      some (some ((d₁ - 0x30) * 64 + (d₂ - 0x30) * 8 + (d₃ - 0x30))) := by
    rw [escapeAt, hload, getElem?_of_drop h 1, getElem?_of_drop h 2, getElem?_of_drop h 3]
    simp [h₁, h₂, h₃]
  simp [step, hescape, store, hroom]

/-- No byte but a backslash starts an escape. -/
private theorem escapeAt_plain (h : buffer.drop read = b :: tail) (hb : b ≠ 0x5c) :
    escapeAt buffer read = some none := by
  have hload := getElem?_of_drop h 0
  rw [Nat.add_zero, List.getElem?_cons_zero] at hload
  rw [escapeAt, hload]
  simp [hb]

/-- The digits are loaded up to the first byte that is none, which is not behind the NUL. -/
private theorem escapeAt_short (text : Bytes) (h : buffer.drop read = b :: (text ++ 0 :: tail))
    (hshort : ¬(text.length ≥ 3 ∧ ∀ d ∈ text.take 3, isOctal d = true)) :
    escapeAt buffer read = some none := by
  have hload (i : Nat) := getElem?_of_drop h i
  have hnul : isOctal 0 = false := by decide
  by_cases hb : b = 0x5c
  · rw [escapeAt, hload 1, hload 2, hload 3]
    have hfirst := hload 0
    rw [Nat.add_zero, List.getElem?_cons_zero] at hfirst
    rw [hfirst]
    rcases text with _ | ⟨d₁, _ | ⟨d₂, _ | ⟨d₃, rest⟩⟩⟩
    · simp [hb, hnul]
    · simp [hb, hnul]
    · simp [hb, hnul]
    · have hsome : ¬(isOctal d₁ = true ∧ isOctal d₂ = true ∧ isOctal d₃ = true) := by
        simpa using hshort
      cases h₁ : isOctal d₁ <;> cases h₂ : isOctal d₂ <;> cases h₃ : isOctal d₃ <;>
        simp_all
  · exact escapeAt_plain h hb

end Step

/-! ## The loop -/

/-- The text of a buffer ends at a NUL. -/
theorem cText_append_nul (text rest : Bytes) : cText (text ++ 0 :: rest) = cText text := by
  rw [cText, cText, List.takeWhile_append]
  split_ifs with h
  · have hall : text.takeWhile (· ≠ 0) = text :=
      List.IsPrefix.eq_of_length (List.takeWhile_prefix _) h
    rw [hall]
    simp
  · rfl

/-- One turn leaves the rest of the text to read, and its byte is written. -/
private theorem decode_turn {buffer rest : Bytes} {fuel read write skip : Nat} {b c : UInt8}
    {result : Bytes} (hload : buffer[read]? = some c) (hc : c ≠ 0) (hwrite : write ≤ read)
    (hskip : 0 < skip)
    (hstep : step ⟨buffer, read, write⟩ = some ⟨buffer.set write b, read + skip, write + 1⟩)
    (hread : buffer.drop (read + skip) = rest)
    (ih : ∀ (buffer : Bytes) (read write : Nat), buffer.drop read = rest → write ≤ read →
      ∃ decoded, decode fuel ⟨buffer, read, write⟩ = some decoded ∧
        cText decoded = cText (buffer.take write ++ result)) :
    ∃ decoded, decode (fuel + 1) ⟨buffer, read, write⟩ = some decoded ∧
      cText decoded = cText (buffer.take write ++ b :: result) := by
  have hroom : write < buffer.length := by
    have := (List.getElem?_eq_some_iff.mp hload).1
    omega
  -- The store is behind the read cursor, so what is left to read stays.
  have hread' : (buffer.set write b).drop (read + skip) = rest := by
    rw [List.drop_set_of_lt (by omega), hread]
  obtain ⟨decoded, hdecode, htext⟩ := ih _ _ (write + 1) hread' (by omega)
  refine ⟨decoded, ?_, ?_⟩
  · rw [decode, hload]
    simp [hc, hstep, hdecode]
  · rw [htext, take_set_succ hroom b, List.append_assoc, List.singleton_append]

/-- The rest of the text follows what is written already; induction on the rest. -/
private theorem decode_text {text tail : Bytes} (htext : 0 ∉ text) {fuel read write : Nat}
    {buffer : Bytes} (hfuel : text.length < fuel) (hread : buffer.drop read = text ++ 0 :: tail)
    (hwrite : write ≤ read) :
    ∃ decoded, decode fuel ⟨buffer, read, write⟩ = some decoded ∧
      cText decoded = cText (buffer.take write ++ unoctal text) := by
  have hload : buffer[read]? = (text ++ 0 :: tail)[0]? := getElem?_of_drop hread 0
  obtain ⟨fuel, rfl⟩ : ∃ f, fuel = f + 1 := ⟨fuel - 1, by omega⟩
  induction text using unoctal.induct generalizing fuel read write buffer with
  | case1 =>
    -- The NUL: what is written so far is terminated.
    have hroom : write < buffer.length := by
      have := (List.getElem?_eq_some_iff.mp hload).1
      omega
    refine ⟨buffer.set write 0, ?_, ?_⟩
    · rw [decode, hload]
      simp [store, hroom]
    · rw [List.set_eq_take_append_cons_drop, if_pos hroom, cText_append_nul, unoctal,
        List.append_nil]
  | case2 b d₁ d₂ d₃ rest hescape ih =>
    -- An escape: four bytes are read and one is written.
    obtain ⟨rfl, h₁, h₂, h₃⟩ := hescape
    simp only [List.mem_cons, not_or] at htext
    simp only [List.length_cons] at hfuel
    simp only [List.cons_append] at hread
    rw [unoctal, if_pos ⟨rfl, h₁, h₂, h₃⟩]
    have hrest : buffer.drop (read + 4) = rest ++ 0 :: tail := by
      rw [← List.drop_drop, hread]
      rfl
    refine decode_turn hload (Ne.symm htext.1) hwrite (by decide)
      (step_escape hread h₁ h₂ h₃ hwrite) hrest fun buffer read write hread hwrite => ?_
    obtain ⟨fuel, rfl⟩ : ∃ f, fuel = f + 1 := ⟨fuel - 1, by omega⟩
    exact ih htext.2.2.2.2 hread hwrite (getElem?_of_drop hread 0) fuel (by omega)
  | case3 b d₁ d₂ d₃ rest hescape ih =>
    -- Three bytes follow, but they are no escape.
    have hb : b ≠ 0 := fun h => htext (h ▸ List.mem_cons_self)
    have hrest : buffer.drop (read + 1) = d₁ :: d₂ :: d₃ :: rest ++ 0 :: tail := by
      rw [← List.drop_drop, hread]
      rfl
    have hnone : escapeAt buffer read = some none := by
      by_cases hslash : b = 0x5c
      · exact escapeAt_short (d₁ :: d₂ :: d₃ :: rest) hread
          (by simpa [hslash] using hescape)
      · exact escapeAt_plain hread hslash
    rw [unoctal, if_neg hescape]
    refine decode_turn hload hb hwrite (by decide) (step_plain hread hnone hwrite) hrest
      fun buffer read write hread hwrite => ?_
    simp only [List.length_cons] at hfuel
    obtain ⟨fuel, rfl⟩ : ∃ f, fuel = f + 1 := ⟨fuel - 1, by omega⟩
    exact ih (fun h => htext (List.mem_cons_of_mem _ h)) hread hwrite
      (getElem?_of_drop hread 0) fuel
      (by simp only [List.length_cons]; omega)
  | case4 b rest hshort ih =>
    -- Less than three bytes follow, so the NUL stands in the place of a digit.
    have hb : b ≠ 0 := fun h => htext (h ▸ List.mem_cons_self)
    have hrest : buffer.drop (read + 1) = rest ++ 0 :: tail := by
      rw [← List.drop_drop, hread]
      rfl
    have hlength : ¬rest.length ≥ 3 := by
      rcases rest with _ | ⟨d₁, _ | ⟨d₂, _ | ⟨d₃, rest⟩⟩⟩
      · simp
      · simp
      · simp
      · exact (hshort d₁ d₂ d₃ rest rfl).elim
    rw [unoctal]
    · refine decode_turn hload hb hwrite (by decide)
        (step_plain hread (escapeAt_short _ hread fun h => hlength h.1) hwrite) hrest
        fun buffer read write hread hwrite => ?_
      simp only [List.length_cons] at hfuel
      obtain ⟨fuel, rfl⟩ : ∃ f, fuel = f + 1 := ⟨fuel - 1, by omega⟩
      exact ih (fun h => htext (List.mem_cons_of_mem _ h)) hread hwrite (getElem?_of_drop hread 0)
        fuel (by omega)
    · exact hshort

end MountPath

/-- Decoding a text in place stays in its buffer and replaces the escapes. -/
theorem decodeMountPath_text {text : Bytes} (htext : 0 ∉ text) (rest : Bytes) :
    ∃ decoded, decodeMountPath (text ++ 0 :: rest) = some decoded ∧
      cText decoded = cText (unoctal text) := by
  have hfuel : text.length < (text ++ 0 :: rest).length + 1 := by
    rw [List.length_append]
    omega
  exact MountPath.decode_text htext hfuel rfl (Nat.le_refl 0)

theorem mangle_ne_nul {path : Bytes} (hpath : 0 ∉ path) : 0 ∉ mangle path := by
  intro h
  obtain ⟨b, hb, h⟩ := List.mem_flatMap.mp h
  rw [mangleByte] at h
  split_ifs at h with hmangled
  · have hbyte : b = 0x20 ∨ b = 0x09 ∨ b = 0x0a ∨ b = 0x5c ∨ b = 0x23 := by
      simpa [isMangled, or_assoc] using hmangled
    rcases hbyte with rfl | rfl | rfl | rfl | rfl <;> revert h <;> decide
  · exact hpath (List.mem_singleton.mp h ▸ hb)

theorem cText_of_ne_nul {text : Bytes} (h : 0 ∉ text) : cText text = text :=
  List.takeWhile_eq_self_iff.mpr fun b hb => by
    rw [decide_eq_true_eq]
    rintro rfl
    exact h hb

/-- Decoding the escaped form of a path in place gives the path. -/
theorem mount_path_decoded (path rest : Bytes) (hpath : 0 ∉ path) :
    (∃ decoded, decodeMountPath (mangle path ++ 0 :: rest) = some decoded ∧ cText decoded = path) ∧
      ∀ s, MountPath.Reaches ⟨mangle path ++ 0 :: rest, 0, 0⟩ s → s.write ≤ s.read := by
  refine ⟨?_, fun s h => h.write_le (Nat.le_refl 0)⟩
  obtain ⟨decoded, hdecode, htext⟩ := decodeMountPath_text (mangle_ne_nul hpath) rest
  rw [unoctal_mangle, cText_of_ne_nul hpath] at htext
  exact ⟨decoded, hdecode, htext⟩

/-- A path with a space and a backslash that looks like an escape. -/
theorem mount_path_decoded_spaced :
    (∃ decoded, decodeMountPath (mangle (ascii "/media/a \\040") ++ [0]) = some decoded ∧
      cText decoded = ascii "/media/a \\040") ∧
      ∀ s, MountPath.Reaches ⟨mangle (ascii "/media/a \\040") ++ [0], 0, 0⟩ s → s.write ≤ s.read :=
  mount_path_decoded (ascii "/media/a \\040") [] (by decide)

end MsysHal.Native
