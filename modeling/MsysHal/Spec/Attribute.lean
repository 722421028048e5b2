import MsysHal.Spec.Slug

/-!
# Attribute text or the fallback

The scans of power supplies, thermal zones and rfkill switches put a fallback into a
buffer, read an attribute file over it and show what the buffer holds. The reader fills the
buffer before it checks what it has read, so that a failed read can leave a part of the
file behind.

## Key results

- `fileText_eq`: the reader of the requests agrees with the one of the scans
- `attributeText_iff`: when the text that is shown is the whole file or the fallback
- `scanned_text_iff`: the same for the devices of the three scans
-/

namespace MsysHal.Native

/-! ## C strings in buffers -/

theorem cText_append_of_mem {buffer : Bytes} (h : 0 ∈ buffer) (beyond : Bytes) :
    cText (buffer ++ beyond) = cText buffer := by
  obtain ⟨before, after, rfl, hbefore⟩ := List.eq_append_cons_of_mem h
  rw [List.append_assoc, List.cons_append, cText_append hbefore, cText_append hbefore]

theorem cText_eq_self {buffer : Bytes} (h : 0 ∉ buffer) : cText buffer = buffer := by
  rw [cText, List.takeWhile_eq_self_iff]
  intro b hb
  have hne : b ≠ 0 := fun heq => h (heq ▸ hb)
  simp [hne]

/-- A text ends inside of a buffer if a NUL follows it there. -/
theorem cText_eq_iff {text buffer : Bytes} (h : 0 ∉ text) (hlength : text.length < buffer.length) :
    cText buffer = text ↔ text ++ [0] <+: buffer := by
  constructor
  · intro heq
    by_cases hmem : 0 ∈ buffer
    · obtain ⟨before, after, rfl, hbefore⟩ := List.eq_append_cons_of_mem hmem
      rw [cText_append hbefore] at heq
      subst heq
      exact ⟨after, by simp⟩
    · rw [cText_eq_self hmem] at heq
      rw [heq] at hlength
      exact absurd hlength (Nat.lt_irrefl _)
  · rintro ⟨rest, rfl⟩
    rw [List.append_assoc]
    exact cText_append h rest

/-- What is shown of a buffer that holds a NUL. -/
theorem formatted_of_mem {buffer : Bytes} (h : 0 ∈ buffer) (hlength : buffer.length = maxName + 1)
    (beyond : Bytes) : formatted buffer beyond = cText buffer := by
  obtain ⟨before, after, rfl, hbefore⟩ := List.eq_append_cons_of_mem h
  rw [formatted, cText_append_of_mem h, cText_append hbefore, List.take_of_length_le]
  rw [List.length_append, List.length_cons] at hlength
  omega

/-! ## The reader -/

/-- White space at the end of a text that goes on behind a NUL is trimmed behind it. -/
private theorem trimmed_of_nul {content text : Bytes} (h : text ++ [0] <+: content) :
    text ++ [0] <+: content.rdropWhile isSpaceByte := by
  obtain ⟨rest, rfl⟩ := h
  induction rest using List.reverseRecOn with
  | nil =>
    rw [List.append_nil, List.rdropWhile_concat_neg _ _ _ (by decide)]
  | append_singleton rest b ih =>
    rw [← List.append_assoc, List.rdropWhile_concat]
    split
    · exact ih
    · rw [List.append_assoc]
      exact List.prefix_append _ _

/-- A fallback: printable text that fits into the buffer with its NUL. -/
structure Fallback (fallback buffer : Bytes) : Prop where
  length_buffer : buffer.length = maxName + 1
  length_le : fallback.length ≤ maxName
  printable : fallback.all isPrintable = true
  held : cText buffer = fallback

/-- The text that is shown is the whole file without the white space at its end, and
    printable, or the fallback; a read that fails leaves the fallback in the buffer. -/
structure AttributeText (fallback buffer : Bytes) (data : Option Bytes) (text : Bytes) : Prop where
  text_eq : text = fallback ∨
    ∃ content, data = some content ∧ text = content.rdropWhile isSpaceByte ∧
    text.all isPrintable = true
  intact : (readTextInto data buffer).1 = false → cText (readTextInto data buffer).2 = fallback

/-- A file that the reader can take: nothing, at most 128 bytes that are printable up to
    white space at the end, or the fallback again with a NUL behind it. -/
def Readable (fallback : Bytes) : Option Bytes → Prop
  | none => True
  | some content => content = [] ∨
      (content.length ≤ maxName ∧ (content.rdropWhile isSpaceByte).all isPrintable = true) ∨
      fallback ++ [0] <+: content

theorem nul_not_printable {text : Bytes} (h : text.all isPrintable = true) : 0 ∉ text := by
  intro hmem
  exact absurd (List.all_eq_true.mp h 0 hmem) (by decide)

section Reader

variable {fallback buffer content : Bytes}

/-- A file that fits: the buffer holds it without the white space at its end. -/
private theorem readTextInto_short (hne : content ≠ []) (hlength : content.length < buffer.length) :
    ∃ output, output.length = buffer.length ∧ 0 ∈ output ∧
      cText output = cText (content.rdropWhile isSpaceByte) ∧
      readTextInto (some content) buffer = ((cText output).all isPrintable, output) := by
  have htake : content.take buffer.length = content := List.take_of_length_le hlength.le
  have htrim : (content.rdropWhile isSpaceByte).length ≤ content.length :=
    (List.rdropWhile_prefix _ _).length_le
  have hempty : content.isEmpty = false := by simpa using hne
  have hsize : (content ++ buffer.drop content.length).length = buffer.length := by
    rw [List.length_append, List.length_drop]
    omega
  refine ⟨(content ++ buffer.drop content.length).set (content.rdropWhile isSpaceByte).length 0,
    ?_, ?_, ?_, ?_⟩
  · rw [List.length_set, hsize]
  · apply List.mem_set
    omega
  · rw [List.set_eq_take_append_cons_drop, if_pos (by omega), List.take_append_of_le_length htrim,
      ← List.prefix_iff_eq_take.mp (List.rdropWhile_prefix _ _)]
    by_cases hmem : 0 ∈ content.rdropWhile isSpaceByte
    · exact cText_append_of_mem hmem _
    · rw [cText_append hmem, cText_eq_self hmem]
  · rw [readTextInto]
    simp only [htake, hempty, Bool.false_or, decide_eq_true_eq]
    rw [if_neg (by omega)]

/-- `isspace` is the same of a byte and of its character. -/
theorem isSpaceC_ofNat (b : UInt8) : isSpaceC (Char.ofNat b.toNat) = isSpaceByte b :=
  forall_byte (P := fun b => isSpaceC (Char.ofNat b.toNat) = isSpaceByte b) (by decide +kernel) b

theorem printable_ofNat (b : UInt8) :
    (decide (0x20 ≤ (Char.ofNat b.toNat).toNat) && decide ((Char.ofNat b.toNat).toNat ≤ 0x7e)) =
      isPrintable b :=
  forall_byte (P := fun b => (decide (0x20 ≤ (Char.ofNat b.toNat).toNat) &&
    decide ((Char.ofNat b.toNat).toNat ≤ 0x7e)) = isPrintable b) (by decide +kernel) b

theorem charsOf_cText (text : Bytes) :
    (charsOf text).takeWhile (· ≠ '\x00') = charsOf (cText text) := by
  have hnul : ∀ b : UInt8, decide (Char.ofNat b.toNat ≠ '\x00') = decide (b ≠ 0) :=
    forall_byte (by decide +kernel)
  rw [charsOf, List.takeWhile_map, charsOf, cText]
  exact congrArg _ (congrArg (List.takeWhile · text) (funext hnul))

theorem charsOf_rdropWhile (text : Bytes) :
    (charsOf text).rdropWhile isSpaceC = charsOf (text.rdropWhile isSpaceByte) := by
  have hspace : (isSpaceC ∘ fun b : UInt8 => Char.ofNat b.toNat) = isSpaceByte :=
    funext isSpaceC_ofNat
  rw [List.rdropWhile, List.rdropWhile, charsOf, charsOf, ← List.map_reverse,
    List.dropWhile_map, hspace, List.map_reverse]

/-- The reader of the requests and the one of the scans agree: a text is returned exactly if
    the buffer holds it. -/
theorem fileText_eq (data : Option Bytes) (buffer : Bytes) : fileText buffer.length data =
    if (readTextInto data buffer).1 then some (charsOf (cText (readTextInto data buffer).2))
    else none := by
  cases data with
  | none => rfl
  | some content =>
    -- The file is not empty and leaves room for the NUL.
    by_cases hshort : content.length < buffer.length ∧ content ≠ []
    · obtain ⟨output, -, -, htext, hread⟩ := readTextInto_short hshort.2 hshort.1
      have htake : content.take buffer.length = content := List.take_of_length_le hshort.1.le
      have hprint : (charsOf (cText output)).all (fun c => 0x20 ≤ c.toNat && c.toNat ≤ 0x7e) =
          (cText output).all isPrintable := by
        rw [charsOf, List.all_map]
        exact congrArg (List.all _) (funext printable_ofNat)
      have hkept : ((content.map fun b => Char.ofNat b.toNat).isEmpty ||
          decide ((content.map fun b => Char.ofNat b.toNat).length ≥ buffer.length)) = false := by
        rw [List.length_map]
        simpa using hshort.symm
      rw [fileText, hread, htake]
      simp only [hkept, Bool.false_eq_true, if_false]
      rw [show (content.map fun b => Char.ofNat b.toNat) = charsOf content from rfl,
        charsOf_rdropWhile, charsOf_cText, ← htext, hprint]
    -- The file is empty or fills the buffer: both readers refuse it.
    · have hrefused : ((content.take buffer.length).isEmpty ||
          decide ((content.take buffer.length).length ≥ buffer.length)) = true := by
        rw [List.length_take]
        by_cases hnil : content = []
        · simp [hnil]
        · have hlong : buffer.length ≤ content.length := by
            by_contra hlt
            exact hshort ⟨not_le.mp hlt, hnil⟩
          simp [hlong]
      have hsize :
          (content.take buffer.length ++ buffer.drop (content.take buffer.length).length).length =
          buffer.length := by
        rw [List.length_append, List.length_drop, List.length_take]
        omega
      rw [fileText, readTextInto]
      simp only [List.isEmpty_map, List.length_map, hsize, hrefused, if_true]
      rfl

/-- A file that is too long fills the buffer, and the read fails. -/
private theorem readTextInto_long (hlength : maxName < content.length)
    (hbuffer : buffer.length = maxName + 1) :
    readTextInto (some content) buffer = (false, content.take (maxName + 1)) := by
  have htake : (content.take (maxName + 1)).length = maxName + 1 := List.length_take_of_le hlength
  rw [readTextInto]
  simp [hbuffer, htake]

/-- A file that fits is shown up to the first NUL in it. -/
private theorem attributeText_short (h : Fallback fallback buffer) (hne : content ≠ [])
    (hshort : content.length ≤ maxName) (beyond : Bytes) :
    AttributeText fallback buffer (some content)
      (formatted (readTextInto (some content) buffer).2 beyond) ↔
      (content.rdropWhile isSpaceByte).all isPrintable = true ∨ fallback ++ [0] <+: content := by
  have hnul := nul_not_printable h.printable
  have hbuffer := h.length_buffer
  obtain ⟨output, hsize, hend, htext, hread⟩ := readTextInto_short hne
    (show content.length < buffer.length by omega)
  rw [hbuffer] at hsize
  rw [hread, formatted_of_mem hend hsize, htext]
  constructor
  -- The text ends at the first NUL of what was read.
  · intro hresult
    by_cases hinner : 0 ∈ content.rdropWhile isSpaceByte
    · right
      obtain ⟨before, after, hsplit, hbefore⟩ := List.eq_append_cons_of_mem hinner
      have hshown : cText (content.rdropWhile isSpaceByte) = before := by
        rw [hsplit, cText_append hbefore]
      rcases hresult.text_eq with heq | ⟨content', hcontent, heq, hprint⟩
      · apply List.IsPrefix.trans _ (List.rdropWhile_prefix isSpaceByte content)
        exact ⟨after, by rw [hsplit, ← heq, hshown]; simp⟩
      · cases hcontent
        rw [heq] at hprint
        exact absurd hinner (nul_not_printable hprint)
    -- Without a NUL the text is all that was read.
    · left
      rw [cText_eq_self hinner] at hresult
      rcases hresult.text_eq with heq | ⟨content', hcontent, heq, hprint⟩
      · rw [heq]
        exact h.printable
      · exact hprint
  · rintro (hprint | hagain)
    · have hwhole := cText_eq_self (nul_not_printable hprint)
      refine ⟨.inr ⟨content, rfl, hwhole, by rwa [hwhole]⟩, fun hfail => ?_⟩
      rw [hread, htext, hwhole, hprint] at hfail
      exact absurd hfail (by simp)
    -- The fallback stands before the NUL in the file itself.
    · obtain ⟨rest, hrest⟩ := trimmed_of_nul hagain
      have hheld : cText (content.rdropWhile isSpaceByte) = fallback := by
        rw [← hrest, List.append_assoc]
        exact cText_append hnul rest
      refine ⟨.inl hheld, fun _ => ?_⟩
      rw [hread, htext, hheld]

/-- A file that is too long leaves the fallback only where it starts with it. -/
private theorem attributeText_long (h : Fallback fallback buffer) (hlong : maxName < content.length)
    (beyond : Bytes) :
    AttributeText fallback buffer (some content)
      (formatted (readTextInto (some content) buffer).2 beyond) ↔ fallback ++ [0] <+: content := by
  have hnul := nul_not_printable h.printable
  have hle := h.length_le
  have hsize : (content.take (maxName + 1)).length = maxName + 1 := List.length_take_of_le hlong
  have htaken : fallback ++ [0] <+: content.take (maxName + 1) ↔ fallback ++ [0] <+: content := by
    rw [List.prefix_take_iff, List.length_append, List.length_singleton]
    exact and_iff_left (by omega)
  have hheld : cText (content.take (maxName + 1)) = fallback ↔ fallback ++ [0] <+: content := by
    rw [cText_eq_iff hnul (by omega), htaken]
  have hread := readTextInto_long hlong h.length_buffer
  constructor
  · intro hresult
    have hintact := hresult.intact
    rw [hread] at hintact
    exact hheld.mp (hintact rfl)
  · intro hagain
    have hmem : 0 ∈ content.take (maxName + 1) := (htaken.mpr hagain).subset (by simp)
    rw [hread]
    refine ⟨.inl ?_, fun _ => ?_⟩
    · rw [formatted_of_mem hmem hsize, hheld.mpr hagain]
    · rw [hread, hheld.mpr hagain]

/-- What is shown after any read over a fallback. -/
theorem attributeText_iff (h : Fallback fallback buffer) (data : Option Bytes) (beyond : Bytes) :
    AttributeText fallback buffer data (formatted (readTextInto data buffer).2 beyond) ↔
    Readable fallback data := by
  have hnul := nul_not_printable h.printable
  have hbuffer := h.length_buffer
  have hle := h.length_le
  have hmem : 0 ∈ buffer := ((cText_eq_iff hnul (by omega)).mp h.held).subset (by simp)
  have hkept : formatted buffer beyond = fallback := by rw [formatted_of_mem hmem hbuffer, h.held]
  cases data with
  | none => exact ⟨fun _ => trivial, fun _ => ⟨.inl hkept, fun _ => h.held⟩⟩
  | some content =>
    by_cases hne : content = []
    · subst hne
      have hread : readTextInto (some []) buffer = (false, buffer) := by simp [readTextInto]
      rw [hread]
      exact ⟨fun _ => .inl rfl, fun _ => ⟨.inl hkept, fun _ => by rw [hread]; exact h.held⟩⟩
    · by_cases hshort : content.length ≤ maxName
      · rw [attributeText_short h hne hshort]
        simp [Readable, hne, hshort]
      · rw [attributeText_long h (by omega)]
        simp [Readable, hne, hshort]

end Reader

/-! ## The scans -/

/-- An entry as `list_entries` returns it: its name is valid, and the local buffers of the
    scan have their size. -/
structure ClassEntry.Listed (e : ClassEntry) : Prop where
  name_valid : ∃ name, validName name = true ∧ e.name = ascii name
  length_stale : e.stale.length = maxName + 1

theorem fallback_unknown : Fallback (ascii "unknown") unknownBuffer where
  length_buffer := by decide +kernel
  length_le := by decide
  printable := by decide
  held := by decide +kernel

theorem slugByte_printable {b : UInt8} (h : isSlugByte b = true) : isPrintable b = true := by
  revert h
  exact forall_byte (P := fun b => isSlugByte b = true → isPrintable b = true) (by decide +kernel) b

/-- The name of an entry as the fallback. -/
theorem fallback_name {e : ClassEntry} (h : e.Listed) :
    Fallback e.name (copyName e.name e.stale) := by
  obtain ⟨name, hvalid, hname⟩ := h.name_valid
  obtain ⟨hsafe, hlength⟩ := SafeComponent.of_validName hvalid
  have hprint : e.name.all isPrintable = true := by
    rw [List.all_eq_true, hname]
    exact fun b hb => slugByte_printable (hsafe.chars b hb)
  rw [← hname] at hlength
  refine ⟨?_, hlength, hprint, cText_append (nul_not_printable hprint) _⟩
  have hstale := h.length_stale
  rw [copyName, List.length_append, List.length_cons, List.length_drop]
  omega

theorem foldl_addDevice (added devices : List Device) (h : devices.length ≤ maxDevices) :
    added.foldl addDevice devices = devices ++ added.take (maxDevices - devices.length) := by
  induction added generalizing devices with
  | nil => simp
  | cons device added ih =>
    rw [List.foldl_cons, addDevice]
    by_cases hfull : devices.length = maxDevices
    · rw [if_pos (by omega), ih devices h, hfull]
      simp
    · rw [if_neg (by omega), ih _ (by rw [List.length_append, List.length_singleton]; omega),
        List.length_append, List.length_singleton, List.append_assoc,
        show maxDevices - devices.length = maxDevices - (devices.length + 1) + 1 by omega]
      rfl

section Scans

variable (entries : List ClassEntry) (devices : List Device)

/-- The scans add the devices of their entries, in this order, while there is room. -/
theorem scanPower_eq (h : devices.length ≤ maxDevices) : scanPower entries devices =
    devices ++ (entries.map powerDevice).take (maxDevices - devices.length) := by
  rw [scanPower, ← List.foldl_map, foldl_addDevice _ _ h]

theorem scanThermal_eq (h : devices.length ≤ maxDevices) : scanThermal entries devices =
    devices ++ (entries.map thermalDevice).take (maxDevices - devices.length) := by
  rw [scanThermal, ← List.foldl_map, foldl_addDevice _ _ h]

theorem scanRfkill_eq (h : devices.length ≤ maxDevices) : scanRfkill entries devices =
    devices ++ (entries.filterMap rfkillDevice).take (maxDevices - devices.length) :=
  foldl_addDevice _ _ h

end Scans

/-- The text of an rfkill device is its label. -/
private theorem rfkillDevice_label {e : ClassEntry} {device : Device}
    (h : rfkillDevice e = some device) :
    device.label = formatted (readTextInto e.label (copyName e.name e.stale)).2 e.beyond := by
  simp only [rfkillDevice, Option.bind_eq_bind, Option.bind_eq_some_iff] at h
  obtain ⟨type, -, ⟨kind, domain⟩, -, soft, -, heq⟩ := h
  cases heq
  rfl

/-- For every entry of the three class directories: the text that its device shows is the
    whole file or the fallback, and a failed read leaves the fallback, exactly if the file
    can be taken as it is. -/
theorem scanned_text_iff (e : ClassEntry) (h : e.Listed) :
    (AttributeText (ascii "unknown") unknownBuffer e.type (powerDevice e).detail ↔
      Readable (ascii "unknown") e.type) ∧
    ((AttributeText e.name (copyName e.name e.stale) e.type (thermalDevice e).label ∧
      AttributeText e.name (copyName e.name e.stale) e.type (thermalDevice e).detail) ↔
        Readable e.name e.type) ∧
    ∀ device, rfkillDevice e = some device →
      (AttributeText e.name (copyName e.name e.stale) e.label device.label ↔
        Readable e.name e.label) := by
  have hname := fallback_name h
  refine ⟨attributeText_iff fallback_unknown e.type e.beyond, ?_, fun device hdevice => ?_⟩
  · rw [thermalDevice, and_self]
    exact attributeText_iff hname e.type e.beyond
  · rw [rfkillDevice_label hdevice]
    exact attributeText_iff hname e.label e.beyond

/-- An entry of `scan_power` with its `type` file. -/
def supplyEntry (type : Option Bytes) : ClassEntry :=
  ⟨ascii "BAT0", type, none, none, none, false, List.replicate 129 0, []⟩

theorem supplyEntry_listed (type : Option Bytes) : (supplyEntry type).Listed :=
  ⟨⟨"BAT0", by decide, rfl⟩, rfl⟩

/-- A type that can be taken is shown. -/
theorem battery_shown : AttributeText (ascii "unknown") unknownBuffer (some (ascii "Battery\n"))
    (powerDevice (supplyEntry (some (ascii "Battery\n")))).detail :=
  (scanned_text_iff (supplyEntry (some (ascii "Battery\n"))) (supplyEntry_listed _)).1.mpr
    (.inr (.inl (by decide)))

/-- A type with a byte that is not ASCII is refused, and shown. -/
theorem refused_type_shown : (powerDevice (supplyEntry (some [0x42, 0xe4]))).detail = [0x42, 0xe4] ∧
    ¬ AttributeText (ascii "unknown") unknownBuffer (some [0x42, 0xe4])
      (powerDevice (supplyEntry (some [0x42, 0xe4]))).detail := by
  have hshown : (powerDevice (supplyEntry (some [0x42, 0xe4]))).detail = [0x42, 0xe4] := by
    decide +kernel
  refine ⟨hshown, fun h => ?_⟩
  rw [hshown] at h
  rcases h.text_eq with heq | ⟨content, hcontent, -, hprint⟩
  · exact absurd heq (by decide)
  · exact absurd hprint (by decide)

end MsysHal.Native
