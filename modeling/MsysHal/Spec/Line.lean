import MsysHal.Python.Gateway
import MsysHal.Spec.Credential

/-!
# Lines of any chunking

A packet and its newline arrive in chunks of any sizes. What `_recv_line` makes of
them depends on the packet only: it is decoded when the packet is shorter than the
limit, and at the limit the newline makes the line too large.

## Key results

- `recvLine_eq`: the result for every chunking
- `line_received_iff`: when a packet that `decode_packet` accepts is received
-/

namespace MsysHal.PublicGateway

open Python (Value Runtime)

/-! ## Chunks -/

/-- A piece is received while the stream has one. -/
theorem recv_ne_nil (size : Nat) {chunks : List (List UInt8)} (hsize : 0 < size)
    (hchunks : chunks ≠ []) (hne : ∀ chunk ∈ chunks, chunk ≠ []) : (recv size chunks).1 ≠ [] := by
  cases chunks with
  | nil => exact absurd rfl hchunks
  | cons chunk rest =>
    have hchunk := hne chunk List.mem_cons_self
    rw [recv]
    split
    · exact hchunk
    · simp only [ne_eq, List.take_eq_nil_iff, not_or]
      exact ⟨by omega, hchunk⟩

/-- No chunk that is left is empty. -/
theorem recv_rest_ne (size : Nat) {chunks : List (List UInt8)}
    (hne : ∀ chunk ∈ chunks, chunk ≠ []) : ∀ chunk ∈ (recv size chunks).2, chunk ≠ [] := by
  cases chunks with
  | nil => simp [recv]
  | cons chunk rest =>
    have hrest : ∀ c ∈ rest, c ≠ [] := fun c hc => hne c (List.mem_cons_of_mem _ hc)
    rw [recv]
    split
    · exact hrest
    · rename_i hlong
      intro c hc
      cases hc with
      | head =>
        simp only [ne_eq, List.drop_eq_nil_iff]
        omega
      | tail _ hc => exact hrest c hc

/-! ## The loop -/

section Line

variable {packet data : List UInt8} {chunks : List (List UInt8)}

/-- The whole line ends the loop. -/
private theorem finishLine_line (rt : Runtime) (hline : 0x0a ∉ packet) :
    finishLine rt (packet ++ [0x0a]) = decodePacket rt ⟨packet.toArray⟩ := by
  have hstrip : (packet ++ [0x0a]).rdropWhile (· == 0x0a) = packet := by
    rw [List.rdropWhile_concat_pos _ _ _ (by decide), List.rdropWhile_eq_self_iff]
    intro hne hlast
    rw [beq_iff_eq] at hlast
    exact hline (hlast ▸ List.getLast_mem hne)
  rw [finishLine, hstrip]
  simp

/-- The newline is the last byte of the line. -/
private theorem data_eq_line (hline : 0x0a ∉ packet)
    (hdata : data ++ chunks.flatten = packet ++ [0x0a])
    (hlast : data.getLast? = some 0x0a) : data = packet ++ [0x0a] := by
  -- A newline before the end of the stream would be one of the packet.
  cases hrest : chunks.flatten.reverse with
  | nil =>
    rw [List.reverse_eq_nil_iff] at hrest
    rwa [hrest, List.append_nil] at hdata
  | cons b rest =>
    have hflatten : chunks.flatten = rest.reverse ++ [b] := by
      rw [← List.reverse_reverse chunks.flatten, hrest, List.reverse_cons]
    rw [hflatten, ← List.append_assoc] at hdata
    have hpacket := (List.append_inj' hdata rfl).1
    have hmem : (0x0a : UInt8) ∈ data := List.mem_of_getLast? hlast
    exact absurd (hpacket ▸ List.mem_append_left _ hmem) hline

/-- The loop ends for every chunking, with a result that depends on the packet only. -/
private theorem recvLine_from (rt : Runtime) (hline : 0x0a ∉ packet)
    (hdata : data ++ chunks.flatten = packet ++ [0x0a]) (hsize : data.length ≤ maxPacket)
    (hne : ∀ chunk ∈ chunks, chunk ≠ []) :
    recvLine rt chunks data =
      if packet.length < maxPacket then decodePacket rt ⟨packet.toArray⟩
      else .error lineTooLarge := by
  -- Induction on the bytes that are still to come
  induction hn : chunks.flatten.length using Nat.strong_induction_on generalizing chunks data with
  | _ n ih =>
    have hlength := congrArg List.length hdata
    simp only [List.length_append, List.length_singleton] at hlength
    rw [recvLine]
    by_cases hlast : data.getLast? = some 0x0a
    · have heq := data_eq_line hline hdata hlast
      rw [if_pos hlast, heq, finishLine_line rt hline]
      rw [heq, List.length_append, List.length_singleton] at hsize
      rw [if_pos (by omega)]
    · have hchunks : chunks ≠ [] := by
        rintro rfl
        rw [List.flatten_nil, List.append_nil] at hdata
        exact hlast (by rw [hdata, List.getLast?_concat])
      have hstream := recv_flatten (min 65536 (maxPacket + 1 - data.length)) chunks
      have hpiece := recv_ne_nil (min 65536 (maxPacket + 1 - data.length)) (by omega) hchunks hne
      have hrest := recv_rest_ne (min 65536 (maxPacket + 1 - data.length)) hne
      generalize recv (min 65536 (maxPacket + 1 - data.length)) chunks = received at *
      have hreceived := congrArg List.length hstream
      have hpos := List.length_pos_of_ne_nil hpiece
      rw [List.length_append] at hreceived
      rw [if_neg hlast]
      dsimp only
      rw [if_neg (by rwa [List.isEmpty_iff])]
      by_cases hlarge : (data ++ received.1).length > maxPacket
      · rw [if_pos hlarge]
        rw [List.length_append] at hlarge
        rw [if_neg (by omega)]
      · rw [if_neg hlarge]
        apply ih received.2.flatten.length (by omega) _ (by omega) hrest rfl
        rw [List.append_assoc, hstream, hdata]

/-- What `_recv_line` returns for a packet and its newline. -/
theorem recvLine_eq (rt : Runtime) (hline : 0x0a ∉ packet)
    (hchunks : chunks.flatten = packet ++ [0x0a])
    (hne : ∀ chunk ∈ chunks, chunk ≠ []) : recvLine rt chunks [] =
      if packet.length < maxPacket then decodePacket rt ⟨packet.toArray⟩ else .error lineTooLarge :=
  recvLine_from rt hline hchunks (Nat.zero_le _) hne

/-- A packet that `decode_packet` accepts is received for every chunking if it is shorter
    than `MAX_PACKET`, and for none if it is not. -/
theorem line_received_iff (rt : Runtime) {value : Value} (hline : 0x0a ∉ packet)
    (haccepts : decodePacket rt ⟨packet.toArray⟩ = .ok value)
    (hchunks : chunks.flatten = packet ++ [0x0a]) (hne : ∀ chunk ∈ chunks, chunk ≠ []) :
    recvLine rt chunks [] = decodePacket rt ⟨packet.toArray⟩ ↔ packet.length < maxPacket := by
  rw [recvLine_eq rt hline hchunks hne]
  by_cases hsize : packet.length < maxPacket
  · simp only [hsize, if_true]
  · rw [if_neg hsize, haccepts]
    simp [hsize]

end Line

namespace Sample

/-- A small message. -/
def message : Value := .object [("type", .str "a")]

/-- The message with spaces after it. -/
def paddedText (spaces : Nat) : List Char := message.text ++ List.replicate spaces ' '

/-- Its bytes. -/
def padded (spaces : Nat) : List UInt8 := (paddedText spaces).map Native.asciiByte

private theorem paddedText_ascii (spaces : Nat) :
    ∀ c ∈ paddedText spaces, c.toNat < 128 ∧ c ≠ '\n' := by
  intro c hc
  rcases List.mem_append.mp hc with hc | hc
  · have hall : message.text.all (fun c => decide (c.toNat < 128 ∧ c ≠ '\n')) = true := by decide
    exact of_decide_eq_true (List.all_eq_true.mp hall c hc)
  · rw [(List.mem_replicate.mp hc).2]
    decide

theorem length_padded (spaces : Nat) : (padded spaces).length = 12 + spaces := by
  rw [padded, List.length_map, paddedText, List.length_append, List.length_replicate]
  rfl

/-- The packet and its newline as two chunks. -/
theorem chunks_ne (spaces : Nat) : ∀ chunk ∈ [padded spaces, [0x0a]], chunk ≠ [] := by
  intro chunk hchunk
  apply List.ne_nil_of_length_pos
  rcases List.mem_pair.mp hchunk with rfl | rfl
  · rw [length_padded]
    omega
  · decide

theorem padded_line (spaces : Nat) : 0x0a ∉ padded spaces := by
  intro hmem
  obtain ⟨c, hc, heq⟩ := List.mem_map.mp hmem
  obtain ⟨hascii, hne⟩ := paddedText_ascii spaces c hc
  have hnat := Native.toNat_asciiByte hascii
  rw [heq] at hnat
  apply hne
  rw [← Char.ofNat_toNat c, ← hnat]
  rfl

theorem padded_accepted (spaces : Nat) (hspaces : 12 + spaces ≤ maxPacket) :
    decodePacket Runtime.sample ⟨(padded spaces).toArray⟩ = .ok message := by
  have hbytes : (⟨(padded spaces).toArray⟩ : ByteArray) =
      (String.ofList (paddedText spaces)).toByteArray := by
    have hutf8 := Native.utf8_of_ascii fun c hc => (paddedText_ascii spaces c hc).1
    apply ByteArray.ext
    rw [String.toByteArray_ofList, List.utf8Encode, List.data_toByteArray]
    exact congrArg List.toArray hutf8.symm
  have hsize : (⟨(padded spaces).toArray⟩ : ByteArray).size = 12 + spaces := length_padded spaces
  have hdecode : String.fromUTF8? ⟨(padded spaces).toArray⟩ =
      some (String.ofList (paddedText spaces)) := by
    rw [hbytes]
    exact Python.fromUTF8?_toUTF8 _
  have hloads : Python.loads Runtime.sample (paddedText spaces) = .ok message :=
    Python.loads_text_ws Runtime.sample message (by decide) (by decide) (by simp [Python.isWs])
  have hbounded : ensureBoundedJson message "mIPC message" 10 2048 = .ok () := rfl
  have hfits : (decide (12 + spaces = 0) || decide (12 + spaces > maxPacket)) = false := by
    simp only [Bool.or_eq_false_iff, decide_eq_false_iff_not]
    omega
  rw [decodePacket, hsize, hfits, hdecode]
  simp only [Bool.false_eq_true, if_false, pure_bind, String.toList_ofList, hloads]
  simp only [message] at hbounded ⊢
  rw [hbounded]
  rfl

end Sample

/-- A packet of one byte less than the limit, in two chunks. -/
theorem line_received_below :
    recvLine Runtime.sample [Sample.padded (maxPacket - 13), [0x0a]] [] = .ok Sample.message := by
  have hlength : (Sample.padded (maxPacket - 13)).length < maxPacket := by
    rw [Sample.length_padded]
    decide
  have haccepts := Sample.padded_accepted (maxPacket - 13) (by decide)
  have hreceived := (line_received_iff Runtime.sample (Sample.padded_line (maxPacket - 13)) haccepts
    (by simp) (Sample.chunks_ne (maxPacket - 13))).mpr hlength
  rw [hreceived, haccepts]

/-- `decode_packet` accepts a packet of `MAX_PACKET` bytes, as a line it is refused. -/
theorem line_refused :
    decodePacket Runtime.sample ⟨(Sample.padded (maxPacket - 12)).toArray⟩ = .ok Sample.message ∧
      recvLine Runtime.sample [Sample.padded (maxPacket - 12), [0x0a]] [] =
        .error lineTooLarge := by
  have hlength : ¬ (Sample.padded (maxPacket - 12)).length < maxPacket := by
    rw [Sample.length_padded]
    decide
  refine ⟨Sample.padded_accepted (maxPacket - 12) (by decide), ?_⟩
  rw [recvLine_eq Runtime.sample (Sample.padded_line (maxPacket - 12)) (by simp)
    (Sample.chunks_ne _), if_neg hlength]

end MsysHal.PublicGateway
