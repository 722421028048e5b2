import MsysHal.Spec.Eir
import MsysHal.Spec.Management

/-!
# Replies to Management commands

What `mgmt_command` makes of the datagrams and timeouts of its attempts, told by the frames
that they are. The first decisive one ends the command: a reply to it, a datagram that is
not a frame, a reply that does not fit, or a status that is not zero.

## Key results

- `loadDatagram_eq`, `loadFoundRow_eq`: no load behind the bytes that are received
- `classify_spec`: a datagram by the frame that it is
- `awaitReply_attempts`: the attempts, by induction on their number
- `mgmt_command_matched`: when a command succeeds, and what its datagrams change
-/

namespace MsysHal.Native

open Interleave (Does Log does_pure does_bind)

/-! ## Frames -/

/-- `write_le16`. -/
def le16 (n : Nat) : Bytes := [UInt8.ofNat n, UInt8.ofNat (n / 256)]

/-- A frame: an event for a controller, with its payload. -/
def frame (event index : Nat) (payload : Bytes) : Bytes :=
  le16 event ++ (le16 index ++ (le16 payload.length ++ payload))

/-- The payload of CMD_COMPLETE and CMD_STATUS. -/
def outcome (opcode : Nat) (status : UInt8) (parameters : Bytes) : Bytes :=
  le16 opcode ++ status :: parameters

private theorem readLe16_le16 {n : Nat} (h : n < 65536) (rest : Bytes) :
    readLe16 (le16 n ++ rest) 0 = n := by
  simp only [readLe16, le16, List.cons_append, List.nil_append, List.getD_cons_zero,
    List.getD_cons_succ, UInt8.toNat_ofNat']
  omega

private theorem le16_bytes (a b : UInt8) : le16 (a.toNat + 256 * b.toNat) = [a, b] := by
  have ha := a.toNat_lt
  have hb := b.toNat_lt
  rw [le16, show (a.toNat + 256 * b.toNat) / 256 = b.toNat by omega, UInt8.ofNat_toNat]
  congr 1
  apply UInt8.toNat_inj.mp
  rw [UInt8.toNat_ofNat']
  omega

theorem length_frame (event index : Nat) (payload : Bytes) :
    (frame event index payload).length = payload.length + 6 := by
  simp [frame, le16]

theorem drop_frame (event index : Nat) (payload : Bytes) :
    (frame event index payload).drop 6 = payload := rfl

/-- The length field of a frame. -/
private theorem readLe16_length {event index : Nat} {payload : Bytes} (h : payload.length < 65536) :
    readLe16 (frame event index payload) 4 = payload.length :=
  readLe16_le16 h payload

/-- A packet whose length field is right is a frame. -/
private theorem eq_frame_of_length {packet : Bytes} (hlength : 6 ≤ packet.length)
    (h : readLe16 packet 4 = packet.length - 6) :
    packet = frame (readLe16 packet 0) (readLe16 packet 2) (packet.drop 6) := by
  match packet with
  | a :: b :: c :: d :: e :: f :: payload =>
    have hpayload : payload.length = e.toNat + 256 * f.toNat := by
      have hread : readLe16 (a :: b :: c :: d :: e :: f :: payload) 4 = e.toNat + 256 * f.toNat :=
        rfl
      rw [hread] at h
      simp only [List.length_cons] at h
      omega
    have hevent : readLe16 (a :: b :: c :: d :: e :: f :: payload) 0 = a.toNat + 256 * b.toNat :=
      rfl
    have hindex : readLe16 (a :: b :: c :: d :: e :: f :: payload) 2 = c.toNat + 256 * d.toNat :=
      rfl
    rw [hevent, hindex, frame, List.drop_succ_cons, List.drop_succ_cons, List.drop_succ_cons,
      List.drop_succ_cons, List.drop_succ_cons, List.drop_succ_cons, List.drop_zero,
      hpayload, le16_bytes, le16_bytes, le16_bytes]
    rfl
  | [] => simp at hlength
  | [_] => simp at hlength
  | [_, _] => simp at hlength
  | [_, _, _] => simp at hlength
  | [_, _, _, _] => simp at hlength
  | [_, _, _, _, _] => simp at hlength

section Frames

variable {packet payload : Bytes} {event index opcode : Nat} {status : UInt8} {parameters : Bytes}

/-- What is received is a frame. -/
def WellFormed (packet : Bytes) : Prop := ∃ event index payload, packet = frame event index payload

theorem wellFormed_iff (hlength : packet.length ≤ mgmtPacketCapacity) :
    WellFormed packet ↔ 6 ≤ packet.length ∧ readLe16 packet 4 = packet.length - 6 := by
  have hcapacity : mgmtPacketCapacity = 4096 := rfl
  constructor
  · rintro ⟨event, index, payload, rfl⟩
    rw [length_frame] at hlength
    rw [readLe16_length (by omega), length_frame]
    omega
  · rintro ⟨hmin, hfield⟩
    exact ⟨_, _, _, eq_frame_of_length hmin hfield⟩

/-- The event, the controller and the payload of a packet. -/
theorem eq_frame_iff (hwell : WellFormed packet) (hlength : packet.length ≤ mgmtPacketCapacity)
    (hevent : event < 65536) (hindex : index < 65536) : packet = frame event index payload ↔
      readLe16 packet 0 = event ∧ readLe16 packet 2 = index ∧ packet.drop 6 = payload := by
  constructor
  · rintro rfl
    exact ⟨readLe16_le16 hevent _, readLe16_le16 hindex (le16 payload.length ++ payload),
      drop_frame ..⟩
  · rintro ⟨rfl, rfl, rfl⟩
    obtain ⟨hmin, hfield⟩ := (wellFormed_iff hlength).mp hwell
    exact eq_frame_of_length hmin hfield

/-- The command, the status and the parameters of a payload. -/
theorem eq_outcome_iff (hopcode : opcode < 65536) : payload = outcome opcode status parameters ↔
    3 ≤ payload.length ∧ readLe16 payload 0 = opcode ∧ payload.getD 2 0 = status ∧
      payload.drop 3 = parameters := by
  constructor
  · rintro rfl
    refine ⟨?_, readLe16_le16 hopcode _, rfl, rfl⟩
    simp [outcome, le16]
  · rintro ⟨hmin, rfl, rfl, rfl⟩
    match payload with
    | a :: b :: c :: parameters =>
      have hread : readLe16 (a :: b :: c :: parameters) 0 = a.toNat + 256 * b.toNat := rfl
      rw [hread, outcome, le16_bytes]
      rfl
    | [] => simp at hmin
    | [_] => simp at hmin
    | [_, _] => simp at hmin

end Frames

/-! ## What an attempt gets -/

section Attempt

variable (opcode index : Nat) (capacity : Option Nat)

/-- An event that answers the command, with its status and parameters. -/
def Answers (event : Nat) (status : UInt8) (parameters packet : Bytes) : Prop :=
  packet = frame event index (outcome opcode status parameters)

/-- The room for the response is too small. -/
def Overflows (parameters : Bytes) : Prop := ∃ room, capacity = some room ∧ room < parameters.length

/-- A successful reply, and the response that it gives: the parameters of CMD_COMPLETE, and
    no bytes for CMD_STATUS. -/
def Replies (packet response : Bytes) : Prop :=
  (Answers opcode index mgmtEvCmdComplete 0 response packet ∧ ¬ Overflows capacity response) ∨
    (response = [] ∧ ∃ parameters, Answers opcode index mgmtEvCmdStatus 0 parameters packet)

/-- A reply with a status that is not zero. -/
def Refuses (packet : Bytes) (status : UInt8) : Prop :=
  status ≠ 0 ∧ ∃ event parameters, (event = mgmtEvCmdComplete ∨ event = mgmtEvCmdStatus) ∧
    Answers opcode index event status parameters packet

/-- A successful reply that does not fit. -/
def Oversized (packet : Bytes) : Prop :=
  ∃ parameters, Answers opcode index mgmtEvCmdComplete 0 parameters packet ∧
  Overflows capacity parameters

/-- A device that the controller has found. -/
def Finds (packet payload : Bytes) : Prop := packet = frame mgmtEvDeviceFound index payload

end Attempt

section Classify

variable {opcode index : Nat} {capacity : Option Nat} {packet datagram response payload : Bytes}

/-- The header of an answer to the command. -/
private theorem answers_iff (hwell : WellFormed packet)
    (hlength : packet.length ≤ mgmtPacketCapacity)
    (hopcode : opcode < 65536) (hindex : index < 65536) {event : Nat} (hevent : event < 65536)
    {status : UInt8} {parameters : Bytes} : Answers opcode index event status parameters packet ↔
      readLe16 packet 0 = event ∧ readLe16 packet 2 = index ∧ 3 ≤ (packet.drop 6).length ∧
        readLe16 (packet.drop 6) 0 = opcode ∧ (packet.drop 6).getD 2 0 = status ∧
        (packet.drop 6).drop 3 = parameters := by
  rw [Answers, eq_frame_iff hwell hlength hevent hindex, eq_outcome_iff hopcode]

/-- Nothing is told by a packet that is not a frame. -/
private theorem not_answers (hwell : ¬ WellFormed packet) {event : Nat} {status : UInt8}
    {parameters : Bytes} : ¬ Answers opcode index event status parameters packet :=
  fun h => hwell ⟨_, _, _, h⟩

theorem overflows_iff {parameters : Bytes} :
    Overflows capacity parameters ↔ capacity.any (· < parameters.length) = true := by
  cases capacity <;> simp [Overflows]

/-- The checks on a datagram, by the frame that is received of it. -/
inductive Classified (opcode index : Nat) (capacity : Option Nat) (packet : Bytes) :
    Datagram → Prop where
  | malformed {stage : Stage} {code : Int} (hstage : stage ≠ .status) (h : ¬ WellFormed packet) :
    Classified opcode index capacity packet (.rejected stage code)
  | found {payload : Bytes} (h : Finds index packet payload) :
    Classified opcode index capacity packet (.found payload)
  | refused {status : UInt8} (h : Refuses opcode index packet status) :
    Classified opcode index capacity packet (.rejected .status status.toNat)
  | oversized (h : Oversized opcode index capacity packet) :
      Classified opcode index capacity packet .oversized
  | reply {response : Bytes} (h : Replies opcode index capacity packet response) :
    Classified opcode index capacity packet (.reply response)
  | unrelated (hwell : WellFormed packet) (hfinds : ∀ payload, ¬ Finds index packet payload)
    (h : ∀ event status parameters, event = mgmtEvCmdComplete ∨ event = mgmtEvCmdStatus →
      ¬ Answers opcode index event status parameters packet) :
    Classified opcode index capacity packet .unrelated

variable (capacity) in
/-- Every datagram, by the cases of the checks. -/
theorem classify_spec (hopcode : opcode < 65536) (hindex : index < 65536) (datagram : Bytes) :
    Classified opcode index capacity (datagram.take mgmtPacketCapacity)
      (classify opcode index capacity datagram) := by
  rw [classify]
  generalize hpacket : datagram.take mgmtPacketCapacity = packet
  have hlength : packet.length ≤ mgmtPacketCapacity := by
    rw [← hpacket, List.length_take]
    omega
  have hiff := wellFormed_iff hlength
  have hdrop : (packet.drop 6).length = packet.length - 6 := List.length_drop
  -- One case for each check of the source, in its order.
  split_ifs with hmin hfield hfound hother hstatus hcomplete hroom
  · exact .malformed (by rintro ⟨⟩) fun hwell => absurd (hiff.mp hwell).1 (by omega)
  · exact .malformed (by rintro ⟨⟩) fun hwell => hfield (hdrop ▸ (hiff.mp hwell).2)
  -- From here on the header and the length of the packet are right.
  all_goals
    rw [not_not] at hfield
    have hwell : WellFormed packet := hiff.mpr ⟨by omega, by omega⟩
  · exact .found ((eq_frame_iff hwell hlength (by decide) hindex).mpr ⟨hfound.1, hfound.2, rfl⟩)
  · refine .unrelated hwell (fun payload h => ?_) fun event status parameters hevent h => ?_
    · rw [Finds, eq_frame_iff hwell hlength (by decide) hindex] at h
      exact hfound ⟨h.1, h.2.1⟩
    · have hbound : event < 65536 := by rcases hevent with rfl | rfl <;> decide
      rw [answers_iff hwell hlength hopcode hindex hbound] at h
      obtain ⟨rfl, hcontroller, hsize, hcommand, -, -⟩ := h
      rcases hother with hother | hother | hother | hother
      · exact hother hcontroller
      · omega
      · exact hevent.elim hother.1 hother.2
      · exact hother hcommand
  -- From here on the event is of the command and the controller that wait.
  all_goals
    simp only [not_or, not_and_or, not_not, not_lt] at hother
    obtain ⟨hcontroller, hsize, hevent, hcommand⟩ := hother
  · refine .refused ⟨hstatus, readLe16 packet 0, (packet.drop 6).drop 3, hevent, ?_⟩
    rw [answers_iff hwell hlength hopcode hindex
      (by rcases hevent with h | h <;> rw [h] <;> decide)]
    exact ⟨rfl, hcontroller, hsize, hcommand, rfl, rfl⟩
  all_goals rw [not_not] at hstatus
  · refine .oversized ⟨(packet.drop 6).drop 3, ?_, ?_⟩
    · rw [answers_iff hwell hlength hopcode hindex (by decide)]
      exact ⟨hcomplete, hcontroller, hsize, hcommand, hstatus, rfl⟩
    · rw [overflows_iff, List.length_drop]
      exact hroom
  · refine .reply (.inl ⟨?_, ?_⟩)
    · rw [answers_iff hwell hlength hopcode hindex (by decide)]
      exact ⟨hcomplete, hcontroller, hsize, hcommand, hstatus, rfl⟩
    · rw [overflows_iff, List.length_drop]
      exact hroom
  · refine .reply (.inr ⟨rfl, (packet.drop 6).drop 3, ?_⟩)
    rw [answers_iff hwell hlength hopcode hindex (by decide)]
    exact ⟨hevent.resolve_left hcomplete, hcontroller, hsize, hcommand, hstatus, rfl⟩

/-- A frame has one event, controller and payload. -/
private theorem frame_unique {event event' index index' : Nat} {payload payload' : Bytes}
    (hevent : event < 65536) (hevent' : event' < 65536)
    (h : frame event index payload = frame event' index' payload') :
    event = event' ∧ payload = payload' := by
  constructor
  · rw [← readLe16_le16 hevent (le16 index ++ (le16 payload.length ++ payload)),
      ← readLe16_le16 hevent' (le16 index' ++ (le16 payload'.length ++ payload'))]
    exact congrArg (readLe16 · 0) h
  · rw [← drop_frame event index payload, ← drop_frame event' index' payload', h]

/-- The events that answer a command. -/
def IsOutcome (event : Nat) : Prop := event = mgmtEvCmdComplete ∨ event = mgmtEvCmdStatus

private theorem IsOutcome.lt {event : Nat} (h : IsOutcome event) : event < 65536 := by
  rcases h with rfl | rfl <;> decide

private theorem Answers.unique {event event' : Nat} {status status' : UInt8}
    {parameters parameters' : Bytes} (hevent : IsOutcome event) (hevent' : IsOutcome event')
    (h : Answers opcode index event status parameters packet)
    (h' : Answers opcode index event' status' parameters' packet) :
    event = event' ∧ status = status' ∧ parameters = parameters' := by
  obtain ⟨heq, hpayload⟩ := frame_unique hevent.lt hevent'.lt (h.symm.trans h')
  simp only [outcome, le16, List.cons_append, List.nil_append, List.cons.injEq,
    true_and] at hpayload
  exact ⟨heq, hpayload.1, hpayload.2⟩

private theorem Finds.not_answers {event : Nat} {status : UInt8} {parameters : Bytes}
    (hevent : IsOutcome event) (h : Finds index packet payload) :
    ¬ Answers opcode index event status parameters packet := by
  intro hanswers
  have heq := (frame_unique (by decide) hevent.lt (h.symm.trans hanswers)).1
  rcases hevent with rfl | rfl <;> exact absurd heq (by decide)

/-- A reply is an answer with the status 0. -/
private theorem Replies.answers (h : Replies opcode index capacity packet response) :
    ∃ event parameters, IsOutcome event ∧ Answers opcode index event 0 parameters packet ∧
      (event = mgmtEvCmdComplete → parameters = response ∧ ¬ Overflows capacity parameters) ∧
      (event = mgmtEvCmdStatus → response = []) := by
  rcases h with ⟨h, hfits⟩ | ⟨rfl, parameters, h⟩
  · exact ⟨_, _, .inl rfl, h, fun _ => ⟨rfl, hfits⟩, nofun⟩
  · exact ⟨_, _, .inr rfl, h, nofun, fun _ => rfl⟩

section Unique

variable {result : Datagram}

/-- A successful reply is taken as one. -/
theorem Classified.reply_eq (h : Classified opcode index capacity packet result)
    (hreplies : Replies opcode index capacity packet response) : result = .reply response := by
  obtain ⟨event, parameters, hkind, hanswers, hcomplete, hstatus⟩ := hreplies.answers
  cases h with
  | malformed hstage hwell => exact absurd hanswers (not_answers hwell)
  | found hfinds => exact absurd hanswers (hfinds.not_answers hkind)
  | refused hrefuses =>
    obtain ⟨hne, event', parameters', hkind', hanswers'⟩ := hrefuses
    exact absurd (hanswers'.unique hkind' hkind hanswers).2.1 hne
  | oversized hover =>
    obtain ⟨parameters', hanswers', hlarge⟩ := hover
    obtain ⟨rfl, -, rfl⟩ := hanswers'.unique (.inl rfl) hkind hanswers
    exact absurd hlarge (hcomplete rfl).2
  | reply hreplies' =>
    obtain ⟨event', parameters', hkind', hanswers', hcomplete', hstatus'⟩ := hreplies'.answers
    obtain ⟨rfl, -, rfl⟩ := hanswers'.unique hkind' hkind hanswers
    rcases hkind with hkind | hkind
    · rw [← (hcomplete hkind).1, (hcomplete' hkind).1]
    · rw [hstatus hkind, hstatus' hkind]
  | unrelated hwell hfinds hnone => exact absurd hanswers (hnone _ _ _ hkind)

/-- A refusal is taken as one. -/
theorem Classified.refused_eq (h : Classified opcode index capacity packet result) {status : UInt8}
    (hrefuses : Refuses opcode index packet status) : result = .rejected .status status.toNat := by
  obtain ⟨hne, event, parameters, hkind, hanswers⟩ := hrefuses
  cases h with
  | malformed hstage hwell => exact absurd hanswers (not_answers hwell)
  | found hfinds => exact absurd hanswers (hfinds.not_answers hkind)
  | refused hrefuses' =>
    obtain ⟨hne', event', parameters', hkind', hanswers'⟩ := hrefuses'
    rw [(hanswers'.unique hkind' hkind hanswers).2.1]
  | oversized hover =>
    obtain ⟨parameters', hanswers', -⟩ := hover
    exact absurd (hanswers.unique hkind (.inl rfl) hanswers').2.1 hne
  | reply hreplies =>
    obtain ⟨event', parameters', hkind', hanswers', -⟩ := hreplies.answers
    exact absurd (hanswers.unique hkind hkind' hanswers').2.1 hne
  | unrelated hwell hfinds hnone => exact absurd hanswers (hnone _ _ _ hkind)

/-- A reply that does not fit is taken as one. -/
theorem Classified.oversized_eq (h : Classified opcode index capacity packet result)
    (hover : Oversized opcode index capacity packet) : result = .oversized := by
  obtain ⟨parameters, hanswers, hlarge⟩ := hover
  have hkind : IsOutcome mgmtEvCmdComplete := .inl rfl
  cases h with
  | malformed hstage hwell => exact absurd hanswers (not_answers hwell)
  | found hfinds => exact absurd hanswers (hfinds.not_answers hkind)
  | refused hrefuses =>
    obtain ⟨hne, event', parameters', hkind', hanswers'⟩ := hrefuses
    exact absurd (hanswers'.unique hkind' hkind hanswers).2.1 hne
  | oversized hover => rfl
  | reply hreplies =>
    obtain ⟨event', parameters', hkind', hanswers', hcomplete, -⟩ := hreplies.answers
    obtain ⟨rfl, -, rfl⟩ := hanswers'.unique hkind' hkind hanswers
    exact absurd hlarge (hcomplete rfl).2
  | unrelated hwell hfinds hnone => exact absurd hanswers (hnone _ _ _ hkind)

/-- A device that is found is taken. -/
theorem Classified.found_eq (h : Classified opcode index capacity packet result)
    (hfinds : Finds index packet payload) : result = .found payload := by
  cases h with
  | malformed hstage hwell => exact absurd ⟨_, _, _, hfinds⟩ hwell
  | found hfinds' => rw [(frame_unique (by decide) (by decide) (hfinds'.symm.trans hfinds)).2]
  | refused hrefuses =>
    obtain ⟨-, event, parameters, hkind, hanswers⟩ := hrefuses
    exact absurd hanswers (hfinds.not_answers hkind)
  | oversized hover =>
    obtain ⟨parameters, hanswers, -⟩ := hover
    exact absurd hanswers (hfinds.not_answers (.inl rfl))
  | reply hreplies =>
    obtain ⟨event, parameters, hkind, hanswers, -⟩ := hreplies.answers
    exact absurd hanswers (hfinds.not_answers hkind)
  | unrelated _ hnone _ => exact absurd hfinds (hnone payload)

/-- A packet that is not a frame is rejected. -/
theorem Classified.malformed_eq (h : Classified opcode index capacity packet result)
    (hwell : ¬ WellFormed packet) :
    ∃ stage code, stage ≠ .status ∧ result = .rejected stage code := by
  cases h with
  | malformed hstage _ => exact ⟨_, _, hstage, rfl⟩
  | found hfinds => exact absurd ⟨_, _, _, hfinds⟩ hwell
  | refused hrefuses =>
    obtain ⟨-, event, parameters, -, hanswers⟩ := hrefuses
    exact absurd hanswers (not_answers hwell)
  | oversized hover =>
    obtain ⟨parameters, hanswers, -⟩ := hover
    exact absurd hanswers (not_answers hwell)
  | reply hreplies =>
    obtain ⟨event, parameters, -, hanswers, -⟩ := hreplies.answers
    exact absurd hanswers (not_answers hwell)
  | unrelated h _ _ => exact absurd h hwell

end Unique

end Classify

/-! ## One attempt -/

section Event

variable (opcode index : Nat) (capacity : Option Nat)

/-- The attempt gets a successful reply. -/
def Succeeds (event : Received) (response : Bytes) : Prop :=
  ∃ datagram, event = .packet datagram ∧ Replies opcode index capacity
    (datagram.take mgmtPacketCapacity) response

/-- The attempt ends the command without a reply: nothing can be read, or what is read is
    not a frame, a refusal, or a reply that does not fit. -/
def Fails : Received → Prop
  | .idle _ => False
  | .failed _ => True
  | .packet datagram =>
    ¬ WellFormed (datagram.take mgmtPacketCapacity) ∨
      (∃ status, Refuses opcode index (datagram.take mgmtPacketCapacity) status) ∨
      Oversized opcode index capacity (datagram.take mgmtPacketCapacity)

/-- What an attempt changes: a device that is found goes into the table; a timeout, an
    error, a packet that is not a frame and a refusal leave a text; every other datagram
    changes nothing. -/
def Absorbs (event : Received) (g g' : Globals) : Prop :=
  match event with
  | .idle code => g' = { g with error := .failed .poll code }
  | .failed code => g' = { g with error := .failed .recv code }
  | .packet datagram =>
    let packet := datagram.take mgmtPacketCapacity
    (¬ WellFormed packet ∧ ∃ stage code, g' = { g with error := .failed stage code }) ∨
    (∃ status, Refuses opcode index packet status ∧
      g' = { g with error := .failed .status status.toNat }) ∨
    (∃ payload, Finds index packet payload ∧
      g' = { g with found := rememberBluetoothFound g.found payload }) ∨
    (WellFormed packet ∧ (∀ status, ¬ Refuses opcode index packet status) ∧
      (∀ payload, ¬ Finds index packet payload) ∧ g' = g)

end Event

section Step

variable {opcode index : Nat} {capacity : Option Nat}

theorem Fails.not_succeeds {event : Received} {response : Bytes} (hopcode : opcode < 65536)
    (hindex : index < 65536)
    (h : Fails opcode index capacity event) : ¬ Succeeds opcode index capacity event response := by
  rintro ⟨datagram, rfl, hreplies⟩
  have hclass := classify_spec capacity hopcode hindex datagram
  have hreply := hclass.reply_eq hreplies
  rcases h with hwell | ⟨status, hrefuses⟩ | hover
  · obtain ⟨stage, code, -, heq⟩ := hclass.malformed_eq hwell
    exact nomatch hreply.symm.trans heq
  · exact nomatch hreply.symm.trans (hclass.refused_eq hrefuses)
  · exact nomatch hreply.symm.trans (hclass.oversized_eq hover)

/-- What the checks on a datagram say of its attempt. -/
private theorem not_fails {datagram : Bytes} {result : Datagram}
    (hclass : Classified opcode index capacity (datagram.take mgmtPacketCapacity) result)
    (hrejected : ∀ stage code, result ≠ .rejected stage code) (hover : result ≠ .oversized) :
    ¬ Fails opcode index capacity (.packet datagram) := by
  rintro (hwell | ⟨status, hrefuses⟩ | hlarge)
  · obtain ⟨stage, code, -, heq⟩ := hclass.malformed_eq hwell
    exact hrejected _ _ heq
  · exact hrejected _ _ (hclass.refused_eq hrefuses)
  · exact hover (hclass.oversized_eq hlarge)

private theorem not_succeeds {datagram : Bytes} {result : Datagram}
    (hclass : Classified opcode index capacity (datagram.take mgmtPacketCapacity) result)
    (hreply : ∀ response, result ≠ .reply response) (response : Bytes) :
    ¬ Succeeds opcode index capacity (.packet datagram) response := by
  rintro ⟨datagram', heq, hreplies⟩
  cases heq
  exact hreply _ (hclass.reply_eq hreplies)

/-- A datagram that is neither rejected nor a device that is found changes nothing. -/
private theorem absorbs_nothing {datagram : Bytes} {result : Datagram} {g : Globals}
    (hclass : Classified opcode index capacity (datagram.take mgmtPacketCapacity) result)
    (hrejected : ∀ stage code, result ≠ .rejected stage code)
    (hfound : ∀ payload, result ≠ .found payload) :
    Absorbs opcode index (.packet datagram) g g := by
  right; right; right
  refine ⟨?_, fun status h => hrejected _ _ (hclass.refused_eq h), fun payload h =>
    hfound _ (hclass.found_eq h), rfl⟩
  by_contra hwell
  obtain ⟨stage, code, -, heq⟩ := hclass.malformed_eq hwell
  exact hrejected _ _ heq

/-- A receive of a datagram goes on with what kind of datagram it is. -/
private theorem does_classified {datagram : Bytes} (kind : Datagram) {result : EventResult}
    {g g' : Globals} (h : Does (match kind with
      | .rejected stage code => do bluetoothError stage code; return .failed
      | .found payload => do
        modify fun g => { g with found := rememberBluetoothFound g.found payload }
        return .other
      | .unrelated => return .other
      | .oversized => return .failed
      | .reply data => return .reply data : NativeM EventResult) g [] result g')
    (hkind : classify opcode index capacity datagram = kind) :
    Does (receiveMgmtEvent 250 opcode index capacity) g
      [⟨.receive 250 opcode index capacity, .packet datagram⟩] result g' := by
  subst hkind
  exact does_call_bind.mpr ⟨_, [], rfl, h⟩

variable (capacity) in
/-- One receive: it changes what its event changes, and tells how the event counts. -/
theorem receiveMgmtEvent_event (hopcode : opcode < 65536) (hindex : index < 65536)
    (event : Received) (g : Globals) :
    ∃ result g', Does (receiveMgmtEvent 250 opcode index capacity) g
        [⟨.receive 250 opcode index capacity, event⟩] result g' ∧ Absorbs opcode index event g g' ∧
      match result with
      | .reply response => Succeeds opcode index capacity event response
      | .failed => Fails opcode index capacity event
      | .timeout | .other => ¬ Fails opcode index capacity event ∧
          ∀ response, ¬ Succeeds opcode index capacity event response := by
  cases event with
  | idle code =>
    refine ⟨.timeout, { g with error := .failed .poll code }, ?_, rfl, id, ?_⟩
    · exact does_call_bind.mpr ⟨_, [], rfl, does_error.mpr ⟨rfl, rfl, rfl⟩⟩
    · rintro response ⟨datagram, heq, -⟩
      cases heq
  | failed code =>
    refine ⟨.failed, { g with error := .failed .recv code }, ?_, rfl, trivial⟩
    exact does_call_bind.mpr ⟨_, [], rfl, does_error.mpr ⟨rfl, rfl, rfl⟩⟩
  | packet datagram =>
    -- A datagram counts as its class says.
    have hclass := classify_spec capacity hopcode hindex datagram
    cases hdatagram : classify opcode index capacity datagram with
    | rejected stage code =>
      rw [hdatagram] at hclass
      refine ⟨.failed, { g with error := .failed stage code },
        does_classified (.rejected stage code) (does_error.mpr ⟨rfl, rfl, rfl⟩) hdatagram, ?_⟩
      cases hclass with
      | malformed hstage hwell => exact ⟨.inl ⟨hwell, _, _, rfl⟩, .inl hwell⟩
      | refused hrefuses => exact ⟨.inr (.inl ⟨_, hrefuses, rfl⟩), .inr (.inl ⟨_, hrefuses⟩)⟩
    | found payload =>
      rw [hdatagram] at hclass
      refine ⟨.other, _, does_classified (.found payload) (does_modify_pure.mpr ⟨rfl, rfl, rfl⟩)
        hdatagram, ?_, ?_, ?_⟩
      · cases hclass with
        | found hfinds => exact .inr (.inr (.inl ⟨payload, hfinds, rfl⟩))
      · exact not_fails hclass (by rintro _ _ ⟨⟩) (by rintro ⟨⟩)
      · exact not_succeeds hclass (by rintro _ ⟨⟩)
    | unrelated =>
      rw [hdatagram] at hclass
      refine ⟨.other, g, does_classified .unrelated (does_pure.mpr ⟨rfl, rfl, rfl⟩) hdatagram,
        absorbs_nothing hclass (by rintro _ _ ⟨⟩) (by rintro _ ⟨⟩), ?_, ?_⟩
      · exact not_fails hclass (by rintro _ _ ⟨⟩) (by rintro ⟨⟩)
      · exact not_succeeds hclass (by rintro _ ⟨⟩)
    | oversized =>
      rw [hdatagram] at hclass
      refine ⟨.failed, g, does_classified .oversized (does_pure.mpr ⟨rfl, rfl, rfl⟩) hdatagram,
        absorbs_nothing hclass (by rintro _ _ ⟨⟩) (by rintro _ ⟨⟩), ?_⟩
      cases hclass with
      | oversized hover => exact .inr (.inr hover)
    | reply response =>
      rw [hdatagram] at hclass
      refine ⟨.reply response, g, does_classified (.reply response) (does_pure.mpr ⟨rfl, rfl, rfl⟩)
        hdatagram, absorbs_nothing hclass (by rintro _ _ ⟨⟩) (by rintro _ ⟨⟩), ?_⟩
      cases hclass with
      | reply hreplies => exact ⟨datagram, rfl, hreplies⟩

/-! ## All attempts -/

/-- The attempt at position `i` is the first one that is decisive, and it succeeds. -/
def SucceedsAt (opcode index : Nat) (capacity : Option Nat) (events : Nat → Received) (i : Nat)
    (response : Bytes) : Prop :=
  Succeeds opcode index capacity (events i) response ∧
    ∀ j < i, ¬ Fails opcode index capacity (events j) ∧
      ∀ response, ¬ Succeeds opcode index capacity (events j) response

/-- The operations of the first attempts and their answers. -/
def attempts (opcode index : Nat) (capacity : Option Nat) (events : Nat → Received) (n : Nat) :
    Log nativeSig :=
  (List.range n).map fun i => ⟨.receive 250 opcode index capacity, events i⟩

/-- The globals before and after each of the first events. -/
def Absorbed (opcode index : Nat) (events : Nat → Received) (n : Nat) (g g' : Globals) : Prop :=
  ∃ states : Nat → Globals, states 0 = g ∧ states n = g' ∧
    ∀ i < n, Absorbs opcode index (events i) (states i) (states (i + 1))

private theorem attempts_succ (events : Nat → Received) (n : Nat) :
    attempts opcode index capacity events (n + 1) =
    ⟨.receive 250 opcode index capacity, events 0⟩ ::
      attempts opcode index capacity (fun i => events (i + 1)) n := by
  rw [attempts, List.range_succ_eq_map, List.map_cons, List.map_map]
  rfl

private theorem Absorbed.cons {events : Nat → Received} {n : Nat} {g g₁ g' : Globals}
    (h : Absorbs opcode index (events 0) g g₁)
    (hrest : Absorbed opcode index (fun i => events (i + 1)) n g₁ g') :
    Absorbed opcode index events (n + 1) g g' := by
  obtain ⟨states, hfirst, hlast, hsteps⟩ := hrest
  refine ⟨fun i => i.casesOn g states, rfl, hlast, fun i hi => ?_⟩
  cases i with
  | zero =>
    simp only
    rwa [hfirst]
  | succ i => exact hsteps i (by omega)

private theorem succeedsAt_zero {events : Nat → Received} {response : Bytes} :
    SucceedsAt opcode index capacity events 0 response ↔
      Succeeds opcode index capacity (events 0) response :=
  ⟨And.left, fun h => ⟨h, fun j hj => absurd hj (Nat.not_lt_zero j)⟩⟩

/-- After an attempt that is not decisive. -/
private theorem succeedsAt_succ {events : Nat → Received} {response : Bytes} {i : Nat}
    (hfails : ¬ Fails opcode index capacity (events 0))
    (hnone : ∀ response, ¬ Succeeds opcode index capacity (events 0) response) :
    SucceedsAt opcode index capacity events (i + 1) response ↔
      SucceedsAt opcode index capacity (fun i => events (i + 1)) i response := by
  constructor
  · rintro ⟨h, hbefore⟩
    exact ⟨h, fun j hj => hbefore (j + 1) (by omega)⟩
  · rintro ⟨h, hbefore⟩
    refine ⟨h, fun j hj => ?_⟩
    cases j with
    | zero => exact ⟨hfails, hnone⟩
    | succ j => exact hbefore j (by omega)

/-- How the loop goes on after an attempt. -/
private theorem awaitReply_step {n : Nat} {g g₁ g' : Globals} {log log' : Log nativeSig}
    {result : EventResult}
    {reply : Option Bytes} (h : Does (receiveMgmtEvent 250 opcode index capacity) g log result g₁)
    (hrest : match result with
      | .reply data => log' = [] ∧ reply = some data ∧ g' = g₁
      | .failed => log' = [] ∧ reply = none ∧ g' = g₁
      | .timeout | .other => Does (awaitReply opcode index capacity n) g₁ log' reply g') :
    Does (awaitReply opcode index capacity (n + 1)) g (log ++ log') reply g' := by
  refine does_bind.mpr ⟨result, g₁, log, log', rfl, h, ?_⟩
  cases result with
  | reply data => exact does_pure.mpr hrest
  | failed => exact does_pure.mpr hrest
  | timeout => exact hrest
  | other => exact hrest

theorem Succeeds.unique {event : Received} {response response' : Bytes} (hopcode : opcode < 65536)
    (hindex : index < 65536) (h : Succeeds opcode index capacity event response)
    (h' : Succeeds opcode index capacity event response') : response = response' := by
  obtain ⟨datagram, rfl, hreplies⟩ := h
  obtain ⟨datagram', heq, hreplies'⟩ := h'
  cases heq
  have hclass := classify_spec capacity hopcode hindex datagram
  exact Datagram.reply.inj ((hclass.reply_eq hreplies).symm.trans (hclass.reply_eq hreplies'))

/-- What the attempts of a command come to. -/
def AttemptsEnd (opcode index : Nat) (capacity : Option Nat) (n : Nat) (events : Nat → Received)
    (g : Globals) : Prop :=
  ∃ made ≤ n, ∃ reply g', Does (awaitReply opcode index capacity n) g
      (attempts opcode index capacity events made) reply g' ∧
      Absorbed opcode index events made g g' ∧
    ∀ response, reply = some response ↔ ∃ i < n, SucceedsAt opcode index capacity events i response

/-- An attempt that is not decisive. -/
private theorem AttemptsEnd.next {n : Nat} {events : Nat → Received} {g g₁ : Globals}
    {result : EventResult} (hgo : result = .timeout ∨ result = .other)
    (hdoes : Does (receiveMgmtEvent 250 opcode index capacity) g
      [⟨.receive 250 opcode index capacity, events 0⟩] result g₁)
    (habsorbs : Absorbs opcode index (events 0) g g₁)
    (hfails : ¬ Fails opcode index capacity (events 0))
    (hnone : ∀ response, ¬ Succeeds opcode index capacity (events 0) response)
    (h : AttemptsEnd opcode index capacity n (fun i => events (i + 1)) g₁) :
    AttemptsEnd opcode index capacity (n + 1) events g := by
  obtain ⟨made, hmade, reply, g', hrest, habsorbed, hiff⟩ := h
  refine ⟨made + 1, by omega, reply, g', ?_, habsorbed.cons habsorbs, fun response => ?_⟩
  · rw [attempts_succ]
    apply awaitReply_step hdoes
    rcases hgo with rfl | rfl <;> exact hrest
  · rw [hiff]
    constructor
    · rintro ⟨i, hi, h⟩
      exact ⟨i + 1, by omega, (succeedsAt_succ hfails hnone).mpr h⟩
    · rintro ⟨i, hi, h⟩
      cases i with
      | zero => exact absurd (succeedsAt_zero.mp h) (hnone response)
      | succ i => exact ⟨i, by omega, (succeedsAt_succ hfails hnone).mp h⟩

/-- The attempts that are left, by induction on their number. -/
theorem awaitReply_attempts (hopcode : opcode < 65536) (hindex : index < 65536) (n : Nat)
    (events : Nat → Received) (g : Globals) : AttemptsEnd opcode index capacity n events g := by
  induction n generalizing events g with
  | zero =>
    refine ⟨0, Nat.le_refl 0, none, g, does_pure.mpr ⟨rfl, rfl, rfl⟩,
      ⟨fun _ => g, rfl, rfl, by simp⟩, ?_⟩
    simp
  | succ n ih =>
    obtain ⟨result, g₁, hdoes, habsorbs, hresult⟩ :=
      receiveMgmtEvent_event capacity hopcode hindex (events 0) g
    have hone : Absorbed opcode index events 1 g g₁ :=
      .cons habsorbs ⟨fun _ => g₁, rfl, rfl, by simp⟩
    cases result with
    | reply data =>
      refine ⟨1, by omega, some data, g₁, awaitReply_step hdoes ⟨rfl, rfl, rfl⟩, hone,
        fun response => ?_⟩
      constructor
      · rintro ⟨⟩
        exact ⟨0, by omega, succeedsAt_zero.mpr hresult⟩
      · rintro ⟨i, -, h⟩
        -- Only the first attempt can be the first decisive one.
        cases i with
        | zero => rw [hresult.unique hopcode hindex h.1]
        | succ i => exact absurd hresult ((h.2 0 (by omega)).2 data)
    | failed =>
      refine ⟨1, by omega, none, g₁, awaitReply_step hdoes ⟨rfl, rfl, rfl⟩, hone,
        fun response => ?_⟩
      constructor
      · exact nofun
      · rintro ⟨i, -, h⟩
        cases i with
        | zero => exact absurd h.1 (hresult.not_succeeds hopcode hindex)
        | succ i => exact absurd hresult (h.2 0 (by omega)).1
    | timeout => exact .next (.inl rfl) hdoes habsorbs hresult.1 hresult.2 (ih _ g₁)
    | other => exact .next (.inr rfl) hdoes habsorbs hresult.1 hresult.2 (ih _ g₁)

end Step

/-! ## Loads -/

section Loads

variable {packet : Bytes}

private theorem load_eq {i : Nat} (h : i < packet.length) :
    packet[i]? = some (packet.getD i 0) := by
  rw [List.getD_eq_getElem?_getD, List.getElem?_eq_getElem h]
  rfl

private theorem loadLe16_eq {i : Nat} (h : i + 1 < packet.length) :
    loadLe16 packet i = some (readLe16 packet i) := by
  rw [loadLe16, load_eq (show i < packet.length by omega), load_eq h]
  rfl

private theorem loadAddress_eq (h : 6 ≤ packet.length) :
    loadAddress packet = some (bluetoothAddress packet) := by
  have hload : ([5, 4, 3, 2, 1, 0].mapM fun i => packet[i]?) =
      some ([5, 4, 3, 2, 1, 0].map fun i => packet.getD i 0) := by
    simp only [List.mapM_cons, List.mapM_nil, load_eq (show 5 < packet.length by omega),
      load_eq (show 4 < packet.length by omega), load_eq (show 3 < packet.length by omega),
      load_eq (show 2 < packet.length by omega), load_eq (show 1 < packet.length by omega),
      load_eq (show 0 < packet.length by omega)]
    rfl
  rw [loadAddress, hload, bluetoothAddress]
  simp

/-- The row of a payload is made of its own bytes. -/
theorem loadFoundRow_eq (payload : Bytes) : loadFoundRow payload = some (foundRow payload) := by
  rw [loadFoundRow, foundRow]
  by_cases hshort : payload.length < 14
  · rw [if_pos hshort, if_pos hshort]
  · rw [if_neg hshort, if_neg hshort, loadLe16_eq (by omega)]
    simp only [Option.bind_eq_bind, Option.bind_some]
    by_cases hlong : readLe16 payload 12 > payload.length - 14
    · rw [if_pos hlong, if_pos hlong]
      rfl
    · rw [if_neg hlong, if_neg hlong, loadAddress_eq (by omega), copyBytes, if_pos (by omega)]
      simp only [Option.bind_some, nameFromEir_eq]
      rw [load_eq (show 6 < payload.length by omega), load_eq (show 7 < payload.length by omega)]
      rfl

/-- The checks on a datagram use bytes that are received. -/
theorem loadDatagram_eq (opcode index : Nat) (capacity : Option Nat) (datagram : Bytes) :
    loadDatagram opcode index capacity (datagram.take mgmtPacketCapacity) =
      some (classify opcode index capacity datagram) := by
  rw [classify]
  generalize datagram.take mgmtPacketCapacity = packet
  have hpayload : (packet.drop 6).length = packet.length - 6 := List.length_drop
  have hcommand : readLe16 (packet.drop 6) 0 = readLe16 packet 6 := by
    simp [readLe16, List.getD_eq_getElem?_getD]
  have hstatus : (packet.drop 6).getD 2 0 = packet.getD 8 0 := by
    simp [List.getD_eq_getElem?_getD]
  rw [loadDatagram]
  -- Each check makes sure of the bytes that the next one uses.
  by_cases hmin : packet.length < 6
  · simp [hmin]
  · rw [if_neg hmin, loadLe16_eq (by omega), loadLe16_eq (by omega), loadLe16_eq (by omega)]
    simp only [Option.bind_eq_bind, Option.bind_some, hmin, if_false, hpayload, hcommand, hstatus]
    by_cases hfield : readLe16 packet 4 = packet.length - 6
    · have hcopy : copyBytes packet 6 (packet.length - 6) = some (packet.drop 6) := by
        rw [copyBytes, if_pos (by omega), List.take_of_length_le (by omega)]
      rw [if_neg (not_not.mpr hfield), if_neg (not_not.mpr hfield), hfield]
      by_cases hfound : readLe16 packet 0 = mgmtEvDeviceFound ∧ readLe16 packet 2 = index
      · rw [if_pos hfound, if_pos hfound, hcopy]
        rfl
      · rw [if_neg hfound, if_neg hfound]
        by_cases hother : readLe16 packet 2 ≠ index ∨ packet.length - 6 < 3 ∨
            (readLe16 packet 0 ≠ mgmtEvCmdComplete ∧ readLe16 packet 0 ≠ mgmtEvCmdStatus)
        · rw [if_pos hother, if_pos (by tauto)]
          rfl
        · have hsize : 9 ≤ packet.length := by
            simp only [not_or] at hother
            omega
          rw [if_neg hother, loadLe16_eq (by omega), Option.bind_some]
          by_cases hopcode : readLe16 packet 6 = opcode
          · have hreply : copyBytes packet 9 (packet.length - 6 - 3) =
                some ((packet.drop 6).drop 3) := by
              rw [copyBytes, if_pos (by omega), List.drop_drop, List.take_of_length_le]
              rw [List.length_drop]
              omega
            have hnone : ¬ (readLe16 packet 2 ≠ index ∨ packet.length - 6 < 3 ∨
                (readLe16 packet 0 ≠ mgmtEvCmdComplete ∧ readLe16 packet 0 ≠ mgmtEvCmdStatus) ∨
                readLe16 packet 6 ≠ opcode) := by tauto
            rw [if_neg (not_not.mpr hopcode), if_neg hnone,
              load_eq (show 8 < packet.length by omega), Option.bind_some, hreply]
            split_ifs <;> rfl
          · rw [if_pos hopcode, if_pos (by tauto)]
            rfl
    · simp [hfield]

end Loads

/-- For every command and everything that its attempts can get: nothing is received before
    the command is sent. The command succeeds exactly if one of the first 12 attempts gets a
    successful reply and no attempt before it is decisive, and the response is that of the
    reply. The attempts change what their events change, and no load is behind the bytes
    that are received. -/
theorem mgmt_command_matched {opcode index : Nat} (hopcode : opcode < 65536)
    (hindex : index < 65536)
    (payload : Bytes) (capacity : Option Nat) (events : Nat → Received) (g : Globals) :
    (∀ log response g', Does (mgmtCommand opcode index payload capacity) g log (some response) g' →
      payload.length ≤ 58 ∧ ∃ log', log = ⟨.send opcode index payload, none⟩ :: log') ∧
    (payload.length ≤ 58 → ∃ made ≤ 12, ∃ reply g',
      Does (mgmtCommand opcode index payload capacity) g
        (⟨.send opcode index payload, none⟩ :: attempts opcode index capacity events made)
          reply g' ∧
      Absorbed opcode index events made g g' ∧
      ∀ response, reply = some response ↔
        ∃ i < 12, SucceedsAt opcode index capacity events i response) ∧
    (∀ datagram, loadDatagram opcode index capacity (datagram.take mgmtPacketCapacity) =
      some (classify opcode index capacity datagram)) ∧
    ∀ payload, loadFoundRow payload = some (foundRow payload) := by
  refine ⟨fun log response g' h => ?_, fun hpayload => ?_, loadDatagram_eq opcode index capacity,
    loadFoundRow_eq⟩
  · rw [mgmtCommand] at h
    by_cases hlong : payload.length > 58
    · rw [if_pos hlong] at h
      cases (does_pure.mp h).2.1
    · rw [if_neg hlong] at h
      obtain ⟨sent, log', rfl, hrest⟩ := does_call_bind.mp h
      cases sent with
      | some code => cases (does_error.mp hrest).2.1
      | none => exact ⟨by omega, log', rfl⟩
  · obtain ⟨made, hmade, reply, g', hdoes, habsorbed, hiff⟩ :=
      awaitReply_attempts hopcode hindex 12 events g
    refine ⟨made, hmade, reply, g', ?_, habsorbed, hiff⟩
    rw [mgmtCommand, if_neg (by omega)]
    exact does_call_bind.mpr ⟨none, _, rfl, hdoes⟩

namespace Sample

/-- A timeout, and then a successful reply to Set Powered from the controller `hci0`. -/
def lateReply : Nat → Received
  | 0 => .idle 0
  | _ => .packet (frame mgmtEvCmdComplete 0 (outcome mgmtOpSetPowered 0 [1, 0, 0, 0]))

/-- A successful status of Set Powered with a byte behind it. -/
def longStatus : Bytes := frame mgmtEvCmdStatus 0 (outcome mgmtOpSetPowered 0 [7])

end Sample

/-- The reply that comes after a timeout is the response. -/
theorem mgmt_command_late : ∃ made ≤ 12, ∃ g', Does (mgmtCommand mgmtOpSetPowered 0 [1] none) {}
    (⟨.send mgmtOpSetPowered 0 [1], none⟩ :: attempts mgmtOpSetPowered 0 none Sample.lateReply made)
    (some [1, 0, 0, 0]) g' := by
  have hopcode : mgmtOpSetPowered < 65536 := by decide
  have hindex : 0 < 65536 := by decide
  obtain ⟨made, hmade, reply, g', hdoes, -, hiff⟩ :=
    (mgmt_command_matched hopcode hindex [1] none Sample.lateReply {}).2.1 (by decide)
  have hlate : Succeeds mgmtOpSetPowered 0 none (Sample.lateReply 1) [1, 0, 0, 0] :=
    ⟨_, rfl, .inl ⟨rfl, by simp [Overflows]⟩⟩
  have hreply : reply = some [1, 0, 0, 0] := by
    refine (hiff _).mpr ⟨1, by decide, hlate, fun j hj => ?_⟩
    obtain rfl : j = 0 := by omega
    exact ⟨id, fun response ⟨datagram, heq, _⟩ => nomatch heq⟩
  exact ⟨made, hmade, g', hreply ▸ hdoes⟩

/-- The byte behind a status is no part of the response, and a datagram that is too short
    leaves a text. -/
theorem status_without_parameters :
    (∃ log g', ⟨.receive 250 mgmtOpSetPowered 0 (some 16), .packet Sample.longStatus⟩ ∈ log ∧
      Does (mgmtCommand mgmtOpSetPowered 0 [1] (some 16)) {} log (some []) g') ∧
    ∃ log g', ⟨.receive 250 mgmtOpSetPowered 0 (some 16), .packet [1]⟩ ∈ log ∧
      Does (mgmtCommand mgmtOpSetPowered 0 [1] (some 16)) {} log none g' ∧ g'.error =
        .failed .recv 1 := by
  constructor
  · refine ⟨[⟨.send mgmtOpSetPowered 0 [1], none⟩,
      ⟨.receive 250 mgmtOpSetPowered 0 (some 16), .packet Sample.longStatus⟩], {}, by simp, ?_⟩
    have hreceive : Does (receiveMgmtEvent 250 mgmtOpSetPowered 0 (some 16)) {}
        [⟨.receive 250 mgmtOpSetPowered 0 (some 16), .packet Sample.longStatus⟩] (.reply []) {} :=
      does_call_bind.mpr ⟨_, [], rfl, does_pure.mpr ⟨rfl, rfl, rfl⟩⟩
    exact does_call_bind.mpr ⟨none, _, rfl, awaitReply_step hreceive ⟨rfl, rfl, rfl⟩⟩
  · refine ⟨[⟨.send mgmtOpSetPowered 0 [1], none⟩,
      ⟨.receive 250 mgmtOpSetPowered 0 (some 16), .packet [1]⟩],
      { error := .failed .recv 1 }, by simp, ?_, rfl⟩
    have hreceive : Does (receiveMgmtEvent 250 mgmtOpSetPowered 0 (some 16)) {}
        [⟨.receive 250 mgmtOpSetPowered 0 (some 16), .packet [1]⟩] .failed
          { error := .failed .recv 1 } :=
      does_call_bind.mpr ⟨_, [], rfl, does_error.mpr ⟨rfl, rfl, rfl⟩⟩
    exact does_call_bind.mpr ⟨none, _, rfl, awaitReply_step hreceive ⟨rfl, rfl, rfl⟩⟩

end MsysHal.Native
