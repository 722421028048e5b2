import MsysHal.Python.Inventory
import MsysHal.Spec.Validators

/-!
# What the manager accepts from providers

An inventory that `_normalize_inventory` accepts is made of short texts without
NUL and of metadata within its own bounds, and the error of one that it does not
accept has a text without NUL. Both are put into the reply to the client.

## Key results

- `acceptedAnswer_ok`: the content of an accepted answer
- `acceptedAnswer_clean`: the text of the error
-/

namespace MsysHal

open Python (Value Runtime)

/-- A short text without NUL. -/
def Plain (n : Nat) (text : String) : Prop := text.length ≤ n ∧ hasNul text = false

theorem Plain.plainText {n : Nat} {text : String} (h : Plain n text) (hn : n ≤ 4096) :
    plainText text = true := by
  rw [MsysHal.plainText, Bool.and_eq_true, decide_eq_true_eq, Bool.not_eq_true']
  exact ⟨h.1.trans hn, h.2⟩

theorem plain_of_plainText {text : String} (h : plainText text = true) : Plain 4096 text := by
  rwa [plainText, Bool.and_eq_true, decide_eq_true_eq, Bool.not_eq_true'] at h

/-! ## Names -/

private theorem not_nul_of_class {c : Char}
    (h : (isLower c || isAsciiDigit c || c == '.' || c == '-') = true) : c ≠ '\x00' := by
  rintro rfl
  exact nomatch h

/-- The grammar of domains. -/
theorem plain_of_matchesDomain {d : String} (h : matchesDomain d = true) : Plain 64 d := by
  unfold matchesDomain at h
  split at h
  · cases h
  · next c rest hd =>
    simp only [Bool.and_eq_true, decide_eq_true_eq, List.all_eq_true] at h
    obtain ⟨⟨hc, hlen⟩, hrest⟩ := h
    constructor
    · rw [← String.length_toList, hd, List.length_cons]
      omega
    · rw [hasNul, hd, List.contains_eq_mem, decide_eq_false_iff_not, List.mem_cons, not_or]
      refine ⟨fun heq => ?_, fun hmem => not_nul_of_class (hrest _ hmem) rfl⟩
      rw [← heq] at hc
      cases hc

/-! ## Devices -/

/-- What is known of a device of an accepted inventory. -/
structure DeviceOk (d : String) (device : Device) : Prop where
  id : Plain 192 device.id
  owner : domainOf device.id = d
  domain : device.domain = d
  name : Plain 4096 device.name
  count : device.mutable.length ≤ 32
  mutable : ∀ field ∈ device.mutable, Plain 64 field
  metadata : Bounded 4 256 (.dict device.metadata)

private theorem deviceName_ok {raw : Value} {name : String} (h : deviceName raw = .ok name) :
    raw = .str name := by
  unfold deviceName at h
  split at h
  · rw [Except.ite_error_eq_ok_iff, Except.ok.injEq] at h
    rw [h.2]
  · cases h

theorem normalizeDevice_ok {raw : Value} {d : String} {device : Device}
    (h : normalizeDevice raw d = .ok device) : DeviceOk d device := by
  unfold normalizeDevice at h
  obtain ⟨item, hitem, h⟩ := Except.bind_eq_ok_iff.mp h
  obtain ⟨hraw, hbounded⟩ := objectPayload_ok hitem
  obtain ⟨identifier, hid, h⟩ := Except.bind_eq_ok_iff.mp h
  obtain ⟨-, hidLength, hidNul, -⟩ := matching_ok hid
  dsimp only at h
  split at h
  · exact nomatch h
  next howner =>
  rw [bne_iff_ne, ne_eq, not_not] at howner
  obtain ⟨described, -, h⟩ := Except.bind_eq_ok_iff.mp h
  split at h
  · exact nomatch h
  obtain ⟨name, hname, h⟩ := Except.bind_eq_ok_iff.mp h
  obtain ⟨available, -, h⟩ := Except.bind_eq_ok_iff.mp h
  obtain ⟨fields, hfields, h⟩ := Except.bind_eq_ok_iff.mp h
  obtain ⟨hcount, hmutable⟩ := stringList_ok hfields
  obtain ⟨metadata, hmetadata, h⟩ := Except.bind_eq_ok_iff.mp h
  obtain ⟨hmeta, hmetaBounded⟩ := safeScalarMap_ok hmetadata
  cases h
  have hw := hbounded.wellFormed
  rw [hraw, wellFormed, Bool.and_eq_true] at hw
  have hnamed : plainText name = true := by
    have hlookup := deviceName_ok hname
    cases hv : Value.lookup "name" item with
    | none => rw [hv] at hlookup; exact nomatch hlookup
    | some v =>
      rw [hv, Option.getD_some] at hlookup
      subst hlookup
      exact wellFormed_lookup hw.2 hv
  exact ⟨⟨hidLength, hidNul⟩, howner, rfl, plain_of_plainText hnamed, hcount, hmutable,
    hmeta ▸ hmetaBounded⟩

theorem normalizeDevices_ok {d : String} {items : List Value} {devices : List Device}
    (h : normalizeDevices d items = .ok devices) : ∀ device ∈ devices, DeviceOk d device := by
  induction items generalizing devices with
  | nil =>
    cases h
    exact fun device hdevice => nomatch hdevice
  | cons item rest ih =>
    obtain ⟨device, hdevice, h⟩ := Except.bind_eq_ok_iff.mp h
    obtain ⟨devices', hdevices, h⟩ := Except.bind_eq_ok_iff.mp h
    cases h
    exact List.forall_mem_cons.mpr ⟨normalizeDevice_ok hdevice, ih hdevices⟩

/-! ## Inventories -/

/-- What is known of an accepted inventory. -/
structure AnswerOk (d : String) (answer : Answer) : Prop where
  domain : answer.domain = d
  reason : ∀ reason, answer.reason = some reason → Plain 256 reason
  devices : ∀ device ∈ answer.devices, DeviceOk d device

theorem domainReason_ok {raw : Option Value} {reason : Option String}
    (h : domainReason raw = .ok reason) : ∀ text, reason = some text → Plain 256 text := by
  intro text htext
  subst htext
  cases raw with
  | none => exact nomatch h
  | some raw =>
    obtain ⟨found, hfound, h⟩ := Except.bind_eq_ok_iff.mp h
    cases h
    exact (boundedString_ok hfound).2

theorem inventoryDomain_ok {raw : Option Value} {d : String} {status : Status}
    {reason : Option String} (h : inventoryDomain raw d = .ok (status, reason)) :
    ∀ text, reason = some text → Plain 256 text := by
  unfold inventoryDomain at h
  split at h
  · unfold normalizeDomain at h
    obtain ⟨row, -, h⟩ := Except.bind_eq_ok_iff.mp h
    obtain ⟨described, -, h⟩ := Except.bind_eq_ok_iff.mp h
    dsimp only at h
    split at h
    · exact nomatch h
    obtain ⟨status', -, h⟩ := Except.bind_eq_ok_iff.mp h
    obtain ⟨reason', hreason, h⟩ := Except.bind_eq_ok_iff.mp h
    cases h
    exact domainReason_ok (Except.mapError_eq_ok_iff.mp hreason)
  · exact nomatch h

theorem inventoryDevices_ok {raw : Option Value} {d : String} {devices : List Device}
    (h : inventoryDevices raw d = .ok devices) : ∀ device ∈ devices, DeviceOk d device := by
  unfold inventoryDevices at h
  split at h
  · rw [Except.ite_error_eq_ok_iff] at h
    exact normalizeDevices_ok h.2
  · exact nomatch h

/-- What is known of the answer of a provider that is accepted. -/
theorem acceptedAnswer_ok {rt : Runtime} {candidate : Candidate} {d : String} {reply : Reply}
    {answer : Answer} (h : acceptedAnswer rt candidate d reply = .ok answer) :
    AnswerOk d answer := by
  obtain ⟨raw, -, h⟩ := Except.bind_eq_ok_iff.mp h
  unfold normalizeInventory at h
  obtain ⟨result, -, h⟩ := Except.bind_eq_ok_iff.mp h
  dsimp only at h
  split at h
  · exact nomatch h
  split at h
  · exact nomatch h
  obtain ⟨⟨status, reason⟩, hdomain, h⟩ := Except.bind_eq_ok_iff.mp h
  obtain ⟨devices, hdevices, h⟩ := Except.bind_eq_ok_iff.mp h
  cases h
  exact ⟨rfl, inventoryDomain_ok hdomain,
    inventoryDevices_ok (Except.mapError_eq_ok_iff.mp hdevices)⟩

/-! ## Errors -/

/-- The text of an error that has no NUL. -/
def Clean (e : PyError) : Prop := hasNul (errorText e) = false

instance (e : PyError) : Decidable (Clean e) := inferInstanceAs (Decidable (_ = false))

theorem normalizeDevice_clean {raw : Value} (hw : wellFormed raw = true) {d : String} {e : HalError}
    (h : normalizeDevice raw d = .error e) : hasNul e.message = false := by
  unfold normalizeDevice at h
  rcases Except.bind_eq_error_iff.mp h with h | ⟨item, -, h⟩
  · exact objectPayload_clean hw (by decide) (by decide) h
  rcases Except.bind_eq_error_iff.mp h with h | ⟨identifier, -, h⟩
  · exact matching_clean (by decide) (by decide) h
  dsimp only at h
  split at h
  · cases h; decide
  rcases Except.bind_eq_error_iff.mp h with h | ⟨described, -, h⟩
  · exact matching_clean (by decide) (by decide) h
  split at h
  · cases h; decide
  rcases Except.bind_eq_error_iff.mp h with h | ⟨name, -, h⟩
  · unfold deviceName at h
    split at h
    · split at h
      · cases h; decide
      · cases h
    · cases h; decide
  rcases Except.bind_eq_error_iff.mp h with h | ⟨available, -, h⟩
  · unfold deviceAvailable at h
    split at h
    · cases h
    · cases h; decide
  rcases Except.bind_eq_error_iff.mp h with h | ⟨fields, -, h⟩
  · exact stringList_clean (by decide) h
  rcases Except.bind_eq_error_iff.mp h with h | ⟨metadata, -, h⟩
  · exact safeScalarMap_clean (by decide) h
  cases h

theorem normalizeDevices_clean {items : List Value} (hw : wellFormedItems items = true) {d : String}
    {e : HalError} (h : normalizeDevices d items = .error e) : hasNul e.message = false := by
  induction items with
  | nil => exact nomatch h
  | cons item rest ih =>
    rw [wellFormedItems, Bool.and_eq_true] at hw
    rcases Except.bind_eq_error_iff.mp h with h | ⟨device, -, h⟩
    · exact normalizeDevice_clean hw.1 h
    rcases Except.bind_eq_error_iff.mp h with h | ⟨devices, -, h⟩
    · exact ih hw.2 h
    exact nomatch h

theorem parseStatus_clean {raw : Value} {e : PyError} (h : parseStatus raw = .error e) :
    Clean e := by
  unfold parseStatus at h
  split at h
  · exact nomatch h
  · exact nomatch h
  · exact nomatch h
  all_goals
    cases h
    decide

/-- The error of a check that the manager does not wrap. -/
private theorem clean_of_mapError {α : Type} {x : Except HalError α} {e : PyError}
    (h : x.mapError .hal = .error e) (hx : ∀ e', x = .error e' → hasNul e'.message = false) :
    Clean e := by
  obtain ⟨e', he, rfl⟩ := Except.mapError_eq_error_iff.mp h
  exact hx e' he

theorem inventoryDomain_clean {raw : Option Value} (hw : ∀ v, raw = some v → wellFormed v = true)
    {d : String} {e : PyError} (h : inventoryDomain raw d = .error e) : Clean e := by
  unfold inventoryDomain at h
  split at h
  · next row =>
    have hrow : wellFormed (.dict row) = true := by
      have hlist := hw _ rfl
      simp only [wellFormed, wellFormedItems, Bool.and_eq_true] at hlist ⊢
      exact hlist.2.1
    unfold normalizeDomain at h
    rcases Except.bind_eq_error_iff.mp h with h | ⟨row', -, h⟩
    · exact clean_of_mapError h fun e' he => objectPayload_clean hrow (by decide) (by decide) he
    rcases Except.bind_eq_error_iff.mp h with h | ⟨described, -, h⟩
    · exact clean_of_mapError h fun e' he => matching_clean (by decide) (by decide) he
    dsimp only at h
    split at h
    · cases h; decide
    rcases Except.bind_eq_error_iff.mp h with h | ⟨status, -, h⟩
    · exact parseStatus_clean h
    rcases Except.bind_eq_error_iff.mp h with h | ⟨reason, -, h⟩
    · refine clean_of_mapError h fun e' he => ?_
      unfold domainReason at he
      split at he
      · exact nomatch he
      · rcases Except.bind_eq_error_iff.mp he with he | ⟨text, -, he⟩
        · exact boundedString_clean (by decide) he
        · exact nomatch he
    exact nomatch h
  · cases h; decide

theorem inventoryDevices_clean {raw : Option Value} (hw : ∀ v, raw = some v → wellFormed v = true)
    {d : String} {e : HalError} (h : inventoryDevices raw d = .error e) :
    hasNul e.message = false := by
  unfold inventoryDevices at h
  split at h
  · next items =>
    have hitems := hw _ rfl
    rw [wellFormed, Bool.and_eq_true] at hitems
    split at h
    · cases h; decide
    · exact normalizeDevices_clean hitems.2 h
  · cases h; decide

theorem normalizeInventory_clean {raw : List (Value × Value)} (hw : wellFormed (.dict raw) = true)
    {d : String} {candidate : Candidate} {e : PyError}
    (h : normalizeInventory raw d candidate = .error e) : Clean e := by
  unfold normalizeInventory at h
  rcases Except.bind_eq_error_iff.mp h with h | ⟨result, hresult, h⟩
  · exact clean_of_mapError h fun e' he => objectPayload_clean hw (by decide) (by decide) he
  obtain ⟨hraw, -⟩ := objectPayload_ok (Except.mapError_eq_ok_iff.mp hresult)
  have hmembers : ∀ name v, Value.lookup name result = some v → wellFormed v = true := by
    intro name v hv
    rw [hraw, wellFormed, Bool.and_eq_true] at hw
    exact wellFormed_lookup hw.2 hv
  dsimp only at h
  split at h
  · cases h; decide
  split at h
  · cases h; decide
  rcases Except.bind_eq_error_iff.mp h with h | ⟨⟨status, reason⟩, -, h⟩
  · exact inventoryDomain_clean (hmembers _) h
  rcases Except.bind_eq_error_iff.mp h with h | ⟨devices, -, h⟩
  · exact clean_of_mapError h fun e' he => inventoryDevices_clean (hmembers _) he
  exact nomatch h

/-! ## Replies -/

/-- A reply the gateway can give: a packet that it has decoded, an error of the
    codec, or another exception. -/
def Reply.Decoded : Reply → Prop
  | .response value => Bounded 10 2048 value
  | .raised error => hasNul error.message = false
  | .unreachable _ | .failed _ => True

/-- `str` of a value that is not a string writes no NUL. -/
def Runtime.CleanStr (rt : Runtime) : Prop := ∀ v, hasNul (rt.strOf v) = false

section Replies

variable {rt : Runtime} (hrt : Runtime.CleanStr rt) {operation : String}
  (hoperation : hasNul operation = false)

include hrt

private theorem pyStr_clean {v : Value} (hw : wellFormed v = true) :
    hasNul (pyStr rt v) = false := by
  unfold pyStr
  split
  · exact (plain_of_plainText hw).2
  · exact hrt _

include hoperation

/-- The message of a provider failure, passed on or not. -/
theorem providerFailure_clean {response : Value} (hw : wellFormed response = true) :
    hasNul (providerFailure rt response operation).message = false := by
  have hfailed : hasNul (operation ++ " failed") = false := by
    rw [hasNul_append, hoperation]
    decide
  have hmessage : hasNul (clip 512 (((response.get? "message").map (pyStr rt)).getD
      (operation ++ " failed"))) = false := by
    apply hasNul_clip
    cases hv : response.get? "message" with
    | none => exact hfailed
    | some v =>
      cases response with
      | dict members =>
        rw [wellFormed, Bool.and_eq_true] at hw
        exact pyStr_clean hrt (wellFormed_lookup hw.2 hv)
      | _ => exact nomatch hv
  unfold providerFailure
  dsimp only
  split
  · exact hmessage
  · exact hfailed

theorem replyPayload_clean {reply : Reply} (hreply : reply.Decoded) {e : HalError}
    (h : replyPayload rt operation reply = .error e) : hasNul e.message = false := by
  cases reply with
  | raised error =>
    cases h
    exact hreply
  | unreachable exception =>
    cases h
    change hasNul (operation ++ " is unavailable") = false
    rw [hasNul_append, hoperation]
    decide
  | failed exception =>
    cases h
    change hasNul (operation ++ " could not be completed") = false
    rw [hasNul_append, hoperation]
    decide
  | response value =>
    change unwrap rt value operation = .error e at h
    unfold unwrap at h
    split at h
    · split at h
      · rcases Except.bind_eq_error_iff.mp h with h | ⟨_, -, h⟩
        · refine (ensureBoundedJson_plain ?_ h).message
          change hasNul (operation ++ " response") = false
          rw [hasNul_append, hoperation]
          decide
        · exact nomatch h
      · cases h
        change hasNul (operation ++ " returned a non-object") = false
        rw [hasNul_append, hoperation]
        decide
    · cases h
      exact providerFailure_clean hrt hoperation hreply.wellFormed

end Replies

/-- What a provider returned has the right shape. -/
theorem replyPayload_ok {rt : Runtime} {operation : String} {reply : Reply}
    {members : List (Value × Value)} (h : replyPayload rt operation reply = .ok members) :
    wellFormed (.dict members) = true := by
  cases reply with
  | response value =>
    change unwrap rt value operation = .ok members at h
    unfold unwrap at h
    split at h
    · split at h
      · obtain ⟨_, hb, h⟩ := Except.bind_eq_ok_iff.mp h
        cases h
        exact ((ensureBoundedJson_ok_iff _ _ _ _).mp hb).wellFormed
      · exact nomatch h
    · exact nomatch h
  | _ => exact nomatch h

/-- The error text of an answer that is not accepted. -/
theorem acceptedAnswer_clean {rt : Runtime} (hrt : Runtime.CleanStr rt) {candidate : Candidate}
    {d : String} {reply : Reply} (hreply : reply.Decoded) {e : PyError}
    (h : acceptedAnswer rt candidate d reply = .error e) : Clean e := by
  have hoperation : hasNul ("inventory " ++ candidate.component) = false := by
    rw [hasNul_append, candidate.component_plain.2]
    decide
  rcases Except.bind_eq_error_iff.mp h with h | ⟨raw, hraw, h⟩
  · exact clean_of_mapError h fun e' he => replyPayload_clean hrt hoperation hreply he
  · exact normalizeInventory_clean (replyPayload_ok (Except.mapError_eq_ok_iff.mp hraw)) h

end MsysHal
