import MsysHal.ForStd.Alike
import MsysHal.Spec.Connect
import MsysHal.Spec.Credential

/-!
# The credential of a connect request stays private

A credential goes into one command of the control socket and nowhere else. Two requests
that differ in it alone have runs that are alike but for that command, so in an
environment that is blind to it nobody can tell them apart by the reply, by an error, or
by anything that is asked later.

## Key results

- `setRequest_same`: the checks of two requests of the Python client
- `setState_alike`, `wifiSetState_alike`: what two requests of either client do
- `setState_private`, `wifiSetState_private`: what they return in a blind environment
-/

namespace MsysHal.Network

open Interleave (Prog Disguise Alike Machine)
open Python (Runtime Value)
open Python.Text (PrintTable)

/-! ## Commands -/

/-- A command that is printable after a start that is valid. -/
theorem commandValid_append {start rest : String} (hstart : commandValid start = true)
    (hlength : start.length + rest.length ≤ 1000)
    (hrest : ∀ c ∈ rest.toList, 32 ≤ c.toNat) : commandValid (start ++ rest) = true := by
  have hsize := Python.utf8Len_le ((start ++ rest).toList)
  rw [commandValid, Bool.and_eq_true, Bool.and_eq_true] at hstart ⊢
  refine ⟨⟨?_, ?_⟩, ?_⟩
  · have hne : start ≠ "" := by simpa using hstart.1.1
    simp [hne]
  · rw [String.toList_append, List.length_append, String.length_toList,
      String.length_toList] at hsize
    rw [decide_eq_true_eq, String.toList_append]
    omega
  · have hclean : rest.toList.any (fun c => c == '\x00' || c == '\n' || c == '\r') = false := by
      rw [List.any_eq_false]
      intro c hc h
      have hlow := hrest c hc
      simp only [Bool.or_eq_true, beq_iff_eq] at h
      rcases h with (rfl | rfl) | rfl <;> exact absurd hlow (by decide)
    rw [String.toList_append, List.any_append, hclean, Bool.or_false]
    exact hstart.2

/-- The text is a credential that `_validate_psk` accepts. -/
def Accepted (psk : List Char) : Prop := ∃ value, validatePsk value = .ok psk

theorem Accepted.text {psk : List Char} (h : Accepted psk) :
    ∃ s : String, validatePsk (.str s) = .ok psk := by
  obtain ⟨value, hvalue⟩ := h
  cases value with
  | str s => exact ⟨s, hvalue⟩
  | _ => exact nomatch hvalue

/-- An argument is short. -/
theorem Accepted.argument_length {psk : List Char} (h : Accepted psk) :
    (pskArgument psk).length ≤ 128 := by
  obtain ⟨s, hs⟩ := h.text
  rw [← String.length_toList]
  rcases Native.psk_of_validatePsk hs with hhex | hphrase
  · rw [Native.validatePsk_hex hhex, Except.ok.injEq] at hs
    rw [← hs, Native.pskArgument_hex hhex, List.length_map, hhex.1]
    decide
  · rw [Native.validatePsk_passphrase hphrase, Except.ok.injEq] at hs
    have htwice :=
      List.sum_le_card_nsmul (s.toList.map fun c => (Native.escapePsk c).length) 2 fun _ hx => by
      obtain ⟨c, -, rfl⟩ := List.mem_map.mp hx
      exact Native.length_escapePsk_le c
    have hmax := hphrase.maximum
    rw [List.length_map, smul_eq_mul] at htwice
    rw [← hs, Native.pskArgument_passphrase hphrase, List.length_append, List.length_cons,
      List.length_flatMap, List.length_singleton]
    omega

theorem Accepted.argument_printable {psk : List Char} (h : Accepted psk) :
    ∀ c ∈ (pskArgument psk).toList, 32 ≤ c.toNat := by
  obtain ⟨s, hs⟩ := h.text
  exact fun c hc => (Native.pskArgument_printable hs c hc).1

/-- The command that sets a credential. -/
def pskCommand (n : Nat) (psk : List Char) : String := s!"SET_NETWORK {n} psk {pskArgument psk}"

theorem commandValid_pskCommand {n : Nat} (hn : n ≤ 4095) {psk : List Char} (h : Accepted psk) :
    commandValid (pskCommand n psk) = true := by
  have hnumbered : commandValid ("SET_NETWORK " ++ toString n) = true :=
    commandValid_numbered (by decide) (by decide) hn
  have hargument := h.argument_length
  have hdigits : (toString n).length ≤ 4 := by
    rw [← String.length_toList, show (toString n).toList = Nat.toDigits 10 n from Nat.toList_repr]
    exact (Nat.length_toDigits_le_iff (by decide) (by decide)).mpr (by omega)
  have hrest :
      commandValid (("SET_NETWORK " ++ toString n) ++ (" psk " ++ pskArgument psk)) = true := by
    refine commandValid_append hnumbered ?_ fun c hc => ?_
    · rw [String.length_append, String.length_append]
      have hstart : "SET_NETWORK ".length = 12 := rfl
      have hmiddle : " psk ".length = 5 := rfl
      omega
    · rw [String.toList_append, List.mem_append] at hc
      rcases hc with hc | hc
      · have hletters : " psk ".toList = [' ', 'p', 's', 'k', ' '] := rfl
        rw [hletters] at hc
        simp only [List.mem_cons, List.not_mem_nil, or_false] at hc
        rcases hc with rfl | rfl | rfl | rfl | rfl <;> exact Nat.le_of_ble_eq_true rfl
      · exact h.argument_printable c hc
  rw [← String.append_assoc] at hrest
  exact hrest

/-- The commands that set a credential, one in place of another. -/
inductive Secret : Disguise netSig
  | psk (interface : String) (n : Nat) {psk psk' : List Char} : Accepted psk → Accepted psk' →
      Secret (.exchange interface (pskCommand n psk)) (.exchange interface (pskCommand n psk'))
        fun r => r

/-! ## Requests -/

/-- A credential in place of another, or the same protection. -/
inductive SameCredential : Credential → Credential → Prop
  | same (credential : Credential) : SameCredential credential credential
  | psk {psk psk' : List Char} : Accepted psk → Accepted psk' →
      SameCredential (.psk psk) (.psk psk')

theorem requestOk_psk_alike (interface : String) {n : Nat} (hn : n ≤ 4095) {psk psk' : List Char}
    (h : Accepted psk) (h' : Accepted psk') (operation : String) :
    Alike Secret (requestOk interface (pskCommand n psk) operation)
      (requestOk interface (pskCommand n psk') operation) := by
  have hrequest : Alike Secret (request interface (pskCommand n psk))
      (request interface (pskCommand n psk')) := by
    by_cases hi : matchesEntry interface.toList = true
    · rw [request_eq hi (commandValid_pskCommand hn h),
        request_eq hi (commandValid_pskCommand hn h')]
      exact .hidden (.psk interface n h h') fun r => .refl (Prog.ofExcept (exchanged interface r))
    · unfold request
      rw [if_pos (by simp [hi]), if_pos (by simp [hi])]
      exact .refl _
  exact hrequest.bind fun _ => .refl _

theorem setUpNetwork_alike (interface : String) {n : Nat} (hn : n ≤ 4095) (ssid : List Char)
    {credential credential' : Credential} (h : SameCredential credential credential') :
    Alike Secret (setUpNetwork interface n ssid credential)
      (setUpNetwork interface n ssid credential') := by
  cases h with
  | same => exact .refl _
  | psk h h' =>
    unfold setUpNetwork
    refine Alike.bind (.refl _) fun _ => ?_
    exact (requestOk_psk_alike interface hn h h' _).bind fun _ => .refl _

theorem connectNew_alike (table : PrintTable) (identifier interface : String) (ssid : List Char)
    {credential credential' : Credential} (h : SameCredential credential credential') :
    Alike Secret (connectNew table identifier interface ssid credential)
      (connectNew table identifier interface ssid credential') := by
  unfold connectNew
  refine Alike.bind (.refl _) fun added => ?_
  cases hadded : addedId added with
  | none => exact .refl _
  | some n =>
    have hn : n ≤ 4095 := by
      unfold addedId at hadded
      split at hadded
      · exact nomatch hadded
      · next hvalid =>
        simp only [Bool.or_eq_true, decide_eq_true_eq, not_or, Nat.not_lt] at hvalid
        cases hadded
        exact hvalid.2
    refine Alike.bind ?_ fun _ => .refl _
    exact Alike.bind (setUpNetwork_alike interface hn ssid h).attempt fun _ => .refl _

/-! ### Changes -/

/-- The same changes, but for the credential, which is valid in both. -/
def SameButPsk (changes changes' : List (Value × Value)) : Prop :=
  List.Forall₂ (fun m m' => m.1 = m'.1 ∧ (m.2 = m'.2 ∨ m.1.isKey "psk" = true ∧
    (∃ psk, validatePsk m.2 = .ok psk) ∧ ∃ psk', validatePsk m'.2 = .ok psk')) changes changes'

variable {changes changes' : List (Value × Value)}

theorem SameButPsk.keysWithin (h : SameButPsk changes changes') (allowed : List String) :
    keysWithin allowed changes = keysWithin allowed changes' := by
  induction h with
  | nil => rfl
  | cons hm _ ih =>
    unfold Network.keysWithin at ih ⊢
    rw [List.all_cons, List.all_cons, hm.1, ih]

theorem SameButPsk.lookup (h : SameButPsk changes changes') {name : String} (hname : name ≠ "psk") :
    Value.lookup name changes = Value.lookup name changes' := by
  induction h with
  | nil => rfl
  | @cons m m' _ _ hm _ ih =>
    obtain ⟨key, value⟩ := m
    obtain ⟨key', value'⟩ := m'
    obtain ⟨rfl, hvalue⟩ := hm
    rw [Value.lookup, Value.lookup, ih]
    rcases hvalue with hvalue | ⟨hkey, -⟩
    · rw [show value = value' from hvalue]
    · have hother : key.isKey name = false := by
        cases key with
        | str s =>
          rw [Value.isKey, beq_iff_eq] at hkey
          rw [Value.isKey, beq_eq_false_iff_ne, show s = "psk" from hkey]
          exact hname.symm
        | _ => rfl
      rw [hother, if_neg Bool.false_ne_true, if_neg Bool.false_ne_true]

/-- The credentials of two requests. -/
inductive SameOption : Option Value → Option Value → Prop
  | same (psk : Option Value) : SameOption psk psk
  | psk {value value' : Value} {psk psk' : List Char} : validatePsk value = .ok psk →
      validatePsk value' = .ok psk' → SameOption (some value) (some value')

theorem SameOption.isSome {psk psk' : Option Value} (h : SameOption psk psk') :
    psk.isSome = psk'.isSome := by cases h <;> rfl

theorem SameButPsk.psk (h : SameButPsk changes changes') :
    SameOption (Value.lookup "psk" changes) (Value.lookup "psk" changes') := by
  induction h with
  | nil => exact .same none
  | @cons m m' _ _ hm _ ih =>
    obtain ⟨key, value⟩ := m
    obtain ⟨key', value'⟩ := m'
    obtain ⟨rfl, hvalue⟩ := hm
    rw [Value.lookup, Value.lookup]
    split
    · rcases hvalue with hvalue | ⟨-, ⟨psk, hpsk⟩, psk', hpsk'⟩
      · rw [show value = value' from hvalue]
        exact .same _
      · exact .psk hpsk hpsk'
    · exact ih

theorem connectFields_same (h : SameButPsk changes changes') :
    (∃ e, connectFields changes = .error e ∧ connectFields changes' = .error e) ∨
      ∃ ssid psk psk' isOpen, connectFields changes = .ok (ssid, psk, isOpen) ∧
        connectFields changes' = .ok (ssid, psk', isOpen) ∧ SameOption psk psk' := by
  unfold connectFields
  dsimp only
  rw [h.lookup (show "security" ≠ "psk" by decide), h.lookup (show "ssid" ≠ "psk" by decide),
    h.keysWithin, h.psk.isSome]
  cases Value.lookup "ssid" changes' with
  | none => exact .inl ⟨_, rfl, rfl⟩
  | some ssid =>
    dsimp only
    split_ifs
    · exact .inl ⟨_, rfl, rfl⟩
    · exact .inl ⟨_, rfl, rfl⟩
    · exact .inl ⟨_, rfl, rfl⟩
    · exact .inr ⟨_, _, _, _, rfl, rfl, h.psk⟩

theorem newCredential_same {psk psk' : Option Value} (h : SameOption psk psk') (isOpen : Bool) :
    (∃ e, newCredential psk isOpen = .error e ∧ newCredential psk' isOpen = .error e) ∨
      ∃ credential credential', newCredential psk isOpen = .ok credential ∧
        newCredential psk' isOpen = .ok credential' ∧ SameCredential credential credential' := by
  cases isOpen with
  | true => exact .inr ⟨_, _, rfl, rfl, .same _⟩
  | false =>
    cases h with
    | same =>
      cases newCredential psk false with
      | error e => exact .inl ⟨e, rfl, rfl⟩
      | ok credential => exact .inr ⟨_, _, rfl, rfl, .same _⟩
    | psk hpsk hpsk' =>
      exact .inr ⟨_, _, by rw [newCredential, hpsk]; rfl, by rw [newCredential, hpsk']; rfl,
        .psk ⟨_, hpsk⟩ ⟨_, hpsk'⟩⟩

theorem connect_alike (table : PrintTable) (identifier interface : String)
    (h : SameButPsk changes changes') :
    Alike Secret (connect table identifier interface changes)
      (connect table identifier interface changes') := by
  unfold connect
  rcases connectFields_same h with ⟨e, hfields, hfields'⟩ | ⟨ssid, psk, psk', isOpen, hfields,
    hfields', hpsk⟩
  · rw [hfields, hfields']
    exact .refl _
  · rw [hfields, hfields']
    change Alike Secret (check (validateSsid table ssid) >>= _)
      (check (validateSsid table ssid) >>= _)
    refine Alike.bind (.refl (check (validateSsid table ssid))) fun ssid => ?_
    refine Alike.bind (.refl (configured table interface)) fun rows => ?_
    split
    · rcases newCredential_same hpsk isOpen with ⟨e, hnew, hnew'⟩ | ⟨credential, credential', hnew,
        hnew', hsame⟩
      · rw [hnew, hnew']
        exact .refl _
      · rw [hnew, hnew']
        exact connectNew_alike table identifier interface ssid hsame
    · rw [hpsk.isSome]
      exact .refl _
    · exact .refl _

/-- Two requests that differ in the credential alone. -/
theorem setState_alike (table : PrintTable) (identifier : String)
    (h : SameButPsk changes changes') :
    Alike Secret (setState table identifier changes) (setState table identifier changes') := by
  unfold setState
  refine Alike.bind (.refl _) fun name => Alike.bind (.refl _) fun kind => ?_
  split_ifs
  · exact .refl _
  · refine Alike.bind (.refl (op (.available name))) fun available => ?_
    cases available with
    | false => exact .refl _
    | true =>
      change Alike Secret (act table identifier name changes) (act table identifier name changes')
      unfold act
      rw [h.lookup (show "action" ≠ "psk" by decide)]
      split
      · unfold trigger
        rw [h.keysWithin]
        exact .refl _
      · unfold trigger
        rw [h.keysWithin]
        exact .refl _
      · exact connect_alike table identifier name h
      · unfold forget forgotten
        rw [h.keysWithin, h.lookup (show "network_id" ≠ "psk" by decide),
          h.lookup (show "ssid" ≠ "psk" by decide)]
        exact .refl _
      · exact .refl _
      · exact .refl _
      · exact .refl _

/-! ### The checks of a request -/

/-- A valid credential is a string that every walk accepts. -/
theorem walk_psk {value : Value} {psk : List Char} (h : validatePsk value = .ok psk)
    (label : String) (maxDepth maxItems depth count : Nat) :
    walk label maxDepth maxItems value depth count =
      walkEnter label maxDepth maxItems depth count := by
  cases value with
  | str s =>
    have hshort : s.length ≤ 64 ∧ hasNul s = false := by
      rw [← String.length_toList, hasNul]
      rcases Native.psk_of_validatePsk h with hhex | hphrase
      · refine ⟨hhex.1.le, ?_⟩
        rw [List.contains_eq_mem, decide_eq_false_iff_not]
        exact fun hnul => absurd (hhex.2 _ hnul) (by decide)
      · refine ⟨hphrase.maximum.trans (by omega), ?_⟩
        rw [List.contains_eq_mem, decide_eq_false_iff_not]
        exact fun hnul => absurd (hphrase.printable _ hnul).1 (by decide)
    rw [walk, hshort.2, Bool.or_false, decide_eq_false (by omega)]
    cases walkEnter label maxDepth maxItems depth count <;> rfl
  | _ => cases h

/-- Members with the same keys whose values pass the walk alike. -/
theorem walkMembers_congr {label : String} {maxDepth maxItems : Nat}
    {members members' : List (Value × Value)}
    (h : List.Forall₂ (fun m m' => m.1 = m'.1 ∧ ∀ depth count,
      walk label maxDepth maxItems m.2 depth count = walk label maxDepth maxItems m'.2 depth count)
      members members') (depth count : Nat) :
    walkMembers label maxDepth maxItems members depth count =
      walkMembers label maxDepth maxItems members' depth count := by
  induction h generalizing count with
  | nil => rfl
  | @cons m m' _ _ hm _ ih =>
    obtain ⟨key, value⟩ := m
    obtain ⟨key', value'⟩ := m'
    obtain ⟨rfl, hvalue⟩ := hm
    simp only [walkMembers]
    rw [hvalue]
    simp only [ih]

theorem walk_dict_congr {label : String} {maxDepth maxItems : Nat}
    {members members' : List (Value × Value)}
    (h : List.Forall₂ (fun m m' => m.1 = m'.1 ∧ ∀ depth count,
      walk label maxDepth maxItems m.2 depth count = walk label maxDepth maxItems m'.2 depth count)
      members members') (depth count : Nat) :
    walk label maxDepth maxItems (.dict members) depth count =
      walk label maxDepth maxItems (.dict members') depth count := by
  simp only [walk, h.length_eq, walkMembers_congr h]

theorem SameButPsk.walk (h : SameButPsk changes changes') (label : String)
    (maxDepth maxItems depth count : Nat) :
    MsysHal.walk label maxDepth maxItems (.dict changes) depth count =
      MsysHal.walk label maxDepth maxItems (.dict changes') depth count := by
  refine walk_dict_congr (List.Forall₂.imp (fun m m' hm => ⟨hm.1, fun depth count => ?_⟩) h)
    depth count
  rcases hm.2 with heq | ⟨-, ⟨psk, hpsk⟩, psk', hpsk'⟩
  · rw [heq]
  · rw [walk_psk hpsk, walk_psk hpsk']

theorem dumpable_psk {value : Value} {psk : List Char} (h : validatePsk value = .ok psk) :
    value.dumpable = true := by
  cases value with
  | str s => rfl
  | _ => cases h

/-- Members with the same keys whose values are encoded alike. -/
theorem dumpable_congr {members members' : List (Value × Value)}
    (h : List.Forall₂ (fun m m' => m.1 = m'.1 ∧ m.2.dumpable = m'.2.dumpable) members members') :
    (Value.dict members).dumpable = (Value.dict members').dumpable := by
  rw [Value.dumpable, Value.dumpable]
  induction h with
  | nil => rfl
  | @cons m m' _ _ hm _ ih =>
    obtain ⟨key, value⟩ := m
    obtain ⟨key', value'⟩ := m'
    obtain ⟨rfl, hvalue⟩ := hm
    rw [Python.dumpableMembers, Python.dumpableMembers, hvalue, ih]

theorem SameButPsk.dumpable (h : SameButPsk changes changes') :
    (Value.dict changes).dumpable = (Value.dict changes').dumpable := by
  refine dumpable_congr (List.Forall₂.imp (fun m m' hm => ⟨hm.1, ?_⟩) h)
  rcases hm.2 with heq | ⟨-, ⟨psk, hpsk⟩, psk', hpsk'⟩
  · rw [heq]
  · rw [dumpable_psk hpsk, dumpable_psk hpsk']

/-- The same payload, but for the credential in its changes. -/
def SamePayload (members members' : List (Value × Value)) : Prop :=
  List.Forall₂ (fun m m' => m.1 = m'.1 ∧ (m.2 = m'.2 ∨ m.1.isKey "changes" = true ∧
    ∃ changes changes', m.2 = .dict changes ∧ m'.2 = .dict changes' ∧ SameButPsk changes changes'))
    members members'

theorem SameButPsk.refl (changes : List (Value × Value)) : SameButPsk changes changes :=
  List.forall₂_same.mpr fun _ _ => ⟨rfl, .inl rfl⟩

section Payloads

variable {members members' : List (Value × Value)}

theorem SamePayload.keys (h : SamePayload members members') :
    members.map Prod.fst = members'.map Prod.fst := by
  induction h with
  | nil => rfl
  | cons hm _ ih => rw [List.map_cons, List.map_cons, hm.1, ih]

theorem SamePayload.lookup (h : SamePayload members members') (name : String) :
    Value.lookup name members = Value.lookup name members' ∨ name = "changes" ∧
      ∃ changes changes', Value.lookup name members = some (.dict changes) ∧
        Value.lookup name members' = some (.dict changes') ∧ SameButPsk changes changes' := by
  induction h with
  | nil => exact .inl rfl
  | @cons m m' _ _ hm _ ih =>
    obtain ⟨key, value⟩ := m
    obtain ⟨key', value'⟩ := m'
    obtain ⟨rfl, hvalue⟩ := hm
    rw [Value.lookup, Value.lookup]
    split
    · next hkey =>
      rcases hvalue with heq | ⟨hchanges, changes, changes', heq, heq', hsame⟩
      · exact .inl (congrArg some heq)
      · cases key with
        | str s =>
          have hname := (beq_iff_eq.mp hkey).symm.trans (beq_iff_eq.mp hchanges)
          exact .inr ⟨hname, changes, changes', congrArg some heq, congrArg some heq', hsame⟩
        | _ => cases hkey
    · exact ih

theorem SamePayload.lookup_isNone (h : SamePayload members members') (name : String) :
    (Value.lookup name members).isNone = (Value.lookup name members').isNone := by
  rcases h.lookup name with heq | ⟨-, changes, changes', heq, heq', -⟩
  · rw [heq]
  · rw [heq, heq']
    rfl

/-- Two values that pass the walk alike and of which both or neither is too large. -/
theorem ensureBoundedJson_congr {value value' : Value} (label : String) {maxDepth maxItems : Nat}
    (hwalk : walk label maxDepth maxItems value 0 0 = walk label maxDepth maxItems value' 0 0)
    (hdump : value.dumpable = value'.dumpable)
    (hsize : value.size ≤ maxHalJson ↔ value'.size ≤ maxHalJson) :
    ensureBoundedJson value label maxDepth maxItems =
      ensureBoundedJson value' label maxDepth maxItems := by
  have hlarge : (String.utf8Len value.text > maxHalJson) =
      (String.utf8Len value'.text > maxHalJson) := by
    rw [gt_iff_lt, gt_iff_lt, ← Nat.not_le, ← Nat.not_le]
    exact propext (not_congr hsize)
  rw [ensureBoundedJson, ensureBoundedJson, hwalk, Python.dumps, Python.dumps, hdump]
  cases value'.dumpable with
  | false => rfl
  | true => simp only [if_true, hlarge]

theorem size_lookup_le {name : String} {value : Value}
    (h : Value.lookup name members = some value) : value.size ≤ (Value.dict members).size := by
  have hmem : ∃ key, (key, value) ∈ members := by
    induction members with
    | nil => cases h
    | cons member members ih =>
      obtain ⟨key, first⟩ := member
      rw [Value.lookup] at h
      split at h
      · cases h
        exact ⟨key, List.mem_cons_self⟩
      · obtain ⟨key, hkey⟩ := ih h
        exact ⟨key, List.mem_cons_of_mem _ hkey⟩
  obtain ⟨key, hkey⟩ := hmem
  have hsum := List.single_le_sum (fun _ _ => Nat.zero_le _) _
    (List.mem_map_of_mem (f := Python.memberSize) hkey)
  rw [Python.memberSize] at hsum
  rw [Python.size_dict]
  simp only at hsum
  omega

theorem objectPayload_same (h : SamePayload members members')
    (hsize : (Value.dict members).size ≤ maxHalJson ↔ (Value.dict members').size ≤ maxHalJson)
    (allowed required : List String) :
    (∃ e, objectPayload (.dict members) allowed required = .error e ∧
        objectPayload (.dict members') allowed required = .error e) ∨
      objectPayload (.dict members) allowed required = .ok members ∧
        objectPayload (.dict members') allowed required = .ok members' := by
  -- Every check of the payload sees the same of both.
  have hwalk (label : String) (maxDepth maxItems depth count : Nat) :
      walk label maxDepth maxItems (.dict members) depth count =
        walk label maxDepth maxItems (.dict members') depth count := by
    refine walk_dict_congr (List.Forall₂.imp (fun m m' hm => ⟨hm.1, fun depth count => ?_⟩) h)
      depth count
    rcases hm.2 with heq | ⟨-, changes, changes', heq, heq', hsame⟩
    · rw [heq]
    · rw [heq, heq', hsame.walk]
  have hdump : (Value.dict members).dumpable = (Value.dict members').dumpable := by
    refine dumpable_congr (List.Forall₂.imp (fun m m' hm => ⟨hm.1, ?_⟩) h)
    rcases hm.2 with heq | ⟨-, changes, changes', heq, heq', hsame⟩
    · rw [heq]
    · rw [heq, heq', hsame.dumpable]
  have hnames : members.map (keyName ∘ Prod.fst) = members'.map (keyName ∘ Prod.fst) := by
    rw [← List.map_map, ← List.map_map, h.keys]
  have hmissing : required.filter (fun name => (Value.lookup name members).isNone) =
      required.filter fun name => (Value.lookup name members').isNone :=
    List.filter_congr fun name _ => by rw [h.lookup_isNone]
  rw [objectPayload, objectPayload, hnames, hmissing, h.length_eq,
    ensureBoundedJson_congr _ (hwalk "payload" 6 512 0 0) hdump hsize]
  dsimp only
  -- Here the two payloads take the same branch.
  split
  · exact .inl ⟨_, rfl, rfl⟩
  split
  · exact .inl ⟨_, rfl, rfl⟩
  split
  · exact .inl ⟨_, rfl, rfl⟩
  cases ensureBoundedJson (.dict members') "payload" with
  | error e => exact .inl ⟨e, rfl, rfl⟩
  | ok u => exact .inr ⟨rfl, rfl⟩

theorem SameButPsk.any (h : SameButPsk changes changes') (f : Value × Value → Bool)
    (hf : ∀ m m' : Value × Value, m.1 = m'.1 → f m = f m') : changes.any f = changes'.any f := by
  induction h with
  | nil => rfl
  | cons hm _ ih => rw [List.any_cons, List.any_cons, hf _ _ hm.1, ih]

theorem changes_same (h : SameButPsk changes changes')
    (hsize : (Value.dict changes).size ≤ maxHalJson ↔ (Value.dict changes').size ≤ maxHalJson) :
    (∃ e, MsysHal.changes (.dict changes) = .error e ∧ MsysHal.changes
      (.dict changes') = .error e) ∨ MsysHal.changes (.dict changes) = .ok changes ∧
        MsysHal.changes (.dict changes') = .ok changes' := by
  have hempty : changes.isEmpty = changes'.isEmpty := by
    rw [Bool.eq_iff_iff, List.isEmpty_iff_length_eq_zero, List.isEmpty_iff_length_eq_zero,
      h.length_eq]
  have hbounded := ensureBoundedJson_congr "changes" (h.walk "changes" 4 64 0 0)
    h.dumpable hsize
  rw [MsysHal.changes, MsysHal.changes, hempty, h.length_eq, hbounded,
    h.any _ fun m m' hm => by rw [hm]]
  dsimp only
  split
  · exact .inl ⟨_, rfl, rfl⟩
  split
  · exact .inl ⟨_, rfl, rfl⟩
  cases ensureBoundedJson (.dict changes') "changes" 4 64 with
  | error e => exact .inl ⟨e, rfl, rfl⟩
  | ok u => exact .inr ⟨rfl, rfl⟩

/-- The checks refuse both requests for the same reason, or they let both through. -/
theorem setRequest_same (rt : Runtime) (h : SamePayload members members')
    (hsize : (Value.dict members).size ≤ maxHalJson ↔ (Value.dict members').size ≤ maxHalJson) :
    (∃ e, setRequest rt (.dict members) = .error e ∧ setRequest rt (.dict members') = .error e) ∨
      ∃ identifier changes changes', setRequest rt (.dict members) = .ok (identifier, changes) ∧
        setRequest rt (.dict members') = .ok (identifier, changes') ∧
        SameButPsk changes changes' := by
  -- Only the changes can differ.
  have hid : Value.lookup "id" members = Value.lookup "id" members' := by
    rcases h.lookup "id" with heq | ⟨hname, -⟩
    · exact heq
    · exact absurd hname (by decide)
  unfold setRequest
  rcases objectPayload_same h hsize ["id", "changes"] ["id", "changes"] with ⟨e, he,
    he'⟩ | ⟨hok, hok'⟩
  · rw [he, he']
    exact .inl ⟨e, rfl, rfl⟩
  · have hrequested :
        (∃ e, MsysHal.changes ((Value.lookup "changes" members).getD .null) = .error e ∧
          MsysHal.changes ((Value.lookup "changes" members').getD .null) = .error e) ∨
        ∃ changes changes', MsysHal.changes ((Value.lookup "changes" members).getD .null) =
          .ok changes ∧
          MsysHal.changes ((Value.lookup "changes" members').getD .null) = .ok changes' ∧
            SameButPsk changes changes' := by
      rcases h.lookup "changes" with heq | ⟨-, changes, changes', heq, heq', hsame⟩
      · rw [heq]
        cases MsysHal.changes ((Value.lookup "changes" members').getD .null) with
        | error e => exact .inl ⟨e, rfl, rfl⟩
        | ok changes => exact .inr ⟨changes, changes, rfl, rfl, .refl changes⟩
      -- The payload fits, and so do the changes in it.
      · have hfits := (size_lookup_le heq).trans (objectPayload_ok hok).2.size
        have hfits' := (size_lookup_le heq').trans (objectPayload_ok hok').2.size
        rw [heq, heq', Option.getD_some, Option.getD_some]
        rcases changes_same hsame ⟨fun _ => hfits', fun _ => hfits⟩ with herror | ⟨hsome, hsome'⟩
        · exact .inl herror
        · exact .inr ⟨changes, changes', hsome, hsome', hsame⟩
    rw [hok, hok']
    simp only [bind, Except.bind, hid]
    cases deviceId ((Value.lookup "id" members').getD .null) with
    | error e => exact .inl ⟨e, rfl, rfl⟩
    | ok identifier =>
      rcases hrequested with ⟨e, he, he'⟩ | ⟨changes, changes', hsome, hsome', hsame⟩
      · simp only [he, he']
        exact .inl ⟨e, rfl, rfl⟩
      · simp only [hsome, hsome']
        cases backendFor rt identifier with
        | error e => exact .inl ⟨e, rfl, rfl⟩
        | ok u => exact .inr ⟨identifier, changes, changes', rfl, rfl, hsame⟩

end Payloads

/-! ### In a blind environment -/

/-- In every environment that is blind to the credential, two `set_state` requests that differ in
    it alone, and of which both or neither is too large, give the same reply or the same error,
    and so does whatever follows. -/
theorem setState_private {σ ι : Type} {M : Machine netSig σ ι} (hM : M.Blind Secret) (rt : Runtime)
    (table : PrintTable) (providerId : String) {members members' : List (Value × Value)}
    (h : SamePayload members members')
    (hsize : (Value.dict members).size ≤ maxHalJson ↔ (Value.dict members').size ≤ maxHalJson)
    {β : Type} (next : Except PyError (List (Value × Value)) → NetworkProg β)
    (ω : Nat → ι) (s : σ) :
    ((handleSet rt table providerId (.dict members')).attempt >>= next).run M ω s =
      ((handleSet rt table providerId (.dict members)).attempt >>= next).run M ω s := by
  have halike : Alike Secret (handleSet rt table providerId (.dict members))
      (handleSet rt table providerId (.dict members')) := by
    unfold handleSet
    rcases setRequest_same rt h hsize with ⟨e, he, he'⟩ | ⟨identifier, changes, changes',
      hok, hok', hsame⟩
    · rw [he, he']
      exact .refl _
    · rw [hok, hok']
      exact (setState_alike table identifier hsame).bind fun state =>
        .refl (Pure.pure (stateReply providerId state))
  exact (halike.attempt.bind fun result => .refl (next result)).run hM ω s

/-- A supplicant that keeps the first words of the commands it gets. -/
def listener : Machine netSig (List String) Unit where
  exec o _ heard := some (supplicant (.response "OK".toByteArray) o, heard ++ spoken o)
where
  /-- The first word of the command that is sent. -/
  spoken : NetOp → List String
    | .exchange _ command => [verb command]
    | _ => []

theorem verb_pskCommand (n : Nat) (psk : List Char) : verb (pskCommand n psk) = "SET_NETWORK" := by
  have hverb :=
    verb_numbered (show ' ' ∈ "SET_NETWORK ".toList by decide) n (" psk " ++ pskArgument psk)
  rw [← String.append_assoc] at hverb
  exact hverb.trans (by decide)

theorem listener_blind : listener.Blind Secret := by
  rintro _ _ _ ⟨interface, n, hpsk, hpsk'⟩ i heard
  have hother (psk : List Char) {command : String} (hcommand : verb command ≠ "SET_NETWORK") :
      pskCommand n psk ≠ command := fun heq => hcommand (heq ▸ verb_pskCommand n psk)
  simp only [listener, listener.spoken, supplicant, Option.map_some, verb_pskCommand,
    if_neg (hother _ (show verb "ADD_NETWORK" ≠ "SET_NETWORK" by decide)),
    if_neg (hother _ (show verb "LIST_NETWORKS" ≠ "SET_NETWORK" by decide)),
    if_neg (hother _ (show verb "SAVE_CONFIG" ≠ "SET_NETWORK" by decide))]

/-- What connects to a new network. -/
def homeChanges (psk : String) : List (Value × Value) :=
  [(.str "action", .str "connect"), (.str "ssid", .str "Home"), (.str "psk", .str psk)]

/-- The request for it. -/
def homePayload (psk : String) : List (Value × Value) :=
  [(.str "id", .str "network:wlan0"), (.str "changes", .dict (homeChanges psk))]

/-- Two passphrases of different lengths, with a query afterwards. -/
theorem setState_private_home :
    let session (psk : String) := do
      let result ← (handleSet Runtime.sample Python.Text.asciiTable "msys.hal:linux"
        (.dict (homePayload psk))).attempt
      let state ← handleGet Runtime.sample Python.Text.asciiTable "msys.hal:linux"
        (.dict [(.str "id", .str "network:wlan0")])
      return (result, state)
    (session "correct horse").run listener (fun _ => ()) [] =
      (session "password").run listener (fun _ => ()) [] := by
  intro session
  have hsame : SameButPsk (homeChanges "password") (homeChanges "correct horse") := by
    refine .cons ⟨rfl, .inl rfl⟩ (.cons ⟨rfl, .inl rfl⟩ (.cons ⟨rfl, .inr ⟨rfl, ?_, ?_⟩⟩ .nil))
    · exact ⟨"password".toList, rfl⟩
    · exact ⟨"correct horse".toList, rfl⟩
  have hpayload : SamePayload (homePayload "password") (homePayload "correct horse") :=
    .cons ⟨rfl, .inl rfl⟩ (.cons ⟨rfl, .inr ⟨rfl, _, _, rfl, rfl, hsame⟩⟩ .nil)
  exact setState_private listener_blind Runtime.sample Python.Text.asciiTable
    "msys.hal:linux" hpayload
    ⟨fun _ => by decide +kernel, fun _ => by decide +kernel⟩ _ _ _

end MsysHal.Network

namespace MsysHal.Native

open Interleave (Prog Disguise Alike AlikeProc Machine)

/-! ## The native client -/

/-- A credential that is accepted has an argument, which fits a command. -/
theorem pskArgument_fits {psk : Bytes} (h : validPsk psk = true) :
    ∃ argument, pskArgument psk 132 = some argument ∧ argument.length ≤ 128 ∧
      ∀ b ∈ argument, 0x20 ≤ b.toNat := by
  have hascii : ∀ b ∈ psk, b.toNat < 128 := by
    rw [validPsk] at h
    split at h
    · exact fun b hb => isXdigit_lt (List.all_eq_true.mp h b hb)
    · simp only [Bool.and_eq_true, decide_eq_true_eq, List.all_eq_true, UInt8.le_iff_toNat_le] at h
      exact fun b hb => lt_of_le_of_lt (h.2 b hb).2 (by decide)
  -- The passphrase is ASCII, so it is the text of as many characters.
  let text := psk.map fun b => Char.ofNat b.toNat
  have hchar : ∀ b ∈ psk, (Char.ofNat b.toNat).toNat = b.toNat := fun b hb => by
    rw [Char.toNat_ofNat, if_pos (.inl (by have := hascii b hb; omega))]
  have htext : utf8 text = psk := by
    have hsmall : ∀ c ∈ text, c.toNat < 128 := by
      intro c hc
      obtain ⟨b, hb, rfl⟩ := List.mem_map.mp hc
      rw [hchar b hb]
      exact hascii b hb
    rw [utf8_of_ascii hsmall, List.map_map]
    refine (List.map_congr_left fun b hb => ?_).trans (List.map_id psk)
    rw [Function.comp_apply, asciiByte, hchar b hb]
    exact UInt8.ofNat_toNat
  -- The Python client accepts the same text, and its argument is the native one.
  have hvalid := validPsk_eq (String.ofList text)
  rw [String.toList_ofList, htext, h] at hvalid
  cases haccepted : Network.validatePsk (.str (String.ofList text)) with
  | error e => rw [haccepted] at hvalid; cases hvalid
  | ok accepted =>
    have hargument := pskArgument_utf8 haccepted
    have hprintable := pskArgument_printable haccepted
    have hsmall : ∀ c ∈ (Network.pskArgument accepted).toList, c.toNat < 128 := fun c hc => by
      have := (hprintable c hc).2
      omega
    rw [String.toList_ofList, htext] at hargument
    refine ⟨_, hargument, ?_, fun b hb => ?_⟩
    · rw [utf8_of_ascii hsmall, List.length_map, String.length_toList]
      exact Network.Accepted.argument_length ⟨_, haccepted⟩
    · rw [utf8_of_ascii hsmall] at hb
      obtain ⟨c, hc, rfl⟩ := List.mem_map.mp hb
      rw [toNat_asciiByte (hsmall c hc)]
      exact (hprintable c hc).1

/-- The command that sets a credential. -/
def pskCommand (n : Int) (argument : Bytes) : Bytes := ascii s!"SET_NETWORK {n} psk " ++ argument

theorem commandFits_pskCommand {n : Nat} (hn : n ≤ 4095) {argument : Bytes}
    (hlength : argument.length ≤ 128) (hargument : ∀ b ∈ argument, 0x20 ≤ b.toNat) :
    commandFits (pskCommand n argument) = true := by
  have hnumbered : commandFits (ascii ("SET_NETWORK " ++ toString (n : Int))) = true :=
    commandFits_numbered (by decide) (by decide) hn
  -- A number of at most four digits stands in front of the argument.
  have hdigits : (ascii (toString (n : Int))).length ≤ 4 := by
    rw [ascii, List.length_map,
      show (toString (n : Int)).toList = Nat.toDigits 10 n from Nat.toList_repr]
    exact (Nat.length_toDigits_le_iff (by decide) (by decide)).mpr (by omega)
  have hsplit : pskCommand n argument =
      ascii ("SET_NETWORK " ++ toString (n : Int)) ++ (ascii " psk " ++ argument) := by
    rw [← List.append_assoc, ← ascii_append]
    rfl
  -- A control character would have to come from the number.
  have hclean (b : UInt8) (hb : b.toNat < 0x20)
      (hstart : b ∉ ascii ("SET_NETWORK " ++ toString (n : Int))) :
      (pskCommand n argument).contains b = false := by
    rw [hsplit, List.contains_eq_mem, decide_eq_false_iff_not, List.mem_append, List.mem_append]
    rintro (hmem | hmem | hmem)
    · exact hstart hmem
    · have hletters : ascii " psk " = [0x20, 0x70, 0x73, 0x6b, 0x20] := rfl
      have hlow : ∀ b ∈ ([0x20, 0x70, 0x73, 0x6b, 0x20] : Bytes), 0x20 ≤ b.toNat := by
        simp [UInt8.toNat_ofNat]
      have := hlow b (hletters ▸ hmem)
      omega
    · have := hargument b hmem
      omega
  rw [commandFits, Bool.and_eq_true, Bool.and_eq_true, Bool.and_eq_true] at hnumbered ⊢
  obtain ⟨⟨⟨hne, -⟩, hnl⟩, hcr⟩ := hnumbered
  refine ⟨⟨⟨?_, ?_⟩, ?_⟩, ?_⟩
  · have hpos : ascii ("SET_NETWORK " ++ toString (n : Int)) ≠ [] := by simpa using hne
    rw [hsplit, Bool.not_eq_true', List.isEmpty_eq_false_iff]
    exact List.append_ne_nil_of_left_ne_nil hpos _
  -- 12 + 4 + 5 + 128 bytes stay below the capacity.
  · rw [hsplit, ascii_append, List.length_append, List.length_append, List.length_append,
      decide_eq_true_eq, wpaCommandCapacity]
    have hstart : (ascii "SET_NETWORK ").length = 12 := rfl
    have hmiddle : (ascii " psk ").length = 5 := rfl
    omega
  · rw [hclean 0x0a (by decide) (by simpa using hnl)]
    rfl
  · rw [hclean 0x0d (by decide) (by simpa using hcr)]
    rfl

/-- The commands that set a credential, one in place of another. -/
inductive Secret : Disguise wifiSig
  | psk (interface : String) (n : Int) {psk psk' argument argument' : Bytes} :
      pskArgument psk 132 = some argument → pskArgument psk' 132 = some argument' →
      Secret (.exchange interface (pskCommand n argument))
        (.exchange interface (pskCommand n argument')) fun r => r

/-- A credential in place of another, or the same. -/
inductive SameCredential : Credential → Credential → Prop
  | same (credential : Credential) : SameCredential credential credential
  | psk {psk psk' : Bytes} : validPsk psk = true → validPsk psk' = true →
      SameCredential (.psk psk) (.psk psk')

theorem SameCredential.omitted {credential credential' : Credential}
    (h : SameCredential credential credential') :
    credential = .omitted ↔ credential' = .omitted := by
  cases h with
  | same => exact Iff.rfl
  | psk => exact ⟨nofun, nofun⟩

theorem wpaRequest_eq {interface : String} {command : Bytes} {capacity : Nat}
    (h : commandFits command = true) : wpaRequest interface command capacity =
      wifiCall (.exchange interface command) >>= fun r =>
        pure (Option.bind r (wpaResponse capacity)) := by
  rw [wpaRequest, if_neg (by simp [h])]
  congr 1
  funext r
  cases r <;> rfl

theorem protectNetwork_alike (interface : String) {n : Nat} (hn : n ≤ 4095)
    {credential credential' : Credential} (h : SameCredential credential credential') :
    AlikeProc Secret (protectNetwork interface n credential)
      (protectNetwork interface n credential') := by
  cases h with
  | same => exact .refl _
  | psk h h' =>
    obtain ⟨argument, hargument, hlength, hlow⟩ := pskArgument_fits h
    obtain ⟨argument', hargument', hlength', hlow'⟩ := pskArgument_fits h'
    unfold protectNetwork
    rw [credentialCommand, credentialCommand, hargument, hargument', Option.map_some,
      Option.map_some]
    refine AlikeProc.bind (AlikeProc.bind ?_ fun _ => .refl _) fun ok => .refl _
    have hfits : commandFits (ascii s!"SET_NETWORK {(n : Int)} psk " ++ argument) = true :=
      commandFits_pskCommand hn hlength hlow
    have hfits' : commandFits (ascii s!"SET_NETWORK {(n : Int)} psk " ++ argument') = true :=
      commandFits_pskCommand hn hlength' hlow'
    rw [wpaRequest_eq hfits, wpaRequest_eq hfits']
    exact AlikeProc.ask_bind (.psk interface n hargument hargument') fun r =>
      .refl (pure (Option.bind r (wpaResponse 32)))

theorem connectNew_alike (interface : String) (ssid : Bytes) {credential credential' : Credential}
    (h : SameCredential credential credential') :
    AlikeProc Secret (connectNew interface ssid credential)
      (connectNew interface ssid credential') := by
  unfold connectNew
  refine AlikeProc.bind (.refl _) fun response => ?_
  cases hid : response.bind fun text => parseDecimal text 0 4095 with
  | none => exact .refl _
  | some n =>
    obtain ⟨text, -, htext⟩ := Option.bind_eq_some_iff.mp hid
    obtain ⟨hlow, hhigh⟩ := parseDecimal_bounds htext
    obtain ⟨k, rfl⟩ := Int.eq_ofNat_of_zero_le hlow
    refine AlikeProc.bind (.refl _) fun ok => ?_
    cases ok with
    | true => exact protectNetwork_alike interface (by omega) h
    | false => exact .refl _

/-- The same changes, but for the credential, which is valid in both. -/
def SameButPsk (changes changes' : List (Bytes × JsonToken)) : Prop :=
  List.Forall₂ (fun m m' => m.1 = m'.1 ∧ (m.2 = m'.2 ∨ m.1 = ascii "psk" ∧
    (∃ psk, copyString m.2 65 = some psk ∧ validPsk psk = true) ∧
    ∃ psk', copyString m'.2 65 = some psk' ∧ validPsk psk' = true)) changes changes'

section Changes

variable {changes changes' : List (Bytes × JsonToken)}

theorem SameButPsk.keys (h : SameButPsk changes changes') :
    changes.map Prod.fst = changes'.map Prod.fst := by
  induction h with
  | nil => rfl
  | cons hm _ ih => rw [List.map_cons, List.map_cons, hm.1, ih]

theorem SameButPsk.length (h : SameButPsk changes changes') : changes.length = changes'.length :=
  List.Forall₂.length_eq h

theorem SameButPsk.validateFields (h : SameButPsk changes changes') (allowed : List String) :
    objectValidateFields changes allowed = objectValidateFields changes' allowed := by
  have hall : ∀ members : List (Bytes × JsonToken),
      members.all (fun m => (allowed.map ascii).contains m.1) =
        (members.map Prod.fst).all fun key => (allowed.map ascii).contains key := fun members => by
    rw [List.all_map]
    rfl
  unfold objectValidateFields
  rw [hall, hall, h.keys]

theorem SameButPsk.filter (h : SameButPsk changes changes') (key : String) :
    SameButPsk (changes.filter fun m => m.1 == ascii key)
      (changes'.filter fun m => m.1 == ascii key) := by
  induction h with
  | nil => exact .nil
  | @cons m m' _ _ hm _ ih =>
    rw [List.filter_cons, List.filter_cons, ← hm.1]
    split
    · exact .cons hm ih
    · exact ih

/-- A field is the same, or it is the credential, which is valid in both. -/
theorem SameButPsk.field (h : SameButPsk changes changes') (key : String) :
    objectField changes key = objectField changes' key ∨ ascii key = ascii "psk" ∧
      ∃ token token' psk psk', objectField changes key = some token ∧
        objectField changes' key = some token' ∧ copyString token 65 = some psk ∧
        copyString token' 65 = some psk' ∧ validPsk psk = true ∧ validPsk psk' = true := by
  have hfilter := h.filter key
  have hkey : ∀ m ∈ changes.filter fun m => m.1 == ascii key, m.1 = ascii key := fun m hm =>
    beq_iff_eq.mp (List.mem_filter.mp hm).2
  unfold objectField
  generalize changes.filter (fun m => m.1 == ascii key) = members at hfilter hkey ⊢
  generalize changes'.filter (fun m => m.1 == ascii key) = members' at hfilter ⊢
  cases hfilter with
  | nil => exact .inl rfl
  | @cons m m' rest rest' hm hrest =>
    cases hrest with
    | cons => exact .inl rfl
    | nil =>
      obtain ⟨-, hvalue | ⟨hpsk, ⟨psk, hcopy, hvalid⟩, psk', hcopy', hvalid'⟩⟩ := hm
      · exact .inl (congrArg some hvalue)
      · refine .inr ⟨?_, m.2, m'.2, psk, psk', rfl, rfl, hcopy, hcopy', hvalid, hvalid'⟩
        rw [← hpsk]
        exact (hkey m (List.mem_singleton_self m)).symm

theorem SameButPsk.other (h : SameButPsk changes changes') {key : String}
    (hkey : ascii key ≠ ascii "psk") : objectField changes key = objectField changes' key :=
  (h.field key).resolve_right fun hpsk => hkey hpsk.1

theorem connectRequest_same (h : SameButPsk changes changes') :
    connectRequest changes = none ∧ connectRequest changes' = none ∨
      ∃ ssid credential credential', connectRequest changes = some (ssid, credential) ∧
        connectRequest changes' = some (ssid, credential') ∧
          SameCredential credential credential' := by
  have hsame : connectRequest changes = connectRequest changes' →
      connectRequest changes = none ∧ connectRequest changes' = none ∨
        ∃ ssid credential credential', connectRequest changes = some (ssid, credential) ∧
          connectRequest changes' = some (ssid, credential') ∧
            SameCredential credential credential' := by
    intro heq
    rw [heq]
    cases connectRequest changes' with
    | none => exact .inl ⟨rfl, rfl⟩
    | some x => exact .inr ⟨x.1, x.2, x.2, rfl, rfl, .same _⟩
  rcases h.field "psk" with hpsk | ⟨-, token, token', psk, psk', hpsk, hpsk', hcopy, hcopy',
    hvalid, hvalid'⟩
  -- The psk is the same in both.
  · refine hsame ?_
    unfold connectRequest
    rw [h.other (by decide), h.length, hpsk,
      h.other (show ascii "security" ≠ ascii "psk" by decide)]
  -- The psk differs; it is looked at only in a request with an SSID and no security.
  · unfold connectRequest
    rw [h.other (show ascii "ssid" ≠ ascii "psk" by decide), h.length, hpsk, hpsk',
      h.other (show ascii "security" ≠ ascii "psk" by decide)]
    cases (objectField changes' "ssid").bind fun token => copyUtf8String token 129 32 with
    | none => exact .inl ⟨rfl, rfl⟩
    | some ssid =>
      simp only [Option.bind_eq_bind, Option.bind_some]
      split_ifs
      · exact .inl ⟨rfl, rfl⟩
      · cases objectField changes' "security" with
        | some security => exact .inl ⟨rfl, rfl⟩
        | none =>
          refine .inr ⟨ssid, .psk psk, .psk psk', ?_, ?_, .psk hvalid hvalid'⟩
          · simp only [hcopy, Option.bind_some, hvalid, if_true]
          · simp only [hcopy', Option.bind_some, hvalid', if_true]

theorem connect_alike (interface : String) (h : SameButPsk changes changes') :
    AlikeProc Secret (connect interface changes) (connect interface changes') := by
  unfold connect
  rcases connectRequest_same h with ⟨hnone, hnone'⟩ | ⟨ssid, credential, credential', hsome,
    hsome', hsame⟩
  · rw [hnone, hnone']
    exact .refl _
  · rw [hsome, hsome']
    refine AlikeProc.bind (.refl (configuredNetworkId interface ssid)) fun found => ?_
    cases found with
    | none => exact .refl _
    | some found =>
      simp only [hsame.omitted]
      split_ifs
      · exact .refl _
      · exact .refl _
      · exact .refl _
      · exact .refl _
      · exact connectNew_alike interface ssid hsame

/-- Two requests that differ in the credential alone. -/
theorem wifiSetState_alike (name : String) (h : SameButPsk changes changes') :
    AlikeProc Secret (wifiSetState name changes) (wifiSetState name changes') := by
  unfold wifiSetState
  refine AlikeProc.bind (.refl (wifiCall .scan)) fun devices => ?_
  cases findWifiDevice devices name with
  | none => exact .refl _
  | some device =>
    dsimp only
    split_ifs
    · exact .refl _
    · refine AlikeProc.bind ?_ fun result => .refl _
      have haction : requestedAction device changes = requestedAction device changes' := by
        unfold requestedAction
        rw [h.validateFields, h.other (by decide)]
      unfold wifiAction
      rw [haction]
      cases requestedAction device changes' with
      | none => exact .refl _
      | some action =>
        dsimp only
        split_ifs
        · unfold trigger
          rw [h.length]
          exact .refl _
        · unfold trigger
          rw [h.length]
          exact .refl _
        · unfold forget forgetRequest
          rw [h.length, h.other (by decide)]
          exact .refl _
        · exact connect_alike device.name h
        · exact .refl _

/-- In every environment that is blind to the credential, two `set_state` requests that differ in
    it alone give the same state or the same refusal, and so does whatever follows. -/
theorem wifiSetState_private {σ ι : Type} {M : Machine wifiSig σ ι} (hM : M.Blind Secret)
    (name : String) (h : SameButPsk changes changes') {β : Type}
    (next : Except Refusal WifiState → WifiM β) (revision : UInt64) (ω : Nat → ι) (s : σ) :
    Prog.run M ((wifiSetState name changes' >>= next) revision) ω s =
      Prog.run M ((wifiSetState name changes >>= next) revision) ω s :=
  ((wifiSetState_alike name h).bind fun result => .refl (next result)) revision |>.run hM ω s

end Changes

/-- A supplicant with a Wi-Fi interface that keeps the first words of the commands it gets. -/
def listener : Machine wifiSig (List Bytes) Unit where
  exec o _ heard := some (answer o, heard ++ spoken o)
where
  /-- The answers of a supplicant, for the interface `wlan0`. -/
  answer : (o : WifiOp) → o.Ret
    | .scan => [⟨"wlan0", true, true, true⟩]
    | o => supplicant o
  /-- The first word of the command that is sent. -/
  spoken : WifiOp → List Bytes
    | .exchange _ command => [firstWord command]
    | _ => []

theorem firstWord_pskCommand (n : Int) (argument : Bytes) :
    firstWord (pskCommand n argument) = ascii "SET_NETWORK" := by
  have hsplit : pskCommand n argument =
      ascii "SET_NETWORK " ++ (ascii (toString n ++ " psk ") ++ argument) := by
    rw [← List.append_assoc, ← ascii_append, ← String.append_assoc]
    rfl
  rw [hsplit, firstWord_append (by decide)]
  decide

theorem listener_blind : listener.Blind Secret := by
  rintro _ _ _ ⟨interface, n, hpsk, hpsk'⟩ i heard
  have hother (argument : Bytes) {command : Bytes}
      (hcommand : firstWord command ≠ ascii "SET_NETWORK") :
      pskCommand n argument ≠ command := fun heq => hcommand (heq ▸ firstWord_pskCommand n argument)
  simp only [listener, listener.answer, listener.spoken, supplicant, Option.map_some,
    firstWord_pskCommand,
    if_neg (hother _ (show firstWord (ascii "ADD_NETWORK") ≠ ascii "SET_NETWORK" by decide)),
    if_neg (hother _ (show firstWord (ascii "LIST_NETWORKS") ≠ ascii "SET_NETWORK" by decide))]

/-- What connects to a new network. -/
def homeChanges (psk : String) : List (Bytes × JsonToken) :=
  [(ascii "action", .string (ascii "connect")), (ascii "ssid", .string (ascii "Home")),
    (ascii "psk", .string (ascii psk))]

/-- Two passphrases of different lengths, with a query afterwards. -/
theorem wifiSetState_private_home :
    let session (psk : String) : WifiM (Except Refusal WifiState × Except Refusal WifiState) := do
      let result ← wifiSetState "wlan0" (homeChanges psk)
      let state ← wifiGetState "wlan0"
      return (result, state)
    Prog.run listener (session "correct horse" 0) (fun _ => ()) [] =
      Prog.run listener (session "password" 0) (fun _ => ()) [] := by
  intro session
  have hsame : SameButPsk (homeChanges "password") (homeChanges "correct horse") := by
    refine .cons ⟨rfl, .inl rfl⟩ (.cons ⟨rfl, .inl rfl⟩ (.cons ⟨rfl, .inr ⟨rfl, ?_, ?_⟩⟩ .nil))
    · exact ⟨ascii "password", by decide, by decide⟩
    · exact ⟨ascii "correct horse", by decide, by decide⟩
  exact wifiSetState_private listener_blind "wlan0" hsame _ _ _ _

end MsysHal.Native
