import MsysHal.ForStd.Stateful
import MsysHal.Native.Wifi
import MsysHal.Spec.NewNetwork

/-!
# A new network of the native client

The native action adds, sets up and saves a new network with the same commands. Every
failure after the id has been read goes through one cleanup, which removes the network.

## Key results

- `wpaRequest_does`, `wpaOk_does`: a command and its answer
- `connectNew_does`: how the steps after the id end
- `wifiAction_tidy`: the native action is tidy in every run
-/

namespace MsysHal

namespace Native

open Interleave (Log Does does_pure does_bind does_ask_bind)

/-- A step of a Wi-Fi request with its answer. -/
abbrev WifiStep : Type := (o : WifiOp) × o.Ret

/-- The steps of the native client. -/
def wifiDialogue : Dialogue WifiStep where
  adds n x := ∃ i r text, x = ⟨.exchange i (ascii "ADD_NETWORK"), r⟩ ∧
    r.bind (wpaResponse 32) = some text ∧ parseDecimal text 0 4095 = some (n : Int)
  mentions n x := ∃ i c r, x = ⟨.exchange i c, r⟩ ∧ ascii (toString n) ∈ c.splitOn 0x20
  removes n x := ∃ i r, x = ⟨.exchange i (ascii s!"REMOVE_NETWORK {n}"), r⟩
  saves x := ∃ i r, x = ⟨.exchange i (ascii "SAVE_CONFIG"), r⟩ ∧
    r.bind (wpaResponse 32) = some (ascii "OK")

/-! ## Native commands -/

theorem ascii_append (start rest : String) : ascii (start ++ rest) = ascii start ++ ascii rest := by
  rw [ascii, String.toList_append, List.map_append, ascii, ascii]

/-- The first word of a command. -/
def firstWord (command : Bytes) : Bytes := command.takeWhile (· ≠ 0x20)

theorem firstWord_append {start : Bytes} (h : 0x20 ∈ start) (rest : Bytes) :
    firstWord (start ++ rest) = firstWord start := by
  rw [firstWord, firstWord, List.takeWhile_append, if_neg]
  intro hlength
  have hall := List.takeWhile_eq_self_iff.mp
    ((List.takeWhile_prefix (p := fun b : UInt8 => decide (b ≠ 0x20))).sublist.eq_of_length hlength)
  exact absurd (hall 0x20 h) (by simp)

private theorem digit_byte {n : Nat} {b : UInt8}
    (h : b ∈ (Nat.toDigits 10 n).map fun c => c.toNat.toUInt8) : 0x30 ≤ b := by
  obtain ⟨c, hc, rfl⟩ := List.mem_map.mp h
  have hdigit := Nat.isDigit_of_mem_toDigits (by decide) (by decide) hc
  rw [Char.isDigit, Bool.and_eq_true, decide_eq_true_eq, decide_eq_true_eq] at hdigit
  have hlow : 48 ≤ c.toNat := hdigit.1
  have hhigh : c.toNat ≤ 57 := hdigit.2
  rw [UInt8.le_iff_toNat_le, Nat.toUInt8_eq, UInt8.toNat_ofNat']
  have : (0x30 : UInt8).toNat = 48 := rfl
  omega

/-- A command that ends with a network id can be sent. -/
theorem commandFits_numbered {start : String} (hstart : commandFits (ascii start) = true)
    (hlength : (ascii start).length ≤ 100) {n : Nat} (hn : n ≤ 4095) :
    commandFits (ascii (start ++ toString (n : Int))) = true := by
  have hdigits : (toString (n : Int)).toList = Nat.toDigits 10 n := Nat.toList_repr
  have hfour : (Nat.toDigits 10 n).length ≤ 4 :=
    (Nat.length_toDigits_le_iff (by decide) (by decide)).mpr (by omega)
  have hnumber : ascii (toString (n : Int)) = (Nat.toDigits 10 n).map fun c => c.toNat.toUInt8 := by
    rw [ascii, hdigits]
  have hclean (b : UInt8) (hb : b < 0x30) (hmem : b ∉ ascii start) :
      (ascii start ++ ascii (toString (n : Int))).contains b = false := by
    rw [List.contains_eq_mem, decide_eq_false_iff_not, List.mem_append, not_or, hnumber]
    exact ⟨hmem, fun h => absurd (digit_byte h) (UInt8.not_le.mpr hb)⟩
  rw [commandFits, Bool.and_eq_true, Bool.and_eq_true, Bool.and_eq_true] at hstart ⊢
  obtain ⟨⟨⟨hne, -⟩, hnl⟩, hcr⟩ := hstart
  rw [ascii_append]
  refine ⟨⟨⟨?_, ?_⟩, ?_⟩, ?_⟩
  · have hpos : ascii start ≠ [] := by simpa using hne
    simp [hpos]
  · rw [List.length_append, hnumber, List.length_map, decide_eq_true_eq, wpaCommandCapacity]
    omega
  · rw [hclean 0x0a (by decide) (by simpa using hnl)]
    rfl
  · rw [hclean 0x0d (by decide) (by simpa using hcr)]
    rfl

/-! ## Native runs -/

section Runs

variable {g g' : UInt64} {log : Log wifiSig}

/-- A request is one exchange, where the command can be sent. -/
theorem wpaRequest_does {interface : String} {command : Bytes} {capacity : Nat}
    {response : Option Bytes} (h : Does (wpaRequest interface command capacity) g log response g') :
    g' = g ∧ (commandFits command = false ∧ log = [] ∧ response = none ∨
      ∃ r, log = [⟨.exchange interface command, r⟩] ∧ response =
        r.bind (wpaResponse capacity)) := by
  rw [wpaRequest] at h
  split at h
  · next hfits =>
    obtain ⟨rfl, rfl, rfl⟩ := does_pure.mp h
    exact ⟨rfl, .inl ⟨by simpa using hfits, rfl, rfl⟩⟩
  · obtain ⟨r, log', rfl, hrest⟩ := does_ask_bind.mp h
    cases r with
    | none =>
      obtain ⟨rfl, rfl, rfl⟩ := does_pure.mp hrest
      exact ⟨rfl, .inr ⟨none, rfl, rfl⟩⟩
    | some datagram =>
      obtain ⟨rfl, rfl, rfl⟩ := does_pure.mp hrest
      exact ⟨rfl, .inr ⟨some datagram, rfl, rfl⟩⟩

theorem wpaOk_does {interface : String} {command : Bytes} {ok : Bool}
    (h : Does (wpaOk interface command) g log ok g') :
    g' = g ∧ (commandFits command = false ∧ log = [] ∧ ok = false ∨
      ∃ r, log = [⟨.exchange interface command, r⟩] ∧
        ok = (r.bind (wpaResponse 32) == some (ascii "OK"))) := by
  obtain ⟨response, g₁, log₁, log₂, rfl, hrequest, hpure⟩ := does_bind.mp h
  obtain ⟨rfl, rfl, rfl⟩ := does_pure.mp hpure
  obtain ⟨rfl, hcase⟩ := wpaRequest_does hrequest
  rw [List.append_nil]
  rcases hcase with ⟨hfits, rfl, rfl⟩ | ⟨r, rfl, rfl⟩
  · exact ⟨rfl, .inl ⟨hfits, rfl, rfl⟩⟩
  · exact ⟨rfl, .inr ⟨r, rfl, rfl⟩⟩

/-- Every step is an exchange whose command starts with one of the words. -/
def Speaks (words : List Bytes) (log : Log wifiSig) : Prop :=
  ∀ x ∈ log, ∃ i c r, x = (⟨.exchange i c, r⟩ : WifiStep) ∧ firstWord c ∈ words

theorem Speaks.nil (words : List Bytes) : Speaks words [] := fun _ hx => nomatch hx

theorem Speaks.append {words : List Bytes} {log log' : Log wifiSig} (h : Speaks words log)
    (h' : Speaks words log') : Speaks words (log ++ log') := fun x hx =>
  (List.mem_append.mp hx).elim (h x) (h' x)

theorem Speaks.mono {words words' : List Bytes} (h : Speaks words log)
    (hsub : ∀ w ∈ words, w ∈ words') : Speaks words' log := fun x hx =>
  let ⟨i, c, r, heq, hmem⟩ := h x hx
  ⟨i, c, r, heq, hsub _ hmem⟩

theorem wpaRequest_speaks {interface : String} {command word : Bytes} {capacity : Nat}
    {response : Option Bytes} (h : Does (wpaRequest interface command capacity) g log response g')
    (hword : firstWord command = word) : Speaks [word] log := by
  rcases (wpaRequest_does h).2 with ⟨-, rfl, -⟩ | ⟨r, rfl, -⟩
  · exact .nil _
  · intro x hx
    exact ⟨interface, command, r, List.mem_singleton.mp hx, by simp [hword]⟩

theorem wpaOk_speaks {interface : String} {command w : Bytes} {ok : Bool}
    (h : Does (wpaOk interface command) g log ok g') (hword : firstWord command = w) :
    Speaks [w] log := by
  rcases (wpaOk_does h).2 with ⟨-, rfl, -⟩ | ⟨r, rfl, -⟩
  · exact .nil _
  · intro x hx
    exact ⟨interface, command, r, List.mem_singleton.mp hx, by simp [hword]⟩

end Runs

/-! ## A new network -/

/-- The first words of the commands that set a network up. -/
def setUpWords : List Bytes := [ascii "SET_NETWORK", ascii "ENABLE_NETWORK", ascii "SELECT_NETWORK"]

/-- How `connectNew` goes on once the network is added. -/
inductive WifiEnding (interface : String) (n : Nat) :
    Log wifiSig → Except Refusal (Option Bool) → Prop where
  | removed {before : Log wifiSig} {r : Option Bytes} (h : Speaks setUpWords before) :
    WifiEnding interface n
      (before ++ [⟨.exchange interface (ascii s!"REMOVE_NETWORK {n}"), r⟩]) (.error .internal)
  | done {before last : Log wifiSig} {persisted : Option Bool} (h : Speaks setUpWords before)
    (hlast : Speaks [ascii "SAVE_CONFIG"] last) :
    WifiEnding interface n (before ++ last) (.ok persisted)

theorem WifiEnding.after {interface : String} {n : Nat} {first log : Log wifiSig}
    {result : Except Refusal (Option Bool)} (hfirst : Speaks setUpWords first)
    (h : WifiEnding interface n log result) : WifiEnding interface n (first ++ log) result := by
  cases h with
  | removed hbefore =>
    rw [← List.append_assoc]
    exact .removed (hfirst.append hbefore)
  | done hbefore hlast =>
    rw [← List.append_assoc]
    exact .done (hfirst.append hbefore) hlast

section Endings

variable {g g' : UInt64} {log : Log wifiSig} {interface : String} {n : Nat}
  {result : Except Refusal (Option Bool)}

theorem cleanupNetwork_ending (hn : n ≤ 4095)
    (h : Does (cleanupNetwork interface n) g log result g') :
    WifiEnding interface n log result := by
  obtain ⟨ok, g₁, log₁, log₂, rfl, hremove, hpure⟩ := does_bind.mp h
  obtain ⟨rfl, rfl, rfl⟩ := does_pure.mp hpure
  have hfits : commandFits (ascii ("REMOVE_NETWORK " ++ toString (n : Int))) = true :=
    commandFits_numbered (by decide) (by decide) hn
  rcases (wpaOk_does hremove).2 with ⟨hbad, -, -⟩ | ⟨r, rfl, -⟩
  · rw [show ascii s!"REMOVE_NETWORK {(n : Int)}" = ascii
      ("REMOVE_NETWORK " ++ toString (n : Int)) from rfl, hfits] at hbad
    exact nomatch hbad
  · exact .removed (.nil _ : Speaks setUpWords [])

/-- One command of the set-up: the removal follows where it is not answered with OK. -/
private theorem step_ending {command word : Bytes} (hword : firstWord command = word)
    (hmem : word ∈ setUpWords) (hn : n ≤ 4095) {next : WifiM (Except Refusal (Option Bool))}
    (hnext : ∀ {g log result g'}, Does next g log result g' → WifiEnding interface n log result)
    (h : Does (wpaOk interface command >>= fun ok =>
      if ok = true then next else cleanupNetwork interface n) g log result g') :
    WifiEnding interface n log result := by
  obtain ⟨ok, g₁, log₁, log₂, rfl, hok, hrest⟩ := does_bind.mp h
  have hfirst : Speaks setUpWords log₁ := (wpaOk_speaks hok hword).mono fun w hw =>
    List.mem_singleton.mp hw ▸ hmem
  refine WifiEnding.after hfirst ?_
  split at hrest
  · exact hnext hrest
  · exact cleanupNetwork_ending hn hrest

private theorem word_about {start : String} {word : Bytes} (hspace : 0x20 ∈ ascii start)
    (hword : firstWord (ascii start) = word) (n : Int) (rest : String) :
    firstWord (ascii (start ++ toString n ++ rest)) = word := by
  rw [String.append_assoc, ascii_append, firstWord_append hspace, hword]

private theorem word_numbered {start : String} {word : Bytes} (hspace : 0x20 ∈ ascii start)
    (hword : firstWord (ascii start) = word) (n : Int) :
    firstWord (ascii (start ++ toString n)) = word := by
  rw [ascii_append, firstWord_append hspace, hword]

private theorem word_credential {credential : Credential} {command : Bytes}
    (h : credentialCommand n credential = some command) :
    firstWord command = ascii "SET_NETWORK" := by
  cases credential with
  | psk psk =>
    obtain ⟨argument, -, rfl⟩ := Option.map_eq_some_iff.mp h
    change firstWord (ascii ("SET_NETWORK " ++ toString (n : Int) ++ " psk ") ++ argument) = _
    rw [firstWord_append]
    · exact word_about (by decide) (by decide) _ _
    · rw [ascii_append, ascii_append]
      exact List.mem_append_right _ (by decide)
  | _ =>
    cases h
    exact word_about (by decide) (by decide) _ _

theorem protectNetwork_ending {credential : Credential} (hn : n ≤ 4095)
    (h : Does (protectNetwork interface n credential) g log result g') :
    WifiEnding interface n log result := by
  rw [protectNetwork] at h
  cases hcommand : credentialCommand n credential with
  | none =>
    rw [hcommand] at h
    exact cleanupNetwork_ending hn h
  | some command =>
    rw [hcommand] at h
    refine step_ending (word_credential hcommand) (by decide) hn (fun henable => ?_) h
    have henableWord : firstWord (ascii s!"ENABLE_NETWORK {(n : Int)}") = ascii "ENABLE_NETWORK" :=
      word_numbered (by decide) (by decide) n
    have hselectWord : firstWord (ascii s!"SELECT_NETWORK {(n : Int)}") = ascii "SELECT_NETWORK" :=
      word_numbered (by decide) (by decide) n
    refine step_ending henableWord (by decide) hn (fun hselect => ?_) henable
    refine step_ending hselectWord (by decide) hn (fun hsave => ?_) hselect
    obtain ⟨saved, g₁, log₁, log₂, rfl, hok, hpure⟩ := does_bind.mp hsave
    obtain ⟨rfl, rfl, rfl⟩ := does_pure.mp hpure
    rw [List.append_nil]
    exact .done (.nil _ : Speaks setUpWords []) (wpaOk_speaks hok (by decide))

theorem parseDecimal_bounds {text : Bytes} {minimum maximum m : Int}
    (h : parseDecimal text minimum maximum = some m) : minimum ≤ m ∧ m ≤ maximum := by
  rw [parseDecimal] at h
  split at h
  · exact nomatch h
  · have hbound := (Option.filter_eq_some_iff.mp h).2
    rwa [Bool.and_eq_true, decide_eq_true_eq, decide_eq_true_eq] at hbound

theorem connectNew_does {ssid : Bytes} {credential : Credential}
    (h : Does (connectNew interface ssid credential) g log result g') :
    (∃ r text rest, ∃ m : Nat, log = ⟨.exchange interface (ascii "ADD_NETWORK"), r⟩ :: rest ∧
      r.bind (wpaResponse 32) = some text ∧ parseDecimal text 0 4095 = some (m : Int) ∧
      WifiEnding interface m rest result) ∨
    ∀ m, ¬ ∃ x ∈ log, wifiDialogue.adds m x := by
  obtain ⟨response, g₁, log₁, log₂, rfl, hadd, hrest⟩ := does_bind.mp h
  obtain ⟨rfl, hcase⟩ := wpaRequest_does hadd
  rcases hcase with ⟨hfits, -, -⟩ | ⟨r, rfl, rfl⟩
  · exact absurd hfits (by decide)
  · cases hid : (r.bind (wpaResponse 32)).bind fun text => parseDecimal text 0 4095 with
    -- The answer is no number, so nothing was added.
    | none =>
      rw [hid] at hrest
      obtain ⟨rfl, rfl, rfl⟩ := does_pure.mp hrest
      refine .inr fun m hadds => ?_
      obtain ⟨x, hx, i, r', text, heq, htext, hm⟩ := hadds
      rw [List.append_nil, List.mem_singleton] at hx
      rw [hx] at heq
      cases heq
      rw [htext, Option.bind_some, hm] at hid
      exact nomatch hid
    | some k =>
      rw [hid] at hrest
      obtain ⟨text, htext, hk⟩ := Option.bind_eq_some_iff.mp hid
      obtain ⟨hlow, hhigh⟩ := parseDecimal_bounds hk
      obtain ⟨m, rfl⟩ := Int.eq_ofNat_of_zero_le hlow
      refine .inl ⟨r, text, log₂, m, rfl, htext, hk, ?_⟩
      have hm : m ≤ 4095 := by omega
      -- What follows are commands of the network that was added.
      have hword : firstWord (ascii s!"SET_NETWORK {(m : Int)} ssid " ++ ssidHex ssid) =
          ascii "SET_NETWORK" := by
        rw [firstWord_append]
        · exact word_about (by decide) (by decide) _ _
        · change 0x20 ∈ ascii ("SET_NETWORK " ++ toString (m : Int) ++ " ssid ")
          rw [ascii_append, ascii_append]
          exact List.mem_append_right _ (by decide)
      exact step_ending hword (by decide) hm (protectNetwork_ending hm) hrest

end Endings

/-! ## Tidiness of the native action -/

private theorem Speaks.not_adds {words : List Bytes} {log : Log wifiSig} (h : Speaks words log)
    (hwords : ascii "ADD_NETWORK" ∉ words) (n : Nat) : ¬ ∃ x ∈ log, wifiDialogue.adds n x := by
  rintro ⟨x, hx, i, r, text, rfl, -⟩
  obtain ⟨i', c, r', heq, hmem⟩ := h _ hx
  cases heq
  exact hwords
    (by rwa [show firstWord (ascii "ADD_NETWORK") = ascii "ADD_NETWORK" by decide] at hmem)

private theorem Speaks.not_saves {words : List Bytes} {log : Log wifiSig} (h : Speaks words log)
    (hwords : ascii "SAVE_CONFIG" ∉ words) : ∀ x ∈ log, ¬ wifiDialogue.saves x := by
  rintro x hx ⟨i, r, rfl, -⟩
  obtain ⟨i', c, r', heq, hmem⟩ := h _ hx
  cases heq
  exact hwords
    (by rwa [show firstWord (ascii "SAVE_CONFIG") = ascii "SAVE_CONFIG" by decide] at hmem)

private theorem word_remove (n : Int) :
    firstWord (ascii s!"REMOVE_NETWORK {n}") = ascii "REMOVE_NETWORK" :=
  word_numbered (by decide) (by decide) n

private theorem Speaks.not_removes {words : List Bytes} {log : Log wifiSig} (h : Speaks words log)
    (hwords : ascii "REMOVE_NETWORK" ∉ words) (n : Nat) : ∀ x ∈ log,
    ¬ wifiDialogue.removes n x := by
  rintro x hx ⟨i, r, rfl⟩
  obtain ⟨i', c, r', heq, hmem⟩ := h _ hx
  cases heq
  exact hwords (word_remove (n : Int) ▸ hmem)

private theorem WifiEnding.speaks {interface : String} {n : Nat} {log : Log wifiSig}
    {result : Except Refusal (Option Bool)} (h : WifiEnding interface n log result) :
    Speaks (ascii "REMOVE_NETWORK" :: ascii "SAVE_CONFIG" :: setUpWords) log := by
  cases h with
  | removed hbefore =>
    refine (hbefore.mono (by decide)).append fun x hx => ?_
    exact ⟨_, _, _, List.mem_singleton.mp hx, word_remove (n : Int) ▸ List.mem_cons_self⟩
  | done hbefore hlast =>
    exact (hbefore.mono (by decide)).append (hlast.mono (by decide))

/-- After the set-up the native action is tidy. -/
private theorem wifiEnding_tidy {interface : String} {n : Nat} {first rest : Log wifiSig}
    {result : Except Refusal (Option Bool)}
    (hfirst : Speaks [ascii "LIST_NETWORKS", ascii "ADD_NETWORK"] first)
    (h : WifiEnding interface n rest result) :
    wifiDialogue.Tidy n (first ++ rest) (∃ e, result = .error e) := by
  have hall {log : Log wifiSig} (hlog : Speaks setUpWords log) :
      Speaks (ascii "LIST_NETWORKS" :: ascii "ADD_NETWORK" :: setUpWords) (first ++ log) :=
    (hfirst.mono (by decide)).append (hlog.mono (by decide))
  cases h with
  | removed hbefore =>
    rw [← List.append_assoc]
    refine .of_removal ⟨_, rfl⟩ ⟨interface, _, rfl⟩ fun y hy => ?_
    rcases List.mem_append.mp hy with hy | hy
    · exact (hall hbefore).not_saves (by decide) y hy
    · rw [List.mem_singleton.mp hy]
      rintro ⟨i, r, heq, -⟩
      injection heq with hop
      injection hop with hi hc
      have hword := word_remove (n : Int)
      rw [show ascii s!"REMOVE_NETWORK {(n : Int)}" = ascii "SAVE_CONFIG" from hc] at hword
      exact absurd hword (by decide)
  | done hbefore hlast =>
    refine ⟨nofun, nofun, fun _ x hx => ?_⟩
    rw [← List.append_assoc] at hx
    rcases List.mem_append.mp hx with hx | hx
    · exact (hall hbefore).not_removes (by decide) n x hx
    · exact hlast.not_removes (by decide) n x hx

theorem trigger_speaks {interface command : String} {w : Bytes}
    {changes : List (Bytes × JsonToken)} (hword : firstWord (ascii command) = w) {g g' : UInt64}
    {log : Log wifiSig} {result : Except Refusal (Option Bool)}
    (h : Does (trigger interface command changes) g log result g') : Speaks [w] log := by
  rw [trigger] at h
  split at h
  · obtain ⟨rfl, -, -⟩ := does_pure.mp h
    exact .nil _
  · obtain ⟨ok, g₁, log₁, log₂, rfl, hok, hpure⟩ := does_bind.mp h
    have hlog₂ : log₂ = [] := by
      split at hpure <;> exact (does_pure.mp hpure).1
    rw [hlog₂, List.append_nil]
    exact wpaOk_speaks hok hword

theorem forget_speaks {interface : String} {changes : List (Bytes × JsonToken)} {g g' : UInt64}
    {log : Log wifiSig} {result : Except Refusal (Option Bool)}
    (h : Does (forget interface changes) g log result g') :
    Speaks [ascii "REMOVE_NETWORK", ascii "SAVE_CONFIG"] log := by
  rw [forget] at h
  split at h
  · obtain ⟨rfl, -, -⟩ := does_pure.mp h
    exact .nil _
  · next n _ =>
    obtain ⟨ok, g₁, log₁, log₂, rfl, hok, hrest⟩ := does_bind.mp h
    refine Speaks.append ((wpaOk_speaks hok (word_remove n)).mono (by decide)) ?_
    split at hrest
    · obtain ⟨saved, g₂, log₃, log₄, rfl, hsave, hpure⟩ := does_bind.mp hrest
      obtain ⟨rfl, -, -⟩ := does_pure.mp hpure
      rw [List.append_nil]
      exact (wpaOk_speaks hsave (w := ascii "SAVE_CONFIG") (by decide)).mono
        (by decide)
    · obtain ⟨rfl, -, -⟩ := does_pure.mp hrest
      exact .nil _

theorem connectConfigured_speaks {interface : String} {n : Int} {g g' : UInt64}
    {log : Log wifiSig} {result : Except Refusal (Option Bool)}
    (h : Does (connectConfigured interface n) g log result g') :
    Speaks [ascii "ENABLE_NETWORK", ascii "SELECT_NETWORK"] log := by
  obtain ⟨ok, g₁, log₁, log₂, rfl, hok, hrest⟩ := does_bind.mp h
  have henable : firstWord (ascii s!"ENABLE_NETWORK {n}") = ascii "ENABLE_NETWORK" :=
    word_numbered (by decide) (by decide) n
  have hselect : firstWord (ascii s!"SELECT_NETWORK {n}") = ascii "SELECT_NETWORK" :=
    word_numbered (by decide) (by decide) n
  refine Speaks.append ((wpaOk_speaks hok henable).mono (by decide)) ?_
  split at hrest
  · obtain ⟨ok', g₂, log₃, log₄, rfl, hok', hpure⟩ := does_bind.mp hrest
    have hlog₄ : log₄ = [] := by
      split at hpure <;> exact (does_pure.mp hpure).1
    rw [hlog₄, List.append_nil]
    exact (wpaOk_speaks hok' hselect).mono (by decide)
  · obtain ⟨rfl, -, -⟩ := does_pure.mp hrest
    exact .nil _

theorem configuredNetworkId_speaks {interface : String} {ssid : Bytes} {found : Option Matches}
    {g g' : UInt64} {log : Log wifiSig}
    (h : Does (configuredNetworkId interface ssid) g log found g') :
    Speaks [ascii "LIST_NETWORKS"] log := by
  obtain ⟨response, g₁, log₁, log₂, rfl, hrequest, hpure⟩ := does_bind.mp h
  obtain ⟨rfl, -, -⟩ := does_pure.mp hpure
  rw [List.append_nil]
  exact wpaRequest_speaks hrequest (by decide)

/-- A connect request that adds a network is tidy. -/
theorem connect_tidy_of_adds {interface : String} {changes : List (Bytes × JsonToken)}
    {g g' : UInt64} {log : Log wifiSig} {result : Except Refusal (Option Bool)}
    (h : Does (connect interface changes) g log result g') {n : Nat}
    (hadds : ∃ x ∈ log, wifiDialogue.adds n x) :
    wifiDialogue.Tidy n log (∃ e, result = .error e) := by
  rw [connect] at h
  split at h
  · obtain ⟨rfl, -, -⟩ := does_pure.mp h
    exact absurd hadds (Speaks.not_adds (.nil []) nofun n)
  -- The listing adds no network, so the addition is behind it.
  · next ssid credential _ =>
    obtain ⟨found, g₁, log₁, log₂, rfl, hlist, hrest⟩ := does_bind.mp h
    have hspeaks := configuredNetworkId_speaks hlist
    have hadds' : ∃ x ∈ log₂, wifiDialogue.adds n x := by
      obtain ⟨x, hx, hadd⟩ := hadds
      rcases List.mem_append.mp hx with hx | hx
      · exact absurd ⟨x, hx, hadd⟩ (hspeaks.not_adds (by decide) n)
      · exact ⟨x, hx, hadd⟩
    have hnone {words : List Bytes} (h : Speaks words log₂) (hwords : ascii "ADD_NETWORK" ∉ words) :
        False := h.not_adds hwords n hadds'
    have hstop {refusal : Except Refusal (Option Bool)}
        (h : Does (pure refusal : WifiM _) g₁ log₂ result g') : False := by
      obtain ⟨rfl, -, -⟩ := does_pure.mp h
      exact hnone (.nil []) nofun
    -- Only the branch of a new network sends ADD_NETWORK at all.
    cases found with
    | none => exact (hstop hrest).elim
    | some found =>
      dsimp only at hrest
      split at hrest
      · exact (hstop hrest).elim
      · split at hrest
        · split at hrest
          · exact (hnone (connectConfigured_speaks hrest) (by decide)).elim
          · exact (hstop hrest).elim
        · split at hrest
          · exact (hstop hrest).elim
          · rcases connectNew_does hrest with ⟨r, text, rest, m, rfl, htext, hm, hending⟩ | hno
            -- The number that the branch tidies up is the one that was added.
            · have hn : m = n := by
                obtain ⟨x, hx, hadd⟩ := hadds'
                rcases List.mem_cons.mp hx with rfl | hx
                · obtain ⟨i, r', text', heq, htext', hn⟩ := hadd
                  cases heq
                  rw [htext, Option.some.injEq] at htext'
                  rw [← htext', hm, Option.some.injEq] at hn
                  exact Int.ofNat.inj hn
                · exact absurd ⟨x, hx, hadd⟩ (hending.speaks.not_adds (by decide) n)
              subst hn
              have hfirst : Speaks [ascii "LIST_NETWORKS", ascii "ADD_NETWORK"]
                  (log₁ ++ [⟨.exchange interface (ascii "ADD_NETWORK"), r⟩]) := by
                refine Speaks.append (hspeaks.mono (by decide)) fun x hx => ?_
                exact ⟨_, _, _, List.mem_singleton.mp hx, by decide⟩
              have htidy := wifiEnding_tidy hfirst hending
              rwa [List.append_assoc] at htidy
            · exact absurd hadds' (hno n)

/-- The native action is tidy in every run. -/
theorem wifiAction_tidy {device : WifiDevice} {changes : List (Bytes × JsonToken)} {g g' : UInt64}
    {log : Log wifiSig} {result : Except Refusal (Option Bool)}
    (h : Does (wifiAction device changes) g log result g') {n : Nat}
    (hadds : ∃ x ∈ log, wifiDialogue.adds n x) :
    wifiDialogue.Tidy n log (∃ e, result = .error e) := by
  have hnone {words : List Bytes} (hspeaks : Speaks words log)
      (hwords : ascii "ADD_NETWORK" ∉ words) : False := hspeaks.not_adds hwords n hadds
  rw [wifiAction] at h
  split at h
  · obtain ⟨rfl, -, -⟩ := does_pure.mp h
    exact (hnone (.nil []) nofun).elim
  · next action _ =>
    split at h
    · exact (hnone (trigger_speaks (w := ascii "SCAN") (by decide) h)
        (by decide)).elim
    · split at h
      · exact (hnone (trigger_speaks (w := ascii "DISCONNECT") (by decide) h) (by decide)).elim
      · split at h
        · exact (hnone (forget_speaks h) (by decide)).elim
        · split at h
          · exact connect_tidy_of_adds h hadds
          · obtain ⟨rfl, -, -⟩ := does_pure.mp h
            exact (hnone (.nil []) nofun).elim

end Native

end MsysHal
