import MsysHal.Spec.NativeNetwork

/-!
# Connecting to a new network

The two clients together: what holds of every run of either, and a run of the Python
client that is not tidy.

## Key results

- `connect_tidy`: the Python backend is tidy exactly when the configuration request is
  answered and the interface stays; the native action always is
- `connect_unsaved`: a network that is neither saved nor removed
-/

namespace MsysHal

/-! ## Both clients -/

/-- After `ADD_NETWORK` has returned an id, the Python request is tidy exactly when the
    configuration request is answered and the interface stays; the native one always is. -/
theorem connect_tidy (n : Nat) :
    (∀ (table : Python.Text.PrintTable) (identifier : String)
      (changes : List (Python.Value × Python.Value))
      (log : Interleave.Log Network.netSig) (result : Except PyError Network.NetworkState),
      Interleave.Path (Network.setState table identifier changes) log result →
      (∃ x ∈ log, Network.dialogue.adds n x) →
      (Network.dialogue.Tidy n log (∃ e, result = .error e) ↔ Network.Finishes identifier log)) ∧
    ∀ (device : Native.WifiDevice) (changes : List (Native.Bytes × Native.JsonToken)) (g g' :
      UInt64) (log : Interleave.Log Native.wifiSig) (result : Except Native.Refusal (Option Bool)),
      Interleave.Does (Native.wifiAction device changes) g log result g' →
      (∃ x ∈ log, Native.wifiDialogue.adds n x) →
      Native.wifiDialogue.Tidy n log (∃ e, result = .error e) :=
  ⟨fun _ _ _ _ _ h hadds => Network.setState_tidy_iff h hadds,
    fun _ _ _ _ _ _ h hadds => Native.wifiAction_tidy h hadds⟩

namespace Network

open Python (Value)

/-- A supplicant without networks that accepts every command; `save` is what becomes of
    `SAVE_CONFIG`. -/
def supplicant (save : Exchange) : (o : NetOp) → o.Ret
  | .entries => some [⟨"wlan0".toList.map Char.toNat, some true⟩]
  | .read _ _ => none
  | .isDir _ name => name == "wireless"
  | .available _ => true
  | .exchange _ command =>
    if command = "ADD_NETWORK" then .response "0".toByteArray
    else if command = "LIST_NETWORKS" then .response "network id / ssid / bssid / flags".toByteArray
    else if command = "SAVE_CONFIG" then save
    else .response "OK".toByteArray

theorem supplicant_save (save : Exchange) (i : String) :
    supplicant save (.exchange i "SAVE_CONFIG") = save := by
  simp [supplicant]

theorem supplicant_adds (save : Exchange) (i : String) :
    dialogue.adds 0 ⟨.exchange i "ADD_NETWORK", supplicant save (.exchange i "ADD_NETWORK")⟩ := by
  have hanswer : supplicant save (.exchange i "ADD_NETWORK") = .response "0".toByteArray := by
    simp [supplicant]
  rw [hanswer]
  exact ⟨i, _, "0".toList, rfl, ⟨_, rfl, by rfl⟩, by decide⟩

/-- Every program finishes with a supplicant that saves. -/
theorem supplicant_finishes (p : NetworkProg NetworkState) :
    Finishes "network:wlan0" (p.follow (supplicant (.response "OK".toByteArray))).2 := by
  constructor
  · intro i r hx
    have hr : r = _ := p.follow_answers _ _ hx
    rw [supplicant_save] at hr
    exact ⟨"OK".toList, _, hr, by rfl⟩
  · intro name items hname hx
    have hitems : items = some [⟨"wlan0".toList.map Char.toNat, some true⟩] :=
      p.follow_answers _ _ hx
    rw [show deviceName "network:wlan0" "network" = .ok "wlan0" by rfl, Except.ok.injEq] at hname
    rw [← hname, hitems]
    decide +kernel

/-- A request to connect to an open network. -/
def openRequest : List (Value × Value) :=
  [(.str "action", .str "connect"), (.str "ssid", .str "Home"), (.str "security", .str "open")]

end Network

namespace Native

/-- A supplicant with another network that accepts every command. -/
def supplicant : (o : WifiOp) → o.Ret
  | .scan => []
  | .available _ => true
  | .exchange _ command =>
    some (if command = ascii "ADD_NETWORK" then ascii "0"
      else if command = ascii "LIST_NETWORKS" then
        ascii "network id / ssid / bssid / flags\n7\tOffice\tany\t"
      else ascii "OK")
  | .text _ _ => none
  | .integer _ _ _ _ => none
  | .radio => none

/-- A request to connect to an open network. -/
def openRequest : List (Bytes × JsonToken) :=
  [(ascii "action", .string (ascii "connect")), (ascii "ssid", .string (ascii "Home")),
    (ascii "security", .string (ascii "open"))]

end Native

open Interleave (Prog Proc Path Does Log)

/-- A supplicant that leaves `SAVE_CONFIG` unanswered: the request fails, and the network
    stays. -/
theorem connect_unsaved :
    ¬ ∀ (log : Log Network.netSig) (result : Except PyError Network.NetworkState),
    Path (Network.setState Python.Text.asciiTable "network:wlan0" Network.openRequest) log result →
    (∃ x ∈ log, Network.dialogue.adds 0 x) →
    Network.dialogue.Tidy 0 log (∃ e, result = .error e) := by
  intro hall
  let program := Network.setState Python.Text.asciiTable "network:wlan0" Network.openRequest
  have hpath := Path.of_follow (Network.supplicant .failed) program
  have hadd := Prog.mem_follow (Network.supplicant .failed) program
    (.exchange "wlan0" "ADD_NETWORK") (by decide)
  have hsave := Prog.mem_follow (Network.supplicant .failed) program
    (.exchange "wlan0" "SAVE_CONFIG") (by decide)
  have hadds : ∃ x ∈ (program.follow (Network.supplicant .failed)).2, Network.dialogue.adds 0 x :=
    ⟨_, hadd, Network.supplicant_adds .failed "wlan0"⟩
  have hfinishes := (Network.setState_tidy_iff hpath hadds).mp (hall _ _ hpath hadds)
  obtain ⟨text, data, hresponse, -⟩ := hfinishes.1 "wlan0" _ hsave
  exact nomatch hresponse

/-- With every command accepted both requests are tidy. -/
theorem connect_tidy_saved :
    (∃ log result,
      Path (Network.setState Python.Text.asciiTable "network:wlan0" Network.openRequest)
      log result ∧ Network.dialogue.Tidy 0 log (∃ e, result = .error e)) ∧
    ∃ log result g', Does (Native.wifiAction ⟨"wlan0", true, true, true⟩ Native.openRequest) 0 log
      result g' ∧ Native.wifiDialogue.Tidy 0 log (∃ e, result = .error e) := by
  constructor
  · let answer := Network.supplicant (.response "OK".toByteArray)
    let program := Network.setState Python.Text.asciiTable "network:wlan0" Network.openRequest
    have hpath := Path.of_follow answer program
    have hadd :=
      Prog.mem_follow answer program (.exchange "wlan0" "ADD_NETWORK") (by decide +kernel)
    have hfinishes := Network.supplicant_finishes program
    exact ⟨_, _, hpath, ((connect_tidy 0).1 _ _ _ _ _ hpath
      ⟨_, hadd, Network.supplicant_adds _ "wlan0"⟩).mpr hfinishes⟩
  · let program := Native.wifiAction ⟨"wlan0", true, true, true⟩ Native.openRequest
    have hdoes := Does.of_follow Native.supplicant program 0
    refine ⟨_, _, _, hdoes, (connect_tidy 0).2 _ _ _ _ _ _ hdoes ?_⟩
    have hadd := Prog.mem_follow Native.supplicant (program 0)
      (.exchange "wlan0" (Native.ascii "ADD_NETWORK")) (by decide +kernel)
    rw [Proc.follow_log]
    exact ⟨_, hadd, "wlan0", _, Native.ascii "0", rfl, by decide, by decide⟩

end MsysHal
