import MsysHal.ForStd.Hoare
import MsysHal.Python.Radios

/-!
# Runs of the network backend

Which commands each method of the backend sends, and how the methods that every request
is made of come to their end: a control request, the state of an interface, and the
listing of the configured networks.

## Key results

- `stateOf_issues`, `configured_issues`: the queries
- `request_path`: a request is one exchange
- `finishState_path`: the state is refused only where the interface is not listed
-/

namespace MsysHal.Network

open Interleave (Prog Issues Path Log)
open Python (Value)
open Python.Text (PrintTable)

/-! ## Commands -/

/-- The first word of a command. -/
def verb (command : String) : String := String.ofList (command.toList.takeWhile (· ≠ ' '))

theorem verb_append {start : String} (h : ' ' ∈ start.toList) (rest : String) :
    verb (start ++ rest) = verb start := by
  have htake : (start.toList ++ rest.toList).takeWhile (· ≠ ' ') =
      start.toList.takeWhile (· ≠ ' ') := by
    rw [List.takeWhile_append, if_neg]
    intro hlength
    have hall := List.takeWhile_eq_self_iff.mp
      ((List.takeWhile_prefix (p := (· ≠ ' '))).sublist.eq_of_length hlength)
    exact absurd (hall ' ' h) (by simp)
  rw [verb, verb, String.toList_append, htake]

/-- The commands about a network. -/
theorem verb_numbered {start : String} (h : ' ' ∈ start.toList) (n : Nat) (rest : String) :
    verb (start ++ toString n ++ rest) = verb start := by
  rw [String.append_assoc, verb_append h]

/-- A command that ends with a network id can be sent. -/
theorem commandValid_numbered {start : String} (hstart : commandValid start = true)
    (hlength : start.length ≤ 100) {n : Nat} (hn : n ≤ 4095) :
    commandValid (start ++ toString n) = true := by
  have hdigits : (toString n).toList = Nat.toDigits 10 n := Nat.toList_repr
  have hfour : (Nat.toDigits 10 n).length ≤ 4 :=
    (Nat.length_toDigits_le_iff (by decide) (by decide)).mpr (by omega)
  have hsize := Python.utf8Len_le ((start ++ toString n).toList)
  rw [commandValid, Bool.and_eq_true, Bool.and_eq_true] at hstart ⊢
  refine ⟨⟨?_, ?_⟩, ?_⟩
  · have hne : start ≠ "" := by simpa using hstart.1.1
    simp [hne]
  · rw [String.toList_append, List.length_append, hdigits, String.length_toList] at hsize
    rw [decide_eq_true_eq, String.toList_append, hdigits]
    omega
  · rw [String.toList_append, List.any_append, hdigits]
    have hclean :
        (Nat.toDigits 10 n).any (fun c => c == '\x00' || c == '\n' || c == '\r') = false := by
      rw [List.any_eq_false]
      intro c hc
      have hdigit := Nat.isDigit_of_mem_toDigits (by decide) (by decide) hc
      rintro h
      simp only [Bool.or_eq_true, beq_iff_eq] at h
      rcases h with (rfl | rfl) | rfl <;> exact absurd hdigit (by decide)
    rw [hclean, Bool.or_false]
    exact hstart.2

/-- A step that is no exchange, or sends an allowed command. -/
def Sends (allowed : String → Prop) (o : NetOp) : Prop := ∀ i c, o = .exchange i c → allowed c

theorem check_issues {P : NetOp → Prop} {α : Type} (x : Except HalError α) :
    Issues (S := netSig) P (check x) := .ofExcept _

theorem fail_issues {P : NetOp → Prop} {α : Type} (error : HalError) :
    Issues (S := netSig) (α := α) P (fail error) := .raise _

theorem request_issues {P : NetOp → Prop} {interface command : String}
    (h : P (.exchange interface command)) : Issues P (request interface command) := by
  rw [request]
  split
  · exact fail_issues _
  · split
    · exact fail_issues _
    · refine (Issues.perform (S := netSig) h).bind fun r => ?_
      cases r with
      | unavailable => exact fail_issues _
      | failed => exact fail_issues _
      | response data => exact check_issues _

theorem requestOk_issues {P : NetOp → Prop} {interface command operation : String}
    (h : P (.exchange interface command)) : Issues P (requestOk interface command operation) := by
  refine (request_issues h).bind fun reply => ?_
  split
  · exact fail_issues _
  · exact .pure _

theorem op_issues {P : NetOp → Prop} {o : NetOp} (h : P o) : Issues P (op o) :=
  Issues.perform (S := netSig) h

theorem sends_exchange {allowed : String → Prop} {interface command : String}
    (h : allowed command) : Sends allowed (.exchange interface command) := by
  intro i c heq
  cases heq
  exact h

/-- A step that reads an attribute of an interface. -/
def IsRead : NetOp → Prop
  | .read _ _ | .isDir _ _ => True
  | _ => False

/-- The steps that read the state of an interface. -/
structure AllowsQueries (P : NetOp → Prop) : Prop where
  read {o : NetOp} (h : IsRead o) : P o
  available (interface : String) : P (.available interface)
  status (interface : String) : P (.exchange interface "STATUS")
  scan (interface : String) : P (.exchange interface "SCAN_RESULTS")
  list (interface : String) : P (.exchange interface "LIST_NETWORKS")

/-- What is allowed as far as the commands go. -/
theorem AllowsQueries.of_commands {allowed : String → Prop} (hstatus : allowed "STATUS")
    (hscan : allowed "SCAN_RESULTS") (hlist : allowed "LIST_NETWORKS") :
    AllowsQueries (Sends allowed) where
  read h i c heq := (heq ▸ h : IsRead (.exchange i c)).elim
  available _ _ _ h := nomatch h
  status _ := sends_exchange hstatus
  scan _ := sends_exchange hscan
  list _ := sends_exchange hlist

theorem findEntry_issues {P : NetOp → Prop} (h : P .entries) (identifier : String) :
    Issues P (findEntry identifier) := by
  refine (check_issues _).bind fun name => (op_issues h).bind fun items => ?_
  split
  · exact .pure _
  · exact fail_issues _

theorem classifyInterface_reads (name : String) : Issues IsRead (classifyInterface name) := by
  have hread (file : String) : Issues IsRead (op (.read name file)) :=
    op_issues (show IsRead (.read name file) from trivial)
  have hdir (sub : String) : Issues IsRead (op (.isDir name sub)) :=
    op_issues (show IsRead (.isDir name sub) from trivial)
  refine (hread _).bind fun type => ?_
  dsimp only
  split
  · exact .pure _
  · refine (hread _).bind fun uevent => (hdir _).bind fun wireless => ?_
    split
    · exact .pure _
    · refine (hdir _).bind fun wwan => ?_
      split
      · exact .pure _
      · split <;> exact .pure _

section Queries

variable {P : NetOp → Prop} (h : AllowsQueries P)

include h

theorem interfaceValues_issues (name : String) : Issues P (interfaceValues name) := by
  have hread (file : String) : Issues P (op (.read name file)) :=
    op_issues (h.read (show IsRead (.read name file) from trivial))
  refine ((classifyInterface_reads name).mono fun _ => h.read).bind fun kind => ?_
  refine (hread _).bind fun operstate => (hread _).bind fun carrier => ?_
  exact (hread _).bind fun address => (hread _).bind fun mtu => .pure _

variable (table : PrintTable)

theorem configured_issues (interface : String) : Issues P (configured table interface) :=
  (request_issues (h.list interface)).bind fun _ => check_issues _

theorem wifiReport_issues (interface : String) : Issues P (wifiReport table interface) := by
  refine (request_issues (h.status _)).bind fun _ => (check_issues _).bind fun _ => ?_
  refine (request_issues (h.scan _)).bind fun _ => (check_issues _).bind fun _ => ?_
  exact (request_issues (h.list _)).bind fun _ => (check_issues _).bind fun _ => .pure _

theorem wifiValues_issues (interface : String) : Issues P (wifiValues table interface) := by
  refine (op_issues (h.available _)).bind fun available => ?_
  split
  · refine (wifiReport_issues h table interface).attempt.bind fun result => ?_
    cases result with
    | ok report => exact .pure _
    | error e =>
      dsimp only
      split
      · exact .pure _
      · exact .raise _
  · exact .pure _

end Queries

/-- What `get_state` does with the interface it has found. -/
def stateOf (table : PrintTable) (name : String) : NetworkProg NetworkState := do
  let (kind, values) ← interfaceValues name
  if kind = .wifi then
    let (wifi, fields) ← wifiValues table name
    return ⟨name, values ++ wifi, fields⟩
  else return ⟨name, values, []⟩

theorem getState_eq (table : PrintTable) (identifier : String) :
    getState table identifier = findEntry identifier >>= stateOf table := rfl

theorem stateOf_issues {P : NetOp → Prop} (h : AllowsQueries P) (table : PrintTable)
    (name : String) : Issues P (stateOf table name) := by
  refine (interfaceValues_issues h name).bind fun kind => ?_
  dsimp only
  split
  · exact (wifiValues_issues h table name).bind fun _ => .pure _
  · exact .pure _

theorem finishState_issues {P : NetOp → Prop} (h : AllowsQueries P) (hentries : P .entries)
    (table : PrintTable) (identifier : String) (persisted : Option Bool) :
    Issues P (finishState table identifier persisted) :=
  ((findEntry_issues hentries identifier).bind fun _ => stateOf_issues h table _).bind
    fun _ => .pure _

/-! ## Requests -/

/-- What a request makes of the answer. -/
def exchanged (interface : String) : Exchange → Except PyError (List Char)
  | .unavailable =>
    .error (.hal
      (.unavailable "wpa_supplicant control is unavailable" [("interface", .str interface)]))
  | .failed =>
    .error (.hal
      (.unavailable "wpa_supplicant control request failed" [("interface", .str interface)]))
  | .response data => (responseText data).mapError .hal

theorem request_eq {interface command : String} (hi : matchesEntry interface.toList = true)
    (hc : commandValid command = true) : request interface command =
      op (.exchange interface command) >>= fun r => Prog.ofExcept (exchanged interface r) := by
  rw [request, if_neg (by simp [hi]), if_neg (by simp [hc])]
  congr 1
  funext r
  cases r <;> rfl

/-- A request is one exchange. -/
theorem request_path {interface command : String} (hi : matchesEntry interface.toList = true)
    (hc : commandValid command = true) {log : Log netSig}
    {result : Except PyError (List Char)} (h : Path (request interface command) log result) :
    ∃ r, log = [⟨.exchange interface command, r⟩] ∧ result = exchanged interface r := by
  rw [request_eq hi hc] at h
  obtain ⟨r, log', rfl, hrest⟩ := Path.of_perform_bind h
  obtain ⟨rfl, rfl⟩ := Path.of_ofExcept hrest
  exact ⟨r, rfl, rfl⟩

/-- The reply to a request, where it is valid. -/
def Replied (r : Exchange) (text : List Char) : Prop :=
  ∃ data, r = .response data ∧ responseText data = .ok text

theorem exchanged_ok_iff {interface : String} {r : Exchange} {text : List Char} :
    exchanged interface r = .ok text ↔ Replied r text := by
  cases r with
  | unavailable => exact ⟨fun h => (nomatch h), fun ⟨_, h, _⟩ => (nomatch h)⟩
  | failed => exact ⟨fun h => (nomatch h), fun ⟨_, h, _⟩ => (nomatch h)⟩
  | response data =>
    rw [exchanged, Except.mapError_eq_ok_iff]
    constructor
    · exact fun h => ⟨data, rfl, h⟩
    · rintro ⟨data', heq, h⟩
      cases heq
      exact h

/-- What a request raises is caught by `get_state`. -/
theorem exchanged_degraded {interface : String} {r : Exchange} {e : PyError}
    (h : exchanged interface r = .error e) : isDegraded e = true := by
  cases r with
  | unavailable =>
    cases h
    rfl
  | failed =>
    cases h
    rfl
  | response data =>
    obtain ⟨error, herror, rfl⟩ := Except.mapError_eq_error_iff.mp h
    rw [responseText] at herror
    split at herror
    · cases herror
      rfl
    · exact nomatch herror

/-! ## Programs that do not raise -/

/-- Every path returns. -/
def Returns {α : Type} (p : NetworkProg α) : Prop :=
  ∀ log result, Path p log result → ∃ a, result = .ok a

namespace Returns

variable {α β : Type}

theorem pure (a : α) : Returns (Pure.pure a : NetworkProg α) := fun _ _ h =>
  ⟨a, (Path.of_pure h).2⟩

theorem op (o : NetOp) : Returns (Network.op o) := fun _ _ h =>
  let ⟨r, _, hr⟩ := Path.of_perform h
  ⟨r, hr⟩

theorem bind {p : NetworkProg α} {f : α → NetworkProg β} (hp : Returns p)
    (hf : ∀ a, Returns (f a)) : Returns (p >>= f) := by
  intro log result h
  rcases Path.of_bind h with ⟨e, -, he⟩ | ⟨a, log₁, log₂, -, -, hrest⟩
  · obtain ⟨a, ha⟩ := hp _ _ he
    exact nomatch ha
  · exact hf a _ _ hrest

end Returns

theorem classifyInterface_returns (name : String) : Returns (classifyInterface name) := by
  refine (Returns.op _).bind fun type => ?_
  dsimp only
  split
  · exact .pure _
  · refine (Returns.op _).bind fun uevent => (Returns.op _).bind fun wireless => ?_
    split
    · exact .pure _
    · refine (Returns.op _).bind fun wwan => ?_
      split
      · exact .pure _
      · split <;> exact .pure _

theorem interfaceValues_returns (name : String) : Returns (interfaceValues name) :=
  (classifyInterface_returns name).bind fun _ => (Returns.op _).bind fun _ =>
    (Returns.op _).bind fun _ => (Returns.op _).bind fun _ => (Returns.op _).bind fun _ => .pure _

section Reports

variable (table : PrintTable)

theorem listingLines_degraded {header complaint : String} {response : List Char} {e : HalError}
    (h : listingLines header complaint response = .error e) : isDegraded (.hal e) = true := by
  rw [listingLines] at h
  split at h
  · cases h
    rfl
  · split at h
    · exact nomatch h
    · cases h
      rfl

theorem parseScanResults_degraded {response : List Char} {e : HalError}
    (h : parseScanResults table response = .error e) : isDegraded (.hal e) = true := by
  rcases Except.bind_eq_error_iff.mp h with h | ⟨lines, -, h⟩
  · exact listingLines_degraded h
  · exact nomatch h

theorem parseNetworks_degraded {response : List Char} {e : HalError}
    (h : parseNetworks table response = .error e) : isDegraded (.hal e) = true := by
  rcases Except.bind_eq_error_iff.mp h with h | ⟨lines, -, h⟩
  · exact listingLines_degraded h
  · exact nomatch h

theorem parseStatus_degraded {response : List Char} {e : HalError}
    (h : parseStatus table response = .error e) : isDegraded (.hal e) = true := by
  rw [parseStatus] at h
  split at h
  · cases h
    rfl
  · exact nomatch h

variable {table}

/-- One of the queries: what it raises is caught. -/
private theorem query_degraded {interface command : String} {α β : Type}
    (hi : matchesEntry interface.toList = true) (hc : commandValid command = true)
    {parse : List Char → Except HalError α}
    (hparse : ∀ response e, parse response = .error e → isDegraded (.hal e) = true)
    {f : α → NetworkProg β} {e : PyError}
    (hf : ∀ a log, Path (f a) log (.error e) → isDegraded e = true) {log : Log netSig}
    (h : Path (request interface command >>= fun reply => check (parse reply) >>= f) log
      (.error e)) :
    isDegraded e = true := by
  rcases Path.of_bind h with ⟨e', heq, hraise⟩ | ⟨reply, log₁, log₂, -, -, hrest⟩
  · cases heq
    obtain ⟨r, -, hr⟩ := request_path hi hc hraise
    exact exchanged_degraded hr.symm
  · rcases Path.of_bind hrest with ⟨e', heq, hraise⟩ | ⟨a, log₃, log₄, -, -, hgo⟩
    · cases heq
      obtain ⟨-, hcheck⟩ := Path.of_ofExcept hraise
      obtain ⟨error, herror, rfl⟩ := Except.mapError_eq_error_iff.mp hcheck.symm
      exact hparse reply error herror
    · exact hf a _ hgo

/-- What the queries of a state raise is caught. -/
theorem wifiReport_degraded {interface : String} (hi : matchesEntry interface.toList = true)
    {log : Log netSig} {e : PyError}
    (h : Path (wifiReport table interface) log (.error e)) : isDegraded e = true := by
  refine query_degraded hi (by decide) (fun _ _ => parseStatus_degraded table)
    (fun status log hscan => ?_) h
  refine query_degraded hi (by decide) (fun _ _ => parseScanResults_degraded table)
    (fun scan log hlist => ?_) hscan
  refine query_degraded hi (by decide) (fun _ _ => parseNetworks_degraded table)
    (fun networks log hpure => ?_) hlist
  exact nomatch (Path.of_pure hpure).2

theorem wifiValues_returns {interface : String} (hi : matchesEntry interface.toList = true) :
    Returns (wifiValues table interface) := by
  refine (Returns.op _).bind fun available => ?_
  split
  · intro log result h
    obtain ⟨r, log₁, log₂, -, hreport, hrest⟩ := Path.of_attempt_bind h
    cases r with
    | ok report => exact Returns.pure _ _ _ hrest
    | error e =>
      dsimp only at hrest
      rw [if_pos (wifiReport_degraded hi hreport)] at hrest
      exact Returns.pure _ _ _ hrest
  · exact .pure _

end Reports

/-! ## The state of an interface -/

theorem matchesEntry_of_deviceName {identifier expected name : String}
    (h : deviceName identifier expected = .ok name) : matchesEntry name.toList = true := by
  rw [deviceName] at h
  split at h
  · exact nomatch h
  · split at h
    · exact nomatch h
    · next hvalid =>
      cases h
      rw [String.toList_ofList]
      simp only [Bool.or_eq_true, Bool.not_eq_true', not_or, Bool.not_eq_false] at hvalid
      exact hvalid.2

/-- The interface is looked up in one listing. -/
theorem findEntry_path {identifier name : String}
    (hname : deviceName identifier "network" = .ok name)
    {log : Log netSig} {result : Except PyError String}
    (h : Path (findEntry identifier) log result) : ∃ items, log = [⟨.entries, items⟩] ∧
      (name ∈ entryNames items ∧ result = .ok name ∨
        name ∉ entryNames items ∧ ∃ e, result = .error e) := by
  have h : Path (op .entries >>= fun items =>
      if (entryNames items).contains name then (pure name : NetworkProg String)
      else fail (.unavailable "network interface is unavailable" [("id", .str identifier)]))
      log result := by
    unfold findEntry at h
    rw [hname] at h
    exact h
  obtain ⟨items, log', rfl, hrest⟩ := Path.of_perform_bind h
  refine ⟨items, ?_⟩
  by_cases hmem : name ∈ entryNames items
  · rw [if_pos (by simpa using hmem)] at hrest
    obtain ⟨rfl, rfl⟩ := Path.of_pure hrest
    exact ⟨rfl, .inl ⟨hmem, rfl⟩⟩
  · rw [if_neg (by simpa using hmem)] at hrest
    cases hrest
    exact ⟨rfl, .inr ⟨hmem, _, rfl⟩⟩

theorem stateOf_returns {table : PrintTable} {name : String}
    (hi : matchesEntry name.toList = true) : Returns (stateOf table name) := by
  refine (interfaceValues_returns name).bind fun x => ?_
  dsimp only
  split
  · exact (wifiValues_returns hi).bind fun _ => .pure _
  · exact .pure _

/-- The state is refused only where the interface is not listed. -/
theorem finishState_path {table : PrintTable} {identifier name : String} {persisted : Option Bool}
    (hname : deviceName identifier "network" = .ok name) {log : Log netSig}
    {result : Except PyError NetworkState}
    (h : Path (finishState table identifier persisted) log result) :
    ∃ items log', log = ⟨.entries, items⟩ :: log' ∧
      ((name ∈ entryNames items ∧ ∃ state state', Path (stateOf table name) log' (.ok state) ∧
          result = .ok state') ∨
        name ∉ entryNames items ∧ log' = [] ∧ ∃ e, result = .error e) := by
  rcases Path.of_bind h with ⟨e, rfl, hstate⟩ | ⟨state, log₁, log₂, rfl, hstate, hrest⟩
  · rcases Path.of_bind hstate with ⟨e', heq, hfind⟩ | ⟨found, log₃, log₄, rfl, hfind, hgo⟩
    · obtain ⟨items, rfl, hcase⟩ := findEntry_path hname hfind
      rcases hcase with ⟨-, hok⟩ | ⟨hmem, -⟩
      · exact nomatch hok
      · exact ⟨items, [], rfl, .inr ⟨hmem, rfl, e, rfl⟩⟩
    · obtain ⟨items, rfl, hcase⟩ := findEntry_path hname hfind
      rcases hcase with ⟨-, heq⟩ | ⟨-, e', heq⟩
      · cases heq
        obtain ⟨state, hok⟩ := stateOf_returns (matchesEntry_of_deviceName hname) _ _ hgo
        exact nomatch hok
      · exact nomatch heq
  · obtain ⟨rfl, rfl⟩ := Path.of_pure hrest
    rw [List.append_nil]
    rcases Path.of_bind hstate with ⟨e', heq, hfind⟩ | ⟨found, log₃, log₄, rfl, hfind, hgo⟩
    · exact nomatch heq
    · obtain ⟨items, rfl, hcase⟩ := findEntry_path hname hfind
      rcases hcase with ⟨hmem, heq⟩ | ⟨-, e', heq⟩
      · cases heq
        exact ⟨items, log₄, rfl, .inl ⟨hmem, state, _, hgo, rfl⟩⟩
      · exact nomatch heq

end MsysHal.Network
