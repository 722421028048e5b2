import MsysHal.Spec.Connect
import MsysHal.Spec.Listing

/-!
# Reusing a saved network

A connect request looks for the SSID in a listing of the configured networks. `Reuses`
says what it then has to do by the ids of the rows with that SSID: use the network if
there is one, refuse if there are more, and add a network only if there is none. What a
client does depends on the rows that it reads, and so it reuses exactly when these decide.

## Key results

- `Network.reuses_iff`, `Native.reuses_iff`: a client does so for every request if and
  only if the rows it reads decide
- `connect_reuses`: both clients
-/

namespace MsysHal

open Python.Text (PrintTable)

/-- An SSID that can be requested. -/
structure Ssid (table : PrintTable) where
  text : List Char
  printable : table.printable text = true
  ne : text ≠ []
  length_le : String.utf8Len text ≤ 32

/-- What a connect request has to do. The commands are those besides the queries of the
    state, `ids` the ids of the listed rows with the SSID; the request is `bare` without
    credentials. -/
structure Reuses {C : Type} (enable select : Nat → C) (add : C) (ids : List Nat)
    (bare failed : Prop) (commands : List C) : Prop where
  one {n : Nat} (h : ids = [n]) (hbare : bare) :
    commands = [enable n] ∧ failed ∨ commands = [enable n, select n]
  many (h : 2 ≤ ids.length) : failed ∧ commands = []
  adds (h : add ∈ commands) : ids = []

/-- The rows that are read decide: an only row is read, or two of several. -/
def Decides (ids read : List Nat) : Prop :=
  ids = [] ∨ ids.length = 1 ∧ read = ids ∨ 2 ≤ ids.length ∧ 2 ≤ read.length

instance (ids read : List Nat) : Decidable (Decides ids read) :=
  inferInstanceAs (Decidable (_ ∨ _))

/-- What a client does with the ids that it has read; `adding` if the request gives what a
    new network needs. -/
inductive Chooses {C : Type} (enable select : Nat → C) (add : C) (bare adding failed : Prop) :
    List Nat → List C → Prop where
  | refusedNew (h : ¬ adding) (hfailed : failed) :
      Chooses enable select add bare adding failed [] []
  | added {rest : List C} (h : adding) :
      Chooses enable select add bare adding failed [] (add :: rest)
  | refused {n : Nat} (hbare : ¬ bare) (hfailed : failed) :
    Chooses enable select add bare adding failed [n] []
  | reused {n : Nat} {commands : List C}
    (h : commands = [enable n] ∧ failed ∨ commands = [enable n, select n]) :
    Chooses enable select add bare adding failed [n] commands
  | many {m n : Nat} {ids : List Nat} (hfailed : failed) :
    Chooses enable select add bare adding failed (m :: n :: ids) []

/-- Where the rows that are read decide, the choice is right. -/
theorem Reuses.of_chooses {C : Type} {enable select : Nat → C} {add : C}
    (hadd : ∀ n, add ≠ enable n ∧ add ≠ select n) {bare adding failed : Prop} {ids read : List Nat}
    {commands : List C} (h : Chooses enable select add bare adding failed read commands)
    (hdecides : Decides ids read) : Reuses enable select add ids bare failed commands := by
  have hreused {n : Nat} {commands : List C}
      (h : commands = [enable n] ∧ failed ∨ commands = [enable n, select n]) : add ∉ commands := by
    obtain ⟨he, hs⟩ := hadd n
    rcases h with ⟨rfl, -⟩ | rfl <;> simp [he, hs]
  rcases hdecides with rfl | ⟨hone, rfl⟩ | ⟨htwo, hread⟩
  · exact ⟨nofun, fun h => absurd h (by simp), fun _ => rfl⟩
  · cases h with
    | refusedNew => exact nomatch hone
    | added => exact nomatch hone
    | refused hbare hfailed =>
      exact ⟨fun _ hb => absurd hb hbare, fun h => absurd h (by simp), fun h => nomatch h⟩
    | reused h =>
      refine ⟨fun heq _ => ?_, fun h => absurd h (by simp), fun hmem => absurd hmem (hreused h)⟩
      rw [List.singleton_inj] at heq
      exact heq ▸ h
    | many => exact absurd hone (by simp)
  · cases h with
    | refusedNew => exact absurd hread (by simp)
    | added => exact absurd hread (by simp)
    | refused => exact absurd hread (by simp)
    | reused => exact absurd hread (by simp)
    | many hfailed =>
      refine ⟨fun heq _ => ?_, fun _ => ⟨hfailed, rfl⟩, fun h => nomatch h⟩
      rw [heq] at htwo
      exact absurd htwo (by simp)

/-- Where a request without credentials and one with what a new network needs are treated
    right, the rows that are read decide. -/
theorem Decides.of_chooses {C : Type} {enable select : Nat → C} {add : C}
    {bare adding failed bare' adding' failed' : Prop} {ids read : List Nat}
    {commands commands' : List C} (hsub : read.Sublist ids) (hbare : bare) (hadding : adding')
    (h : Chooses enable select add bare adding failed read commands)
    (h' : Chooses enable select add bare' adding' failed' read commands')
    (hreuses : Reuses enable select add ids bare failed commands)
    (hreuses' : Reuses enable select add ids bare' failed' commands') : Decides ids read := by
  cases h with
  | refusedNew | added =>
    cases h' with
    | refusedNew hno => exact absurd hadding hno
    | added => exact .inl (hreuses'.adds List.mem_cons_self)
  | refused hno => exact absurd hbare hno
  | reused h =>
    cases ids with
    | nil => exact .inl rfl
    | cons m ids =>
      cases ids with
      | nil => exact .inr (.inl ⟨rfl, hsub.eq_of_length rfl⟩)
      | cons m' ids =>
        obtain ⟨-, hnil⟩ := hreuses.many (by simp)
        rcases h with ⟨heq, -⟩ | heq <;> exact absurd (heq.symm.trans hnil) (by simp)
  | many => exact .inr (.inr ⟨le_trans (by simp) hsub.length_le, by simp⟩)

/-- The commands of a client besides those in a list. -/
def commandsOf {E C : Type} [DecidableEq C] (sent : E → Option C) (queries : List C)
    (log : List E) : List C :=
  (log.filterMap sent).filter (· ∉ queries)

section Commands

variable {E C : Type} [DecidableEq C] {sent : E → Option C} {queries : List C}

theorem commandsOf_append (log log' : List E) : commandsOf sent queries (log ++ log') =
    commandsOf sent queries log ++ commandsOf sent queries log' := by
  rw [commandsOf, List.filterMap_append, List.filter_append, commandsOf, commandsOf]

theorem commandsOf_eq_nil {log : List E} (h : ∀ x ∈ log, ∀ c, sent x = some c → c ∈ queries) :
    commandsOf sent queries log = [] := by
  rw [commandsOf, List.filter_eq_nil_iff]
  intro c hc
  obtain ⟨x, hx, hsent⟩ := List.mem_filterMap.mp hc
  simpa using h x hx c hsent

theorem commandsOf_cons {x : E} {c : C} (hx : sent x = some c) (hc : c ∉ queries) (log : List E) :
    commandsOf sent queries (x :: log) = c :: commandsOf sent queries log := by
  rw [commandsOf, List.filterMap_cons_some hx, List.filter_cons_of_pos (by simpa using hc),
    commandsOf]

end Commands

/-- The first step of a sort in a run is the given one. -/
def FirstOf {E : Type} (sort : E → Prop) (x : E) (log : List E) : Prop :=
  ∃ before after, log = before ++ x :: after ∧ ∀ y ∈ before, ¬ sort y

theorem FirstOf.unique {E : Type} {sort : E → Prop} {x y : E} {before after : List E}
    (h : FirstOf sort x (before ++ y :: after)) (hx : sort x) (hy : sort y)
    (hbefore : ∀ z ∈ before, ¬ sort z) : x = y := by
  obtain ⟨before', after', heq, hbefore'⟩ := h
  induction before generalizing before' with
  | nil =>
    cases before' with
    | nil => exact (List.cons.inj heq).1.symm
    | cons z before' =>
      obtain ⟨rfl, -⟩ := List.cons.inj heq
      exact absurd hy (hbefore' y List.mem_cons_self)
  | cons z before ih =>
    cases before' with
    | nil =>
      obtain ⟨rfl, -⟩ := List.cons.inj heq
      exact absurd hx (hbefore z List.mem_cons_self)
    | cons z' before' =>
      obtain ⟨-, htail⟩ := List.cons.inj heq
      exact ih (fun w hw => hbefore w (List.mem_cons_of_mem _ hw)) before' htail
        fun w hw => hbefore' w (List.mem_cons_of_mem _ hw)

namespace Network

open Interleave (Prog Issues Path Log)
open Python (Value)
open Python.Text (strip)

/-! ## The Python client -/

/-- The command that a step sends. -/
def sent (x : Step) : Option String :=
  match (x.1 : NetOp) with
  | .exchange _ command => some command
  | _ => none

/-- The queries of a state. -/
def stateQueries : List String := ["STATUS", "SCAN_RESULTS", "LIST_NETWORKS"]

/-- The commands of a run besides the queries. -/
def commands (log : Log netSig) : List String := commandsOf sent stateQueries log

/-- A query of the configured networks. -/
def IsListing (x : Step) : Prop := ∃ i r, x = ⟨.exchange i "LIST_NETWORKS", r⟩

/-- A request to connect to a network with an SSID. -/
structure Connects (table : PrintTable) (changes : List (Value × Value)) (s : Ssid table)
    (psk : Option Value) (isOpen : Bool) : Prop where
  action : Value.lookup "action" changes = some (.str "connect")
  fields : ∃ v, connectFields changes = .ok (v, psk, isOpen) ∧ validateSsid table v = .ok s.text

/-- `connect` once the rows are read. -/
def connectTo (table : PrintTable) (identifier interface : String) (ssid : List Char)
    (psk : Option Value) (isOpen : Bool) (rows : List NetworkRow) : NetworkProg NetworkState :=
  match rows.filter (·.ssid = ssid) with
  | [] => do
    let credential ← check (newCredential psk isOpen)
    connectNew table identifier interface ssid credential
  | [row] =>
    if psk.isSome || isOpen then
      fail (.validation "credentials must be omitted for a configured network")
    else connectConfigured table identifier interface row.networkId
  | _ => fail (.provider "multiple configured networks have the requested SSID")

section Choice

variable {table : PrintTable} {identifier name : String} {log : Log netSig}
  {result : Except PyError NetworkState}

private theorem commands_nil (h : ∀ x ∈ log, Sends (· ∈ stateQueries) x.1) : commands log = [] := by
  refine commandsOf_eq_nil fun x hx c hsent => ?_
  obtain ⟨o, r⟩ := x
  cases o with
  | exchange i command =>
    cases hsent
    exact h _ hx i c rfl
  | _ => exact nomatch hsent

private theorem commands_cons {i command : String} {r : Exchange} (h : command ∉ stateQueries)
    (log : Log netSig) : commands (⟨.exchange i command, r⟩ :: log) = command :: commands log :=
  commandsOf_cons (show sent ⟨.exchange i command, r⟩ = some command from rfl) h log

private theorem not_query {command : String} (h : verb command ∉ stateQueries) :
    command ∉ stateQueries := fun hmem => h (by
  have hverbs : ∀ c ∈ stateQueries, verb c = c := by decide
  exact (hverbs command hmem).symm ▸ hmem)

private theorem enable_not_query (n : Nat) : s!"ENABLE_NETWORK {n}" ∉ stateQueries :=
  not_query (by rw [verb_enable]; decide)

private theorem select_not_query (n : Nat) : s!"SELECT_NETWORK {n}" ∉ stateQueries :=
  not_query (by rw [verb_select]; decide)

theorem requestOk_path {interface command operation : String}
    (hi : matchesEntry interface.toList = true) (hc : commandValid command = true)
    {result : Except PyError Unit} (h : Path (requestOk interface command operation) log result) :
    ∃ r, log = [⟨.exchange interface command, r⟩] := by
  rcases Path.of_bind h with ⟨e, -, hrequest⟩ | ⟨reply, log₁, log₂, rfl, hrequest, hrest⟩
  · obtain ⟨r, hlog, -⟩ := request_path hi hc hrequest
    exact ⟨r, hlog⟩
  · obtain ⟨r, rfl, -⟩ := request_path hi hc hrequest
    have hnil : log₂ = [] := by
      split at hrest
      · cases hrest
        rfl
      · exact (Path.of_pure hrest).1
    exact ⟨r, by rw [hnil, List.append_nil]⟩

/-- The network is enabled and selected, as long as that goes well. -/
theorem connectConfigured_commands (hi : matchesEntry name.toList = true) {n : Nat} (hn : n ≤ 4095)
    (h : Path (connectConfigured table identifier name n) log result) :
    commands log = [s!"ENABLE_NETWORK {n}"] ∧ (∃ e, result = .error e) ∨
      commands log = [s!"ENABLE_NETWORK {n}", s!"SELECT_NETWORK {n}"] := by
  have hvalid {start : String} (h : commandValid start = true) (hlength : start.length ≤ 100) :
      commandValid (start ++ toString n) = true := commandValid_numbered h hlength hn
  have henable : commandValid s!"ENABLE_NETWORK {n}" = true := hvalid (by decide) (by decide)
  have hselect : commandValid s!"SELECT_NETWORK {n}" = true := hvalid (by decide) (by decide)
  rcases Path.of_bind h with ⟨e, rfl, hraise⟩ | ⟨u, log₁, log₂, rfl, hdone, hrest⟩
  · obtain ⟨r, rfl⟩ := requestOk_path hi henable hraise
    exact .inl ⟨commands_cons (enable_not_query n) [], e, rfl⟩
  · obtain ⟨r, rfl⟩ := requestOk_path hi henable hdone
    right
    rw [List.singleton_append, commands_cons (enable_not_query n)]
    rcases Path.of_bind hrest with ⟨e, rfl, hraise⟩ | ⟨u, log₃, log₄, rfl, hdone', hfinish⟩
    · obtain ⟨r', rfl⟩ := requestOk_path hi hselect hraise
      rw [commands_cons (select_not_query n)]
      rfl
    · obtain ⟨r', rfl⟩ := requestOk_path hi hselect hdone'
      have hqueries : AllowsQueries (Sends (· ∈ stateQueries)) :=
        .of_commands (by decide) (by decide) (by decide)
      have hissues :=
        finishState_issues hqueries (fun _ _ h => nomatch h) table identifier (some true)
      rw [List.singleton_append, commands_cons (select_not_query n),
        commands_nil (Path.issues hissues hfinish)]

/-- What a connect request does with the rows that it reads. -/
theorem connectTo_chooses (hname : deviceName identifier "network" = .ok name) {s : List Char}
    {psk : Option Value} {isOpen : Bool} {rows : List NetworkRow}
    (hrows : ∀ row ∈ rows, row.networkId ≤ 4095)
    (h : Path (connectTo table identifier name s psk isOpen rows) log result) :
    Chooses (fun n => s!"ENABLE_NETWORK {n}") (fun n => s!"SELECT_NETWORK {n}") "ADD_NETWORK"
      (psk = none ∧ isOpen = false) (∃ credential, newCredential psk isOpen = .ok credential)
      (∃ e, result = .error e) ((rows.filter (·.ssid = s)).map (·.networkId)) (commands log) := by
  have hi := matchesEntry_of_deviceName hname
  have hmem : ∀ row ∈ rows.filter (·.ssid = s), row.networkId ≤ 4095 := fun row hrow =>
    hrows row (List.mem_of_mem_filter hrow)
  rw [connectTo] at h
  split at h
  -- No row has the name: the network is new.
  · next hnone =>
    rw [hnone]
    rcases Path.of_bind h with ⟨e, rfl, hcheck⟩ | ⟨credential, log₁, log₂, rfl, hcheck, hnew⟩
    · obtain ⟨rfl, hrefused⟩ := Path.of_ofExcept hcheck
      refine .refusedNew ?_ ⟨e, rfl⟩
      rintro ⟨credential, hcredential⟩
      rw [hcredential] at hrefused
      exact nomatch hrefused
    · obtain ⟨rfl, hcredential⟩ := Path.of_ofExcept hcheck
      obtain ⟨r, rest, rfl, -⟩ := connectNew_path hname hnew
      rw [List.nil_append, commands_cons (by decide)]
      exact .added ⟨credential, Except.mapError_eq_ok_iff.mp hcredential.symm⟩
  -- One row has it: the configured network is selected, and a credential is refused.
  · next row hone =>
    rw [hone] at hmem ⊢
    split at h
    · next hcredentials =>
      cases h
      refine .refused ?_ ⟨_, rfl⟩
      rintro ⟨rfl, rfl⟩
      exact absurd hcredentials (by decide)
    · exact .reused (connectConfigured_commands hi (hmem row (List.mem_singleton_self _)) h)
  -- Several rows have it: nothing is sent.
  · next hnone hone =>
    cases h
    match hfilter : rows.filter (·.ssid = s) with
    | [] => exact absurd hfilter hnone
    | [row] => exact absurd hfilter (hone row)
    | row :: row' :: others =>
      rw [hfilter]
      exact .many ⟨_, rfl⟩

/-- Sends nothing. -/
private def Silent : NetOp → Prop := Sends fun _ => False

private theorem not_listing {x : Step} (h : Silent x.1) : ¬ IsListing x := by
  rintro ⟨i, r, rfl⟩
  exact h i "LIST_NETWORKS" rfl

private theorem Silent.of_read {o : NetOp} (h : IsRead o) : Silent o := by
  rintro i c rfl
  exact h.elim

private theorem commands_silent (h : ∀ x ∈ log, Silent x.1) : commands log = [] :=
  commands_nil fun x hx i c heq => (h x hx i c heq).elim

variable {changes : List (Value × Value)}

/-- A connect request comes to `connect`, or asks for no listing. -/
private theorem setState_connect (haction : Value.lookup "action" changes = some (.str "connect"))
    (h : Path (setState table identifier changes) log result) : (∀ x ∈ log, ¬ IsListing x) ∨
    ∃ name before rest, deviceName identifier "network" = .ok name ∧ log = before ++ rest ∧
      (∀ x ∈ before, Silent x.1) ∧ Path (connect table identifier name changes) rest result := by
  have hentries : Silent .entries := fun _ _ h => nomatch h
  have hfind {log : Log netSig} {result : Except PyError String}
      (h : Path (findEntry identifier) log result) : ∀ x ∈ log, Silent x.1 :=
    Path.issues (findEntry_issues hentries identifier) h
  rcases Path.of_bind h with ⟨e, -, hentry⟩ | ⟨found, log₁, log₂, rfl, hentry, hkind⟩
  · exact .inl fun x hx => not_listing (hfind hentry x hx)
  · have hname : deviceName identifier "network" = .ok found := by
      cases hname : deviceName identifier "network" with
      | error e =>
        unfold findEntry at hentry
        rw [hname] at hentry
        exact nomatch hentry
      | ok name =>
        obtain ⟨items, -, ⟨-, heq⟩ | ⟨-, e, heq⟩⟩ := findEntry_path hname hentry
        · cases heq
          rfl
        · exact nomatch heq
    have hbefore := hfind hentry
    -- The lookups of the interface and of its kind ask for no listing.
    rcases Path.of_bind hkind with ⟨e, -, hclass⟩ | ⟨kind, log₃, log₄, rfl, hclass, hact⟩
    · obtain ⟨kind, hok⟩ := classifyInterface_returns found _ _ hclass
      exact nomatch hok
    · have hreads : ∀ x ∈ log₃, Silent x.1 := fun x hx =>
        .of_read (Path.issues (classifyInterface_reads found) hclass x hx)
      have hsilent {tail : Log netSig} (htail : ∀ x ∈ tail, Silent x.1) :
          ∀ x ∈ log₁ ++ (log₃ ++ tail), Silent x.1 :=
        List.forall_mem_append.mpr ⟨hbefore, List.forall_mem_append.mpr ⟨hreads, htail⟩⟩
      split at hact
      · cases hact
        have hnone : ∀ x ∈ ([] : Log netSig), Silent x.1 := fun x hx => nomatch hx
        exact .inl fun x hx => not_listing (hsilent hnone x hx)
      · obtain ⟨available, log₅, rfl, hgo⟩ := Path.of_perform_bind hact
        have hask : ∀ x ∈ [(⟨.available found, available⟩ : Step)], Silent x.1 :=
          List.forall_mem_singleton.mpr fun _ _ h => nomatch h
        split at hgo
        · rw [act, haction] at hgo
          refine .inr ⟨found, log₁ ++ (log₃ ++ [⟨.available found, available⟩]), log₅, hname, ?_,
            hsilent hask, hgo⟩
          simp
        · cases hgo
          exact .inl fun x hx => not_listing (hsilent hask x hx)

/-- `connect` asks for one listing and goes on with its rows. -/
private theorem connect_path {name : String} (hi : matchesEntry name.toList = true) {s : Ssid table}
    {psk : Option Value} {isOpen : Bool} (hconnects : Connects table changes s psk isOpen)
    (h : Path (connect table identifier name changes) log result) :
    ∃ r rest, log = ⟨.exchange name "LIST_NETWORKS", r⟩ :: rest ∧
      ((∃ text rows, exchanged name r = .ok text ∧ parseNetworks table text = .ok rows ∧
          Path (connectTo table identifier name s.text psk isOpen rows) rest result) ∨
        (∀ text rows, exchanged name r = .ok text → parseNetworks table text ≠ .ok rows) ∧
          rest = [] ∧ ∃ e, result = .error e) := by
  obtain ⟨v, hfields, hssid⟩ := hconnects.fields
  rw [connect, hfields] at h
  have h : Path (check (validateSsid table v) >>= fun ssid => configured table name >>=
      connectTo table identifier name ssid psk isOpen) log result := h
  rw [hssid] at h
  rcases Path.of_bind h with ⟨e, -, hcheck⟩ | ⟨ssid, log₁, log₂, rfl, hcheck, hrows⟩
  · exact nomatch (Path.of_ofExcept hcheck).2
  · obtain ⟨rfl, heq⟩ := Path.of_ofExcept hcheck
    cases heq
    rw [List.nil_append]
    have hquery {log : Log netSig} {result : Except PyError (List NetworkRow)}
        (h : Path (configured table name) log result) : ∃ r,
        log = [⟨.exchange name "LIST_NETWORKS", r⟩] ∧
          result = exchanged name r >>= fun text => (parseNetworks table text).mapError .hal := by
      rcases Path.of_bind h with ⟨e, rfl, hrequest⟩ | ⟨text, log₁, log₂, rfl, hrequest, hparse⟩
      · obtain ⟨r, rfl, hr⟩ := request_path hi (by decide) hrequest
        exact ⟨r, rfl, by rw [← hr]; rfl⟩
      · obtain ⟨r, rfl, hr⟩ := request_path hi (by decide) hrequest
        obtain ⟨rfl, rfl⟩ := Path.of_ofExcept hparse
        exact ⟨r, rfl, by rw [← hr]; rfl⟩
    rcases Path.of_bind hrows with ⟨e, rfl, hraise⟩ | ⟨rows, log₃, log₄, rfl, hlist, hgo⟩
    · obtain ⟨r, rfl, hr⟩ := hquery hraise
      refine ⟨r, [], rfl, .inr ⟨fun text rows htext hrows => ?_, rfl, e, rfl⟩⟩
      have hok :
          (exchanged name r >>= fun text => (parseNetworks table text).mapError .hal) = .ok rows :=
        Except.bind_eq_ok_iff.mpr ⟨text, htext, Except.mapError_eq_ok_iff.mpr hrows⟩
      exact nomatch hr.trans hok
    · obtain ⟨r, rfl, hr⟩ := hquery hlist
      refine ⟨r, log₄, rfl, .inl ?_⟩
      obtain ⟨text, htext, hparse⟩ := Except.bind_eq_ok_iff.mp hr.symm
      exact ⟨text, rows, htext, Except.mapError_eq_ok_iff.mp hparse, hgo⟩

/-! ### The listing -/

/-- The ids of the rows with an SSID that are read. -/
private theorem idsOf_read {s : List Char} (hs : String.utf8Len s ≤ 128)
    (rows : List (ListedRow table)) :
    ((rows.filterMap fun row => networkRow table row.line).filter (·.ssid = s)).map (·.networkId) =
      idsOf s rows := by
  induction rows with
  | nil => rfl
  | cons row rows ih =>
    by_cases heq : row.ssid = s
    · have hrow : networkRow table row.line = some (listedNetworkRow row) := by
        rw [networkRow_line, if_neg (by rw [heq]; omega)]
      simp only [idsOf] at ih ⊢
      simp [hrow, listedNetworkRow, heq, ih]
    · have hrest : idsOf s (row :: rows) = idsOf s rows := by simp [idsOf, heq]
      rw [hrest, ← ih]
      by_cases hlong : String.utf8Len row.ssid > 128
      · simp [networkRow_line, hlong]
      · have hrow : networkRow table row.line = some (listedNetworkRow row) := by
          rw [networkRow_line, if_neg hlong]
        simp [hrow, listedNetworkRow, heq]

private theorem networkId_le {rows : List (ListedRow table)} {row : NetworkRow}
    (h : row ∈ rows.filterMap fun row => networkRow table row.line) : row.networkId ≤ 4095 := by
  obtain ⟨listed, -, hrow⟩ := List.mem_filterMap.mp h
  rw [networkRow_line] at hrow
  split at hrow
  · exact nomatch hrow
  · obtain rfl := Option.some.inj hrow
    exact listed.id_le

/-- What a connect request does with a listing. -/
theorem setState_chooses {s : Ssid table} {psk : Option Value} {isOpen : Bool}
    (hconnects : Connects table changes s psk isOpen) {rows : List (ListedRow table)} {i : String}
    (h : Path (setState table identifier changes) log result)
    (hfirst : FirstOf IsListing ⟨.exchange i "LIST_NETWORKS", .response (listingReply rows)⟩ log) :
    if (listingReply rows).size ≤ maxWpaResponse then
      Chooses (fun n => s!"ENABLE_NETWORK {n}") (fun n => s!"SELECT_NETWORK {n}") "ADD_NETWORK"
        (psk = none ∧ isOpen = false) (∃ credential, newCredential psk isOpen = .ok credential)
        (∃ e, result = .error e) (idsOf s.text (readRows maxConfiguredNetworks rows)) (commands log)
    else (∃ e, result = .error e) ∧ commands log = [] := by
  have hs : String.utf8Len s.text ≤ 128 := by have := s.length_le; omega
  rcases setState_connect hconnects.action h with hnone | ⟨name, before, rest, hname, rfl,
    hbefore, hgo⟩
  · obtain ⟨before, after, rfl, -⟩ := hfirst
    exact absurd ⟨i, _, rfl⟩ (hnone _ (List.mem_append_right _ List.mem_cons_self))
  · obtain ⟨r, rest, rfl, hcase⟩ := connect_path (matchesEntry_of_deviceName hname) hconnects hgo
    -- The first listing of the run is the one that this request reads.
    have heq := hfirst.unique ⟨i, _, rfl⟩ ⟨name, r, rfl⟩ fun x hx => not_listing (hbefore x hx)
    cases heq
    have hcommands : commands
        (before ++ (⟨.exchange i "LIST_NETWORKS", .response (listingReply rows)⟩ :
        Step) :: rest) = commands rest := by
      have hlist : commands
          [(⟨.exchange i "LIST_NETWORKS", .response (listingReply rows)⟩ : Step)] = [] :=
        commands_nil (List.forall_mem_singleton.mpr (sends_exchange (by decide)))
      rw [← List.singleton_append, commands, commandsOf_append, commandsOf_append,
        ← commands, ← commands, ← commands, commands_silent hbefore, hlist]
      rfl
    rw [hcommands]
    split
    · next hsize =>
      -- The listing fits: the rows that are read decide.
      have htext : exchanged i (.response (listingReply rows)) =
          .ok (strip (listingText rows)) := by
        rw [exchanged, responseText_listing hsize]
        rfl
      rcases hcase with ⟨text, read, htext', hread, hchosen⟩ | ⟨hnone, -, -⟩
      · rw [htext, Except.ok.injEq] at htext'
        rw [← htext', parseNetworks_listing, Except.ok.injEq] at hread
        subst hread
        rw [← idsOf_read hs]
        exact connectTo_chooses hname (fun row => networkId_le) hchosen
      · exact absurd (parseNetworks_listing rows) (hnone _ _ htext)
    · next hsize =>
      -- The listing does not fit: the request fails before any command.
      have herror : exchanged i (.response (listingReply rows)) =
          .error (.hal (.provider "wpa_supplicant returned an invalid response")) := by
        rw [exchanged, responseText_oversize (by omega)]
        rfl
      rcases hcase with ⟨text, read, htext', -, -⟩ | ⟨-, rfl, hfailed⟩
      · rw [herror] at htext'
        cases htext'
      · exact ⟨hfailed, rfl⟩

end Choice

/-! ### Runs on a listing -/

/-- A supplicant that answers `LIST_NETWORKS` with some bytes and fails otherwise. -/
def listingSupplicant (data : ByteArray) : (o : NetOp) → o.Ret
  | .exchange i command =>
    if command = "LIST_NETWORKS" then .response data else supplicant .failed (.exchange i command)
  | o => supplicant .failed o

/-- A request to connect to a network without a PSK. -/
def connectChanges (s : List Char) (isOpen : Bool) : List (Value × Value) :=
  [(.str "action", .str "connect"), (.str "ssid", .str (String.ofList s))] ++
    if isOpen then [(.str "security", .str "open")] else []

section Runs

variable {table : PrintTable}

theorem connectChanges_connects (s : Ssid table) (isOpen : Bool) :
    Connects table (connectChanges s.text isOpen) s none isOpen where
  action := by cases isOpen <;> rfl
  fields := by
    refine ⟨.str (String.ofList s.text), by cases isOpen <;> rfl, ?_⟩
    have hempty : (String.ofList s.text).isEmpty = false := by
      rw [String.isEmpty_eq_false_iff]
      intro h
      exact s.ne (by simpa using congrArg String.toList h)
    have hnul : hasNul (String.ofList s.text) = false := by
      rw [hasNul, String.toList_ofList, List.contains_eq_mem, decide_eq_false_iff_not]
      exact table.not_nul s.printable
    have hlength := s.length_le
    rw [validateSsid, hempty, hnul, String.toList_ofList, s.printable, if_neg (by decide),
      if_neg (by omega)]

/-- The request comes to the listing. -/
theorem listingSupplicant_lists {s : Ssid table} {changes : List (Value × Value)}
    {psk : Option Value}
    {isOpen : Bool} (hconnects : Connects table changes s psk isOpen) (data : ByteArray) :
    FirstOf IsListing ⟨.exchange "wlan0" "LIST_NETWORKS", .response data⟩
      ((setState table "network:wlan0" changes).follow (listingSupplicant data)).2 := by
  let answer := listingSupplicant data
  -- The supplicant answers the lookups, so the request comes to its action.
  obtain ⟨log₁, hfind⟩ : ∃ log, (findEntry "network:wlan0").follow answer = (.ok "wlan0", log) :=
    ⟨_, rfl⟩
  obtain ⟨log₂, hclass⟩ : ∃ log, (classifyInterface "wlan0").follow answer = (.ok .wifi, log) :=
    ⟨_, rfl⟩
  have havailable : (op (.available "wlan0")).follow answer =
      (.ok true, [⟨.available "wlan0", true⟩]) := rfl
  let program := connect table "network:wlan0" "wlan0" changes
  have hact : act table "network:wlan0" "wlan0" changes = program := by
    rw [act, hconnects.action]
    rfl
  have hrun : ((setState table "network:wlan0" changes).follow answer).2 =
      log₁ ++ (log₂ ++ ([⟨.available "wlan0", true⟩] ++ (program.follow answer).2)) := by
    rw [setState, Prog.follow_bind hfind, Prog.follow_bind hclass, if_neg (by decide),
      Prog.follow_bind havailable, if_pos rfl, hact]
  have hpath := Path.of_follow answer program
  obtain ⟨r, rest, hlog, -⟩ := connect_path (by decide) hconnects hpath
  have hr : r = .response data := by
    have hmem : (⟨.exchange "wlan0" "LIST_NETWORKS", r⟩ : Step) ∈ (program.follow answer).2 :=
      hlog ▸ List.mem_cons_self
    exact program.follow_answers answer _ hmem
  have hlog₁ : ∀ x ∈ log₁, Silent x.1 := by
    have hfindPath := Path.of_follow answer (findEntry "network:wlan0")
    rw [hfind] at hfindPath
    exact Path.issues (findEntry_issues (fun _ _ h => by cases h) _) hfindPath
  have hlog₂ : ∀ x ∈ log₂, Silent x.1 := by
    have hclassPath := Path.of_follow answer (classifyInterface "wlan0")
    rw [hclass] at hclassPath
    exact fun x hx => .of_read (Path.issues (classifyInterface_reads _) hclassPath x hx)
  refine ⟨log₁ ++ (log₂ ++ [⟨.available "wlan0", true⟩]), rest, ?_, fun x hx => not_listing ?_⟩
  · rw [hrun, hlog, hr]
    simp
  · rcases List.mem_append.mp hx with hx | hx
    · exact hlog₁ x hx
    · rcases List.mem_append.mp hx with hx | hx
      · exact hlog₂ x hx
      · rw [List.mem_singleton.mp hx]
        exact fun _ _ h => by cases h

/-- The rows that are read are some of the listed ones. -/
theorem readRows_sublist (n : Nat) (rows : List (ListedRow table)) :
    (readRows n rows).Sublist rows := by
  fun_induction readRows n rows with
  | case1 => exact List.nil_sublist _
  | case2 => exact List.nil_sublist _
  | case3 => exact List.nil_sublist _
  | case4 => exact List.Sublist.refl _
  | case5 n row rows hne ih => exact ih.cons_cons row

/-- Every connect request does what it has to. -/
def ReusesSaved (rows : List (ListedRow table)) (s : Ssid table) : Prop :=
  ∀ (identifier i : String) (changes : List (Value × Value)) (psk : Option Value) (isOpen : Bool)
    (log : Log netSig) (result : Except PyError NetworkState),
    Connects table changes s psk isOpen → Path (setState table identifier changes) log result →
    FirstOf IsListing ⟨.exchange i "LIST_NETWORKS", .response (listingReply rows)⟩ log →
    Reuses (fun n => s!"ENABLE_NETWORK {n}") (fun n => s!"SELECT_NETWORK {n}") "ADD_NETWORK"
      (idsOf s.text rows) (psk = none ∧ isOpen = false) (∃ e, result = .error e) (commands log)

/-- Where the listing is not too large, the rows that are read have to decide. -/
theorem reuses_iff (rows : List (ListedRow table)) (s : Ssid table) : ReusesSaved rows s ↔
    if (listingReply rows).size ≤ maxWpaResponse then
      Decides (idsOf s.text rows) (idsOf s.text (readRows maxConfiguredNetworks rows))
    else (idsOf s.text rows).length ≠ 1 := by
  constructor
  · intro hall
    -- A supplicant that answers with this listing shows what the rows decide.
    have hconnects := connectChanges_connects s
    have hpath (isOpen : Bool) := Path.of_follow (listingSupplicant (listingReply rows))
      (setState table "network:wlan0" (connectChanges s.text isOpen))
    have hfirst (isOpen : Bool) := listingSupplicant_lists (hconnects isOpen) (listingReply rows)
    have hreuses (isOpen : Bool) :=
      hall _ _ _ _ _ _ _ (hconnects isOpen) (hpath isOpen) (hfirst isOpen)
    have hchooses (isOpen : Bool) :=
      setState_chooses (hconnects isOpen) (hpath isOpen) (hfirst isOpen)
    split
    · next hsize =>
      have hopen := hchooses true
      have hbare := hchooses false
      rw [if_pos hsize] at hopen hbare
      have hsub :=
        ((readRows_sublist maxConfiguredNetworks rows).filter fun row => row.ssid = s.text).map
        (·.networkId)
      exact .of_chooses hsub ⟨rfl, rfl⟩ ⟨.openSecurity, rfl⟩ hbare hopen (hreuses false)
        (hreuses true)
    · next hsize =>
      have hbare := hchooses false
      rw [if_neg hsize] at hbare
      intro hone
      obtain ⟨n, hn⟩ := List.length_eq_one_iff.mp hone
      rcases (hreuses false).one hn ⟨rfl, rfl⟩ with ⟨heq, -⟩ | heq <;>
        exact absurd (heq.symm.trans hbare.2) (by simp)
  · intro hdecides identifier i changes psk isOpen log result hconnects hpath hfirst
    -- In every run the commands are those that the rows choose.
    have hchooses := setState_chooses hconnects hpath hfirst
    have hadd (n : Nat) : "ADD_NETWORK" ≠ s!"ENABLE_NETWORK {n}" ∧
        "ADD_NETWORK" ≠ s!"SELECT_NETWORK {n}" := by
      have hne {command : String} (h : verb command ≠ "ADD_NETWORK") : "ADD_NETWORK" ≠ command := by
        rintro rfl
        exact h (by decide)
      exact ⟨hne fun h => absurd ((verb_enable n).symm.trans h) (by decide),
        hne fun h => absurd ((verb_select n).symm.trans h) (by decide)⟩
    split at hdecides
    · next hsize =>
      rw [if_pos hsize] at hchooses
      exact .of_chooses hadd hchooses hdecides
    · next hsize =>
      rw [if_neg hsize] at hchooses
      obtain ⟨hfailed, hnil⟩ := hchooses
      exact ⟨fun heq _ => absurd (congrArg List.length heq) hdecides, fun _ => ⟨hfailed, hnil⟩,
        fun hmem => absurd (hnil ▸ hmem) List.not_mem_nil⟩

end Runs

end Network

namespace Native

open Interleave (Log Prog Proc Does does_pure does_bind)

/-! ## The native client -/

/-- The command that a step sends. -/
def sent (x : WifiStep) : Option Bytes :=
  match (x.1 : WifiOp) with
  | .exchange _ command => some command
  | _ => none

/-- The commands of a run besides the query of the configured networks. -/
def commands (log : Log wifiSig) : List Bytes := commandsOf sent [ascii "LIST_NETWORKS"] log

/-- A query of the configured networks. -/
def IsListing (x : WifiStep) : Prop := ∃ i r, x = ⟨.exchange i (ascii "LIST_NETWORKS"), r⟩

/-- A request to connect to a network with an SSID. -/
structure Connects {table : PrintTable} (device : WifiDevice) (changes : List (Bytes × JsonToken))
    (s : Ssid table) (credential : Credential) : Prop where
  action : requestedAction device changes = some (ascii "connect")
  fields : connectRequest changes = some (utf8 s.text, credential)

/-- `connect` once the matches are counted. -/
def connectTo (interface : String) (ssid : Bytes) (credential : Credential) :
    Option Matches → WifiM (Except Refusal (Option Bool))
  | none => return .error .internal
  | some found =>
    if found.count > 1 then return .error .internal
    else if found.count = 1 then
      if credential = .omitted then connectConfigured interface found.networkId
      else return .error .badPayload
    else if credential = .omitted then return .error .badPayload
    else connectNew interface ssid credential

section Choice

variable {table : PrintTable} {interface : String} {g g' : UInt64} {log : Log wifiSig}
  {result : Except Refusal (Option Bool)}

private theorem commands_cons {i : String} {command : Bytes} {r : Option Bytes}
    (h : firstWord command ≠ ascii "LIST_NETWORKS") (log : Log wifiSig) :
    commands (⟨.exchange i command, r⟩ :: log) = command :: commands log := by
  refine commandsOf_cons (show sent ⟨.exchange i command, r⟩ = some command from rfl) ?_ log
  intro hmem
  rw [List.mem_singleton.mp hmem] at h
  exact h (by decide)

private theorem word_enable (n : Int) :
    firstWord (ascii s!"ENABLE_NETWORK {n}") = ascii "ENABLE_NETWORK" := by
  rw [ascii_append, firstWord_append (by decide)]
  decide

private theorem word_select (n : Int) :
    firstWord (ascii s!"SELECT_NETWORK {n}") = ascii "SELECT_NETWORK" := by
  rw [ascii_append, firstWord_append (by decide)]
  decide

/-- The network is enabled and selected, as long as that goes well. -/
theorem connectConfigured_commands {n : Nat} (hn : n ≤ 4095)
    (h : Does (connectConfigured interface n) g log result g') :
    commands log = [ascii s!"ENABLE_NETWORK {n}"] ∧ (∃ e, result = .error e) ∨
      commands log = [ascii s!"ENABLE_NETWORK {n}", ascii s!"SELECT_NETWORK {n}"] := by
  have hfits {start : String} (h : commandFits (ascii start) = true)
      (hlength : (ascii start).length ≤ 100) :
      commandFits (ascii (start ++ toString (n : Int))) = true := commandFits_numbered h hlength hn
  have henable : firstWord (ascii s!"ENABLE_NETWORK {(n : Int)}") ≠ ascii "LIST_NETWORKS" := by
    rw [word_enable]
    decide
  have hselect : firstWord (ascii s!"SELECT_NETWORK {(n : Int)}") ≠ ascii "LIST_NETWORKS" := by
    rw [word_select]
    decide
  obtain ⟨ok, g₁, log₁, log₂, rfl, hok, hrest⟩ := does_bind.mp h
  rcases (wpaOk_does hok).2 with ⟨hbad, -, -⟩ | ⟨r, rfl, -⟩
  · have hyes : commandFits (ascii s!"ENABLE_NETWORK {(n : Int)}") = true :=
      hfits (by decide) (by decide)
    exact absurd (hyes.symm.trans hbad) (by decide)
  · rw [List.singleton_append, commands_cons henable]
    split at hrest
    · right
      obtain ⟨ok', g₂, log₃, log₄, rfl, hok', hpure⟩ := does_bind.mp hrest
      have hnil : log₄ = [] := by
        split at hpure <;> exact (does_pure.mp hpure).1
      rcases (wpaOk_does hok').2 with ⟨hbad, -, -⟩ | ⟨r', rfl, -⟩
      · have hyes : commandFits (ascii s!"SELECT_NETWORK {(n : Int)}") = true :=
          hfits (by decide) (by decide)
        exact absurd (hyes.symm.trans hbad) (by decide)
      · rw [hnil, List.append_nil, commands_cons hselect]
        rfl
    · obtain ⟨rfl, rfl, -⟩ := does_pure.mp hrest
      exact .inl ⟨rfl, _, rfl⟩

/-- What a connect request does with the matches that it has counted. -/
theorem connectTo_chooses {ssid : Bytes} {credential : Credential} {ids : List Nat}
    (hids : ∀ n ∈ ids, n ≤ 4095) {found : Matches}
    (hfound : found = matched (ids.map Int.ofNat) ⟨-1, 0⟩)
    (h : Does (connectTo interface ssid credential (some found)) g log result g') :
    Chooses (fun n => ascii s!"ENABLE_NETWORK {n}") (fun n => ascii s!"SELECT_NETWORK {n}")
      (ascii "ADD_NETWORK") (credential = .omitted) (credential ≠ .omitted)
        (∃ e, result = .error e) ids
      (commands log) := by
  rw [connectTo] at h
  match ids, hids, hfound with
  -- No row has the name: the network is new.
  | [], _, hfound =>
    have hcount : found = ⟨-1, 0⟩ := hfound
    rw [hcount, if_neg (by decide), if_neg (by decide)] at h
    split at h
    · next homitted =>
      obtain ⟨rfl, rfl, -⟩ := does_pure.mp h
      exact .refusedNew (fun hno => hno homitted) ⟨_, rfl⟩
    · next hgiven =>
      obtain ⟨response, g₁, log₁, log₂, rfl, hadd, -⟩ := does_bind.mp h
      rcases (wpaRequest_does hadd).2 with ⟨hbad, -, -⟩ | ⟨r, rfl, -⟩
      · exact absurd hbad (by decide)
      · rw [List.singleton_append, commands_cons (by decide)]
        exact .added hgiven
  -- One row has it: the configured network is selected, and a credential is refused.
  | [n], hids, hfound =>
    have hcount : found = ⟨(n : Int), 1⟩ := hfound
    rw [hcount, if_neg (Nat.lt_irrefl 1), if_pos rfl] at h
    split at h
    · exact .reused (connectConfigured_commands (hids n (List.mem_singleton_self n)) h)
    · next hgiven =>
      obtain ⟨rfl, rfl, -⟩ := does_pure.mp h
      exact .refused hgiven ⟨_, rfl⟩
  -- Several rows have it: nothing is sent.
  | m :: n :: ids, _, hfound =>
    have htwo : matched (ids.map Int.ofNat) ⟨(n : Int), 2⟩ = ⟨(n : Int), 2⟩ := matched_of_two le_rfl
    have hcount : found = ⟨(n : Int), 2⟩ := hfound.trans htwo
    rw [hcount, if_pos Nat.one_lt_two] at h
    obtain ⟨rfl, rfl, -⟩ := does_pure.mp h
    exact .many ⟨_, rfl⟩

variable {device : WifiDevice} {changes : List (Bytes × JsonToken)} {s : Ssid table}
  {credential : Credential} (hconnects : Connects device changes s credential)

include hconnects

/-- `connect` asks for one listing and goes on with its matches. -/
theorem wifiAction_path (h : Does (wifiAction device changes) g log result g') :
    ∃ r rest, log = ⟨.exchange device.name (ascii "LIST_NETWORKS"), r⟩ :: rest ∧
      Does (connectTo device.name (utf8 s.text) credential
        ((r.bind (wpaResponse wpaResponseCapacity)).bind (findMatches (utf8 s.text)))) g rest
          result g' := by
  have hconnect : Does (connect device.name changes) g log result g' := by
    rw [wifiAction, hconnects.action] at h
    dsimp only at h
    rwa [if_neg (by decide), if_neg (by decide), if_neg (by decide), if_pos rfl] at h
  rw [connect, hconnects.fields] at hconnect
  obtain ⟨found, g₁, log₁, log₂, rfl, hlist, hrest⟩ := does_bind.mp hconnect
  obtain ⟨response, g₂, log₃, log₄, rfl, hrequest, hpure⟩ := does_bind.mp hlist
  obtain ⟨rfl, rfl, rfl⟩ := does_pure.mp hpure
  obtain ⟨rfl, hcase⟩ := wpaRequest_does hrequest
  rcases hcase with ⟨hbad, -, -⟩ | ⟨r, rfl, rfl⟩
  · exact absurd hbad (by decide)
  · refine ⟨r, log₂, rfl, ?_⟩
    generalize (r.bind (wpaResponse wpaResponseCapacity)).bind (findMatches (utf8 s.text)) =
      found at *
    cases found <;> exact hrest

/-- What a connect request does with a listing. -/
theorem wifiAction_chooses (row : ListedRow table) (rows : List (ListedRow table)) {i : String}
    (h : Does (wifiAction device changes) g log result g')
    (hfirst : FirstOf IsListing ⟨.exchange i (ascii "LIST_NETWORKS"),
      some (listingReply (row :: rows)).data.toList⟩ log) :
    Chooses (fun n => ascii s!"ENABLE_NETWORK {n}") (fun n => ascii s!"SELECT_NETWORK {n}")
      (ascii "ADD_NETWORK") (credential = .omitted) (credential ≠ .omitted) (∃ e, result = .error e)
      (idsOf s.text (receivedRows listingRoom (row :: rows))) (commands log) := by
  obtain ⟨r, rest, rfl, hrest⟩ := wifiAction_path hconnects h
  have hfirst : FirstOf IsListing _ ([] ++ _ :: rest) := hfirst
  have hsame := hfirst.unique ⟨i, _, rfl⟩ ⟨device.name, r, rfl⟩ fun _ h => nomatch h
  cases hsame
  have hids : ∀ n ∈ idsOf s.text (receivedRows listingRoom (row :: rows)), n ≤ 4095 := by
    intro n hn
    obtain ⟨row', -, rfl⟩ := List.mem_map.mp hn
    exact row'.id_le
  have hlength : (utf8 s.text).length ≤ 128 := by
    have := s.length_le
    rw [length_utf8]
    omega
  rw [Option.bind_some, findMatches_listing s.ne hlength] at hrest
  have hcommands : commands (⟨.exchange device.name (ascii "LIST_NETWORKS"),
      some (listingReply (row :: rows)).data.toList⟩ :: rest) = commands rest := by
    have hlist : commands [⟨.exchange device.name (ascii "LIST_NETWORKS"),
        some (listingReply (row :: rows)).data.toList⟩] = [] := rfl
    rw [← List.singleton_append, commands, commandsOf_append, ← commands, ← commands, hlist]
    rfl
  rw [hcommands]
  exact connectTo_chooses hids rfl hrest

end Choice

/-! ### Runs on a listing -/

/-- A supplicant that answers `LIST_NETWORKS` with some bytes and fails otherwise. -/
def listingSupplicant (data : Bytes) : (o : WifiOp) → o.Ret
  | .exchange _ command => if command = ascii "LIST_NETWORKS" then some data else none
  | o => supplicant o

/-- A JSON string. -/
def quoted (text : Bytes) : JsonToken :=
  .string (text.flatMap fun b => if b = 0x22 ∨ b = 0x5c then [0x5c, b] else [b])

/-- A request to connect to a network without a PSK. -/
def connectChanges (s : List Char) (isOpen : Bool) : List (Bytes × JsonToken) :=
  [(ascii "action", .string (ascii "connect")), (ascii "ssid", quoted (utf8 s))] ++
    if isOpen then [(ascii "security", .string (ascii "open"))] else []

section Runs

variable {table : PrintTable}

private theorem copyFrom_quoted {text : Bytes} (output : Bytes) (htext : ∀ b ∈ text, 0x20 ≤ b.toNat)
    (hlength : output.length + text.length ≤ 32) :
    copyFrom (fun e => if e = 0x22 ∨ e = 0x5c ∨ e = 0x2f then some e else none)
      (fun value position =>
        decide (0x20 ≤ value) && decide (position < 32) && decide (position + 1 < 129))
      (text.flatMap fun b => if b = 0x22 ∨ b = 0x5c then [0x5c, b] else [b]) output =
      some (output ++ text) := by
  induction text generalizing output with
  | nil => simp [copyFrom]
  | cons b text ih =>
    rw [List.forall_mem_cons] at htext
    rw [List.length_cons] at hlength
    have haccepts :
        (decide (0x20 ≤ b) && decide (output.length < 32) && decide (output.length + 1 < 129)) =
        true := by
      have hb : 0x20 ≤ b := UInt8.le_iff_toNat_le.mpr htext.1
      simp only [Bool.and_eq_true, decide_eq_true_eq]
      exact ⟨⟨hb, by omega⟩, by omega⟩
    have hrest := ih (output ++ [b]) htext.2 (by simp; omega)
    rw [List.flatMap_cons]
    by_cases hquote : b = 0x22 ∨ b = 0x5c
    · have hescaped : (if b = 0x22 ∨ b = 0x5c ∨ b = 0x2f then some b else none) = some b :=
        if_pos (hquote.imp_right .inl)
      rw [if_pos hquote, List.cons_append, List.singleton_append, copyFrom, hescaped]
      dsimp only
      rw [haccepts, if_pos rfl, hrest]
      simp
    · rw [if_neg hquote, List.singleton_append, copyFrom]
      · rw [haccepts, if_pos rfl, hrest]
        simp
      · exact fun heq _ => hquote (.inr heq)
      · exact fun e rest heq _ => hquote (.inr heq)

theorem copyUtf8String_quoted (s : Ssid table) :
    copyUtf8String (quoted (utf8 s.text)) 129 32 = some (utf8 s.text) := by
  have hbytes := utf8_printable s.printable
  have hlength : (utf8 s.text).length ≤ 32 := by
    rw [length_utf8]
    exact s.length_le
  have hne : utf8 s.text ≠ [] := by
    intro hnil
    rw [utf8, List.flatMap_eq_nil_iff] at hnil
    obtain ⟨c, hc⟩ := List.exists_mem_of_ne_nil s.text s.ne
    exact String.utf8EncodeChar_ne_nil (hnil c hc)
  have hcopy := copyFrom_quoted [] (fun b hb => (hbytes b hb).1) (by simpa using hlength)
  rw [List.nil_append] at hcopy
  rw [quoted, copyUtf8String, hcopy, Option.filter_some, if_pos]
  rw [Bool.and_eq_true, sequencesFrom_encode (fun _ _ => rfl) le_rfl]
  exact ⟨rfl, by simp [hne]⟩

/-- A Wi-Fi interface that takes actions. -/
def wifiDevice : WifiDevice := ⟨"wlan0", true, true, true⟩

theorem connectChanges_connects (s : Ssid table) (isOpen : Bool) :
    Connects wifiDevice (connectChanges s.text isOpen) s
      (if isOpen then .openSecurity else .omitted) where
  action := by
    have hfields : objectValidateFields (connectChanges s.text isOpen)
        ["action", "ssid", "psk", "network_id", "security"] = true := by
      cases isOpen <;> rfl
    have haction : objectField (connectChanges s.text isOpen) "action" =
        some (.string (ascii "connect")) := by
      cases isOpen <;> rfl
    rw [requestedAction, hfields, haction]
    rfl
  fields := by
    have hssid : objectField (connectChanges s.text isOpen) "ssid" =
        some (quoted (utf8 s.text)) := by
      cases isOpen <;> rfl
    rw [connectRequest, hssid, Option.bind_some, copyUtf8String_quoted]
    cases isOpen <;> rfl

/-- The request comes to the listing. -/
theorem listingSupplicant_lists {s : Ssid table} {changes : List (Bytes × JsonToken)}
    {credential : Credential} (hconnects : Connects wifiDevice changes s credential)
    (data : Bytes) :
    FirstOf IsListing ⟨.exchange "wlan0" (ascii "LIST_NETWORKS"), some data⟩
      ((wifiAction wifiDevice changes).follow (listingSupplicant data) 0).2 := by
  let program := wifiAction wifiDevice changes
  have hdoes := Does.of_follow (listingSupplicant data) program 0
  obtain ⟨r, rest, hlog, -⟩ := wifiAction_path hconnects hdoes
  have hr : r = some data := by
    have hmem : (⟨.exchange "wlan0" (ascii "LIST_NETWORKS"), r⟩ : WifiStep) ∈
        ((program 0).follow (listingSupplicant data)).2 := by
      rw [← Proc.follow_log, hlog]
      exact List.mem_cons_self
    exact (program 0).follow_answers (listingSupplicant data) _ hmem
  refine ⟨[], rest, ?_, fun _ h => nomatch h⟩
  rw [List.nil_append, ← hr]
  exact hlog

/-- The rows that are received are some of the listed ones. -/
theorem receivedRows_sublist (room : Nat) (rows : List (ListedRow table)) :
    (receivedRows room rows).Sublist rows := by
  fun_induction receivedRows room rows with
  | case1 => exact List.nil_sublist _
  | case2 room row rows hfits ih => exact ih.cons_cons row
  | case3 => exact List.nil_sublist _

/-- Every connect request does what it has to. -/
def ReusesSaved (rows : List (ListedRow table)) (s : Ssid table) : Prop :=
  ∀ (device : WifiDevice) (i : String)
    (changes : List (Bytes × JsonToken)) (credential : Credential)
    (g g' : UInt64) (log : Log wifiSig) (result : Except Refusal (Option Bool)),
    Connects device changes s credential → Does (wifiAction device changes) g log result g' →
    FirstOf IsListing ⟨.exchange i (ascii "LIST_NETWORKS"), some (listingReply rows).data.toList⟩
      log →
    Reuses (fun n => ascii s!"ENABLE_NETWORK {n}") (fun n => ascii s!"SELECT_NETWORK {n}")
      (ascii "ADD_NETWORK") (idsOf s.text rows) (credential = .omitted) (∃ e, result = .error e)
      (commands log)

/-- The rows within the buffer have to decide. -/
theorem reuses_iff (rows : List (ListedRow table)) (s : Ssid table) : ReusesSaved rows s ↔
    Decides (idsOf s.text rows) (idsOf s.text (receivedRows listingRoom rows)) := by
  cases rows with
  | nil =>
    refine iff_of_true (fun _ _ _ _ _ _ _ _ _ _ _ => ?_) (.inl rfl)
    exact ⟨fun h _ => absurd h.symm (List.cons_ne_nil _ _), fun h => absurd h (by simp [idsOf]),
      fun _ => rfl⟩
  | cons row rows =>
    constructor
    · intro hall
      have hconnects := connectChanges_connects s
      have hdoes (isOpen : Bool) := Does.of_follow
        (listingSupplicant (listingReply (row :: rows)).data.toList)
        (wifiAction wifiDevice (connectChanges s.text isOpen)) 0
      have hfirst (isOpen : Bool) :=
        listingSupplicant_lists (hconnects isOpen) (listingReply (row :: rows)).data.toList
      have hreuses (isOpen : Bool) :=
        hall _ _ _ _ _ _ _ _ (hconnects isOpen) (hdoes isOpen) (hfirst isOpen)
      have hchooses (isOpen : Bool) :=
        wifiAction_chooses (hconnects isOpen) row rows (hdoes isOpen) (hfirst isOpen)
      have hsub := ((receivedRows_sublist listingRoom (row :: rows)).filter
        fun row => row.ssid = s.text).map (·.networkId)
      exact .of_chooses hsub rfl (by rintro ⟨⟩) (hchooses false) (hchooses true) (hreuses false)
        (hreuses true)
    · intro hdecides device i changes credential g g' log result hconnects hdoes hfirst
      refine .of_chooses (fun n => ?_) (wifiAction_chooses hconnects row rows hdoes hfirst) hdecides
      have hne {command : Bytes} (h : firstWord command ≠ ascii "ADD_NETWORK") :
          ascii "ADD_NETWORK" ≠ command := by
        rintro rfl
        exact h (by decide)
      have henable := word_enable (n : Int)
      have hselect := word_select (n : Int)
      exact ⟨hne fun h => absurd (henable.symm.trans h) (by decide),
        hne fun h => absurd (hselect.symm.trans h) (by decide)⟩

end Runs

end Native

/-! ## Both clients -/

/-- Every connect request of a client does what it has to exactly where the rows that the
    client reads of the listing decide. -/
theorem connect_reuses (table : PrintTable) (rows : List (ListedRow table)) (s : Ssid table) :
    (Network.ReusesSaved rows s ↔
      if (listingReply rows).size ≤ Network.maxWpaResponse then
        Decides (idsOf s.text rows)
          (idsOf s.text (Network.readRows Network.maxConfiguredNetworks rows))
      else (idsOf s.text rows).length ≠ 1) ∧
    (Native.ReusesSaved rows s ↔
      Decides (idsOf s.text rows) (idsOf s.text (Native.receivedRows Native.listingRoom rows))) :=
  ⟨Network.reuses_iff rows s, Native.reuses_iff rows s⟩

/-- A row of a network that is not in use. -/
def sampleRow (n : Fin 4096) (home : Bool) : ListedRow Python.Text.asciiTable where
  networkId := n
  ssid := if home then "Home".toList else "Office".toList
  bssid := "any".toList
  flags := "[DISABLED]".toList
  id_le := by omega
  ssid_printable := by cases home <;> rfl
  bssid_printable := by rfl
  flags_printable := by rfl
  bssid_word := by decide
  flags_word := by decide

/-- Sixteen networks and one with the SSID that is asked for. -/
def sampleRows : List (ListedRow Python.Text.asciiTable) :=
  (List.finRange 17).map fun n => sampleRow (n.castLE (by decide)) (n == 16)

/-- The SSID that is asked for. -/
def sampleSsid : Ssid Python.Text.asciiTable := ⟨"Home".toList, by rfl, by decide, by decide⟩

/-- The only network with the SSID is the seventeenth: the Python client does not read it. -/
theorem seventeenth_not_reused :
    ¬ ∀ (table : PrintTable) (rows : List (ListedRow table)) (s : Ssid table),
    Network.ReusesSaved rows s ∧ Native.ReusesSaved rows s := by
  intro hall
  have hsize : (listingReply sampleRows).size ≤ Network.maxWpaResponse := by decide +kernel
  have hread : ¬ Decides (idsOf sampleSsid.text sampleRows)
      (idsOf sampleSsid.text (Network.readRows Network.maxConfiguredNetworks sampleRows)) := by
    decide +kernel
  have hreuses := (hall Python.Text.asciiTable sampleRows sampleSsid).1
  rw [Network.reuses_iff, if_pos hsize] at hreuses
  exact hread hreuses

end MsysHal
