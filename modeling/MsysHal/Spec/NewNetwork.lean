import MsysHal.Spec.Network

/-!
# A new network of the Python client

A new network is added, set up by three or four commands, and saved. `Dialogue` says
which steps of a client add a network, mention it, remove it and save the
configuration, and `Tidy` what must hold of them: a request that fails has removed the
network, as the last thing about it, and saved nothing; one that succeeds has not
removed it.

## Key results

- `setUpOrRemove_path`: a set-up that fails ends with the removal
- `setState_connectNew`: a request that adds a network ends in `connectNew`
- `setState_tidy_iff`: when a request that adds a network is tidy
-/

namespace MsysHal

/-- What the steps of a wpa_supplicant client are to a network. -/
structure Dialogue (E : Type) where
  adds : Nat → E → Prop
  mentions : Nat → E → Prop
  removes : Nat → E → Prop
  saves : E → Prop

/-- The steps of a request that has added the network `n`. -/
structure Dialogue.Tidy {E : Type} (D : Dialogue E) (n : Nat) (log : List E) (failed : Prop) :
    Prop where
  removed (h : failed) : ∃ before x after, log = before ++ x :: after ∧ D.removes n x ∧
    ∀ y ∈ after, ¬ D.mentions n y
  unsaved (h : failed) : ∀ x ∈ log, ¬ D.saves x
  kept (h : ¬ failed) : ∀ x ∈ log, ¬ D.removes n x

/-- A failed request is tidy if it ends with the removal and has saved nothing. -/
theorem Dialogue.Tidy.of_removal {E : Type} {D : Dialogue E} {n : Nat} {log : List E} {x : E}
    {failed : Prop} (hfailed : failed) (hx : D.removes n x)
    (hsaves : ∀ y ∈ log ++ [x], ¬ D.saves y) :
    D.Tidy n (log ++ [x]) failed where
  removed _ := ⟨log, x, [], rfl, hx, fun _ hy => nomatch hy⟩
  unsaved _ := hsaves
  kept h := absurd hfailed h

namespace Network

open Interleave (Prog Issues Path Log)
open Python (Value)
open Python.Text (PrintTable)

/-- A step of the backend with its answer. -/
abbrev Step : Type := (o : NetOp) × o.Ret

/-- The steps of the Python backend. -/
def dialogue : Dialogue Step where
  adds n x := ∃ i r text, x = ⟨.exchange i "ADD_NETWORK", r⟩ ∧ Replied r text ∧
  addedId text = some n
  mentions n x := ∃ i c r, x = ⟨.exchange i c, r⟩ ∧ (toString n).toList ∈ c.toList.splitOn ' '
  removes n x := ∃ i r, x = ⟨.exchange i s!"REMOVE_NETWORK {n}", r⟩
  saves x := ∃ i r, x = ⟨.exchange i "SAVE_CONFIG", r⟩ ∧ Replied r "OK".toList

/-- Saving is answered, and whenever the interfaces are listed the requested one is there. -/
def Finishes (identifier : String) (log : Log netSig) : Prop :=
  (∀ i r, (⟨.exchange i "SAVE_CONFIG", r⟩ : Step) ∈ log → ∃ text, Replied r text) ∧
  ∀ name items, deviceName identifier "network" = .ok name → (⟨.entries, items⟩ : Step) ∈ log →
    name ∈ entryNames items

/-! ## Sorts of steps -/

/-- The commands that set a network up. -/
def IsSetUp (o : NetOp) : Prop :=
  ∃ i c, o = .exchange i c ∧ verb c ∈ ["SET_NETWORK", "ENABLE_NETWORK", "SELECT_NETWORK"]

/-- A step that reads the state of an interface. -/
def IsQuery (o : NetOp) : Prop :=
  o ≠ .entries ∧ Sends (· ∈ ["STATUS", "SCAN_RESULTS", "LIST_NETWORKS"]) o

theorem isQuery_allows : AllowsQueries IsQuery where
  read {o} h := by
    have hsends : AllowsQueries (Sends (· ∈ ["STATUS", "SCAN_RESULTS", "LIST_NETWORKS"])) :=
      .of_commands (by decide) (by decide) (by decide)
    refine ⟨?_, hsends.read h⟩
    rintro rfl
    exact h.elim
  available _ := ⟨nofun, fun _ _ h => nomatch h⟩
  status _ := ⟨nofun, sends_exchange (by decide)⟩
  scan _ := ⟨nofun, sends_exchange (by decide)⟩
  list _ := ⟨nofun, sends_exchange (by decide)⟩

theorem verb_remove (n : Nat) : verb s!"REMOVE_NETWORK {n}" = "REMOVE_NETWORK" :=
  (verb_append (by decide) (toString n)).trans (by decide)

theorem verb_enable (n : Nat) : verb s!"ENABLE_NETWORK {n}" = "ENABLE_NETWORK" :=
  (verb_append (by decide) (toString n)).trans (by decide)

theorem verb_select (n : Nat) : verb s!"SELECT_NETWORK {n}" = "SELECT_NETWORK" :=
  (verb_append (by decide) (toString n)).trans (by decide)

private theorem verb_set (rest : String) : verb ("SET_NETWORK " ++ rest) = "SET_NETWORK" :=
  (verb_append (by decide) rest).trans (by decide)

theorem verb_setSsid (n : Nat) (value : String) :
    verb s!"SET_NETWORK {n} ssid {value}" = "SET_NETWORK" := by
  simp only [toString, String.append_assoc]
  exact verb_set _

theorem verb_setPsk (n : Nat) (value : String) :
    verb s!"SET_NETWORK {n} psk {value}" = "SET_NETWORK" := by
  simp only [toString, String.append_assoc]
  exact verb_set _

theorem verb_setOpen (n : Nat) : verb s!"SET_NETWORK {n} key_mgmt NONE" = "SET_NETWORK" := by
  simp only [toString, String.append_assoc]
  exact verb_set _

/-- Neither saves the configuration nor removes a network. -/
def Plain (o : NetOp) : Prop :=
  ∀ i c, o = .exchange i c → verb c ≠ "SAVE_CONFIG" ∧ verb c ≠ "REMOVE_NETWORK"

theorem Plain.not_saves {x : Step} (h : Plain x.1) : ¬ dialogue.saves x := by
  rintro ⟨i, r, rfl, -⟩
  exact (h i "SAVE_CONFIG" rfl).1 (by decide)

theorem Plain.not_removes {n : Nat} {x : Step} (h : Plain x.1) : ¬ dialogue.removes n x := by
  rintro ⟨i, r, rfl⟩
  exact (h i _ rfl).2 (verb_remove n)

theorem Plain.of_sends {commands : List String}
    (h : ∀ c ∈ commands, verb c ≠ "SAVE_CONFIG" ∧ verb c ≠ "REMOVE_NETWORK") {o : NetOp}
    (ho : Sends (· ∈ commands) o) : Plain o := fun i c heq => h c (ho i c heq)

theorem Plain.of_setUp {o : NetOp} (h : IsSetUp o) : Plain o := by
  obtain ⟨i, c, rfl, hverb⟩ := h
  intro i' c' heq
  cases heq
  constructor <;> intro hc <;> rw [hc] at hverb <;> exact absurd hverb (by decide)

theorem Plain.of_query {o : NetOp} (h : IsQuery o) : Plain o :=
  .of_sends (by decide) h.2

/-! ## Setting up -/

theorem setUpNetwork_issues (interface : String) (n : Nat) (ssid : List Char)
    (credential : Credential) : Issues IsSetUp (setUpNetwork interface n ssid credential) := by
  have hok {command : String} (operation name : String) (hverb : verb command = name)
      (hname : name ∈ ["SET_NETWORK", "ENABLE_NETWORK", "SELECT_NETWORK"]) :
      Issues IsSetUp (requestOk interface command operation) :=
    requestOk_issues ⟨interface, command, rfl, hverb ▸ hname⟩
  refine (hok _ _ (verb_setSsid n _) (by decide)).bind fun _ => ?_
  have hrest (u : Unit) : Issues IsSetUp (do
      requestOk interface s!"ENABLE_NETWORK {n}" "enable network"
      requestOk interface s!"SELECT_NETWORK {n}" "select network") :=
    (hok _ _ (verb_enable n) (by decide)).bind fun _ => hok _ _ (verb_select n) (by decide)
  cases credential with
  | openSecurity => exact (hok _ _ (verb_setOpen n) (by decide)).bind hrest
  | psk psk => exact (hok _ _ (verb_setPsk n _) (by decide)).bind hrest

/-- A set-up that fails ends with the removal. -/
theorem setUpOrRemove_path {interface : String} {n : Nat} {ssid : List Char}
    {credential : Credential}
    (hi : matchesEntry interface.toList = true) (hn : n ≤ 4095) {log : Log netSig}
    {result : Except PyError Unit}
    (h : Path (setUpOrRemove interface n ssid credential) log result) :
    (result = .ok () ∧ ∀ x ∈ log, IsSetUp x.1) ∨
    ∃ e before r, result = .error e ∧ log =
      before ++ [⟨.exchange interface s!"REMOVE_NETWORK {n}", r⟩] ∧ ∀ x ∈ before, IsSetUp x.1 := by
  obtain ⟨done, log₁, log₂, rfl, hset, hrest⟩ := Path.of_attempt_bind h
  have hissued := Path.issues (setUpNetwork_issues interface n ssid credential) hset
  cases done with
  | ok u =>
    obtain ⟨rfl, rfl⟩ := Path.of_pure hrest
    rw [List.append_nil]
    exact .inl ⟨rfl, hissued⟩
  | error e =>
    obtain ⟨removed, log₃, log₄, rfl, hremove, hraise⟩ := Path.of_attempt_bind hrest
    have hvalid : commandValid s!"REMOVE_NETWORK {n}" = true :=
      commandValid_numbered (by decide) (by decide) hn
    obtain ⟨r, rfl, -⟩ := request_path hi hvalid hremove
    cases hraise
    exact .inr ⟨e, log₁, r, rfl, rfl, hissued⟩

/-! ## A new network -/

theorem addedId_le {reply : List Char} {n : Nat} (h : addedId reply = some n) : n ≤ 4095 := by
  rw [addedId] at h
  split at h
  · exact nomatch h
  · next hvalid =>
    rw [Option.some.injEq] at h
    simp only [Bool.or_eq_true, decide_eq_true_eq, not_or] at hvalid
    omega

/-- How `connectNew` goes on once the network is added. -/
inductive Ending (table : PrintTable) (interface : String) (n : Nat) :
    Log netSig → Except PyError NetworkState → Prop where
  | removed {before : Log netSig} {r : Exchange} {e : PyError} (h : ∀ x ∈ before, IsSetUp x.1) :
    Ending table interface n (before ++ [⟨.exchange interface s!"REMOVE_NETWORK {n}", r⟩])
      (.error e)
  | unanswered {before : Log netSig} {r : Exchange} {e : PyError} (h : ∀ x ∈ before, IsSetUp x.1)
    (hr : ∀ text, ¬ Replied r text) :
    Ending table interface n (before ++ [⟨.exchange interface "SAVE_CONFIG", r⟩]) (.error e)
  | gone {before : Log netSig} {r : Exchange} {items : Option (List DirEntry)} {e : PyError}
    (h : ∀ x ∈ before, IsSetUp x.1) (hitems : interface ∉ entryNames items) :
    Ending table interface n
      (before ++ [⟨.exchange interface "SAVE_CONFIG", r⟩, ⟨.entries, items⟩]) (.error e)
  | done {before after : Log netSig} {r : Exchange} {items : Option (List DirEntry)}
      {text : List Char}
    {state : NetworkState} (h : ∀ x ∈ before, IsSetUp x.1) (hr : Replied r text)
    (hitems : interface ∈ entryNames items) (hafter : ∀ x ∈ after, IsQuery x.1) :
    Ending table interface n
      (before ++ ⟨.exchange interface "SAVE_CONFIG", r⟩ :: ⟨.entries, items⟩ :: after) (.ok state)

private theorem finishState_ending {table : PrintTable} {identifier interface : String} {n : Nat}
    (hname : deviceName identifier "network" = .ok interface) {before log : Log netSig}
    {r : Exchange}
    {text : List Char} {persisted : Option Bool} {result : Except PyError NetworkState}
    (hbefore : ∀ x ∈ before, IsSetUp x.1) (hr : Replied r text)
    (h : Path (finishState table identifier persisted) log result) :
    Ending table interface n (before ++ ⟨.exchange interface "SAVE_CONFIG", r⟩ :: log) result := by
  obtain ⟨items, log', rfl, hcase⟩ := finishState_path hname h
  rcases hcase with ⟨hmem, state, state', hstate, rfl⟩ | ⟨hmem, rfl, e, rfl⟩
  · exact .done hbefore hr hmem (Path.issues (stateOf_issues isQuery_allows table interface) hstate)
  · exact .gone hbefore hmem

theorem connectNew_path {table : PrintTable} {identifier interface : String} {ssid : List Char}
    {credential : Credential} (hname : deviceName identifier "network" = .ok interface)
    {log : Log netSig} {result : Except PyError NetworkState}
    (h : Path (connectNew table identifier interface ssid credential) log result) :
    ∃ r rest, log = ⟨.exchange interface "ADD_NETWORK", r⟩ :: rest ∧
      ((∃ text n, Replied r text ∧ addedId text = some n ∧ Ending table interface n rest result) ∨
        rest = [] ∧ ∀ text n, Replied r text → addedId text ≠ some n) := by
  have hi := matchesEntry_of_deviceName hname
  rcases Path.of_bind h with ⟨e, rfl, hadd⟩ | ⟨text, log₁, log₂, rfl, hadd, hrest⟩
  -- ADD_NETWORK gets no answer.
  · obtain ⟨r, rfl, hr⟩ := request_path hi (by decide) hadd
    refine ⟨r, [], rfl, .inr ⟨rfl, fun text n hreplied => ?_⟩⟩
    rw [exchanged_ok_iff.mpr hreplied] at hr
    exact nomatch hr
  · obtain ⟨r, rfl, hr⟩ := request_path hi (by decide) hadd
    have hreplied := exchanged_ok_iff.mp hr.symm
    refine ⟨r, log₂, rfl, ?_⟩
    cases hn : addedId text with
    -- The answer is no number, and nothing was added.
    | none =>
      rw [hn] at hrest
      cases hrest
      refine .inr ⟨rfl, fun text' n hreplied' => ?_⟩
      have heq : exchanged interface r = .ok text' := exchanged_ok_iff.mpr hreplied'
      rw [← hr, Except.ok.injEq] at heq
      rw [← heq, hn]
      exact nofun
    | some n =>
      rw [hn] at hrest
      refine .inl ⟨text, n, hreplied, hn, ?_⟩
      -- The set-up fails and is undone, or it is followed by SAVE_CONFIG.
      rcases Path.of_bind hrest with ⟨e, rfl, hset⟩ | ⟨u, log₃, log₄, rfl, hset, hsave⟩
      · rcases setUpOrRemove_path hi (addedId_le hn) hset with ⟨heq, -⟩ | ⟨e', before,
          r', -, rfl, hb⟩
        · exact nomatch heq
        · exact .removed hb
      · rcases setUpOrRemove_path hi (addedId_le hn) hset with ⟨-, hb⟩ | ⟨e', before, r', heq, -, -⟩
        · rcases Path.of_bind hsave with ⟨e, rfl, hraise⟩ | ⟨saved, log₅, log₆, rfl,
            hreply, hfinish⟩
          · obtain ⟨r', rfl, hr'⟩ := request_path hi (by decide) hraise
            refine .unanswered hb fun text' hreplied' => ?_
            rw [exchanged_ok_iff.mpr hreplied'] at hr'
            exact nomatch hr'
          · obtain ⟨r', rfl, hr'⟩ := request_path hi (by decide) hreply
            exact finishState_ending hname hb (exchanged_ok_iff.mp hr'.symm) hfinish
        · exact nomatch heq

/-! ## Requests that add a network -/

/-- The steps before a network is added: one listing of the interfaces, with the requested
    one, and nothing sent but the query of the configured networks. -/
structure Opening (name : String) (before : Log netSig) : Prop where
  sends : ∀ x ∈ before, Sends (· = "LIST_NETWORKS") x.1
  listed : ∀ items, (⟨.entries, items⟩ : Step) ∈ before → name ∈ entryNames items

/-- Adds no network. -/
private def NoAdd : NetOp → Prop := Sends (· ≠ "ADD_NETWORK")

private theorem noAdd_allows : AllowsQueries NoAdd :=
  .of_commands (by decide) (by decide) (by decide)

private theorem not_adds {n : Nat} {log : Log netSig} (h : ∀ x ∈ log, NoAdd x.1) :
    ¬ ∃ x ∈ log, dialogue.adds n x := by
  rintro ⟨x, hx, i, r, text, rfl, -⟩
  exact h _ hx i "ADD_NETWORK" rfl rfl

private theorem noAdd_finish (table : PrintTable) (identifier : String) (persisted : Option Bool) :
    Issues NoAdd (finishState table identifier persisted) :=
  finishState_issues noAdd_allows (fun _ _ h => nomatch h) table identifier persisted

private theorem noAdd_request {interface command : String} (h : command ≠ "ADD_NETWORK") :
    Issues NoAdd (request interface command) := request_issues (sends_exchange h)

private theorem noAdd_requestOk {interface command operation : String}
    (h : verb command ≠ "ADD_NETWORK") : Issues NoAdd (requestOk interface command operation) := by
  refine requestOk_issues (sends_exchange fun heq => h ?_)
  rw [heq]
  decide

private theorem connectConfigured_noAdd (table : PrintTable) (identifier interface : String)
    (n : Nat) : Issues NoAdd (connectConfigured table identifier interface n) :=
  (noAdd_requestOk (by rw [verb_enable]; decide)).bind fun _ =>
    (noAdd_requestOk (by rw [verb_select]; decide)).bind fun _ => noAdd_finish table identifier _

private theorem forget_noAdd (table : PrintTable) (identifier interface : String)
    (changes : List (Value × Value)) : Issues NoAdd
      (forget table identifier interface changes) := by
  rw [forget]
  split
  · exact fail_issues _
  · split
    · exact fail_issues _
    · refine (configured_issues noAdd_allows table interface).bind fun rows => ?_
      refine (check_issues _).bind fun rows => ?_
      split
      · next row =>
        refine (noAdd_requestOk (by rw [verb_remove]; decide)).bind fun _ => ?_
        exact (noAdd_request (by decide)).bind fun _ => noAdd_finish table identifier _
      · exact fail_issues _

private theorem trigger_noAdd (table : PrintTable) (identifier interface action : String)
    {command : String} (changes : List (Value × Value)) (h : verb command ≠ "ADD_NETWORK") :
    Issues NoAdd (trigger table identifier interface action command changes) := by
  rw [trigger]
  split
  · exact fail_issues _
  · exact (noAdd_requestOk h).bind fun _ => noAdd_finish table identifier _

/-- A step of the opening besides the listing of the interfaces. -/
private def IsLookup (o : NetOp) : Prop := o ≠ .entries ∧ Sends (· = "LIST_NETWORKS") o

private theorem IsLookup.of_read {o : NetOp} (h : IsRead o) : IsLookup o := by
  constructor
  · rintro rfl
    exact h.elim
  · rintro i c rfl
    exact h.elim

private theorem Opening.of_lookups {name : String} {items : Option (List DirEntry)}
    {log : Log netSig} (hmem : name ∈ entryNames items) (h : ∀ x ∈ log, IsLookup x.1) :
    Opening name (⟨.entries, items⟩ :: log) where
  sends x hx := by
    rcases List.mem_cons.mp hx with rfl | hx
    · exact fun _ _ h => nomatch h
    · exact (h x hx).2
  listed items' hx := by
    rcases List.mem_cons.mp hx with heq | hx
    · cases heq
      exact hmem
    · exact absurd rfl (h _ hx).1

/-- A connect request that adds a network has found none with the SSID. -/
private theorem connect_connectNew {table : PrintTable} {identifier name : String}
    {changes : List (Value × Value)} {log : Log netSig} {result : Except PyError NetworkState}
    (h : Path (connect table identifier name changes) log result)
    (hadds : ¬ ∀ x ∈ log, NoAdd x.1) : ∃ before rest ssid credential, log = before ++ rest ∧
      (∀ x ∈ before, IsLookup x.1) ∧
      Path (connectNew table identifier name ssid credential) rest result := by
  rcases Path.of_bind h with ⟨e, -, hcheck⟩ | ⟨fields, log₁, log₂, rfl, hcheck, hssid⟩
  · obtain ⟨rfl, -⟩ := Path.of_ofExcept hcheck
    exact absurd (fun x hx => nomatch hx) hadds
  · obtain ⟨rfl, -⟩ := Path.of_ofExcept hcheck
    rw [List.nil_append] at hadds ⊢
    rcases Path.of_bind hssid with ⟨e, -, hcheck'⟩ | ⟨ssid, log₃, log₄, rfl, hcheck', hrows⟩
    · obtain ⟨rfl, -⟩ := Path.of_ofExcept hcheck'
      exact absurd (fun x hx => nomatch hx) hadds
    · obtain ⟨rfl, -⟩ := Path.of_ofExcept hcheck'
      rw [List.nil_append] at hadds ⊢
      -- The listing is a lookup.
      have hlist (P : NetOp → Prop) (hP : P (.exchange name "LIST_NETWORKS")) :
          Issues P (configured table name) := (request_issues hP).bind fun _ => check_issues _
      have hnoAdd : Issues NoAdd (configured table name) := hlist _ (sends_exchange (by decide))
      rcases Path.of_bind hrows with ⟨e, -, hconf⟩ | ⟨rows, log₅, log₆, rfl, hconf, hgo⟩
      · exact absurd (Path.issues hnoAdd hconf) hadds
      · have hlookup : IsLookup (.exchange name "LIST_NETWORKS") := ⟨nofun, sends_exchange rfl⟩
        have hbefore := Path.issues (hlist IsLookup hlookup) hconf
        have hrest (hno : ∀ x ∈ log₆, NoAdd x.1) : False := hadds fun x hx =>
          (List.mem_append.mp hx).elim (Path.issues hnoAdd hconf x) (hno x)
        split at hgo
        -- No row has the name, so the network is new.
        · rcases Path.of_bind hgo with ⟨e, -, hcred⟩ | ⟨credential, log₇, log₈, rfl, hcred, hnew⟩
          · obtain ⟨rfl, -⟩ := Path.of_ofExcept hcred
            exact (hrest fun x hx => nomatch hx).elim
          · obtain ⟨rfl, -⟩ := Path.of_ofExcept hcred
            exact ⟨log₅, log₈, ssid, credential, rfl, hbefore, hnew⟩
        -- One row or several: nothing is added.
        · split at hgo
          · exact (hrest (Path.issues (fail_issues _) hgo)).elim
          · exact (hrest (Path.issues (connectConfigured_noAdd table identifier name _) hgo)).elim
        · exact (hrest (Path.issues (fail_issues _) hgo)).elim

/-- A request for a found interface that adds a network is a connect request. -/
private theorem act_connectNew {table : PrintTable} {identifier name : String}
    {kind : InterfaceKind}
    {changes : List (Value × Value)} {log : Log netSig} {result : Except PyError NetworkState}
    (h : Path (if kind ≠ .wifi then fail (readOnly "non-Wi-Fi network interfaces are read-only")
      else do
        if ← op (.available name) then act table identifier name changes
        else fail (.unavailable "wpa_supplicant control is unavailable" [("id", .str identifier)]))
      log result)
    (hadds : ¬ ∀ x ∈ log, NoAdd x.1) : ∃ before rest ssid credential, log = before ++ rest ∧
      (∀ x ∈ before, IsLookup x.1) ∧
      Path (connectNew table identifier name ssid credential) rest result := by
  split at h
  · exact absurd (Path.issues (fail_issues _) h) hadds
  · obtain ⟨available, log', rfl, hact⟩ := Path.of_perform_bind h
    -- Asking for the socket adds nothing, so the addition is in the action.
    have hfirst : NoAdd (.available name) := fun _ _ h => nomatch h
    have hrest : ¬ ∀ x ∈ log', NoAdd x.1 := fun hno => hadds fun x hx => by
      rcases List.mem_cons.mp hx with rfl | hx
      · exact hfirst
      · exact hno x hx
    split at hact
    · rw [act] at hact
      split at hact
      · exact absurd (Path.issues (trigger_noAdd _ _ _ _ _ (by decide)) hact) hrest
      · exact absurd (Path.issues (trigger_noAdd _ _ _ _ _ (by decide)) hact) hrest
      -- Of all actions only `connect` adds a network.
      · obtain ⟨before, rest, ssid, credential, rfl, hbefore, hnew⟩ := connect_connectNew hact hrest
        refine ⟨_ :: before, rest, ssid, credential, rfl, ?_, hnew⟩
        intro x hx
        rcases List.mem_cons.mp hx with rfl | hx
        · exact ⟨nofun, fun _ _ h => nomatch h⟩
        · exact hbefore x hx
      · exact absurd (Path.issues (forget_noAdd _ _ _ _) hact) hrest
      · exact absurd (Path.issues (fail_issues _) hact) hrest
      · exact absurd (Path.issues (fail_issues _) hact) hrest
      · exact absurd (Path.issues (fail_issues _) hact) hrest
    · exact absurd (Path.issues (fail_issues _) hact) hrest

/-- A request that adds a network ends in `connectNew`. -/
theorem setState_connectNew {table : PrintTable} {identifier : String}
    {changes : List (Value × Value)} {log : Log netSig} {result : Except PyError NetworkState}
    (h : Path (setState table identifier changes) log result) {n : Nat}
    (hadds : ∃ x ∈ log, dialogue.adds n x) :
    ∃ name before rest ssid credential, deviceName identifier "network" = .ok name ∧
      log = before ++ rest ∧ Opening name before ∧
      Path (connectNew table identifier name ssid credential) rest result := by
  have hadds : ¬ ∀ x ∈ log, NoAdd x.1 := fun hno => not_adds hno hadds
  have hfind {log : Log netSig} {result : Except PyError String}
      (h : Path (findEntry identifier) log result) : ∀ x ∈ log, NoAdd x.1 :=
    Path.issues (findEntry_issues (fun _ _ h => nomatch h) identifier) h
  cases hname : deviceName identifier "network" with
  | error e =>
    rcases Path.of_bind h with ⟨e', -, hentry⟩ | ⟨found, log₁, log₂, -, hentry, -⟩
    · exact absurd (hfind hentry) hadds
    · unfold findEntry at hentry
      rw [hname] at hentry
      exact nomatch hentry
  | ok name =>
    rcases Path.of_bind h with ⟨e, -, hentry⟩ | ⟨found, log₁, log₂, rfl, hentry, hkind⟩
    · exact absurd (hfind hentry) hadds
    · obtain ⟨items, rfl, hcase⟩ := findEntry_path hname hentry
      rcases hcase with ⟨hmem, hok⟩ | ⟨-, e, heq⟩
      · cases hok
        rcases Path.of_bind hkind with ⟨e, rfl, hclass⟩ | ⟨kind, log₃, log₄, rfl, hclass, hact⟩
        · obtain ⟨kind, hok⟩ := classifyInterface_returns name _ _ hclass
          exact nomatch hok
        · have hreads := Path.issues (classifyInterface_reads name) hclass
          -- The lookups add nothing, so the addition is in the action.
          have hrest : ¬ ∀ x ∈ log₄, NoAdd x.1 := by
            refine fun hno => hadds fun x hx => ?_
            rcases List.mem_append.mp hx with hx | hx
            · rw [List.mem_singleton.mp hx]
              exact fun _ _ h => nomatch h
            · rcases List.mem_append.mp hx with hx | hx
              · exact noAdd_allows.read (hreads x hx)
              · exact hno x hx
          obtain ⟨before, rest, ssid, credential, rfl, hbefore, hnew⟩ := act_connectNew hact hrest
          have hopening : Opening name (⟨.entries, items⟩ :: (log₃ ++ before)) :=
            .of_lookups hmem fun x hx => (List.mem_append.mp hx).elim
              (fun hx => IsLookup.of_read (hreads x hx)) (hbefore x)
          exact ⟨name, _, rest, ssid, credential, rfl, by simp, hopening, hnew⟩
      · exact nomatch heq

/-! ## Tidiness -/

/-- The steps up to the end of the set-up. -/
private structure Prelude (name : String) (log : Log netSig) : Prop where
  plain : ∀ x ∈ log, Plain x.1
  listed : ∀ items, (⟨.entries, items⟩ : Step) ∈ log → name ∈ entryNames items

private theorem Opening.prelude {name : String} {before setUp : Log netSig} {r : Exchange}
    (h : Opening name before) (hsetUp : ∀ x ∈ setUp, IsSetUp x.1) :
    Prelude name (before ++ ⟨.exchange name "ADD_NETWORK", r⟩ :: setUp) where
  plain x hx := by
    rcases List.mem_append.mp hx with hx | hx
    · have hsends : Sends (· ∈ ["LIST_NETWORKS"]) x.1 := fun i c heq =>
        List.mem_singleton.mpr (h.sends x hx i c heq)
      exact .of_sends (by decide) hsends
    · rcases List.mem_cons.mp hx with rfl | hx
      · have hadd : Sends (· ∈ ["ADD_NETWORK"]) (.exchange name "ADD_NETWORK") :=
          sends_exchange (List.mem_singleton_self _)
        exact Plain.of_sends (by decide) hadd
      · exact .of_setUp (hsetUp x hx)
  listed items hx := by
    rcases List.mem_append.mp hx with hx | hx
    · exact h.listed items hx
    · rcases List.mem_cons.mp hx with heq | hx
      · exact nomatch heq
      · obtain ⟨i, c, heq, -⟩ := hsetUp _ hx
        exact nomatch heq

/-- Without a removal a failed request is not tidy. -/
private theorem not_tidy {n : Nat} {log : Log netSig} {failed : Prop} (hfailed : failed)
    (h : ∀ x ∈ log, ¬ dialogue.removes n x) : ¬ dialogue.Tidy n log failed := by
  intro htidy
  obtain ⟨before, x, after, rfl, hx, -⟩ := htidy.removed hfailed
  exact h x (List.mem_append_right _ List.mem_cons_self) hx

private theorem save_ne_remove (n : Nat) : "SAVE_CONFIG" ≠ s!"REMOVE_NETWORK {n}" := by
  intro h
  have hverb := verb_remove n
  rw [← h] at hverb
  exact absurd hverb (by decide)

private theorem not_removes_save {n : Nat} {i : String} {r : Exchange} :
    ¬ dialogue.removes n ⟨.exchange i "SAVE_CONFIG", r⟩ := by
  rintro ⟨i', r', heq⟩
  injection heq with hop
  injection hop with hi hc
  exact save_ne_remove n hc

private theorem not_saves_remove {n : Nat} {i : String} {r : Exchange} :
    ¬ dialogue.saves ⟨.exchange i s!"REMOVE_NETWORK {n}", r⟩ := by
  rintro ⟨i', r', heq, -⟩
  injection heq with hop
  injection hop with hi hc
  exact save_ne_remove n hc.symm

section Prelude

variable {name : String} {log tail : Log netSig} (h : Prelude name log)

include h

private theorem Prelude.save_mem {i : String} {r : Exchange}
    (hx : (⟨.exchange i "SAVE_CONFIG", r⟩ : Step) ∈ log ++ tail) :
    (⟨.exchange i "SAVE_CONFIG", r⟩ : Step) ∈ tail :=
  (List.mem_append.mp hx).resolve_left fun hmem =>
    (h.plain _ hmem i _ rfl).1 (by decide)

private theorem Prelude.entries_mem {items : Option (List DirEntry)}
    (hx : (⟨.entries, items⟩ : Step) ∈ log ++ tail) (htail : (⟨.entries, items⟩ : Step) ∈ tail →
      name ∈ entryNames items) : name ∈ entryNames items :=
  (List.mem_append.mp hx).elim (h.listed items) htail

private theorem Prelude.not_removes {n : Nat} (htail : ∀ x ∈ tail, ¬ dialogue.removes n x) :
    ∀ x ∈ log ++ tail, ¬ dialogue.removes n x := fun x hx =>
  (List.mem_append.mp hx).elim (fun hx => (h.plain x hx).not_removes) (htail x)

end Prelude

/-- After the set-up: tidy exactly where saving is answered and the interface stays. -/
private theorem ending_tidy {table : PrintTable} {identifier name : String} {n : Nat}
    (hname : deviceName identifier "network" = .ok name) {before rest : Log netSig} {r : Exchange}
    (hopening : Opening name before) {result : Except PyError NetworkState}
    (h : Ending table name n rest result) :
    dialogue.Tidy n (before ++ ⟨.exchange name "ADD_NETWORK", r⟩ :: rest) (∃ e, result = .error e) ↔
      Finishes identifier (before ++ ⟨.exchange name "ADD_NETWORK", r⟩ :: rest) := by
  have hassoc (setUp tail : Log netSig) :
      before ++ (⟨.exchange name "ADD_NETWORK", r⟩ : Step) :: (setUp ++ tail) =
        (before ++ ⟨.exchange name "ADD_NETWORK", r⟩ :: setUp) ++ tail := by simp
  cases h with
  | @removed setUp r' e hsetUp =>
    -- A failure before SAVE_CONFIG removes the network.
    have hprelude := hopening.prelude (r := r) hsetUp
    rw [hassoc]
    refine iff_of_true (.of_removal ⟨e, rfl⟩ ⟨name, r', rfl⟩ fun y hy => ?_)
      ⟨fun i r'' hx => ?_, fun name' items hname' hx => ?_⟩
    · rcases List.mem_append.mp hy with hy | hy
      · exact (hprelude.plain y hy).not_saves
      · exact List.mem_singleton.mp hy ▸ not_saves_remove
    · have heq := List.mem_singleton.mp (hprelude.save_mem hx)
      injection heq with hop
      injection hop with hi hc
      exact absurd hc (save_ne_remove n)
    · rw [hname, Except.ok.injEq] at hname'
      refine hname' ▸ hprelude.entries_mem hx fun htail => ?_
      exact nomatch List.mem_singleton.mp htail
  | @unanswered setUp r' e hsetUp hr =>
    -- SAVE_CONFIG was not answered: the error leaves the network behind.
    have hprelude := hopening.prelude (r := r) hsetUp
    rw [hassoc]
    refine iff_of_false (not_tidy ⟨e, rfl⟩ (hprelude.not_removes fun x hx => ?_)) fun hfinish => ?_
    · exact List.mem_singleton.mp hx ▸ not_removes_save
    · obtain ⟨text, hreplied⟩ :=
        hfinish.1 name r' (List.mem_append_right _ (List.mem_singleton_self _))
      exact hr text hreplied
  | @gone setUp r' items e hsetUp hitems =>
    -- SAVE_CONFIG was answered, but the interface has gone since.
    have hprelude := hopening.prelude (r := r) hsetUp
    rw [hassoc]
    refine iff_of_false (not_tidy ⟨e, rfl⟩ (hprelude.not_removes fun x hx => ?_)) fun hfinish => ?_
    · rcases List.mem_cons.mp hx with rfl | hx
      · exact not_removes_save
      · rw [List.mem_singleton.mp hx]
        rintro ⟨i, r'', heq⟩
        exact nomatch heq
    · exact hitems (hfinish.2 name items hname
        (List.mem_append_right _ (List.mem_cons_of_mem _ (List.mem_singleton_self _))))
  | @done setUp after r' items text state hsetUp hr hitems hafter =>
    -- The answer reports a state, so there is nothing to remove.
    have hprelude := hopening.prelude (r := r) hsetUp
    rw [hassoc]
    refine iff_of_true ⟨nofun, nofun, fun _ => hprelude.not_removes fun x hx => ?_⟩
      ⟨fun i r'' hx => ?_, fun name' items' hname' hx => ?_⟩
    · rcases List.mem_cons.mp hx with rfl | hx
      · exact not_removes_save
      · rcases List.mem_cons.mp hx with rfl | hx
        · rintro ⟨i, r'', heq⟩
          exact nomatch heq
        · exact (Plain.of_query (hafter x hx)).not_removes
    · rcases List.mem_cons.mp (hprelude.save_mem hx) with heq | hx
      · cases heq
        exact ⟨text, hr⟩
      · rcases List.mem_cons.mp hx with heq | hx
        · exact nomatch heq
        · exact absurd (by decide) (Plain.of_query (hafter _ hx) i "SAVE_CONFIG" rfl).1
    · rw [hname, Except.ok.injEq] at hname'
      refine hname' ▸ hprelude.entries_mem hx fun htail => ?_
      rcases List.mem_cons.mp htail with heq | htail
      · exact nomatch heq
      · rcases List.mem_cons.mp htail with heq | htail
        · cases heq
          exact hitems
        · exact absurd rfl (hafter _ htail).1

/-- What follows a network that was added adds none. -/
private theorem ending_noAdd {table : PrintTable} {name : String} {n : Nat} {rest : Log netSig}
    {result : Except PyError NetworkState} (h : Ending table name n rest result) :
    ∀ x ∈ rest, NoAdd x.1 := by
  have hverb {x : Step} (hx : ∀ i c, x.1 = .exchange i c → verb c ≠ "ADD_NETWORK") : NoAdd x.1 := by
    rintro i c heq rfl
    exact hx i _ heq (by decide)
  have hsetUp {setUp : Log netSig} (h : ∀ x ∈ setUp, IsSetUp x.1) : ∀ x ∈ setUp, NoAdd x.1 := by
    refine fun x hx => hverb fun i c heq hc => ?_
    obtain ⟨i', c', heq', hmem⟩ := h x hx
    rw [heq] at heq'
    cases heq'
    rw [hc] at hmem
    exact absurd hmem (by decide)
  have hsave {r : Exchange} : NoAdd (⟨.exchange name "SAVE_CONFIG", r⟩ : Step).1 :=
    sends_exchange (by decide)
  have hentries : NoAdd .entries := fun _ _ h => nomatch h
  cases h with
  | removed h =>
    refine List.forall_mem_append.mpr ⟨hsetUp h, List.forall_mem_singleton.mpr ?_⟩
    exact sends_exchange fun hc => absurd (hc ▸ verb_remove n) (by decide)
  | unanswered h hr =>
    exact List.forall_mem_append.mpr ⟨hsetUp h, List.forall_mem_singleton.mpr hsave⟩
  | gone h hitems =>
    exact List.forall_mem_append.mpr ⟨hsetUp h, List.forall_mem_cons.mpr
      ⟨hsave, List.forall_mem_singleton.mpr hentries⟩⟩
  | done h hr hitems hafter =>
    refine List.forall_mem_append.mpr ⟨hsetUp h, List.forall_mem_cons.mpr
      ⟨hsave, List.forall_mem_cons.mpr ⟨hentries, fun x hx => ?_⟩⟩⟩
    exact fun i c heq hc => absurd ((hafter x hx).2 i c heq) (hc ▸ by decide)

/-- The Python backend is tidy exactly when saving is answered and the interface stays. -/
theorem setState_tidy_iff {table : PrintTable} {identifier : String}
    {changes : List (Value × Value)} {log : Log netSig} {result : Except PyError NetworkState}
    (h : Path (setState table identifier changes) log result) {n : Nat}
    (hadds : ∃ x ∈ log, dialogue.adds n x) :
    dialogue.Tidy n log (∃ e, result = .error e) ↔ Finishes identifier log := by
  obtain ⟨name, before, rest, ssid, credential, hname, rfl, hopening, hnew⟩ :=
    setState_connectNew h hadds
  obtain ⟨r, rest', rfl, hcase⟩ := connectNew_path hname hnew
  have hbefore : ∀ x ∈ before, NoAdd x.1 := fun x hx i c heq hc =>
    absurd (hopening.sends x hx i c heq) (hc ▸ by decide)
  -- the network is added by the first step of `connectNew`
  have hfirst (hrest : ∀ x ∈ rest', NoAdd x.1) : ∃ text, Replied r text ∧
      addedId text = some n := by
    obtain ⟨x, hx, hadd⟩ := hadds
    rcases List.mem_append.mp hx with hx | hx
    · exact absurd ⟨x, hx, hadd⟩ (not_adds hbefore)
    · rcases List.mem_cons.mp hx with rfl | hx
      · obtain ⟨i, r', text, heq, hreplied, hn⟩ := hadd
        cases heq
        exact ⟨text, hreplied, hn⟩
      · exact absurd ⟨x, hx, hadd⟩ (not_adds hrest)
  rcases hcase with ⟨text, m, hreplied, hm, hending⟩ | ⟨rfl, hnone⟩
  · obtain ⟨text', hreplied', hn⟩ := hfirst (ending_noAdd hending)
    have htext : text = text' := by
      have h₁ : exchanged name r = .ok text := exchanged_ok_iff.mpr hreplied
      rw [exchanged_ok_iff.mpr hreplied', Except.ok.injEq] at h₁
      exact h₁.symm
    rw [← htext, hm, Option.some.injEq] at hn
    subst hn
    exact ending_tidy hname hopening hending
  · obtain ⟨text, hreplied, hn⟩ := hfirst fun x hx => nomatch hx
    exact absurd hn (hnone text n hreplied)

end Network

end MsysHal
