import MsysHal.Spec.Client
import MsysHal.Spec.Power

/-!
# Discovered devices and their controllers

The process keeps one table of discovered devices for all controllers. Every row
comes from a DEVICE_FOUND event that was taken since the last discovery was started
(`Sourced`), by whatever request was waiting for a datagram then. The devices in the
state of a controller are its own if those events were.

## Key results

- `handle_sources`: each request keeps the table sourced
- `session_sourced`: so does every run of requests
- `discovered_belongs`: the devices of a state were found by its controller in its
  latest scan, in runs whose events were all taken there
-/

namespace MsysHal.Native

open Interleave (Log Does Composes Keeps does_pure does_bind does_get_bind does_modify_bind)

/-! ## Events -/

/-- The address in a datagram that is a DEVICE_FOUND event of the controller `index`. -/
def deviceFound (index : Nat) (data : Bytes) : Option String :=
  match classify 0 index none data with
  | .found payload => (foundRow payload).map (·.address)
  | _ => none

/-- The answer is a DEVICE_FOUND event of the controller `index` with an address. -/
def Hears (index : Nat) (address : String) : Answer → Prop
  | ⟨.receive _ _ _ _, .packet data⟩ => deviceFound index data = some address
  | _ => False

/-- The controller and the address of a DEVICE_FOUND event that the receive takes. -/
def taken : Answer → Option (Nat × String)
  | ⟨.receive _ opcode index capacity, .packet data⟩ =>
    match classify opcode index capacity data with
    | .found payload => (foundRow payload).map fun row => (index, row.address)
    | _ => none
  | _ => none

private theorem classify_found {opcode index : Nat} {capacity : Option Nat} {data payload : Bytes}
    (h : classify opcode index capacity data = .found payload) :
    classify 0 index none data = .found payload := by
  rw [classify] at h ⊢
  split_ifs at h with hshort hlength hfound
  rw [if_neg hshort, if_neg hlength, if_pos hfound, h]

/-- What a receive takes is an event of the controller it waits for. -/
theorem hears_of_taken {x : Answer} {index : Nat} {address : String}
    (h : taken x = some (index, address)) : Hears index address x := by
  obtain ⟨o, r⟩ := x
  cases o with
  | receive timeout opcode expected capacity =>
    cases r with
    | idle code => exact nomatch h
    | failed code => exact nomatch h
    | packet data =>
      rw [taken] at h
      split at h
      · next payload hclass =>
        obtain ⟨row, hrow, heq⟩ := Option.map_eq_some_iff.mp h
        rw [Prod.mk.injEq] at heq
        obtain ⟨rfl, rfl⟩ := heq
        rw [Hears, deviceFound, classify_found hclass]
        exact congrArg (Option.map (·.address)) hrow
      · exact nomatch h
  | _ => exact nomatch h

/-- The step that starts a discovery; the table was emptied just before it. -/
def isStart : NativeOp → Bool
  | .send opcode _ _ => opcode == mgmtOpStartDiscovery
  | _ => false

/-! ## Runs of requests -/

/-- A request that was handled, with the globals around it and the answers it saw. -/
structure Handled where
  request : BluetoothRequest
  before : Globals
  log : Log nativeSig
  reply : Except Refusal BluetoothState
  after : Globals

/-- Requests handled one after the other. -/
inductive Session : Globals → List Handled → Prop where
  | nil (g : Globals) : Session g []
  | cons {c : Handled} {rest : List Handled}
    (h : Does c.request.handle c.before c.log c.reply c.after) (hrest : Session c.after rest) :
    Session c.before (c :: rest)

/-- The answers of a run, each with the request that saw it. -/
def answers (handled : List Handled) : List (Handled × Answer) :=
  handled.flatMap fun c => c.log.map (Prod.mk c)

/-- The answers since the last discovery was started, after those of `earlier`. -/
def sinceStart (earlier : List (Handled × Answer)) (log : List (Handled × Answer)) :
    List (Handled × Answer) :=
  log.foldl (fun kept x => if isStart x.2.1 then [] else kept ++ [x]) earlier

theorem sinceStart_append (earlier log log' : List (Handled × Answer)) :
    sinceStart earlier (log ++ log') = sinceStart (sinceStart earlier log) log' :=
  List.foldl_append

/-- Nothing is made up: what is kept is from the log or was kept before. -/
theorem mem_sinceStart {earlier log : List (Handled × Answer)} {x : Handled × Answer}
    (h : x ∈ sinceStart earlier log) : x ∈ earlier ∨ x ∈ log := by
  induction log generalizing earlier with
  | nil => exact .inl h
  | cons y log ih =>
    rcases ih h with hkept | hlog
    · dsimp only at hkept
      split at hkept
      · exact nomatch hkept
      · rcases List.mem_append.mp hkept with hkept | hkept
        · exact .inl hkept
        · exact .inr (List.mem_singleton.mp hkept ▸ List.mem_cons_self)
    · exact .inr (List.mem_cons_of_mem y hlog)

/-- Every row of the table is from an event that was taken. -/
def Sourced (events : List (Handled × Answer)) (g : Globals) : Prop :=
  ∀ row ∈ g.found.rows, ∃ x ∈ events, ∃ index, taken x.2 = some (index, row.address)

/-- A run of the request `c` keeps the table sourced. -/
def Sources (c : Handled) (g : Globals) (log : Log nativeSig) (g' : Globals) : Prop :=
  ∀ earlier, Sourced earlier g → Sourced (sinceStart earlier (log.map (Prod.mk c))) g'

theorem Sources.composes (c : Handled) : Composes (Sources c) where
  nil _ _ h := h
  append h h' := fun earlier hg => by
    rw [List.map_append, sinceStart_append]
    exact h' _ (h earlier hg)

/-! ## The table -/

private theorem insert_address {table : FoundTable} {row : BluetoothFound} {r : BluetoothFound}
    (h : r ∈ (table.insert row).rows) :
    r.address = row.address ∨ r.address ∈ table.rows.map (·.address) := by
  rw [FoundTable.insert] at h
  split at h
  · obtain ⟨old, hold, rfl⟩ := List.mem_map.mp h
    refine .inr (List.mem_map.mpr ⟨old, hold, ?_⟩)
    split <;> rfl
  · split at h
    · exact .inr (List.mem_map.mpr ⟨r, h, rfl⟩)
    · rcases List.mem_append.mp h with h | h
      · exact .inr (List.mem_map.mpr ⟨r, h, rfl⟩)
      · exact .inl (by rw [List.mem_singleton.mp h])

/-- An answer that starts no discovery, with the table as it was. -/
private theorem Sources.of_answer (c : Handled) {x : Answer} (hx : isStart x.1 = false)
    {g g' : Globals} (hfound : g'.found = g.found) : Sources c g [x] g' := by
  intro earlier hg row hrow
  obtain ⟨y, hy, hy'⟩ := hg row (hfound ▸ hrow)
  refine ⟨y, ?_, hy'⟩
  change y ∈ if isStart x.1 then [] else earlier ++ [(c, x)]
  rw [hx]
  exact List.mem_append_left _ hy

/-- A DEVICE_FOUND event that is taken is the source of its row. -/
private theorem Sources.of_found (c : Handled) {timeout opcode index : Nat} {capacity : Option Nat}
    {data payload : Bytes} (hclass : classify opcode index capacity data = .found payload)
    (g : Globals) : Sources c g [⟨.receive timeout opcode index capacity, .packet data⟩]
      { g with found := rememberBluetoothFound g.found payload } := by
  intro earlier hg row hrow
  change row ∈ (rememberBluetoothFound g.found payload).rows at hrow
  change ∃ x ∈ earlier ++ [(c, _)], _
  have hold (hmem : row.address ∈ g.found.rows.map (·.address)) :
      ∃ x ∈ earlier ++ [(c, (⟨.receive timeout opcode index capacity, .packet data⟩ : Answer))],
        ∃ i, taken x.2 = some (i, row.address) := by
    obtain ⟨r, hr, heq⟩ := List.mem_map.mp hmem
    obtain ⟨y, hy, i, hy'⟩ := hg r hr
    exact ⟨y, List.mem_append_left _ hy, i, heq ▸ hy'⟩
  rw [rememberBluetoothFound] at hrow
  cases hnew : foundRow payload with
  | none =>
    rw [hnew] at hrow
    exact hold (List.mem_map.mpr ⟨row, hrow, rfl⟩)
  | some new =>
    rw [hnew] at hrow
    rcases insert_address hrow with heq | hmem
    · refine ⟨_, List.mem_append_right _ (List.mem_singleton_self _), index, ?_⟩
      rw [taken, hclass]
      dsimp only
      rw [hnew, heq]
      rfl
    · exact hold hmem

/-- Everything but the start of a discovery. -/
def NotStart (o : NativeOp) : Prop := isStart o = false

private theorem allows_notStart : Allows NotStart where
  probe h := by cases h <;> rfl
  set h := by cases h <;> rfl
  wait _ := rfl
  list _ := rfl
  read _ := rfl
  writable _ := rfl
  realpath _ := rfl
  slots := rfl

private theorem Sources.respects (c : Handled) : Respects NotStart (Sources c) where
  composes := Sources.composes c
  call {o} h _ r := .of_answer c (x := ⟨o, r⟩) h rfl
  quiet h _ _ hg row hrow := hg row (h ▸ hrow)
  receive {timeout opcode index capacity} _ := by
    intro g log result g' hdoes
    obtain ⟨answer, log', rfl, hend⟩ := does_call_bind.mp hdoes
    cases answer with
    | idle code =>
      obtain ⟨rfl, -, rfl⟩ := does_error.mp hend
      exact .of_answer c rfl rfl
    | failed code =>
      obtain ⟨rfl, -, rfl⟩ := does_error.mp hend
      exact .of_answer c rfl rfl
    | packet data =>
      dsimp only at hend
      split at hend
      · obtain ⟨rfl, -, rfl⟩ := does_error.mp hend
        exact .of_answer c rfl rfl
      · next payload hclass =>
        obtain ⟨rfl, -, rfl⟩ := does_modify_pure.mp hend
        exact .of_found c hclass g
      · obtain ⟨rfl, -, rfl⟩ := does_pure.mp hend
        exact .of_answer c rfl rfl
      · obtain ⟨rfl, -, rfl⟩ := does_pure.mp hend
        exact .of_answer c rfl rfl
      · obtain ⟨rfl, -, rfl⟩ := does_pure.mp hend
        exact .of_answer c rfl rfl

/-! ## Discovery -/

/-- From the start of a discovery on, the table holds what was taken since. -/
private theorem startDiscovery_sources (c : Handled) {index : Nat} {g : Globals}
    {log : Log nativeSig} {reply : Option Bytes} {g' : Globals}
    (h : Does (mgmtCommand mgmtOpStartDiscovery index [0x07] none) { g with found := .empty } log
      reply g') : Sources c g log g' := by
  rw [mgmtCommand, if_neg (by simp)] at h
  obtain ⟨sent, log', rfl, hrest⟩ := does_call_bind.mp h
  have hempty : Sourced [] { g with found := .empty } := fun _ hrow => by cases hrow
  have hR := Sources.respects c
  have hkeeps : Sources c { g with found := .empty } log' g' := by
    cases sent with
    | some code =>
      exact keeps_bind hR (keeps_error hR .send code) (fun _ => keeps_pure hR none) _ _ _ _ hrest
    | none => exact awaitReply_keeps hR rfl 12 _ _ _ _ hrest
  -- the send drops what was kept before it
  exact fun earlier _ => hkeeps [] hempty

private theorem discover_sources (c : Handled) (index rounds : Nat) :
    Keeps (Sources c) (discover index rounds) := by
  have hR := Sources.respects c
  induction rounds with
  | zero => exact keeps_pure hR _
  | succ rounds ih => exact keeps_bind hR (hR.receive rfl) fun _ => ih

private theorem notStart_of_probe {preferred : Nat} {o : NativeOp} (h : ProbeOp preferred o) :
    NotStart o := allows_notStart.probe h

theorem scanBluetoothDevices_sources (c : Handled) (interface : String) :
    Keeps (Sources c) (scanBluetoothDevices interface) := by
  have hR := Sources.respects c
  refine keeps_bind hR (bluetoothInfo_keeps hR fun _ => notStart_of_probe) fun r => ?_
  cases r with
  | none => exact keeps_pure hR _
  | some info =>
    dsimp only
    split
    · exact keeps_pure hR _
    · refine keeps_bind hR (bluetoothSocket_keeps hR rfl rfl) fun opened => ?_
      cases opened with
      | false => exact keeps_pure hR _
      | true =>
        intro g log done g' h
        obtain ⟨reply, g₁, log₁, log₂, rfl, hstart, hrest⟩ := does_bind.mp (does_modify_bind.mp h)
        refine hR.composes.append (startDiscovery_sources c hstart) ?_
        cases reply with
        | none => exact keeps_pure hR false _ _ _ _ hrest
        | some response =>
          refine keeps_bind hR (keeps_call hR (o := .rounds) rfl) (fun rounds => ?_) _ _ _ _ hrest
          refine keeps_bind hR (discover_sources c info.index (rounds + 1)) fun _ => ?_
          exact keeps_bind hR (mgmtCommand_keeps hR rfl rfl) fun _ => keeps_pure hR _

/-- Each request keeps the table sourced. -/
theorem handle_sources (c : Handled) (request : BluetoothRequest) :
    Keeps (Sources c) request.handle := by
  have hR := Sources.respects c
  have hset (unblocked : Bool) : Keeps (Sources c) (setRadioPower .bluetooth unblocked) :=
    setRadioPower_keeps hR allows_notStart (fun _ _ => rfl) .bluetooth unblocked
  have hcount (g : Globals) : Sources c g [] { g with revision := g.revision + 1 } := fun _ hg => hg
  cases request with
  | getState name => exact buildGetState_keeps hR allows_notStart name
  | scan name =>
    exact buildSetState_keeps hR allows_notStart hcount
      (fun device => bluetoothAction_keeps hR (scanBluetoothDevices_sources c device.name)) name
  | setPowered name powered =>
    exact buildSetState_keeps hR allows_notStart hcount (fun device => changePowered_keeps hR
      (requestBluetoothPower_keeps hR allows_notStart (fun _ => rfl) (fun _ => hset) device.name))
        name

/-! ## States -/

private theorem appendState_rows {device : NativeDevice} {g : Globals} {log : Log nativeSig}
    {state : BluetoothState} {g' : Globals} (h : Does (appendState device) g log state g')
    {info : BluetoothInfo} {rows : List BluetoothFound}
    (hvalues : state.values = .managed info rows) :
    rows = g'.found.rows := by
  obtain ⟨read, g₁, log₁, log₂, -, -, hread⟩ := does_bind.mp h
  cases read with
  | some info' =>
    have hread := does_get_bind.mp hread
    obtain ⟨-, rfl, rfl⟩ := does_pure.mp hread
    injection hvalues with hinfo hrows
    exact hrows.symm
  | none =>
    obtain ⟨address, g₂, log₃, log₄, -, -, haddress⟩ := does_bind.mp hread
    obtain ⟨radio, g₃, log₅, log₆, -, -, hradio⟩ := does_bind.mp haddress
    have hradio := does_get_bind.mp hradio
    obtain ⟨-, rfl, -⟩ := does_pure.mp hradio
    exact nomatch hvalues

/-- A state shows the whole table. -/
theorem handle_rows {request : BluetoothRequest} {g : Globals} {log : Log nativeSig}
    {state : BluetoothState} {g' : Globals} (h : Does request.handle g log (.ok state) g')
    {info : BluetoothInfo} {rows : List BluetoothFound}
    (hvalues : state.values = .managed info rows) :
    rows = g'.found.rows := by
  -- the reply of `changedState` ends the run of every change
  have hchanged {name : String} {change : NativeDevice → NativeM (Option Refusal)}
      (hset : Does (buildSetState name change) g log (.ok state) g') : rows = g'.found.rows := by
    obtain ⟨devices, g₁, log₁, log₂, -, -, hfind⟩ := does_bind.mp hset
    cases hdevice : findDevice devices name with
    | none =>
      rw [hdevice] at hfind
      exact nomatch (does_pure.mp hfind).2.1
    | some device =>
      rw [hdevice] at hfind
      dsimp only at hfind
      split at hfind
      · exact nomatch (does_pure.mp hfind).2.1
      · obtain ⟨refusal, g₂, log₃, log₄, -, -, hrefusal⟩ := does_bind.mp hfind
        cases refusal with
        | some refusal => exact nomatch (does_pure.mp hrefusal).2.1
        | none =>
          obtain ⟨devices', g₃, log₅, log₆, -, -, hagain⟩ :=
            does_bind.mp (does_modify_bind.mp hrefusal)
          cases hdevice' : findDevice devices' name with
          | none =>
            rw [hdevice'] at hagain
            exact nomatch (does_pure.mp hagain).2.1
          | some device' =>
            rw [hdevice'] at hagain
            obtain ⟨state', g₄, log₇, log₈, -, hstate, hend⟩ := does_bind.mp hagain
            obtain ⟨-, heq, rfl⟩ := does_pure.mp hend
            injection heq with heq
            exact appendState_rows hstate (heq ▸ hvalues)
  cases request with
  | getState name =>
    obtain ⟨devices, g₁, log₁, log₂, -, -, hfind⟩ := does_bind.mp h
    cases hdevice : findDevice devices name with
    | none =>
      rw [hdevice] at hfind
      exact nomatch (does_pure.mp hfind).2.1
    | some device =>
      rw [hdevice] at hfind
      obtain ⟨state', g₂, log₃, log₄, -, hstate, hend⟩ := does_bind.mp hfind
      obtain ⟨-, heq, rfl⟩ := does_pure.mp hend
      injection heq with heq
      exact appendState_rows hstate (heq ▸ hvalues)
  | scan name => exact hchanged h
  | setPowered name powered => exact hchanged h

/-! ## Runs -/

theorem answers_append (pre : List Handled) (c : Handled) :
    answers (pre ++ [c]) = answers pre ++ c.log.map (Prod.mk c) := by
  simp [answers]

/-- Every run of requests keeps the table sourced. -/
theorem session_sourced {g : Globals} {pre : List Handled} {c : Handled} {post : List Handled}
    (h : Session g (pre ++ c :: post)) {earlier : List (Handled × Answer)}
    (hg : Sourced earlier g) : Sourced (sinceStart earlier (answers (pre ++ [c]))) c.after := by
  induction pre generalizing g earlier with
  | nil =>
    cases h with
    | cons hdoes _ =>
      rw [answers_append]
      exact handle_sources c c.request _ _ _ _ hdoes earlier hg
  | cons first pre ih =>
    cases h with
    | cons hdoes hrest =>
      have hfirst := handle_sources first first.request _ _ _ _ hdoes earlier hg
      have := ih hrest hfirst
      rwa [← sinceStart_append] at this

/-- The request of a run is one of its steps. -/
theorem session_does {g : Globals} {pre : List Handled} {c : Handled} {post : List Handled}
    (h : Session g (pre ++ c :: post)) : Does c.request.handle c.before c.log c.reply c.after := by
  induction pre generalizing g with
  | nil =>
    cases h with
    | cons hdoes _ => exact hdoes
  | cons first pre ih =>
    cases h with
    | cons _ hrest => exact ih hrest

/-- The latest scan request for a controller. -/
def latestScan (name : String) (handled : List Handled) : Option Handled :=
  (handled.filter fun c => c.request = .scan name).getLast?

/-- The devices of the state that answers `c` were heard in the latest scan request for its
    controller, in events of that controller. -/
def Belongs (pre : List Handled) (c : Handled) : Prop :=
  ∀ state info rows, c.reply = .ok state → state.values = .managed info rows → ∀ row ∈ rows,
    ∃ index latest, bluetoothIndex state.name = some index ∧
      latestScan state.name (pre ++ [c]) = some latest ∧ ∃ x ∈ latest.log, Hears index row.address x

/-- Where `c` is answered with a state of a controller, every event that was taken since the
    last discovery was started, on any controller, is one of this controller and was taken by
    its latest scan request. -/
def Attributed (pre : List Handled) (c : Handled) : Prop :=
  ∀ state, c.reply = .ok state → ∀ y ∈ sinceStart [] (answers (pre ++ [c])), ∀ index address,
    taken y.2 = some (index, address) →
      bluetoothIndex state.name = some index ∧ latestScan state.name (pre ++ [c]) = some y.1

/-- An answer of a run is in the log of the request it is listed with. -/
private theorem mem_log_of_answers {handled : List Handled} {y : Handled × Answer}
    (h : y ∈ answers handled) : y.2 ∈ y.1.log := by
  obtain ⟨c, -, hy⟩ := List.mem_flatMap.mp h
  obtain ⟨x, hx, rfl⟩ := List.mem_map.mp hy
  exact hx

/-- In a run whose events are all attributed to the controller of the state, discovered
    devices belong to the controller that found them. -/
theorem discovered_belongs {handled : List Handled} (h : Session {} handled)
    (hattributed : ∀ pre c post, handled = pre ++ c :: post → Attributed pre c) :
    ∀ pre c post, handled = pre ++ c :: post → Belongs pre c := by
  intro pre c post heq state info rows hreply hvalues row hrow
  have hsession : Session {} (pre ++ c :: post) := heq ▸ h
  have hnone : Sourced [] {} := fun _ hmem => nomatch hmem
  have hsourced := session_sourced hsession hnone
  have hdoes := session_does hsession
  rw [hreply] at hdoes
  rw [handle_rows hdoes hvalues] at hrow
  obtain ⟨y, hy, index, htaken⟩ := hsourced row hrow
  obtain ⟨hindex, hlatest⟩ := hattributed pre c post heq state hreply y hy index row.address htaken
  have hlog : y.2 ∈ y.1.log := by
    rcases mem_sinceStart hy with hnil | hmem
    · exact nomatch hnil
    · exact mem_log_of_answers hmem
  exact ⟨index, y.1, hindex, hlatest, y.2, hlog, hears_of_taken htaken⟩

namespace Sample

/-- The reply to a discovery command of a controller. -/
def discoveryReply (opcode index : UInt8) : Bytes := [0x01, 0, index, 0, 4, 0, opcode, 0, 0, 7]

/-- A device that a controller has found. -/
def foundEvent (index : UInt8) : Bytes :=
  [0x12, 0, index, 0, 14, 0, 0x66, 0x55, 0x44, 0x33, 0x22, 0x11, 0, 0xc0, 0, 0, 0, 0, 0, 0]

/-- A system with two powered controllers that both find a device whenever they discover. -/
def twoControllers : (o : NativeOp) → o.Ret
  | .list .bluetooth => some [("hci0", true), ("hci1", true)]
  | .receive _ 0x0003 _ _ => .packet [0x01, 0, 0xff, 0xff, 9, 0, 0x03, 0, 0, 2, 0, 0, 0, 1, 0]
  | .receive _ 0x0004 index _ => .packet (infoOf index.toUInt8 1)
  | .receive _ 0xffff index _ => .packet (foundEvent index.toUInt8)
  | .receive _ opcode index _ => .packet (discoveryReply opcode.toUInt8 index.toUInt8)
  | o => delivers [] o

/-- The request handled by that system, in so many steps. -/
def run (request : BluetoothRequest) (g : Globals) (steps : Nat) : Option Handled :=
  ((request.handle g).feed (List.replicate steps twoControllers)).map fun x =>
    ⟨request, g, x.2, x.1.1, x.1.2⟩

theorem does_of_run {request : BluetoothRequest} {g : Globals} {steps : Nat} {c : Handled}
    (h : run request g steps = some c) :
    c.request = request ∧ c.before = g ∧ Does c.request.handle c.before c.log c.reply c.after := by
  obtain ⟨x, hx, rfl⟩ := Option.map_eq_some_iff.mp h
  exact ⟨rfl, rfl, Does.of_feed hx⟩

theorem shown_elsewhere : (run (.scan "hci0") {} 50).any (fun c =>
    (run (.getState "hci1") c.after 21).any fun d => match d.reply with
      | .ok ⟨_, name, .managed _ (_ :: _), _, _⟩ => name == "hci1"
      | _ => false) = true := by
  decide +kernel

end Sample

/-- The state of `hci1`, which was never scanned, shows the device that `hci0` has found. -/
theorem discovered_elsewhere : ¬ ∀ handled, Session {} handled →
    ∀ pre c post, handled = pre ++ c :: post → Belongs pre c := by
  intro hall
  obtain ⟨c, hc, hrest⟩ := (Option.any_eq_true _ _).mp Sample.shown_elsewhere
  obtain ⟨d, hd, hreply⟩ := (Option.any_eq_true _ _).mp hrest
  obtain ⟨hcscan, hcbefore, hcdoes⟩ := Sample.does_of_run hc
  obtain ⟨hdget, hdbefore, hddoes⟩ := Sample.does_of_run hd
  have hsession : Session {} [c, d] :=
    hcbefore ▸ .cons hcdoes (hdbefore ▸ .cons hddoes (.nil d.after))
  split at hreply
  · next revision name info row rows state action heq =>
    obtain ⟨index, latest, -, hlatest, -⟩ :=
      hall _ hsession [c] d [] rfl _ info (row :: rows) heq rfl row List.mem_cons_self
    rw [eq_of_beq hreply] at hlatest
    simp [latestScan, hcscan, hdget] at hlatest
  · cases hreply

/-- A scan of one controller shows the device that it has found. -/
theorem discovered_belongs_once : ∃ c, c.request = .scan "hci0" ∧ c.after.found.rows ≠ [] ∧
    Session {} [c] ∧ ∀ pre d post, [c] = pre ++ d :: post → Belongs pre d := by
  have heval : (Sample.run (.scan "hci0") {} 50).any (fun c => !c.after.found.rows.isEmpty &&
      (match c.reply with
        | .ok state => state.name == "hci0"
        | .error _ => true) &&
      (sinceStart [] (answers [c])).all fun y =>
        (taken y.2).all fun event => bluetoothIndex "hci0" == some event.1) = true := by
    decide +kernel
  obtain ⟨c, hc, htest⟩ := (Option.any_eq_true _ _).mp heval
  rw [Bool.and_eq_true, Bool.and_eq_true, List.all_eq_true] at htest
  obtain ⟨⟨hrows, hname⟩, hevents⟩ := htest
  obtain ⟨hscan, hbefore, hdoes⟩ := Sample.does_of_run hc
  have hsession : Session {} [c] := hbefore ▸ .cons hdoes (.nil c.after)
  have hrows' : c.after.found.rows ≠ [] := by simpa using hrows
  refine ⟨c, hscan, hrows', hsession, discovered_belongs hsession ?_⟩
  intro pre d post heq state hreply y hy index address htaken
  -- the run has one step
  cases pre with
  | cons first pre =>
    obtain ⟨-, hnil⟩ := List.cons.inj heq
    exact absurd hnil (by simp)
  | nil =>
    obtain ⟨rfl, -⟩ := List.cons.inj heq
    rw [hreply] at hname
    rw [eq_of_beq hname]
    have hindex := hevents y hy
    rw [htaken] at hindex
    have hone : y.1 = c := by
      rcases mem_sinceStart hy with hnil | hmem
      · exact nomatch hnil
      · obtain ⟨e, he, hmap⟩ := List.mem_flatMap.mp hmem
        obtain ⟨x, -, rfl⟩ := List.mem_map.mp hmap
        exact List.mem_singleton.mp he
    refine ⟨eq_of_beq hindex, ?_⟩
    simp [latestScan, hscan, hone]

end MsysHal.Native
