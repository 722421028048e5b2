import MsysHal.Spec.Answers
import MsysHal.Spec.Journal
import MsysHal.Spec.Rounds
import MsysHal.Spec.Server

/-!
# Whether the inventory of all providers fits one reply

Each provider's inventory is checked on its own. The reply to the client puts the
inventories of all domains together and is checked again. Texts, nesting and the
number of fields cannot fail there, since they have been checked for each part;
what adds up over the providers can: the number of devices, the number of values
and the size.

## Key results

- `report_fits_iff`: the reports that fit a reply
- `inventory_answered`: when a request for an inventory is answered
-/

namespace MsysHal

open Python (Value Runtime nodesItems heightItems)
open Interleave (Prog Issues Path Ends)

/-! ## Values of the right shape -/

/-- A value that passes every check but those on the number of values and the size. -/
structure Shaped (h : Nat) (v : Value) : Prop where
  height : v.height ≤ h
  wellFormed : wellFormed v = true
  dumpable : v.dumpable = true

/-- The items of a list, each of the right shape. -/
theorem shaped_items {h : Nat} {items : List Value} (hitems : ∀ v ∈ items, Shaped h v) :
    heightItems items ≤ h + 1 ∧ wellFormedItems items = true ∧
      Python.dumpableItems items = true := by
  induction items with
  | nil => exact ⟨Nat.zero_le _, rfl, rfl⟩
  | cons item rest ih =>
    obtain ⟨hheight, hwell, hdump⟩ := ih fun v hv => hitems v (List.mem_cons_of_mem item hv)
    have hitem := hitems item List.mem_cons_self
    have hh := hitem.height
    simp only [heightItems, wellFormedItems, Python.dumpableItems, hitem.wellFormed, hitem.dumpable,
      hwell, hdump, Bool.and_self, and_true]
    omega

theorem shaped_str {n : Nat} {text : String} (h : Plain n text) (hn : n ≤ 4096) :
    Shaped 0 (.str text) :=
  ⟨le_rfl, h.plainText hn, rfl⟩

theorem shaped_strings {items : List String} {n : Nat} (hlen : items.length ≤ 256)
    (h : ∀ text ∈ items, Plain n text) (hn : n ≤ 4096) : Shaped 1 (strings items) := by
  have hitems : ∀ v ∈ items.map Value.str, Shaped 0 v := by
    intro v hv
    obtain ⟨text, htext, rfl⟩ := List.mem_map.mp hv
    exact shaped_str (h text htext) hn
  obtain ⟨hheight, hwell, hdump⟩ := shaped_items hitems
  refine ⟨hheight, ?_, hdump⟩
  rw [strings, wellFormed, Bool.and_eq_true, decide_eq_true_eq, List.length_map]
  exact ⟨hlen, hwell⟩

private theorem shaped_members {h : Nat} {members : List (String × Value)}
    (hkeys : (members.map Prod.fst).all (fun key => plainKey (.str key)) = true)
    (hvalues : ∀ m ∈ members, Shaped h m.2) :
    Python.heightMembers (members.map fun m => (.str m.1, m.2)) ≤ h + 1 ∧
      wellFormedMembers (members.map fun m => (.str m.1, m.2)) = true ∧
      Python.dumpableMembers (members.map fun m => (.str m.1, m.2)) = true := by
  induction members with
  | nil => exact ⟨Nat.zero_le _, rfl, rfl⟩
  | cons member rest ih =>
    rw [List.map_cons, List.all_cons, Bool.and_eq_true] at hkeys
    obtain ⟨hheight, hwell, hdump⟩ := ih hkeys.2 fun m hm => hvalues m (List.mem_cons_of_mem _ hm)
    have hvalue := hvalues member List.mem_cons_self
    have hh := hvalue.height
    simp only [List.map_cons, Python.heightMembers, wellFormedMembers, Python.dumpableMembers,
      Python.dumpableKey, hkeys.1, hvalue.wellFormed, hvalue.dumpable, hwell, hdump, Bool.and_self,
      and_true]
    omega

/-- An object with the given keys whose values are of the right shape. -/
theorem shaped_object (keys : List String) {h : Nat} {members : List (String × Value)}
    (hmembers : members.map Prod.fst = keys)
    (hkeys : (decide (keys.length ≤ 128) && keys.all fun key => plainKey (.str key)) = true)
    (hvalues : ∀ m ∈ members, Shaped h m.2) : Shaped (h + 1) (.object members) := by
  subst hmembers
  rw [Bool.and_eq_true, decide_eq_true_eq, List.length_map] at hkeys
  obtain ⟨hheight, hwell, hdump⟩ := shaped_members hkeys.2 hvalues
  refine ⟨hheight, ?_, hdump⟩
  rw [Value.object, wellFormed, Bool.and_eq_true, decide_eq_true_eq, List.length_map]
  exact ⟨hkeys.1, hwell⟩

theorem Shaped.mono {h h' : Nat} {v : Value} (hv : Shaped h v) (hle : h ≤ h') : Shaped h' v :=
  ⟨hv.height.trans hle, hv.wellFormed, hv.dumpable⟩

/-! ## The rows and the devices -/

/-- A device as the manager reports it. -/
theorem shaped_device {d : String} (hd : Plain 64 d) {device : Device} (h : DeviceOk d device)
    {component : String} (hc : Plain 4096 component) : Shaped 5 (device.payload component) := by
  refine shaped_object ["id", "domain", "name", "available", "mutable", "metadata", "provider"]
    (h := 4) rfl (by decide) ?_
  have hmutable := shaped_strings (h.count.trans (by omega)) h.mutable (by omega)
  simp only [List.forall_mem_cons, List.not_mem_nil, false_imp_iff, implies_true, and_true]
  refine ⟨(shaped_str h.id (by omega)).mono (by omega), ?_,
    (shaped_str h.name le_rfl).mono (by omega), ⟨Nat.zero_le _, rfl, rfl⟩, hmutable.mono (by omega),
    ⟨h.metadata.height, h.metadata.wellFormed, h.metadata.dumpable⟩,
    (shaped_str hc le_rfl).mono (by omega)⟩
  rw [h.domain]
  exact (shaped_str hd (by omega)).mono (by omega)

/-- What is known of a pick of an inventory. -/
def PickOk (d : String) : Pick → Prop
  | .noProvider _ => True
  | .failed _ component error => Plain 4096 component ∧ Plain 160 error
  | .active _ _ answer => AnswerOk d answer

theorem SelectionMode.plain_text (mode : SelectionMode) : Plain 16 mode.text := by
  cases mode <;> exact ⟨by decide, by decide⟩

theorem Status.plain_text (status : Status) : Plain 16 status.text := by
  cases status <;> exact ⟨by decide, by decide⟩

/-- The row of a domain. -/
theorem shaped_row {d : String} (hd : Plain 64 d) {pick : Pick} (h : PickOk d pick) :
    Shaped 1 (pick.row d) := by
  have hdomain := shaped_str hd (by omega)
  -- The members of each row are checked one after the other.
  cases pick with
  | noProvider mode =>
    refine shaped_object ["domain", "status", "reason", "selection", "provider"] (h := 0) rfl
      (by decide) ?_
    simp only [List.forall_mem_cons, List.not_mem_nil, false_imp_iff, implies_true, and_true]
    exact ⟨hdomain, ⟨by decide, by decide, rfl⟩, ⟨by decide, by decide, rfl⟩,
      shaped_str mode.plain_text (by omega), ⟨by decide, rfl, rfl⟩⟩
  | failed mode component error =>
    refine shaped_object ["domain", "status", "reason", "selection", "provider", "error"] (h := 0)
      rfl (by decide) ?_
    simp only [List.forall_mem_cons, List.not_mem_nil, false_imp_iff, implies_true, and_true]
    exact ⟨hdomain, ⟨by decide, by decide, rfl⟩, ⟨by decide, by decide, rfl⟩,
      shaped_str mode.plain_text (by omega), shaped_str h.1 le_rfl, shaped_str h.2 (by omega)⟩
  | active mode candidate answer =>
    have hanswer : answer.domain = d := h.domain
    have hstatus := shaped_str answer.status.plain_text (by omega)
    have hmode := shaped_str mode.plain_text (by omega)
    have hprovider := shaped_str candidate.component_plain le_rfl
    cases hreason : answer.reason with
    | none =>
      simp only [Pick.row, hreason, hanswer]
      refine shaped_object ["domain", "status", "provider", "selection"] (h := 0) rfl (by decide) ?_
      simp only [List.nil_append, List.append_nil, List.cons_append, List.forall_mem_cons,
        List.not_mem_nil, false_imp_iff, implies_true, and_true]
      exact ⟨hdomain, hstatus, hprovider, hmode⟩
    | some reason =>
      simp only [Pick.row, hreason, hanswer]
      refine shaped_object ["domain", "status", "reason", "provider", "selection"] (h := 0) rfl
        (by decide) ?_
      simp only [List.nil_append, List.cons_append, List.forall_mem_cons, List.not_mem_nil,
        false_imp_iff, implies_true, and_true]
      exact ⟨hdomain, hstatus, shaped_str (h.reason reason hreason) (by omega), hprovider, hmode⟩

private theorem addDevices_mem {candidate : Candidate} {devices : List Device} {listing : Listing}
    {x : Device × String} (h : x ∈ (Listing.addDevices candidate devices listing).devices) :
    x ∈ listing.devices ∨ x.1 ∈ devices ∧ x.2 = candidate.component := by
  induction devices generalizing listing with
  | nil => exact .inl h
  | cons device rest ih =>
    rw [Listing.addDevices] at h
    split at h
    · rcases ih h with h | ⟨h, hc⟩
      · exact .inl h
      · exact .inr ⟨List.mem_cons_of_mem _ h, hc⟩
    · rcases ih h with h | ⟨h, hc⟩
      · rcases List.mem_append.mp h with h | h
        · exact .inl h
        · rw [List.mem_singleton] at h
          subst h
          exact .inr ⟨List.mem_cons_self, rfl⟩
      · exact .inr ⟨List.mem_cons_of_mem _ h, hc⟩

/-- The devices that are listed come from the answers that were taken. -/
theorem shaped_devices {picks : List (String × Pick)} {listing : Listing}
    (hpicks : ∀ pick ∈ picks, Plain 64 pick.1 ∧ PickOk pick.1 pick.2)
    (hlisting : ∀ x ∈ listing.devices, Shaped 5 (x.1.payload x.2)) :
    ∀ x ∈ (Listing.ofPicks picks listing).devices, Shaped 5 (x.1.payload x.2) := by
  induction picks generalizing listing with
  | nil => exact hlisting
  | cons pick rest ih =>
    obtain ⟨d, pick⟩ := pick
    obtain ⟨hd, hpick⟩ := hpicks (d, pick) List.mem_cons_self
    have hrest := fun p hp => hpicks p (List.mem_cons_of_mem _ hp)
    cases pick with
    | noProvider mode => exact ih hrest hlisting
    | failed mode component error => exact ih hrest hlisting
    | active mode candidate answer =>
      refine ih hrest fun x hx => ?_
      rcases addDevices_mem hx with hx | ⟨hx, hc⟩
      · exact hlisting x hx
      · rw [hc]
        exact shaped_device hd (AnswerOk.devices hpick x.1 hx) candidate.component_plain

/-- A pick made of replies of the gateway. -/
theorem pickFrom_ok {rt : Runtime} (hrt : Runtime.CleanStr rt) {log : ManagerLog} {d : String}
    (hlog : ∀ reply ∈ repliesOf log d, reply.Decoded) : PickOk d (pickFrom rt log d) := by
  unfold pickFrom Pick.of
  split
  · trivial
  · next first rest mode _ =>
    dsimp only
    split
    · next candidate answer hchosen =>
      -- the answer taken is one of those accepted
      have hmem : (candidate, answer) ∈ accepted rt d (first :: rest) (repliesOf log d) := by
        rcases Option.or_eq_some_iff.mp hchosen with h | ⟨-, h⟩
        · exact List.mem_of_find?_eq_some h
        · exact List.mem_of_head? h
      obtain ⟨asked, -, hasked⟩ := List.mem_filterMap.mp hmem
      obtain ⟨answer', hanswer, heq⟩ := Option.map_eq_some_iff.mp hasked
      cases heq
      cases haccepted : acceptedAnswer rt asked.1 d asked.2 with
      | error e => rw [haccepted] at hanswer; cases hanswer
      | ok answer' =>
        rw [haccepted] at hanswer
        cases hanswer
        exact acceptedAnswer_ok haccepted
    · refine ⟨first.component_plain, ?_⟩
      cases herror : firstError rt d (first :: rest) (repliesOf log d) with
      | none => exact ⟨by decide, by decide⟩
      | some text =>
        obtain ⟨asked, hasked, htext⟩ := List.exists_of_findSome?_eq_some herror
        split at htext
        · cases htext
        · next e he =>
          cases htext
          have hreply := hlog asked.2 (List.of_mem_zip hasked).2
          exact ⟨length_clip_le 160 _, hasNul_clip (acceptedAnswer_clean hrt hreply he)⟩

/-! ## The report -/

/-- The devices of a report as payloads. -/
def deviceRows (report : Inventory) : List Value := report.devices.map fun x => x.1.payload x.2

/-- A report that fits a reply: what adds up over the providers is within the
    limits of a packet. -/
structure ReportFits (id : Int) (report : Inventory) : Prop where
  rows : report.rows.length ≤ 256
  devices : report.devices.length ≤ 256
  nodes : nodesItems report.rows + nodesItems (deviceRows report) ≤ 2040
  revision : Python.shortInt report.revision = true
  size : (Server.returnPacket id report.payload).size ≤ maxHalJson

private theorem report_nodes (report : Inventory) :
    report.payload.nodes = 5 + nodesItems report.rows + nodesItems (deviceRows report) := by
  simp only [Inventory.payload, Value.object, List.map_cons, List.map_nil, Value.nodes,
    Python.nodesMembers, deviceRows]
  omega

/-- The payload of a report, apart from what adds up. -/
private theorem report_shape {report : Inventory} (hrows : ∀ v ∈ report.rows, Shaped 1 v)
    (hdevices : ∀ x ∈ report.devices, Shaped 5 (x.1.payload x.2)) :
    report.payload.height ≤ 7 ∧
    (wellFormed report.payload = true ↔ report.rows.length ≤ 256 ∧ report.devices.length ≤ 256) ∧
    (report.payload.dumpable = true ↔ Python.shortInt report.revision = true) := by
  obtain ⟨hrowsHeight, hrowsWell, hrowsDump⟩ := shaped_items hrows
  have hdeviceRows : ∀ v ∈ deviceRows report, Shaped 5 v := by
    intro v hv
    obtain ⟨x, hx, rfl⟩ := List.mem_map.mp hv
    exact hdevices x hx
  obtain ⟨hdevHeight, hdevWell, hdevDump⟩ := shaped_items hdeviceRows
  have hkeys : ["schema", "revision", "domains", "devices"].all
      (fun key => plainKey (.str key)) = true := by decide
  simp only [List.all_cons, List.all_nil, Bool.and_true, Bool.and_eq_true] at hkeys
  obtain ⟨hk₁, hk₂, hk₃, hk₄⟩ := hkeys
  have hschema : plainText managerInterface = true := by decide
  have hlen : (deviceRows report).length = report.devices.length := List.length_map _
  simp only [Inventory.payload, ← deviceRows.eq_def, Value.object, List.map_cons, List.map_nil]
  refine ⟨?_, ?_, ?_⟩
  · simp only [Value.height, Python.heightMembers]
    omega
  · simp [wellFormed, wellFormedMembers, hk₁, hk₂, hk₃, hk₄, hschema, hrowsWell, hdevWell, hlen]
  · simp [Value.dumpable, Python.dumpableMembers, Python.dumpableKey, hrowsDump, hdevDump]

/-- A return packet around a payload. -/
private theorem returnPacket_shape {id : Int} (hid : Python.shortInt id = true) (payload : Value) :
    (Server.returnPacket id payload).nodes = 3 + payload.nodes ∧
    (Server.returnPacket id payload).height = payload.height + 1 ∧
    (wellFormed (Server.returnPacket id payload) = true ↔ wellFormed payload = true) ∧
    ((Server.returnPacket id payload).dumpable = true ↔ payload.dumpable = true) ∧
    payload.size ≤ (Server.returnPacket id payload).size := by
  have hkeys : ["type", "id", "payload"].all (fun key => plainKey (.str key)) = true := by decide
  simp only [List.all_cons, List.all_nil, Bool.and_true, Bool.and_eq_true] at hkeys
  obtain ⟨hk₁, hk₂, hk₃⟩ := hkeys
  have htype : plainText "return" = true := by decide
  simp only [Server.returnPacket, Value.object, List.map_cons, List.map_nil]
  refine ⟨?_, ?_, ?_, ?_, ?_⟩
  · simp only [Value.nodes, Python.nodesMembers]
    omega
  · simp only [Value.height, Python.heightMembers]
    omega
  · simp [wellFormed, wellFormedMembers, hk₁, hk₂, hk₃, htype]
  · simp [Value.dumpable, Python.dumpableMembers, Python.dumpableKey, hid]
  · simp only [Value.size, Value.text, Python.textMembers, String.utf8Len_append,
      String.utf8Len_cons]
    omega

/-- A report fits a reply exactly when what adds up does. -/
theorem report_fits_iff {id : Int} (hid : Python.shortInt id = true) {report : Inventory}
    (hrows : ∀ v ∈ report.rows, Shaped 1 v)
    (hdevices : ∀ x ∈ report.devices, Shaped 5 (x.1.payload x.2)) :
    Bounded 8 2048 report.payload ∧ Bounded 10 2048 (Server.returnPacket id report.payload) ↔
      ReportFits id report := by
  have hnodes := report_nodes report
  obtain ⟨hheight, hwell, hdump⟩ := report_shape hrows hdevices
  obtain ⟨hpnodes, hpheight, hpwell, hpdump, hpsize⟩ := returnPacket_shape hid report.payload
  constructor
  · rintro ⟨hpayload, hpacket⟩
    have hcount := hpacket.nodes
    obtain ⟨hr, hd⟩ := hwell.mp hpayload.wellFormed
    exact ⟨hr, hd, by omega, hdump.mp hpayload.dumpable, hpacket.size⟩
  · intro hfits
    have hcount := hfits.nodes
    have hsize := hfits.size
    have hw := hwell.mpr ⟨hfits.rows, hfits.devices⟩
    have hd := hdump.mpr hfits.revision
    exact ⟨⟨by omega, by omega, hw, hd, by omega⟩,
      ⟨by omega, by omega, hpwell.mpr hw, hpdump.mpr hd, hsize⟩⟩

/-! ## The request -/

theorem nodup_stringList {value : Value} {label : String} {maximumItems itemMaximum : Nat}
    {result : List String} (h : stringList value label maximumItems itemMaximum = .ok result) :
    result.Nodup := by
  have hfrom : ∀ (items : List Value) (index : Nat) (acc : List String), acc.Nodup →
      stringListFrom label itemMaximum items index acc = .ok result → result.Nodup := by
    intro items
    induction items with
    | nil =>
      intro index acc hacc h
      cases h
      exact hacc
    | cons item rest ih =>
      intro index acc hacc h
      obtain ⟨text, -, h⟩ := Except.bind_eq_ok_iff.mp h
      dsimp only at h
      split at h
      · exact nomatch h
      · next hnew =>
        refine ih (index + 1) (acc ++ [text]) ?_ h
        rw [List.nodup_append]
        refine ⟨hacc, List.nodup_singleton text, fun a ha b hb => ?_⟩
        rw [List.mem_singleton] at hb
        rintro rfl
        exact hnew (List.contains_iff_mem.mpr (hb ▸ ha))
  unfold stringList at h
  split at h
  · rw [Except.ite_error_eq_ok_iff] at h
    exact hfrom _ 0 [] List.nodup_nil h.2
  · exact nomatch h

theorem checkedDomains_ok {index : Nat} {items ds : List String}
    (h : checkedDomains index items = .ok ds) : ds = items ∧ ∀ d ∈ ds, matchesDomain d = true := by
  induction items generalizing index ds with
  | nil =>
    cases h
    exact ⟨rfl, fun d hd => by cases hd⟩
  | cons item rest ih =>
    obtain ⟨d, hd, h⟩ := Except.bind_eq_ok_iff.mp h
    obtain ⟨ds', hds, h⟩ := Except.bind_eq_ok_iff.mp h
    cases h
    obtain ⟨rfl, hall⟩ := ih hds
    obtain ⟨hitem, -, -, hgrammar⟩ := matching_ok hd
    cases hitem
    exact ⟨rfl, List.forall_mem_cons.mpr ⟨hgrammar, hall⟩⟩

/-- The domains a client has asked for. -/
theorem inventory_request_ok {rt : Runtime} {payload : Value} {domains : Option (List String)}
    {refresh : Bool}
    (h : parseRequest rt "inventory" payload = .ok (.inventory domains refresh)) :
    ∀ ds, domains = some ds → ds.Nodup ∧ ∀ d ∈ ds, matchesDomain d = true := by
  obtain ⟨request, -, h⟩ := Except.bind_eq_ok_iff.mp h
  obtain ⟨domains', hdomains, h⟩ := Except.bind_eq_ok_iff.mp h
  obtain ⟨refresh', -, h⟩ := Except.bind_eq_ok_iff.mp h
  cases h
  intro ds hds
  subst hds
  unfold requestedDomains at hdomains
  split at hdomains
  · exact nomatch hdomains
  · exact nomatch hdomains
  · obtain ⟨items, hitems, h⟩ := Except.bind_eq_ok_iff.mp hdomains
    obtain ⟨ds', hds', h⟩ := Except.bind_eq_ok_iff.mp h
    dsimp only at h
    split at h
    · exact nomatch h
    · cases h
      obtain ⟨rfl, hall⟩ := checkedDomains_ok hds'
      exact ⟨nodup_stringList hitems, hall⟩

theorem availableDomains_ok (candidates : List Candidate) :
    (availableDomains candidates).Nodup ∧
      ∀ d ∈ availableDomains candidates, matchesDomain d = true := by
  constructor
  · rw [availableDomains, sortStrings, (List.perm_insertionSort _ _).nodup_iff]
    exact List.nodup_dedup _
  · intro d hd
    rw [availableDomains, sortStrings, List.mem_insertionSort, List.mem_dedup,
      List.mem_append] at hd
    rcases hd with hd | hd
    · have hknown : ∀ d ∈ knownDomains, matchesDomain d = true := by decide
      exact hknown d hd
    · obtain ⟨candidate, -, hd⟩ := List.mem_flatMap.mp hd
      exact candidate.domains_valid d hd

/-- The domains of an inventory are all different and match the grammar. -/
theorem requestedOf_ok {rt : Runtime} {payload : Value} {domains : Option (List String)}
    {refresh : Bool} (h : parseRequest rt "inventory" payload = .ok (.inventory domains refresh))
    (log : ManagerLog) : (requestedOf domains log).Nodup ∧
      ∀ d ∈ requestedOf domains log, matchesDomain d = true := by
  cases domains with
  | some ds => exact inventory_request_ok h ds rfl
  | none =>
    rw [requestedOf, Option.getD_none]
    exact availableDomains_ok _

/-! ## The inventory comes to an end -/

/-- An operation that is never blocked and leaves the catalog lock as it is. -/
def KeepsLock (o : ManagerOp) : Prop :=
  ∀ i s, ∃ r s', managerExec o i s = some (r, s') ∧ s'.catalogLocked = s.catalogLocked

theorem Probes.keepsLock {d : String} {o : ManagerOp} (h : Probes d o) : KeepsLock o := by
  cases o <;> simp only [Probes] at h <;> exact fun i s => ⟨_, _, rfl, rfl⟩

theorem ends_of_keepsLock {α : Type} {p : ManagerProg α} {locked : Bool}
    (h : Issues (S := managerSig) KeepsLock p) :
    Ends managerMachine (fun s => s.catalogLocked = locked) (fun s => s.catalogLocked = locked) p :=
  .of_issues (h.mono fun _ ho i s hs => by
    obtain ⟨r, s', he, hs'⟩ := ho i s
    exact ⟨r, s', he, hs'.trans hs⟩)

theorem rediscover_keepsLock (rt : Runtime) (force : Bool) (lookup : Option String) :
    Issues (S := managerSig) KeepsLock (rediscover rt force lookup) := by
  refine (op_issues fun i s => ⟨_, _, rfl, rfl⟩).bind fun known => ?_
  cases known with
  | some candidates => exact pure_issues _
  | none =>
    refine (invoke_issues rt fun i s => ⟨_, _, rfl, rfl⟩).bind fun discovery => ?_
    refine (check_issues _).bind fun specs => ?_
    refine (describeBatches_issues (fun _ _ _ _ i s => ⟨_, _, rfl, rfl⟩) rt _ _).bind fun _ => ?_
    exact op_issues fun i s => ⟨_, _, rfl, rfl⟩

/-- No discovery is in progress. -/
def Unlocked (s : ManagerState) : Prop := s.catalogLocked = false

theorem refreshCatalog_ends (rt : Runtime) (force : Bool) (lookup : Option String) :
    Ends managerMachine Unlocked Unlocked (refreshCatalog rt force lookup) := by
  have hread : ∀ i s, Unlocked s → ∃ r s',
      managerExec (.readCatalog force lookup) i s = some (r, s') ∧ Unlocked s' :=
    fun i s hs => ⟨_, _, rfl, hs⟩
  have hlock : ∀ i s, Unlocked s → ∃ r s',
      managerExec .lockCatalog i s = some (r, s') ∧ s'.catalogLocked = true := by
    intro i s hs
    refine ⟨(), { s with catalogLocked := true }, ?_, rfl⟩
    exact if_neg (by rw [hs]; decide)
  have hunlock : ∀ i s, s.catalogLocked = true → ∃ r s',
      managerExec .unlockCatalog i s = some (r, s') ∧ Unlocked s' :=
    fun i s _ => ⟨_, _, rfl, rfl⟩
  refine .perform_bind hread fun known => ?_
  cases known with
  | some candidates => exact .pure _
  | none =>
    refine .perform_bind hlock fun _ => ?_
    refine .withCleanup (ends_of_keepsLock (rediscover_keepsLock rt force lookup)) fun x => ?_
    exact .perform_bind hunlock fun _ => .ofExcept x

theorem pickDomain_ends (rt : Runtime) (d : String) :
    Ends managerMachine Unlocked Unlocked (pickDomain rt d) := by
  have hordered : Ends managerMachine Unlocked Unlocked (orderedFor rt d) :=
    ((refreshCatalog_ends rt false (some d)).bind fun _ => .pure _).bind fun _ =>
      .perform_bind (fun i s hs => ⟨_, _, rfl, hs⟩) fun _ => .pure _
  refine hordered.bind fun ⟨ordered, mode⟩ => ?_
  cases ordered with
  | nil => exact .pure _
  | cons first rest =>
    exact ends_of_keepsLock ((tryCandidates_probes rt d mode first _ none none).mono
      fun _ h => h.keepsLock)

theorem inventory_ends (rt : Runtime) (domains : Option (List String)) (refresh : Bool) :
    Ends managerMachine Unlocked Unlocked (inventory rt domains refresh) := by
  have hpicks : ∀ requested,
      Ends managerMachine Unlocked Unlocked (pickDomains rt requested) := by
    intro requested
    induction requested with
    | nil => exact .pure _
    | cons d rest ih => exact (pickDomain_ends rt d).bind fun _ => ih.bind fun _ => .pure _
  refine (refreshCatalog_ends rt refresh none).bind fun candidates => ?_
  refine (hpicks _).bind fun picks => ?_
  exact .perform_bind (fun i s hs => ⟨_, _, rfl, hs⟩) fun _ => .pure _

/-! ## The reply -/

/-- The manager behind the server: a call is one run of `handle` from the state,
    under the inputs of the environment. -/
def managerHandler (rt : Runtime) (ω : Nat → Input) (s : ManagerState) (method : String)
    (payload : Value) : Except PyError Value :=
  match (handle rt method payload).run managerMachine ω s with
  | some out => out.result
  | none => .error (.exc "Blocked" "")

/-- The log of a call. -/
def callLog (rt : Runtime) (ω : Nat → Input) (s : ManagerState) (method : String)
    (payload : Value) : ManagerLog :=
  (handle rt method payload).log managerMachine ω s

theorem decoded_of_log {α : Type} {p : ManagerProg α} {ω : Nat → Input} {s : ManagerState}
    (hω : ∀ n, (ω n).reply.Decoded) {d : String} :
    ∀ reply ∈ repliesOf (p.log managerMachine ω s) d, reply.Decoded := by
  intro reply hreply
  obtain ⟨⟨o, r⟩, hmem, hstep⟩ := List.mem_filterMap.mp hreply
  obtain ⟨n, s₁, s₂, hexec⟩ := Prog.of_mem_log hmem
  unfold replyStep at hstep
  split at hstep
  · next heq =>
    cases heq
    split at hstep
    · cases hstep
      cases hexec
      exact hω n
    · exact nomatch hstep
  · exact nomatch hstep

/-- What the manager returns for an inventory. -/
theorem managerHandler_inventory {rt : Runtime} {payload : Value} {domains : Option (List String)}
    {refresh : Bool}
    (hparse : parseRequest rt "inventory" payload = .ok (.inventory domains refresh))
    {ω : Nat → Input} {s : ManagerState} (hs : Unlocked s)
    (hd : Discovered rt (callLog rt ω s "inventory" payload)) :
    managerHandler rt ω s "inventory" payload =
      .ok (reportOf (revisionOf (callLog rt ω s "inventory" payload))
        (picksOf rt domains (callLog rt ω s "inventory" payload))).payload := by
  have hhandle : handle rt "inventory" payload =
      (inventory rt domains refresh >>= fun report => pure report.payload : ManagerProg Value) := by
    rw [handle, hparse]
    rfl
  unfold callLog managerHandler at *
  rw [hhandle] at hd ⊢
  obtain ⟨out, hrun, -⟩ := (inventory_ends rt domains refresh).bind (fun _ => .pure _) ω s hs
  rw [hrun]
  dsimp only
  have hpath := Path.of_run hrun
  rcases Path.of_bind hpath with ⟨e, -, hp⟩ | ⟨report, log₁, log₂, hlog, hp, hreturn⟩
  · exact nomatch inventory_path rt hp hd (requestedOf_ok hparse _).1
  · obtain ⟨rfl, hout⟩ := Path.of_pure hreturn
    rw [List.append_nil] at hlog
    rw [hlog] at hd ⊢
    cases inventory_path rt hp hd (requestedOf_ok hparse _).1
    exact hout

/-- Each row names its domain. -/
theorem row_domain {d : String} {pick : Pick} (h : PickOk d pick) :
    (pick.row d).get? "domain" = some (.str d) := by
  cases pick with
  | noProvider mode => rfl
  | failed mode component error => rfl
  | active mode candidate answer =>
    have hdomain : (Pick.row d (.active mode candidate answer)).get? "domain" =
        some (.str answer.domain) := rfl
    rw [hdomain, AnswerOk.domain h]

/-- A well-formed request for an inventory while no discovery is in progress. It is
    answered with the rows of all requested domains exactly when there is a slot for
    it and what the accepted answers add up to fits a reply. -/
theorem inventory_answered (rt : Runtime) (hrt : Runtime.CleanStr rt) (data : ByteArray)
    (message : Value) (hmessage : decodePacket rt data = .ok message) (nowMs : Int)
    (payload : Value) (hcall : Server.checkCall nowMs message = .ok ("inventory", payload))
    (domains : Option (List String)) (refresh : Bool)
    (hparse : parseRequest rt "inventory" payload = .ok (.inventory domains refresh))
    (server : Server) (s : ManagerState) (hs : Unlocked s)
    (ω : Nat → Input) (hω : ∀ n, (ω n).reply.Decoded)
    (hd : Discovered rt (callLog rt ω s "inventory" payload)) :
    (∃ report : Inventory,
      report.rows.map (fun row => row.get? "domain") =
        (requestedOf domains (callLog rt ω s "inventory" payload)).map (fun d => some (.str d)) ∧
      Server.accept (managerHandler rt ω s) nowMs .executed message server =
        some ⟨server.free, server.sent ++
          [Server.returnPacket (Server.requestId message) report.payload]⟩) ↔
    0 < server.free ∧ ReportFits (Server.requestId message)
      (reportOf (revisionOf (callLog rt ω s "inventory" payload))
        (picksOf rt domains (callLog rt ω s "inventory" payload))) := by
  have hid := Server.shortInt_requestId hmessage
  have hhandler := managerHandler_inventory hparse hs hd
  have hlog : ∀ d, ∀ reply ∈ repliesOf (callLog rt ω s "inventory" payload) d, reply.Decoded :=
    fun d => decoded_of_log hω
  generalize callLog rt ω s "inventory" payload = log at hhandler hlog hd ⊢
  -- Every pick is well formed, and so is every row that is made of one.
  have hpicks : ∀ pick ∈ picksOf rt domains log, Plain 64 pick.1 ∧ PickOk pick.1 pick.2 := by
    intro pick hpick
    obtain ⟨d, hmem, rfl⟩ := List.mem_map.mp hpick
    exact ⟨plain_of_matchesDomain ((requestedOf_ok hparse log).2 d hmem), pickFrom_ok hrt (hlog d)⟩
  have hrows : ∀ v ∈ (reportOf (revisionOf log) (picksOf rt domains log)).rows, Shaped 1 v := by
    intro v hv
    obtain ⟨pick, hpick, rfl⟩ := List.mem_map.mp hv
    exact shaped_row (hpicks pick hpick).1 (hpicks pick hpick).2
  have hfits := report_fits_iff hid hrows (shaped_devices hpicks fun x hx => nomatch hx)
  rw [← hfits]
  by_cases hfree : server.free = 0
  · refine iff_of_false ?_ fun h => by omega
    -- Without a slot the call is answered as busy.
    rintro ⟨report, -, hreport⟩
    exact Server.accept_busy_ne_return _ nowMs message server hfree hreport
  have hslots : server.free - 1 + 1 = server.free := by omega
  rw [Server.accept, if_neg hfree]
  constructor
  · rintro ⟨report, -, hreport⟩
    -- A packet that was sent is bounded.
    rw [Option.some.injEq] at hreport
    have hdispatch :
        Server.dispatch (managerHandler rt ω s) nowMs (Server.requestId message) message
        { server with free := server.free - 1 } = ⟨server.free - 1 + 1, server.sent ++
          [Server.returnPacket (Server.requestId message) report.payload]⟩ := by
      rw [hreport, hslots]
    exact ⟨by omega, Server.bounded_of_dispatch_returns _ nowMs message _ hcall hhandler hdispatch⟩
  · rintro ⟨-, hresult, hpacket⟩
    refine ⟨reportOf (revisionOf log) (picksOf rt domains log), ?_, ?_⟩
    -- A report that fits is sent as it is.
    · simp only [reportOf, picksOf, List.map_map]
      apply List.map_congr_left
      intro d hmem
      exact row_domain (hpicks (d, pickFrom rt log d) (List.mem_map_of_mem hmem)).2
    · have hdispatch := Server.dispatch_returns _ nowMs message
        { server with free := server.free - 1 } hcall hhandler hresult hpacket
      rw [hslots] at hdispatch
      exact congrArg some hdispatch

namespace Sample

/-- A call for the inventory of the domains. -/
def ask (domains : List String) : ByteArray :=
  (String.ofList (Value.object [("type", .str "call"), ("id", .int 7), ("method", .str "inventory"),
    ("payload", .object [("domains", strings domains)])]).text).toUTF8

/-- The environment of such a call: discovery of a component with the domains, and
    its inventory of each of them. -/
def askInputs (component : String) (domains : List String) (devices : String → List Value) :
    List Input :=
  let quiet : Input := {}
  let answer (reply : Reply) : Input := { reply := reply }
  [quiet, quiet, quiet, answer (discovery [component]), answer (description component domains),
    quiet, quiet] ++ domains.flatMap fun d =>
      [quiet, quiet, quiet, answer (inventory component d (devices d)), quiet, quiet]

/-- An environment that supplies the inputs one by one. -/
def supply (inputs : List Input) (n : Nat) : Input := inputs.getD n {}

/-- Two devices, each with a list of 230 values in its metadata. -/
def twoDevices (d : String) : List Value :=
  let metadata : List (Value × Value) := [(.str "samples", .list (List.replicate 230 .null))]
  [device (d ++ ":a") d metadata, device (d ++ ":b") d metadata]

/-- Five domains of one provider. -/
def fiveDomains : List String := ["power", "thermal", "backlight", "display", "input"]

end Sample

instance (v : Value) (D N : Nat) : Decidable (Bounded D N v) :=
  decidable_of_iff ((ensureBoundedJson v "" D N).isOk = true) (by
    rw [← ensureBoundedJson_ok_iff v "" D N]
    cases ensureBoundedJson v "" D N with
    | error e => exact ⟨fun h => (nomatch h), fun h => (nomatch h)⟩
    | ok u => exact ⟨fun _ => rfl, fun _ => rfl⟩)

instance (reply : Reply) : Decidable reply.Decoded :=
  match reply with
  | .response v => inferInstanceAs (Decidable (Bounded 10 2048 v))
  | .raised e => inferInstanceAs (Decidable (hasNul e.message = false))
  | .unreachable _ => isTrue trivial
  | .failed _ => isTrue trivial

theorem supply_decoded {inputs : List Input} (h : ∀ i ∈ inputs, i.reply.Decoded) (n : Nat) :
    (Sample.supply inputs n).reply.Decoded := by
  rw [Sample.supply, List.getD_eq_getElem?_getD]
  cases hn : inputs[n]? with
  | none => exact trivial
  | some i => exact h i (List.mem_of_getElem? hn)

namespace Sample

/-- A test of the call, its payload and its request. -/
def asked (data : ByteArray)
    (test : Value → Value → Option (List String) → Bool → Bool) : Bool :=
  match decodePacket Runtime.sample data with
  | .ok message =>
    match Server.checkCall 0 message with
    | .ok (method, payload) => method == "inventory" &&
      match parseRequest Runtime.sample "inventory" payload with
      | .ok (.inventory domains refresh) => test message payload domains refresh
      | _ => false
    | .error _ => false
  | .error _ => false

theorem asked_elim {data : ByteArray} {test : Value → Value → Option (List String) → Bool → Bool}
    (h : asked data test = true) : ∃ message payload domains refresh,
      decodePacket Runtime.sample data = .ok message ∧
      Server.checkCall 0 message = .ok ("inventory", payload) ∧
      parseRequest Runtime.sample "inventory" payload = .ok (.inventory domains refresh) ∧
      test message payload domains refresh = true := by
  unfold asked at h
  split at h
  · next message hmessage =>
    split at h
    · next method payload hcall =>
      rw [Bool.and_eq_true, beq_iff_eq] at h
      obtain ⟨rfl, h⟩ := h
      split at h
      · next domains refresh hparse =>
        exact ⟨message, payload, domains, refresh, hmessage, hcall, hparse, h⟩
      · exact nomatch h
    · exact nomatch h
  · exact nomatch h

theorem runtime_clean : Runtime.CleanStr Runtime.sample := fun _ => (by decide : hasNul "" = false)

end Sample

instance (id : Int) (report : Inventory) : Decidable (ReportFits id report) :=
  decidable_of_iff ((report.rows.length ≤ 256 ∧ report.devices.length ≤ 256) ∧
      nodesItems report.rows + nodesItems (deviceRows report) ≤ 2040 ∧
      Python.shortInt report.revision = true ∧
      (Server.returnPacket id report.payload).size ≤ maxHalJson)
    ⟨fun ⟨⟨h₁, h₂⟩, h₃, h₄, h₅⟩ => ⟨h₁, h₂, h₃, h₄, h₅⟩,
      fun h => ⟨⟨h.rows, h.devices⟩, h.nodes, h.revision, h.size⟩⟩

set_option maxRecDepth 10000 in
/-- The inventory of one small provider is answered. -/
theorem inventory_answered_one_domain : ∃ (message : Value) (report : Inventory),
    decodePacket Runtime.sample (Sample.ask ["power"]) = .ok message ∧
    report.rows.map (fun row => row.get? "domain") = [some (.str "power")] ∧
    Server.accept (managerHandler Runtime.sample
      (Sample.supply (Sample.askInputs "a.b:c" ["power"] Sample.twoDevices)) Sample.start)
      0 .executed message ⟨12, []⟩ =
      some ⟨12, [Server.returnPacket (Server.requestId message) report.payload]⟩ := by
  have heval : Sample.asked (Sample.ask ["power"]) (fun message payload domains _ =>
      let log := callLog Runtime.sample
        (Sample.supply (Sample.askInputs "a.b:c" ["power"] Sample.twoDevices)) Sample.start
        "inventory" payload
      log.all (fun x => !discoveryFails Runtime.sample x) && requestedOf domains log == ["power"] &&
        decide (ReportFits (Server.requestId message)
          (reportOf (revisionOf log) (picksOf Runtime.sample domains log)))) = true := by
    decide +kernel
  have hreplies : ∀ i ∈ Sample.askInputs "a.b:c" ["power"] Sample.twoDevices, i.reply.Decoded := by
    decide +kernel
  obtain ⟨message, payload, domains, refresh, hmessage, hcall, hparse, htest⟩ :=
    Sample.asked_elim heval
  simp only [Bool.and_eq_true, List.all_eq_true, Bool.not_eq_true', beq_iff_eq,
    decide_eq_true_eq] at htest
  obtain ⟨report, hrows, haccept⟩ := (inventory_answered Runtime.sample Sample.runtime_clean _
    message hmessage 0 payload hcall domains refresh hparse ⟨12, []⟩ Sample.start rfl _
    (supply_decoded hreplies) htest.1.1).mpr ⟨by decide, htest.2⟩
  rw [htest.1.2] at hrows
  exact ⟨message, report, hmessage, hrows, haccept⟩

set_option maxRecDepth 10000 in
/-- Five inventories of two devices each, every one of them accepted, add up to a
    result with too many values: the client gets an error. -/
theorem inventory_overflows : ¬∀ (rt : Runtime), Runtime.CleanStr rt →
    ∀ (data : ByteArray) (message : Value), decodePacket rt data = .ok message →
    ∀ (nowMs : Int) (payload : Value),
      Server.checkCall nowMs message = .ok ("inventory", payload) →
    ∀ (domains : Option (List String)) (refresh : Bool),
      parseRequest rt "inventory" payload = .ok (.inventory domains refresh) →
    ∀ (server : Server), 0 < server.free → ∀ (s : ManagerState), Unlocked s →
    ∀ (ω : Nat → Input), (∀ n, (ω n).reply.Decoded) →
      Discovered rt (callLog rt ω s "inventory" payload) →
      ∃ report : Inventory, Server.accept (managerHandler rt ω s) nowMs .executed message server =
        some ⟨server.free, server.sent ++
          [Server.returnPacket (Server.requestId message) report.payload]⟩ := by
  intro hclaim
  -- Five domains with two devices each make a report that is too large to be sent.
  have heval : Sample.asked (Sample.ask Sample.fiveDomains) (fun message payload _ _ =>
      let ω := Sample.supply (Sample.askInputs "a.b:c" Sample.fiveDomains Sample.twoDevices)
      (callLog Runtime.sample ω Sample.start "inventory" payload).all
        (fun x => !discoveryFails Runtime.sample x) &&
      (Server.accept (managerHandler Runtime.sample ω Sample.start) 0 .executed message
        ⟨12, []⟩).any
        fun server => server.sent.all fun packet => isText "error" (packet.get? "type")) =
          true := by
    decide +kernel
  have hreplies : ∀ i ∈ Sample.askInputs "a.b:c" Sample.fiveDomains Sample.twoDevices,
      i.reply.Decoded := by
    decide +kernel
  obtain ⟨message, payload, domains, refresh, hmessage, hcall, hparse, htest⟩ :=
    Sample.asked_elim heval
  simp only [Bool.and_eq_true, List.all_eq_true, Bool.not_eq_true'] at htest
  obtain ⟨report, haccept⟩ :=
    hclaim Runtime.sample Sample.runtime_clean _ message hmessage 0 payload
    hcall domains refresh hparse ⟨12, []⟩ (by decide) Sample.start rfl _ (supply_decoded hreplies)
    htest.1
  rw [haccept] at htest
  -- A return packet would have been sent, but the packet is an error.
  have htype : isText "error" (some (.str "return")) = true := by
    have hall := htest.2
    rw [Option.any_some, List.all_eq_true] at hall
    exact hall _ (List.mem_singleton_self _)
  exact nomatch htype

end MsysHal
