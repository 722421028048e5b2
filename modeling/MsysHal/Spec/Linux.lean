import MsysHal.Python.ExactFloats
import MsysHal.Python.Linux
import MsysHal.Spec.Accepted

/-!
# The inventories of the Linux providers

A backend lists up to 128 entries of its class directory, and the manager checks
what the provider replies: each device, the row of the domain, and the reply as a
whole. The devices always pass their own checks. What can fail is the check of
the reply, with its bound of 512 values: every device costs at least eight.

## Key results

- `reply_bounded_iff`: when a reply is within the bounds, from what was found
- `normalizeInventory_reply`: a reply within the bounds is accepted, with its devices in order
- `linux_inventory_accepted`: exactly which class directories are accepted
-/

namespace MsysHal

open Python (Value Runtime memberSize nodesItems nodesMembers heightItems heightMembers
  dumpableItems dumpableMembers)
open Ch347 (Floats)

/-! ## Devices -/

/-- A value that is not a container. -/
def Scalar : Value → Prop
  | .list _ | .dict _ => False
  | _ => True

/-- What every device of a backend is. -/
structure LinuxDevice.Shaped (device : LinuxDevice) : Prop where
  name : matchesEntry device.name.toList = true
  fields : device.mutable = [] ∨ device.mutable = ["brightness", "brightness_percent"] ∨
    device.mutable = ["orientation", "matrix"]
  count : device.metadata.length ≤ 5
  keys : ∀ m ∈ device.metadata, plainKey (.str m.1) = true
  scalars : ∀ m ∈ device.metadata, Scalar m.2

/-- Number of values a device counts for. -/
def LinuxDevice.values (device : LinuxDevice) : Nat :=
  7 + device.mutable.length + device.metadata.length

/-- Every text of the metadata can be written as JSON and is not too long. -/
def LinuxDevice.Writable (device : LinuxDevice) : Prop :=
  ∀ m ∈ device.metadata, wellFormed m.2 = true ∧ m.2.dumpable = true

theorem Scalar.nodes {v : Value} (h : Scalar v) : v.nodes = 1 := by
  cases v <;> first | rfl | exact absurd h id

theorem Scalar.height {v : Value} (h : Scalar v) : v.height = 0 := by
  cases v <;> first | rfl | exact absurd h id

section Device

variable {d : String} {device : LinuxDevice}

theorem nodes_strings (items : List String) : (strings items).nodes = 1 + items.length := by
  rw [strings, Value.nodes, Python.nodesItems_eq, List.map_map]
  have hone : (Value.nodes ∘ Value.str) = fun _ => 1 := rfl
  rw [hone, List.map_const', List.sum_replicate, smul_eq_mul, mul_one]

theorem nodes_metadata (h : device.Shaped) :
    (Value.object device.metadata).nodes = 1 + device.metadata.length := by
  rw [Value.object, Value.nodes, Python.nodesMembers_eq, List.map_map]
  have hone : device.metadata.map ((fun m : Value × Value => m.2.nodes) ∘
      fun m : String × Value => (Value.str m.1, m.2)) = device.metadata.map fun _ => 1 :=
    List.map_congr_left fun m hm => (h.scalars m hm).nodes
  rw [hone, List.map_const', List.sum_replicate, smul_eq_mul, mul_one]

theorem nodes_payload (h : device.Shaped) : (device.payload d).nodes = device.values := by
  simp only [LinuxDevice.payload, Value.object, List.map_cons, List.map_nil, Value.nodes,
    nodesMembers, nodes_strings]
  have hmeta := nodes_metadata h
  rw [Value.object] at hmeta
  simp only [Value.nodes] at hmeta
  rw [LinuxDevice.values]
  omega

theorem height_strings_le (items : List String) : (strings items).height ≤ 1 := by
  rw [strings, Value.height]
  induction items with
  | nil => exact Nat.zero_le 1
  | cons item rest ih =>
    rw [List.map_cons, heightItems]
    exact Nat.max_le.mpr ⟨le_rfl, ih⟩

theorem height_metadata_le (h : device.Shaped) : (Value.object device.metadata).height ≤ 1 := by
  rw [Value.object, Value.height]
  have hscalars := h.scalars
  generalize device.metadata = metadata at hscalars
  induction metadata with
  | nil => exact Nat.zero_le 1
  | cons m rest ih =>
    rw [List.forall_mem_cons] at hscalars
    rw [List.map_cons, heightMembers, hscalars.1.height]
    exact Nat.max_le.mpr ⟨le_rfl, ih hscalars.2⟩

theorem height_payload_le (h : device.Shaped) : (device.payload d).height ≤ 2 := by
  have hmeta := height_metadata_le h
  have hfields := height_strings_le device.mutable
  simp only [LinuxDevice.payload, Value.object, List.map_cons, List.map_nil, Value.height,
    heightMembers] at hmeta ⊢
  omega

end Device

/-! ## Identifiers -/

/-- The characters of a name of a directory entry. -/
theorem matchesEntry_chars {name : List Char} (h : matchesEntry name = true) :
    name.length ≤ 128 ∧ name ≠ [] ∧ ∀ c ∈ name, isEntryChar c = true := by
  cases name with
  | nil => exact nomatch h
  | cons c rest =>
    simp only [matchesEntry, Bool.and_eq_true, decide_eq_true_eq, List.all_eq_true] at h
    obtain ⟨⟨hc, hlen⟩, hrest⟩ := h
    refine ⟨by rw [List.length_cons]; omega, List.cons_ne_nil _ _, ?_⟩
    rw [List.forall_mem_cons]
    refine ⟨?_, hrest⟩
    rw [isEntryChar]
    simp only [Bool.or_eq_true] at hc ⊢
    exact .inl (.inl (.inl hc))

theorem matchesDomain_chars {d : String} (h : matchesDomain d = true) : ':' ∉ d.toList := by
  unfold matchesDomain at h
  split at h
  · exact nomatch h
  · next c rest hd =>
    simp only [Bool.and_eq_true, decide_eq_true_eq, List.all_eq_true] at h
    obtain ⟨⟨hc, -⟩, hrest⟩ := h
    rw [hd, List.mem_cons, not_or]
    refine ⟨?_, fun hmem => nomatch hrest _ hmem⟩
    rintro rfl
    exact nomatch hc

section Identifier

variable {d name : String} (hd : matchesDomain d = true) (hname : matchesEntry name.toList = true)

include hd in
theorem toList_identifier (name : String) : (d ++ ":" ++ name).toList.takeWhile (· != ':') =
    d.toList ∧ (d ++ ":" ++ name).toList.dropWhile (· != ':') = ':' :: name.toList := by
  have hall : ∀ c ∈ d.toList, (c != ':') = true := by
    intro c hc
    rw [bne_iff_ne]
    rintro rfl
    exact matchesDomain_chars hd hc
  have hsplit : (d ++ ":" ++ name).toList = d.toList ++ ':' :: name.toList := by
    rw [String.toList_append, String.toList_append, List.append_assoc]
    rfl
  rw [hsplit, List.takeWhile_append_of_pos hall, List.dropWhile_append_of_pos hall]
  simp

include hd in
theorem domainOf_identifier : domainOf (d ++ ":" ++ name) = d := by
  rw [domainOf, (toList_identifier hd name).1, String.ofList_toList]

include hname in
theorem plain_name : Plain 128 name := by
  obtain ⟨hlen, -, hchars⟩ := matchesEntry_chars hname
  refine ⟨by rwa [String.length_toList] at hlen, ?_⟩
  rw [hasNul, List.contains_eq_mem, decide_eq_false_iff_not]
  intro hnul
  cases hchars _ hnul

include hd hname in
theorem plain_identifier : Plain (d.length + 129) (d ++ ":" ++ name) := by
  obtain ⟨hlen, hnul⟩ := plain_name hname
  obtain ⟨-, hdnul⟩ := plain_of_matchesDomain hd
  have hcolon : hasNul ":" = false := by decide
  refine ⟨?_, by rw [hasNul_append, hasNul_append, hdnul, hcolon, hnul]; rfl⟩
  rw [String.length_append, String.length_append]
  have hone : ":".length = 1 := rfl
  omega

include hd hname in
theorem matchesDeviceId_identifier : matchesDeviceId (d ++ ":" ++ name) = true := by
  obtain ⟨hfront, hsuffix⟩ := toList_identifier hd name
  rw [matchesDeviceId, hfront, hsuffix, String.ofList_toList, hd, Bool.true_and]
  unfold matchesEntry at hname
  split at hname
  · exact nomatch hname
  · next c rest hchars =>
    rw [hchars]
    exact hname

include hd hname in
theorem deviceId_identifier (hlen : d.length ≤ 63) (label : String) :
    deviceId (.str (d ++ ":" ++ name)) label = .ok (d ++ ":" ++ name) := by
  obtain ⟨hbound, hnul⟩ := plain_identifier hd hname
  have hne : (d ++ ":" ++ name).isEmpty = false := by simp
  exact matching_text hne ⟨hbound.trans (by omega), hnul⟩ (matchesDeviceId_identifier hd hname)
    _ label

end Identifier

/-! ## Devices that are accepted -/

/-- A device as the manager takes it. -/
def LinuxDevice.normalized (d : String) (device : LinuxDevice) : Device where
  id := d ++ ":" ++ device.name
  domain := d
  name := clip 128 device.name
  available := device.available
  mutable := device.mutable
  metadata := device.metadata.map fun m => (.str m.1, m.2)

/-- The keys of a device. -/
def deviceKeys : List String := ["id", "domain", "name", "available", "mutable", "metadata"]

section Accepted

variable {d : String} (hd : ∀ label, domain (.str d) label = .ok d) (hlen : d.length ≤ 63)
  {device : LinuxDevice} (h : device.Shaped)

include h

theorem stringList_mutable (label : String) :
    stringList (strings device.mutable) label 32 = .ok device.mutable := by
  apply stringList_strings
  · rcases h.fields with hfields | hfields | hfields <;> rw [hfields] <;> decide
  · rcases h.fields with hfields | hfields | hfields <;> rw [hfields] <;> decide
  · intro s hs label
    have hnames :
        s = "brightness" ∨ s = "brightness_percent" ∨ s = "orientation" ∨ s = "matrix" := by
      rcases h.fields with hfields | hfields | hfields <;> rw [hfields] at hs <;>
        simp at hs <;> tauto
    rcases hnames with rfl | rfl | rfl | rfl <;> rfl

/-- The metadata of a device that can be sent. -/
theorem safeScalarMap_metadata (label : String) (hsend : Sendable (.object device.metadata)) :
    safeScalarMap (.object device.metadata) label =
      .ok (device.metadata.map fun m => (.str m.1, m.2)) := by
  have hcount := h.count
  have hnodes := nodes_metadata h
  have hbounded : Bounded 4 256 (.object device.metadata) :=
    ⟨by omega, (height_metadata_le h).trans (by omega), hsend.wellFormed,
      hsend.dumpable, hsend.size⟩
  have hcheck := (ensureBoundedJson_ok_iff _ label 4 256).mpr hbounded
  rw [Value.object] at hcheck ⊢
  rw [safeScalarMap, if_neg (by rw [List.length_map]; omega), hcheck]
  rfl

theorem deviceName_clip : deviceName (.str (clip 128 device.name)) =
    .ok (clip 128 device.name) := by
  obtain ⟨hcount, hne, -⟩ := matchesEntry_chars h.name
  have hclip : clip 128 device.name = device.name := by
    rw [clip, List.take_of_length_le hcount, String.ofList_toList]
  have hempty : device.name.isEmpty = false := by
    rw [← Bool.not_eq_true, String.isEmpty_iff]
    rintro heq
    exact hne (by rw [heq]; rfl)
  rw [String.length_toList] at hcount
  rw [hclip, deviceName, hempty, decide_eq_false (by omega)]
  rfl

include hd hlen in
theorem normalizeDevice_payload (hsend : Sendable (device.payload d)) :
    normalizeDevice (device.payload d) d = .ok (device.normalized d) := by
  have hcount := h.count
  have hfields : device.mutable.length ≤ 2 := by
    rcases h.fields with hfields | hfields | hfields <;> rw [hfields] <;> decide
  have hbounded : Bounded 6 512 (device.payload d) := by
    refine ⟨?_, (height_payload_le h).trans (by omega), hsend.wellFormed,
      hsend.dumpable, hsend.size⟩
    rw [nodes_payload h, LinuxDevice.values]
    omega
  have hitem : objectPayload (device.payload d) deviceKeys deviceKeys "HAL device" = .ok _ :=
    objectPayload_object deviceKeys rfl (by decide) hbounded
  have hgrammar := domain_ok (hd "")
  have hdomain := hd "domain"
  have hmetadata : ("metadata", Value.object device.metadata) ∈
      [("id", .str (d ++ ":" ++ device.name)), ("domain", .str d),
        ("name", .str (clip 128 device.name)), ("available", .bool device.available),
        ("mutable", strings device.mutable), ("metadata", .object device.metadata)] := by
    simp
  have hmeta := safeScalarMap_metadata h "device.metadata" (hsend.member hmetadata)
  have hid := deviceId_identifier hgrammar h.name hlen "device.id"
  have howner : domainOf (d ++ ":" ++ device.name) = d := domainOf_identifier hgrammar
  have hname := deviceName_clip h
  have hmutable := stringList_mutable h "device.mutable"
  rw [normalizeDevice]
  simp only [← deviceKeys.eq_def, hitem]
  simp [bind, Except.bind, Value.lookup, Value.isKey, hid, howner, hname, hmutable, hmeta, hdomain,
    deviceAvailable]
  rfl

omit h in
include hd hlen in
theorem normalizeDevices_payloads {devices : List LinuxDevice}
    (hshaped : ∀ device ∈ devices, device.Shaped)
    (hsend : ∀ device ∈ devices, Sendable (device.payload d)) :
    normalizeDevices d (devices.map (·.payload d)) = .ok (devices.map (·.normalized d)) := by
  induction devices with
  | nil => rfl
  | cons device devices ih =>
    rw [List.forall_mem_cons] at hshaped hsend
    rw [List.map_cons, normalizeDevices, normalizeDevice_payload hd hlen hshaped.1 hsend.1,
      ih hshaped.2 hsend.2]
    rfl

end Accepted

/-! ## The reply -/

/-- The members of the row of a domain. -/
def BackendInventory.rowMembers (inventory : BackendInventory) : List (String × Value) :=
  if inventory.devices.any (·.available) then
    [("domain", .str inventory.domain), ("status", .str "available")]
  else
    [("domain", .str inventory.domain), ("status", .str "unavailable"),
      ("reason", .str inventory.reason)]

/-- The status and the reason of a domain. -/
def BackendInventory.status (inventory : BackendInventory) : Status × Option String :=
  if inventory.devices.any (·.available) then (.available, none)
  else (.unavailable, some inventory.reason)

/-- Number of values a reply counts for. -/
def BackendInventory.values (inventory : BackendInventory) : Nat :=
  6 + inventory.rowMembers.length + (inventory.devices.map LinuxDevice.values).sum

/-- The reply to a request for one domain. -/
def BackendInventory.reply (inventory : BackendInventory) (providerId : String) : Value :=
  .dict (inventoryReply providerId [inventory])

/-- What every inventory of a backend is. -/
structure BackendInventory.Shaped (inventory : BackendInventory) : Prop where
  domain : ∀ label, MsysHal.domain (.str inventory.domain) label = .ok inventory.domain
  short : inventory.domain.length ≤ 63
  reason : ∀ label, boundedString (.str inventory.reason) label 256 = .ok inventory.reason
  devices : ∀ device ∈ inventory.devices, device.Shaped

section Reply

variable {inventory : BackendInventory} {providerId : String}

theorem row_eq (inventory : BackendInventory) : inventory.row = .object inventory.rowMembers := by
  rw [BackendInventory.row, BackendInventory.rowMembers]
  split <;> rfl

/-- The members of a reply. -/
def replyMembers (inventory : BackendInventory) (providerId : String) : List (String × Value) :=
  [("schema", .str providerInterface), ("provider", .str providerId),
    ("domains", .list [.object inventory.rowMembers]),
    ("devices", .list (inventory.devices.map (·.payload inventory.domain)))]

theorem reply_eq (inventory : BackendInventory) (providerId : String) :
    inventory.reply providerId = .object (replyMembers inventory providerId) := by
  rw [BackendInventory.reply, inventoryReply, List.map_singleton, row_eq, List.flatMap_singleton]
  rfl

theorem nodes_reply (h : inventory.Shaped) :
    (inventory.reply providerId).nodes = inventory.values := by
  have hrow : (Value.object inventory.rowMembers).nodes = 1 + inventory.rowMembers.length := by
    rw [BackendInventory.rowMembers]
    split <;> rfl
  have hdevices : Python.nodesItems (inventory.devices.map (·.payload inventory.domain)) =
      (inventory.devices.map LinuxDevice.values).sum := by
    rw [Python.nodesItems_eq, List.map_map]
    exact congrArg List.sum (List.map_congr_left fun device hdevice =>
      nodes_payload (h.devices device hdevice))
  simp only [reply_eq, replyMembers, Value.object, List.map_cons, List.map_nil, Value.nodes,
    nodesMembers, nodesItems, hdevices] at hrow ⊢
  rw [BackendInventory.values]
  omega

theorem plain_domain (h : inventory.Shaped) : Plain 64 inventory.domain := by
  obtain ⟨-, hlen, hnul, -⟩ := matching_ok (h.domain "")
  exact ⟨hlen, hnul⟩

/-- A device whose texts can be written is of the right shape. -/
theorem shaped_payload {d : String} (hd : Plain 64 d) {device : LinuxDevice} (h : device.Shaped)
    (hplain : Plain 193 (d ++ ":" ++ device.name)) (hwritable : device.Writable) :
    MsysHal.Shaped 2 (device.payload d) := by
  have hmutable : MsysHal.Shaped 1 (strings device.mutable) := by
    rcases h.fields with hfields | hfields | hfields <;> rw [hfields] <;>
      exact ⟨by decide, by decide, by decide⟩
  have hmetadata : MsysHal.Shaped 1 (.object device.metadata) := by
    refine shaped_object (device.metadata.map Prod.fst) (h := 0) rfl ?_ ?_
    · rw [Bool.and_eq_true, decide_eq_true_eq, List.length_map, List.all_eq_true]
      refine ⟨h.count.trans (by omega), ?_⟩
      rw [List.forall_mem_map]
      exact h.keys
    · exact fun m hm => ⟨(h.scalars m hm).height.le, (hwritable m hm).1, (hwritable m hm).2⟩
  have hname := plain_name h.name
  have hclip : Plain 128 (clip 128 device.name) := ⟨length_clip_le 128 _, hasNul_clip hname.2⟩
  refine shaped_object deviceKeys (h := 1) rfl (by decide) ?_
  simp only [List.forall_mem_cons, List.not_mem_nil, false_imp_iff, implies_true, and_true]
  exact ⟨(shaped_str hplain (by omega)).mono (by omega), (shaped_str hd (by omega)).mono (by omega),
    (shaped_str hclip (by omega)).mono (by omega), ⟨Nat.zero_le _, rfl, rfl⟩, hmutable, hmetadata⟩

/-- The devices of a reply that can be sent can be sent. -/
theorem sendable_devices (h : Sendable (inventory.reply providerId)) :
    ∀ device ∈ inventory.devices, Sendable (device.payload inventory.domain) := by
  intro device hdevice
  rw [reply_eq] at h
  have hmember : ("devices", Value.list (inventory.devices.map (·.payload inventory.domain))) ∈
      replyMembers inventory providerId := by
    simp [replyMembers]
  exact (h.member hmember).item (List.mem_map_of_mem hdevice)

theorem writable_of_sendable {d : String} {device : LinuxDevice} (h : Sendable (device.payload d)) :
    device.Writable := by
  intro m hm
  have hmetadata : ("metadata", Value.object device.metadata) ∈
      [("id", .str (d ++ ":" ++ device.name)), ("domain", .str d),
        ("name", .str (clip 128 device.name)), ("available", .bool device.available),
        ("mutable", strings device.mutable), ("metadata", .object device.metadata)] := by
    simp
  have hvalue := (h.member hmetadata).member hm
  exact ⟨hvalue.wellFormed, hvalue.dumpable⟩

/-- A list of values of the right shape. -/
theorem shaped_list {k : Nat} {items : List Value} (hlen : items.length ≤ 256)
    (hitems : ∀ v ∈ items, MsysHal.Shaped k v) : MsysHal.Shaped (k + 1) (.list items) := by
  obtain ⟨hheight, hwell, hdump⟩ := shaped_items hitems
  refine ⟨hheight, ?_, hdump⟩
  rw [wellFormed, hwell, decide_eq_true hlen, Bool.and_self]

theorem shaped_rowMembers (h : inventory.Shaped) :
    MsysHal.Shaped 1 (.object inventory.rowMembers) := by
  have hdomain := shaped_str (plain_domain h) (by omega)
  have hreason := shaped_str (boundedString_ok (h.reason "")).2 (by omega)
  have hstatus : MsysHal.Shaped 0 (.str "available") := ⟨by decide, by decide, rfl⟩
  have hstatus' : MsysHal.Shaped 0 (.str "unavailable") := ⟨by decide, by decide, rfl⟩
  rw [BackendInventory.rowMembers]
  split
  · refine shaped_object ["domain", "status"] (h := 0) rfl (by decide) ?_
    simp only [List.forall_mem_cons, List.not_mem_nil, false_imp_iff, implies_true, and_true]
    exact ⟨hdomain, hstatus⟩
  · refine shaped_object ["domain", "status", "reason"] (h := 0) rfl (by decide) ?_
    simp only [List.forall_mem_cons, List.not_mem_nil, false_imp_iff, implies_true, and_true]
    exact ⟨hdomain, hstatus', hreason⟩

/-- Every device counts for at least seven values. -/
theorem length_le_values (inventory : BackendInventory) :
    inventory.devices.length * 7 ≤ inventory.values := by
  have hsum := List.card_nsmul_le_sum (inventory.devices.map LinuxDevice.values) 7 (by
    rw [List.forall_mem_map]
    intro device _
    rw [LinuxDevice.values]
    omega)
  rw [List.length_map, smul_eq_mul] at hsum
  rw [BackendInventory.values]
  omega

theorem shaped_reply (h : inventory.Shaped) (hprovider : Plain 192 providerId)
    (hvalues : inventory.values ≤ 512) (hwritable : ∀ device ∈ inventory.devices, device.Writable) :
    MsysHal.Shaped 4 (inventory.reply providerId) := by
  have hlength := length_le_values inventory
  have hinterface : Plain 64 providerInterface := ⟨by decide, by decide⟩
  have hdomain := plain_domain h
  have hgrammar := domain_ok (h.domain "")
  have hshort := h.short
  have hdevices : MsysHal.Shaped 3
      (.list (inventory.devices.map (·.payload inventory.domain))) := by
    refine shaped_list (by rw [List.length_map]; omega) ?_
    rw [List.forall_mem_map]
    intro device hdevice
    have hidentifier := plain_identifier hgrammar (h.devices device hdevice).name
    exact shaped_payload hdomain (h.devices device hdevice) ⟨hidentifier.1.trans (by omega),
      hidentifier.2⟩
      (hwritable device hdevice)
  have hrows : MsysHal.Shaped 2 (.list [.object inventory.rowMembers]) :=
    shaped_list (by rw [List.length_singleton]; omega) (by
      rw [List.forall_mem_singleton]
      exact shaped_rowMembers h)
  rw [reply_eq]
  refine shaped_object ["schema", "provider", "domains", "devices"] (h := 3) rfl (by decide) ?_
  simp only [replyMembers, List.forall_mem_cons, List.not_mem_nil, false_imp_iff,
    implies_true, and_true]
  exact ⟨(shaped_str hinterface (by omega)).mono (by omega),
    (shaped_str hprovider (by omega)).mono (by omega), hrows.mono (by omega), hdevices⟩

/-- A reply is within the bounds of an object exactly when there are not too many values, its
    texts can be written and it is not too long. -/
theorem reply_bounded_iff (h : inventory.Shaped) (hprovider : Plain 192 providerId) :
    Bounded 6 512 (inventory.reply providerId) ↔
      inventory.values ≤ 512 ∧ (∀ device ∈ inventory.devices, device.Writable) ∧
      (inventory.reply providerId).size ≤ maxHalJson := by
  have hnodes : (inventory.reply providerId).nodes = inventory.values := nodes_reply h
  constructor
  · intro hbounded
    refine ⟨hnodes ▸ hbounded.nodes, fun device hdevice => ?_, hbounded.size⟩
    exact writable_of_sendable (sendable_devices hbounded.sendable device hdevice)
  · rintro ⟨hvalues, hwritable, hsize⟩
    have hshaped := shaped_reply h hprovider hvalues hwritable
    exact ⟨hnodes.trans_le hvalues, hshaped.height.trans (by omega), hshaped.wellFormed,
      hshaped.dumpable, hsize⟩

/-- The row of a domain is accepted. -/
theorem inventoryDomain_row (h : inventory.Shaped)
    (hsend : Sendable (.object inventory.rowMembers)) :
    inventoryDomain (some (.list [.object inventory.rowMembers])) inventory.domain =
      .ok inventory.status := by
  have hdomain := h.domain "domain"
  have hreason := h.reason "provider domain reason"
  have hshaped := shaped_rowMembers h
  have hheight : (Value.object inventory.rowMembers).height ≤ 6 := hshaped.height.trans (by omega)
  change normalizeDomain (.object inventory.rowMembers) inventory.domain = _
  rw [normalizeDomain, BackendInventory.status]
  rw [BackendInventory.rowMembers] at hsend hheight ⊢
  split
  · next havailable =>
    rw [if_pos havailable] at hsend hheight
    have hitem : objectPayload
        (.object [("domain", .str inventory.domain), ("status", .str "available")])
        ["domain", "status", "reason"] ["domain", "status"] "provider domain" = .ok _ :=
      objectPayload_object ["domain", "status"] rfl (by decide)
        ⟨(by decide : 3 ≤ 512), hheight, hsend.wellFormed, hsend.dumpable, hsend.size⟩
    simp [hitem, bind, Except.bind, Except.mapError, Value.lookup, Value.isKey,
      hdomain, parseStatus, domainReason]
    rfl
  · next havailable =>
    rw [if_neg havailable] at hsend hheight
    have hitem : objectPayload (.object [("domain", .str inventory.domain),
        ("status", .str "unavailable"), ("reason", .str inventory.reason)])
        ["domain", "status", "reason"] ["domain", "status"] "provider domain" = .ok _ :=
      objectPayload_object ["domain", "status", "reason"] rfl (by decide)
        ⟨(by decide : 4 ≤ 512), hheight, hsend.wellFormed, hsend.dumpable, hsend.size⟩
    simp [hitem, bind, Except.bind, Except.mapError, Value.lookup, Value.isKey,
      hdomain, parseStatus, domainReason, hreason]
    rfl

/-- A reply within the bounds is accepted, with its devices in their order. -/
theorem normalizeInventory_reply (h : inventory.Shaped) {candidate : Candidate}
    (hcandidate : candidate.component = providerId)
    (hbounded : Bounded 6 512 (inventory.reply providerId)) :
    normalizeInventory (inventoryReply providerId [inventory]) inventory.domain candidate =
      .ok ⟨inventory.domain, inventory.status.1, inventory.status.2,
        inventory.devices.map (·.normalized inventory.domain)⟩ := by
  have hsend := hbounded.sendable
  have hdevices := sendable_devices hsend
  have hlength : inventory.devices.length ≤ 256 := by
    have hnodes : (inventory.reply providerId).nodes = inventory.values := nodes_reply h
    have hcount := length_le_values inventory
    have hle := hbounded.nodes
    omega
  have hrow : Sendable (.object inventory.rowMembers) := by
    rw [reply_eq] at hsend
    have hmember : ("domains", Value.list [.object inventory.rowMembers]) ∈
        replyMembers inventory providerId := by
      simp [replyMembers]
    exact (hsend.member hmember).item List.mem_cons_self
  have hfields : objectPayload (.dict (inventoryReply providerId [inventory]))
      ["schema", "provider", "domains", "devices"] ["schema", "provider", "domains", "devices"]
      "provider inventory" = .ok ((replyMembers inventory providerId).map fun m =>
        (.str m.1, m.2)) := by
    have heq : Value.dict (inventoryReply providerId [inventory]) =
        .object (replyMembers inventory providerId) := reply_eq inventory providerId
    rw [heq]
    exact objectPayload_object ["schema", "provider", "domains", "devices"] rfl (by decide)
      (reply_eq inventory providerId ▸ hbounded)
  have hdomain := inventoryDomain_row h hrow
  have hnormalized := normalizeDevices_payloads h.domain h.short h.devices hdevices
  have hlisted : inventoryDevices
      (some (.list (inventory.devices.map (·.payload inventory.domain)))) inventory.domain =
        .ok (inventory.devices.map (·.normalized inventory.domain)) := by
    rw [inventoryDevices, if_neg (by rw [List.length_map]; omega), hnormalized]
  rw [normalizeInventory]
  simp [hfields, bind, Except.bind, Except.mapError, replyMembers, Value.lookup,
    Value.isKey, isText, hcandidate, hdomain, hlisted]
  rfl

end Reply

/-! ## The size of a reply -/

/-- Characters of the names of entries. -/
theorem entryChar_bounds {c : Char} (h : isEntryChar c = true) : 45 ≤ c.toNat ∧ c.toNat ≤ 122 := by
  have hle : ∀ a b : Char, a ≤ b ↔ a.toNat ≤ b.toNat := fun a b => Iff.rfl
  simp only [isEntryChar, isLower, isUpper, isAsciiDigit, Bool.or_eq_true, Bool.and_eq_true,
    decide_eq_true_eq, beq_iff_eq, hle] at h
  have h0 : '0'.toNat = 48 ∧ '9'.toNat = 57 ∧ 'a'.toNat = 97 ∧ 'z'.toNat = 122 ∧ 'A'.toNat = 65 ∧
      'Z'.toNat = 90 := by decide
  rcases h with ((((h | h) | h) | rfl) | rfl) | rfl
  · omega
  · omega
  · omega
  · decide
  · decide
  · decide

theorem entryChar_plain {c : Char} (h : isEntryChar c = true) : Python.escapeChar c = [c] ∧
    c.utf8Size = 1 := by
  obtain ⟨hlow, hhigh⟩ := entryChar_bounds h
  have hne : ∀ mark : Char, isEntryChar mark = false → c ≠ mark := by
    rintro mark hmark rfl
    exact nomatch hmark.symm.trans h
  constructor
  · rw [Python.escapeChar, if_neg (hne _ (by decide)), if_neg (hne _ (by decide)),
      if_neg (hne _ (by decide)), if_neg (hne _ (by decide)), if_neg (hne _ (by decide)),
      if_neg (hne _ (by decide)), if_neg (hne _ (by decide)), if_neg (by omega)]
  · rw [Char.utf8Size_eq_one_iff]
    show c.toNat ≤ 127
    omega

/-- What else is known of a device of a class directory: its metadata is short. -/
structure LinuxDevice.Small (device : LinuxDevice) : Prop where
  shaped : device.Shaped
  writable : device.Writable
  metadata : (Value.object device.metadata).size ≤ 830

section Size

variable {d : String} {device : LinuxDevice}

theorem size_name (h : matchesEntry device.name.toList = true) :
    (Value.str (clip 128 device.name)).size ≤ 130 := by
  obtain ⟨hlen, -, hchars⟩ := matchesEntry_chars h
  have hclip : clip 128 device.name = device.name := by
    rw [clip, List.take_of_length_le hlen, String.ofList_toList]
  have hquote := Python.utf8Len_quote_plain fun c hc => entryChar_plain (hchars c hc)
  rw [String.length_toList] at hlen
  rw [hclip, Value.size, Value.text, hquote]
  omega

theorem size_domain (hd : ∀ c ∈ d.toList, isEntryChar c = true) :
    (Value.str d).size = d.length + 2 :=
  Python.utf8Len_quote_plain fun c hc => entryChar_plain (hd c hc)

theorem size_identifier (hd : ∀ c ∈ d.toList, isEntryChar c = true)
    (h : matchesEntry device.name.toList = true) :
    (Value.str (d ++ ":" ++ device.name)).size ≤ d.length + 131 := by
  obtain ⟨hlen, -, hchars⟩ := matchesEntry_chars h
  have hquote : ∀ c ∈ (d ++ ":" ++ device.name).toList,
      Python.escapeChar c = [c] ∧ c.utf8Size = 1 := by
    rw [String.toList_append, String.toList_append, List.forall_mem_append, List.forall_mem_append]
    refine ⟨⟨fun c hc => entryChar_plain (hd c hc), ?_⟩, fun c hc => entryChar_plain (hchars c hc)⟩
    intro c hc
    obtain rfl : c = ':' := by simpa using hc
    exact ⟨by decide, by decide⟩
  rw [String.length_toList] at hlen
  rw [Value.size, Value.text, Python.utf8Len_quote_plain hquote, String.length_append,
    String.length_append]
  have hone : ":".length = 1 := rfl
  omega

theorem size_payload (hd : ∀ c ∈ d.toList, isEntryChar c = true) (hlen : d.length ≤ 9)
    (h : device.Small) : (device.payload d).size ≤ 1500 := by
  have hid := memberSize_str_le "id" 2 (by decide) (size_identifier hd h.shaped.name)
  have hdomain := memberSize_str_le "domain" 6 (by decide) (size_domain hd).le
  have hname := memberSize_str_le "name" 4 (by decide) (size_name h.shaped.name)
  have hbool : (Value.bool device.available).size ≤ 5 := by
    cases device.available <;> decide
  have havailable := memberSize_str_le "available" 9 (by decide) hbool
  have hfields : (strings device.mutable).size ≤ 40 := by
    rcases h.shaped.fields with hfields | hfields | hfields <;> rw [hfields] <;> decide
  have hmutable := memberSize_str_le "mutable" 7 (by decide) hfields
  have hmetadata := memberSize_str_le "metadata" 8 (by decide) h.metadata
  rw [LinuxDevice.payload, Value.object, Python.size_dict]
  simp only [List.map_cons, List.map_nil, List.sum_cons, List.sum_nil, List.length_cons,
    List.length_nil]
  omega

end Size

/-- What every inventory of a class directory is. -/
structure BackendInventory.Small (inventory : BackendInventory) : Prop where
  shaped : inventory.Shaped
  chars : ∀ c ∈ inventory.domain.toList, isEntryChar c = true
  length : inventory.domain.length ≤ 9
  devices : ∀ device ∈ inventory.devices, device.Small

theorem size_reply {inventory : BackendInventory} {providerId : String} (h : inventory.Small)
    (hprovider : Plain 192 providerId) (hvalues : inventory.values ≤ 512) :
    (inventory.reply providerId).size ≤ maxHalJson := by
  have hcount := length_le_values inventory
  have hlength := h.length
  have hinterface : (Value.str providerInterface).size ≤ 6 * 64 + 2 := size_str_le (by decide)
  have hschema := memberSize_str_le "schema" 6 (by decide) hinterface
  have hid := memberSize_str_le "provider" 8 (by decide) (size_str_le hprovider.1)
  -- The row of the domain is bounded by its reason.
  have hrow : (Value.list [.object inventory.rowMembers]).size ≤ 4000 := by
    have hdomain := memberSize_str_le "domain" 6 (by decide) (size_domain h.chars).le
    have hreason := memberSize_str_le "reason" 6 (by decide)
      (size_str_le (boundedString_ok (h.shaped.reason "")).2.1)
    have htext : (Value.str "available").size ≤ 13 ∧ (Value.str "unavailable").size ≤ 13 := by
      decide
    have hstatus := memberSize_str_le "status" 6 (by decide) htext.1
    have hstatus' := memberSize_str_le "status" 6 (by decide) htext.2
    rw [Python.size_list, BackendInventory.rowMembers]
    split
    all_goals
      simp only [Value.object, Python.size_dict, List.map_cons, List.map_nil, List.sum_cons,
        List.sum_nil, List.length_cons, List.length_nil]
      omega
  -- A device takes at most 1500 characters and a comma.
  have hdevices : (Value.list (inventory.devices.map (·.payload inventory.domain))).size ≤
      2 + inventory.devices.length * 1501 := by
    have hsum := List.sum_le_card_nsmul
      ((inventory.devices.map (·.payload inventory.domain)).map Value.size) 1500 (by
        rw [List.forall_mem_map, List.forall_mem_map]
        exact fun device hdevice => size_payload h.chars hlength (h.devices device hdevice))
    rw [List.length_map, List.length_map, smul_eq_mul] at hsum
    rw [Python.size_list, List.length_map]
    omega
  have hrows := memberSize_str_le "domains" 7 (by decide) hrow
  have hlisted := memberSize_str_le "devices" 7 (by decide) hdevices
  rw [reply_eq, replyMembers, Value.object, Python.size_dict, maxHalJson]
  simp only [List.map_cons, List.map_nil, List.sum_cons, List.sum_nil, List.length_cons,
    List.length_nil]
  omega

/-! ## The backends of a class directory -/

theorem readText_plain {maximum : Nat} {file : Option ByteArray} {text : String}
    (h : readText maximum file = some text) : hasNul text = false := by
  unfold readText at h
  split at h
  · cases h
  · next data =>
    split at h
    · cases h
    · next hbounds =>
      obtain ⟨decoded, hdecoded, rfl⟩ := Option.map_eq_some_iff.mp h
      simp only [Bool.or_eq_true, not_or, Bool.not_eq_true, List.contains_eq_mem,
        decide_eq_false_iff_not] at hbounds
      rw [hasNul, String.toList_ofList, List.contains_eq_mem, decide_eq_false_iff_not]
      intro hnul
      have hmem := (List.dropWhile_sublist _).mem ((List.rdropWhile_prefix _ _).mem hnul)
      exact Python.Text.decode_nul hdecoded hbounds.2 hmem

/-- A device with one short text. -/
theorem small_type {name text : String} {maximum : Nat} (hname : matchesEntry name.toList = true)
    (htext : hasNul text = false) (hmaximum : maximum ≤ 128) :
    LinuxDevice.Small { name := name, metadata := [("type", .str (clip maximum text))] } where
  shaped := {
    name := hname
    fields := .inl rfl
    count := by rw [List.length_singleton]; omega
    keys := by
      rw [List.forall_mem_singleton]
      exact (by decide : plainKey (.str "type") = true)
    scalars := by simp [Scalar] }
  writable := by
    have hclip : Plain maximum (clip maximum text) := ⟨length_clip_le _ _, hasNul_clip htext⟩
    intro m hm
    rw [List.mem_singleton] at hm
    subst hm
    exact ⟨hclip.plainText (hmaximum.trans (by omega)), rfl⟩
  metadata := by
    have hmember :=
      memberSize_str_le "type" 4 (by decide) (size_str_le (length_clip_le maximum text))
    rw [Value.object, Python.size_dict]
    simp only [List.map_cons, List.map_nil, List.sum_cons, List.sum_nil, List.length_cons,
      List.length_nil]
    omega

theorem hasNul_getD_filter {maximum : Nat} {file : Option ByteArray} {default : String}
    (hdefault : hasNul default = false) :
    hasNul (((readText maximum file).filter (!·.isEmpty)).getD default) = false := by
  cases htext : readText maximum file with
  | none => exact hdefault
  | some text =>
    rw [Option.filter]
    split
    · exact readText_plain htext
    · exact hdefault

/-- An inventory of one of the class directories. -/
theorem small_class {d reason : String} {devices : List LinuxDevice}
    (hd : d ∈ ["power", "thermal", "backlight"])
    (hreason : reason ∈ ["power-supply-class-unavailable", "thermal-class-unavailable",
      "backlight-class-unavailable"])
    (hdevices : ∀ device ∈ devices, device.Small) :
    BackendInventory.Small ⟨d, devices, reason⟩ := by
  have hdomain : (∀ label, domain (.str d) label = .ok d) ∧ d.length ≤ 9 ∧
      ∀ c ∈ d.toList, isEntryChar c = true := by
    simp only [List.mem_cons, List.not_mem_nil, or_false] at hd
    rcases hd with rfl | rfl | rfl
    all_goals
      exact ⟨matching_text (by decide) ⟨by decide, by decide⟩ (by decide) _, by decide,
        List.all_eq_true.mp (by decide)⟩
  have htext : ∀ label, boundedString (.str reason) label 256 = .ok reason := by
    simp only [List.mem_cons, List.not_mem_nil, or_false] at hreason
    rcases hreason with rfl | rfl | rfl
    all_goals exact boundedString_text (by decide) ⟨by decide, by decide⟩
  obtain ⟨hchecked, hlength, hchars⟩ := hdomain
  exact ⟨⟨hchecked, hlength.trans (by omega), htext, fun device hdevice =>
    (hdevices device hdevice).shaped⟩, hchars, hlength, hdevices⟩

theorem small_power (root : Option (List Entry)) : (powerInventory root).Small := by
  refine small_class (by decide) (by decide) ?_
  rw [List.forall_mem_map]
  exact fun found _ => small_type found.name_valid (hasNul_getD_filter (by decide)) (by decide)

theorem small_thermal (root : Option (List Entry)) : (thermalInventory root).Small := by
  refine small_class (by decide) (by decide) ?_
  rw [List.forall_mem_map]
  exact fun found _ => small_type found.name_valid
    (hasNul_getD_filter (plain_name found.name_valid).2) (by decide)

theorem readInt_bounds {minimum maximum value : Int} {file : Option ByteArray}
    (h : readInt minimum maximum file = some value) : minimum ≤ value ∧ value ≤ maximum := by
  rw [readInt, Option.bind_eq_bind, Option.bind_eq_some_iff] at h
  obtain ⟨raw, -, h⟩ := h
  rw [Option.bind_eq_bind, Option.bind_eq_some_iff] at h
  obtain ⟨found, -, h⟩ := h
  split at h
  · exact nomatch h
  · next hbounds =>
    obtain rfl := Option.some.inj h
    omega

theorem length_intText_int32 {n : Int} (hlow : 1 ≤ n) (hhigh : n ≤ 2 ^ 31 - 1) :
    (Nat.toDigits 10 n.natAbs).length ≤ 10 :=
  (Nat.length_toDigits_le_iff (by decide) (by decide)).mpr (by omega)

/-- A device with a maximum and the kind of its control. -/
theorem small_maximum {name : String} {maximum : Int} (hname : matchesEntry name.toList = true)
    (hlow : 1 ≤ maximum) (hhigh : maximum ≤ 2 ^ 31 - 1) (available writable : Bool) :
    LinuxDevice.Small {
      name := name
      available := available
      mutable := if writable then ["brightness", "brightness_percent"] else []
      metadata := [("max_brightness", .int maximum),
        ("control", .str (if writable then "writable" else "read-only"))] } where
  shaped := {
    name := hname
    fields := by cases writable <;> simp
    count := by simp
    keys := by
      rw [List.forall_mem_cons, List.forall_mem_singleton]
      exact ⟨(by decide : plainKey (.str "max_brightness") = true),
        (by decide : plainKey (.str "control") = true)⟩
    scalars := by
      rw [List.forall_mem_cons, List.forall_mem_singleton]
      exact ⟨trivial, trivial⟩ }
  writable := by
    have hshort : Python.shortInt maximum = true := by
      rw [Python.shortInt, decide_eq_true_eq]
      exact (length_intText_int32 hlow hhigh).trans (by decide)
    have hcontrol : plainText (if writable then "writable" else "read-only") = true := by
      cases writable <;> decide
    intro m hm
    rw [List.mem_cons, List.mem_singleton] at hm
    cases hm with
    | inl hm => exact hm ▸ ⟨rfl, hshort⟩
    | inr hm => exact hm ▸ ⟨hcontrol, rfl⟩
  metadata := by
    -- A maximum has at most ten digits.
    have hdigits := length_intText_int32 hlow hhigh
    have hint : (Value.int maximum).size ≤ 40 := by
      obtain ⟨n, rfl⟩ := Int.eq_ofNat_of_zero_le (by omega : 0 ≤ maximum)
      have htext := Python.utf8Len_le (Nat.toDigits 10 n)
      change String.utf8Len (Nat.toDigits 10 n) ≤ 40
      simp only [Int.natAbs_natCast] at hdigits
      omega
    have hcontrol : (Value.str (if writable then "writable" else "read-only")).size ≤ 11 := by
      cases writable <;> decide
    have hmaximum := memberSize_str_le "max_brightness" 14 (by decide) hint
    have hmember := memberSize_str_le "control" 7 (by decide) hcontrol
    rw [Value.object, Python.size_dict]
    simp only [List.map_cons, List.map_nil, List.sum_cons, List.sum_nil, List.length_cons,
      List.length_nil]
    omega

theorem small_backlight (root : Option (List Entry)) : (backlightInventory root).Small := by
  refine small_class (by decide) (by decide) ?_
  intro device hdevice
  obtain ⟨found, -, hdevice⟩ := List.mem_filterMap.mp hdevice
  rw [backlightDevice] at hdevice
  split at hdevice
  · exact nomatch hdevice
  · next maximum hmaximum =>
    obtain rfl := Option.some.inj hdevice
    exact small_maximum found.name_valid (readInt_bounds hmaximum).1 (readInt_bounds hmaximum).2 _ _

/-! ## Between the provider and the manager -/

theorem matchesLabel_nul {label : List Char} (h : matchesLabel label = true) : '\x00' ∉ label := by
  intro hnul
  unfold matchesLabel at h
  split at h
  · exact nomatch hnul
  · next c rest =>
    simp only [Bool.and_eq_true, List.all_eq_true] at h
    cases List.mem_cons.mp hnul with
    | inl heq =>
      subst heq
      exact nomatch h.1
    | inr hmem => exact nomatch h.2 _ hmem

theorem forall_mem_intercalate {α : Type} {p : α → Prop} {sep : List α} {lists : List (List α)}
    (hsep : ∀ a ∈ sep, p a) (hlists : ∀ l ∈ lists, ∀ a ∈ l, p a) : ∀ a ∈ sep.intercalate lists,
    p a := by
  induction lists with
  | nil => exact fun a ha => nomatch ha
  | cons l lists ih =>
    rw [List.forall_mem_cons] at hlists
    cases lists with
    | nil => simpa using hlists.1
    | cons l' lists =>
      rw [List.intercalate_cons_cons, List.forall_mem_append, List.forall_mem_append]
      exact ⟨⟨hlists.1, hsep⟩, ih hlists.2⟩

theorem matchesComponent_nul {text : String} (h : matchesComponent text = true) :
    hasNul text = false := by
  simp only [matchesComponent, Bool.and_eq_true, List.all_eq_true] at h
  obtain ⟨⟨-, hlabels⟩, hrest⟩ := h
  have hpackage : ∀ c ∈ text.toList.takeWhile (· != ':'), c ≠ '\x00' := by
    have hsplit : ['.'].intercalate ((text.toList.takeWhile (· != ':')).splitOn '.') =
        text.toList.takeWhile (· != ':') := List.intercalate_splitOn '.'
    rw [← hsplit]
    refine forall_mem_intercalate (by simp) fun label hlabel c hc hnul => ?_
    exact matchesLabel_nul (hlabels label hlabel) (hnul ▸ hc)
  have hname : ∀ c ∈ text.toList.dropWhile (· != ':'), c ≠ '\x00' := by
    split at hrest
    · next mark c rest heq =>
      have hmark : (mark != ':') = false := by
        have := List.head?_dropWhile_not (· != ':') text.toList
        rw [heq] at this
        simpa using this
      simp only [Bool.and_eq_true, List.all_eq_true] at hrest
      rw [heq, List.forall_mem_cons, List.forall_mem_cons]
      refine ⟨?_, ?_, ?_⟩
      · rintro rfl
        exact nomatch hmark
      · rintro rfl
        exact nomatch hrest.1
      · rintro a ha rfl
        exact nomatch hrest.2 _ ha
    · exact nomatch hrest
  rw [hasNul, List.contains_eq_mem, decide_eq_false_iff_not]
  intro hnul
  rw [← List.takeWhile_append_dropWhile (p := (· != ':')) (l := text.toList),
    List.mem_append] at hnul
  exact hnul.elim (hpackage _ · rfl) (hname _ · rfl)

/-- The backend lists a class directory. -/
def LinuxBackend.listsClass : LinuxBackend → Bool
  | .input _ _ _ _ => false
  | _ => true

theorem inventory_small {rt : Runtime} {F : Floats} {backend : LinuxBackend}
    (hclass : backend.listsClass = true) :
    ∃ inventory, backend.inventory rt F = .ok inventory ∧ inventory.Small ∧
      inventory.domain = backend.domain := by
  cases backend with
  | power root => exact ⟨_, rfl, small_power root, rfl⟩
  | thermal root => exact ⟨_, rfl, small_thermal root, rfl⟩
  | backlight root => exact ⟨_, rfl, small_backlight root, rfl⟩
  | input procFile root source xinput => exact nomatch hclass

/-- A request for a domain of a Linux backend passes the checks of the provider. -/
theorem request_accepted (backend : LinuxBackend) :
    (∀ label, domain (.str backend.domain) label = .ok backend.domain) ∧
    Bounded 6 512 (.object [("domains", strings [backend.domain])]) := by
  have hd : backend.domain ∈ ["power", "thermal", "backlight", "input"] := by
    cases backend <;> simp [LinuxBackend.domain]
  generalize backend.domain = d at hd
  simp only [List.mem_cons, List.not_mem_nil, or_false] at hd
  rcases hd with rfl | rfl | rfl | rfl
  all_goals
    exact ⟨matching_text (by decide) ⟨by decide, by decide⟩ (by decide) _,
      ⟨by decide, by decide, by decide, by decide, by decide⟩⟩

/-- A provider answers a request for one of its domains with the inventory of its backend. -/
theorem inventory_one {rt : Runtime} {F : Floats} {service : ProviderService}
    {backend : LinuxBackend}
    (hbackend : service.backend backend.domain = some backend) {inventory : BackendInventory}
    (hinventory : backend.inventory rt F = .ok inventory) :
    service.inventory rt F (.object [("domains", strings [backend.domain])]) =
      .ok (inventoryReply service.providerId [inventory]) := by
  obtain ⟨hdomain, hbounded⟩ := request_accepted backend
  generalize backend.domain = d at hbackend hdomain hbounded
  have hrequest : objectPayload (.object [("domains", strings [d])]) ["domains"] =
      .ok [(.str "domains", strings [d])] :=
    objectPayload_object ["domains"] rfl (by decide) hbounded
  have hitems : stringList (strings [d]) "domains" 32 = .ok [d] :=
    stringList_strings (by rw [List.length_singleton]; omega) (List.nodup_singleton _) (by
      rw [List.forall_mem_singleton]
      exact matching_bounded (hdomain ""))
  have hchecked : checkedDomains 0 [d] = .ok [d] := by
    rw [checkedDomains, hdomain]
    rfl
  have hunknown : [d].filter (fun d => (service.backend d).isNone) = [] := by
    rw [List.filter_singleton, hbackend]
    rfl
  have hrequested : service.requested [(.str "domains", strings [d])] = .ok [d] := by
    have hlookup : Value.lookup "domains" [(.str "domains", strings [d])] = some (strings [d]) :=
      rfl
    rw [ProviderService.requested, hlookup]
    simp only [bind, Except.bind, hitems, hchecked, hunknown]
    rfl
  have hselected : [d].filterMap service.backend = [backend] := by
    rw [List.filterMap_cons_some hbackend, List.filterMap_nil]
  rw [ProviderService.inventory, hrequest]
  simp only [bind, Except.bind, Except.mapError, hrequested, hselected, List.mapM_cons,
    List.mapM_nil, hinventory]
  rfl

/-- A device with one text counts for eight values: no more than 63 of them fit. -/
theorem values_le_iff {rt : Runtime} {F : Floats} {backend : LinuxBackend}
    {root : Option (List Entry)}
    (hbackend : backend = .power root ∨ backend = .thermal root) {inventory : BackendInventory}
    (hinventory : backend.inventory rt F = .ok inventory) :
    inventory.values ≤ 512 ↔ inventory.devices.length ≤ 63 := by
  have hdevices : ∀ device ∈ inventory.devices, device.values = 8 ∧ device.available = true := by
    rcases hbackend with rfl | rfl
    all_goals
      obtain rfl := Except.ok.inj hinventory
      exact List.forall_mem_map.mpr fun _ _ => ⟨rfl, rfl⟩
  have hsum : (inventory.devices.map LinuxDevice.values).sum = inventory.devices.length * 8 := by
    rw [List.map_congr_left fun device hdevice => (hdevices device hdevice).1, List.map_const',
      List.sum_replicate, smul_eq_mul]
  have hrow : inventory.rowMembers.length = 2 ∨
      inventory.rowMembers.length = 3 ∧ inventory.devices.length = 0 := by
    rw [BackendInventory.rowMembers]
    split
    · exact .inl rfl
    · next hnone =>
      refine .inr ⟨rfl, ?_⟩
      rw [List.length_eq_zero_iff]
      by_contra hne
      obtain ⟨device, hdevice⟩ := List.exists_mem_of_ne_nil _ hne
      exact hnone (List.any_eq_true.mpr ⟨device, hdevice, (hdevices device hdevice).2⟩)
  rw [BackendInventory.values, hsum]
  omega

/-- The reply of a provider over a class directory is accepted by the manager exactly when it
    does not count for more values than an object may have, and then with the devices of the
    directory in their order. Of power supplies or thermal zones 63 fit. -/
theorem linux_inventory_accepted (rt : Runtime) (F : Floats) (service : ProviderService)
    (backend : LinuxBackend) (hbackend : service.backend backend.domain = some backend)
    (hclass : backend.listsClass = true) (candidate : Candidate)
    (hcandidate : candidate.component = service.providerId) :
    ∃ inventory reply, backend.inventory rt F = .ok inventory ∧
      service.inventory rt F (.object [("domains", strings [backend.domain])]) = .ok reply ∧
      ((∃ answer, normalizeInventory reply backend.domain candidate = .ok answer) ↔
        inventory.values ≤ 512) ∧
      (∀ answer, normalizeInventory reply backend.domain candidate = .ok answer →
        answer.devices.map (·.id) =
          inventory.devices.map fun device => backend.domain ++ ":" ++ device.name) ∧
      ∀ root, backend = .power root ∨ backend = .thermal root →
        (inventory.values ≤ 512 ↔ inventory.devices.length ≤ 63) := by
  obtain ⟨inventory, hinventory, hsmall, hdomain⟩ := inventory_small hclass
  have hprovider : Plain 192 service.providerId :=
    ⟨service.provider_length, matchesComponent_nul service.provider_valid⟩
  -- What is accepted passed the checks of the payload.
  have haccepted : (∃ answer, normalizeInventory (inventoryReply service.providerId [inventory])
      backend.domain candidate = .ok answer) → Bounded 6 512
        (inventory.reply service.providerId) := by
    rintro ⟨answer, hanswer⟩
    obtain ⟨result, hresult, -⟩ := Except.bind_eq_ok_iff.mp hanswer
    exact (objectPayload_ok (Except.mapError_eq_ok_iff.mp hresult)).2
  have hbounded := reply_bounded_iff hsmall.shaped hprovider
  refine ⟨inventory, _, hinventory, inventory_one hbackend hinventory, ⟨?_, ?_⟩, ?_,
    fun root hroot => values_le_iff hroot hinventory⟩
  · exact fun h => (hbounded.mp (haccepted h)).1
  · intro hvalues
    have hfits :=
      hbounded.mpr ⟨hvalues, fun device hdevice => (hsmall.devices device hdevice).writable,
        size_reply hsmall hprovider hvalues⟩
    rw [← hdomain]
    exact ⟨_, normalizeInventory_reply hsmall.shaped hcandidate hfits⟩
  · intro answer hanswer
    have hfits := haccepted ⟨answer, hanswer⟩
    rw [← hdomain] at hanswer ⊢
    obtain rfl := Except.ok.inj (hanswer.symm.trans
      (normalizeInventory_reply hsmall.shaped hcandidate hfits))
    rw [List.map_map]
    rfl

namespace Supplies

/-- The directory of a power supply. -/
def entry (name kind : String) : Entry :=
  ⟨name.toList.map (·.toNat), some true, fun _ => some (kind ++ "\n").toUTF8, fun _ => false⟩

/-- Two batteries and a charger, not in the order of their names. -/
def root : List Entry := [entry "BAT1" "Battery", entry "AC" "Mains", entry "BAT0" "Battery"]

/-- The backend of the directory of the supplies. -/
def backend : LinuxBackend := .power (some root)

/-- A provider of the supplies. -/
def service : ProviderService where
  backends := [backend]
  providerId := "org.msys.hal.linux:power"
  backends_distinct := List.nodup_singleton _
  provider_valid := by decide
  provider_length := by decide

/-- The provider as the manager knows it. -/
def candidate : Candidate where
  component := "org.msys.hal.linux:power"
  target := "component:" ++ "org.msys.hal.linux:power"
  priority := 0
  domains := ["power"]
  name := "Linux safe provider"
  version := "0.2.20"
  capabilities := ["power.inventory", "power.state.read"]
  target_eq := rfl
  component_valid := by decide
  component_plain := ⟨by decide, by decide⟩
  domains_valid := by
    rw [List.forall_mem_singleton]
    decide

end Supplies

/-- Three power supplies are accepted in the order of their names. -/
theorem linux_inventory_accepted_supplies : ∃ reply answer,
    Supplies.service.inventory Runtime.sample Ch347.exactFloats
      (.object [("domains", strings ["power"])]) = .ok reply ∧
    normalizeInventory reply "power" Supplies.candidate = .ok answer ∧
    answer.devices.map (·.id) = ["power:AC", "power:BAT0", "power:BAT1"] := by
  obtain ⟨inventory, reply, hinventory, hreply, haccepted, hids, hcount⟩ :=
    linux_inventory_accepted Runtime.sample Ch347.exactFloats Supplies.service Supplies.backend
      rfl rfl Supplies.candidate rfl
  obtain rfl := Except.ok.inj hinventory
  have hfound : (powerInventory (some Supplies.root)).devices.map (·.name) =
      ["AC", "BAT0", "BAT1"] := by
    decide +kernel
  have hlength : (powerInventory (some Supplies.root)).devices.length = 3 := by
    rw [← List.length_map, hfound]
    rfl
  have hfits := (hcount (some Supplies.root) (.inl rfl)).mpr (by
    rw [hlength]
    omega)
  obtain ⟨answer, hanswer⟩ := haccepted.mpr hfits
  refine ⟨reply, answer, hreply, hanswer, (hids answer hanswer).trans ?_⟩
  have hmap := congrArg (List.map fun name => "power:" ++ name) hfound
  rw [List.map_map] at hmap
  exact hmap

end MsysHal
