import MsysHal.Python.Catalog

/-!
# Inventory and device state

`inventory` of `HalManager` with its failover over the candidates of a domain,
the normalisation of what providers answer, and the routed `get_state` and
`set_state`.
-/

namespace MsysHal

open Python (Value Runtime)

/-! ## Answers of providers -/

/-- A device of a provider's inventory, normalised. -/
structure Device where
  id : String
  domain : String
  name : String
  available : Bool
  mutable : List String
  metadata : List (Value × Value)

/-- A device as the manager reports it. -/
def Device.payload (device : Device) (provider : String) : Value :=
  .object [("id", .str device.id), ("domain", .str device.domain), ("name", .str device.name),
    ("available", .bool device.available), ("mutable", strings device.mutable),
    ("metadata", .dict device.metadata), ("provider", .str provider)]

/-- The inventory of one provider for one domain, normalised. -/
structure Answer where
  domain : String
  status : Status
  reason : Option String
  devices : List Device

/-- The name of a device. -/
def deviceName : Value → Except HalError String
  | .str name =>
    if name.isEmpty || name.length > 128 then .error (.provider "provider device name is invalid")
    else .ok name
  | _ => .error (.provider "provider device name is invalid")

/-- The availability of a device. -/
def deviceAvailable : Value → Except HalError Bool
  | .bool b => .ok b
  | _ => .error (.provider "provider device availability is invalid")

/-- `_normalize_device`. -/
def normalizeDevice (raw : Value) (requested : String) : Except HalError Device := do
  let fields := ["id", "domain", "name", "available", "mutable", "metadata"]
  let item ← objectPayload raw fields fields "HAL device"
  let field (name : String) : Value := (Value.lookup name item).getD .null
  let identifier ← deviceId (field "id") "device.id"
  if domainOf identifier != requested then
    throw (.provider "provider device has the wrong domain")
  let described ← domain (field "domain")
  if described != requested then throw (.provider "provider device has the wrong domain")
  let name ← deviceName (field "name")
  let available ← deviceAvailable (field "available")
  let fields ← stringList (field "mutable") "device.mutable" 32
  let metadata ← safeScalarMap (field "metadata") "device.metadata"
  return ⟨identifier, requested, name, available, fields, metadata⟩

/-- `_normalize_device` for each device of a list. -/
def normalizeDevices (requested : String) : List Value → Except HalError (List Device)
  | [] => .ok []
  | raw :: rest => do
    let device ← normalizeDevice raw requested
    let devices ← normalizeDevices requested rest
    return device :: devices

/-- `status not in STATUS_VALUES`; the test itself raises for an unhashable value. -/
def parseStatus : Value → Except PyError Status
  | .str "available" => .ok .available
  | .str "unavailable" => .ok .unavailable
  | .str "degraded" => .ok .degraded
  | .list _ => .error (.exc "TypeError" "unhashable type: 'list'")
  | .dict _ => .error (.exc "TypeError" "unhashable type: 'dict'")
  | _ => .error (.hal (.provider "provider returned an invalid status"))

/-- The reason in a domain row, where there is one. -/
def domainReason : Option Value → Except HalError (Option String)
  | none => .ok none
  | some reason => do
    let reason ← boundedString reason "provider domain reason" 256
    return some reason

/-- The domain row of a provider inventory: its status and its reason. -/
def normalizeDomain (raw : Value) (requested : String) :
    Except PyError (Status × Option String) := do
  let row ← (objectPayload raw ["domain", "status", "reason"] ["domain", "status"]
    "provider domain").mapError .hal
  let described ← (domain ((Value.lookup "domain" row).getD .null)).mapError .hal
  if described != requested then throw (.hal (.provider "provider returned the wrong domain"))
  let status ← parseStatus ((Value.lookup "status" row).getD .null)
  let reason ← (domainReason (Value.lookup "reason" row)).mapError .hal
  return (status, reason)

/-- The one domain row of a provider inventory. -/
def inventoryDomain (raw : Option Value) (requested : String) :
    Except PyError (Status × Option String) :=
  match raw with
  | some (.list [.dict row]) => normalizeDomain (.dict row) requested
  | _ => .error (.hal (.provider "provider inventory must return exactly one requested domain"))

/-- The devices of a provider inventory. -/
def inventoryDevices (raw : Option Value) (requested : String) : Except HalError (List Device) :=
  match raw with
  | some (.list items) =>
    if items.length > 256 then .error (.provider "provider returned too many devices")
    else normalizeDevices requested items
  | _ => .error (.provider "provider returned too many devices")

/-- `_normalize_inventory`. -/
def normalizeInventory (raw : List (Value × Value)) (requested : String) (candidate : Candidate) :
    Except PyError Answer := do
  let fields := ["schema", "provider", "domains", "devices"]
  let result ← (objectPayload (.dict raw) fields fields "provider inventory").mapError .hal
  if !isText providerInterface (Value.lookup "schema" result) then
    throw (.hal (.provider "provider inventory schema mismatch"))
  if !isText candidate.component (Value.lookup "provider" result) then
    throw (.hal (.provider "provider inventory id does not match its component"))
  let (status, reason) ← inventoryDomain (Value.lookup "domains" result) requested
  let devices ← (inventoryDevices (Value.lookup "devices" result) requested).mapError .hal
  return ⟨requested, status, reason, devices⟩

/-- `exc.code if isinstance(exc, HalError) else "HAL_PROVIDER_ERROR"`. -/
def errorCode : PyError → String
  | .hal e => e.code
  | .exc _ _ => "HAL_PROVIDER_ERROR"

/-- `str(exc)`. -/
def errorText : PyError → String
  | .hal e => e.message
  | .exc _ text => text

/-- `_elapsed_ms`. -/
def elapsedMs (started now : ℚ) : Int := max 0 (min ⌊(now - started) * 1000⌋ (2 ^ 31 - 1))

/-- The health record of a failed probe. -/
def failedHealth (error : PyError) (started : ℚ) (clock : Clock) : ProviderHealth where
  status := .unavailable
  reason :=
    if ["CALL_TIMEOUT", "HAL_UNAVAILABLE"].contains (errorCode error) then "transport-error"
    else "provider-error"
  checkedAtUnixMs := clock.unixMs
  latencyMs := elapsedMs started clock.monotonic
  errorCode := some (errorCode error)

/-- The mutable fields of an inventory, sorted and without repetition. -/
def mutableFields (devices : List Device) : List String :=
  sortStrings (devices.flatMap (·.mutable)).dedup

/-- The health record of an accepted inventory. -/
def answerHealth (answer : Answer) (started : ℚ) (clock : Clock) : ProviderHealth where
  status := answer.status
  reason := clip 128 (answer.reason.getD "healthy")
  checkedAtUnixMs := clock.unixMs
  latencyMs := elapsedMs started clock.monotonic
  deviceCount := some answer.devices.length
  mutable := (mutableFields answer.devices).take 32
  mutableTruncated := (mutableFields answer.devices).length > 32

/-- What a provider's answer to an inventory call is worth. -/
def acceptedAnswer (rt : Runtime) (candidate : Candidate) (requested : String) (reply : Reply) :
    Except PyError Answer := do
  let raw ← (replyPayload rt s!"inventory {candidate.component}" reply).mapError .hal
  normalizeInventory raw requested candidate

/-- `_probe_candidate`. -/
def probeCandidate (rt : Runtime) (candidate : Candidate) (requested : String) (timeoutMs : Nat) :
    ManagerProg Answer := do
  let started ← op .clock
  let reply ← op (.call candidate.target "inventory" (.object [("domains", strings [requested])])
    timeoutMs true)
  let finished ← op .clock
  match acceptedAnswer rt candidate requested reply with
  | .error e => do
    op (.setHealth candidate.component requested (failedHealth e started.monotonic finished))
    .raise e
  | .ok answer => do
    op (.setHealth candidate.component requested (answerHealth answer started.monotonic finished))
    return answer

/-! ## Inventory -/

/-- What the inventory finds out about one domain. -/
inductive Pick where
  | noProvider (mode : SelectionMode)
  | failed (mode : SelectionMode) (component error : String)
  | active (mode : SelectionMode) (candidate : Candidate) (answer : Answer)

/-- The outcome of the failover loop when no candidate gave a usable answer. -/
def lastResort (mode : SelectionMode) (first : Candidate) (error : Option String)
    (unavailable : Option (Candidate × Answer)) : Pick :=
  match unavailable with
  | some (candidate, answer) => .active mode candidate answer
  | none => .failed mode first.component (error.getD "provider failed")

/-- The failover loop of `inventory`: the first usable answer, else the first that
    says unavailable, else the first error. A manual provider is not passed over. -/
def tryCandidates (rt : Runtime) (requested : String) (mode : SelectionMode) (first : Candidate) :
    List Candidate → Option String → Option (Candidate × Answer) → ManagerProg Pick
  | [], error, unavailable => return lastResort mode first error unavailable
  | candidate :: rest, error, unavailable => do
    match ← (probeCandidate rt candidate requested 5000).attempt with
    | .ok answer =>
      if answer.status = .unavailable ∧ mode ≠ .manual then
        tryCandidates rt requested mode first rest error (unavailable.or (some (candidate, answer)))
      else return .active mode candidate answer
    | .error e =>
      let error := error.or (some (clip 160 (errorText e)))
      if mode = .manual then return lastResort mode first error unavailable
      else tryCandidates rt requested mode first rest error unavailable

/-- One round of the loop of `inventory` over the domains. -/
def pickDomain (rt : Runtime) (requested : String) : ManagerProg Pick := do
  let (ordered, mode) ← orderedFor rt requested
  match ordered with
  | [] => return .noProvider mode
  | first :: rest => tryCandidates rt requested mode first (first :: rest) none none

/-- The rounds of `inventory`. -/
def pickDomains (rt : Runtime) : List String → ManagerProg (List (String × Pick))
  | [] => return []
  | requested :: rest => do
    let pick ← pickDomain rt requested
    let picks ← pickDomains rt rest
    return (requested, pick) :: picks

/-- The row of a domain. -/
def Pick.row (requested : String) : Pick → Value
  | .noProvider mode => .object [("domain", .str requested), ("status", .str "unavailable"),
      ("reason", .str "no-provider"), ("selection", .str mode.text), ("provider", .null)]
  | .failed mode component error => .object [("domain", .str requested),
      ("status", .str "unavailable"), ("reason", .str "provider-failed"),
      ("selection", .str mode.text), ("provider", .str component), ("error", .str error)]
  | .active mode candidate answer => .object ([("domain", .str answer.domain),
      ("status", .str answer.status.text)] ++
      (match answer.reason with
        | none => []
        | some reason => [("reason", .str reason)]) ++
      [("provider", .str candidate.component), ("selection", .str mode.text)])

/-- The active provider of a domain. -/
def Pick.activeProvider : Pick → Option String
  | .active _ candidate _ => some candidate.component
  | _ => none

/-- The devices an inventory reports and the routes to them. -/
structure Listing where
  devices : List (Device × String)
  routes : Dict String Candidate

/-- Take over the devices of one provider; an id that is already routed is left out. -/
def Listing.addDevices (candidate : Candidate) : List Device → Listing → Listing
  | [], listing => listing
  | device :: rest, listing =>
    if (listing.routes.get? device.id).isSome then Listing.addDevices candidate rest listing
    else Listing.addDevices candidate rest
      ⟨listing.devices ++ [(device, candidate.component)], listing.routes.set device.id candidate⟩

/-- The listing of all the picks of an inventory. -/
def Listing.ofPicks : List (String × Pick) → Listing → Listing
  | [], listing => listing
  | (_, .active _ candidate answer) :: rest, listing =>
    Listing.ofPicks rest (Listing.addDevices candidate answer.devices listing)
  | _ :: rest, listing => Listing.ofPicks rest listing

/-- What `inventory` returns. -/
structure Inventory where
  revision : Nat
  rows : List Value
  devices : List (Device × String)

/-- The result of an inventory as a payload. -/
def Inventory.payload (inventory : Inventory) : Value :=
  .object [("schema", .str managerInterface), ("revision", .int inventory.revision),
    ("domains", .list inventory.rows),
    ("devices", .list (inventory.devices.map fun d => d.1.payload d.2))]

/-- `sorted(set(KNOWN_DOMAINS) | {item for candidate in candidates
    for item in candidate.domains})`. -/
def availableDomains (candidates : List Candidate) : List String :=
  sortStrings (knownDomains ++ candidates.flatMap (·.domains)).dedup

/-- `inventory`. -/
def inventory (rt : Runtime) (domains : Option (List String)) (refresh : Bool) :
    ManagerProg Inventory := do
  let candidates ← refreshCatalog rt refresh none
  let requested := domains.getD (availableDomains candidates)
  let picks ← pickDomains rt requested
  let listing := Listing.ofPicks picks ⟨[], Dict.empty⟩
  let revision ← op (.commitRoutes listing.routes
    (picks.map fun pick => (pick.1, pick.2.activeProvider)))
  return ⟨revision, picks.map fun pick => pick.2.row pick.1, listing.devices⟩

/-! ## Device state -/

/-- The route `_route` finds without asking the providers. -/
def knownRoute (identifier : String) (refresh : Bool) : ManagerProg (Option Candidate) :=
  if refresh then pure none else op (.readRoute identifier)

/-- `_route`. -/
def route (rt : Runtime) (identifier : String) (refresh : Bool) : ManagerProg Candidate := do
  match ← knownRoute identifier refresh with
  | some candidate => return candidate
  | none => do
    let _ ← inventory rt (some [domainOf identifier]) refresh
    match ← op (.readRoute identifier) with
    | some candidate => return candidate
    | none => fail (.unavailable "HAL device is unavailable" [("id", .str identifier)])

/-- The state of a device, normalised. -/
structure DeviceState where
  id : String
  domain : String
  available : Bool
  values : List (Value × Value)
  mutable : List String

/-- A device state as a payload. -/
def DeviceState.payload (state : DeviceState) : Value :=
  .object [("id", .str state.id), ("domain", .str state.domain),
    ("available", .bool state.available), ("values", .dict state.values),
    ("mutable", strings state.mutable)]

/-- `_normalize_state`. -/
def normalizeState (raw : List (Value × Value)) (identifier component : String) :
    Except HalError DeviceState := do
  let fields := ["schema", "provider", "state"]
  let result ← objectPayload (.dict raw) fields fields "provider state response"
  if !isText providerInterface (Value.lookup "schema" result) then
    throw (.provider "provider state schema mismatch")
  if !isText component (Value.lookup "provider" result) then
    throw (.provider "provider state id does not match its component")
  let fields := ["id", "domain", "available", "values", "mutable"]
  let state ← objectPayload ((Value.lookup "state" result).getD .null) fields fields
    "provider state"
  let field (name : String) : Value := (Value.lookup name state).getD .null
  let described ← deviceId (field "id")
  if described != identifier then
    throw (.provider "provider returned state for another device")
  let described ← domain (field "domain")
  if described != domainOf identifier then
    throw (.provider "provider state has the wrong domain")
  let available ← match field "available" with
    | .bool b => pure b
    | _ => throw (.provider "provider state availability is invalid")
  let values ← safeScalarMap (field "values") "state.values"
  let fields ← stringList (field "mutable") "state.mutable" 32
  return ⟨identifier, domainOf identifier, available, values, fields⟩

/-- What `get_state` and `set_state` return. -/
structure StateResult where
  revision : Nat
  provider : String
  state : DeviceState

/-- The result of a state call as a payload. -/
def StateResult.payload (result : StateResult) : Value :=
  .object [("schema", .str managerInterface), ("revision", .int result.revision),
    ("provider", .str result.provider), ("state", result.state.payload)]

/-- `get_state`. -/
def getState (rt : Runtime) (identifier : String) (refresh : Bool) : ManagerProg StateResult := do
  let candidate ← route rt identifier refresh
  let raw ← invoke rt candidate.target "get_state" (.object [("id", .str identifier)])
    s!"get state {identifier}" 5000 true
  let state ← check (normalizeState raw identifier candidate.component)
  let revision ← op .readRevision
  return ⟨revision, candidate.component, state⟩

/-- `_record_event`. -/
def recordEvent (notice : Notice) : ManagerProg Nat := do
  let event : JournalEvent ← op (.recordEvent notice)
  op (.emit event)
  return event.revision

/-- `set_state`. -/
def setState (rt : Runtime) (identifier : String) (requested : List (Value × Value)) :
    ManagerProg StateResult := do
  let candidate ← route rt identifier true
  let raw ← invoke rt candidate.target "set_state"
    (.object [("id", .str identifier), ("changes", .dict requested)])
    s!"set state {identifier}" 30000 false
  let state ← check (normalizeState raw identifier candidate.component)
  let revision ← recordEvent
    ⟨.stateChanged, domainOf identifier, some identifier, some candidate.component, none⟩
  return ⟨revision, candidate.component, state⟩

end MsysHal
