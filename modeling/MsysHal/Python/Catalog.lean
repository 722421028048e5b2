import MsysHal.Python.ManagerState
import MsysHal.Spec.BoundedJson

/-!
# Provider discovery

The gateway calls of `HalManager` (`msys_hal/manager.py`) and `refresh_catalog`:
what discovery names, what each provider describes, and the candidates of a
domain in the order in which they are tried.

The two describe workers of the source are run one after the other here: a
describe call touches no shared state.
-/

namespace MsysHal

open Python (Value Runtime)
open Interleave (Prog)

/-! ## Programs -/

/-- One atomic operation. -/
def op (o : ManagerOp) : ManagerProg o.Ret := Prog.perform (S := managerSig) o

/-- Raise the `HalError` of a pure check. -/
def check {α : Type} (x : Except HalError α) : ManagerProg α := Prog.ofExcept (x.mapError .hal)

/-- Raise a `HalError`. -/
def fail {α : Type} (e : HalError) : ManagerProg α := .raise (.hal e)

/-! ## Gateway calls -/

/-- `MANAGER_INTERFACE`. -/
def managerInterface : String := "org.msys.hal.manager.v1"

/-- `PROVIDER_INTERFACE`. -/
def providerInterface : String := "org.msys.hal.provider.v1"

/-- `KNOWN_DOMAINS`. -/
def knownDomains : List String :=
  ["power", "thermal", "backlight", "display", "display-output", "input", "network", "bluetooth"]

/-- `PASSTHROUGH_PROVIDER_ERRORS`. -/
def passthroughProviderErrors : List String :=
  ["CALL_TIMEOUT", "HAL_BAD_PAYLOAD", "HAL_READ_ONLY", "HAL_UNAVAILABLE"]

/-- `str(value)`. -/
def pyStr (rt : Runtime) : Value → String
  | .str s => s
  | v => rt.strOf v

/-- `value == text` for an optional value. -/
def isText (text : String) : Option Value → Bool
  | some (.str s) => s == text
  | _ => false

/-- The error `_unwrap` raises for a response that is not a return. -/
def providerFailure (rt : Runtime) (response : Value) (operation : String) : HalError :=
  let code := clip 64 (((response.get? "code").map (pyStr rt)).getD "HAL_PROVIDER_ERROR")
  let message := clip 512 (((response.get? "message").map (pyStr rt)).getD s!"{operation} failed")
  let details := ("operation", .str operation) ::
    match response.get? "payload" with
    | some (.dict members) => [("provider_details", .dict members)]
    | _ => []
  if passthroughProviderErrors.contains code then ⟨code, message, details⟩
  else .provider s!"{operation} failed" (details ++
    [("provider_code", .str code), ("provider_message", .str (clip 256 message))])

/-- `_unwrap`. -/
def unwrap (rt : Runtime) (response : Value) (operation : String) :
    Except HalError (List (Value × Value)) :=
  if isText "return" (response.get? "type") then
    match response.get? "payload" with
    | some (.dict members) => do
      ensureBoundedJson (.dict members) s!"{operation} response" 8 2048
      return members
    | _ => .error (.provider s!"{operation} returned a non-object")
  else .error (providerFailure rt response operation)

/-- What `_invoke` makes of the answer of the gateway. -/
def replyPayload (rt : Runtime) (operation : String) :
    Reply → Except HalError (List (Value × Value))
  | .response value => unwrap rt value operation
  | .raised error => .error error
  | .unreachable exception => .error (.unavailable s!"{operation} is unavailable"
      [("operation", .str operation), ("cause", .str exception)])
  | .failed exception => .error (.provider s!"{operation} could not be completed"
      [("operation", .str operation), ("cause", .str exception)])

/-- `_invoke`. -/
def invoke (rt : Runtime) (target method : String) (payload : Value) (operation : String)
    (timeoutMs : Nat) (idempotent : Bool) : ManagerProg (List (Value × Value)) := do
  let reply ← op (.call target method payload timeoutMs idempotent)
  check (replyPayload rt operation reply)

/-! ## Discovery -/

/-- A provider found by discovery, with its clamped priority. -/
structure ProviderSpec where
  component : String
  priority : Int
  valid : matchesComponent component = true

/-- What `domain` accepts matches the grammar. -/
theorem domain_ok {value : Value} {label d : String} (h : domain value label = .ok d) :
    matchesDomain d = true := by
  simp only [domain, matching, bind, Except.bind] at h
  split at h
  · cases h
  · split at h
    · split at h
      · next hm =>
        obtain rfl := Except.ok.inj h
        exact hm
      · cases h
    · cases h

/-- A text found in a checked object is short and has no NUL. -/
theorem plain_of_isText {raw : Value} {allowed required : List String} {label name text : String}
    {members : List (Value × Value)}
    (h : objectPayload raw allowed required label = .ok members)
    (hid : isText text (Value.lookup name members) = true) :
    text.length ≤ 4096 ∧ hasNul text = false := by
  obtain ⟨rfl, hb⟩ := objectPayload_ok h
  have hw := hb.wellFormed
  rw [wellFormed, Bool.and_eq_true] at hw
  cases hv : Value.lookup name members with
  | none => rw [hv] at hid; exact nomatch hid
  | some v =>
    rw [hv] at hid
    cases v with
    | str s =>
      have hplain : plainText s = true := wellFormed_lookup hw.2 hv
      rw [plainText, Bool.and_eq_true, decide_eq_true_eq, Bool.not_eq_true'] at hplain
      rw [isText, beq_iff_eq] at hid
      exact hid ▸ hplain
    | _ => exact nomatch hid

/-- The domains of a description, each checked. -/
def describedDomains :
    List String → Except HalError { ds : List String // ∀ d ∈ ds, matchesDomain d = true }
  | [] => .ok ⟨[], fun _ h => nomatch h⟩
  | item :: rest =>
    match h : domain (.str item) "provider domain" with
    | .error e => .error e
    | .ok d => (describedDomains rest).map fun ds =>
        ⟨d :: ds.1, List.forall_mem_cons.mpr ⟨domain_ok h, ds.2⟩⟩

/-- The capabilities every provider of the domains has. -/
def baseCapabilities (domains : List String) : List String :=
  domains.flatMap fun d => [d ++ ".inventory", d ++ ".state.read"]

/-- The declared capabilities from a given index on, each checked. -/
def checkedCapabilities : Nat → List String → Except HalError (List String)
  | _, [] => .ok []
  | index, item :: rest => do
    let c ← capability (.str item) s!"provider capabilities[{index}]"
    let cs ← checkedCapabilities (index + 1) rest
    return c :: cs

/-- The capabilities of a description. -/
def describedCapabilities (raw : Option Value) (domains : List String) :
    Except HalError (List String) :=
  match raw with
  | none | some .null => .ok (baseCapabilities domains)
  | some raw => do
    let items ← stringList raw "provider capabilities" 32 128
    let declared ← checkedCapabilities 0 items
    if declared.any fun c => !domains.any fun d => (d ++ ".").toList.isPrefixOf c.toList then
      throw (.provider "provider capability has an undeclared domain")
    let all := (declared ++ baseCapabilities domains).dedup
    if all.length > 32 then throw (.provider "provider declares too many capabilities")
    return sortStrings all

/-- The identity in a description, which is the component that was asked. -/
def describedIdentity (component : String) (raw : Value) :
    Except HalError
      { _info : List (Value × Value) // component.length ≤ 4096 ∧ hasNul component = false } :=
  match h : objectPayload raw ["id", "name", "version"] ["id", "name", "version"]
      "provider identity" with
  | .error e => .error e
  | .ok info =>
    if hid : isText component (Value.lookup "id" info) = true then
      .ok ⟨info, plain_of_isText h hid⟩
    else .error (.provider "provider description id does not match its component")

/-- What `_describe_candidate` makes of a description. -/
def candidateOf (spec : ProviderSpec) (description : List (Value × Value)) :
    Except HalError Candidate := do
  let description ← objectPayload (.dict description)
    ["schema", "provider", "domains", "capabilities"] ["schema", "provider", "domains"]
    "provider description"
  if !isText providerInterface (Value.lookup "schema" description) then
    throw (.provider "provider schema mismatch")
  let items ← stringList ((Value.lookup "domains" description).getD .null) "provider domains" 8
  let described ← describedDomains items
  if described.1.isEmpty then throw (.provider "provider must describe at least one domain")
  let domains := sortStrings described.1
  let info ← describedIdentity spec.component ((Value.lookup "provider" description).getD .null)
  let name ← boundedString ((Value.lookup "name" info.1).getD .null) "provider name" 128
  let version ← semanticVersion ((Value.lookup "version" info.1).getD .null) "provider version"
  let capabilities ← describedCapabilities (Value.lookup "capabilities" description) domains
  return {
    component := spec.component
    target := "component:" ++ spec.component
    priority := spec.priority
    domains := domains
    name := name
    version := version
    capabilities := capabilities
    target_eq := rfl
    component_valid := spec.valid
    component_plain := info.2
    domains_valid := fun d hd => described.2 d ((List.mem_insertionSort _).mp hd) }

/-- `_describe_candidate`. -/
def describeCandidate (rt : Runtime) (spec : ProviderSpec) : ManagerProg Candidate := do
  let description ← invoke rt ("component:" ++ spec.component) "describe" (.dict [])
    s!"describe {spec.component}" 5000 true
  check (candidateOf spec description)

/-- One row of a discovery reply. -/
abbrev Row : Type := List (Value × Value)

/-- The provider rows of one service. -/
def serviceRows (service : Value) : List Row :=
  if isText providerInterface (service.get? "name") then
    match service.get? "providers" with
    | some (.list items) => items.filterMap fun item =>
      match item with
      | .dict members => some members
      | _ => none
    | _ => []
  else []

/-- `row.get("priority", 0)` where it is an integer. -/
def rowPriority (row : Row) : Option Int :=
  match Value.lookup "priority" row with
  | none => some 0
  | some (.int n) => some n
  | some _ => none

/-- The sort key of a row. -/
def rowKey (rt : Runtime) (row : Row) : Int × String :=
  (-(rowPriority row).getD 0,
    clip 192 (((Value.lookup "component" row).map (pyStr rt)).getD ""))

/-- `a <= b` for the sort keys `(int, str)` of the source. -/
def keyLe (a b : Int × String) : Bool := a.1 < b.1 || (a.1 == b.1 && a.2 ≤ b.2)

/-- The loop that picks the components out of the sorted rows; a component is
    taken from its first row only. -/
def specsFrom : List Row → List String → List ProviderSpec
  | [], _ => []
  | row :: rest, seen =>
    match Value.lookup "component" row with
    | some (.str component) =>
      if h : matchesComponent component = true then
        if seen.contains component then specsFrom rest seen
        else match rowPriority row with
          | none => specsFrom rest (component :: seen)
          | some priority =>
            ⟨component, max (-10000) (min priority 10000), h⟩ :: specsFrom rest (component :: seen)
      else specsFrom rest seen
    | _ => specsFrom rest seen

/-- The providers named by a discovery reply, in the order they are described;
    at most 128 rows are looked at. -/
def providerSpecs (rt : Runtime) (discovery : List (Value × Value)) :
    Except HalError (List ProviderSpec) :=
  match (Value.lookup "services" discovery).getD (.list []) with
  | .list services =>
    if services.length > 16 then
      .error (.provider "provider discovery returned invalid services")
    else
      let rows := (services.flatMap serviceRows).take 128
      .ok (specsFrom (rows.insertionSort fun a b => keyLe (rowKey rt a) (rowKey rt b)) [])
  | _ => .error (.provider "provider discovery returned invalid services")

/-- One batch of describe calls; a provider that fails is left out. -/
def describeBatch (rt : Runtime) : List ProviderSpec → List Candidate → ManagerProg (List Candidate)
  | [], candidates => return candidates
  | spec :: rest, candidates => do
    match ← (describeCandidate rt spec).attempt with
    | .error _ => describeBatch rt rest candidates
    | .ok candidate =>
      if candidates.length < 16 then describeBatch rt rest (candidates ++ [candidate])
      else describeBatch rt rest candidates

/-- The describe calls of a discovery, batch by batch. -/
def describeBatches (rt : Runtime) :
    List (List ProviderSpec) → List Candidate → ManagerProg (List Candidate)
  | [], candidates => return candidates
  | batch :: rest, candidates => do
    let candidates ← describeBatch rt batch candidates
    if candidates.length ≥ 16 then return candidates
    else describeBatches rt rest candidates

/-- `candidates.sort(key=lambda item: (-item.priority, item.component))`. -/
def sortCandidates (candidates : List Candidate) : List Candidate :=
  candidates.insertionSort fun a b => keyLe (-a.priority, a.component) (-b.priority, b.component)

/-- The discovery call of `refresh_catalog`, the describe calls, and the new catalog. -/
def discover (rt : Runtime) (lookup : Option String) : ManagerProg (List Candidate) := do
  let discovery ← invoke rt "msys.core" "discover"
    (.object [("kind", .str "interface"), ("name", .str providerInterface)])
    "provider discovery" 5000 true
  let specs ← check (providerSpecs rt discovery)
  let candidates ← describeBatches rt (specs.toChunks (min 2 specs.length)) []
  op (.commitCatalog (sortCandidates candidates) lookup)

/-- `refresh_catalog` once it holds the catalog lock. -/
def rediscover (rt : Runtime) (force : Bool) (lookup : Option String) :
    ManagerProg (List Candidate) := do
  match ← op (.readCatalog force lookup) with
  | some candidates => return candidates
  | none => discover rt lookup

/-- `refresh_catalog`. -/
def refreshCatalog (rt : Runtime) (force : Bool) (lookup : Option String) :
    ManagerProg (List Candidate) := do
  match ← op (.readCatalog force lookup) with
  | some candidates => return candidates
  | none => do
    op .lockCatalog
    (rediscover rt force lookup).withCleanup (op .unlockCatalog)

/-- `_candidates_for`. -/
def candidatesFor (rt : Runtime) (d : String) (force : Bool) (lookup : Option String) :
    ManagerProg (List Candidate) := do
  let candidates ← refreshCatalog rt force lookup
  return candidates.filter (·.domains.contains d)

/-- The candidates to try and the mode, given the preference of the domain. -/
def orderCandidates (candidates : List Candidate) (preferred : Option String) :
    List Candidate × SelectionMode :=
  match preferred with
  | none => (candidates, .automatic)
  | some component =>
    match candidates.find? (·.component == component) with
    | some candidate => ([candidate], .manual)
    | none => (candidates, .stale)

/-- `_ordered_for`. -/
def orderedFor (rt : Runtime) (d : String) : ManagerProg (List Candidate × SelectionMode) := do
  let candidates ← candidatesFor rt d false (some d)
  let preferred ← op (.readSelection d)
  return orderCandidates candidates preferred

end MsysHal
