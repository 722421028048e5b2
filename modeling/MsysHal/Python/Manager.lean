import MsysHal.Python.Inventory

/-!
# The methods of the HAL manager

The rest of `HalManager`: provider listing with its probes, the compare-and-swap
selection, the watch and the poll, and `handle`, which checks a payload and
carries out the request.

The probe workers of the source are run one after the other here: the probes of
one listing write the health of different providers.
-/

namespace MsysHal

open Python (Value Runtime)

/-! ## Provider listing -/

/-- What `_selection_for` makes of the preference and the observed provider of a
    domain: the preference, the active provider and the mode. -/
def selectionOf (preferred observed : Option String) (candidates : List Candidate) :
    Option String × Option String × SelectionMode :=
  let known (component : Option String) : Bool :=
    candidates.any fun c => some c.component == component
  let active :=
    if known preferred then preferred
    else if known observed then observed
    else candidates.head?.map (·.component)
  let mode :=
    if preferred = active ∧ preferred.isSome then .manual
    else if preferred.isSome then .stale
    else .automatic
  (preferred, active, mode)

/-- `_selection_for`. -/
def selectionFor (d : String) (candidates : List Candidate) :
    ManagerProg (Option String × Option String × SelectionMode) := do
  let (preferred, observed) ← op (.readSelectionActive d)
  return selectionOf preferred observed candidates

/-- What `_candidate_payload` reports of a candidate with the given health. -/
def candidateDetail (candidate : Candidate) (d : String) (preferred active : Option String)
    (health : Option ProviderHealth) : Value :=
  .object [("component", .str candidate.component), ("name", .str candidate.name),
    ("version", .str candidate.version), ("priority", .int candidate.priority),
    ("domains", strings candidate.domains),
    ("capabilities", strings (candidate.capabilities.filter fun c =>
      (d ++ ".").toList.isPrefixOf c.toList)),
    ("selected", .bool (some candidate.component == preferred)),
    ("active", .bool (some candidate.component == active)),
    ("health", match health with
      | some health => health.payload
      | none => .object [("status", .str "unknown"), ("reason", .str "not-checked")])]

/-- `_candidate_payload`. -/
def candidatePayload (candidate : Candidate) (d : String) (preferred active : Option String) :
    ManagerProg Value := do
  let health ← op (.readHealth candidate.component d)
  return candidateDetail candidate d preferred active health

/-- `_candidate_payload` for each candidate of a row. -/
def candidatePayloads (d : String) (preferred active : Option String) :
    List Candidate → ManagerProg (List Value)
  | [] => return []
  | candidate :: rest => do
    let payload ← candidatePayload candidate d preferred active
    let payloads ← candidatePayloads d preferred active rest
    return payload :: payloads

/-- The short form of a candidate in the listing of all domains. -/
def candidateSummary (candidate : Candidate) : Value :=
  .object [("component", .str candidate.component), ("name", .str candidate.name),
    ("version", .str candidate.version), ("priority", .int candidate.priority)]

/-- The candidates of a row: in detail for one requested domain, else in short. -/
def rowCandidates (detailed : Bool) (d : String) (preferred active : Option String)
    (candidates : List Candidate) : ManagerProg (List Value) :=
  if detailed then candidatePayloads d preferred active candidates
  else pure (candidates.map candidateSummary)

/-- The row of a domain in a listing. -/
def providerRow (d : String) (preferred active : Option String) (mode : SelectionMode)
    (candidates : List Value) : Value :=
  .object [("domain", .str d), ("selection", .str mode.text),
    ("preferred", optionalString preferred), ("active", optionalString active),
    ("candidates", .list candidates)]

/-- The rows of a listing. -/
def providerRows (detailed : Bool) (candidates : List Candidate) :
    List String → ManagerProg (List Value)
  | [] => return []
  | d :: rest => do
    let matched := candidates.filter (·.domains.contains d)
    let (preferred, active, mode) ← selectionFor d matched
    let payloads ← rowCandidates detailed d preferred active matched
    let rows ← providerRows detailed candidates rest
    return providerRow d preferred active mode payloads :: rows

/-- The probes of `list_providers`; their failures are ignored. -/
def probeAll (rt : Runtime) (d : String) : List Candidate → ManagerProg Unit
  | [] => return ()
  | candidate :: rest => do
    let _ ← (probeCandidate rt candidate d 2000).attempt
    probeAll rt d rest

/-- The payload of a listing, or the error of its bounds check. -/
def catalogPayload (revision : Nat) (rows : List Value) : Except HalError Value := do
  let result := .object [("schema", .str managerInterface), ("revision", .int revision),
    ("providers", .list rows)]
  ensureBoundedJson result "provider catalog" 8 2048
  return result

/-- The probing part of `list_providers`. -/
def probeDomain (rt : Runtime) (probe : Bool) (d : String) (candidates : List Candidate) :
    ManagerProg Unit :=
  let matched := candidates.filter (·.domains.contains d)
  if probe && !matched.isEmpty then do
    probeAll rt d matched
    op (.electActive d matched)
  else pure ()

/-- `list_providers`. -/
def listProviders (rt : Runtime) (requested : Option String) (refresh probe : Bool) :
    ManagerProg Value := do
  let candidates ← refreshCatalog rt refresh none
  match requested with
  | none => do
    let rows ← providerRows false candidates (availableDomains candidates)
    let revision ← op .readRevision
    check (catalogPayload revision rows)
  | some d => do
    probeDomain rt probe d candidates
    let rows ← providerRows true candidates [d]
    let revision ← op .readRevision
    check (catalogPayload revision rows)

/-- The payload of `get_provider`, or the error of its bounds check. -/
def providerPayload (revision : Nat) (d : String) (preferred active : Option String)
    (mode : SelectionMode) (detail : Value) : Except HalError Value := do
  let result := .object [("schema", .str managerInterface), ("revision", .int revision),
    ("domain", .str d), ("selection", .str mode.text), ("preferred", optionalString preferred),
    ("active", optionalString active), ("provider", detail)]
  ensureBoundedJson result "provider detail" 8 512
  return result

/-- The error for a component that is not a candidate of the domain. -/
def notAProvider (d component : String) : HalError :=
  .validation "component is not a provider for this domain"
    [("domain", .str d), ("component", .str component)]

/-- The probe of `get_provider`; its failure is ignored. -/
def probeOne (rt : Runtime) (probe : Bool) (candidate : Candidate) (d : String) :
    ManagerProg Unit :=
  if probe then do
    let _ ← (probeCandidate rt candidate d 2000).attempt
    return ()
  else pure ()

/-- `get_provider`. -/
def getProvider (rt : Runtime) (d : String) (component : Option String) (refresh probe : Bool) :
    ManagerProg Value := do
  let matched ← candidatesFor rt d refresh none
  let (preferred, active, mode) ← selectionFor d matched
  -- Without a component the active provider is shown.
  let wanted := if component.isSome then component else active
  let selected := matched.find? fun c => some c.component == wanted
  match component, selected with
  | some c, none => fail (notAProvider d c)
  | _, none => do
    let revision ← op .readRevision
    check (providerPayload revision d preferred active mode .null)
  | _, some candidate => do
    probeOne rt probe candidate d
    let revision ← op .readRevision
    let detail ← candidatePayload candidate d preferred active
    check (providerPayload revision d preferred active mode detail)

/-! ## Provider selection -/

/-- A catalog entry for a component and a domain. -/
def Selected (d component : String) : Type :=
  { candidate : Candidate // candidate.domains.contains d = true ∧ candidate.component = component }

/-- The first candidate of the domain that is the component. -/
def findSelected (d component : String) (candidates : List Candidate) :
    Option (Selected d component) :=
  match h : candidates.find? fun c => c.domains.contains d && c.component == component with
  | none => none
  | some candidate => some ⟨candidate, by
      have hc := List.find?_some h
      rwa [Bool.and_eq_true, beq_iff_eq] at hc⟩

/-- The choice of a catalog entry. -/
def choiceOf {d component : String} (selected : Selected d component) : Choice where
  domain := d
  component := some component
  valid := by
    intro c hc
    rw [Option.some.injEq] at hc
    subst hc
    obtain ⟨candidate, hd, rfl⟩ := selected
    exact ⟨candidate.domains_valid d (List.contains_iff_mem.mp hd), candidate.component_valid⟩

/-- The choice to drop the preference of a domain. -/
def resetChoice (d : String) : Choice := ⟨d, none, fun _ h => nomatch h⟩

/-- The first revision check of `select_provider`: whether the choice is already in force. -/
def unchanged (d : String) (component : Option String) (expected : Option Nat) :
    ManagerProg Bool := do
  let result ← op (.checkUnchanged d component expected)
  check result

/-- The preflight of `select_provider`. -/
def preflight (rt : Runtime) (candidate : Candidate) (d : String) (allowUnavailable : Bool) :
    ManagerProg Unit := do
  -- The preflight asks the provider, whatever its recorded health is.
  match ← (probeCandidate rt candidate d 3000).attempt with
  | .error e => fail (.unavailable "HAL provider failed selection preflight"
      [("domain", .str d), ("component", .str candidate.component),
        ("error_code", .str (errorCode e))])
  | .ok answer =>
    if answer.status = .unavailable ∧ allowUnavailable = false then
      fail (.unavailable "HAL provider is unavailable for this domain"
        [("domain", .str d), ("component", .str candidate.component),
          ("reason", .str (answer.reason.getD "unavailable"))])
    else return ()

/-- The commit section of `select_provider` and the delivery of its event. -/
def commitChoice (choice : Choice) (expected : Option Nat) : ManagerProg Unit := do
  let result ← op (.commitSelection choice expected)
  match result with
  | .error e => fail e
  | .ok none => return ()
  | .ok (some event) => op (.emit event)

/-- `select_provider` up to the reply. -/
def switchProvider (rt : Runtime) (d : String) (component : Option String) (expected : Option Nat)
    (allowUnavailable : Bool) : ManagerProg Unit := do
  let candidates ← refreshCatalog rt true none
  match component with
  | none => do
    let same ← unchanged d none expected
    if same then return () else commitChoice (resetChoice d) expected
  | some c =>
    match findSelected d c candidates with
    | none => fail (notAProvider d c)
    | some selected => do
      -- The check comes first, so that a repeated request asks nobody.
      let same ← unchanged d (some c) expected
      if same then return ()
      else do
        preflight rt selected.1 d allowUnavailable
        commitChoice (choiceOf selected) expected

/-- `select_provider`; every path that does not raise replies with a listing. -/
def selectProvider (rt : Runtime) (d : String) (component : Option String) (expected : Option Nat)
    (allowUnavailable : Bool) : ManagerProg Value := do
  switchProvider rt d component expected allowUnavailable
  listProviders rt (some d) false false

/-! ## Watch and poll -/

/-- The result of a watch as a payload. -/
def WatchResult.payload (result : WatchResult) : Value :=
  .object [("schema", .str managerInterface), ("revision", .int result.revision),
    ("events", .list (result.events.map (·.payload))), ("resync", .bool result.resync),
    ("topic", .str "msys.hal.changed")]

/-- `watch`. -/
def watch (after timeoutMs : Nat) (domains : Option (List String)) : ManagerProg WatchResult := do
  let now ← op .clock
  op (.watch after timeoutMs (now.monotonic + timeoutMs / 1000) (domains.getD []))

/-- `_stable_poll_values`: without the heartbeat of the display session. -/
def stablePollValues (values : List (Value × Value)) : List (Value × Value) :=
  values.map fun member =>
    match member with
    | (.str "display_session", .dict session) =>
      (.str "display_session", .dict (session.filter fun m => !m.1.isKey "observed_at_unix_ms"))
    | member => member

mutual

/-- A value with the members of every dict sorted by name (`sort_keys=True`). -/
def sortKeys : Value → Value
  | .list items => .list (sortKeysItems items)
  | .dict members => .dict (sortKeysMembers members)
  | v => v

/-- `sortKeys` for the items of a list. -/
def sortKeysItems : List Value → List Value
  | [] => []
  | item :: rest => sortKeys item :: sortKeysItems rest

/-- `sortKeys` for the members of a dict, by insertion. -/
def sortKeysMembers : List (Value × Value) → List (Value × Value)
  | [] => []
  | (key, value) :: rest =>
    (sortKeysMembers rest).orderedInsert (fun a b => keyName a.1 ≤ keyName b.1)
      (key, sortKeys value)

end

/-- The state of one device in a fingerprint. -/
def polledState (rt : Runtime) (identifier : String) : ManagerProg Value := do
  match ← (getState rt identifier false).attempt with
  | .ok result =>
    return .object
      [("id", .str identifier), ("values", .dict (stablePollValues result.state.values))]
  | .error _ => return .object [("id", .str identifier), ("unavailable", .bool true)]

/-- The states of the available devices of an inventory. -/
def polledStates (rt : Runtime) : List (Device × String) → ManagerProg (List Value)
  | [] => return []
  | device :: rest => do
    let state ← polledState rt device.1.id
    let states ← polledStates rt rest
    return state :: states

/-- `poll_once`. -/
def pollOnce (rt : Runtime) : ManagerProg Unit := do
  let result ← inventory rt none true
  let states ← polledStates rt ((result.devices.take 256).filter (·.1.available))
  let fingerprint :=
    (sortKeys (.object [("domains", .list result.rows), ("states", .list states)])).text
  match ← op (.swapFingerprint fingerprint) with
  -- The first poll has nothing to compare with.
  | none => return ()
  | some previous =>
    if previous = fingerprint then return ()
    else do
      let _ ← recordEvent ⟨.inventoryChanged, "all", none, none, none⟩
      return ()

/-! ## Requests -/

/-- A request of a client, its payload checked. -/
inductive Request where
  | inventory (domains : Option (List String)) (refresh : Bool)
  | getState (identifier : String) (refresh : Bool)
  | setState (identifier : String) (changes : List (Value × Value))
  | listProviders (domain : Option String) (refresh probe : Bool)
  | getProvider (domain : String) (component : Option String) (refresh probe : Bool)
  | selectProvider (domain : String) (component : Option String) (expected : Option Nat)
      (allowUnavailable : Bool)
  | watch (after timeoutMs : Nat) (domains : Option (List String))

/-- An optional boolean field of a request. -/
def boolField (request : List (Value × Value)) (name : String) : Except HalError Bool :=
  match Value.lookup name request with
  | none => .ok false
  | some (.bool b) => .ok b
  | some _ => .error (.validation s!"{name} must be a boolean")

/-- An optional natural number field of a request. -/
def natField (request : List (Value × Value)) (name : String) (maximum : Int) :
    Except HalError Nat := do
  let n ← integer ((Value.lookup name request).getD (.int 0)) name 0 maximum
  return n.toNat

/-- `_expected_revision`. -/
def expectedRevision (request : List (Value × Value)) : Except HalError (Option Nat) :=
  match Value.lookup "expected_revision" request with
  | none => .ok none
  | some value => do
    let n ← integer value "expected_revision" 0 (2 ^ 63 - 1)
    return some n.toNat

/-- The domains of a request from a given index on, each checked. -/
def checkedDomains : Nat → List String → Except HalError (List String)
  | _, [] => .ok []
  | index, item :: rest => do
    let d ← domain (.str item) s!"domains[{index}]"
    let ds ← checkedDomains (index + 1) rest
    return d :: ds

/-- `_requested_domains`. -/
def requestedDomains (raw : Option Value) (includeKnown : Bool) :
    Except HalError (Option (List String)) :=
  match raw with
  | none | some .null => .ok none
  | some raw => do
    let items ← stringList raw "domains" 32
    let domains ← checkedDomains 0 items
    if domains.isEmpty && includeKnown then throw (.validation "domains must not be empty")
    return some domains

/-- The checks of `handle` on a method and its payload. -/
def parseRequest (rt : Runtime) (method : String) (payload : Value) : Except HalError Request :=
  let field (request : List (Value × Value)) (name : String) : Value :=
    (Value.lookup name request).getD .null
  match method with
  | "inventory" => do
    let request ← objectPayload payload ["domains", "refresh"]
    let domains ← requestedDomains (Value.lookup "domains" request) true
    let refresh ← boolField request "refresh"
    return .inventory domains refresh
  | "get_state" => do
    let request ← objectPayload payload ["id", "refresh"] ["id"]
    let refresh ← boolField request "refresh"
    let identifier ← deviceId (field request "id")
    return .getState identifier refresh
  | "set_state" => do
    let request ← objectPayload payload ["id", "changes"] ["id", "changes"]
    let identifier ← deviceId (field request "id")
    let requested ← changes (field request "changes")
    return .setState identifier requested
  | "list_providers" => do
    let request ← objectPayload payload ["domain", "refresh", "probe"]
    let requested ← match Value.lookup "domain" request with
      | none => pure none
      | some value => some <$> domain value
    let refresh ← boolField request "refresh"
    let probe ← boolField request "probe"
    -- A probe asks the providers of one domain only.
    if probe && requested.isNone then throw (.validation "probe requires a domain")
    return .listProviders requested refresh probe
  | "get_provider" => do
    let request ← objectPayload payload ["domain", "component", "refresh", "probe"] ["domain"]
    let requested ← domain (field request "domain")
    let component ← match Value.lookup "component" request with
      | none => pure none
      | some value => some <$> componentId value
    let refresh ← boolField request "refresh"
    let probe ← boolField request "probe"
    return .getProvider requested component refresh probe
  | "select_provider" => do
    let request ← objectPayload payload
      ["domain", "component", "expected_revision", "allow_unavailable"] ["domain"]
    let requested ← domain (field request "domain")
    let component ← match Value.lookup "component" request with
      -- `null` stands for no component, as an absent field does.
      | none | some .null => pure none
      | some value => some <$> componentId value
    let expected ← expectedRevision request
    let allowUnavailable ← boolField request "allow_unavailable"
    if component.isNone && allowUnavailable then
      throw (.validation "allow_unavailable requires a component")
    return .selectProvider requested component expected allowUnavailable
  | "reset_provider" => do
    let request ← objectPayload payload ["domain", "expected_revision"] ["domain"]
    let requested ← domain (field request "domain")
    let expected ← expectedRevision request
    return .selectProvider requested none expected false
  | "watch" => do
    let request ← objectPayload payload ["after_revision", "timeout_ms", "domains"]
    let after ← natField request "after_revision" (2 ^ 63 - 1)
    let timeoutMs ← natField request "timeout_ms" 25000
    let domains ← requestedDomains (Value.lookup "domains" request) false
    return .watch after timeoutMs domains
  | _ => .error ⟨"HAL_UNKNOWN_METHOD", s!"unknown manager method {rt.reprOf method}", []⟩

/-- A checked request, carried out. -/
def serve (rt : Runtime) : Request → ManagerProg Value
  | .inventory domains refresh => do return (← inventory rt domains refresh).payload
  | .getState identifier refresh => do return (← getState rt identifier refresh).payload
  | .setState identifier requested => do return (← setState rt identifier requested).payload
  | .listProviders requested refresh probe => listProviders rt requested refresh probe
  | .getProvider requested component refresh probe =>
    getProvider rt requested component refresh probe
  | .selectProvider requested component expected allowUnavailable =>
    selectProvider rt requested component expected allowUnavailable
  | .watch after timeoutMs domains => do return (← watch after timeoutMs domains).payload

/-- `handle`. -/
def handle (rt : Runtime) (method : String) (payload : Value) : ManagerProg Value := do
  let request ← check (parseRequest rt method payload)
  serve rt request

/-- What runs as a thread of the manager: a request, a round of the poll loop, or
    `stop`. -/
inductive Job where
  | request (request : Request)
  | poll
  | stop

/-- The program of a thread. -/
def Job.program (rt : Runtime) : Job → ManagerProg Value
  | .request r => serve rt r
  | .poll => do
    pollOnce rt
    return .null
  | .stop => do
    op .stop
    return .null

end MsysHal
