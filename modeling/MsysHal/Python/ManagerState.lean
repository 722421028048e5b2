import MsysHal.ForStd.Prog
import MsysHal.Python.Store

/-!
# The state of the HAL manager and its atomic steps

The fields of `HalManager` (`msys_hal/manager.py`) and what each of its
lock-protected sections does to them. One such section, one call of the gateway
and one reading of a clock are each one atomic operation; `managerMachine` says
what an operation answers and does, given what the environment supplies at that
moment (`Input`). The methods of the manager are programs over these operations
and are in `MsysHal.Python.Manager`.
-/

namespace MsysHal

open Python (Value Runtime)
open Interleave (Sig Prog Machine)

/-! ## Records -/

/-- `STATUS_VALUES`. -/
inductive Status where
  | available
  | unavailable
  | degraded
deriving DecidableEq, Repr

/-- The text of a status. -/
def Status.text : Status → String
  | .available => "available"
  | .unavailable => "unavailable"
  | .degraded => "degraded"

/-- How the provider of a domain was chosen. -/
inductive SelectionMode where
  | manual
  | stale
  | automatic
deriving DecidableEq, Repr

/-- The text of a selection mode. -/
def SelectionMode.text : SelectionMode → String
  | .manual => "manual"
  | .stale => "stale"
  | .automatic => "automatic"

/-- `Candidate`: a discovered provider. Its component and its domains match their
    grammars, its component is a JSON string it has sent itself, and its target
    addresses the component. -/
structure Candidate where
  component : String
  target : String
  priority : Int
  domains : List String
  name : String
  version : String
  capabilities : List String
  target_eq : target = "component:" ++ component
  component_valid : matchesComponent component = true
  component_plain : component.length ≤ 4096 ∧ hasNul component = false
  domains_valid : ∀ d ∈ domains, matchesDomain d = true

/-- `ProviderHealth`. -/
structure ProviderHealth where
  status : Status
  reason : String
  checkedAtUnixMs : Int
  latencyMs : Int
  deviceCount : Option Nat := none
  mutable : List String := []
  mutableTruncated : Bool := false
  errorCode : Option String := none

/-- A list of strings as a JSON value. -/
def strings (items : List String) : Value := .list (items.map .str)

/-- `None` or a string as a JSON value. -/
def optionalString : Option String → Value
  | none => .null
  | some s => .str s

/-- `ProviderHealth.payload`. -/
def ProviderHealth.payload (health : ProviderHealth) : Value :=
  .object ([("status", .str health.status.text), ("reason", .str health.reason),
      ("checked_at_unix_ms", .int health.checkedAtUnixMs), ("latency_ms", .int health.latencyMs)] ++
    (match health.deviceCount with
      | none => []
      | some count => [("device_count", .int count), ("mutable", strings health.mutable),
          ("mutable_truncated", .bool health.mutableTruncated)]) ++
    (match health.errorCode with
      | none => []
      | some code => [("error_code", .str code)]))

/-- The kinds of journal events. -/
inductive EventKind where
  | stateChanged
  | providerSelected
  | providerReset
  | inventoryChanged
deriving DecidableEq, Repr

/-- The text of an event kind. -/
def EventKind.text : EventKind → String
  | .stateChanged => "state-changed"
  | .providerSelected => "provider-selected"
  | .providerReset => "provider-reset"
  | .inventoryChanged => "inventory-changed"

/-- One entry of the journal. -/
structure JournalEvent where
  revision : Nat
  kind : EventKind
  domain : String
  id : Option String := none
  provider : Option String := none
  selection : Option SelectionMode := none
deriving DecidableEq, Repr

/-- A journal entry as it is sent to clients. -/
def JournalEvent.payload (event : JournalEvent) : Value :=
  let optional (name : String) : Option String → List (String × Value)
    | none => []
    | some text => [(name, .str text)]
  .object ([("revision", .int event.revision), ("kind", .str event.kind.text),
      ("domain", .str event.domain)] ++ optional "id" event.id ++
    optional "provider" event.provider ++ optional "selection" (event.selection.map (·.text)))

/-- What a journal entry says beside its revision. -/
structure Notice where
  kind : EventKind
  domain : String
  id : Option String := none
  provider : Option String := none
  selection : Option SelectionMode := none
deriving DecidableEq, Repr

/-- The journal entry of a notice. -/
def Notice.entry (notice : Notice) (revision : Nat) : JournalEvent :=
  ⟨revision, notice.kind, notice.domain, notice.id, notice.provider, notice.selection⟩

/-! ## The shared state -/

/-- The fields of `HalManager`, the selection file, and whether the catalog lock
    is held. -/
structure ManagerState where
  catalogTtl : ℚ
  candidates : List Candidate
  catalogAt : ℚ
  selections : Selections
  deviceRoutes : Dict String Candidate
  activeProviders : Dict String (Option String)
  providerHealth : Dict (String × String) ProviderHealth
  revision : Nat
  journal : List JournalEvent
  stopped : Bool
  lastFingerprint : Option (List Char)
  file : Option ByteArray
  catalogLocked : Bool

/-- `HalManager.__init__` over a selection file. -/
def ManagerState.init (rt : Runtime) (file : Option ByteArray) (catalogTtl : ℚ) :
    Except PyError ManagerState := do
  let selections ← SelectionStore.load rt file
  return {
    catalogTtl := max 0 (min catalogTtl 60)
    candidates := []
    catalogAt := 0
    selections := selections
    deviceRoutes := Dict.empty
    activeProviders := Dict.empty
    providerHealth := Dict.empty
    revision := 0
    journal := []
    stopped := false
    lastFingerprint := none
    file := file
    catalogLocked := false }

/-- `identifier.split(":", 1)[0]`. -/
def domainOf (identifier : String) : String :=
  String.ofList (identifier.toList.takeWhile (· != ':'))

/-- `collections.deque(maxlen=256)`. -/
@[irreducible] def journalLimit : Nat := 256

/-- `self._journal.append(event)`. -/
def pushEvent (journal : List JournalEvent) (event : JournalEvent) : List JournalEvent :=
  (journal ++ [event]).drop ((journal ++ [event]).length - journalLimit)

/-- The answer of a gateway call: a decoded packet, a `HalError`, an `EOFError`,
    `OSError` or `TimeoutError`, or any other exception. -/
inductive Reply where
  | response (value : Value)
  | raised (error : HalError)
  | unreachable (exception : String)
  | failed (exception : String)

/-- What the environment supplies to one operation: the two clocks, the answer of
    the gateway, and the exception of a failed write of the selection file. -/
structure Input where
  now : ℚ := 0
  unixMs : Int := 0
  reply : Reply := .unreachable "TimeoutError"
  saveError : Option String := none

/-- What `watch` returns, before it is made a payload. -/
structure WatchResult where
  revision : Nat
  events : List JournalEvent
  resync : Bool
deriving DecidableEq, Repr

/-- A reading of `time.monotonic()` and of `int(time.time() * 1000)`. -/
structure Clock where
  monotonic : ℚ
  unixMs : Int

namespace ManagerState

/-- `self._candidates and time.monotonic() - self._catalog_at < self.catalog_ttl`. -/
def catalogFresh (s : ManagerState) (now : ℚ) : Bool :=
  !s.candidates.isEmpty && decide (now - s.catalogAt < s.catalogTtl)

/-- The identity of each component in a catalog. -/
def identity (candidates : List Candidate) (component : String) :
    Option (String × List String × List String) :=
  (candidates.reverse.find? (·.component == component)).map
    fun candidate => (candidate.version, candidate.domains, candidate.capabilities)

/-- The last section of `refresh_catalog`: replace the catalog and keep the
    health of the providers that did not change. -/
def commitCatalog (s : ManagerState) (candidates : List Candidate) (now : ℚ) : ManagerState :=
  { s with
    candidates := candidates
    catalogAt := now
    providerHealth := s.providerHealth.filter fun key _ =>
      (candidates.any fun c => c.component == key.1 && c.domains.contains key.2) &&
        identity s.candidates key.1 == identity candidates key.1 }

/-- `_append_event_locked`. -/
def appendEvent (s : ManagerState) (notice : Notice) : JournalEvent × ManagerState :=
  let event := notice.entry (s.revision + 1)
  (event, { s with revision := s.revision + 1, journal := pushEvent s.journal event })

/-- `_check_revision`. -/
def checkRevision (s : ManagerState) (expected : Option Nat) : Except HalError Unit :=
  match expected with
  | none => .ok ()
  | some r =>
    if r = s.revision then .ok ()
    else .error (.conflict "HAL provider selection changed concurrently"
      [("expected_revision", .int r), ("actual_revision", .int s.revision)])

/-- `SelectionStore.save`: the bytes that replace the file, or the class name of
    the exception; nothing is written then. -/
def saveOutcome (selections : Selections) (saveError : Option String) : Except String ByteArray :=
  match SelectionStore.encode selections with
  | .error _ => .error "ValidationError"
  | .ok data =>
    match saveError with
    | some cause => .error cause
    | none => .ok data

/-- The notice of a committed choice. -/
def choiceNotice (choice : Choice) : Notice :=
  match choice.component with
  | some c => ⟨.providerSelected, choice.domain, none, some c, some .manual⟩
  | none => ⟨.providerReset, choice.domain, none, none, some .automatic⟩

/-- The commit section of `select_provider`: compare the revision, change the
    map, save it or roll it back, drop the routes of the domain, and append the
    event; no event when the map already holds the choice. -/
def commitSelection (s : ManagerState) (choice : Choice) (expected : Option Nat)
    (saveError : Option String) : Except HalError (Option JournalEvent) × ManagerState :=
  match s.checkRevision expected with
  | .error e => (.error e, s)
  | .ok () =>
    -- The map holds the choice already, and there is no event.
    if s.selections.get? choice.domain = choice.component then (.ok none, s)
    else
      let changed := s.selections.apply choice
      match saveOutcome changed saveError with
      -- The save failed, and the entry is put back.
      | .error cause =>
        (.error (.persistence "HAL provider preference could not be saved"
            [("domain", .str choice.domain), ("cause", .str cause)]),
          { s with selections := s.selections.restore changed choice.domain })
      | .ok data =>
        -- The routes and the active provider of the domain are looked up anew.
        let saved := { s with
          selections := changed
          file := some data
          deviceRoutes := s.deviceRoutes.filter fun id _ => domainOf id != choice.domain
          activeProviders := s.activeProviders.erase choice.domain }
        let (event, s') := saved.appendEvent (choiceNotice choice)
        (.ok (some event), s')

/-- The health of the first candidate that satisfies a test. -/
def firstWithHealth (s : ManagerState) (domain : String) (test : ProviderHealth → Bool)
    (candidates : List Candidate) : Option String :=
  (candidates.find? fun c => (s.providerHealth.get? (c.component, domain)).any test).map
    (·.component)

/-- The section of `list_providers` after its probes: without a preference among
    the candidates the first healthy one is active, else the first one that said
    it is unavailable. -/
def electActive (s : ManagerState) (domain : String) (candidates : List Candidate) :
    ManagerState :=
  let preferred := s.selections.get? domain
  if candidates.any fun c => some c.component == preferred then s
  else
    let healthy := s.firstWithHealth domain (fun h => h.status != .unavailable) candidates
    let structured := s.firstWithHealth domain
      (fun h => h.status == .unavailable && h.errorCode.isNone) candidates
    { s with activeProviders := s.activeProviders.set domain (healthy.or structured) }

/-- Whether a journal entry passes a watch filter; no domains, no filter. -/
def passes (domains : List String) (event : JournalEvent) : Bool :=
  domains.isEmpty || event.domain == "all" || domains.contains event.domain

/-- The journal entries after a revision that pass a filter. -/
def pending (s : ManagerState) (after : Nat) (domains : List String) : List JournalEvent :=
  s.journal.filter fun event => decide (event.revision > after) && passes domains event

/-- Whether entries after the revision have been evicted from the journal. -/
def needsResync (s : ManagerState) (after : Nat) : Bool :=
  -- An empty journal begins with the next event.
  let oldest := match s.journal with
    | [] => s.revision + 1
    | event :: _ => event.revision
  decide (after + 1 < oldest)

/-- Whether `watch` goes on waiting. -/
def watchWaits (s : ManagerState) (after timeoutMs : Nat) (deadline : ℚ) (domains : List String)
    (now : ℚ) : Bool :=
  decide (timeoutMs > 0) && !s.stopped &&
    !(s.needsResync after || !(s.pending after domains).isEmpty) && decide (now < deadline)

/-- What `watch` returns once it stops waiting. -/
def watchResult (s : ManagerState) (after : Nat) (domains : List String) : WatchResult :=
  ⟨s.revision, (s.pending after domains).take 128, s.needsResync after⟩

end ManagerState

/-! ## Operations -/

/-- The atomic operations of the manager. `lookup` in the catalog operations is
    the domain whose candidates an inventory is about to choose from, where the
    catalog is read for that; it does not influence the operation. -/
inductive ManagerOp where
  | readCatalog (force : Bool) (lookup : Option String)
  | lockCatalog
  | unlockCatalog
  | call (target method : String) (payload : Value) (timeoutMs : Nat) (idempotent : Bool)
  | commitCatalog (candidates : List Candidate) (lookup : Option String)
  | readSelection (domain : String)
  | commitRoutes (routes : Dict String Candidate) (active : List (String × Option String))
  | clock
  | setHealth (component domain : String) (health : ProviderHealth)
  | electActive (domain : String) (candidates : List Candidate)
  | readSelectionActive (domain : String)
  | readHealth (component domain : String)
  | readRevision
  | readRoute (identifier : String)
  | recordEvent (notice : Notice)
  | emit (event : JournalEvent)
  | checkUnchanged (domain : String) (component : Option String) (expected : Option Nat)
  | commitSelection (choice : Choice) (expected : Option Nat)
  | swapFingerprint (fingerprint : List Char)
  | watch (after timeoutMs : Nat) (deadline : ℚ) (domains : List String)
  | stop

/-- The answer of each operation. -/
@[reducible] def ManagerOp.Ret : ManagerOp → Type
  | .readCatalog _ _ => Option (List Candidate)
  | .call _ _ _ _ _ => Reply
  | .commitCatalog _ _ => List Candidate
  | .readSelection _ => Option String
  | .commitRoutes _ _ => Nat
  | .clock => Clock
  | .readSelectionActive _ => Option String × Option String
  | .readHealth _ _ => Option ProviderHealth
  | .readRevision => Nat
  | .readRoute _ => Option Candidate
  | .recordEvent _ => JournalEvent
  | .checkUnchanged _ _ _ => Except HalError Bool
  | .commitSelection _ _ => Except HalError (Option JournalEvent)
  | .swapFingerprint _ => Option (List Char)
  | .watch _ _ _ _ => WatchResult
  | .lockCatalog | .unlockCatalog | .setHealth _ _ _ | .electActive _ _ | .emit _ | .stop => Unit

/-- The operations and their answers. -/
abbrev managerSig : Sig := ⟨ManagerOp, ManagerOp.Ret⟩

/-- What each operation answers and does. An operation that waits, for the
    catalog lock or in `watch`, has no outcome while it waits. -/
def managerExec : (o : ManagerOp) → Input → ManagerState → Option (o.Ret × ManagerState)
  | .readCatalog force _, i, s =>
    some (if !force && s.catalogFresh i.now then some s.candidates else none, s)
  | .lockCatalog, _, s =>
    if s.catalogLocked then none else some ((), { s with catalogLocked := true })
  | .unlockCatalog, _, s => some ((), { s with catalogLocked := false })
  | .call _ _ _ _ _, i, s => some (i.reply, s)
  | .commitCatalog candidates _, i, s => some (candidates, s.commitCatalog candidates i.now)
  | .readSelection domain, _, s => some (s.selections.get? domain, s)
  | .commitRoutes routes active, _, s =>
    some (s.revision,
      { s with deviceRoutes := routes, activeProviders := s.activeProviders.update active })
  | .clock, i, s => some (⟨i.now, i.unixMs⟩, s)
  | .setHealth component domain health, _, s =>
    some ((), { s with providerHealth := s.providerHealth.set (component, domain) health })
  | .electActive domain candidates, _, s => some ((), s.electActive domain candidates)
  | .readSelectionActive domain, _, s =>
    some ((s.selections.get? domain, (s.activeProviders.get? domain).join), s)
  | .readHealth component domain, _, s => some (s.providerHealth.get? (component, domain), s)
  | .readRevision, _, s => some (s.revision, s)
  | .readRoute identifier, _, s => some (s.deviceRoutes.get? identifier, s)
  | .recordEvent notice, _, s => some (s.appendEvent notice)
  | .emit _, _, s => some ((), s)
  | .checkUnchanged domain component expected, _, s =>
    some ((s.checkRevision expected).map fun _ => decide (s.selections.get? domain = component), s)
  | .commitSelection choice expected, i, s => some (s.commitSelection choice expected i.saveError)
  | .swapFingerprint fingerprint, _, s =>
    some (s.lastFingerprint, { s with lastFingerprint := some fingerprint })
  | .watch after timeoutMs deadline domains, i, s =>
    if s.watchWaits after timeoutMs deadline domains i.now then none
    else some (s.watchResult after domains, s)
  | .stop, _, s => some ((), { s with stopped := true })

/-- The manager as a machine. -/
def managerMachine : Machine managerSig ManagerState Input := ⟨managerExec⟩

/-- A method of the manager. -/
abbrev ManagerProg (α : Type) : Type := Prog managerSig PyError α

end MsysHal
