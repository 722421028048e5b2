import MsysHal.Python.Catalog

/-!
# The identity of a provider

The constructor of `ProviderService` and its `describe` method
(`msys_hal/provider.py`). Of a backend the constructor reads the key it is given under
and its `domain` attribute.
-/

namespace MsysHal.Provider

open Python (Value Runtime)

/-- `MAX_PROVIDER_DOMAINS`. -/
def maxProviderDomains : Nat := 8

/-- `MAX_PROVIDER_CAPABILITIES`. -/
def maxProviderCapabilities : Nat := 32

/-- An item of the `backends` argument: its key, and the `domain` of the backend if it
    has one. -/
structure BackendItem where
  key : Value
  domain : Option Value

/-- The fields of `ProviderService`; the backends by their domains. The name is a text that
    may hold lone surrogates. -/
structure ProviderService where
  domains : List String
  providerId : String
  name : Value
  version : String
  capabilities : List String

/-- A `ValueError` of the constructor. -/
def refuse {α : Type} (text : String) : Except PyError α := .error (.exc "ValueError" text)

/-- The loop over the backends; a dict keeps the place of a key it has. -/
def normalizedBackends (rt : Runtime) : List BackendItem → List String →
    Except PyError (List String)
  | [], domains => .ok domains
  | item :: rest, domains => do
    let key ← (domain item.key "backend domain").mapError .hal
    if !isText key item.domain then
      let shown := rt.reprOf key
      refuse s!"backend {shown} has a mismatched domain"
    else normalizedBackends rt rest (if domains.contains key then domains else domains ++ [key])

/-- The capabilities that every provider of the domains declares. -/
def baseDeclared (domains : List String) : List Value :=
  (sortStrings domains).map (fun d => .str (d ++ ".inventory")) ++
    (sortStrings domains).map fun d => .str (d ++ ".state.read")

/-- `declared`: with the capabilities of the caller, if there are any. -/
def declaredCapabilities (domains : List String) : Option Value → Except PyError (List Value)
  | none | some .null => .ok (baseDeclared domains)
  | some (.list items) =>
    if items.length > maxProviderCapabilities then
      refuse s!"provider declares at most {maxProviderCapabilities} capabilities"
    else .ok (baseDeclared domains ++ items)
  | some _ => refuse "capabilities must be a list or tuple"

/-- `item.startswith(prefixes)`. -/
def hasPrefix (domains : List String) (item : String) : Bool :=
  domains.any fun d => (d ++ ".").toList.isPrefixOf item.toList

/-- The loop over the declared capabilities from an index on. -/
def normalizedCapabilities (rt : Runtime) (domains : List String) :
    Nat → List Value → List String → Except PyError (List String)
  | _, [], result => .ok result
  | index, raw :: rest, result => do
    let item ← (capability raw s!"capabilities[{index}]").mapError .hal
    if !hasPrefix domains item then
      let shown := rt.reprOf item
      refuse s!"capability {shown} has no matching backend domain"
    else
      normalizedCapabilities rt domains (index + 1) rest
        (if result.contains item then result else result ++ [item])

/-- `ProviderService.__init__`. -/
def ProviderService.init (rt : Runtime) (backends : List BackendItem) (providerId : Value)
    (name : Value := .str "Linux safe provider") (version : Value := .str "0.2.20")
    (capabilities : Option Value := none) : Except PyError ProviderService := do
  if backends.isEmpty then refuse "provider requires at least one backend"
  else if backends.length > maxProviderDomains then
    refuse s!"provider supports at most {maxProviderDomains} domains"
  else
    let domains ← normalizedBackends rt backends []
    let providerId ← (componentId providerId "provider_id").mapError .hal
    let name ← (boundedText name "provider name" 128).mapError .hal
    let version ← (semanticVersion version "provider version").mapError .hal
    let declared ← declaredCapabilities domains capabilities
    let normalized ← normalizedCapabilities rt domains 0 declared []
    if normalized.length > maxProviderCapabilities then
      refuse s!"provider declares at most {maxProviderCapabilities} capabilities"
    else
      return {
        domains := domains
        providerId := providerId
        name := name
        version := version
        capabilities := sortStrings normalized }

/-- `ProviderService.handle("describe", payload)`. -/
def ProviderService.describe (service : ProviderService) (payload : Value) :
    Except HalError (List (Value × Value)) := do
  let _ ← objectPayload payload []
  return [(.str "schema", .str providerInterface),
    (.str "provider", .object [("id", .str service.providerId), ("name", service.name),
      ("version", .str service.version)]),
    (.str "domains", strings (sortStrings service.domains)),
    (.str "capabilities", strings service.capabilities)]

/-- `ProviderService.handle`; what it does for the methods of its backends is a parameter. -/
def ProviderService.handle (service : ProviderService)
    (others : String → Value → Except PyError Value) (method : String) (payload : Value) :
    Except PyError Value :=
  if method = "describe" then ((service.describe payload).map .dict).mapError .hal
  else others method payload

end MsysHal.Provider
