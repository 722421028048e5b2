import MsysHal.ForStd.Json

/-!
# Typed errors and payload validation

`msys_hal/errors.py` and `msys_hal/validation.py`: the errors that cross mIPC,
the identifier grammars, and the bounds on every JSON value that enters or
leaves a component.
-/

namespace MsysHal

open Python (Value)

/-! ## Errors -/

/-- `HalError`: a typed error safe to return over mIPC. -/
structure HalError where
  code : String
  message : String
  details : List (String × Value) := []
deriving Repr, Inhabited

/-- An exception of the Python program: a `HalError`, or any other exception by
    its class name and text. -/
inductive PyError where
  | hal (error : HalError)
  | exc (name text : String)
deriving Repr, Inhabited

namespace HalError

/-- `ValidationError`. -/
def validation (message : String) (details : List (String × Value) := []) : HalError :=
  ⟨"HAL_BAD_PAYLOAD", message, details⟩

/-- `UnavailableError`. -/
def unavailable (message : String) (details : List (String × Value) := []) : HalError :=
  ⟨"HAL_UNAVAILABLE", message, details⟩

/-- `ProviderError`. -/
def provider (message : String) (details : List (String × Value) := []) : HalError :=
  ⟨"HAL_PROVIDER_ERROR", message, details⟩

/-- `PersistenceError`. -/
def persistence (message : String) (details : List (String × Value) := []) : HalError :=
  ⟨"HAL_PERSISTENCE_ERROR", message, details⟩

/-- `ConflictError`. -/
def conflict (message : String) (details : List (String × Value) := []) : HalError :=
  ⟨"HAL_CONFLICT", message, details⟩

end HalError

/-! ## Text -/

/-- `text[:n]`. -/
def clip (n : Nat) (text : String) : String := String.ofList (text.toList.take n)

/-- `"\x00" in text`. -/
def hasNul (text : String) : Bool := text.toList.contains '\x00'

/-- `sorted` on strings: by code point, stable. -/
def sortStrings (items : List String) : List String := items.insertionSort (· ≤ ·)

def isLower (c : Char) : Bool := 'a' ≤ c && c ≤ 'z'

def isAsciiDigit (c : Char) : Bool := '0' ≤ c && c ≤ '9'

def isUpper (c : Char) : Bool := 'A' ≤ c && c ≤ 'Z'

/-- `DOMAIN_RE`: `[a-z][a-z0-9.-]{0,63}`. -/
def matchesDomain (text : String) : Bool :=
  match text.toList with
  | [] => false
  | c :: rest =>
    isLower c && rest.length ≤ 63 &&
      rest.all fun c => isLower c || isAsciiDigit c || c == '.' || c == '-'

/-- `[a-z0-9][a-z0-9_-]*`. -/
def matchesLabel (label : List Char) : Bool :=
  match label with
  | [] => false
  | c :: rest =>
    (isLower c || isAsciiDigit c) &&
      rest.all fun c => isLower c || isAsciiDigit c || c == '_' || c == '-'

/-- `COMPONENT_RE`: at least two dot-separated labels, a colon, and a name. -/
def matchesComponent (text : String) : Bool :=
  let package := text.toList.takeWhile (· != ':')
  let labels := package.splitOn '.'
  labels.length ≥ 2 && labels.all matchesLabel &&
    match text.toList.dropWhile (· != ':') with
    | _ :: c :: rest =>
      isLower c && rest.all fun c =>
        isLower c || isAsciiDigit c || c == '.' || c == '_' || c == '-'
    | _ => false

/-- `DEVICE_ID_RE`: a domain, a colon, and a provider-local id. -/
def matchesDeviceId (text : String) : Bool :=
  matchesDomain (String.ofList (text.toList.takeWhile (· != ':'))) &&
    match text.toList.dropWhile (· != ':') with
    | _ :: c :: rest =>
      (isLower c || isUpper c || isAsciiDigit c) && rest.length ≤ 127 && rest.all fun c =>
        isLower c || isUpper c || isAsciiDigit c || c == '.' || c == '_' || c == '-'
    | _ => false

/-- `FIELD_RE`: `[a-z][a-z0-9_]{0,63}`. -/
def matchesField (text : String) : Bool :=
  match text.toList with
  | [] => false
  | c :: rest =>
    isLower c && rest.length ≤ 63 && rest.all fun c => isLower c || isAsciiDigit c || c == '_'

/-- `CAPABILITY_RE`: `[a-z][a-z0-9.-]{0,127}`. -/
def matchesCapability (text : String) : Bool :=
  match text.toList with
  | [] => false
  | c :: rest =>
    isLower c && rest.length ≤ 127 &&
      rest.all fun c => isLower c || isAsciiDigit c || c == '.' || c == '-'

/-- Drop a non-empty run of digits. -/
def dropDigits (text : List Char) : Option (List Char) :=
  match text with
  | [] => none
  | c :: _ => if isAsciiDigit c then some (text.dropWhile isAsciiDigit) else none

/-- `[0-9A-Za-z.-]`. -/
def isSuffixChar (c : Char) : Bool :=
  isAsciiDigit c || isUpper c || isLower c || c == '.' || c == '-'

/-- An optional suffix: its mark and a non-empty run of suffix characters. -/
def dropSuffix (mark : Char) (text : List Char) : Option (List Char) :=
  match text with
  | [] => some []
  | c :: rest =>
    if c = mark then
      if (rest.takeWhile isSuffixChar).isEmpty then none else some (rest.dropWhile isSuffixChar)
    else some text

/-- `SEMVER_RE`: three numbers, an optional pre-release and an optional build suffix. -/
def matchesSemver (text : String) : Bool :=
  match dropDigits text.toList with
  | some ('.' :: rest) =>
    match dropDigits rest with
    | some ('.' :: rest) =>
      match (dropDigits rest >>= dropSuffix '-') >>= dropSuffix '+' with
      | some [] => true
      | _ => false
    | _ => false
  | _ => false

/-! ## Bounded JSON -/

/-- `MAX_HAL_JSON`. -/
def maxHalJson : Nat := 128 * 1024

/-- The two checks `walk` makes on entering any value. -/
def walkEnter (label : String) (maxDepth maxItems depth count : Nat) : Except HalError Nat :=
  if count + 1 > maxItems then .error (.validation s!"{label} contains too many values")
  else if depth > maxDepth then .error (.validation s!"{label} is nested too deeply")
  else .ok (count + 1)

/-- The check `walk` makes on an object key. -/
def walkKey (label : String) (key : Value) : Except HalError Unit :=
  let bad : Bool := match key with
    | .str name => name.length > 128 || hasNul name
    | .lone codes => codes.length > 128 || codes.contains 0
    | _ => true
  if bad then .error (.validation s!"{label} contains an invalid object key") else .ok ()

mutual

/-- `walk` of `ensure_bounded_json`: checks one value and returns the running count. -/
def walk (label : String) (maxDepth maxItems : Nat) : Value → Nat → Nat → Except HalError Nat
  | .null, depth, count => walkEnter label maxDepth maxItems depth count
  | .bool _, depth, count => walkEnter label maxDepth maxItems depth count
  | .int _, depth, count => walkEnter label maxDepth maxItems depth count
  | .float f, depth, count => do
    let count ← walkEnter label maxDepth maxItems depth count
    match f with
    | .finite _ _ => .ok count
    | .nonFinite => .error (.validation s!"{label} contains a non-finite number")
  | .str s, depth, count => do
    let count ← walkEnter label maxDepth maxItems depth count
    if s.length > 4096 || hasNul s then
      .error (.validation s!"{label} contains an invalid string")
    else .ok count
  | .lone codes, depth, count => do
    let count ← walkEnter label maxDepth maxItems depth count
    if codes.length > 4096 || codes.contains 0 then
      .error (.validation s!"{label} contains an invalid string")
    else .ok count
  | .list items, depth, count => do
    let count ← walkEnter label maxDepth maxItems depth count
    if items.length > 256 then .error (.validation s!"{label} contains an oversized list")
    else walkItems label maxDepth maxItems items (depth + 1) count
  | .dict members, depth, count => do
    let count ← walkEnter label maxDepth maxItems depth count
    if members.length > 128 then .error (.validation s!"{label} contains an oversized object")
    else walkMembers label maxDepth maxItems members (depth + 1) count
  | .other, depth, count => do
    let _ ← walkEnter label maxDepth maxItems depth count
    .error (.validation s!"{label} contains a non-JSON value")

/-- `walk` over the items of a list. -/
def walkItems (label : String) (maxDepth maxItems : Nat) :
    List Value → Nat → Nat → Except HalError Nat
  | [], _, count => .ok count
  | item :: rest, depth, count => do
    let count ← walk label maxDepth maxItems item depth count
    walkItems label maxDepth maxItems rest depth count

/-- `walk` over the items of a dict. -/
def walkMembers (label : String) (maxDepth maxItems : Nat) :
    List (Value × Value) → Nat → Nat → Except HalError Nat
  | [], _, count => .ok count
  | (key, value) :: rest, depth, count => do
    walkKey label key
    let count ← walk label maxDepth maxItems value depth count
    walkMembers label maxDepth maxItems rest depth count

end

/-- `ensure_bounded_json`. -/
def ensureBoundedJson (value : Value) (label : String) (maxDepth : Nat := 6)
    (maxItems : Nat := 512) : Except HalError Unit := do
  let _ ← walk label maxDepth maxItems value 0 0
  match Python.dumps value with
  | none => .error (.validation s!"{label} is not valid JSON")
  | some encoded =>
    if String.utf8Len encoded > maxHalJson then .error (.validation s!"{label} is too large")
    else .ok ()

/-! ## Validators -/

/-- The text of a dict key in an error message. -/
def keyName : Value → String
  | .str s => s
  | _ => "?"

/-- `object_payload`: the members of a dict with only the allowed and all the
    required names. -/
def objectPayload (value : Value) (allowed : List String) (required : List String := [])
    (label : String := "payload") : Except HalError (List (Value × Value)) :=
  match value with
  | .dict members => do
    if members.length > 32 then throw (.validation s!"{label} has too many fields")
    let unknown := sortStrings ((members.map (keyName ∘ Prod.fst)).filter (!allowed.contains ·))
    let unknownNames := String.intercalate ", " unknown
    if !unknown.isEmpty then throw (.validation s!"{label} has unknown fields: {unknownNames}")
    let missing := sortStrings (required.filter fun name => (Value.lookup name members).isNone)
    let missingNames := String.intercalate ", " missing
    if !missing.isEmpty then throw (.validation s!"{label} is missing fields: {missingNames}")
    ensureBoundedJson value label
    return members
  | _ => .error (.validation s!"{label} must be an object")

/-- Whether a text is empty, too long, or has a NUL; nothing for what is no text. -/
def textOutside (value : Value) (maximum : Nat) : Option Bool :=
  match value with
  | .str s => some (s.isEmpty || s.length > maximum || hasNul s)
  | .lone codes => some (codes.isEmpty || codes.length > maximum || codes.contains 0)
  | _ => none

/-- `bounded_string`: the text, with any lone surrogates in it. -/
def boundedText (value : Value) (label : String) (maximum : Nat := 256) : Except HalError Value :=
  match textOutside value maximum with
  | none => .error (.validation s!"{label} must be a string")
  | some true => .error (.validation s!"{label} length is invalid")
  | some false => .ok value

/-- `bounded_string` of a value that has no lone surrogates, because `ensure_bounded_json` has
    refused a value with one before. -/
def boundedString (value : Value) (label : String) (maximum : Nat := 256) :
    Except HalError String := do
  match ← boundedText value label maximum with
  | .str s => return s
  | _ => throw (.validation s!"{label} is invalid")

/-- One of the identifier validators: a bounded string that matches a grammar. No grammar has
    lone surrogates. -/
def matching (grammar : String → Bool) (maximum : Nat) (complaint : String) (value : Value)
    (label : String) : Except HalError String := do
  match ← boundedText value label maximum with
  | .str s => if grammar s then return s else throw (.validation s!"{label} {complaint}")
  | _ => throw (.validation s!"{label} {complaint}")

/-- `domain`. -/
def domain (value : Value) (label : String := "domain") : Except HalError String :=
  matching matchesDomain 64 "is invalid" value label

/-- `device_id`. -/
def deviceId (value : Value) (label : String := "id") : Except HalError String :=
  matching matchesDeviceId 192 "is invalid" value label

/-- `component_id`. -/
def componentId (value : Value) (label : String := "component") : Except HalError String :=
  matching matchesComponent 192 "is invalid" value label

/-- `semantic_version`. -/
def semanticVersion (value : Value) (label : String := "version") : Except HalError String :=
  matching matchesSemver 64 "is not a semantic version" value label

/-- `capability`. -/
def capability (value : Value) (label : String := "capability") : Except HalError String :=
  matching matchesCapability 128 "is invalid" value label

/-- `integer`. -/
def integer (value : Value) (label : String) (minimum maximum : Int) : Except HalError Int :=
  match value with
  | .int n =>
    if n < minimum || n > maximum then
      .error (.validation s!"{label} is outside {minimum}..{maximum}")
    else .ok n
  | _ => .error (.validation s!"{label} must be an integer")

/-- The loop of `string_list` from a given index on. -/
def stringListFrom (label : String) (itemMaximum : Nat) :
    List Value → Nat → List String → Except HalError (List String)
  | [], _, result => .ok result
  | item :: rest, index, result => do
    let text ← boundedString item s!"{label}[{index}]" itemMaximum
    if result.contains text then throw (.validation s!"{label} contains a duplicate")
    stringListFrom label itemMaximum rest (index + 1) (result ++ [text])

/-- `string_list`. -/
def stringList (value : Value) (label : String) (maximumItems : Nat := 32)
    (itemMaximum : Nat := 64) : Except HalError (List String) :=
  match value with
  | .list items =>
    if items.length > maximumItems then
      .error (.validation s!"{label} must be a list with at most {maximumItems} items")
    else stringListFrom label itemMaximum items 0 []
  | _ => .error (.validation s!"{label} must be a list with at most {maximumItems} items")

/-- `changes`: the fields of a `set_state` request. -/
def changes (value : Value) : Except HalError (List (Value × Value)) :=
  match value with
  | .dict members => do
    if members.isEmpty || members.length > 16 then
      throw (.validation "changes must be a non-empty object with at most 16 fields")
    if members.any fun m => match m.1 with | .str s => !matchesField s | _ => true then
      throw (.validation "changes contains an invalid field name")
    ensureBoundedJson value "changes" 4 64
    return members
  | _ => .error (.validation "changes must be a non-empty object with at most 16 fields")

/-- `safe_scalar_map`. -/
def safeScalarMap (value : Value) (label : String) (maximumFields : Nat := 64) :
    Except HalError (List (Value × Value)) :=
  match value with
  | .dict members => do
    if members.length > maximumFields then throw (.validation s!"{label} must be a small object")
    ensureBoundedJson value label 4 256
    return members
  | _ => .error (.validation s!"{label} must be a small object")

end MsysHal
