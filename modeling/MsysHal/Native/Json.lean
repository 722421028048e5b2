import MsysHal.Native.Buffers

/-!
# JSON of the native HAL

The tokenizer of `native_hal.c`, the functions that walk its flat array of tokens, and the
writer of strings. A token knows its type, where it starts and stops in the text, and the
index of the container it is in; a string token spans what is between the quotes.
-/

namespace MsysHal.Native.Json

/-- `JsonType`. -/
inductive JsonType where
  | object
  | array
  | string
  | primitive
deriving DecidableEq, Repr

/-- `JsonToken`; `stop` is its `end`. -/
structure Token where
  type : JsonType
  start : Nat
  stop : Int
  parent : Int
deriving DecidableEq, Repr

/-- `JsonParser`, with the text and the tokens as lists that know their length. -/
structure JsonParser where
  text : Bytes
  position : Nat
  tokens : List Token
  capacity : Nat
deriving DecidableEq, Repr

namespace JsonParser

/-- The bytes from the position on. -/
def rest (p : JsonParser) : Bytes := p.text.drop p.position

/-- `position += n`. -/
def advance (p : JsonParser) (n : Nat) : JsonParser := { p with position := p.position + n }

/-- `skip_space`. -/
def skipSpace (p : JsonParser) : JsonParser := p.advance (p.rest.takeWhile isSpaceByte).length

/-- `new_token`; its index is the number of tokens before it. -/
def newToken (p : JsonParser) (type : JsonType) (start : Nat) (parent : Int) : Option JsonParser :=
  if p.tokens.length ≥ p.capacity then none
  else some { p with tokens := p.tokens ++ [⟨type, start, -1, parent⟩] }

/-- `tokens[index].end = stop`. -/
def close (p : JsonParser) (index stop : Nat) : JsonParser :=
  { p with tokens := p.tokens.modify index fun t => { t with stop := stop } }

end JsonParser

/-- `hex_digit`. -/
def isHexByte (b : UInt8) : Bool :=
  (0x30 ≤ b && b ≤ 0x39) || (0x61 ≤ b && b ≤ 0x66) || (0x41 ≤ b && b ≤ 0x46)

/-- `strchr("\"\\/bfnrt", escaped) != NULL`, which also finds the NUL at the end. -/
def isEscape (b : UInt8) : Bool := (0 :: ascii "\"\\/bfnrt").contains b

/-- The loop of `parse_string`: the length of the string before its closing quote. -/
def stringLength : Bytes → Option Nat
  | [] => none
  | b :: rest =>
    if b = 0x22 then some 0
    else if b < 0x20 then none
    else if b = 0x5c then
      match rest with
      | [] => none
      | escaped :: rest =>
        if isEscape escaped then (stringLength rest).map (· + 2)
        else if escaped ≠ 0x75 then none
        else
          match rest with
          | h₁ :: h₂ :: h₃ :: h₄ :: rest =>
            if isHexByte h₁ && isHexByte h₂ && isHexByte h₃ && isHexByte h₄ then
              (stringLength rest).map (· + 6)
            else none
          | _ => none
    else (stringLength rest).map (· + 1)

/-- `parse_string`. -/
def JsonParser.parseString (p : JsonParser) (parent : Int) : Option JsonParser :=
  if p.text[p.position]? = some 0x22 then do
    let index := p.tokens.length
    let p ← (p.advance 1).newToken .string (p.position + 1) parent
    let length ← stringLength p.rest
    return (p.advance (length + 1)).close index (p.position + length)
  else none

/-! ## Primitives -/

def isDigitByte (b : UInt8) : Bool := 0x30 ≤ b && b ≤ 0x39

/-- The exponent of `valid_number`, up to the end. -/
def validExponent : Bytes → Bool
  | [] => true
  | b :: rest =>
    if b = 0x65 ∨ b = 0x45 then
      let digits := if rest.head? = some 0x2b ∨ rest.head? = some 0x2d then rest.tail else rest
      digits.head?.any isDigitByte && (digits.dropWhile isDigitByte).isEmpty
    else false

/-- The fraction and the exponent of `valid_number`. -/
def validFraction (text : Bytes) : Bool :=
  if text.head? = some 0x2e then
    text.tail.head?.any isDigitByte && validExponent (text.tail.dropWhile isDigitByte)
  else validExponent text

/-- `valid_number`. -/
def validNumber (value : Bytes) : Bool :=
  let digits := if value.head? = some 0x2d then value.tail else value
  match digits with
  | [] => false
  | b :: rest =>
    if b = 0x30 then validFraction rest
    else isDigitByte b && validFraction (rest.dropWhile isDigitByte)

/-- `strchr(" \t\r\n,]\x7d", b) != NULL`, which also finds the NUL at the end. -/
def isDelimiter (b : UInt8) : Bool := (0 :: ascii " \t\r\n,]\x7d").contains b

/-- What `parse_primitive` accepts. -/
def validPrimitive (raw : Bytes) : Bool :=
  raw == ascii "true" || raw == ascii "false" || raw == ascii "null" || validNumber raw

/-- `parse_primitive`. -/
def JsonParser.parsePrimitive (p : JsonParser) (parent : Int) : Option JsonParser := do
  let raw := p.rest.takeWhile (!isDelimiter ·)
  if raw = [] then none
  else if validPrimitive raw then
    let index := p.tokens.length
    let start := p.position
    let p ← (p.advance raw.length).newToken .primitive start parent
    return p.close index p.position
  else none

/-! ## Containers -/

/-- The members of an object from a name on, each with a value that is parsed by `value`;
    each takes one unit of fuel. -/
def parseMembers (value : JsonParser → Int → Option JsonParser) (object : Nat) :
    Nat → JsonParser → Option JsonParser
  | 0, _ => none
  | fuel + 1, p => do
    let p := (← p.parseString object).skipSpace
    if p.text[p.position]? = some 0x3a then
      let p := (← value (p.advance 1).skipSpace object).skipSpace
      if p.text[p.position]? = some 0x7d then
        return (p.advance 1).close object (p.position + 1)
      else if p.text[p.position]? = some 0x2c then
        parseMembers value object fuel (p.advance 1).skipSpace
      else none
    else none

/-- `parse_object` at an opening brace, below the limit of the depth. -/
def parseObject (value : JsonParser → Int → Option JsonParser) (p : JsonParser) (parent : Int) :
    Option JsonParser := do
  let object := p.tokens.length
  let p ← p.newToken .object p.position parent
  let p := (p.advance 1).skipSpace
  if p.text[p.position]? = some 0x7d then
    return (p.advance 1).close object (p.position + 1)
  else parseMembers value object (p.text.length + 1) p

/-- The items of an array from one on. -/
def parseItems (value : JsonParser → Int → Option JsonParser) (array : Nat) :
    Nat → JsonParser → Option JsonParser
  | 0, _ => none
  | fuel + 1, p => do
    let p := (← value p array).skipSpace
    if p.text[p.position]? = some 0x5d then
      return (p.advance 1).close array (p.position + 1)
    else if p.text[p.position]? = some 0x2c then
      parseItems value array fuel (p.advance 1).skipSpace
    else none

/-- `parse_array` at an opening bracket, below the limit of the depth. -/
def parseArray (value : JsonParser → Int → Option JsonParser) (p : JsonParser) (parent : Int) :
    Option JsonParser := do
  let array := p.tokens.length
  let p ← p.newToken .array p.position parent
  let p := (p.advance 1).skipSpace
  if p.text[p.position]? = some 0x5d then
    return (p.advance 1).close array (p.position + 1)
  else parseItems value array (p.text.length + 1) p

/-- `parse_value` with a number of levels left: containers are refused at a depth of 17. -/
def parseValue (levels : Nat) (p : JsonParser) (parent : Int) : Option JsonParser :=
  match p.text[p.position]? with
  | none => none
  | some b =>
    if b = 0x7b then
      match levels with
      | 0 => none
      | levels + 1 => parseObject (parseValue levels) p parent
    else if b = 0x5b then
      match levels with
      | 0 => none
      | levels + 1 => parseArray (parseValue levels) p parent
    else if b = 0x22 then p.parseString parent
    else p.parsePrimitive parent

/-- `MAX_REQUEST_JSON`. -/
def maxRequestJson : Nat := 64 * 1024

/-- The containers that may be inside each other. -/
def maxLevels : Nat := 17

/-- `parse_json`. -/
def parseJson (text : Bytes) (capacity : Nat) : Option (List Token) := do
  if text.length = 0 ∨ text.length > maxRequestJson then none
  else
    let p ← parseValue maxLevels (JsonParser.mk text 0 [] capacity).skipSpace (-1)
    let p := p.skipSpace
    if p.position = text.length then return p.tokens else none

/-! ## Walks over the tokens -/

/-- `token_next`. -/
def tokenNext (tokens : List Token) (index : Nat) : Nat :=
  match tokens[index]? with
  | none => tokens.length
  | some t =>
    index + 1 + ((tokens.drop (index + 1)).takeWhile fun u => (u.start : Int) < t.stop).length

/-- The text of a token. -/
def Token.raw (json : Bytes) (t : Token) : Bytes :=
  (json.drop t.start).take (t.stop - t.start).toNat

/-- `raw_string_equal`. -/
def rawStringEqual (json : Bytes) (t : Token) (expected : Bytes) : Bool :=
  t.type == .string && t.raw json == expected

/-- A name and its value inside an object, as the walks check them. -/
def isMember (object : Nat) (name value : Token) : Bool :=
  name.parent == object && name.type == .string && value.parent == object

/-- The loop of `object_field` from a name on; each takes one unit of fuel. -/
def fieldFrom (json : Bytes) (tokens : List Token) (object : Nat) (stop : Int) (key : Bytes) :
    Nat → Nat → Int → Int
  | 0, _, found => found
  | fuel + 1, index, found =>
    match tokens[index]? with
    | none => found
    | some name =>
      if (name.start : Int) < stop then
        match tokens[index + 1]? with
        | none => -2
        | some value =>
          if isMember object name value then
            if rawStringEqual json name key then
              if found ≥ 0 then -2
              else fieldFrom json tokens object stop key fuel (tokenNext tokens (index + 1))
                (index + 1 : Nat)
            else fieldFrom json tokens object stop key fuel (tokenNext tokens (index + 1)) found
          else -2
      else found

/-- `object_field`. -/
def objectField (json : Bytes) (tokens : List Token) (object : Nat) (key : Bytes) : Int :=
  match tokens[object]? with
  | none => -2
  | some t =>
    if t.type = .object then fieldFrom json tokens object t.stop key tokens.length (object + 1) (-1)
    else -2

/-- The loop of `object_field_count`. -/
def countFrom (tokens : List Token) (object : Nat) (stop : Int) : Nat → Nat → Int → Int
  | 0, _, fields => fields
  | fuel + 1, cursor, fields =>
    match tokens[cursor]? with
    | none => fields
    | some name =>
      if (name.start : Int) < stop then
        match tokens[cursor + 1]? with
        | none => -1
        | some value =>
          if name.parent = object ∧ value.parent = object then
            countFrom tokens object stop fuel (tokenNext tokens (cursor + 1)) (fields + 1)
          else -1
      else fields

/-- `object_field_count` of a token of the array. -/
def objectFieldCount (tokens : List Token) (object : Nat) (t : Token) : Int :=
  countFrom tokens object t.stop tokens.length (object + 1) 0

/-- The inner loop of `object_validate_fields`: whether a name before `index` has the same
    text as the one there. -/
def repeatedFrom (json : Bytes) (tokens : List Token) (object index : Nat) (name : Token) :
    Nat → Nat → Bool
  | 0, _ => false
  | fuel + 1, previous =>
    if previous < index then
      match tokens[previous]? with
      | none => false
      | some t =>
        if t.parent = object ∧ t.raw json = name.raw json then true
        else repeatedFrom json tokens object index name fuel (tokenNext tokens (previous + 1))
    else false

/-- The loop of `object_validate_fields`. -/
def validFrom (json : Bytes) (tokens : List Token) (object : Nat) (stop : Int)
    (allowed : List Bytes) : Nat → Nat → Bool
  | 0, _ => true
  | fuel + 1, index =>
    match tokens[index]? with
    | none => true
    | some name =>
      if (name.start : Int) < stop then
        match tokens[index + 1]? with
        | none => false
        | some value =>
          if !isMember object name value then false
          else if !allowed.any (rawStringEqual json name) then false
          else if repeatedFrom json tokens object index name tokens.length (object + 1) then false
          else validFrom json tokens object stop allowed fuel (tokenNext tokens (index + 1))
      else true

/-- `object_validate_fields`. -/
def objectValidateFields (json : Bytes) (tokens : List Token) (object : Nat)
    (allowed : List Bytes) : Bool :=
  match tokens[object]? with
  | none => false
  | some t =>
    t.type == .object && validFrom json tokens object t.stop allowed tokens.length (object + 1)

/-! ## Writing -/

/-- `JsonBuffer`; its data end with a NUL. -/
structure JsonBuffer where
  data : Bytes
  capacity : Nat
  failed : Bool
deriving DecidableEq, Repr

/-- `buffer_append_n`. -/
def JsonBuffer.append (buffer : JsonBuffer) (text : Bytes) : JsonBuffer :=
  if buffer.failed || decide (text.length > buffer.capacity - buffer.data.length - 1) then
    { buffer with failed := true }
  else { buffer with data := buffer.data ++ text }

/-- A lower-case hexadecimal digit. -/
def hexLower (n : UInt8) : UInt8 := if n < 10 then 0x30 + n else 0x57 + n

/-- What one turn of `buffer_string` appends for the byte under the cursor, and how far the
    cursor moves. -/
def stringUnit (value : UInt8) (cursor : Bytes) : Bytes × Nat :=
  if value = 0x22 ∨ value = 0x5c then ([0x5c, value], 1)
  else if 0x20 ≤ value ∧ value ≤ 0x7e then ([value], 1)
  else if 0x80 ≤ value then
    let length := utf8SequenceLength cursor
    if length > 0 then (cursor.take length, length) else (ascii "\\ufffd", 1)
  else ([0x5c, 0x75, 0x30, 0x30, hexLower (value >>> 4), hexLower (value &&& 0x0f)], 1)

/-- The loop of `buffer_string` over the bytes of a C string; each turn takes one unit of
    fuel. -/
def bufferStringFrom : Nat → Bytes → JsonBuffer → JsonBuffer
  | 0, _, buffer => buffer
  | fuel + 1, cursor, buffer =>
    if buffer.failed then buffer
    else
      match cursor with
      | [] => buffer
      | value :: _ =>
        let unit := stringUnit value cursor
        bufferStringFrom fuel (cursor.drop unit.2) (buffer.append unit.1)

/-- `buffer_string`. -/
def bufferString (buffer : JsonBuffer) (text : Bytes) : JsonBuffer :=
  (bufferStringFrom text.length text (buffer.append [0x22])).append [0x22]

end MsysHal.Native.Json
