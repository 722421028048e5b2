import Mathlib

/-!
# Python values and the `json` module

The values a Python program hands to `json.dumps` and gets back from
`json.loads`, their sizes, and the compact text of `json.dumps(...,
ensure_ascii=False, separators=(",", ":"), allow_nan=False)`.

A Python `str` is a sequence of code points. Almost always these are Unicode
scalar values and the string is a Lean `String`; a string with a lone surrogate
is kept apart as `Value.lone`, since it survives every check on a string but
cannot be encoded as UTF-8.

The scanner of `json.loads` and the round trip are in `MsysHal.ForStd.JsonLoads`.
-/

namespace Python

/-- A Python `float`: a finite one with its value and the text `float.__repr__`
    gives it, or one of the infinities and `nan`. -/
inductive PyFloat where
  | finite (value : ℚ) (repr : String)
  | nonFinite
deriving DecidableEq, Repr

/-- A Python value as the `json` module and the validators see it. `other` is a
    value of any type that is not a JSON type. -/
inductive Value where
  | null
  | bool (b : Bool)
  | int (n : Int)
  | float (f : PyFloat)
  | str (s : String)
  | lone (codes : List Nat)
  | list (items : List Value)
  | dict (members : List (Value × Value))
  | other
deriving Repr, Inhabited

/-- What the model leaves to the Python runtime: `float()` of a JSON literal,
    `str()` of a value that is not a string, `repr()` of a string, and how deep
    `json.loads` may nest before it raises `RecursionError`. -/
structure Runtime where
  floatOf : List Char → PyFloat
  strOf : Value → String
  reprOf : String → String
  recursionLimit : Nat

/-- A runtime for examples, which read no float and print nothing but texts. -/
def Runtime.sample : Runtime := ⟨fun _ => .nonFinite, fun _ => "", id, 1000⟩

namespace Value

/-- A dict with string keys. -/
def object (members : List (String × Value)) : Value :=
  .dict (members.map fun m => (.str m.1, m.2))

/-- `isinstance(key, str) and key == name`. -/
def isKey (name : String) : Value → Bool
  | .str s => s == name
  | _ => false

/-- `members.get(name)` for the items of a dict. -/
def lookup (name : String) : List (Value × Value) → Option Value
  | [] => none
  | (key, value) :: rest => if key.isKey name then some value else lookup name rest

/-- `value.get(name)`, `none` also when the value is not a dict. -/
def get? (value : Value) (name : String) : Option Value :=
  match value with
  | .dict members => lookup name members
  | _ => none

end Value

/-! ## Sizes of values -/

mutual

/-- Number of values in a value, itself included. -/
def Value.nodes : Value → Nat
  | .list items => 1 + nodesItems items
  | .dict members => 1 + nodesMembers members
  | .null | .bool _ | .int _ | .float _ | .str _ | .lone _ | .other => 1

/-- Number of values in the items of a list. -/
def nodesItems : List Value → Nat
  | [] => 0
  | item :: rest => item.nodes + nodesItems rest

/-- Number of values in the members of a dict; keys do not count. -/
def nodesMembers : List (Value × Value) → Nat
  | [] => 0
  | (_, value) :: rest => value.nodes + nodesMembers rest

end

mutual

/-- Nesting depth below a value: `0` for a scalar and for an empty container. -/
def Value.height : Value → Nat
  | .list items => heightItems items
  | .dict members => heightMembers members
  | .null | .bool _ | .int _ | .float _ | .str _ | .lone _ | .other => 0

/-- One more than the greatest height of an item, `0` when there is none. -/
def heightItems : List Value → Nat
  | [] => 0
  | item :: rest => max (item.height + 1) (heightItems rest)

/-- One more than the greatest height of a member's value, `0` when there is none. -/
def heightMembers : List (Value × Value) → Nat
  | [] => 0
  | (_, value) :: rest => max (value.height + 1) (heightMembers rest)

end

theorem nodesItems_append (xs ys : List Value) :
    nodesItems (xs ++ ys) = nodesItems xs + nodesItems ys := by
  induction xs with
  | nil => simp only [List.nil_append, nodesItems, Nat.zero_add]
  | cons x xs ih => simp only [List.cons_append, nodesItems, ih]; omega

/-- A value counts at least itself. -/
theorem Value.nodes_pos (v : Value) : 0 < v.nodes := by
  cases v <;> simp only [Value.nodes] <;> omega

/-! ## `json.dumps` -/

/-- The longest decimal text an `int` converts to or from
    (`sys.get_int_max_str_digits`). -/
def maxStrDigits : Nat := 4300

/-- Lowercase hexadecimal digit. -/
def hexDigit (n : Nat) : Char := Nat.digitChar (n % 16)

/-- One character of a string inside the quotes of its JSON text. -/
def escapeChar (c : Char) : List Char :=
  if c = '"' then ['\\', '"']
  else if c = '\\' then ['\\', '\\']
  else if c = '\n' then ['\\', 'n']
  else if c = '\r' then ['\\', 'r']
  else if c = '\t' then ['\\', 't']
  else if c = '\x0c' then ['\\', 'f']
  else if c = '\x08' then ['\\', 'b']
  else if c.toNat < 0x20 then
    ['\\', 'u', '0', '0', hexDigit (c.toNat / 16), hexDigit c.toNat]
  else [c]

/-- The JSON text of a string. -/
def quote (s : String) : List Char :=
  '"' :: (s.toList.flatMap escapeChar ++ ['"'])

/-- `int.__repr__`. -/
def intText : Int → List Char
  | .ofNat n => Nat.toDigits 10 n
  | .negSucc n => '-' :: Nat.toDigits 10 (n + 1)

/-- The text of a dict key; only string keys reach `json.dumps` here. -/
def keyText : Value → List Char
  | .str s => quote s
  | _ => []

mutual

/-- The compact text `json.dumps` writes, where it does not raise. -/
def Value.text : Value → List Char
  | .null => ['n', 'u', 'l', 'l']
  | .bool true => ['t', 'r', 'u', 'e']
  | .bool false => ['f', 'a', 'l', 's', 'e']
  | .int n => intText n
  | .float (.finite _ repr) => repr.toList
  | .str s => quote s
  | .list items => '[' :: textItems items
  | .dict members => '{' :: textMembers members
  | .float .nonFinite | .lone _ | .other => []

/-- The items of a list and its closing bracket. -/
def textItems : List Value → List Char
  | [] => [']']
  | [item] => item.text ++ [']']
  | item :: rest => item.text ++ ',' :: textItems rest

/-- The members of a dict and its closing brace. -/
def textMembers : List (Value × Value) → List Char
  | [] => ['\x7d']
  | [(key, value)] => keyText key ++ ':' :: (value.text ++ ['\x7d'])
  | (key, value) :: rest => keyText key ++ ':' :: (value.text ++ ',' :: textMembers rest)

end

/-- An `int` whose decimal text is within `maxStrDigits`. -/
def shortInt (n : Int) : Bool := decide ((Nat.toDigits 10 n.natAbs).length ≤ maxStrDigits)

/-- A key `json.dumps` writes as it is and UTF-8 can encode. -/
def dumpableKey : Value → Bool
  | .str _ => true
  | _ => false

mutual

/-- Whether `json.dumps` and the following UTF-8 encoding succeed: no
    non-finite number, no over-long integer, no lone surrogate, no other type. -/
def Value.dumpable : Value → Bool
  | .null | .bool _ | .str _ => true
  | .int n => shortInt n
  | .float (.finite _ _) => true
  | .list items => dumpableItems items
  | .dict members => dumpableMembers members
  | .float .nonFinite | .lone _ | .other => false

/-- `dumpable` for the items of a list. -/
def dumpableItems : List Value → Bool
  | [] => true
  | item :: rest => item.dumpable && dumpableItems rest

/-- `dumpable` for the members of a dict. -/
def dumpableMembers : List (Value × Value) → Bool
  | [] => true
  | (key, value) :: rest => dumpableKey key && value.dumpable && dumpableMembers rest

end

/-- `json.dumps(value, ensure_ascii=False, separators=(",", ":"), allow_nan=False)`;
    `none` where it, or the UTF-8 encoding of its result, raises. -/
def dumps (value : Value) : Option (List Char) :=
  if value.dumpable then some value.text else none

/-- Number of bytes of the UTF-8 encoding of a value's text. -/
def Value.size (value : Value) : Nat := String.utf8Len value.text

/-! ## Sizes of texts -/

theorem utf8Len_le (text : List Char) : String.utf8Len text ≤ 4 * text.length := by
  induction text with
  | nil => exact Nat.zero_le _
  | cons c text ih =>
    have hc := c.utf8Size_le_four
    rw [String.utf8Len_cons, List.length_cons]
    omega

theorem length_escapeChar_le (c : Char) : (escapeChar c).length ≤ 6 := by
  simp only [escapeChar]
  split_ifs <;> simp

theorem length_quote_le (s : String) : (quote s).length ≤ 6 * s.length + 2 := by
  have hflat : ∀ text : List Char, (text.flatMap escapeChar).length ≤ 6 * text.length := by
    intro text
    induction text with
    | nil => exact Nat.zero_le _
    | cons c text ih =>
      have hc := length_escapeChar_le c
      rw [List.flatMap_cons, List.length_append, List.length_cons]
      omega
  have h := hflat s.toList
  rw [String.length_toList] at h
  simp only [quote, List.length_cons, List.length_append, List.length_nil]
  omega

/-- The text of a short integer has one more character at most, for the sign. -/
theorem length_intText_le {n : Int} (h : shortInt n = true) :
    (intText n).length ≤ maxStrDigits + 1 := by
  rw [shortInt, decide_eq_true_eq] at h
  cases n with
  | ofNat n => exact Nat.le_succ_of_le h
  | negSucc n => exact Nat.succ_le_succ h

theorem utf8Len_textItems (items : List Value) :
    String.utf8Len (textItems items) = 1 + (items.map Value.size).sum + (items.length - 1) := by
  induction items with
  | nil => rfl
  | cons item rest ih =>
    cases rest with
    | nil =>
      rw [textItems, String.utf8Len_append, List.map_singleton, List.sum_singleton]
      exact Nat.add_comm _ _
    | cons next rest =>
      have hcomma : ','.utf8Size = 1 := rfl
      rw [textItems, String.utf8Len_append, String.utf8Len_cons, ih]
      · simp only [List.map_cons, List.sum_cons, List.length_cons, Value.size]
        omega
      · exact fun h => nomatch h

/-- Bytes of the text of a list. -/
theorem size_list (items : List Value) :
    (Value.list items).size = 2 + (items.map Value.size).sum + (items.length - 1) := by
  have hbracket : '['.utf8Size = 1 := rfl
  rw [Value.size, Value.text, String.utf8Len_cons, utf8Len_textItems]
  omega

/-- Bytes of a member of a dict: its key, the colon and its value. -/
def memberSize (member : Value × Value) : Nat :=
  String.utf8Len (keyText member.1) + 1 + member.2.size

theorem utf8Len_textMembers (members : List (Value × Value)) :
    String.utf8Len (textMembers members) =
      1 + (members.map memberSize).sum + (members.length - 1) := by
  have hcolon : ':'.utf8Size = 1 := rfl
  have hcomma : ','.utf8Size = 1 := rfl
  induction members with
  | nil => rfl
  | cons member rest ih =>
    obtain ⟨key, value⟩ := member
    cases rest with
    | nil =>
      have hbrace : String.utf8Len ['\x7d'] = 1 := rfl
      rw [textMembers, String.utf8Len_append, String.utf8Len_cons, String.utf8Len_append, hbrace,
        List.map_singleton, List.sum_singleton, List.length_singleton, hcolon]
      change _ = 1 + (String.utf8Len (keyText key) + 1 + String.utf8Len value.text) + (1 - 1)
      omega
    | cons next rest =>
      rw [textMembers, String.utf8Len_append, String.utf8Len_cons, String.utf8Len_append,
        String.utf8Len_cons, ih]
      · simp only [List.map_cons, List.sum_cons, List.length_cons, memberSize, Value.size]
        omega
      · exact fun h => nomatch h

/-- Bytes of the text of a dict. -/
theorem size_dict (members : List (Value × Value)) :
    (Value.dict members).size = 2 + (members.map memberSize).sum + (members.length - 1) := by
  have hbrace : '\x7b'.utf8Size = 1 := rfl
  rw [Value.size, Value.text, String.utf8Len_cons, utf8Len_textMembers]
  omega

theorem nodesItems_eq (items : List Value) : nodesItems items = (items.map Value.nodes).sum := by
  induction items with
  | nil => rfl
  | cons item rest ih => rw [nodesItems, ih, List.map_cons, List.sum_cons]

theorem nodesMembers_eq (members : List (Value × Value)) :
    nodesMembers members = (members.map fun m => m.2.nodes).sum := by
  induction members with
  | nil => rfl
  | cons member rest ih => rw [nodesMembers, ih, List.map_cons, List.sum_cons]

/-- A quoted character has at most six bytes. -/
theorem utf8Len_escapeChar_le (c : Char) : String.utf8Len (escapeChar c) ≤ 6 := by
  have hdigit : ∀ n, (hexDigit n).utf8Size = 1 := by
    intro n
    have hn : n % 16 < 16 := Nat.mod_lt _ (by omega)
    unfold hexDigit
    generalize n % 16 = d at hn
    interval_cases d <;> rfl
  have hc := c.utf8Size_le_four
  have hone : String.utf8Len [c] ≤ 6 := by
    rw [String.utf8Len_cons, String.utf8Len_nil]
    omega
  simp only [escapeChar]
  split_ifs
  on_goal 8 =>
    rw [String.utf8Len_cons, String.utf8Len_cons, String.utf8Len_cons, String.utf8Len_cons,
      String.utf8Len_cons, String.utf8Len_cons, hdigit, hdigit]
    decide
  all_goals first | decide | exact hone

theorem utf8Len_quote_le (s : String) : String.utf8Len (quote s) ≤ 6 * s.length + 2 := by
  have hflat : ∀ text : List Char, String.utf8Len (text.flatMap escapeChar) ≤ 6 * text.length := by
    intro text
    induction text with
    | nil => exact Nat.zero_le _
    | cons c text ih =>
      have hc := utf8Len_escapeChar_le c
      rw [List.flatMap_cons, String.utf8Len_append, List.length_cons]
      omega
  have h := hflat s.toList
  have hquote : '"'.utf8Size = 1 := rfl
  have hend : String.utf8Len ['"'] = 1 := rfl
  rw [String.length_toList] at h
  rw [quote, String.utf8Len_cons, String.utf8Len_append, hend]
  omega

/-- A text of ASCII characters that need no escape. -/
theorem utf8Len_quote_plain {s : String} (h : ∀ c ∈ s.toList, escapeChar c = [c] ∧ c.utf8Size = 1) :
    String.utf8Len (quote s) = s.length + 2 := by
  have hflat : ∀ text : List Char, (∀ c ∈ text, escapeChar c = [c] ∧ c.utf8Size = 1) →
      String.utf8Len (text.flatMap escapeChar) = text.length := by
    intro text htext
    induction text with
    | nil => rfl
    | cons c text ih =>
      rw [List.forall_mem_cons] at htext
      rw [List.flatMap_cons, String.utf8Len_append, htext.1.1, ih htext.2, List.length_cons]
      rw [String.utf8Len_cons, htext.1.2, String.utf8Len_nil]
      omega
  have hquote : '"'.utf8Size = 1 := rfl
  have hend : String.utf8Len ['"'] = 1 := rfl
  rw [quote, String.utf8Len_cons, String.utf8Len_append, hend, hflat _ h,
    String.length_toList, hquote]

/-- What a dict that can be written holds can be written. -/
theorem dumpable_lookup {members : List (Value × Value)} {name : String} {v : Value}
    (h : dumpableMembers members = true) (hv : Value.lookup name members = some v) :
    v.dumpable = true := by
  induction members with
  | nil => exact nomatch hv
  | cons member rest ih =>
    obtain ⟨key, value⟩ := member
    simp only [dumpableMembers, Bool.and_eq_true] at h
    rw [Value.lookup] at hv
    split at hv
    · rw [Option.some.injEq] at hv
      exact hv ▸ h.1.2
    · exact ih h.2 hv

/-- Decoding the UTF-8 encoding of a text gives the text. -/
theorem fromUTF8?_toUTF8 (text : String) : String.fromUTF8? text.toUTF8 = some text :=
  dif_pos text.isValidUTF8

end Python
