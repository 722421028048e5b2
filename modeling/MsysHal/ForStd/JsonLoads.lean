import MsysHal.ForStd.Json

/-!
# The scanner of `json.loads`

`loads` follows `json.decoder`: the literals, the number grammar, strings with
their escapes and surrogate pairs, arrays and objects with a last-one-wins rule
for duplicate names, and the non-standard `NaN` and `Infinity`. It raises a
plain `ValueError` for an over-long integer literal and `RecursionError` past
the recursion limit; every other failure is a `JSONDecodeError`.

## Key results

- `loads_text`: the text of a value without floats is read back as that value
-/

namespace Python

/-- The exceptions `json.loads` raises. -/
inductive LoadsError where
  | decodeError
  | valueError
  | recursionError
deriving DecidableEq, Repr

/-! ## Lexical scanning -/

/-- The whitespace of JSON. -/
def isWs (c : Char) : Bool := c == ' ' || c == '\t' || c == '\n' || c == '\r'

/-- Skip whitespace. -/
def skipWs (text : List Char) : List Char := text.dropWhile isWs

/-- Value of a hexadecimal digit. -/
def hexVal (c : Char) : Option Nat :=
  if '0' ≤ c ∧ c ≤ '9' then some (c.toNat - '0'.toNat)
  else if 'a' ≤ c ∧ c ≤ 'f' then some (c.toNat - 'a'.toNat + 10)
  else if 'A' ≤ c ∧ c ≤ 'F' then some (c.toNat - 'A'.toNat + 10)
  else none

/-- The code unit four hexadecimal digits stand for. -/
def hexCode (a b c d : Char) : Option Nat := do
  let a ← hexVal a
  let b ← hexVal b
  let c ← hexVal c
  let d ← hexVal d
  some (((a * 16 + b) * 16 + c) * 16 + d)

/-- The character a one-letter escape stands for. -/
def simpleEscape (c : Char) : Option Char :=
  if c = '"' then some '"'
  else if c = '\\' then some '\\'
  else if c = '/' then some '/'
  else if c = 'b' then some '\x08'
  else if c = 'f' then some '\x0c'
  else if c = 'n' then some '\n'
  else if c = 'r' then some '\r'
  else if c = 't' then some '\t'
  else none

/-- The code units of a string up to its closing quote, and the text after it.
    Control characters are refused, as the strict mode of the scanner does. -/
def scanUnits : List Char → Option (List Nat × List Char)
  | [] => none
  | '"' :: rest => some ([], rest)
  | '\\' :: 'u' :: a :: b :: c :: d :: rest =>
    match hexCode a b c d, scanUnits rest with
    | some unit, some (units, tail) => some (unit :: units, tail)
    | _, _ => none
  | '\\' :: c :: rest =>
    match simpleEscape c, scanUnits rest with
    | some char, some (units, tail) => some (char.toNat :: units, tail)
    | _, _ => none
  | c :: rest =>
    if c.toNat < 0x20 then none
    else (scanUnits rest).map fun p => (c.toNat :: p.1, p.2)

/-- Join each high surrogate with the low surrogate right after it. -/
def joinSurrogates : List Nat → List Nat
  | [] => []
  | [unit] => [unit]
  | high :: low :: rest =>
    if 0xd800 ≤ high ∧ high ≤ 0xdbff ∧ 0xdc00 ≤ low ∧ low ≤ 0xdfff then
      (0x10000 + (high - 0xd800) * 1024 + (low - 0xdc00)) :: joinSurrogates rest
    else high :: joinSurrogates (low :: rest)

/-- A Python string from its code points. -/
def strOfCodes (codes : List Nat) : Value :=
  if codes.all fun n => decide (n.isValidChar) then
    .str (String.ofList (codes.map Char.ofNat))
  else .lone codes

/-- A string after its opening quote. -/
def scanString (text : List Char) : Option (Value × List Char) :=
  (scanUnits text).map fun p => (strOfCodes (joinSurrogates p.1), p.2)

/-- The integer part of a number: `0`, or digits that do not start with `0`. -/
def scanDigits (text : List Char) : Option (List Char × List Char) :=
  match text with
  | '0' :: rest => some (['0'], rest)
  | c :: _ =>
    if c.isDigit then some (text.takeWhile Char.isDigit, text.dropWhile Char.isDigit) else none
  | [] => none

/-- An optional fraction: a dot and at least one digit. -/
def scanFraction (text : List Char) : List Char × List Char :=
  match text with
  | '.' :: d :: rest =>
    if d.isDigit then
      ('.' :: (d :: rest).takeWhile Char.isDigit, (d :: rest).dropWhile Char.isDigit)
    else ([], text)
  | _ => ([], text)

/-- The digits of an exponent after its letter and sign. -/
def scanExponentDigits (head text whole : List Char) : List Char × List Char :=
  match text with
  | d :: _ =>
    if d.isDigit then
      (head ++ text.takeWhile Char.isDigit, text.dropWhile Char.isDigit)
    else ([], whole)
  | [] => ([], whole)

/-- An optional exponent. -/
def scanExponent (text : List Char) : List Char × List Char :=
  match text with
  | e :: rest =>
    if e = 'e' ∨ e = 'E' then
      match rest with
      | '+' :: digits => scanExponentDigits [e, '+'] digits text
      | '-' :: digits => scanExponentDigits [e, '-'] digits text
      | digits => scanExponentDigits [e] digits text
    else ([], text)
  | [] => ([], text)

/-- A number with an optional sign: an `int` when it has neither fraction nor
    exponent, else a `float`. -/
def scanNumber (rt : Runtime) (negative : Bool) (text : List Char) :
    Except LoadsError (Value × List Char) :=
  match scanDigits text with
  | none => .error .decodeError
  | some (digits, rest) =>
    let (fraction, rest) := scanFraction rest
    let (exponent, rest) := scanExponent rest
    if fraction.isEmpty && exponent.isEmpty then
      if digits.length > maxStrDigits then .error .valueError
      else
        let n := (Nat.ofDigitChars 10 digits 0 : Int)
        .ok (.int (if negative then -n else n), rest)
    else
      let sign := if negative then ['-'] else []
      .ok (.float (rt.floatOf (sign ++ digits ++ fraction ++ exponent)), rest)

/-- Match a literal text. -/
def scanLiteral (literal text : List Char) : Option (List Char) :=
  if literal.isPrefixOf text then some (text.drop literal.length) else none

/-- A scalar that starts with none of `"`, `[` and the opening brace. -/
def scanScalar (rt : Runtime) (text : List Char) : Except LoadsError (Value × List Char) :=
  match scanLiteral "null".toList text with
  | some rest => .ok (.null, rest)
  | none =>
  match scanLiteral "true".toList text with
  | some rest => .ok (.bool true, rest)
  | none =>
  match scanLiteral "false".toList text with
  | some rest => .ok (.bool false, rest)
  | none =>
  match scanLiteral "NaN".toList text with
  | some rest => .ok (.float .nonFinite, rest)
  | none =>
  match scanLiteral "Infinity".toList text with
  | some rest => .ok (.float .nonFinite, rest)
  | none =>
  match scanLiteral "-Infinity".toList text with
  | some rest => .ok (.float .nonFinite, rest)
  | none =>
  match text with
  | '-' :: rest => scanNumber rt true rest
  | _ => scanNumber rt false text

/-! ## Containers -/

/-- Whether two keys of a decoded object are the same string. -/
def sameKey : Value → Value → Bool
  | .str a, .str b => a == b
  | .lone a, .lone b => a == b
  | _, _ => false

/-- Add a member to a dict: an existing name keeps its place and takes the new value. -/
def setMember (key value : Value) : List (Value × Value) → List (Value × Value)
  | [] => [(key, value)]
  | (k, v) :: rest =>
    if sameKey k key then (k, value) :: rest else (k, v) :: setMember key value rest

mutual

/-- One value; `fuel` bounds the scan and `depth` counts the open containers. -/
def scanValue (rt : Runtime) : Nat → Nat → List Char → Except LoadsError (Value × List Char)
  | 0, _, _ => .error .decodeError
  | fuel + 1, depth, text =>
    match text with
    | '"' :: rest =>
      match scanString rest with
      | some result => .ok result
      | none => .error .decodeError
    | '[' :: rest =>
      if depth ≥ rt.recursionLimit then .error .recursionError
      else match skipWs rest with
        | ']' :: rest => .ok (.list [], rest)
        | rest => do
          let (items, rest) ← scanItems rt fuel (depth + 1) rest
          .ok (.list items, rest)
    | '\x7b' :: rest =>
      if depth ≥ rt.recursionLimit then .error .recursionError
      else match skipWs rest with
        | '\x7d' :: rest => .ok (.dict [], rest)
        | rest => do
          let (members, rest) ← scanMembers rt fuel (depth + 1) [] rest
          .ok (.dict members, rest)
    | _ => scanScalar rt text

/-- The items of an array up to its closing bracket. -/
def scanItems (rt : Runtime) : Nat → Nat → List Char →
    Except LoadsError (List Value × List Char)
  | 0, _, _ => .error .decodeError
  | fuel + 1, depth, text => do
    let (item, rest) ← scanValue rt fuel depth text
    match skipWs rest with
    | ',' :: rest =>
      let (items, rest) ← scanItems rt fuel depth (skipWs rest)
      .ok (item :: items, rest)
    | ']' :: rest => .ok ([item], rest)
    | _ => .error .decodeError

/-- The members of an object up to its closing brace, after those in `seen`. -/
def scanMembers (rt : Runtime) : Nat → Nat → List (Value × Value) → List Char →
    Except LoadsError (List (Value × Value) × List Char)
  | 0, _, _, _ => .error .decodeError
  | fuel + 1, depth, seen, text =>
    match text with
    | '"' :: rest =>
      match scanString rest with
      | none => .error .decodeError
      | some (key, rest) =>
        match skipWs rest with
        | ':' :: rest => do
          let (value, rest) ← scanValue rt fuel depth (skipWs rest)
          match skipWs rest with
          | ',' :: rest => scanMembers rt fuel depth (setMember key value seen) (skipWs rest)
          | '\x7d' :: rest => .ok (setMember key value seen, rest)
          | _ => .error .decodeError
        | _ => .error .decodeError
    | _ => .error .decodeError

end

/-- `json.loads` of a decoded text. -/
def loads (rt : Runtime) (text : List Char) : Except LoadsError Value :=
  if text.head? = some '\ufeff' then .error .decodeError
  else do
    let (value, rest) ← scanValue rt (2 * text.length + 1) 0 (skipWs text)
    if (skipWs rest).isEmpty then .ok value else .error .decodeError

/-! ## Strings read back -/

theorem hexVal_hexDigit (n : Nat) : hexVal (hexDigit n) = some (n % 16) := by
  have h : n % 16 < 16 := Nat.mod_lt _ (by omega)
  unfold hexDigit
  generalize n % 16 = d at h
  interval_cases d <;> decide

theorem scanUnits_plain (c : Char) (text : List Char) (hq : c ≠ '"') (hb : c ≠ '\\')
    (hc : ¬ c.toNat < 0x20) :
    scanUnits (c :: text) = (scanUnits text).map fun p => (c.toNat :: p.1, p.2) := by
  rw [scanUnits]
  · rw [if_neg hc]
  · intro h; exact hq h
  · intro _ _ _ _ _ h; exact absurd h hb
  · intro _ _ h; exact absurd h hb

theorem scanUnits_simpleEscape (e c : Char) (text : List Char) (he : e ≠ 'u')
    (h : simpleEscape e = some c) :
    scanUnits ('\\' :: e :: text) = (scanUnits text).map fun p => (c.toNat :: p.1, p.2) := by
  rw [scanUnits]
  · rw [h]
    cases scanUnits text <;> rfl
  · intro _ _ _ _ _ hu; exact absurd hu he

theorem scanUnits_hexEscape (n : Nat) (text : List Char) (h : n < 256) :
    scanUnits ('\\' :: 'u' :: '0' :: '0' :: hexDigit (n / 16) :: hexDigit n :: text) =
      (scanUnits text).map fun p => (n :: p.1, p.2) := by
  have hcode : hexCode '0' '0' (hexDigit (n / 16)) (hexDigit n) = some n := by
    have hz : hexVal '0' = some 0 := by decide
    simp only [hexCode, hexVal_hexDigit, hz, Option.bind_eq_bind, Option.bind_some,
      Option.some.injEq]
    omega
  rw [scanUnits, hcode]
  cases scanUnits text <;> rfl

/-- The scanner reads one escaped character back. -/
private theorem scanUnits_escapeChar (c : Char) (text : List Char) :
    scanUnits (escapeChar c ++ text) = (scanUnits text).map fun p => (c.toNat :: p.1, p.2) := by
  unfold escapeChar
  split_ifs with h1 h2 h3 h4 h5 h6 h7 h8
  · rw [h1]; exact scanUnits_simpleEscape _ _ _ (by decide) (by decide)
  · rw [h2]; exact scanUnits_simpleEscape _ _ _ (by decide) (by decide)
  · rw [h3]; exact scanUnits_simpleEscape _ _ _ (by decide) (by decide)
  · rw [h4]; exact scanUnits_simpleEscape _ _ _ (by decide) (by decide)
  · rw [h5]; exact scanUnits_simpleEscape _ _ _ (by decide) (by decide)
  · rw [h6]; exact scanUnits_simpleEscape _ _ _ (by decide) (by decide)
  · rw [h7]; exact scanUnits_simpleEscape _ _ _ (by decide) (by decide)
  · exact scanUnits_hexEscape c.toNat text (by omega)
  · exact scanUnits_plain c text h1 h2 h8

private theorem scanUnits_escaped (chars rest : List Char) :
    scanUnits (chars.flatMap escapeChar ++ '"' :: rest) = some (chars.map Char.toNat, rest) := by
  induction chars with
  | nil => simp only [List.flatMap_nil, List.nil_append, List.map_nil, scanUnits]
  | cons c chars ih =>
    rw [List.flatMap_cons, List.append_assoc, scanUnits_escapeChar, ih]
    rfl

theorem joinSurrogates_chars (chars : List Char) :
    joinSurrogates (chars.map Char.toNat) = chars.map Char.toNat := by
  match chars with
  | [] => rfl
  | [c] => rfl
  | c :: d :: rest =>
    have ih := joinSurrogates_chars (d :: rest)
    have hc : ¬ (0xd800 ≤ c.toNat ∧ c.toNat ≤ 0xdbff ∧ 0xdc00 ≤ d.toNat ∧ d.toNat ≤ 0xdfff) := by
      have hv := c.valid
      have : c.toNat = c.val.toNat := rfl
      simp only [UInt32.isValidChar, Nat.isValidChar] at hv
      omega
    rw [List.map_cons, List.map_cons, joinSurrogates, if_neg hc]
    rw [List.map_cons] at ih
    rw [ih]

theorem strOfCodes_chars (chars : List Char) :
    strOfCodes (chars.map Char.toNat) = .str (String.ofList chars) := by
  have hall : (chars.map Char.toNat).all (fun n => decide (n.isValidChar)) = true := by
    simp only [List.all_map, List.all_eq_true, Function.comp_apply, decide_eq_true_eq]
    intro c _
    exact c.valid
  rw [strOfCodes, if_pos hall]
  simp only [List.map_map, Value.str.injEq]
  congr 1
  conv_rhs => rw [← List.map_id chars]
  apply List.map_congr_left
  intro c _
  simp [Char.ofNat_toNat]

/-- A quoted string is read back after its opening quote. -/
private theorem scanString_quote (s : String) (rest : List Char) :
    scanString (s.toList.flatMap escapeChar ++ '"' :: rest) = some (.str s, rest) := by
  simp only [scanString, scanUnits_escaped, Option.map_some, joinSurrogates_chars,
    strOfCodes_chars, String.ofList_toList]

/-! ## Numbers read back -/

/-- The text after a value does not continue a number. -/
def Stops (rest : List Char) : Prop :=
  ∀ c tail, rest = c :: tail → c.isDigit = false ∧ c ≠ '.' ∧ c ≠ 'e' ∧ c ≠ 'E'

private theorem stops_cons {c : Char} (tail : List Char) (hd : c.isDigit = false) (hdot : c ≠ '.')
    (he : c ≠ 'e') (hE : c ≠ 'E') : Stops (c :: tail) := by
  intro c' tail' h
  obtain ⟨rfl, rfl⟩ := List.cons.inj h
  exact ⟨hd, hdot, he, hE⟩

private theorem takeWhile_digits {digits rest : List Char} (hd : ∀ c ∈ digits, c.isDigit = true)
    (hr : Stops rest) :
    (digits ++ rest).takeWhile Char.isDigit = digits ∧
      (digits ++ rest).dropWhile Char.isDigit = rest := by
  induction digits with
  | nil =>
    cases rest with
    | nil => exact ⟨rfl, rfl⟩
    | cons c tail =>
      have hc := (hr c tail rfl).1
      simp only [List.nil_append, List.takeWhile_cons, List.dropWhile_cons, hc, Bool.false_eq_true,
        if_false, and_self]
  | cons c digits ih =>
    have hc := hd c (List.mem_cons_self ..)
    obtain ⟨ht, hdr⟩ := ih fun x hx => hd x (List.mem_cons_of_mem _ hx)
    simp only [List.cons_append, List.takeWhile_cons, List.dropWhile_cons, hc, if_true, ht, hdr,
      and_self]

/-- A decimal text starts with a digit. -/
private theorem toDigits_cons (n : Nat) :
    ∃ c tail, Nat.toDigits 10 n = c :: tail ∧ c.isDigit = true := by
  obtain ⟨c, tail, hc⟩ := List.exists_cons_of_ne_nil (Nat.toDigits_ne_nil (n := n) (b := 10))
  exact ⟨c, tail, hc, Nat.isDigit_of_mem_toDigits (by omega) (by omega)
    (hc ▸ List.mem_cons_self ..)⟩

/-- The first digit of a positive number is not zero. -/
private theorem toDigits_head_ne_zero (n : Nat) (hn : 0 < n) :
    ∃ c tail, Nat.toDigits 10 n = c :: tail ∧ c ≠ '0' := by
  induction n using Nat.strong_induction_on with
  | _ n ih =>
    by_cases h : n < 10
    · rw [Nat.toDigits_of_lt_base h]
      exact ⟨_, [], rfl, by interval_cases n <;> decide⟩
    · obtain ⟨c, tail, hc, hne⟩ := ih (n / 10) (by omega) (by omega)
      rw [Nat.toDigits_of_base_le (by omega) (by omega), hc]
      exact ⟨c, tail ++ [Nat.digitChar (n % 10)], rfl, hne⟩

private theorem scanDigits_toDigits (n : Nat) {rest : List Char} (hr : Stops rest) :
    scanDigits (Nat.toDigits 10 n ++ rest) = some (Nat.toDigits 10 n, rest) := by
  have hd : ∀ c ∈ Nat.toDigits 10 n, c.isDigit = true := fun c hc =>
    Nat.isDigit_of_mem_toDigits (by omega) (by omega) hc
  by_cases hn : n = 0
  · subst hn; simp only [Nat.toDigits_zero, List.cons_append, List.nil_append, scanDigits]
  · obtain ⟨c, tail, hc, hne⟩ := toDigits_head_ne_zero n (by omega)
    obtain ⟨ht, hdr⟩ := takeWhile_digits hd hr
    rw [hc] at ht hdr hd ⊢
    have hcd := hd c (List.mem_cons_self ..)
    rw [List.cons_append, scanDigits]
    · rw [if_pos hcd, ← List.cons_append, ht, hdr]
    · intro h; exact hne h

private theorem scanFraction_stops {rest : List Char} (hr : Stops rest) :
    scanFraction rest = ([], rest) := by
  unfold scanFraction
  split
  · exact absurd rfl (hr _ _ rfl).2.1
  · rfl

private theorem scanExponent_stops {rest : List Char} (hr : Stops rest) :
    scanExponent rest = ([], rest) := by
  unfold scanExponent
  split
  · next e tail =>
    obtain ⟨_, _, he, hE⟩ := hr e tail rfl
    rw [if_neg (by rintro (h | h); exacts [he h, hE h])]
  · rfl

private theorem scanNumber_toDigits (rt : Runtime) (negative : Bool) (n : Nat) {rest : List Char}
    (hn : (Nat.toDigits 10 n).length ≤ maxStrDigits) (hr : Stops rest) :
    scanNumber rt negative (Nat.toDigits 10 n ++ rest) =
      .ok (.int (if negative then -(n : Int) else n), rest) := by
  have hlen : ¬ (Nat.toDigits 10 n).length > maxStrDigits := Nat.not_lt.mpr hn
  simp only [scanNumber, scanDigits_toDigits n hr, scanFraction_stops hr, scanExponent_stops hr,
    List.isEmpty_nil, Bool.and_self, if_true, if_neg hlen,
    Nat.ofDigitChars_toDigits (by omega : 1 < 10) (by omega : 10 ≤ 10)]

private theorem scanLiteral_ne {l c : Char} {literal tail : List Char} (text : List Char)
    (hl : literal = l :: tail) (h : c ≠ l) : scanLiteral literal (c :: text) = none := by
  subst hl
  unfold scanLiteral
  rw [if_neg]
  simp only [List.isPrefixOf_cons_cons, Bool.and_eq_true, beq_iff_eq, not_and]
  intro hl; exact absurd hl.symm h

/-- A text that starts with a digit is scanned as a number. -/
theorem scanScalar_digit (rt : Runtime) {c : Char} (text : List Char) (hd : c.isDigit = true) :
    scanScalar rt (c :: text) = scanNumber rt false (c :: text) := by
  have hne : ∀ l : Char, l.isDigit = false → c ≠ l := by
    rintro l hl rfl; rw [hl] at hd; exact absurd hd (by decide)
  unfold scanScalar
  rw [scanLiteral_ne text (l := 'n') (by rfl) (hne _ (by decide)),
    scanLiteral_ne text (l := 't') (by rfl) (hne _ (by decide)),
    scanLiteral_ne text (l := 'f') (by rfl) (hne _ (by decide)),
    scanLiteral_ne text (l := 'N') (by rfl) (hne _ (by decide)),
    scanLiteral_ne text (l := 'I') (by rfl) (hne _ (by decide)),
    scanLiteral_ne text (l := '-') (by rfl) (hne _ (by decide))]
  dsimp only
  split
  · next h => exact absurd (List.cons.inj h).1 (hne '-' (by decide))
  · rfl

/-- A minus sign and a digit are scanned as a negative number. -/
theorem scanScalar_minus (rt : Runtime) {c : Char} (text : List Char) (hd : c.isDigit = true) :
    scanScalar rt ('-' :: c :: text) = scanNumber rt true (c :: text) := by
  have hI : scanLiteral "-Infinity".toList ('-' :: c :: text) = none := by
    have hc : c ≠ 'I' := by rintro rfl; exact absurd hd (by decide)
    rw [show "-Infinity".toList = '-' :: 'I' :: "nfinity".toList from rfl]
    unfold scanLiteral
    rw [if_neg]
    simp only [List.isPrefixOf_cons_cons, Bool.and_eq_true, beq_iff_eq, not_and]
    intro _ hl; exact absurd hl.symm hc
  unfold scanScalar
  rw [scanLiteral_ne _ (l := 'n') (by rfl) (by decide),
    scanLiteral_ne _ (l := 't') (by rfl) (by decide),
    scanLiteral_ne _ (l := 'f') (by rfl) (by decide),
    scanLiteral_ne _ (l := 'N') (by rfl) (by decide),
    scanLiteral_ne _ (l := 'I') (by rfl) (by decide), hI]
  rfl

/-- An integer is read back. -/
private theorem scanScalar_intText (rt : Runtime) (n : Int) {rest : List Char}
    (hn : shortInt n = true) (hr : Stops rest) :
    scanScalar rt (intText n ++ rest) = .ok (.int n, rest) := by
  have hn := of_decide_eq_true hn
  cases n with
  | ofNat n =>
    obtain ⟨c, tail, hc, hd⟩ := toDigits_cons n
    have hnum := scanNumber_toDigits rt false n hn hr
    simp only [intText]
    rw [hc] at hnum ⊢
    rw [List.cons_append] at hnum ⊢
    rw [scanScalar_digit rt _ hd, hnum]
    rfl
  | negSucc n =>
    obtain ⟨c, tail, hc, hd⟩ := toDigits_cons (n + 1)
    have hnum := scanNumber_toDigits rt true (n + 1) hn hr
    simp only [intText]
    rw [hc] at hnum ⊢
    rw [List.cons_append, List.cons_append] at *
    rw [scanScalar_minus rt _ hd, hnum]
    rfl
/-! ## The round trip -/

/-- No two members have the same name. -/
def distinctKeys : List (Value × Value) → Bool
  | [] => true
  | (key, _) :: rest => rest.all (fun m => !sameKey key m.1) && distinctKeys rest

mutual

/-- A value `json.loads` reads back as it was: no float, every integer short
    enough, string keys without duplicates. -/
def Value.loadable : Value → Bool
  | .null | .bool _ | .str _ => true
  | .int n => shortInt n
  | .list items => loadableItems items
  | .dict members => distinctKeys members && loadableMembers members
  | .float _ | .lone _ | .other => false

/-- `loadable` for the items of a list. -/
def loadableItems : List Value → Bool
  | [] => true
  | item :: rest => item.loadable && loadableItems rest

/-- `loadable` for the members of a dict. -/
def loadableMembers : List (Value × Value) → Bool
  | [] => true
  | (key, value) :: rest => dumpableKey key && value.loadable && loadableMembers rest

end

private theorem skipWs_cons {c : Char} (text : List Char) (h : isWs c = false) :
    skipWs (c :: text) = c :: text := by
  simp only [skipWs, List.dropWhile_cons, h, Bool.false_eq_true, if_false]

/-- The text of an integer starts with a digit or a minus sign. -/
private theorem intText_head (n : Int) : ∃ c tail, intText n = c :: tail ∧
    ∀ l : Char, l.isDigit = false → l ≠ '-' → c ≠ l := by
  cases n with
  | ofNat n =>
    obtain ⟨c, tail, hc, hd⟩ := toDigits_cons n
    refine ⟨c, tail, hc, ?_⟩
    rintro l hl _ rfl
    rw [hl] at hd
    exact absurd hd (by decide)
  | negSucc n => exact ⟨'-', _, rfl, fun l _ hm h => hm h.symm⟩

/-- The text of a value starts with a character that is neither whitespace nor
    a closing bracket. -/
private theorem text_head {v : Value} (h : v.loadable = true) :
    ∃ c tail, v.text = c :: tail ∧ isWs c = false ∧ c ≠ ']' ∧ c ≠ '\ufeff' := by
  cases v with
  | null => exact ⟨_, _, rfl, by decide, by decide, by decide⟩
  | bool b => cases b <;> exact ⟨_, _, rfl, by decide, by decide, by decide⟩
  | int n =>
    obtain ⟨c, tail, hc, hne⟩ := intText_head n
    refine ⟨c, tail, by simpa only [Value.text] using hc, ?_, hne _ (by decide) (by decide),
      hne _ (by decide) (by decide)⟩
    simp only [isWs, beq_eq_false_iff_ne, Bool.or_eq_false_iff]
    exact ⟨⟨⟨hne _ (by decide) (by decide), hne _ (by decide) (by decide)⟩,
      hne _ (by decide) (by decide)⟩, hne _ (by decide) (by decide)⟩
  | str s => exact ⟨'"', _, rfl, by decide, by decide, by decide⟩
  | list items => exact ⟨'[', _, rfl, by decide, by decide, by decide⟩
  | dict members => exact ⟨'\x7b', _, rfl, by decide, by decide, by decide⟩
  | float f => simp only [Value.loadable, Bool.false_eq_true] at h
  | lone codes => simp only [Value.loadable, Bool.false_eq_true] at h
  | other => simp only [Value.loadable, Bool.false_eq_true] at h

private theorem textItems_head {item : Value} {items : List Value}
    (h : loadableItems (item :: items) = true) :
    ∃ c tail, textItems (item :: items) = c :: tail ∧ isWs c = false ∧ c ≠ ']' := by
  rw [loadableItems, Bool.and_eq_true] at h
  obtain ⟨c, tail, hc, hws, hne, _⟩ := text_head h.1
  cases items with
  | nil => exact ⟨c, tail ++ [']'], by rw [textItems, hc]; rfl, hws, hne⟩
  | cons next items =>
    refine ⟨c, tail ++ ',' :: textItems (next :: items), ?_, hws, hne⟩
    rw [textItems, hc]
    · rfl
    · exact List.cons_ne_nil _ _

private theorem loadableMembers_key {key value : Value} {members : List (Value × Value)}
    (h : loadableMembers ((key, value) :: members) = true) : ∃ name, key = .str name := by
  cases key with
  | str s => exact ⟨s, rfl⟩
  | _ => simp only [loadableMembers, dumpableKey, Bool.false_and, Bool.false_eq_true] at h

private theorem textMembers_head (name : String) (value : Value) (members : List (Value × Value)) :
    ∃ tail, textMembers ((.str name, value) :: members) = '"' :: tail := by
  cases members <;> exact ⟨_, rfl⟩

/-- Adding a new name to a dict appends it. -/
private theorem setMember_append (key value : Value) (seen : List (Value × Value))
    (h : ∀ m ∈ seen, sameKey m.1 key = false) :
    setMember key value seen = seen ++ [(key, value)] := by
  induction seen with
  | nil => rfl
  | cons m seen ih =>
    obtain ⟨k, v⟩ := m
    have hk := h (k, v) (List.mem_cons_self ..)
    simp only at hk
    simp only [setMember, hk, Bool.false_eq_true, if_false, List.cons_append,
      ih fun m hm => h m (List.mem_cons_of_mem _ hm)]

private theorem scanValue_scalar (rt : Runtime) (fuel depth : Nat) {c : Char} (tail : List Char)
    (hq : c ≠ '"') (hb : c ≠ '[') (ho : c ≠ '\x7b') :
    scanValue rt (fuel + 1) depth (c :: tail) = scanScalar rt (c :: tail) := by
  rw [scanValue]
  · intro _ h; exact hq (List.cons.inj h).1
  · intro _ h; exact hb (List.cons.inj h).1
  · intro _ h; exact ho (List.cons.inj h).1

/-- A name and its colon: what is left is the value and the end of the member. -/
private theorem scanMembers_colon (rt : Runtime) (fuel depth : Nat) (seen : List (Value × Value))
    (name : String) (text : List Char) :
    scanMembers rt (fuel + 1) depth seen
        ('"' :: (name.toList.flatMap escapeChar ++ '"' :: ':' :: text)) = (do
      let (value, rest) ← scanValue rt fuel depth (skipWs text)
      match skipWs rest with
      | ',' :: rest => scanMembers rt fuel depth (setMember (.str name) value seen) (skipWs rest)
      | '\x7d' :: rest => .ok (setMember (.str name) value seen, rest)
      | _ => .error .decodeError) := by
  rw [scanMembers, scanString_quote]
  dsimp only
  rw [skipWs_cons _ (by decide)]
  rfl

/-- A closing bracket does not continue a number. -/
private theorem stops_bracket (rest : List Char) : Stops (']' :: rest) :=
  stops_cons rest (by decide) (by decide) (by decide) (by decide)

/-- A closing brace does not continue a number. -/
private theorem stops_brace (rest : List Char) : Stops ('\x7d' :: rest) :=
  stops_cons rest (by decide) (by decide) (by decide) (by decide)

/-- A comma does not continue a number. -/
private theorem stops_comma (rest : List Char) : Stops (',' :: rest) :=
  stops_cons rest (by decide) (by decide) (by decide) (by decide)

mutual

/-- The scanner reads the text of a value back and stops right after it. -/
private theorem scanValue_text (rt : Runtime) : ∀ (v : Value) (fuel depth : Nat) (rest : List Char),
    v.loadable = true → Stops rest → v.text.length ≤ fuel →
    depth + v.height < rt.recursionLimit →
    scanValue rt fuel depth (v.text ++ rest) = .ok (v, rest)
  | .null, fuel, depth, rest, _, _, hf, _ => by
    obtain ⟨fuel, rfl⟩ : ∃ f, fuel = f + 1 := ⟨fuel - 1, by simp [Value.text] at hf; omega⟩
    rfl
  | .bool true, fuel, depth, rest, _, _, hf, _ => by
    obtain ⟨fuel, rfl⟩ : ∃ f, fuel = f + 1 := ⟨fuel - 1, by simp [Value.text] at hf; omega⟩
    rfl
  | .bool false, fuel, depth, rest, _, _, hf, _ => by
    obtain ⟨fuel, rfl⟩ : ∃ f, fuel = f + 1 := ⟨fuel - 1, by simp [Value.text] at hf; omega⟩
    rfl
  | .int n, fuel, depth, rest, h, hr, hf, _ => by
    -- A number is told apart from the other values by its first character.
    simp only [Value.loadable] at h
    obtain ⟨c, tail, hc, hne⟩ := intText_head n
    have hs := scanScalar_intText rt n h hr
    simp only [Value.text] at hf ⊢
    rw [hc, List.length_cons] at hf
    rw [hc, List.cons_append] at hs ⊢
    obtain ⟨fuel, rfl⟩ : ∃ f, fuel = f + 1 := ⟨fuel - 1, by omega⟩
    rw [scanValue_scalar rt fuel depth _ (hne _ (by decide) (by decide))
      (hne _ (by decide) (by decide)) (hne _ (by decide) (by decide)), hs]
  | .str s, fuel, depth, rest, _, _, hf, _ => by
    simp only [Value.text, quote, List.length_cons] at hf ⊢
    obtain ⟨fuel, rfl⟩ : ∃ f, fuel = f + 1 := ⟨fuel - 1, by omega⟩
    rw [List.cons_append, List.append_assoc, List.singleton_append, scanValue, scanString_quote]
  | .list [], fuel, depth, rest, _, _, hf, hd => by
    simp only [Value.text, textItems, List.length_cons, Value.height, heightItems] at hf hd ⊢
    obtain ⟨fuel, rfl⟩ : ∃ f, fuel = f + 1 := ⟨fuel - 1, by omega⟩
    rw [List.cons_append, scanValue, if_neg (by omega)]
    rfl
  | .list (item :: items), fuel, depth, rest, h, _, hf, hd => by
    -- The items are scanned one level deeper with the fuel that is left.
    simp only [Value.text, List.length_cons, Value.loadable, Value.height] at h hf hd ⊢
    obtain ⟨fuel, rfl⟩ : ∃ f, fuel = f + 1 := ⟨fuel - 1, by omega⟩
    have hscan := scanItems_text rt item items fuel (depth + 1) rest h (by omega) (by omega)
    obtain ⟨c, tail, hc, hws, hne⟩ := textItems_head h
    rw [List.cons_append, scanValue, if_neg (by omega)]
    rw [hc, List.cons_append] at hscan ⊢
    rw [skipWs_cons _ hws]
    split
    · next heq => exact absurd (List.cons.inj heq).1 hne
    · rw [hscan]; rfl
  | .dict [], fuel, depth, rest, _, _, hf, hd => by
    simp only [Value.text, textMembers, List.length_cons, Value.height, heightMembers] at hf hd ⊢
    obtain ⟨fuel, rfl⟩ : ∃ f, fuel = f + 1 := ⟨fuel - 1, by omega⟩
    rw [List.cons_append, scanValue, if_neg (by omega)]
    rfl
  | .dict ((key, value) :: members), fuel, depth, rest, h, _, hf, hd => by
    -- The members are scanned one level deeper, from an empty dictionary.
    simp only [Value.text, List.length_cons, Value.loadable, Bool.and_eq_true,
      Value.height] at h hf hd ⊢
    obtain ⟨fuel, rfl⟩ : ∃ f, fuel = f + 1 := ⟨fuel - 1, by omega⟩
    obtain ⟨name, rfl⟩ := loadableMembers_key h.2
    have hscan := scanMembers_text rt name value members fuel (depth + 1) [] rest h.1 h.2
      (fun _ hm => nomatch hm) (by omega) (by omega)
    obtain ⟨tail, hc⟩ := textMembers_head name value members
    rw [List.cons_append, scanValue, if_neg (by omega)]
    rw [hc, List.cons_append] at hscan ⊢
    rw [skipWs_cons _ (by decide)]
    split
    · next heq => exact absurd (List.cons.inj heq).1 (by decide)
    · rw [hscan]; rfl
  -- Floats, lone surrogates and other objects are not loadable.
  | .float f, _, _, _, h, _, _, _ => by simp only [Value.loadable, Bool.false_eq_true] at h
  | .lone codes, _, _, _, h, _, _, _ => by simp only [Value.loadable, Bool.false_eq_true] at h
  | .other, _, _, _, h, _, _, _ => by simp only [Value.loadable, Bool.false_eq_true] at h
termination_by _ fuel => fuel

/-- The scanner reads the items of an array back. -/
private theorem scanItems_text (rt : Runtime) :
    ∀ (item : Value) (items : List Value) (fuel depth : Nat)
    (rest : List Char), loadableItems (item :: items) = true →
    (textItems (item :: items)).length ≤ fuel →
    depth + heightItems (item :: items) ≤ rt.recursionLimit →
    scanItems rt fuel depth (textItems (item :: items) ++ rest) = .ok (item :: items, rest)
  | item, [], fuel, depth, rest, h, hf, hd => by
    simp only [loadableItems, Bool.and_true] at h
    simp only [textItems, heightItems, List.length_append, List.length_singleton] at hf hd ⊢
    obtain ⟨fuel, rfl⟩ : ∃ f, fuel = f + 1 := ⟨fuel - 1, by omega⟩
    rw [List.append_assoc, List.singleton_append, scanItems,
      scanValue_text rt item fuel depth _ h (stops_bracket rest) (by omega) (by omega)]
    rfl
  | item, next :: items, fuel, depth, rest, h, hf, hd => by
    have h' := h
    rw [loadableItems, Bool.and_eq_true] at h
    rw [heightItems] at hd
    simp only [textItems, List.length_append, List.length_cons] at hf ⊢
    obtain ⟨fuel, rfl⟩ : ∃ f, fuel = f + 1 := ⟨fuel - 1, by omega⟩
    obtain ⟨c, tail, hc, hws, _⟩ := textItems_head h.2
    have hrest := scanItems_text rt next items fuel depth rest h.2 (by omega) (by omega)
    rw [List.append_assoc, List.cons_append, scanItems,
      scanValue_text rt item fuel depth _ h.1 (stops_comma _) (by omega) (by omega)]
    simp only [bind, Except.bind]
    rw [skipWs_cons _ (by decide)]
    change (scanItems rt fuel depth (skipWs (textItems (next :: items) ++ rest)) >>=
      fun p => Except.ok (item :: p.1, p.2)) = _
    rw [hc, List.cons_append] at hrest ⊢
    rw [skipWs_cons _ hws, hrest]
    rfl
termination_by _ _ fuel => fuel

/-- The scanner reads the members of an object back, after those it has seen. -/
private theorem scanMembers_text (rt : Runtime) : ∀ (name : String) (value : Value)
    (members : List (Value × Value)) (fuel depth : Nat) (seen : List (Value × Value))
      (rest : List Char),
    distinctKeys ((.str name, value) :: members) = true →
    loadableMembers ((.str name, value) :: members) = true →
    (∀ m ∈ seen, ∀ n ∈ (.str name, value) :: members, sameKey m.1 n.1 = false) →
    (textMembers ((.str name, value) :: members)).length ≤ fuel →
    depth + heightMembers ((.str name, value) :: members) ≤ rt.recursionLimit →
    scanMembers rt fuel depth seen (textMembers ((.str name, value) :: members) ++ rest) =
      .ok (seen ++ (.str name, value) :: members, rest)
  | name, value, [], fuel, depth, seen, rest, _, h, hs, hf, hd => by
    -- The last member: its value ends at the brace.
    simp only [loadableMembers, dumpableKey, Bool.true_and, Bool.and_true] at h
    simp only [heightMembers, textMembers, keyText, quote, List.length_append,
      List.length_cons] at hf hd ⊢
    obtain ⟨fuel, rfl⟩ : ∃ f, fuel = f + 1 := ⟨fuel - 1, by omega⟩
    have hset := setMember_append (.str name) value seen fun m hm =>
      hs m hm _ (List.mem_cons_self ..)
    have hval := scanValue_text rt value fuel depth _ h (stops_brace rest) (by omega) (by omega)
    obtain ⟨c, tail, hc, hws, _⟩ := text_head h
    simp only [List.cons_append, List.append_assoc, List.nil_append]
    rw [scanMembers_colon]
    rw [hc, List.cons_append] at hval ⊢
    rw [skipWs_cons _ hws, hval]
    simp only [bind, Except.bind]
    rw [skipWs_cons _ (by decide), hset]
    rfl
  | name, value, (key', value') :: members, fuel, depth, seen, rest, hdis, h, hs, hf, hd => by
    -- Another member follows: the value ends at the comma.
    rw [loadableMembers, Bool.and_eq_true, Bool.and_eq_true] at h
    obtain ⟨name', rfl⟩ := loadableMembers_key h.2
    rw [heightMembers] at hd
    rw [distinctKeys, Bool.and_eq_true, List.all_eq_true] at hdis
    simp only [textMembers, keyText, quote, List.length_append, List.length_cons] at hf ⊢
    obtain ⟨fuel, rfl⟩ : ∃ f, fuel = f + 1 := ⟨fuel - 1, by omega⟩
    have hset := setMember_append (.str name) value seen fun m hm =>
      hs m hm _ (List.mem_cons_self ..)
    have hval := scanValue_text rt value fuel depth
      (',' :: (textMembers ((.str name', value') :: members) ++ rest)) h.1.2 (stops_comma _)
      (by omega) (by omega)
    have hrest := scanMembers_text rt name' value' members fuel depth
      (seen ++ [(.str name, value)]) rest hdis.2 h.2 (by
        intro m hm n hn
        rcases List.mem_append.mp hm with hm | hm
        · exact hs m hm n (List.mem_cons_of_mem _ hn)
        · rw [List.mem_singleton] at hm
          subst hm
          simpa using hdis.1 n hn) (by omega) (by omega)
    obtain ⟨c, tail, hc, hws, _⟩ := text_head h.1.2
    obtain ⟨tail', hc'⟩ := textMembers_head name' value' members
    simp only [List.cons_append, List.append_assoc, List.nil_append]
    rw [scanMembers_colon]
    rw [hc, List.cons_append] at hval ⊢
    rw [skipWs_cons _ hws, hval]
    simp only [bind, Except.bind]
    rw [skipWs_cons _ (by decide), hset]
    change scanMembers rt fuel depth _ (skipWs _) = _
    rw [hc', List.cons_append] at hrest ⊢
    rw [skipWs_cons _ (by decide), hrest, List.append_assoc, List.singleton_append]
termination_by _ _ _ fuel => fuel

end

/-- Whitespace does not continue a number. -/
private theorem stops_ws {ws : List Char} (h : ws.all isWs = true) : Stops ws := by
  rintro c tail rfl
  rw [List.all_cons, Bool.and_eq_true] at h
  have hc := h.1
  simp only [isWs, Bool.or_eq_true, beq_iff_eq] at hc
  rcases hc with ((rfl | rfl) | rfl) | rfl <;> decide

/-- `json.loads` reads the text of a loadable value back, with any whitespace after it. -/
theorem loads_text_ws (rt : Runtime) (v : Value) (h : v.loadable = true)
    (hd : v.height < rt.recursionLimit) {ws : List Char} (hws : ws.all isWs = true) :
    loads rt (v.text ++ ws) = .ok v := by
  obtain ⟨c, tail, hc, hhead, _, hb⟩ := text_head h
  have hbom : (v.text ++ ws).head? ≠ some '\ufeff' := by
    rw [hc]
    intro heq
    exact hb (Option.some.inj heq)
  have hscan := scanValue_text rt v (2 * (v.text ++ ws).length + 1) 0 ws h (stops_ws hws)
    (by simp only [List.length_append]; omega) (by omega)
  have hrest : (skipWs ws).isEmpty = true := by
    rw [skipWs, List.dropWhile_eq_nil_iff.mpr (List.all_eq_true.mp hws)]
    rfl
  rw [loads, if_neg hbom]
  rw [hc, List.cons_append] at hscan ⊢
  rw [skipWs_cons _ hhead, hscan]
  change (if (skipWs ws).isEmpty = true then Except.ok v else Except.error LoadsError.decodeError) =
    _
  rw [if_pos hrest]

/-- `json.loads` reads the text of a loadable value back, also with the newline
    a file ends with. -/
theorem loads_text (rt : Runtime) (v : Value) (h : v.loadable = true)
    (hd : v.height < rt.recursionLimit) : loads rt (v.text ++ ['\n']) = .ok v :=
  loads_text_ws rt v h hd (by decide)

end Python
