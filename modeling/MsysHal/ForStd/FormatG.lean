import MsysHal.ForStd.Json
import MsysHal.ForStd.Round
import MsysHal.ForStd.Text

/-!
# Numbers with significant digits

`format(x, ".<p>g")` and `float(text)` of Python for exact numbers: rounding to a
number of significant digits, the text of the rounded number, and what a text says.

## Key results

- `roundDigits_roundDigits`, `abs_roundDigits_sub_le`, `roundDigits_mem`: the rounding
- `parseFloat_formatG`: the text of a number reads as the rounded number
-/

namespace Python

/-! ## Rounding -/

section Rounding

/-- The place value of the last of `p` significant digits. -/
def ulp (p : ℕ) (x : ℚ) : ℚ := 10 ^ (Int.log 10 |x| - (p - 1))

/-- The significant digits as an integer. -/
def significand (p : ℕ) (x : ℚ) : ℤ := roundHalfEven (x / ulp p x)

/-- The number rounded to `p` significant digits. -/
def roundDigits (p : ℕ) (x : ℚ) : ℚ := significand p x * ulp p x

variable (p : ℕ) (x : ℚ)

theorem ulp_pos : 0 < ulp p x := zpow_pos (by norm_num) _

/-- A half of the last place. -/
theorem abs_roundDigits_sub_le : |roundDigits p x - x| ≤ ulp p x / 2 := by
  have hpos := ulp_pos p x
  have h := mul_le_mul_of_nonneg_right (abs_roundHalfEven_sub_le (x / ulp p x)) hpos.le
  rw [← abs_of_pos hpos, ← abs_mul, abs_of_pos hpos, sub_mul, div_mul_cancel₀ _ hpos.ne'] at h
  rw [roundDigits, significand]
  linarith

variable {p x}

/-- The rounded number is between the same multiples of the last place. -/
theorem roundDigits_mem {lo hi : ℤ} (hlo : lo * ulp p x ≤ x) (hhi : x ≤ hi * ulp p x) :
    lo * ulp p x ≤ roundDigits p x ∧ roundDigits p x ≤ hi * ulp p x := by
  have hpos := ulp_pos p x
  have h := roundHalfEven_mem ((le_div_iff₀ hpos).mpr hlo) ((div_le_iff₀ hpos).mpr hhi)
  refine ⟨mul_le_mul_of_nonneg_right ?_ hpos.le, mul_le_mul_of_nonneg_right ?_ hpos.le⟩
  · exact_mod_cast h.1
  · exact_mod_cast h.2

/-- A place that is not below the last one holds a multiple of it. -/
theorem zpow_eq_mul_ulp {k : ℤ} (hk : Int.log 10 |x| - (p - 1) ≤ k) :
    ∃ n : ℕ, (10 : ℚ) ^ k = n * ulp p x := by
  refine ⟨10 ^ (k - (Int.log 10 |x| - (p - 1))).toNat, ?_⟩
  rw [ulp, Nat.cast_pow, Nat.cast_ofNat, ← zpow_natCast, ← zpow_add₀ (by norm_num),
    Int.toNat_of_nonneg (by omega), sub_add_cancel]

/-- The rounded number is between the same multiples of any place that is not
    below the last one. -/
theorem roundDigits_between {lo hi k : ℤ} (hk : Int.log 10 |x| - (p - 1) ≤ k)
    (hlo : lo * (10 : ℚ) ^ k ≤ x) (hhi : x ≤ hi * (10 : ℚ) ^ k) :
    lo * (10 : ℚ) ^ k ≤ roundDigits p x ∧ roundDigits p x ≤ hi * (10 : ℚ) ^ k := by
  obtain ⟨n, hn⟩ := zpow_eq_mul_ulp hk
  have hmul : ∀ c : ℤ, c * (10 : ℚ) ^ k = (c * n : ℤ) * ulp p x := fun c => by
    rw [hn, Int.cast_mul, Int.cast_natCast, mul_assoc]
  rw [hmul] at hlo hhi
  rw [hmul, hmul]
  exact roundDigits_mem hlo hhi

/-- A multiple of its last place is rounded to itself. -/
theorem roundDigits_of_multiple {n : ℤ} (h : x = n * ulp p x) :
    significand p x = n ∧ roundDigits p x = x := by
  have hn : significand p x = n := by
    rw [significand, (div_eq_iff (ulp_pos p x).ne').mpr h, roundHalfEven_intCast]
  exact ⟨hn, by rw [roundDigits, hn, ← h]⟩

theorem roundDigits_zero : roundDigits p 0 = 0 :=
  (roundDigits_of_multiple (n := 0) (by rw [Int.cast_zero, zero_mul])).2

/-- The significant digits of a number other than zero. -/
theorem abs_mem_of_ne_zero (hx : x ≠ 0) :
    (10 : ℚ) ^ Int.log 10 |x| ≤ |x| ∧ |x| < (10 : ℚ) ^ (Int.log 10 |x| + 1) := by
  have hle := Int.zpow_log_le_self (b := 10) (by norm_num) (abs_pos.mpr hx)
  have hlt := Int.lt_zpow_succ_log_self (b := 10) (by norm_num) |x|
  push_cast at hle hlt
  exact ⟨hle, hlt⟩

private theorem log_eq_of_mem {x : ℚ} {e : ℤ} (hle : (10 : ℚ) ^ e ≤ |x|)
    (hlt : |x| < (10 : ℚ) ^ (e + 1)) : Int.log 10 |x| = e := by
  have hpos : 0 < |x| := lt_of_lt_of_le (zpow_pos (by norm_num) e) hle
  have h₁ :=
    (Int.zpow_le_iff_le_log (b := 10) (by norm_num) (x := e) hpos).mp (by exact_mod_cast hle)
  have h₂ := (Int.lt_zpow_iff_log_lt (b := 10) (by norm_num) (x := e + 1) hpos).mp
    (by exact_mod_cast hlt)
  omega

/-- `10 ^ p` is the only significand that does not have `p` digits. -/
theorem abs_significand_mem (hp : 0 < p) (hx : x ≠ 0) :
    (10 : ℤ) ^ (p - 1) ≤ |significand p x| ∧ |significand p x| ≤ 10 ^ p := by
  obtain ⟨hle, hlt⟩ := abs_mem_of_ne_zero hx
  have hpos := ulp_pos p x
  have hlo : ((10 ^ (p - 1) : ℤ) : ℚ) ≤ |x| / ulp p x := by
    rw [le_div_iff₀ hpos, ulp]
    push_cast
    rwa [← zpow_natCast, ← zpow_add₀ (by norm_num), Nat.cast_sub hp, Nat.cast_one, add_sub_cancel]
  have hhi : |x| / ulp p x ≤ ((10 ^ p : ℤ) : ℚ) := by
    rw [div_le_iff₀ hpos, ulp]
    push_cast
    rw [← zpow_natCast, ← zpow_add₀ (by norm_num)]
    exact hlt.le.trans_eq (by congr 1; omega)
  rw [significand]
  rcases lt_or_gt_of_ne hx with hneg | hpos'
  · rw [abs_of_neg hneg, neg_div] at hlo hhi
    have hlo' : (-10 ^ p : ℤ) ≤ x / ulp p x := by push_cast at hhi ⊢; linarith
    have hhi' : x / ulp p x ≤ (-10 ^ (p - 1) : ℤ) := by push_cast at hlo ⊢; linarith
    have h := roundHalfEven_mem hlo' hhi'
    rw [abs_of_nonpos (h.2.trans (neg_nonpos.mpr (by positivity)))]
    omega
  · rw [abs_of_pos hpos'] at hlo hhi
    have h := roundHalfEven_mem hlo hhi
    rw [abs_of_nonneg (le_trans (by positivity) h.1)]
    exact h

/-- A rounded number is a multiple of its own last place. -/
theorem roundDigits_multiple (hp : 0 < p) (x : ℚ) :
    ∃ n : ℤ, roundDigits p x = n * ulp p (roundDigits p x) := by
  rcases eq_or_ne x 0 with rfl | hx
  · exact ⟨0, by rw [roundDigits_zero, Int.cast_zero, zero_mul]⟩
  obtain ⟨hlo, hhi⟩ := abs_significand_mem hp hx
  have hlo : (10 : ℚ) ^ (p - 1) ≤ |(significand p x : ℚ)| := by exact_mod_cast hlo
  have habs : |roundDigits p x| = |(significand p x : ℚ)| * ulp p x := by
    rw [roundDigits, abs_mul, abs_of_pos (ulp_pos p x)]
  have hbelow : (10 : ℚ) ^ Int.log 10 |x| ≤ |roundDigits p x| := by
    have h := mul_le_mul_of_nonneg_right hlo (ulp_pos p x).le
    rwa [← habs, ulp, ← zpow_natCast, ← zpow_add₀ (by norm_num), Nat.cast_sub hp, Nat.cast_one,
      add_sub_cancel] at h
  have hplace : (10 : ℚ) ^ p * ulp p x = 10 ^ (Int.log 10 |x| + 1) := by
    rw [ulp, ← zpow_natCast, ← zpow_add₀ (by norm_num)]
    congr 1
    omega
  rcases hhi.lt_or_eq with hlt | heq
  · -- the exponent stays
    have hlt : |(significand p x : ℚ)| < 10 ^ p := by exact_mod_cast hlt
    have hlog : Int.log 10 |roundDigits p x| = Int.log 10 |x| :=
      log_eq_of_mem hbelow (by
        rw [habs, ← hplace]
        exact mul_lt_mul_of_pos_right hlt (ulp_pos p x))
    exact ⟨significand p x, by rw [ulp, hlog, ← ulp, roundDigits]⟩
  · -- all digits were nines: the exponent grows by one
    have heq' : |(significand p x : ℚ)| = 10 ^ p := by exact_mod_cast heq
    have hlog : Int.log 10 |roundDigits p x| = Int.log 10 |x| + 1 := by
      refine log_eq_of_mem ?_ ?_
      · rw [habs, heq', hplace]
      · rw [habs, heq', hplace]
        exact zpow_lt_zpow_right₀ (by norm_num) (by omega)
    have hulp : ulp p (roundDigits p x) = 10 * ulp p x := by
      rw [ulp, hlog, ulp, ← zpow_one_add₀ (by norm_num)]
      congr 1
      omega
    have hten : (10 : ℤ) ^ p = 10 ^ (p - 1) * 10 := by
      rw [← pow_succ, Nat.sub_add_cancel hp]
    obtain ⟨n, hn⟩ : ∃ n : ℤ, significand p x = n * 10 := by
      rcases eq_or_eq_neg_of_abs_eq heq with h | h
      · exact ⟨10 ^ (p - 1), by rw [h, hten]⟩
      · exact ⟨-10 ^ (p - 1), by rw [h, hten, neg_mul]⟩
    refine ⟨n, ?_⟩
    rw [hulp, roundDigits, hn]
    push_cast
    ring

/-- A rounded number is rounded to itself. -/
theorem roundDigits_roundDigits (hp : 0 < p) (x : ℚ) :
    roundDigits p (roundDigits p x) = roundDigits p x :=
  have ⟨_, hn⟩ := roundDigits_multiple hp x
  (roundDigits_of_multiple hn).2

end Rounding

/-! ## Texts of numbers -/

/-- A decimal number: the digits before and after the point, and the exponent when
    one is written. -/
structure Numeral where
  negative : Bool
  whole : List Char
  fraction : List Char
  exponent : Option ℤ

namespace Numeral

/-- What a numeral without its sign says. -/
def magnitude (n : Numeral) : ℚ :=
  Nat.ofDigitChars 10 (n.whole ++ n.fraction) 0 * 10 ^ (n.exponent.getD 0 - n.fraction.length)

/-- What a numeral says. -/
def value (n : Numeral) : ℚ := if n.negative then -n.magnitude else n.magnitude

/-- The digits and the point. -/
def mantissaText (n : Numeral) : List Char :=
  n.whole ++ if n.fraction.isEmpty then [] else '.' :: n.fraction

/-- An exponent with its sign and at least two digits. -/
def exponentText : Option ℤ → List Char
  | none => []
  | some e => 'e' :: (if e < 0 then '-' else '+') ::
      ((if e.natAbs < 10 then ['0'] else []) ++ Nat.toDigits 10 e.natAbs)

/-- The text of a numeral without its sign. -/
def unsignedText (n : Numeral) : List Char := n.mantissaText ++ exponentText n.exponent

/-- The text of a numeral. -/
def text (n : Numeral) : List Char :=
  if n.negative then '-' :: n.unsignedText else n.unsignedText

end Numeral

/-- The numeral of a number that has at most `p` significant digits: in fixed
    notation for the exponents from `-4` to `p - 1`, without zeros at its end. -/
def numeral (p : ℕ) (x : ℚ) : Numeral :=
  let e := Int.log 10 |x|
  let digits := Nat.toDigits 10 ⌊|x| / ulp p x⌋₊
  if -4 ≤ e ∧ e < p then
    let digits := List.replicate (-e).toNat '0' ++ digits
    ⟨x < 0, digits.take (e.toNat + 1), (digits.drop (e.toNat + 1)).rdropWhile (· == '0'), none⟩
  else ⟨x < 0, digits.take 1, (digits.drop 1).rdropWhile (· == '0'), some e⟩

/-- `format(x, ".<p>g")`. -/
def formatG (p : ℕ) (x : ℚ) : List Char := (numeral p (roundDigits p x)).text

/-- The digits of a text of digits with single underscores between them. -/
def digitPart (text : List Char) : Option (List Char) :=
  if (text.splitOn '_').all fun part => !part.isEmpty && part.all Char.isDigit then
    some (text.filter Char.isDigit)
  else none

/-- A sign and what follows it. -/
def takeSign : List Char → Bool × List Char
  | '-' :: rest => (true, rest)
  | '+' :: rest => (false, rest)
  | text => (false, text)

/-- The digits before and after the point of a number; one side may be empty. -/
def mantissaParts (text : List Char) : Option (List Char × List Char) :=
  let whole := text.takeWhile (· != '.')
  match text.dropWhile (· != '.') with
  | [] => (digitPart whole).map fun digits => (digits, [])
  | ['.'] => (digitPart whole).map fun digits => (digits, [])
  | _ :: fraction =>
    if whole.isEmpty then (digitPart fraction).map fun digits => ([], digits)
    else do return (← digitPart whole, ← digitPart fraction)

/-- The exponent after the letter. -/
def exponentPart : List Char → Option (Option ℤ)
  | [] => some none
  | _ :: text =>
    let (negative, digits) := takeSign text
    (digitPart digits).map fun digits =>
      let e : ℤ := Nat.ofDigitChars 10 digits 0
      some (if negative then -e else e)

/-- `float(text)` of an ASCII text; `none` for a `ValueError`. -/
def parseFloat (text : List Char) : Option PyFloat :=
  let (negative, text) := takeSign (Text.strip text)
  if text.map Char.toLower ∈ ["inf".toList, "infinity".toList, "nan".toList] then some .nonFinite
  else do
    let isMark := fun c : Char => c != 'e' && c != 'E'
    let (whole, fraction) ← mantissaParts (text.takeWhile isMark)
    let exponent ← exponentPart (text.dropWhile isMark)
    return .finite (Numeral.value ⟨negative, whole, fraction, exponent⟩) ""

/-! ### Reading a text -/

section Reading

private theorem digitPart_digits {text : List Char} (hne : text ≠ [])
    (h : ∀ c ∈ text, c.isDigit = true) : digitPart text = some text := by
  have hsplit : text.splitOn '_' = [text] := by
    refine List.splitOnP_eq_singleton fun c hc => ?_
    rw [beq_eq_false_iff_ne]
    rintro rfl
    exact absurd (h _ hc) (by decide)
  have hall : ([text].all fun part => !part.isEmpty && part.all Char.isDigit) = true := by
    simp only [List.all_cons, List.all_nil, Bool.and_true, Bool.and_eq_true, Bool.not_eq_true',
      List.isEmpty_eq_false_iff, List.all_eq_true]
    exact ⟨hne, h⟩
  rw [digitPart, hsplit, if_pos hall, List.filter_eq_self.mpr h]

/-- A numeral that has digits before the point. -/
structure Numeral.WellFormed (n : Numeral) : Prop where
  ne_nil : n.whole ≠ []
  isDigit_whole : ∀ c ∈ n.whole, c.isDigit = true
  isDigit_fraction : ∀ c ∈ n.fraction, c.isDigit = true

private theorem mantissaParts_text {n : Numeral} (h : n.WellFormed) :
    mantissaParts n.mantissaText = some (n.whole, n.fraction) := by
  have hpoint : ∀ c ∈ n.whole, (c != '.') = true := by
    intro c hc
    rw [bne_iff_ne]
    rintro rfl
    exact absurd (h.isDigit_whole _ hc) (by decide)
  rw [mantissaParts, Numeral.mantissaText, List.takeWhile_append_of_pos hpoint,
    List.dropWhile_append_of_pos hpoint]
  rcases hfraction : n.fraction with _ | ⟨c, fraction⟩
  · simp only [List.isEmpty_nil, if_true, List.takeWhile_nil, List.dropWhile_nil, List.append_nil,
      digitPart_digits h.ne_nil h.isDigit_whole, Option.map_some]
  · have hdigits : digitPart (c :: fraction) = some (c :: fraction) :=
      digitPart_digits (List.cons_ne_nil _ _) (hfraction ▸ h.isDigit_fraction)
    have htake : List.takeWhile (· != '.') ('.' :: c :: fraction) = [] := rfl
    have hdrop : List.dropWhile (· != '.') ('.' :: c :: fraction) = '.' :: c :: fraction := rfl
    simp only [List.isEmpty_cons, Bool.false_eq_true, if_false, htake, hdrop, List.append_nil,
      List.isEmpty_eq_false_iff.mpr h.ne_nil, digitPart_digits h.ne_nil h.isDigit_whole, hdigits]
    rfl

private theorem exponentPart_text (e : Option ℤ) :
    exponentPart (Numeral.exponentText e) = some e := by
  cases e with
  | none => rfl
  | some e =>
    have hzero : ∀ c ∈ (if e.natAbs < 10 then ['0'] else []), c = '0' := by
      intro c hc
      split_ifs at hc
      · exact List.mem_singleton.mp hc
      · exact nomatch hc
    have hdigits : digitPart ((if e.natAbs < 10 then ['0'] else []) ++ Nat.toDigits 10 e.natAbs) =
        some ((if e.natAbs < 10 then ['0'] else []) ++ Nat.toDigits 10 e.natAbs) := by
      refine digitPart_digits (List.append_ne_nil_of_right_ne_nil _ Nat.toDigits_ne_nil) ?_
      intro c hc
      rcases List.mem_append.mp hc with hc | hc
      · rw [hzero c hc]
        decide
      · exact Nat.isDigit_of_mem_toDigits (by decide) (by decide) hc
    have hvalue : Nat.ofDigitChars 10
        ((if e.natAbs < 10 then ['0'] else []) ++ Nat.toDigits 10 e.natAbs) 0 = e.natAbs := by
      rw [Nat.ofDigitChars_append]
      have hpad : Nat.ofDigitChars 10 (if e.natAbs < 10 then ['0'] else []) 0 = 0 := by
        split_ifs <;> decide
      rw [hpad, Nat.ofDigitChars_ten_toDigits]
    rw [Numeral.exponentText, exponentPart]
    rcases lt_or_ge e 0 with hneg | hpos
    · simp only [hneg, if_true, takeSign, hdigits, Option.map_some, hvalue]
      rw [Int.ofNat_natAbs_of_nonpos hneg.le, neg_neg]
    · simp only [not_lt.mpr hpos, if_false, takeSign, hdigits, Option.map_some, hvalue]
      rw [Int.natAbs_of_nonneg hpos]
      rfl

/-- A text has digits, signs, points and the letter `e` only. -/
theorem Numeral.mem_text {n : Numeral} (h : n.WellFormed) {c : Char} (hc : c ∈ n.text) :
    c.isDigit = true ∨ c ∈ ['+', '-', '.', 'e'] := by
  have hunsigned : ∀ c ∈ n.unsignedText, c.isDigit = true ∨ c ∈ ['+', '-', '.', 'e'] := by
    intro c hc
    simp only [unsignedText, mantissaText, List.mem_append] at hc
    rcases hc with (hc | hc) | hc
    · exact .inl (h.isDigit_whole c hc)
    · split_ifs at hc
      · exact nomatch hc
      · rcases List.mem_cons.mp hc with rfl | hc
        · exact .inr (by decide)
        · exact .inl (h.isDigit_fraction c hc)
    · rcases hexponent : n.exponent with _ | e
      · rw [hexponent] at hc
        exact nomatch hc
      · rw [hexponent, exponentText] at hc
        simp only [List.mem_cons, List.mem_append] at hc
        rcases hc with rfl | rfl | hc | hc
        · exact .inr (by decide)
        · split_ifs
          · exact .inr (by decide)
          · exact .inr (by decide)
        · split_ifs at hc
          · exact .inl (List.mem_singleton.mp hc ▸ (by decide))
          · exact nomatch hc
        · exact .inl (Nat.isDigit_of_mem_toDigits (by decide) (by decide) hc)
  rw [text] at hc
  split_ifs at hc
  · rcases List.mem_cons.mp hc with rfl | hc
    · exact .inr (by decide)
    · exact hunsigned c hc
  · exact hunsigned c hc

private theorem isSpace_of_isDigit {c : Char} (h : c.isDigit = true) : Text.isSpace c = false := by
  simp only [Char.isDigit, Bool.and_eq_true, decide_eq_true_eq] at h
  have h₁ : 48 ≤ c.toNat := h.1
  have h₂ : c.toNat ≤ 57 := h.2
  have hne : ∀ d : Char, d.toNat < 48 ∨ 57 < d.toNat → (c == d) = false := by
    intro d hd
    rw [beq_eq_false_iff_ne]
    rintro rfl
    omega
  have hlow : ¬ ('\u2000' ≤ c) := fun hle => by
    have hle : ('\u2000').toNat ≤ c.toNat := hle
    exact absurd hle (by change ¬ (8192 ≤ c.toNat); omega)
  simp [Text.isSpace, Text.isBoundary, hne, hlow]

private theorem strip_text {n : Numeral} (h : n.WellFormed) : Text.strip n.text = n.text := by
  have hspace : ∀ c ∈ n.text, Text.isSpace c = false := by
    intro c hc
    rcases n.mem_text h hc with hc | hc
    · exact isSpace_of_isDigit hc
    · simp only [List.mem_cons, List.not_mem_nil, or_false] at hc
      rcases hc with rfl | rfl | rfl | rfl <;> decide
  have hdrop : n.text.dropWhile Text.isSpace = n.text := by
    rcases htext : n.text with _ | ⟨c, rest⟩
    · rfl
    · rw [List.dropWhile_cons, hspace c (htext ▸ List.mem_cons_self ..)]
      rfl
  rw [Text.strip, hdrop, List.rdropWhile_eq_self_iff]
  intro hne
  rw [hspace _ (List.getLast_mem hne)]
  decide

/-- The text without its sign begins with a digit. -/
private theorem unsignedText_cons {n : Numeral} (h : n.WellFormed) :
    ∃ c rest, n.unsignedText = c :: rest ∧ c.isDigit = true := by
  obtain ⟨c, rest, hc⟩ := List.exists_cons_of_ne_nil h.ne_nil
  have htext : ∃ rest', n.unsignedText = c :: rest' := by
    rw [Numeral.unsignedText, Numeral.mantissaText, hc, List.cons_append, List.cons_append]
    exact ⟨_, rfl⟩
  obtain ⟨rest', htext⟩ := htext
  exact ⟨c, rest', htext, h.isDigit_whole c (hc ▸ List.mem_cons_self ..)⟩

private theorem takeSign_text {n : Numeral} (h : n.WellFormed) :
    takeSign n.text = (n.negative, n.unsignedText) := by
  rw [Numeral.text]
  cases n.negative with
  | true => rfl
  | false =>
    obtain ⟨c, rest, htext, hc⟩ := unsignedText_cons h
    rw [if_neg (by decide), htext, takeSign]
    · rintro rest' heq
      obtain ⟨rfl, -⟩ := List.cons.inj heq
      exact absurd hc (by decide)
    · rintro rest' heq
      obtain ⟨rfl, -⟩ := List.cons.inj heq
      exact absurd hc (by decide)

/-- The text of a numeral reads as its value. -/
theorem parseFloat_text {n : Numeral} (h : n.WellFormed) :
    parseFloat n.text = some (.finite n.value "") := by
  -- The text starts with a digit, so it is none of the names.
  have hname : n.unsignedText.map Char.toLower ∉
      ["inf".toList, "infinity".toList, "nan".toList] := by
    obtain ⟨c, rest, htext, hc⟩ := unsignedText_cons h
    have hlower : c.toLower = c := by
      rw [Char.isDigit, Bool.and_eq_true, decide_eq_true_eq, decide_eq_true_eq] at hc
      rw [Char.toLower, dif_neg]
      exact fun hle => absurd (UInt32.le_trans hle.1 hc.2) (by decide)
    rw [htext, List.map_cons, hlower]
    intro hmem
    have hhead : c ∈ ['i', 'n'] := by
      simp only [List.mem_cons, List.not_mem_nil, or_false] at hmem ⊢
      rcases hmem with hmem | hmem | hmem
      · exact .inl (List.cons.inj hmem).1
      · exact .inl (List.cons.inj hmem).1
      · exact .inr (List.cons.inj hmem).1
    simp only [List.mem_cons, List.not_mem_nil, or_false] at hhead
    rcases hhead with rfl | rfl <;> exact absurd hc (by decide)
  -- The mantissa has no exponent mark, so it ends where the exponent begins.
  have hmark : ∀ c ∈ n.mantissaText, (c != 'e' && c != 'E') = true := by
    intro c hc
    rw [Numeral.mantissaText, List.mem_append] at hc
    have hdigit : ∀ c : Char, c.isDigit = true → (c != 'e' && c != 'E') = true := by
      intro c hc
      rw [Bool.and_eq_true, bne_iff_ne, bne_iff_ne]
      constructor <;> rintro rfl <;> exact absurd hc (by decide)
    rcases hc with hc | hc
    · exact hdigit c (h.isDigit_whole c hc)
    · split_ifs at hc
      · exact nomatch hc
      · rcases List.mem_cons.mp hc with rfl | hc
        · decide
        · exact hdigit c (h.isDigit_fraction c hc)
  have hexponent :
      (Numeral.exponentText n.exponent).takeWhile (fun c => c != 'e' && c != 'E') = [] ∧
      (Numeral.exponentText n.exponent).dropWhile (fun c => c != 'e' && c != 'E') =
        Numeral.exponentText n.exponent := by
    cases n.exponent with
    | none => exact ⟨rfl, rfl⟩
    | some e => exact ⟨rfl, rfl⟩
  simp only [parseFloat, strip_text h, takeSign_text h, hname, if_false]
  rw [Numeral.unsignedText, List.takeWhile_append_of_pos hmark, List.dropWhile_append_of_pos hmark,
    hexponent.1, hexponent.2, List.append_nil, mantissaParts_text h, exponentPart_text]
  rfl

end Reading

/-! ### The text of a rounded number -/

section Writing

private theorem isDigit_trim {digits : List Char} {n : ℕ} (h : ∀ c ∈ digits, c.isDigit = true) :
    ∀ c ∈ (digits.drop n).rdropWhile (· == '0'), c.isDigit = true := fun c hc =>
  h c (List.mem_of_mem_drop ((List.rdropWhile_prefix _ _).mem hc))

private theorem wellFormed_cut {digits : List Char} (hne : digits ≠ [])
    (h : ∀ c ∈ digits, c.isDigit = true) (negative : Bool) (n : ℕ) (e : Option ℤ) :
    Numeral.WellFormed
      ⟨negative, digits.take (n + 1), (digits.drop (n + 1)).rdropWhile (· == '0'), e⟩ where
  ne_nil := by
    obtain ⟨c, rest, rfl⟩ := List.exists_cons_of_ne_nil hne
    rw [List.take_succ_cons]
    exact List.cons_ne_nil _ _
  isDigit_whole := fun c hc => h c (List.mem_of_mem_take hc)
  isDigit_fraction := isDigit_trim h

private theorem isDigit_padded (k m : ℕ) :
    ∀ c ∈ List.replicate k '0' ++ Nat.toDigits 10 m, c.isDigit = true := by
  intro c hc
  rcases List.mem_append.mp hc with hc | hc
  · rw [(List.mem_replicate.mp hc).2]
    decide
  · exact Nat.isDigit_of_mem_toDigits (by decide) (by decide) hc

theorem wellFormed_numeral (p : ℕ) (x : ℚ) : (numeral p x).WellFormed := by
  rw [numeral]
  split_ifs
  · exact wellFormed_cut (List.append_ne_nil_of_right_ne_nil _ Nat.toDigits_ne_nil)
      (isDigit_padded _ _) _ _ _
  · exact wellFormed_cut Nat.toDigits_ne_nil
      (fun c hc => Nat.isDigit_of_mem_toDigits (by decide) (by decide) hc) _ _ _

/-- Zeros at the end do not matter after the point. -/
private theorem magnitude_cut {digits : List Char} {n : ℕ} (hn : n ≤ digits.length)
    (negative : Bool) (e : Option ℤ) :
    (Numeral.mk negative (digits.take n) ((digits.drop n).rdropWhile (· == '0')) e).magnitude =
      Nat.ofDigitChars 10 digits 0 * 10 ^ (e.getD 0 + n - digits.length) := by
  have hzeros : (digits.drop n).rtakeWhile (· == '0') =
      List.replicate ((digits.drop n).rtakeWhile (· == '0')).length '0' := by
    refine List.eq_replicate_of_mem fun c hc => ?_
    exact beq_iff_eq.mp (List.mem_rtakeWhile_imp (p := (· == '0')) hc)
  have hdrop := List.rdropWhile_append_rtakeWhile (p := (· == '0')) (l := digits.drop n)
  have hlen := congrArg List.length hdrop
  rw [List.length_append, List.length_drop] at hlen
  generalize hk : ((digits.drop n).rtakeWhile (· == '0')).length = k at hzeros hlen
  have hvalue : Nat.ofDigitChars 10 digits 0 = 10 ^ k *
      Nat.ofDigitChars 10 (digits.take n ++ (digits.drop n).rdropWhile (· == '0')) 0 := by
    conv_lhs => rw [← List.take_append_drop n digits, ← hdrop, ← List.append_assoc,
      Nat.ofDigitChars_append, hzeros, Nat.ofDigitChars_replicate_zero]
  rw [Numeral.magnitude, hvalue]
  push_cast
  rw [mul_comm ((10 : ℚ) ^ k), mul_assoc, ← zpow_natCast, ← zpow_add₀ (by norm_num)]
  congr 2
  omega

/-- The significant digits of a number that has `p` of them. -/
private theorem length_digits {p : ℕ} (hp : 0 < p) {x : ℚ} (hx : x ≠ 0) {m : ℕ}
    (h : |x| = m * ulp p x) : (Nat.toDigits 10 m).length = p := by
  obtain ⟨hle, hlt⟩ := abs_mem_of_ne_zero hx
  have hpos := ulp_pos p x
  have hlo : 10 ^ (p - 1) ≤ m := by
    have hle : ((10 ^ (p - 1) : ℕ) : ℚ) * ulp p x ≤ m * ulp p x := by
      rw [← h, ulp]
      push_cast
      rwa [← zpow_natCast, ← zpow_add₀ (by norm_num), Nat.cast_sub hp, Nat.cast_one, add_sub_cancel]
    exact_mod_cast le_of_mul_le_mul_right hle hpos
  have hhi : m < 10 ^ p := by
    have hlt : (m : ℚ) * ulp p x < ((10 ^ p : ℕ) : ℚ) * ulp p x := by
      rw [← h, ulp]
      push_cast
      rw [← zpow_natCast, ← zpow_add₀ (by norm_num)]
      exact hlt.trans_eq (by congr 1; omega)
    exact_mod_cast lt_of_mul_lt_mul_right hlt hpos.le
  refine le_antisymm ((Nat.length_toDigits_le_iff (by decide) hp).mpr hhi) ?_
  by_contra hshort
  rcases Nat.eq_zero_or_pos (p - 1) with hone | hmore
  · have := @Nat.length_toDigits_pos 10 m
    omega
  · have hshort : (Nat.toDigits 10 m).length ≤ p - 1 := by omega
    exact absurd ((Nat.length_toDigits_le_iff (by decide) hmore).mp hshort) (by omega)

/-- The digits of a multiple of its last place. -/
private theorem digits_of_multiple {p : ℕ} {x : ℚ} {n : ℤ} (h : x = n * ulp p x) :
    |x| = n.natAbs * ulp p x ∧ ⌊|x| / ulp p x⌋₊ = n.natAbs := by
  have habs : |x| = n.natAbs * ulp p x := by
    conv_lhs => rw [h, abs_mul, abs_of_pos (ulp_pos p x)]
    rw [Nat.cast_natAbs, Int.cast_abs]
  exact ⟨habs, by rw [(div_eq_iff (ulp_pos p x).ne').mpr habs, Nat.floor_natCast]⟩

theorem numeral_zero {p : ℕ} (hp : 0 < p) : numeral p 0 = ⟨false, ['0'], [], none⟩ := by
  have hfixed : (-4 : ℤ) ≤ 0 ∧ (0 : ℤ) < p := ⟨by decide, by omega⟩
  simp only [numeral, abs_zero, Int.log_zero_right, zero_div, Nat.floor_zero, hfixed,
    and_self, if_true]
  rfl

/-- A number with at most `p` significant digits is the value of its numeral. -/
theorem value_numeral {p : ℕ} (hp : 0 < p) {x : ℚ} {n : ℤ} (h : x = n * ulp p x) :
    (numeral p x).value = x := by
  obtain ⟨habs, hdigits⟩ := digits_of_multiple h
  -- The digits, at their place, give the magnitude.
  have hmagnitude : (numeral p x).magnitude = |x| := by
    rcases eq_or_ne x 0 with rfl | hx
    · rw [numeral_zero hp, Numeral.magnitude, abs_zero, List.append_nil,
        show Nat.ofDigitChars 10 ['0'] 0 = 0 from rfl, Nat.cast_zero, zero_mul]
    · have hlen := length_digits hp hx habs
      have hplace : |x| = Nat.ofDigitChars 10 (Nat.toDigits 10 n.natAbs) 0 *
          10 ^ (Int.log 10 |x| - (p - 1)) := by
        rw [Nat.ofDigitChars_ten_toDigits]
        exact habs
      rw [numeral, hdigits]
      split_ifs with he
      · rw [magnitude_cut, Nat.ofDigitChars_append, Nat.ofDigitChars_replicate_zero, Nat.mul_zero,
          List.length_append, List.length_replicate, hlen]
        · conv_rhs => rw [hplace]
          congr 2
          push_cast
          simp only [Option.getD_none]
          omega
        · rw [List.length_append, List.length_replicate, hlen]
          omega
      · rw [magnitude_cut (by omega), hlen]
        conv_rhs => rw [hplace]
        congr 2
        simp only [Option.getD_some]
        omega
  have hnegative : (numeral p x).negative = decide (x < 0) := by
    rw [numeral]
    split_ifs <;> rfl
  rw [Numeral.value, hmagnitude, hnegative]
  rcases lt_or_ge x 0 with hneg | hnonneg
  · rw [if_pos (decide_eq_true hneg), abs_of_neg hneg, neg_neg]
  · rw [if_neg (by rw [decide_eq_true_eq]; exact not_lt.mpr hnonneg), abs_of_nonneg hnonneg]

/-- The text of a number reads as the number rounded to `p` significant digits. -/
theorem parseFloat_formatG {p : ℕ} (hp : 0 < p) (x : ℚ) :
    parseFloat (formatG p x) = some (.finite (roundDigits p x) "") := by
  obtain ⟨n, hn⟩ := roundDigits_multiple hp x
  rw [formatG, parseFloat_text (wellFormed_numeral _ _), value_numeral hp hn]

/-- A number is written as it is rounded. -/
theorem formatG_roundDigits {p : ℕ} (hp : 0 < p) (x : ℚ) :
    formatG p (roundDigits p x) = formatG p x := by
  rw [formatG, formatG, roundDigits_roundDigits hp]

theorem formatG_ne_nil (p : ℕ) (x : ℚ) : formatG p x ≠ [] := by
  obtain ⟨c, rest, htext, -⟩ := unsignedText_cons (wellFormed_numeral p (roundDigits p x))
  rw [formatG, Numeral.text, htext]
  split_ifs <;> exact List.cons_ne_nil _ _

private theorem length_exponentText_le {e : ℤ} (he : e.natAbs < 1000) :
    (Numeral.exponentText (some e)).length ≤ 6 := by
  have hlen := (Nat.length_toDigits_le_iff (b := 10) (by decide) (k := 3) (by decide)).mpr he
  simp only [Numeral.exponentText, List.length_cons, List.length_append]
  split_ifs
  · rw [List.length_singleton]
    omega
  · rw [List.length_nil]
    omega

/-- A text is not longer than its digits, with a sign, a point and an exponent. -/
private theorem length_text_cut_le (digits : List Char) (n : ℕ) (negative : Bool) (e : Option ℤ) :
    (Numeral.mk negative (digits.take n) ((digits.drop n).rdropWhile (· == '0')) e).text.length ≤
      digits.length + 2 + (Numeral.exponentText e).length := by
  have htrim := (List.rdropWhile_prefix (· == '0') (digits.drop n)).length_le
  have hcut := congrArg List.length (List.take_append_drop n digits)
  rw [List.length_append] at hcut
  have hunsigned : (Numeral.mk negative (digits.take n) ((digits.drop n).rdropWhile (· == '0'))
      e).unsignedText.length ≤
      digits.length + 1 + (Numeral.exponentText e).length := by
    simp only [Numeral.unsignedText, Numeral.mantissaText, List.length_append]
    split_ifs
    · rw [List.length_nil]
      omega
    · rw [List.length_cons]
      omega
  rw [Numeral.text]
  split_ifs
  · rw [List.length_cons]
    omega
  · omega

/-- The length of the text of a number that is neither too large nor too small. -/
theorem length_formatG_le {p : ℕ} (hp : 0 < p) {x : ℚ}
    (hlog : (Int.log 10 |roundDigits p x|).natAbs < 1000) : (formatG p x).length ≤ p + 8 := by
  obtain ⟨n, hn⟩ := roundDigits_multiple hp x
  rw [formatG]
  generalize roundDigits p x = x at hlog hn
  rcases eq_or_ne x 0 with rfl | hx
  · rw [numeral_zero hp]
    exact Nat.le_add_left _ _
  · obtain ⟨habs, hdigits⟩ := digits_of_multiple hn
    have hlen := length_digits hp hx habs
    rw [numeral, hdigits]
    split_ifs with he
    · refine (length_text_cut_le _ _ _ _).trans ?_
      rw [List.length_append, List.length_replicate, hlen, Numeral.exponentText, List.length_nil]
      omega
    · refine (length_text_cut_le _ _ _ _).trans ?_
      have := length_exponentText_le hlog
      omega

example : [2 / 3, -1 / 80000, 40, 0].map (formatG 12) =
    ["0.666666666667".toList, "-1.25e-05".toList, "40".toList, "0".toList] := by decide +kernel

end Writing

end Python
