import MsysHal.ForStd.List
import MsysHal.Native.Wifi
import MsysHal.Spec.Network

/-!
# Listings of the configured networks

A reply to `LIST_NETWORKS` is a header and a line for each network. Of a listing with
well-formed rows each client reads some: the Python one the first sixteen, and not a last
row without flags, whose trailing tab `strip` takes away; the native one those whose id
and SSID are within its buffer.

## Key results

- `parseNetworks_listing`: the rows that `_parse_networks` makes of a listing
- `findMatches_listing`: the matches that `configured_network_id` counts in it
-/

namespace MsysHal

open Python.Text

/-! ## Rows -/

/-- A row of `LIST_NETWORKS`. -/
structure ListedRow (table : PrintTable) where
  networkId : Nat
  ssid : List Char
  bssid : List Char
  flags : List Char
  id_le : networkId ≤ 4095
  ssid_printable : table.printable ssid = true
  bssid_printable : table.printable bssid = true
  flags_printable : table.printable flags = true
  bssid_word : bssid ≠ [] ∧ ' ' ∉ bssid ∧ bssid.length ≤ 64
  flags_word : ' ' ∉ flags ∧ flags.length ≤ 192

/-- The header of the listing. -/
def listingHeader : List Char := "network id / ssid / bssid / flags".toList

namespace ListedRow

variable {table : PrintTable} (row : ListedRow table)

/-- The id in decimal notation. -/
def digits : List Char := Nat.toDigits 10 row.networkId

/-- The line of the row. -/
def line : List Char :=
  row.digits ++ '\t' :: (row.ssid ++ '\t' :: (row.bssid ++ '\t' :: row.flags))

end ListedRow

/-- The text of a listing. -/
def listingText {table : PrintTable} (rows : List (ListedRow table)) : List Char :=
  terminated (listingHeader :: rows.map (·.line))

/-- The ids of the rows with an SSID. -/
def idsOf {table : PrintTable} (s : List Char) (rows : List (ListedRow table)) : List Nat :=
  (rows.filter fun row => row.ssid = s).map (·.networkId)

/-- The bytes of a listing. -/
def listingReply {table : PrintTable} (rows : List (ListedRow table)) : ByteArray :=
  (String.ofList (listingText rows)).toByteArray

/-! ## Characters of a row -/

section Characters

variable {table : PrintTable}

/-- No tab and no line boundary. -/
private def CellText (text : List Char) : Prop := ∀ c ∈ text, c ≠ '\t' ∧ isBoundary c = false

private theorem clean_of_printable {text : List Char} (h : table.printable text = true) :
    CellText text := by
  intro c hc
  have hprintable := List.all_eq_true.mp h c hc
  refine ⟨?_, table.not_boundary hprintable⟩
  rintro rfl
  rw [table.separator '\t' (by decide) (by decide)] at hprintable
  exact nomatch hprintable

variable (row : ListedRow table)

theorem ListedRow.digits_all : ∀ c ∈ row.digits, isAsciiDigit c = true := by
  intro c hc
  have hdigit := Nat.isDigit_of_mem_toDigits (by decide) (by decide) hc
  rwa [Char.isDigit] at hdigit

theorem ListedRow.digits_ne : row.digits ≠ [] := Nat.toDigits_ne_nil

theorem ListedRow.length_digits_le : row.digits.length ≤ 4 :=
  (Nat.length_toDigits_le_iff (by decide) (by decide)).mpr (by have := row.id_le; omega)

theorem ListedRow.matchesDigits : Network.matchesDigits 4 row.digits = true := by
  rw [Network.matchesDigits, Bool.and_eq_true, Bool.and_eq_true, decide_eq_true_eq,
    List.all_eq_true]
  refine ⟨⟨?_, row.length_digits_le⟩, row.digits_all⟩
  simp [row.digits_ne]

theorem ListedRow.digitsValue : Network.digitsValue row.digits = row.networkId :=
  Nat.ofDigitChars_ten_toDigits

private theorem ListedRow.digits_clean : CellText row.digits := by
  intro c hc
  have hdigit := row.digits_all c hc
  constructor
  · rintro rfl
    exact absurd hdigit (by decide)
  · by_contra hboundary
    rw [Bool.not_eq_false] at hboundary
    simp only [isBoundary, Bool.or_eq_true, beq_iff_eq] at hboundary
    rcases hboundary with
      ((((((((rfl | rfl) | rfl) | rfl) | rfl) | rfl) | rfl) | rfl) | rfl) | rfl <;>
      exact absurd hdigit (by decide)

private theorem ListedRow.line_boundary : ∀ c ∈ row.line, isBoundary c = false := by
  have htab : isBoundary '\t' = false := by decide
  have hssid := clean_of_printable row.ssid_printable
  have hbssid := clean_of_printable row.bssid_printable
  have hflags := clean_of_printable row.flags_printable
  intro c hc
  simp only [line, List.mem_append, List.mem_cons] at hc
  rcases hc with hc | rfl | hc | rfl | hc | rfl | hc
  · exact (row.digits_clean c hc).2
  · exact htab
  · exact (hssid c hc).2
  · exact htab
  · exact (hbssid c hc).2
  · exact htab
  · exact (hflags c hc).2

end Characters

/-! ## The Python reading -/

namespace Network

section Reading

variable {table : PrintTable}

/-- The row as `_parse_networks` returns it. -/
def listedNetworkRow (row : ListedRow table) : NetworkRow :=
  ⟨row.networkId, row.ssid, row.bssid, row.flags⟩

/-- The rows of a listing that `_parse_networks` reads with room for some: the tab at the
    end of a last row without flags is taken for white space. -/
def readRows : Nat → List (ListedRow table) → List (ListedRow table)
  | 0, _ => []
  | _, [] => []
  | _ + 1, [row] => if row.flags.isEmpty then [] else [row]
  | n + 1, row :: rows => row :: readRows n rows

private theorem splitMax_line (row : ListedRow table) :
    splitMax '\t' 3 row.line = [row.digits, row.ssid, row.bssid, row.flags] := by
  have hno {text : List Char} (h : CellText text) : '\t' ∉ text := fun hmem => (h _ hmem).1 rfl
  rw [ListedRow.line, splitMax_append (hno row.digits_clean),
    splitMax_append (hno (clean_of_printable row.ssid_printable)),
    splitMax_append (hno (clean_of_printable row.bssid_printable)),
    splitMax_of_notMem (hno (clean_of_printable row.flags_printable))]

/-- What is left of the line of a row without flags. -/
private def cutLine (row : ListedRow table) : List Char :=
  row.digits ++ '\t' :: (row.ssid ++ '\t' :: row.bssid)

private theorem networkRow_cutLine (row : ListedRow table) :
    networkRow table (cutLine row) = none := by
  have hno {text : List Char} (h : CellText text) : '\t' ∉ text := fun hmem => (h _ hmem).1 rfl
  rw [networkRow, cutLine, splitMax_append (hno row.digits_clean),
    splitMax_append (hno (clean_of_printable row.ssid_printable)),
    splitMax_of_notMem (hno (clean_of_printable row.bssid_printable))]

theorem networkRow_line (row : ListedRow table) : networkRow table row.line =
    if String.utf8Len row.ssid > 128 then none else some (listedNetworkRow row) := by
  have hid := row.id_le
  have hbssid := row.bssid_word.2.2
  have hflags := row.flags_word.2
  rw [networkRow, splitMax_line]
  simp only [row.matchesDigits, row.digitsValue, row.ssid_printable, row.bssid_printable,
    row.flags_printable, Bool.not_true, Bool.false_or, decide_eq_true_eq, Bool.or_eq_true,
    Bool.false_eq_true, if_false, gt_iff_lt]
  rw [if_neg (by omega)]
  by_cases hlong : 128 < String.utf8Len row.ssid
  · rw [if_pos (.inl (.inl hlong)), if_pos hlong]
  · rw [if_neg (by omega), if_neg hlong]
    rfl

/-- The lines before the last one, with the text of the last one. -/
private def stripped (init : List (ListedRow table)) (last : List Char) : List Char :=
  terminated (listingHeader :: init.map (·.line)) ++ last

private theorem strip_stripped (init : List (ListedRow table)) {last word tail : List Char}
    (hword : word ≠ [] ∧ ∀ c ∈ word, isSpace c = false) (htail : ∀ c ∈ tail, isSpace c = true) :
    strip (stripped init (last ++ word) ++ tail) = stripped init (last ++ word) := by
  have hfirst : (stripped init (last ++ word) ++ tail).dropWhile isSpace =
      stripped init (last ++ word) ++ tail := by
    obtain ⟨rest, hheader⟩ : ∃ rest, listingHeader = 'n' :: rest := ⟨_, rfl⟩
    rw [stripped, terminated, List.flatMap_cons, hheader]
    simp only [List.cons_append]
    rw [List.dropWhile_cons_of_neg (by decide)]
  rw [strip, hfirst, List.rdropWhile_append_of_pos _ htail, List.rdropWhile_eq_self_iff]
  intro hne
  have hlast : (stripped init (last ++ word)).getLast hne = word.getLast hword.1 := by
    simp only [stripped, List.getLast_append_of_ne_nil _
      (List.append_ne_nil_of_right_ne_nil last hword.1), List.getLast_append_of_ne_nil _ hword.1]
  rw [hlast, hword.2 _ (List.getLast_mem _)]
  exact Bool.false_ne_true

private theorem not_space {text : List Char} (h : table.printable text = true)
    (hspace : ' ' ∉ text) : ∀ c ∈ text, isSpace c = false := by
  intro c hc
  by_contra hsp
  rw [Bool.not_eq_false] at hsp
  have hprintable := List.all_eq_true.mp h c hc
  rw [table.separator c hsp fun heq => hspace (heq ▸ hc)] at hprintable
  exact nomatch hprintable

private theorem tab_space : isSpace '\t' = true := by rfl

private theorem newline_space : isSpace '\n' = true := by rfl

/-- What `strip` leaves of the last line. -/
private def lastLine (row : ListedRow table) : List Char :=
  if row.flags.isEmpty then cutLine row else row.line

private theorem strip_listing (init : List (ListedRow table)) (row : ListedRow table) :
    strip (listingText (init ++ [row])) = stripped init (lastLine row) := by
  have htext : listingText (init ++ [row]) = stripped init (row.line ++ ['\n']) := by
    simp [listingText, stripped, terminated]
  rw [htext, lastLine]
  split
  · next hempty =>
    have hflags : row.flags = [] := List.isEmpty_iff.mp hempty
    have hline : stripped init (row.line ++ ['\n']) =
        stripped init ((row.digits ++ '\t' :: (row.ssid ++ ['\t'])) ++ row.bssid) ++
          ['\t', '\n'] := by
      simp [stripped, ListedRow.line, hflags]
    rw [hline,
      strip_stripped init ⟨row.bssid_word.1, not_space row.bssid_printable row.bssid_word.2.1⟩
      (List.forall_mem_cons.mpr ⟨tab_space, List.forall_mem_singleton.mpr newline_space⟩)]
    simp [cutLine]
  · next hne =>
    have hline : stripped init (row.line ++ ['\n']) = stripped init ((row.digits ++ '\t' ::
        (row.ssid ++ '\t' :: (row.bssid ++ ['\t']))) ++ row.flags) ++ ['\n'] := by
      simp [stripped, ListedRow.line]
    have hflags : row.flags ≠ [] := fun h => hne (by simp [h])
    rw [hline, strip_stripped init ⟨hflags, not_space row.flags_printable row.flags_word.1⟩
      (List.forall_mem_singleton.mpr newline_space)]
    simp [ListedRow.line]

private theorem header_boundary : ∀ c ∈ listingHeader, isBoundary c = false := by
  have hprintable : asciiTable.printable listingHeader = true := by decide
  exact fun c hc => asciiTable.not_boundary (List.all_eq_true.mp hprintable c hc)

private theorem splitlines_listing (init : List (ListedRow table)) (row : ListedRow table) :
    splitlines (strip (listingText (init ++ [row]))) =
      listingHeader :: (init.map (·.line) ++ [lastLine row]) := by
  have hlines : ∀ line ∈ listingHeader :: init.map (·.line), ∀ c ∈ line, isBoundary c = false := by
    rw [List.forall_mem_cons]
    refine ⟨header_boundary, fun line hline => ?_⟩
    obtain ⟨row', -, rfl⟩ := List.mem_map.mp hline
    exact row'.line_boundary
  have hsub : (lastLine row).Sublist row.line := by
    rw [lastLine]
    split
    · have hline : row.line = cutLine row ++ '\t' :: row.flags := by simp [ListedRow.line, cutLine]
      exact hline ▸ List.sublist_append_left _ _
    · exact List.Sublist.refl _
  have hne : lastLine row ≠ [] := by
    rw [lastLine]
    split <;> simp [ListedRow.line, cutLine]
  rw [strip_listing, stripped, splitlines_terminated hlines,
    splitlines_single (fun c hc => row.line_boundary c (hsub.mem hc)) hne]
  rfl

private theorem filterMap_listing (init : List (ListedRow table))
    (row : ListedRow table) (n : Nat) :
    ((init.map (·.line) ++ [lastLine row]).take n).filterMap (networkRow table) =
      (readRows n (init ++ [row])).filterMap fun row => networkRow table row.line := by
  induction init generalizing n with
  | nil =>
    cases n with
    | zero => rfl
    | succ n =>
      rw [List.map_nil, List.nil_append, List.nil_append, List.take_succ_cons,
        List.take_nil, readRows, lastLine]
      split
      · rw [List.filterMap_cons_none (networkRow_cutLine row)]
        rfl
      · rfl
  | cons first init ih =>
    cases n with
    | zero => rfl
    | succ n =>
      have hread : readRows (n + 1) (first :: (init ++ [row])) =
          first :: readRows n (init ++ [row]) := by
        cases init <;> rfl
      rw [List.map_cons, List.cons_append, List.cons_append, List.take_succ_cons, hread]
      simp only [List.filterMap_cons, ih]

/-- What `_parse_networks` returns for a listing. -/
theorem parseNetworks_listing (rows : List (ListedRow table)) :
    parseNetworks table (strip (listingText rows)) =
      .ok ((readRows maxConfiguredNetworks rows).filterMap fun row =>
        networkRow table row.line) := by
  have hheader : startsWith "network id /" listingHeader = true := by decide
  rcases List.eq_nil_or_concat rows with rfl | ⟨init, row, rfl⟩
  · have hlines :
        splitlines (strip (listingText ([] : List (ListedRow table)))) = [listingHeader] := by
      simp only [listingText, List.map_nil]
      decide
    rw [parseNetworks, listingLines, hlines]
    rfl
  · rw [List.concat_eq_append, parseNetworks, listingLines, splitlines_listing]
    dsimp only
    rw [hheader]
    exact congrArg Except.ok (filterMap_listing init row maxConfiguredNetworks)

end Reading

end Network

namespace Native

/-! ## Sequences of UTF-8 -/

/-- A byte within bounds. -/
private def Within (low high : Nat) (b : UInt8) : Prop := low ≤ b.toNat ∧ b.toNat ≤ high

private theorem sequence_one {a : UInt8} {rest : Bytes} (ha : Within 0 0x7f a) :
    utf8SequenceLength (a :: rest) = 1 := by
  rw [utf8SequenceLength]
  simp only [List.getD_cons_zero, UInt8.lt_iff_toNat_lt]
  exact if_pos (by have := ha.2; simp; omega)

private theorem sequence_two {a b : UInt8} {rest : Bytes} (ha : Within 0xc2 0xdf a)
    (hb : Within 0x80 0xbf b) : utf8SequenceLength (a :: b :: rest) = 2 := by
  obtain ⟨ha₁, ha₂⟩ := ha
  obtain ⟨hb₁, hb₂⟩ := hb
  simp [utf8SequenceLength, UInt8.lt_iff_toNat_lt, UInt8.le_iff_toNat_le, ← UInt8.toNat_inj]
  rw [if_neg (by omega), if_pos (by omega)]

private theorem sequence_three {a b c : UInt8} {rest : Bytes} (ha : Within 0xe0 0xef a)
    (hb : Within 0x80 0xbf b) (hc : Within 0x80 0xbf c) (hlow : a.toNat = 0xe0 → 0xa0 ≤ b.toNat)
    (hhigh : a.toNat = 0xed → b.toNat < 0xa0) : utf8SequenceLength (a :: b :: c :: rest) = 3 := by
  obtain ⟨ha₁, ha₂⟩ := ha
  obtain ⟨hb₁, hb₂⟩ := hb
  obtain ⟨hc₁, hc₂⟩ := hc
  simp [utf8SequenceLength, UInt8.lt_iff_toNat_lt, UInt8.le_iff_toNat_le, ← UInt8.toNat_inj]
  rw [if_neg (by omega), if_neg (by omega), if_pos (by omega)]

private theorem sequence_four {a b c d : UInt8} {rest : Bytes} (ha : Within 0xf0 0xf4 a)
    (hb : Within 0x80 0xbf b) (hc : Within 0x80 0xbf c) (hd : Within 0x80 0xbf d)
    (hlow : a.toNat = 0xf0 → 0x90 ≤ b.toNat) (hhigh : a.toNat = 0xf4 → b.toNat < 0x90) :
    utf8SequenceLength (a :: b :: c :: d :: rest) = 4 := by
  obtain ⟨ha₁, ha₂⟩ := ha
  obtain ⟨hb₁, hb₂⟩ := hb
  obtain ⟨hc₁, hc₂⟩ := hc
  obtain ⟨hd₁, hd₂⟩ := hd
  simp [utf8SequenceLength, UInt8.lt_iff_toNat_lt, UInt8.le_iff_toNat_le, ← UInt8.toNat_inj]
  rw [if_neg (by omega), if_neg (by omega), if_neg (by omega), if_pos (by omega)]

/-- The encoding of a character is one sequence. -/
theorem utf8SequenceLength_encode (c : Char) (rest : Bytes) :
    utf8SequenceLength (String.utf8EncodeChar c ++ rest) = (String.utf8EncodeChar c).length := by
  have hvalid : c.val.toNat < 0xd800 ∨ 0xdfff < c.val.toNat ∧ c.val.toNat < 0x110000 := c.valid
  have hbyte {n low high : Nat} (hlow : low ≤ n) (hhigh : n ≤ high) (h : high < 256) :
      Within low high (UInt8.ofNat n) := by
    rw [Within, UInt8.toNat_ofNat', Nat.mod_eq_of_lt (by omega)]
    exact ⟨hlow, hhigh⟩
  have hnat (n : Nat) (h : n < 256) : (UInt8.ofNat n).toNat = n := by
    rw [UInt8.toNat_ofNat', Nat.mod_eq_of_lt h]
  rw [String.utf8EncodeChar]
  generalize c.val.toNat = v at hvalid
  split
  · exact sequence_one (hbyte (by omega) (by omega) (by omega))
  split
  · exact sequence_two (hbyte (by omega) (by omega) (by omega))
      (hbyte (by omega) (by omega) (by omega))
  split
  · refine sequence_three (hbyte (by omega) (by omega) (by omega))
      (hbyte (by omega) (by omega) (by omega)) (hbyte (by omega) (by omega) (by omega)) ?_ ?_
    all_goals
      rw [hnat _ (by omega), hnat _ (by omega)]
      omega
  · refine sequence_four (hbyte (by omega) (by omega) (by omega))
      (hbyte (by omega) (by omega) (by omega)) (hbyte (by omega) (by omega) (by omega))
      (hbyte (by omega) (by omega) (by omega)) ?_ ?_
    all_goals
      rw [hnat _ (by omega), hnat _ (by omega)]
      omega

/-- The encoding of a text. -/
def utf8 (text : List Char) : Bytes := text.flatMap String.utf8EncodeChar

theorem utf8_append (text rest : List Char) : utf8 (text ++ rest) = utf8 text ++ utf8 rest :=
  List.flatMap_append

theorem length_utf8 (text : List Char) : (utf8 text).length = String.utf8Len text := by
  induction text with
  | nil => rfl
  | cons c text ih =>
    rw [utf8, List.flatMap_cons, List.length_append, String.length_utf8EncodeChar,
      String.utf8Len_cons, ← ih, Nat.add_comm]
    rfl

/-- A byte of a character is the character itself or not ASCII. -/
theorem mem_encode {c : Char} {b : UInt8} (h : b ∈ String.utf8EncodeChar c) :
    c.toNat < 128 ∧ b.toNat = c.toNat ∨ 128 ≤ b.toNat := by
  have hhigh {n : Nat} (hlow : 128 ≤ n) (hn : n < 256) : 128 ≤ (UInt8.ofNat n).toNat := by
    rwa [UInt8.toNat_ofNat', Nat.mod_eq_of_lt hn]
  have hv : c.toNat = c.val.toNat := rfl
  have hbound : c.val.toNat < 0x110000 := by
    have hvalid : c.val.toNat < 0xd800 ∨ 0xdfff < c.val.toNat ∧ c.val.toNat < 0x110000 := c.valid
    omega
  rw [String.utf8EncodeChar] at h
  rw [hv]
  generalize c.val.toNat = v at h hbound
  split at h
  · rw [List.mem_singleton.mp h, UInt8.toNat_ofNat']
    omega
  · right
    split at h
    · simp only [List.mem_cons, List.not_mem_nil, or_false] at h
      rcases h with rfl | rfl <;> exact hhigh (by omega) (by omega)
    · split at h
      · simp only [List.mem_cons, List.not_mem_nil, or_false] at h
        rcases h with rfl | rfl | rfl <;> exact hhigh (by omega) (by omega)
      · simp only [List.mem_cons, List.not_mem_nil, or_false] at h
        rcases h with rfl | rfl | rfl | rfl <;> exact hhigh (by omega) (by omega)

section Printable

variable {table : PrintTable} {text : List Char}

/-- The bytes of a printable text: none is a control character. -/
theorem utf8_printable (h : table.printable text = true) :
    ∀ b ∈ utf8 text, 0x20 ≤ b.toNat ∧ b.toNat ≠ 0x7f := by
  intro b hb
  obtain ⟨c, hc, hmem⟩ := List.mem_flatMap.mp hb
  rcases mem_encode hmem with ⟨hlow, heq⟩ | hhigh
  · have hprintable := List.all_eq_true.mp h c hc
    rw [table.ascii c hlow, Bool.and_eq_true, decide_eq_true_eq, decide_eq_true_eq] at hprintable
    omega
  · omega

theorem utf8_not_mem (h : table.printable text = true) {b : UInt8} (hb : b.toNat < 0x20) :
    b ∉ utf8 text := fun hmem => by
  have := (utf8_printable h b hmem).1
  omega

/-- The encoding of a text is a run of sequences. -/
theorem sequencesFrom_encode {accepts : UInt8 → Bool} (haccepts : ∀ b ∈ utf8 text, accepts b = true)
    {fuel : Nat} (hfuel : (utf8 text).length ≤ fuel) :
    sequencesFrom accepts fuel (utf8 text) = true := by
  induction text generalizing fuel with
  | nil => cases fuel <;> rfl
  | cons c text ih =>
    have hcons : utf8 (c :: text) = String.utf8EncodeChar c ++ utf8 text := rfl
    have hlength := utf8SequenceLength_encode c (utf8 text)
    have hpos : 0 < (String.utf8EncodeChar c).length :=
      List.length_pos_iff.mpr String.utf8EncodeChar_ne_nil
    rw [hcons] at haccepts hfuel ⊢
    rw [List.length_append] at hfuel
    have hrest : sequencesFrom accepts (fuel - 1) (utf8 text) = true :=
      ih (fun b hb => haccepts b (List.mem_append_right _ hb)) (by omega)
    obtain ⟨fuel, rfl⟩ : ∃ k, fuel = k + 1 := ⟨fuel - 1, by omega⟩
    rw [Nat.add_sub_cancel] at hrest
    generalize hbytes : String.utf8EncodeChar c = bytes at *
    cases bytes with
    | nil => exact absurd rfl (List.length_pos_iff.mp hpos)
    | cons first tail =>
      rw [List.cons_append] at hlength haccepts ⊢
      rw [sequencesFrom, hlength, haccepts first List.mem_cons_self, ← List.cons_append,
        List.drop_left, hrest]
      simp

theorem copyWpaText_utf8 (h : table.printable text = true) {capacity : Nat} {allowEmpty : Bool}
    (hlength : (utf8 text).length < capacity) (hempty : allowEmpty = true ∨ text ≠ []) :
    copyWpaText (utf8 text) capacity allowEmpty = some (utf8 text) := by
  have hne : text ≠ [] → utf8 text ≠ [] := by
    intro hne hnil
    rw [utf8, List.flatMap_eq_nil_iff] at hnil
    obtain ⟨c, hc⟩ := List.exists_mem_of_ne_nil text hne
    exact String.utf8EncodeChar_ne_nil (hnil c hc)
  have hsequences : sequencesFrom (fun b => decide (0x20 ≤ b) && b != 0x7f) (utf8 text).length
      (utf8 text) = true := by
    refine sequencesFrom_encode (fun b hb => ?_) le_rfl
    obtain ⟨hlow, hdel⟩ := utf8_printable h b hb
    rw [Bool.and_eq_true, decide_eq_true_eq, bne_iff_ne, UInt8.le_iff_toNat_le]
    exact ⟨hlow, fun heq => hdel (heq ▸ rfl)⟩
  rw [copyWpaText, if_neg, if_pos hsequences]
  rw [Bool.or_eq_true, decide_eq_true_eq, Bool.and_eq_true, not_or]
  refine ⟨by omega, ?_⟩
  rintro ⟨hno, hnil⟩
  rcases hempty with hyes | htext
  · rw [hyes] at hno
    exact nomatch hno
  · exact hne htext (List.isEmpty_iff.mp hnil)

end Printable

/-! ## The native reading -/

theorem cutTab_append {field : Bytes} (h : 0x09 ∉ field) (rest : Bytes) :
    cutTab (field ++ 0x09 :: rest) = some (field, rest) := by
  have hfield : ∀ b ∈ field, decide (b ≠ 0x09) = true := fun b hb =>
    decide_eq_true fun heq => h (heq ▸ hb)
  have hdrop : (field ++ 0x09 :: rest).dropWhile (· ≠ 0x09) = 0x09 :: rest := by
    rw [List.dropWhile_append_of_pos hfield, List.dropWhile_cons_of_neg (by simp)]
  have htake : (field ++ 0x09 :: rest).takeWhile (· ≠ 0x09) = field := by
    rw [List.takeWhile_append_of_pos hfield, List.takeWhile_cons_of_neg (by simp), List.append_nil]
  rw [cutTab, hdrop, htake]

theorem cutTab_of_notMem {line : Bytes} (h : 0x09 ∉ line) : cutTab line = none := by
  have hdrop : line.dropWhile (· ≠ 0x09) = [] :=
    List.dropWhile_eq_nil_iff.mpr fun b hb => decide_eq_true fun heq => h (heq ▸ hb)
  rw [cutTab, hdrop]

section Reading

variable {table : PrintTable} (row : ListedRow table)

private theorem digits_printable : table.printable row.digits = true := by
  refine List.all_eq_true.mpr fun c hc => ?_
  have hdigit := row.digits_all c hc
  rw [isAsciiDigit, Bool.and_eq_true, decide_eq_true_eq, decide_eq_true_eq] at hdigit
  have hlow : 48 ≤ c.toNat := hdigit.1
  have hhigh : c.toNat ≤ 57 := hdigit.2
  rw [table.ascii c (by omega), Bool.and_eq_true, decide_eq_true_eq, decide_eq_true_eq]
  omega

private theorem utf8_ascii {text : List Char} (h : ∀ c ∈ text, c.toNat < 128) :
    (utf8 text).map (fun b => Char.ofNat b.toNat) = text := by
  induction text with
  | nil => rfl
  | cons c text ih =>
    rw [List.forall_mem_cons] at h
    have hv : c.val.toNat < 128 := h.1
    have hbyte : String.utf8EncodeChar c = [UInt8.ofNat c.val.toNat] := by
      rw [String.utf8EncodeChar, if_pos (by omega)]
    have hchar : Char.ofNat (UInt8.ofNat c.val.toNat).toNat = c := by
      rw [UInt8.toNat_ofNat', Nat.mod_eq_of_lt (by omega)]
      exact Char.ofNat_toNat c
    rw [utf8, List.flatMap_cons, hbyte, List.map_append, List.map_singleton, hchar]
    exact congrArg _ (ih h.2)

private theorem digits_ascii : ∀ c ∈ row.digits, c.toNat < 128 := by
  intro c hc
  have hdigit := row.digits_all c hc
  rw [isAsciiDigit, Bool.and_eq_true, decide_eq_true_eq, decide_eq_true_eq] at hdigit
  have hhigh : c.toNat ≤ 57 := hdigit.2
  omega

private theorem length_utf8_digits : (utf8 row.digits).length ≤ 4 := by
  have hmap := congrArg List.length (utf8_ascii (digits_ascii row))
  rw [List.length_map] at hmap
  exact hmap ▸ row.length_digits_le

private theorem strtol_digits : strtol row.digits = some (row.networkId : Int) := by
  have hdigit (c : Char) (rest : List Char) (h : row.digits = c :: rest) : isAsciiDigit c = true :=
    row.digits_all c (h ▸ List.mem_cons_self)
  have hall : row.digits.all isAsciiDigit = true := List.all_eq_true.mpr row.digits_all
  obtain ⟨c, rest, hcons⟩ := List.exists_cons_of_ne_nil row.digits_ne
  have hc := hdigit c rest hcons
  have hspace : isSpaceC c = false := by
    rw [isAsciiDigit, Bool.and_eq_true, decide_eq_true_eq, decide_eq_true_eq] at hc
    have hlow : 48 ≤ c.toNat := hc.1
    rw [isSpaceC, Bool.or_eq_false_iff, Bool.and_eq_false_iff, decide_eq_false_iff_not,
      decide_eq_false_iff_not]
    refine ⟨beq_false_of_ne ?_, .inr (by omega)⟩
    rintro rfl
    exact absurd hlow (by decide)
  have hdrop : row.digits.dropWhile isSpaceC = row.digits := by
    rw [hcons, List.dropWhile_cons_of_neg (by rw [hspace]; exact Bool.false_ne_true)]
  have hvalue : Nat.ofDigitChars 10 row.digits 0 = row.networkId := row.digitsValue
  rw [strtol, hdrop]
  split
  · next heq =>
    exact absurd (hdigit _ _ heq) (by decide)
  · next heq =>
    exact absurd (hdigit _ _ heq) (by decide)
  · simp [hall, hvalue, row.digits_ne]

theorem parseDecimal_digits : parseDecimal (utf8 row.digits) 0 4095 =
    some (row.networkId : Int) := by
  have hid := row.id_le
  have hne : utf8 row.digits ≠ [] := by
    intro hnil
    have hmap := utf8_ascii (digits_ascii row)
    rw [hnil] at hmap
    exact row.digits_ne hmap.symm
  rw [parseDecimal, if_neg (by simpa using hne), parseBounded, utf8_ascii (digits_ascii row),
    strtol_digits, Option.filter_some, if_pos]
  simp
  omega

/-- The line up to the tab after the SSID. -/
def headOf : Bytes := utf8 row.digits ++ 0x09 :: (utf8 row.ssid ++ [0x09])

/-- The line after that tab. -/
def tailOf : Bytes := utf8 row.bssid ++ 0x09 :: utf8 row.flags

theorem utf8_line : utf8 row.line = headOf row ++ tailOf row := by
  have htab (text : List Char) : utf8 ('\t' :: text) = 0x09 :: utf8 text := by rfl
  rw [ListedRow.line, utf8_append, htab, utf8_append, htab, utf8_append, htab, headOf, tailOf]
  simp

/-- The id and the SSID of the row, where the SSID fits. -/
def listedOf : Option (Int × Bytes) :=
  if row.ssid = [] ∨ 128 < (utf8 row.ssid).length then none
  else some (row.networkId, utf8 row.ssid)

/-- What is read of a line depends on what stands before the second tab. -/
theorem listedNetwork_headOf (rest : Bytes) :
    listedNetwork (headOf row ++ rest) = listedOf row := by
  have hdigits := utf8_not_mem (digits_printable row) (b := 0x09) (by decide)
  have hssid := utf8_not_mem row.ssid_printable (b := 0x09) (by decide)
  have hcut : headOf row ++ rest = utf8 row.digits ++ 0x09 :: (utf8 row.ssid ++ 0x09 :: rest) := by
    simp [headOf]
  have hid : copyWpaText (utf8 row.digits) 16 false = some (utf8 row.digits) :=
    copyWpaText_utf8 (digits_printable row) (by have := length_utf8_digits row; omega)
      (.inr row.digits_ne)
  have hname : copyWpaText (utf8 row.ssid) 129 false =
      if row.ssid = [] ∨ 128 < (utf8 row.ssid).length then none else some (utf8 row.ssid) := by
    split
    · next h =>
      rw [copyWpaText, if_pos]
      rw [Bool.or_eq_true, decide_eq_true_eq, Bool.and_eq_true]
      rcases h with h | h
      · exact .inr ⟨rfl, by simp [h, utf8]⟩
      · exact .inl h
    · next h =>
      rw [not_or] at h
      exact copyWpaText_utf8 row.ssid_printable (by omega) (.inr h.1)
  simp only [hcut, listedNetwork, cutTab_append hdigits, cutTab_append hssid, hid, hname,
    Option.bind_eq_bind, Option.bind_some, parseDecimal_digits]
  rw [listedOf]
  split <;> rfl

/-- Of a line that is cut before the second tab nothing is read. -/
theorem listedNetwork_take {n : Nat} (h : n < (headOf row).length) :
    listedNetwork ((headOf row).take n) = none := by
  have hdigits := utf8_not_mem (digits_printable row) (b := 0x09) (by decide)
  have hssid := utf8_not_mem row.ssid_printable (b := 0x09) (by decide)
  rw [headOf, List.length_append, List.length_cons, List.length_append, List.length_singleton] at h
  rw [headOf, List.take_append]
  by_cases hn : n ≤ (utf8 row.digits).length
  · -- cut within the id
    have hnone : 0x09 ∉ (utf8 row.digits).take n := fun hmem => hdigits (List.mem_of_mem_take hmem)
    rw [Nat.sub_eq_zero_of_le hn, List.take_zero, List.append_nil, listedNetwork,
      cutTab_of_notMem hnone]
    rfl
  · -- cut within the SSID
    obtain ⟨m, hm⟩ : ∃ m, n - (utf8 row.digits).length = m + 1 :=
      ⟨n - (utf8 row.digits).length - 1, by omega⟩
    have hnone : 0x09 ∉ (utf8 row.ssid).take m := fun hmem => hssid (List.mem_of_mem_take hmem)
    rw [hm, List.take_succ_cons, List.take_append_of_le_length (by omega),
      List.take_of_length_le (by omega), listedNetwork, cutTab_append hdigits]
    simp only [Option.bind_eq_bind, Option.bind_some, cutTab_of_notMem hnone, Option.bind_none]

/-- The rows of a listing that are read with room for some bytes: those whose id and SSID
    are within the room. -/
def receivedRows : Nat → List (ListedRow table) → List (ListedRow table)
  | _, [] => []
  | room, row :: rows =>
    if (headOf row).length ≤ room then row :: receivedRows (room - (utf8 row.line).length - 1) rows
    else []

/-- The bytes of the rows. -/
def rowBytes (rows : List (ListedRow table)) : Bytes :=
  rows.flatMap fun row => utf8 row.line ++ [0x0a]

/-- A line end that `wpa_request` takes away. -/
def isLineEnd (b : UInt8) : Bool := b == 0x0a || b == 0x0d

/-- A byte of a line. -/
private def InLine (b : UInt8) : Prop := 0x20 ≤ b.toNat ∨ b = 0x09

private theorem InLine.ne {b e : UInt8} (h : InLine b) (he : e.toNat < 0x20) (htab : e ≠ 0x09) :
    b ≠ e := by
  rintro rfl
  rcases h with hlow | heq
  · omega
  · exact htab heq

private theorem InLine.not_end {b : UInt8} (h : InLine b) : isLineEnd b = false := by
  rw [isLineEnd, Bool.or_eq_false_iff]
  exact ⟨beq_false_of_ne (h.ne (by decide) (by decide)),
    beq_false_of_ne (h.ne (by decide) (by decide))⟩

private theorem inLine_printable {text : List Char} (h : table.printable text = true) :
    ∀ b ∈ utf8 text, InLine b := fun b hb => .inl (utf8_printable h b hb).1

private theorem inLine_row : ∀ b ∈ utf8 row.line, InLine b := by
  intro b hb
  rw [utf8_line, headOf, tailOf] at hb
  simp only [List.mem_append, List.mem_cons, List.not_mem_nil, or_false] at hb
  rcases hb with (hb | hb | hb | hb) | hb | hb | hb
  · exact inLine_printable (digits_printable row) b hb
  · exact .inr hb
  · exact inLine_printable row.ssid_printable b hb
  · exact .inr hb
  · exact inLine_printable row.bssid_printable b hb
  · exact .inr hb
  · exact inLine_printable row.flags_printable b hb

private theorem inLine_header : ∀ b ∈ utf8 listingHeader, InLine b := by
  have hprintable : asciiTable.printable listingHeader = true := by decide
  exact inLine_printable hprintable

private theorem rdropWhile_none {p : UInt8 → Bool} {text : Bytes} (h : ∀ b ∈ text, p b = false) :
    text.rdropWhile p = text := by
  rw [List.rdropWhile_eq_self_iff]
  intro hne
  rw [h _ (List.getLast_mem hne)]
  exact Bool.false_ne_true

/-- What is left of a line and what follows it. -/
private theorem rdropWhile_line {line : Bytes} (h : ∀ b ∈ line, InLine b) (tail : Bytes) :
    (line ++ 0x0a :: tail).rdropWhile isLineEnd =
      if tail.rdropWhile isLineEnd = [] then line else line ++ 0x0a :: tail.rdropWhile
        isLineEnd := by
  have hline : line.rdropWhile isLineEnd = line := rdropWhile_none fun b hb => (h b hb).not_end
  split
  · next hnil =>
    rw [List.rdropWhile_eq_nil_iff] at hnil
    rw [List.rdropWhile_append_of_pos]
    · exact hline
    · exact List.forall_mem_cons.mpr ⟨rfl, hnil⟩
  · next hne =>
    rw [List.rdropWhile_eq_nil_iff] at hne
    rw [List.append_cons, List.rdropWhile_append_of_neg _ hne, List.append_assoc,
      List.singleton_append]

/-- The pairs that are read of the rows within a room. -/
theorem filterMap_received (room : Nat) (rows : List (ListedRow table)) :
    ((((rowBytes rows).take room).rdropWhile isLineEnd).splitOn 0x0a).filterMap listedNetwork =
      (receivedRows room rows).filterMap listedOf := by
  induction rows generalizing room with
  | nil =>
    rw [rowBytes, List.flatMap_nil, List.take_nil]
    rfl
  | cons row rows ih =>
    have hrows : rowBytes (row :: rows) = utf8 row.line ++ 0x0a :: rowBytes rows := by
      simp [rowBytes]
    have hno : (0x0a : UInt8) ∉ utf8 row.line := fun hb =>
      (inLine_row row _ hb).ne (by decide) (by decide) rfl
    have hlength : (utf8 row.line).length = (headOf row).length + (tailOf row).length := by
      rw [utf8_line, List.length_append]
    have hread : listedNetwork (utf8 row.line) = listedOf row := by
      rw [utf8_line, listedNetwork_headOf]
    rw [hrows, List.take_append]
    by_cases hfits : (utf8 row.line).length < room
    · -- the whole line is received
      obtain ⟨rest, hrest⟩ : ∃ rest, room - (utf8 row.line).length = rest + 1 :=
        ⟨room - (utf8 row.line).length - 1, by omega⟩
      have hreceived : receivedRows room (row :: rows) = row :: receivedRows rest rows := by
        rw [receivedRows, if_pos (by omega), hrest, Nat.add_sub_cancel]
      have htail := ih rest
      rw [List.take_of_length_le hfits.le, hrest, List.take_succ_cons,
        rdropWhile_line (inLine_row row), hreceived]
      split
      · next hnil =>
        rw [hnil] at htail
        have hnone : listedNetwork [] = none := rfl
        rw [List.splitOn_nil, List.filterMap_cons_none hnone] at htail
        rw [List.splitOn_eq_singleton hno, List.filterMap_cons, List.filterMap_cons, ← htail, hread]
      · rw [List.splitOn_append_cons_self_of_not_mem hno, List.filterMap_cons, List.filterMap_cons,
          htail, hread]
    · -- the line is cut
      have hcut : ∀ b ∈ (utf8 row.line).take room, isLineEnd b = false := fun b hb =>
        (inLine_row row b (List.mem_of_mem_take hb)).not_end
      have hnone : (0x0a : UInt8) ∉ (utf8 row.line).take room :=
        fun hb => hno (List.mem_of_mem_take hb)
      rw [Nat.sub_eq_zero_of_le (by omega), List.take_zero, List.append_nil, rdropWhile_none hcut,
        List.splitOn_eq_singleton hnone, receivedRows]
      -- What is received of the line reads as its row only if the head is there.
      split
      · next hhead =>
        have hlast : receivedRows (room - (utf8 row.line).length - 1) rows = [] := by
          rw [Nat.sub_eq_zero_of_le (by omega)]
          cases rows with
          | nil => rfl
          | cons next rows =>
            rw [receivedRows, if_neg]
            simp [headOf]
        rw [hlast, utf8_line, List.take_append, List.take_of_length_le hhead, List.filterMap_cons,
          listedNetwork_headOf, List.filterMap_cons]
        rfl
      · next hhead =>
        rw [utf8_line, List.take_append_of_le_length (by omega), List.filterMap_cons,
          listedNetwork_take row (by omega)]
        rfl

/-! ### Matches -/

/-- What the loop makes of the ids of the matching rows. -/
def matched : List Int → Matches → Matches
  | [], found => found
  | n :: ids, found => if found.count ≥ 2 then found else matched ids ⟨n, found.count + 1⟩

theorem matched_of_two {ids : List Int} {found : Matches} (h : found.count ≥ 2) :
    matched ids found = found := by
  cases ids with
  | nil => rfl
  | cons n ids => exact if_pos h

theorem matchLines_matched (ssid : Bytes) (lines : List Bytes) (found : Matches) :
    matchLines ssid lines found =
      matched (((lines.filterMap listedNetwork).filter (·.2 = ssid)).map Prod.fst) found := by
  induction lines generalizing found with
  | nil => rfl
  | cons line lines ih =>
    rw [matchLines]
    by_cases htwo : found.count ≥ 2
    · rw [if_pos htwo, matched_of_two htwo]
    · rw [if_neg htwo, List.filterMap_cons]
      cases hlisted : listedNetwork line with
      | none => exact ih found
      | some pair =>
        obtain ⟨n, candidate⟩ := pair
        dsimp only
        by_cases heq : candidate = ssid
        · rw [if_pos heq, ih, List.filter_cons_of_pos (by simpa using heq), List.map_cons, matched,
            if_neg htwo]
        · rw [if_neg heq, ih, List.filter_cons_of_neg (by simpa using heq)]

/-- Two texts with one encoding are the same. -/
theorem utf8_injective {text text' : List Char} (h : utf8 text = utf8 text') : text = text' := by
  have hbytes : (String.ofList text).toByteArray = (String.ofList text').toByteArray := by
    have hbytes (text : List Char) : (String.ofList text).toByteArray = (utf8 text).toByteArray :=
      rfl
    rw [hbytes, hbytes, h]
  exact String.ofList_injective (String.toByteArray_inj.mp hbytes)

private theorem listedOf_matches {s : List Char} (hs : s ≠ []) (hlength : (utf8 s).length ≤ 128)
    (rows : List (ListedRow table)) :
    ((rows.filterMap listedOf).filter (·.2 = utf8 s)).map Prod.fst =
      (idsOf s rows).map Int.ofNat := by
  induction rows with
  | nil => rfl
  | cons row rows ih =>
    rw [List.filterMap_cons, idsOf]
    by_cases heq : row.ssid = s
    · have hlisted : listedOf row = some ((row.networkId : Int), utf8 row.ssid) := by
        rw [listedOf, if_neg]
        rw [heq, not_or]
        exact ⟨hs, by omega⟩
      rw [List.filter_cons_of_pos (by simpa using heq), List.map_cons, List.map_cons, ← idsOf, ← ih,
        hlisted]
      dsimp only
      rw [List.filter_cons_of_pos (by simp [heq])]
      rfl
    · rw [List.filter_cons_of_neg (by simpa using heq), ← idsOf, ← ih]
      cases hlisted : listedOf row with
      | none => rfl
      | some pair =>
        rw [listedOf] at hlisted
        split at hlisted
        · exact nomatch hlisted
        · obtain rfl := Option.some.inj hlisted
          dsimp only
          rw [List.filter_cons_of_neg]
          simpa using fun hbytes => heq (utf8_injective hbytes)

/-- The room that the buffer leaves for the rows. -/
def listingRoom : Nat := wpaResponseCapacity - 1 - (utf8 listingHeader).length - 1

private theorem listing_bytes (rows : List (ListedRow table)) :
    (listingReply rows).data.toList = utf8 listingHeader ++ 0x0a :: rowBytes rows := by
  have hrows : utf8 (terminated (rows.map (·.line))) = rowBytes rows := by
    rw [terminated, utf8, rowBytes, List.flatMap_assoc, List.flatMap_map]
    refine List.flatMap_congr fun row _ => ?_
    exact utf8_append row.line ['\n']
  have htext : listingText rows = listingHeader ++ '\n' :: terminated (rows.map (·.line)) := by
    simp [listingText, terminated]
  have hbytes : (listingReply rows).data.toList = utf8 (listingText rows) := by
    rw [listingReply, String.toByteArray_ofList, List.utf8Encode, List.data_toByteArray]
    rfl
  rw [hbytes, htext, utf8_append, ← hrows]
  rfl

theorem listing_no_nul (rows : List (ListedRow table)) : 0 ∉ (listingReply rows).data.toList := by
  rw [listing_bytes]
  intro hb
  rcases List.mem_append.mp hb with hb | hb
  · exact (inLine_header _ hb).ne (by decide) (by decide) rfl
  · rcases List.mem_cons.mp hb with heq | hb
    · exact absurd heq (by decide)
    · obtain ⟨row, -, hb⟩ := List.mem_flatMap.mp hb
      rcases List.mem_append.mp hb with hb | hb
      · exact (inLine_row row _ hb).ne (by decide) (by decide) rfl
      · exact absurd (List.mem_singleton.mp hb) (by decide)

private theorem listing_received (row : ListedRow table) (rows : List (ListedRow table)) :
    wpaResponse wpaResponseCapacity (listingReply (row :: rows)).data.toList =
      some (utf8 listingHeader ++
        0x0a :: ((rowBytes (row :: rows)).take listingRoom).rdropWhile isLineEnd) := by
  have hheader : (utf8 listingHeader).length = 33 := by decide
  have hroom : listingRoom = 65501 := by rw [listingRoom, hheader, wpaResponseCapacity]
  have htake :
      (utf8 listingHeader ++ 0x0a :: rowBytes (row :: rows)).take (wpaResponseCapacity - 1) =
      utf8 listingHeader ++ 0x0a :: (rowBytes (row :: rows)).take listingRoom := by
    rw [List.take_append, List.take_of_length_le (by rw [hheader, wpaResponseCapacity]; omega),
      hheader, hroom]
    rfl
  -- the rows start with a digit
  have hne : ((rowBytes (row :: rows)).take listingRoom).rdropWhile isLineEnd ≠ [] := by
    rw [Ne, List.rdropWhile_eq_nil_iff, hroom]
    intro hall
    obtain ⟨b, hb⟩ : ∃ b, b ∈ (utf8 row.line).take 65501 := by
      refine List.exists_mem_of_ne_nil _ fun hnil => ?_
      rw [List.take_eq_nil_iff] at hnil
      rcases hnil with hnil | hnil
      · omega
      · rw [utf8_line] at hnil
        simp [headOf] at hnil
    have hend := (inLine_row row b (List.mem_of_mem_take hb)).not_end
    have hmem : b ∈ (rowBytes (row :: rows)).take 65501 := by
      rw [rowBytes, List.flatMap_cons, List.append_assoc, List.take_append]
      exact List.mem_append_left _ hb
    rw [hall b hmem] at hend
    exact nomatch hend
  have hnul : ∀ b ∈ utf8 listingHeader ++
      0x0a :: ((rowBytes (row :: rows)).take listingRoom).rdropWhile isLineEnd,
      decide (b ≠ 0) = true := by
    intro b hb
    have hsub : (utf8 listingHeader ++
        0x0a :: ((rowBytes (row :: rows)).take listingRoom).rdropWhile isLineEnd).Sublist
        (listingReply (row :: rows)).data.toList := by
      rw [listing_bytes]
      have hrows := (List.rdropWhile_prefix isLineEnd _).sublist.trans
        (List.take_sublist listingRoom (rowBytes (row :: rows)))
      exact (hrows.cons_cons 0x0a).append_left _
    rw [decide_eq_true_eq]
    rintro rfl
    exact listing_no_nul (row :: rows) (hsub.mem hb)
  rw [listing_bytes, wpaResponse, htake]
  change (if ((utf8 listingHeader ++ 0x0a :: (rowBytes (row :: rows)).take listingRoom).rdropWhile
    isLineEnd).isEmpty = true then none else some (((utf8 listingHeader ++ 0x0a ::
    (rowBytes (row :: rows)).take listingRoom).rdropWhile isLineEnd).takeWhile (· ≠ 0))) = _
  rw [rdropWhile_line inLine_header, if_neg hne, List.takeWhile_eq_self_iff.mpr hnul, if_neg]
  simp

/-- What `configured_network_id` counts in a listing. -/
theorem findMatches_listing {s : List Char} (hs : s ≠ []) (hlength : (utf8 s).length ≤ 128)
    (row : ListedRow table) (rows : List (ListedRow table)) :
    (wpaResponse wpaResponseCapacity (listingReply (row :: rows)).data.toList).bind
        (findMatches (utf8 s)) =
      some (matched ((idsOf s (receivedRows listingRoom (row :: rows))).map Int.ofNat)
        ⟨-1, 0⟩) := by
  have hheader : startsWithBytes "network id /" (utf8 listingHeader ++
      0x0a :: ((rowBytes (row :: rows)).take listingRoom).rdropWhile isLineEnd) = true := by
    have hstart : utf8 listingHeader = ascii "network id /" ++
        utf8 " ssid / bssid / flags".toList := by
      decide
    rw [startsWithBytes, hstart, List.append_assoc, List.isPrefixOf_iff_prefix]
    exact List.prefix_append _ _
  have hno : (0x0a : UInt8) ∉ utf8 listingHeader := fun hb =>
    (inLine_header _ hb).ne (by decide) (by decide) rfl
  have hlines := List.splitOn_append_cons_self_of_not_mem hno
    (((rowBytes (row :: rows)).take listingRoom).rdropWhile isLineEnd)
  obtain ⟨line, lines, hrest⟩ := List.exists_cons_of_ne_nil
    (List.splitOn_ne_nil 0x0a (((rowBytes (row :: rows)).take listingRoom).rdropWhile isLineEnd))
  rw [listing_received, Option.bind_some, findMatches, hheader, linesAfterHeader, hlines]
  have hread := filterMap_received listingRoom (row :: rows)
  rw [hrest] at hread ⊢
  dsimp only
  rw [if_neg (by decide), Option.map_some, matchLines_matched, hread, listedOf_matches hs hlength]

end Reading

end Native

namespace Network

/-- A listing that is not too large is a text. -/
theorem responseText_listing {table : PrintTable} {rows : List (ListedRow table)}
    (h : (listingReply rows).size ≤ maxWpaResponse) :
    responseText (listingReply rows) = .ok (strip (listingText rows)) := by
  have hdecode : decodeReplace (listingReply rows) = listingText rows := by
    rw [listingReply, decodeReplace_encode, String.toList_ofList]
  rw [responseText, if_neg, hdecode]
  rw [Bool.or_eq_true, decide_eq_true_eq, not_or, List.contains_eq_mem, decide_eq_true_eq]
  exact ⟨by omega, Native.listing_no_nul rows⟩

theorem responseText_oversize {data : ByteArray} (h : maxWpaResponse < data.size) :
    responseText data = .error (.provider "wpa_supplicant returned an invalid response") := by
  rw [responseText, if_pos]
  rw [Bool.or_eq_true, decide_eq_true_eq]
  exact .inl h

end Network

end MsysHal
