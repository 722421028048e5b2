import MsysHal.Python.Documents
import MsysHal.Spec.Affine
import MsysHal.Spec.Reload

/-!
# Assignments that are written and read

The documents of the backend are lines of a key and a value. The parser reads back the
lines that are written, and a file gives back a text of few short ASCII lines.

## Key results

- `assignmentsFrom_items`: the assignments of written lines
- `Writable.assignmentsFrom`: the lines of numbers
- `storable_document`, `Writable.storable`: texts that files can hold
-/

namespace MsysHal.Ch347.Documents

open Python (Value intText)
open Reload

/-! ## Files -/

/-- A text that a file can hold and give back. -/
structure Storable (text : List Char) : Prop where
  ascii : ∀ c ∈ text, 0 < c.toNat ∧ c.toNat < 128
  length_le : text.length ≤ maxConfigBytes

theorem Storable.decode_encode {text : List Char} (h : Storable text) :
    ∃ data, encodeConfig text = .ok data ∧ decodeConfig data = .ok text := by
  have hbyte : ∀ c ∈ text, c.toNat.toUInt8.toNat = c.toNat := fun c hc => by
    have := h.ascii c hc
    exact UInt8.toNat_ofNat_of_lt' (by change c.toNat < 256; omega)
  refine ⟨text.map fun c => c.toNat.toUInt8, ?_, ?_⟩
  · have hany : (text.any fun c => c.toNat ≥ 128) = false := by
      rw [List.any_eq_false]
      intro c hc
      simpa using (h.ascii c hc).2
    rw [encodeConfig, hany, if_neg Bool.false_ne_true, if_neg (not_lt.mpr h.length_le)]
  · have hlen : ¬ (text.map fun c => c.toNat.toUInt8).length > maxConfigBytes := by
      rw [List.length_map]
      exact not_lt.mpr h.length_le
    have hzero : (text.map fun c => c.toNat.toUInt8).contains 0 = false := by
      rw [← Bool.not_eq_true, List.contains_iff_mem, List.mem_map]
      rintro ⟨c, hc, hcz⟩
      have := hbyte c hc
      rw [hcz] at this
      exact absurd (h.ascii c hc).1 (by rw [← this]; decide)
    have hhigh : (text.map fun c => c.toNat.toUInt8).any (128 ≤ ·) = false := by
      rw [List.any_eq_false]
      intro b hb
      obtain ⟨c, hc, rfl⟩ := List.mem_map.mp hb
      rw [decide_eq_true_eq, UInt8.le_iff_toNat_le, hbyte c hc]
      exact not_le.mpr (h.ascii c hc).2
    rw [decodeConfig, decide_eq_false hlen, hzero, hhigh]
    simp only [Bool.or_self, Bool.false_eq_true, if_false, List.map_map, Except.ok.injEq]
    refine (List.map_congr_left fun c hc => ?_).trans (List.map_id _)
    rw [Function.comp_apply, hbyte c hc, Char.ofNat_toNat, id]

/-! ## Lines -/

/-- A line with the key and the text of its value. -/
def lineOf (item : String × List Char) : List Char := item.1.toList ++ '=' :: item.2

/-- What a line says under a mapping. -/
def entry (mapping : List (String × String)) (item : String × List Char) : String × Nat :=
  ((mapping.lookup item.1).getD "", Nat.ofDigitChars 10 item.2 0)

/-- A line that a reader takes. -/
structure Readable (mapping : List (String × String)) (item : String × List Char) : Prop where
  key : isAssignmentKey item.1.toList = true
  numeral : isNumeral 10 item.2 = true
  mapped : (mapping.lookup item.1).isSome = true

private theorem isKeyChar_toNat {c : Char} (h : (c.isUpper || c.isDigit || c == '_') = true) :
    48 ≤ c.toNat ∧ c.toNat ≤ 95 ∧ c.toNat ≠ 61 := by
  simp only [Char.isUpper, Char.isDigit, Bool.or_eq_true, Bool.and_eq_true, decide_eq_true_eq,
    beq_iff_eq] at h
  rcases h with (⟨h₁, h₂⟩ | ⟨h₁, h₂⟩) | rfl
  · have h₁ : 65 ≤ c.toNat := h₁
    have h₂ : c.toNat ≤ 90 := h₂
    omega
  · have h₁ : 48 ≤ c.toNat := h₁
    have h₂ : c.toNat ≤ 57 := h₂
    omega
  · decide

private theorem key_char {key : List Char} (h : isAssignmentKey key = true) :
    key ≠ [] ∧ ∀ c ∈ key, 48 ≤ c.toNat ∧ c.toNat ≤ 95 ∧ c.toNat ≠ 61 := by
  cases key with
  | nil => exact nomatch h
  | cons c rest =>
    rw [isAssignmentKey, Bool.and_eq_true, List.all_eq_true] at h
    refine ⟨List.cons_ne_nil _ _, ?_⟩
    rw [List.forall_mem_cons]
    exact ⟨isKeyChar_toNat (by rw [h.1]; rfl), fun d hd => isKeyChar_toNat (h.2 d hd)⟩

theorem numeral_char {text : List Char} (h : isNumeral 10 text = true) :
    ∀ c ∈ text, 48 ≤ c.toNat ∧ c.toNat ≤ 57 := by
  intro c hc
  simp only [isNumeral, Bool.and_eq_true, List.all_eq_true] at h
  have hdigit := h.2 c hc
  simp only [Char.isDigit, Bool.and_eq_true, decide_eq_true_eq] at hdigit
  exact ⟨hdigit.1, hdigit.2⟩

/-- The characters of a line. -/
theorem Readable.chars {mapping : List (String × String)} {item : String × List Char}
    (h : Readable mapping item) : ∀ c ∈ lineOf item, 48 ≤ c.toNat ∧ c.toNat ≤ 95 := by
  intro c hc
  rw [lineOf, List.mem_append, List.mem_cons] at hc
  rcases hc with hc | rfl | hc
  · have := (key_char h.key).2 c hc
    omega
  · decide
  · have := numeral_char h.numeral c hc
    omega

private theorem Readable.isSpace {mapping : List (String × String)} {item : String × List Char}
    (h : Readable mapping item) : ∀ c ∈ lineOf item, isSpace c = false := by
  intro c hc
  have := h.chars c hc
  exact isSpace_of_toNat (by omega)

theorem matchAssignment_lineOf {mapping : List (String × String)} {item : String × List Char}
    (h : Readable mapping item) :
    matchAssignment (lineOf item) = some (item.1, Nat.ofDigitChars 10 item.2 0) := by
  have hkey : ∀ c ∈ item.1.toList, (c != '=') = true := by
    intro c hc
    rw [bne_iff_ne]
    rintro rfl
    exact ((key_char h.key).2 _ hc).2.2 rfl
  have hmem : (lineOf item).contains '=' = true := by
    rw [List.contains_iff_mem, lineOf]
    exact List.mem_append_right _ (List.mem_cons_self ..)
  have htake : (lineOf item).takeWhile (· != '=') = item.1.toList := by
    rw [lineOf, List.takeWhile_append_of_pos hkey, List.takeWhile_cons, if_neg (by decide),
      List.append_nil]
  have hdrop : ((lineOf item).dropWhile (· != '=')).tail = item.2 := by
    rw [lineOf, List.dropWhile_append_of_pos hkey]
    rfl
  simp only [matchAssignment, htake, hdrop, hmem, h.key, h.numeral, Bool.and_self, if_true,
    String.ofList_toList]

/-- The reader finds the assignments of written lines, in their order. -/
theorem assignmentsFrom_items {mapping : List (String × String)} (filename : String)
    {items : List (String × List Char)} (h : ∀ item ∈ items, Readable mapping item) (number : Nat)
    (values : List (String × Nat))
    (hnodup : ((values ++ items.map (entry mapping)).map Prod.fst).Nodup) :
    assignmentsFrom mapping filename number (items.map lineOf) values =
      .ok (values ++ items.map (entry mapping)) := by
  -- Induction on the lines; `values` are the settings of the lines before.
  induction items generalizing number values with
  | nil => rw [List.map_nil, assignmentsFrom, List.map_nil, List.append_nil]
  | cons item items ih =>
    have hitem := h item (List.mem_cons_self ..)
    -- The field was not set before.
    have hnew : (values.lookup (entry mapping item).1).isSome = false := by
      rw [Option.isSome_eq_false_iff, Option.isNone_iff_eq_none, List.lookup_eq_none_iff]
      intro p hp
      rw [bne_iff_ne]
      intro heq
      rw [List.map_append, List.nodup_append] at hnodup
      exact hnodup.2.2 p.1 (List.mem_map_of_mem hp) (entry mapping item).1 (by simp) heq.symm
    -- The line starts with its key, so it is neither empty nor a comment.
    have hhead : (lineOf item).isEmpty = false ∧ ((lineOf item).head? == some '#') = false := by
      obtain ⟨c, key, hc⟩ := List.exists_cons_of_ne_nil (key_char hitem.key).1
      have hbound := (key_char hitem.key).2 c (hc ▸ List.mem_cons_self ..)
      rw [lineOf, hc]
      refine ⟨rfl, beq_eq_false_iff_ne.mpr fun heq => ?_⟩
      simp only [List.cons_append, List.head?_cons, Option.some.injEq] at heq
      rw [heq] at hbound
      exact absurd hbound.1 (by decide)
    obtain ⟨field, hfield⟩ := Option.isSome_iff_exists.mp hitem.mapped
    have hentry : entry mapping item = (field, Nat.ofDigitChars 10 item.2 0) := by
      rw [entry, hfield, Option.getD_some]
    rw [List.map_cons, assignmentsFrom, strip_eq_self hitem.isSpace, matchAssignment_lineOf hitem]
    simp only [hhead.1, hhead.2, Bool.or_self, Bool.false_eq_true, if_false,
      Option.bind_some, hfield, Option.map_some]
    rw [hentry] at hnew
    rw [hnew, if_neg Bool.false_ne_true, ← hentry, ih (fun x hx => h x (List.mem_cons_of_mem _ hx)),
      List.map_cons, List.append_assoc, List.singleton_append]
    rwa [List.append_assoc, List.singleton_append, ← List.map_cons]

/-! ## Assignments of a document -/

/-- Keys that a reader takes, each for a field of its own. -/
def ReadsKeys (mapping : List (String × String)) (keys : List String) : Prop :=
  (∀ key ∈ keys, isAssignmentKey key.toList = true ∧ (mapping.lookup key).isSome = true) ∧
    (keys.map fun key => (mapping.lookup key).getD "").Nodup

instance (mapping : List (String × String)) (keys : List String) :
    Decidable (ReadsKeys mapping keys) := instDecidableAnd

section Keys

variable {mapping : List (String × String)} {items : List (String × List Char)}
  (hkeys : ReadsKeys mapping (items.map Prod.fst))
    (hitems : ∀ item ∈ items, isNumeral 10 item.2 = true)

include hkeys hitems

theorem ReadsKeys.readable : ∀ item ∈ items, Readable mapping item := fun item hitem =>
  have h := hkeys.1 item.1 (List.mem_map_of_mem hitem)
  ⟨h.1, hitems item hitem, h.2⟩

/-- The lines are found again in their text. -/
theorem ReadsKeys.no_break : ∀ line ∈ items.map lineOf, ∀ c ∈ line, isLineBreak c = false := by
  intro line hline c hc
  obtain ⟨item, hitem, rfl⟩ := List.mem_map.mp hline
  exact isLineBreak_of_isSpace ((hkeys.readable hitems item hitem).isSpace c hc)

/-- The reader finds the assignments of written lines. -/
theorem ReadsKeys.assignmentsFrom_lines (filename : String) (number : Nat) :
    assignmentsFrom mapping filename number (items.map lineOf) [] =
      .ok (items.map (entry mapping)) := by
  rw [assignmentsFrom_items filename (hkeys.readable hitems), List.nil_append]
  rw [List.nil_append, List.map_map]
  have hnodup := hkeys.2
  rwa [List.map_map] at hnodup

/-- The reader finds the assignments of a written document. -/
theorem ReadsKeys.assignmentsFrom_document (filename : String) (number : Nat) :
    assignmentsFrom mapping filename number (splitlines (document (items.map lineOf))) [] =
      .ok (items.map (entry mapping)) := by
  rw [splitlines_document (hkeys.no_break hitems), hkeys.assignmentsFrom_lines hitems]

end Keys

theorem isNumeral_intText {n : Int} (h : 0 ≤ n) (hlt : n < 10 ^ 10) :
    isNumeral 10 (intText n) = true := by
  obtain ⟨n, rfl⟩ := Int.eq_ofNat_of_zero_le h
  change isNumeral 10 (Nat.toDigits 10 n) = true
  have hne : (Nat.toDigits 10 n).isEmpty = false :=
    List.isEmpty_eq_false_iff.mpr Nat.toDigits_ne_nil
  have hlen : (Nat.toDigits 10 n).length ≤ 10 :=
    (Nat.length_toDigits_le_iff (by decide) (by decide)).mpr (by exact_mod_cast hlt)
  simp only [isNumeral, hne, Bool.not_false, decide_eq_true hlen, Bool.and_self, Bool.true_and,
    List.all_eq_true]
  exact fun c hc => Nat.isDigit_of_mem_toDigits (by decide) (by decide) hc

@[simp] theorem ofDigitChars_intText {n : Int} (h : 0 ≤ n) :
    Nat.ofDigitChars 10 (intText n) 0 = n.toNat := by
  obtain ⟨n, rfl⟩ := Int.eq_ofNat_of_zero_le h
  exact Nat.ofDigitChars_ten_toDigits

/-- The lines of numbers. -/
def numberItems (settings : List (String × Int)) : List (String × List Char) :=
  settings.map fun setting => (setting.1, intText setting.2)

/-- What the line of a number says under a mapping. -/
def numberEntry (mapping : List (String × String)) (setting : String × Int) : String × Nat :=
  ((mapping.lookup setting.1).getD "", setting.2.toNat)

/-- Numbers that a line can hold. -/
def Writable (settings : List (String × Int)) : Prop :=
  ∀ setting ∈ settings, 0 ≤ setting.2 ∧ setting.2 < 10 ^ 10

section Numbers

variable {mapping : List (String × String)} {settings : List (String × Int)} (h : Writable settings)

include h

theorem Writable.isNumeral : ∀ item ∈ numberItems settings, isNumeral 10 item.2 = true := by
  intro item hitem
  obtain ⟨setting, hsetting, rfl⟩ := List.mem_map.mp hitem
  exact isNumeral_intText (h setting hsetting).1 (h setting hsetting).2

theorem Writable.entries :
    (numberItems settings).map (entry mapping) = settings.map (numberEntry mapping) := by
  rw [numberItems, List.map_map]
  refine List.map_congr_left fun setting hsetting => ?_
  rw [Function.comp_apply, entry, ofDigitChars_intText (h setting hsetting).1, numberEntry]

omit h in
theorem readsKeys_numberItems (hkeys : ReadsKeys mapping (settings.map Prod.fst)) :
    ReadsKeys mapping ((numberItems settings).map Prod.fst) := by
  rwa [numberItems, List.map_map]

/-- The reader finds the numbers of a written document. -/
theorem Writable.assignmentsFrom (hkeys : ReadsKeys mapping (settings.map Prod.fst))
    (filename : String) (number : Nat) :
    assignmentsFrom mapping filename number
      (splitlines (document ((numberItems settings).map lineOf))) [] =
        .ok (settings.map (numberEntry mapping)) := by
  rw [(readsKeys_numberItems hkeys).assignmentsFrom_document h.isNumeral, h.entries]

end Numbers

theorem integer_of_mem {n minimum maximum : Int} (h : minimum ≤ n ∧ n ≤ maximum) (label : String) :
    integer (.int n) label minimum maximum = .ok n := by
  have hrange : (decide (n < minimum) || decide (n > maximum)) = false := by
    rw [Bool.or_eq_false_iff, decide_eq_false_iff_not, decide_eq_false_iff_not]
    omega
  simp only [integer, hrange, Bool.false_eq_true, if_false]

/-! ## Texts that files can hold -/

private theorem length_document_le {lines : List (List Char)} {n : Nat}
    (h : ∀ line ∈ lines, line.length ≤ n) : (document lines).length ≤ (n + 1) * lines.length := by
  induction lines with
  | nil => exact Nat.zero_le _
  | cons line lines ih =>
    rw [List.forall_mem_cons] at h
    have hrest := ih h.2
    rw [document] at hrest ⊢
    rw [List.flatMap_cons, List.length_append, List.length_append, List.length_singleton,
      List.length_cons, Nat.mul_add, Nat.mul_one]
    have := h.1
    omega

/-- A document of a few short lines. -/
theorem storable_document {lines : List (List Char)}
    (h : ∀ line ∈ lines, (∀ c ∈ line, 0 < c.toNat ∧ c.toNat < 128) ∧ line.length ≤ 63)
    (hcount : lines.length ≤ 256) : Storable (document lines) where
  ascii := by
    intro c hc
    obtain ⟨line, hline, hc⟩ := List.mem_flatMap.mp hc
    rcases List.mem_append.mp hc with hc | hc
    · exact (h line hline).1 c hc
    · rw [List.mem_singleton.mp hc]
      decide
  length_le := by
    refine (length_document_le fun line hline => (h line hline).2).trans ?_
    rw [maxConfigBytes]
    omega

/-- The lines of numbers are short. -/
theorem Writable.lines {mapping : List (String × String)} {settings : List (String × Int)}
    (h : Writable settings) (hkeys : ReadsKeys mapping (settings.map Prod.fst))
    (hshort : ∀ key ∈ settings.map Prod.fst, key.toList.length ≤ 52) :
    ∀ line ∈ (numberItems settings).map lineOf,
      (∀ c ∈ line, 0 < c.toNat ∧ c.toNat < 128) ∧ line.length ≤ 63 := by
  intro line hline
  obtain ⟨item, hitem, rfl⟩ := List.mem_map.mp hline
  have hreadable := (readsKeys_numberItems hkeys).readable h.isNumeral item hitem
  refine ⟨fun c hc => ?_, ?_⟩
  · have := hreadable.chars c hc
    omega
  · obtain ⟨setting, hsetting, rfl⟩ := List.mem_map.mp hitem
    have hkey := hshort setting.1 (List.mem_map_of_mem hsetting)
    have hnumeral := hreadable.numeral
    simp only [Ch347.isNumeral, Bool.and_eq_true, decide_eq_true_eq] at hnumeral
    have hlen := hnumeral.1.2
    rw [lineOf, List.length_append, List.length_cons]
    dsimp only at hlen ⊢
    omega

/-- The text of numbers can be held by a file. -/
theorem Writable.storable {mapping : List (String × String)} {settings : List (String × Int)}
    (h : Writable settings) (hkeys : ReadsKeys mapping (settings.map Prod.fst))
    (hshort : ∀ key ∈ settings.map Prod.fst, key.toList.length ≤ 52)
    (hcount : settings.length ≤ 256) :
    Storable (document ((numberItems settings).map lineOf)) :=
  storable_document (h.lines hkeys hshort) (by rwa [List.length_map, numberItems, List.length_map])

end MsysHal.Ch347.Documents
