import MsysHal.ForStd.Except
import MsysHal.ForStd.List
import MsysHal.Python.Affine

/-!
# Affine documents read back as they were written

The reader of an affine document, given a text of the writer, finds exactly the
assignments the writer made. Since a formatted number is formatted the same after
it has been read, a document that is read and written again keeps its numbers.

## Key results

- `assignments_document`: the assignments of a written document
- `parseAffineDocument_stateText`: what is read of a written document
- `affineStateText_congr`: a document depends only on how its numbers are formatted
-/

namespace MsysHal.Ch347

open Python (Value PyFloat)

/-! ## Lines -/

private theorem splitlinesFrom_append (line text rest : List Char)
    (h : ∀ c ∈ text, isLineBreak c = false) :
    splitlinesFrom line (text ++ '\n' :: rest) = (line ++ text) :: splitlinesFrom [] rest := by
  induction text generalizing line with
  | nil =>
    rw [List.nil_append, List.append_nil, splitlinesFrom]
    · rfl
    · intro rest' h'
      exact absurd h' (by decide)
  | cons c text ih =>
    have hc : isLineBreak c = false := h c (List.mem_cons_self ..)
    have hne : c ≠ '\r' := by
      rintro rfl
      exact absurd hc (by decide)
    rw [List.cons_append, splitlinesFrom, if_neg (by rw [hc]; decide),
      ih _ fun x hx => h x (List.mem_cons_of_mem _ hx), List.append_assoc, List.singleton_append]
    intro rest' h' _
    exact hne h'

/-- The lines of a document without line breaks inside its lines. -/
theorem splitlines_document {lines : List (List Char)}
    (h : ∀ line ∈ lines, ∀ c ∈ line, isLineBreak c = false) :
    splitlines (document lines) = lines := by
  induction lines with
  | nil => rfl
  | cons line lines ih =>
    have hrest := ih fun l hl => h l (List.mem_cons_of_mem _ hl)
    rw [document, List.flatMap_cons, List.append_assoc, List.singleton_append, splitlines,
      splitlinesFrom_append [] line _ (h line (List.mem_cons_self ..)), List.nil_append]
    exact congrArg (line :: ·) hrest

/-- A text without white space is its own `strip`. -/
theorem strip_eq_self {text : List Char} (h : ∀ c ∈ text, isSpace c = false) :
    strip text = text := by
  have hdrop : text.dropWhile isSpace = text := by
    cases text with
    | nil => rfl
    | cons c text => rw [List.dropWhile_cons, h c (List.mem_cons_self ..)]; rfl
  rw [strip, hdrop, List.rdropWhile_eq_self_iff]
  intro hne
  rw [h _ (List.getLast_mem hne)]
  decide

/-! ## Assignments -/

/-- An assignment the writer may make: an allowed key, and a value that is not
    empty and without white space. -/
structure Plain (allowed : List (List Char)) (item : List Char × List Char) : Prop where
  allowed : item.1 ∈ allowed
  ne_nil : item.2 ≠ []
  no_space : ∀ c ∈ item.2, isSpace c = false

/-- A key of an affine document: capital letters, digits and underscores. -/
def isKeyChar (c : Char) : Bool := isUpper c || isAsciiDigit c || c == '_'

private theorem requiredKeys_chars :
    (requiredKeys true).all (fun key => !key.isEmpty && key.all isKeyChar) = true := by
  decide

private theorem key_chars {key : List Char} (h : key ∈ requiredKeys true) :
    key ≠ [] ∧ ∀ c ∈ key, isKeyChar c = true := by
  have := List.all_eq_true.mp requiredKeys_chars key h
  simp only [Bool.and_eq_true, Bool.not_eq_true', List.isEmpty_eq_false_iff,
    List.all_eq_true] at this
  exact this

private theorem isKeyChar_toNat {c : Char} (h : isKeyChar c = true) :
    48 ≤ c.toNat ∧ c.toNat ≤ 95 ∧ c.toNat ≠ 61 := by
  simp only [isKeyChar, isUpper, isAsciiDigit, Bool.or_eq_true, Bool.and_eq_true, decide_eq_true_eq,
    beq_iff_eq] at h
  rcases h with (⟨h₁, h₂⟩ | ⟨h₁, h₂⟩) | rfl
  · have h₁ : 65 ≤ c.toNat := h₁
    have h₂ : c.toNat ≤ 90 := h₂
    omega
  · have h₁ : 48 ≤ c.toNat := h₁
    have h₂ : c.toNat ≤ 57 := h₂
    omega
  · decide

theorem isSpace_of_toNat {c : Char} (h : 33 ≤ c.toNat) : isSpace c = false := by
  have hne : ∀ d : Char, d.toNat < 33 → (c == d) = false := by
    intro d hd
    rw [beq_eq_false_iff_ne]
    rintro rfl
    omega
  simp only [isSpace, isLineBreak, hne _ (by decide : '\n'.toNat < 33),
    hne _ (by decide : '\r'.toNat < 33), hne _ (by decide : '\x0b'.toNat < 33),
    hne _ (by decide : '\x0c'.toNat < 33), hne _ (by decide : '\x1c'.toNat < 33),
    hne _ (by decide : '\x1d'.toNat < 33), hne _ (by decide : '\x1e'.toNat < 33),
    hne _ (by decide : ' '.toNat < 33), hne _ (by decide : '\t'.toNat < 33),
    hne _ (by decide : '\x1f'.toNat < 33), Bool.or_self]

/-- The line of an assignment has no white space. -/
private theorem assignmentLine_no_space {item : List Char × List Char}
    (h : Plain (requiredKeys true) item) : ∀ c ∈ assignmentLine item, isSpace c = false := by
  intro c hc
  rw [assignmentLine, List.mem_append, List.mem_cons] at hc
  rcases hc with hc | rfl | hc
  · have := isKeyChar_toNat ((key_chars h.allowed).2 c hc)
    exact isSpace_of_toNat (by omega)
  · decide
  · exact h.no_space c hc

theorem isLineBreak_of_isSpace {c : Char} (h : isSpace c = false) : isLineBreak c = false := by
  simp only [isSpace, Bool.or_eq_false_iff] at h
  exact h.1.1.1

/-- A key up to the first equals sign, and the value after it. -/
private theorem assignmentLine_split {item : List Char × List Char}
    (h : Plain (requiredKeys true) item) :
    (assignmentLine item).takeWhile (· != '=') = item.1 ∧
      ((assignmentLine item).dropWhile (· != '=')).tail = item.2 := by
  have hkey : ∀ c ∈ item.1, (c != '=') = true := by
    intro c hc
    rw [bne_iff_ne]
    rintro rfl
    exact (isKeyChar_toNat ((key_chars h.allowed).2 _ hc)).2.2 rfl
  rw [assignmentLine, List.takeWhile_append_of_pos hkey, List.dropWhile_append_of_pos hkey]
  refine ⟨?_, rfl⟩
  rw [List.takeWhile_cons, if_neg (by decide), List.append_nil]

/-- One round of the reader on a written line. -/
private theorem assignments_cons {item : List Char × List Char} (h : Plain (requiredKeys true) item)
    (hlen : item.2.length ≤ 48) (filename : String) (number : Nat) (rest : List (List Char))
    (values : List (List Char × List Char)) (hnew : (values.lookup item.1).isSome = false) :
    assignments (requiredKeys true) filename number (assignmentLine item :: rest) values =
      assignments (requiredKeys true) filename (number + 1) rest (values ++ [item]) := by
  obtain ⟨hkey, hvalue⟩ := assignmentLine_split h
  obtain ⟨c, key, hc⟩ := List.exists_cons_of_ne_nil (key_chars h.allowed).1
  have hhead : (assignmentLine item).isEmpty = false ∧
      ((assignmentLine item).head? == some '#') = false := by
    have := isKeyChar_toNat ((key_chars h.allowed).2 c (hc ▸ List.mem_cons_self ..))
    rw [assignmentLine, hc]
    refine ⟨rfl, beq_eq_false_iff_ne.mpr fun heq => ?_⟩
    simp only [List.cons_append, List.head?_cons, Option.some.injEq] at heq
    rw [heq] at this
    exact absurd this.1 (by decide)
  have hmem : (assignmentLine item).contains '=' = true := by
    rw [List.contains_iff_mem, assignmentLine]
    exact List.mem_append_right _ (List.mem_cons_self ..)
  have hempty : item.2.isEmpty = false := List.isEmpty_eq_false_iff.mpr h.ne_nil
  have hallowed : (requiredKeys true).contains item.1 = true := List.contains_iff_mem.mpr h.allowed
  have hlong : decide (item.2.length > 48) = false := decide_eq_false (Nat.not_lt.mpr hlen)
  rw [assignments, strip_eq_self (assignmentLine_no_space h)]
  simp only [hhead.1, hhead.2, Bool.or_self, Bool.false_eq_true, if_false, hmem,
    Bool.not_true, hkey, hvalue, hempty, hnew, hallowed, hlong]

/-- The reader finds the assignments of written lines, in their order. -/
private theorem assignments_lines (filename : String) (items : List (List Char × List Char))
    (h : ∀ item ∈ items, Plain (requiredKeys true) item)
    (hlen : ∀ item ∈ items, item.2.length ≤ 48) (number : Nat)
    (values : List (List Char × List Char))
    (hnodup : ((values ++ items).map Prod.fst).Nodup) :
    assignments (requiredKeys true) filename number (items.map assignmentLine) values =
      .ok (values ++ items) := by
  induction items generalizing number values with
  | nil => rw [List.map_nil, assignments, List.append_nil]
  | cons item items ih =>
    have hnew : (values.lookup item.1).isSome = false := by
      rw [Option.isSome_eq_false_iff, Option.isNone_iff_eq_none, List.lookup_eq_none_iff]
      intro p hp
      rw [bne_iff_ne]
      intro heq
      rw [List.map_append, List.nodup_append] at hnodup
      exact hnodup.2.2 p.1 (List.mem_map_of_mem hp) item.1 (by simp) heq.symm
    rw [List.append_cons] at hnodup ⊢
    rw [List.map_cons, assignments_cons (h item (List.mem_cons_self ..))
      (hlen item (List.mem_cons_self ..)) filename number _ values hnew,
      ih (fun x hx => h x (List.mem_cons_of_mem _ hx))
        (fun x hx => hlen x (List.mem_cons_of_mem _ hx))
        (number + 1) (values ++ [item]) hnodup]

private theorem isNumberChar_no_space {c : Char} (h : isNumberChar c = true) :
    isSpace c = false := by
  simp only [isNumberChar, Char.isDigit, Bool.or_eq_true, Bool.and_eq_true, decide_eq_true_eq,
    beq_iff_eq] at h
  rcases h with (((⟨h₁, h₂⟩ | rfl) | rfl) | rfl) | rfl
  · have h₁ : 48 ≤ c.toNat := h₁
    exact isSpace_of_toNat (by omega)
  all_goals decide

private theorem plain_matrixItems (F : Floats) {keys : List (List Char)}
    (hkeys : ∀ key ∈ keys, key ∈ requiredKeys true) (m : Affine) :
    ∀ item ∈ matrixItems F keys m, Plain (requiredKeys true) item := by
  intro item hitem
  obtain ⟨hkey, hvalue⟩ := List.of_mem_zip (a := item.1) (b := item.2) hitem
  obtain ⟨x, -, hx⟩ := List.mem_map.mp hvalue
  exact ⟨hkeys _ hkey, hx ▸ F.format_ne_nil x, fun c hc =>
    isNumberChar_no_space (F.isNumberChar_format x c (hx ▸ hc))⟩

private theorem length_matrixItems_le (F : Floats) (keys : List (List Char)) (m : Affine) :
    ∀ item ∈ matrixItems F keys m, item.2.length ≤ 48 := by
  intro item hitem
  obtain ⟨-, hvalue⟩ := List.of_mem_zip (a := item.1) (b := item.2) hitem
  obtain ⟨x, -, hx⟩ := List.mem_map.mp hvalue
  exact hx ▸ F.length_format_le x

private theorem length_stateItems_le (F : Floats) {revision : Nat}
    (h : revision ≤ maxAffineRevision) (m : Affine) (previous : Option Affine) :
    ∀ item ∈ stateItems F revision m previous, item.2.length ≤ 48 := by
  intro item hitem
  simp only [stateItems, effectiveItems, List.cons_append, List.mem_cons, List.mem_append] at hitem
  rcases hitem with rfl | hitem | rfl | hitem
  · have hlt : revision < 10 ^ 10 := lt_of_le_of_lt h (by decide)
    exact le_trans (Nat.length_toDigits_le_iff (by decide) (by decide) |>.mpr hlt) (by decide)
  · exact length_matrixItems_le F _ m item hitem
  · cases previous.isSome <;> decide
  · exact length_matrixItems_le F _ _ item hitem

private theorem plain_flag (valid : Bool) :
    Plain (requiredKeys true) (undoValidKey, if valid then ['1'] else ['0']) := by
  have hkey : undoValidKey ∈ requiredKeys true := by decide
  cases valid with
  | false => exact ⟨hkey, by decide, fun c hc => List.mem_singleton.mp hc ▸ (by decide)⟩
  | true => exact ⟨hkey, by decide, fun c hc => List.mem_singleton.mp hc ▸ (by decide)⟩

/-- The first line of a persisted document is a comment on one line. -/
private theorem heading_no_break :
    "# Managed atomically by MSYS HAL touch calibration".toList.all (!isLineBreak ·) = true := by
  decide

private theorem plain_stateItems (F : Floats) (revision : Nat) (m : Affine)
    (previous : Option Affine) :
    ∀ item ∈ stateItems F revision m previous, Plain (requiredKeys true) item := by
  intro item hitem
  simp only [stateItems, effectiveItems, List.cons_append, List.mem_cons, List.mem_append] at hitem
  rcases hitem with rfl | hitem | rfl | hitem
  · have hkey : revisionKey ∈ requiredKeys true := by decide
    refine ⟨hkey, Nat.toDigits_ne_nil, fun c hc => ?_⟩
    have hdigit := Nat.isDigit_of_mem_toDigits (by decide) (by decide) hc
    exact isNumberChar_no_space (by simp only [isNumberChar, hdigit, Bool.true_or])
  · exact plain_matrixItems F (by decide) m item hitem
  · exact plain_flag previous.isSome
  · exact plain_matrixItems F (by decide) _ item hitem

private theorem keys_matrixItems (F : Floats) {keys : List (List Char)} (h : keys.length = 9)
    (m : Affine) : (matrixItems F keys m).map Prod.fst = keys := by
  rw [matrixItems, List.map_fst_zip]
  rw [List.length_map, Vector.length_toList, h]

private theorem keys_effectiveItems (F : Floats) (revision : Nat) (m : Affine) :
    (effectiveItems F revision m).map Prod.fst = requiredKeys false := by
  rw [effectiveItems, List.map_cons, keys_matrixItems F rfl]
  rfl

private theorem keys_stateItems (F : Floats) (revision : Nat) (m : Affine)
    (previous : Option Affine) :
    (stateItems F revision m previous).map Prod.fst = requiredKeys true := by
  rw [stateItems, List.map_append, List.map_cons, keys_effectiveItems, keys_matrixItems F rfl]
  rfl

private theorem nodup_stateItems (F : Floats) (revision : Nat) (m : Affine)
    (previous : Option Affine) : ((stateItems F revision m previous).map Prod.fst).Nodup := by
  rw [keys_stateItems]
  decide

private theorem splitlines_items {items : List (List Char × List Char)}
    (h : ∀ item ∈ items, Plain (requiredKeys true) item) :
    ∀ line ∈ items.map assignmentLine, ∀ c ∈ line, isLineBreak c = false := by
  intro line hline c hc
  obtain ⟨item, hitem, rfl⟩ := List.mem_map.mp hline
  exact isLineBreak_of_isSpace (assignmentLine_no_space (h item hitem) c hc)

/-- The lines of a persisted document. -/
private theorem splitlines_stateText (F : Floats) (revision : Nat) (m : Affine)
    (previous : Option Affine) : splitlines (affineStateText F revision m previous) =
      "# Managed atomically by MSYS HAL touch calibration".toList ::
        (stateItems F revision m previous).map assignmentLine := by
  rw [affineStateText, splitlines_document]
  intro line hline c hc
  rcases List.mem_cons.mp hline with rfl | hline
  · simpa only [Bool.not_eq_true'] using List.all_eq_true.mp heading_no_break c hc
  · exact splitlines_items (plain_stateItems F revision m previous) line hline c hc

/-- The assignments of a written document are found in their order. -/
theorem assignments_document (F : Floats) {revision : Nat} (h : revision ≤ maxAffineRevision)
    (m : Affine) (previous : Option Affine) (filename : String) :
    assignments (requiredKeys true) filename 1 (splitlines (affineStateText F revision m previous))
      [] = .ok (stateItems F revision m previous) := by
  rw [splitlines_stateText]
  change assignments (requiredKeys true) filename 2 _ [] = _
  refine assignments_lines filename _ (plain_stateItems F revision m previous)
    (length_stateItems_le F h m previous) 2 [] ?_
  rw [List.nil_append]
  exact nodup_stateItems F revision m previous

/-- The line of the revision is the same in both documents. -/
theorem splitlines_stateText_effectiveText (F : Floats) (revision : Nat) (m : Affine)
    (previous : Option Affine) :
    (splitlines (affineStateText F revision m previous))[1]? =
      (splitlines (affineEffectiveText F revision m))[0]? := by
  have heffective : ∀ item ∈ effectiveItems F revision m, Plain (requiredKeys true) item :=
    fun item hitem => plain_stateItems F revision m previous item (List.mem_append_left _ hitem)
  rw [splitlines_stateText, affineEffectiveText, splitlines_document (splitlines_items heffective)]
  rfl

private theorem mem_stateItems {F : Floats} {revision : Nat} {m : Affine}
    {item : List Char × List Char} (h : item ∈ effectiveItems F revision m) :
    item ∈ stateItems F revision m none :=
  List.mem_append_left _ h

private theorem nodup_effectiveItems (F : Floats) (revision : Nat) (m : Affine) :
    ((effectiveItems F revision m).map Prod.fst).Nodup := by
  have h := nodup_stateItems F revision m none
  rw [stateItems, List.map_append] at h
  exact (List.nodup_append.mp h).1

/-- The assignments of an effective document are found in their order. -/
theorem assignments_effectiveText (F : Floats) {revision : Nat} (h : revision ≤ maxAffineRevision)
    (m : Affine) (filename : String) :
    assignments (requiredKeys true) filename 1 (splitlines (affineEffectiveText F revision m)) [] =
      .ok (effectiveItems F revision m) := by
  have hplain : ∀ item ∈ effectiveItems F revision m, Plain (requiredKeys true) item :=
    fun item hitem => plain_stateItems F revision m none item (mem_stateItems hitem)
  rw [affineEffectiveText, splitlines_document (splitlines_items hplain)]
  refine assignments_lines filename _ hplain
    (fun item hitem => length_stateItems_le F h m none item (mem_stateItems hitem)) 1 [] ?_
  rw [List.nil_append]
  exact nodup_effectiveItems F revision m

/-! ## Numbers -/

/-- What a matrix is written as. -/
def formatted (F : Floats) (m : Affine) : List (List Char) := m.toList.map F.format

/-- A number that passes the checks is a finite one. -/
private theorem affineNumber_float {F : Floats} {label : String} {f : PyFloat} {x : ℚ}
    (h : affineNumber F label (.float f) = .ok x) : ∃ text, f = .finite x text := by
  cases f with
  | nonFinite => exact nomatch h
  | finite y text =>
    change (if -4 ≤ y ∧ y ≤ 4 then Except.ok y else _) = Except.ok x at h
    split at h
    · cases h
      exact ⟨text, rfl⟩
    · exact nomatch h

private theorem checkAffine_ok {F : Floats} {label : String} {m m' : Affine}
    (h : checkAffine F label m = .ok m') : m' = m := by
  simp only [checkAffine] at h
  split at h
  · exact nomatch h
  · split at h
    · exact nomatch h
    · split at h
      · exact nomatch h
      · cases h
        rfl

/-- The entries of a validated matrix are its items, and they pass the checks. -/
theorem validatedAffine_ok {F : Floats} {items : List Value} {label : String} {m : Affine}
    (h : validatedAffine F (.list items) label = .ok m) :
    items.mapM (affineNumber F label) = .ok m.toList ∧ checkAffine F label m = .ok m := by
  simp only [validatedAffine] at h
  split at h
  · exact nomatch h
  · obtain ⟨entries, hentries, h⟩ := Except.bind_eq_ok_iff.mp h
    split at h
    · have heq := checkAffine_ok h
      rw [← heq] at h
      rw [hentries, heq]
      exact ⟨rfl, heq ▸ h⟩
    · exact nomatch h

/-- Numbers that are read from formatted ones are formatted as they are. -/
private theorem map_format_eq {F : Floats} {values : List (List Char × List Char)} {label : String}
    {keys : List (List Char)} {xs : List ℚ} {numbers : List PyFloat} {ys : List ℚ}
    (hvalues : List.Forall₂ (fun key text => values.lookup key = some text) keys (xs.map F.format))
    (hread : List.Forall₂ (fun key number => (values.lookup key).bind F.parse = some number) keys
      numbers)
    (hchecked : List.Forall₂ (fun number y => affineNumber F label (.float number) = .ok y) numbers
      ys) : ys.map F.format = xs.map F.format := by
  induction keys generalizing xs numbers ys with
  | nil =>
    cases hread
    cases hchecked
    rw [List.forall₂_nil_left_iff.mp hvalues, List.map_nil]
  | cons key keys ih =>
    cases hread with
    | cons hr hread =>
      cases hchecked with
      | cons hc hchecked =>
        cases xs with
        | nil => exact nomatch hvalues
        | cons x xs =>
          rw [List.map_cons, List.forall₂_cons] at hvalues
          obtain ⟨text, rfl⟩ := affineNumber_float hc
          rw [hvalues.1, Option.bind_some] at hr
          rw [List.map_cons, List.map_cons, F.format_parse _ _ _ hr, ih hvalues.2 hread hchecked]

/-- A matrix that is read from formatted numbers is formatted as they are. -/
private theorem documentMatrix_formatted {F : Floats} {values : List (List Char × List Char)}
    {keys : List (List Char)} {label complaint : String} {m m' : Affine}
    (hvalues : List.Forall₂ (fun key text => values.lookup key = some text) keys (formatted F m))
    (h : documentMatrix F values keys label complaint = .ok m') :
    formatted F m' = formatted F m := by
  simp only [documentMatrix] at h
  split at h
  · exact nomatch h
  · next numbers hnumbers =>
    have hchecked := List.forall₂_of_mapM_ok (validatedAffine_ok h).1
    rw [List.forall₂_map_left_iff] at hchecked
    exact map_format_eq hvalues (List.forall₂_of_mapM_some hnumbers) hchecked

/-! ## Reading a written document -/

private theorem intOf_toDigits (n : Nat) : intOf (Nat.toDigits 10 n) = some (n : Int) := by
  have hdigit : ∀ c ∈ Nat.toDigits 10 n, c.isDigit = true := fun c hc =>
    Nat.isDigit_of_mem_toDigits (by decide) (by decide) hc
  have hgrouped : ∀ (text : List Char) (b : Bool), (∀ c ∈ text, c.isDigit = true) →
      (text = [] → b = true) → isGrouped b text = true := by
    intro text
    induction text with
    | nil => exact fun b _ hb => hb rfl
    | cons c text ih =>
      intro b h _
      rw [isGrouped, if_pos (h c (List.mem_cons_self ..))]
      exact ih true (fun x hx => h x (List.mem_cons_of_mem _ hx)) fun _ => rfl
  have hnat : natOf (Nat.toDigits 10 n) = some n := by
    rw [natOf, if_pos (hgrouped _ _ hdigit fun h => absurd h Nat.toDigits_ne_nil),
      List.filter_eq_self.mpr hdigit, Nat.ofDigitChars_toDigits (by decide) (by decide)]
  have hspace : ∀ c ∈ Nat.toDigits 10 n, isSpace c = false := fun c hc =>
    isNumberChar_no_space (by simp only [isNumberChar, hdigit c hc, Bool.true_or])
  rw [intOf, strip_eq_self hspace]
  split
  · next digits heq => exact absurd (hdigit '-' (heq ▸ List.mem_cons_self ..)) (by decide)
  · next digits heq => exact absurd (hdigit '+' (heq ▸ List.mem_cons_self ..)) (by decide)
  · rw [hnat, Option.map_some]

private theorem lookup_of_mem {items : List (List Char × List Char)}
    (hnodup : (items.map Prod.fst).Nodup) {key text : List Char} (h : (key, text) ∈ items) :
    items.lookup key = some text := by
  obtain ⟨pre, post, rfl⟩ := List.append_of_mem h
  refine List.lookup_eq_some_iff.mpr ⟨pre, post, rfl, fun p hp => ?_⟩
  rw [List.map_append, List.nodup_append] at hnodup
  rw [bne_iff_ne]
  intro heq
  exact hnodup.2.2 p.1 (List.mem_map_of_mem hp) key (by simp) heq.symm

private theorem forall₂_matrixItems (F : Floats) {items : List (List Char × List Char)}
    (hnodup : (items.map Prod.fst).Nodup) {keys : List (List Char)} (hlen : keys.length = 9)
    (m : Affine) (h : ∀ item ∈ matrixItems F keys m, item ∈ items) :
    List.Forall₂ (fun key text => items.lookup key = some text) keys (formatted F m) := by
  rw [List.forall₂_iff_zip]
  refine ⟨?_, fun {key text} hmem => lookup_of_mem hnodup (h _ hmem)⟩
  rw [formatted, List.length_map, Vector.length_toList, hlen]

private theorem revision_in_bounds {revision : Nat} (h : revision ≤ maxAffineRevision) :
    (decide ((revision : Int) < 0) || decide ((maxAffineRevision : Int) < revision)) = false := by
  rw [Bool.or_eq_false_iff, decide_eq_false_iff_not, decide_eq_false_iff_not]
  omega

/-- A written effective document is read as its revision and what its numbers say. -/
theorem parseAffineDocument_effectiveText_eq (F : Floats) {revision : Nat}
    (h : revision ≤ maxAffineRevision) (m : Affine) (filename : String) :
    parseAffineDocument F (affineEffectiveText F revision m) false filename = do
      let matrix ← documentMatrix F (effectiveItems F revision m) affineKeys "touch affine matrix"
        "touch affine configuration contains an invalid number"
      return ⟨revision, matrix, none⟩ := by
  have hrev : (effectiveItems F revision m).lookup revisionKey = some (Nat.toDigits 10 revision) :=
    lookup_of_mem (nodup_effectiveItems F revision m) (List.mem_cons_self ..)
  rw [parseAffineDocument, assignments_effectiveText F h]
  change readAffineDocument F false filename (effectiveItems F revision m) = _
  simp only [readAffineDocument, List.filter_lookup_isNone (keys_effectiveItems F revision m),
    List.isEmpty_nil, Bool.not_true, Bool.false_and, Bool.or_self, Bool.false_eq_true, if_false,
    hrev, Option.bind_some, intOf_toDigits, revision_in_bounds h]
  rfl

/-- A written persisted document is read as its revision and what its numbers say. -/
theorem parseAffineDocument_stateText_eq (F : Floats) {revision : Nat}
    (h : revision ≤ maxAffineRevision) (m : Affine) (previous : Option Affine) (filename : String) :
    parseAffineDocument F (affineStateText F revision m previous) true filename = do
      let matrix ← documentMatrix F (stateItems F revision m previous) affineKeys
        "touch affine matrix"
        "touch affine configuration contains an invalid number"
      let decoded ← documentMatrix F (stateItems F revision m previous) undoAffineKeys
        "touch affine undo matrix" "touch affine undo contains an invalid number"
      return ⟨revision, matrix, if previous.isSome then some decoded else none⟩ := by
  have hnodup := nodup_stateItems F revision m previous
  have hrev : (stateItems F revision m previous).lookup revisionKey =
      some (Nat.toDigits 10 revision) := lookup_of_mem hnodup (List.mem_cons_self ..)
  have hflag : (stateItems F revision m previous).lookup undoValidKey =
      some (if previous.isSome then ['1'] else ['0']) :=
    lookup_of_mem hnodup (List.mem_append_right _ (List.mem_cons_self ..))
  have hkeys := keys_stateItems F revision m previous
  have hlen : (stateItems F revision m previous).length = (requiredKeys true).length := by
    rw [← hkeys, List.length_map]
  rw [parseAffineDocument, assignments_document F h]
  change readAffineDocument F true filename (stateItems F revision m previous) = _
  simp only [readAffineDocument, List.filter_lookup_isNone hkeys, List.isEmpty_nil, hlen,
    bne_self_eq_false, Bool.not_true, Bool.and_false, Bool.or_self, Bool.false_eq_true, if_false,
    hrev, Option.bind_some, intOf_toDigits, revision_in_bounds h, if_true, undoMatrix, hflag,
    Int.toNat_natCast]
  congr 1
  funext matrix
  cases previous with
  | none =>
    cases documentMatrix F _ undoAffineKeys _ _ <;> rfl
  | some p =>
    cases documentMatrix F _ undoAffineKeys _ _ <;> rfl

/-- The numbers of the assignments of a written document. -/
theorem lookup_effectiveItems (F : Floats) (revision : Nat) (m : Affine) :
    List.Forall₂ (fun key text => (effectiveItems F revision m).lookup key = some text) affineKeys
      (formatted F m) :=
  forall₂_matrixItems F (nodup_effectiveItems F revision m) rfl m
    fun _ hitem => List.mem_cons_of_mem _ hitem

theorem lookup_stateItems (F : Floats) (revision : Nat) (m : Affine) (previous : Option Affine) :
    List.Forall₂ (fun key text => (stateItems F revision m previous).lookup key = some text)
      affineKeys (formatted F m) :=
  forall₂_matrixItems F (nodup_stateItems F revision m previous) rfl m
    fun _ hitem => List.mem_append_left _ (List.mem_cons_of_mem _ hitem)

theorem lookup_stateItems_undo (F : Floats) (revision : Nat) (m : Affine)
    (previous : Option Affine) :
    List.Forall₂ (fun key text => (stateItems F revision m previous).lookup key = some text)
      undoAffineKeys (formatted F (previous.getD identityAffine)) :=
  forall₂_matrixItems F (nodup_stateItems F revision m previous) rfl _
    fun _ hitem => List.mem_append_right _ (List.mem_cons_of_mem _ hitem)

/-- What is read of a written document is formatted as what was written. -/
theorem parseAffineDocument_stateText {F : Floats} {revision : Nat}
    (h : revision ≤ maxAffineRevision) {m p : Affine} {filename : String} {doc : AffineDocument}
    (hdoc : parseAffineDocument F (affineStateText F revision m (some p)) true filename = .ok doc) :
    doc.revision = revision ∧ formatted F doc.matrix = formatted F m ∧
      ∃ p', doc.previous = some p' ∧ formatted F p' = formatted F p := by
  rw [parseAffineDocument_stateText_eq F h] at hdoc
  obtain ⟨m', hm', hdoc⟩ := Except.bind_eq_ok_iff.mp hdoc
  obtain ⟨p', hp', hdoc⟩ := Except.bind_eq_ok_iff.mp hdoc
  cases hdoc
  exact ⟨rfl, documentMatrix_formatted (lookup_stateItems F revision m (some p)) hm',
    p', rfl, documentMatrix_formatted (lookup_stateItems_undo F revision m (some p)) hp'⟩

/-- What is read of an effective document is formatted as what was written. -/
theorem parseAffineDocument_effectiveText {F : Floats} {revision : Nat}
    (h : revision ≤ maxAffineRevision) {m : Affine} {filename : String} {doc : AffineDocument}
    (hdoc : parseAffineDocument F (affineEffectiveText F revision m) false filename = .ok doc) :
    doc.revision = revision ∧ formatted F doc.matrix = formatted F m ∧ doc.previous = none := by
  rw [parseAffineDocument_effectiveText_eq F h] at hdoc
  obtain ⟨m', hm', hdoc⟩ := Except.bind_eq_ok_iff.mp hdoc
  cases hdoc
  exact ⟨rfl, documentMatrix_formatted (lookup_effectiveItems F revision m) hm', rfl⟩

private theorem matrixItems_congr {F : Floats} {m m' : Affine} (h : formatted F m = formatted F m')
    (keys : List (List Char)) : matrixItems F keys m = matrixItems F keys m' := by
  rw [matrixItems, matrixItems]
  exact congrArg _ h

/-- An effective document depends only on how its numbers are formatted. -/
theorem affineEffectiveText_congr {F : Floats} {m m' : Affine} (h : formatted F m = formatted F m')
    (revision : Nat) : affineEffectiveText F revision m = affineEffectiveText F revision m' := by
  simp only [affineEffectiveText, effectiveItems, matrixItems_congr h]

/-- A persisted document depends only on how its numbers are formatted. -/
theorem affineStateText_congr {F : Floats} {m m' p p' : Affine}
    (hm : formatted F m = formatted F m') (hp : formatted F p = formatted F p') (revision : Nat) :
    affineStateText F revision m (some p) = affineStateText F revision m' (some p') := by
  simp only [affineStateText, stateItems, effectiveItems, Option.isSome_some, Option.getD_some,
    matrixItems_congr hm, matrixItems_congr hp]

namespace Sample

/-- `float(text)` on the texts of `0`, `0.5` and `1`. -/
def parse : List Char → Option PyFloat
  | ['0'] => some (.finite 0 "0.0")
  | ['1'] => some (.finite 1 "1.0")
  | ['0', '.', '5'] => some (.finite (1 / 2) "0.5")
  | _ => none

/-- `format(x, ".12g")` on `0`, `0.5` and `1`. -/
def format (x : ℚ) : List Char :=
  if x = 1 then ['1'] else if x = 1 / 2 then ['0', '.', '5'] else ['0']

private theorem format_cases (x : ℚ) :
    format x = ['1'] ∨ format x = ['0', '.', '5'] ∨ format x = ['0'] := by
  rw [format]
  split_ifs
  · exact .inl rfl
  · exact .inr (.inl rfl)
  · exact .inr (.inr rfl)

private theorem format_ne_nil (x : ℚ) : format x ≠ [] := by
  rcases format_cases x with h | h | h <;> rw [h] <;> decide

private theorem length_format_le (x : ℚ) : (format x).length ≤ 48 := by
  rcases format_cases x with h | h | h <;> rw [h] <;> decide

private theorem isNumberChar_format (x : ℚ) (c : Char) (hc : c ∈ format x) :
    isNumberChar c = true := by
  rcases format_cases x with h | h | h <;> rw [h] at hc <;>
    simp only [List.mem_cons, List.not_mem_nil, or_false] at hc
  · subst hc
    decide
  · rcases hc with rfl | rfl | rfl <;> decide
  · subst hc
    decide

private theorem format_parse (x y : ℚ) (text : String)
    (hparse : parse (format x) = some (.finite y text)) : format y = format x := by
  rcases format_cases x with h | h | h <;> rw [h] at hparse ⊢ <;> cases hparse <;> decide +kernel

/-- Floating point on `0`, `0.5` and `1`. -/
def floats : Floats where
  ofInt n := some n
  parse := parse
  round x := x
  format := format
  format_ne_nil := format_ne_nil
  length_format_le := length_format_le
  isNumberChar_format := isNumberChar_format
  format_parse := format_parse

end Sample

end MsysHal.Ch347
