import MsysHal.ForStd.Except
import MsysHal.ForStd.List
import MsysHal.Spec.SinkLog

/-!
# Cuts of a sample line

A line of the sink log may be read before it is finished, and the bound of the tail may
have cut its start off. The readers go from field to field, so what is read of a fragment
is what is read of the whole line, apart from the field that the fragment ends in. That
can only be the last one, and a line that has lost its start is not read at all.

## Key results

- `debugLine_torn`, `dirtyStatsLine_torn`: a fragment that can be read is cut inside of the
  last field of its line
- `debugLine_cut`, `dirtyStatsLine_cut`: a line can be read without its start only if that
  is white space
- `SinkText.lines_eq`: the lines of a log without other line breaks end in newlines
-/

namespace MsysHal.Ch347

/-! ## Fields -/

section Fields

variable {input rest digits text name : List Char}

theorem literal_eq (h : literal text input = some rest) : input = text ++ rest := by
  rw [literal] at h
  split at h
  · next hstart =>
    obtain rfl := Option.some.inj h
    exact List.prefix_iff_eq_append.mp (List.isPrefixOf_iff_prefix.mp hstart) |>.symm
  · exact nomatch h

theorem literal_append (text rest : List Char) : literal text (text ++ rest) = some rest := by
  rw [literal, if_pos (List.isPrefixOf_iff_prefix.mpr (List.prefix_append text rest)),
    List.drop_left]

theorem digitRun_eq {most : Nat} (h : digitRun most input = some (digits, rest)) :
    input = digits ++ rest ∧ ∀ c ∈ digits, c.isDigit = true := by
  rw [digitRun] at h
  split at h
  · cases h
    exact ⟨List.takeWhile_append_dropWhile.symm, fun c hc => List.mem_takeWhile_imp hc⟩
  · exact nomatch h

/-- Digits that end inside of the input are the same when it goes on. -/
theorem digitRun_append {most : Nat} (h : digitRun most input = some (digits, rest))
    (hrest : rest ≠ [])
    (more : List Char) : digitRun most (input ++ more) = some (digits, rest ++ more) := by
  rw [digitRun] at h ⊢
  split at h
  · next hlength =>
    cases h
    have htake : (input ++ more).takeWhile Char.isDigit = input.takeWhile Char.isDigit := by
      rw [List.takeWhile_append, if_neg]
      intro hall
      refine hrest (List.dropWhile_eq_nil_iff.mpr ?_)
      rw [← List.takeWhile_eq_self_iff]
      exact (List.takeWhile_prefix _).eq_of_length hall
    rw [htake, if_pos hlength, List.dropWhile_append, if_neg (by simpa using hrest)]
  · exact nomatch h

/-- A number of a rate, with the characters it may have. -/
def isRateChar (c : Char) : Bool := c.isDigit || c == '.'

theorem decimalRun_eq {most : Nat} (h : decimalRun most input = some (text, rest)) :
    input = text ++ rest ∧ ∀ c ∈ text, isRateChar c = true := by
  have hdigit {digits : List Char} (hd : ∀ c ∈ digits, c.isDigit = true) :
      ∀ c ∈ digits, isRateChar c = true := fun c hc => by rw [isRateChar, hd c hc, Bool.true_or]
  obtain ⟨⟨whole, after⟩, hwhole, hnext⟩ := Option.bind_eq_some_iff.mp h
  obtain ⟨heq, hw⟩ := digitRun_eq hwhole
  dsimp only at hnext
  split at hnext
  · obtain ⟨⟨fraction, last⟩, hfraction, hend⟩ := Option.bind_eq_some_iff.mp hnext
    obtain ⟨rfl, hf⟩ := digitRun_eq hfraction
    cases hend
    refine ⟨by rw [heq, List.append_assoc, List.cons_append], ?_⟩
    rw [List.forall_mem_append, List.forall_mem_cons]
    exact ⟨hdigit hw, rfl, hdigit hf⟩
  · cases hnext
    exact ⟨heq, hdigit hw⟩

/-- A number that ends inside of the input is the same when it goes on. -/
theorem decimalRun_append {most : Nat} (h : decimalRun most input = some (text, rest))
    (hrest : rest ≠ [])
    (more : List Char) : decimalRun most (input ++ more) = some (text, rest ++ more) := by
  obtain ⟨⟨whole, after⟩, hwhole, hnext⟩ := Option.bind_eq_some_iff.mp h
  dsimp only at hnext
  split at hnext
  · next fraction =>
    obtain ⟨⟨places, last⟩, hfraction, hend⟩ := Option.bind_eq_some_iff.mp hnext
    cases hend
    rw [decimalRun, digitRun_append hwhole (List.cons_ne_nil _ _) more]
    change (digitRun 3 (fraction ++ more)).bind _ = _
    rw [digitRun_append hfraction hrest more]
    rfl
  · next hpoint =>
    cases hnext
    rw [decimalRun, digitRun_append hwhole hrest more]
    obtain ⟨c, tail, rfl⟩ := List.exists_cons_of_ne_nil hrest
    simp only [Option.bind_eq_bind, Option.bind_some, List.cons_append]
    split
    · next heq =>
      cases heq
      exact absurd rfl (hpoint tail)
    · rfl

/-- A field that is read with its name. -/
theorem field_eq {run : List Char → Option (List Char × List Char)} {P : Char → Prop}
    (hrun : ∀ {input text rest}, run input = some (text, rest) →
      input = text ++ rest ∧ ∀ c ∈ text, P c)
    (h : (literal name input >>= run) = some (text, rest)) :
    input = name ++ (text ++ rest) ∧ ∀ c ∈ text, P c := by
  obtain ⟨after, hname, hread⟩ := Option.bind_eq_some_iff.mp h
  obtain ⟨rfl, htext⟩ := hrun hread
  exact ⟨literal_eq hname, htext⟩

theorem field_append {run : List Char → Option (List Char × List Char)}
    (hrun : ∀ {input text rest}, run input = some (text, rest) → rest ≠ [] →
      ∀ more, run (input ++ more) = some (text, rest ++ more))
    (h : (literal name input >>= run) = some (text, rest)) (hrest : rest ≠ []) (more : List Char) :
    (literal name (input ++ more) >>= run) = some (text, rest ++ more) := by
  obtain ⟨after, hname, hread⟩ := Option.bind_eq_some_iff.mp h
  obtain rfl := literal_eq hname
  rw [List.append_assoc, literal_append]
  exact hrun hread hrest more

/-- Before a field there is something left. -/
theorem field_ne_nil {α : Type} {run : List Char → Option α} {x : α} (hname : name ≠ [])
    (h : (literal name input >>= run) = some x) : input ≠ [] := by
  obtain ⟨after, hname', -⟩ := Option.bind_eq_some_iff.mp h
  rintro rfl
  exact hname (List.append_eq_nil_iff.mp (literal_eq hname').symm).1

/-- Two texts agree up to the first mark in each of them. -/
theorem start_append {start first first' rest rest' : List Char} (hstart : start.count '=' = 0)
    (hfirst : first.count '=' = 0) (hfirst' : first'.count '=' = 0)
    (h : first' ++ ['='] ++ rest' = start ++ (first ++ ['='] ++ rest)) :
    start ++ first = first' := by
  have hmark {text : List Char} (htext : text.count '=' = 0) (more : List Char) :
      (text ++ ['='] ++ more).takeWhile (· != '=') = text := by
    rw [List.append_assoc, List.takeWhile_append_of_pos]
    · simp
    · intro c hc
      rw [bne_iff_ne]
      rintro rfl
      exact List.count_eq_zero.mp htext hc
  have hcount : (start ++ first).count '=' = 0 := by rw [List.count_append, hstart, hfirst]
  rw [← hmark hcount rest, ← hmark hfirst' rest', h]
  simp only [List.append_assoc]

end Fields

/-! ## White space around a line -/

section Strip

/-- What is stripped of a text that goes on starts with what is stripped of the text. -/
theorem strip_append_prefix {text : List Char} (h : strip text ≠ []) (more : List Char) :
    ∃ tail, strip (text ++ more) = strip text ++ tail := by
  have hstart : text.dropWhile isSpace ≠ [] := fun hnil => h (by rw [strip, hnil]; rfl)
  have hend := List.rdropWhile_append_rtakeWhile (p := isSpace) (l := text.dropWhile isSpace)
  rw [strip, strip, List.dropWhile_append, if_neg (by simpa using hstart)]
  by_cases hmore : ∀ c ∈ more, isSpace c = true
  · exact ⟨[], by rw [List.rdropWhile_append_of_pos _ hmore, List.append_nil]⟩
  · refine ⟨(text.dropWhile isSpace).rtakeWhile isSpace ++ more.rdropWhile isSpace, ?_⟩
    rw [List.rdropWhile_append_of_neg _ hmore, ← List.append_assoc, hend]

/-- What is stripped of a text ends with what is stripped of a part that ends it. -/
theorem strip_append_suffix {text : List Char} (h : strip text ≠ []) (start : List Char) :
    ∃ head, strip (start ++ text) = head ++ strip text := by
  have hspace : ¬ ∀ c ∈ text, isSpace c = true := fun hall => h (by
    rw [strip, List.dropWhile_eq_nil_iff.mpr hall]
    rfl)
  have hstart : ¬ ∀ c ∈ text.dropWhile isSpace, isSpace c = true := fun hall => h (by
    rw [strip, List.rdropWhile_eq_nil_iff]
    exact hall)
  have hend := List.takeWhile_append_dropWhile (p := isSpace) (l := text)
  rw [strip, strip, List.dropWhile_append]
  split
  · exact ⟨[], rfl⟩
  · refine ⟨start.dropWhile isSpace ++ text.takeWhile isSpace, ?_⟩
    rw [List.rdropWhile_append_of_neg _ hspace, List.append_assoc,
      ← List.rdropWhile_append_of_neg _ hstart, hend]

end Strip

/-! ## Samples -/

section Samples

variable {line frames panel observed : List Char}

/-- What follows the first word of a sample line. -/
def sampleStart (line : List Char) : Option (List Char) :=
  literal "dirty".toList line <|> literal "rect".toList line

theorem sampleStart_eq {rest : List Char} (h : sampleStart line = some rest) :
    line = "dirty".toList ++ rest ∨ line = "rect".toList ++ rest := by
  rw [sampleStart] at h
  cases hdirty : literal "dirty".toList line with
  | some after =>
    rw [hdirty] at h
    obtain rfl := Option.some.inj h
    exact .inl (literal_eq hdirty)
  | none =>
    rw [hdirty] at h
    exact .inr (literal_eq h)

theorem sampleStart_append {rest : List Char} (h : sampleStart line = some rest)
    (more : List Char) : sampleStart (line ++ more) = some (rest ++ more) := by
  rcases sampleStart_eq h with rfl | rfl
  · rw [sampleStart, List.append_assoc, literal_append]
    rfl
  · rw [sampleStart, List.append_assoc, literal_append]
    rfl

/-- The fields of a sample line, each with what is left behind it. -/
structure SampleFields (line frames panel observed : List Char) : Prop where
  fields : ∃ start captured drop rects dirty r₁ r₂ r₃ r₄ r₅ r₆,
    sampleStart line = some start ∧
    (literal " frame=".toList start >>= digitRun 10) = some (frames, r₁) ∧
    (literal " captured=".toList r₁ >>= digitRun 10) = some (captured, r₂) ∧
    (literal " drop=".toList r₂ >>= digitRun 10) = some (drop, r₃) ∧
    (literal " sent_rects=".toList r₃ >>= digitRun 3) = some (rects, r₄) ∧
    (literal " dirty=".toList r₄ >>= decimalRun 3) = some (dirty, r₅) ∧
    (literal "% bus_fps=".toList r₅ >>= decimalRun 6) = some (panel, r₆) ∧
    (literal " out_fps=".toList r₆ >>= decimalRun 6) = some (observed, [])

theorem matchDebugSample_iff :
    matchDebugSample line = some (frames, panel, observed) ↔
      SampleFields line frames panel observed := by
  constructor
  · intro h
    obtain ⟨start, hstart, h⟩ := Option.bind_eq_some_iff.mp h
    obtain ⟨⟨f, r₁⟩, hf, h⟩ := Option.bind_eq_some_iff.mp h
    obtain ⟨⟨captured, r₂⟩, hcaptured, h⟩ := Option.bind_eq_some_iff.mp h
    obtain ⟨⟨drop, r₃⟩, hdrop, h⟩ := Option.bind_eq_some_iff.mp h
    obtain ⟨⟨rects, r₄⟩, hrects, h⟩ := Option.bind_eq_some_iff.mp h
    obtain ⟨⟨dirty, r₅⟩, hdirty, h⟩ := Option.bind_eq_some_iff.mp h
    obtain ⟨⟨p, r₆⟩, hp, h⟩ := Option.bind_eq_some_iff.mp h
    obtain ⟨⟨o, last⟩, ho, h⟩ := Option.bind_eq_some_iff.mp h
    dsimp only at hcaptured hdrop hrects hdirty hp ho h
    split at h
    · next hlast =>
      rw [List.isEmpty_iff] at hlast
      subst hlast
      cases h
      exact ⟨start, captured, drop, rects, dirty, r₁, r₂, r₃, r₄, r₅, r₆, hstart, hf, hcaptured,
        hdrop, hrects, hdirty, hp, ho⟩
    · exact nomatch h
  · rintro ⟨start, captured, drop, rects, dirty, r₁, r₂, r₃, r₄, r₅, r₆, hstart, hf, hcaptured,
      hdrop, hrects, hdirty, hp, ho⟩
    rw [sampleStart] at hstart
    rw [Option.bind_eq_bind] at hf hcaptured hdrop hrects hdirty hp ho
    simp only [matchDebugSample, hstart, hf, hcaptured, hdrop, hrects, hdirty, hp, ho,
      Option.bind_eq_bind, Option.bind_some, List.isEmpty_nil, if_true]

/-- A sample line that goes on is one with the same fields but for the last. -/
theorem SampleFields.append {frames' panel' observed' more : List Char}
    (h : SampleFields line frames panel observed)
    (h' : SampleFields (line ++ more) frames' panel' observed') :
    frames' = frames ∧ panel' = panel ∧ observed' = observed ++ more := by
  obtain ⟨start, captured, drop, rects, dirty, r₁, r₂, r₃, r₄, r₅, r₆, hstart, hf, hcaptured, hdrop,
    hrects, hdirty, hp, ho⟩ := h.fields
  obtain ⟨start', captured', drop', rects', dirty', r₁', r₂', r₃', r₄', r₅', r₆', hstart', hf',
    hcaptured', hdrop', hrects', hdirty', hp', ho'⟩ := h'.fields
  rw [sampleStart_append hstart more] at hstart'
  cases hstart'
  rw [field_append digitRun_append hf (field_ne_nil (by decide) hcaptured) more] at hf'
  cases hf'
  rw [field_append digitRun_append hcaptured (field_ne_nil (by decide) hdrop) more] at hcaptured'
  cases hcaptured'
  rw [field_append digitRun_append hdrop (field_ne_nil (by decide) hrects) more] at hdrop'
  cases hdrop'
  rw [field_append digitRun_append hrects (field_ne_nil (by decide) hdirty) more] at hrects'
  cases hrects'
  rw [field_append decimalRun_append hdirty (field_ne_nil (by decide) hp) more] at hdirty'
  cases hdirty'
  rw [field_append decimalRun_append hp (field_ne_nil (by decide) ho) more] at hp'
  cases hp'
  refine ⟨rfl, rfl, ?_⟩
  obtain ⟨rfl, -⟩ := field_eq decimalRun_eq ho
  rw [List.append_nil, List.append_assoc] at ho'
  have heq := (field_eq decimalRun_eq ho').1
  rw [List.append_cancel_left_eq, List.append_nil] at heq
  exact heq.symm

theorem count_eq_zero_of_digits (h : ∀ c ∈ line, isRateChar c = true) : line.count '=' = 0 :=
  List.count_eq_zero.mpr fun hmem => absurd (h '=' hmem) (by decide)

/-- A sample line has one of two starts and its seven fields, the last of which ends it. -/
theorem SampleFields.eq (h : SampleFields line frames panel observed) :
    ("dirty frame=".toList <+: line ∨ "rect frame=".toList <+: line) ∧ line.count '=' = 7 ∧
      (∀ c ∈ observed, isRateChar c = true) ∧
        ∃ before, line = before ++ " out_fps=".toList ++ observed := by
  obtain ⟨start, captured, drop, rects, dirty, r₁, r₂, r₃, r₄, r₅, r₆, hstart, hf, hcaptured, hdrop,
    hrects, hdirty, hp, ho⟩ := h.fields
  have hdigit {digits : List Char} (hd : ∀ c ∈ digits, c.isDigit = true) : digits.count '=' = 0 :=
    count_eq_zero_of_digits fun c hc => by rw [isRateChar, hd c hc, Bool.true_or]
  -- Each of the seven fields is its mark and its characters, which hold no mark.
  obtain ⟨rfl, hfc⟩ := field_eq digitRun_eq hf
  obtain ⟨rfl, hcapturedc⟩ := field_eq digitRun_eq hcaptured
  obtain ⟨rfl, hdropc⟩ := field_eq digitRun_eq hdrop
  obtain ⟨rfl, hrectsc⟩ := field_eq digitRun_eq hrects
  obtain ⟨rfl, hdirtyc⟩ := field_eq decimalRun_eq hdirty
  obtain ⟨rfl, hpc⟩ := field_eq decimalRun_eq hp
  obtain ⟨rfl, hoc⟩ := field_eq decimalRun_eq ho
  have hsame : ∀ word : List Char, word.count '=' = 0 → line =
      word ++ (" frame=".toList ++ (frames ++
      (" captured=".toList ++ (captured ++ (" drop=".toList ++ (drop ++ (" sent_rects=".toList ++
        (rects ++ (" dirty=".toList ++ (dirty ++ ("% bus_fps=".toList ++ (panel ++
          (" out_fps=".toList ++ (observed ++ [])))))))))))))) →
      line.count '=' = 7 ∧ ∃ before, line = before ++ " out_fps=".toList ++ observed := by
    -- All seven marks are in the line, and the last field ends it.
    rintro word hword rfl
    refine ⟨?_, ?_⟩
    · simp only [List.count_append, hword, hdigit hfc, hdigit hcapturedc, hdigit hdropc,
        hdigit hrectsc, count_eq_zero_of_digits hdirtyc, count_eq_zero_of_digits hpc,
        count_eq_zero_of_digits hoc]
      decide
    · refine ⟨word ++ (" frame=".toList ++ (frames ++ (" captured=".toList ++ (captured ++
        (" drop=".toList ++ (drop ++ (" sent_rects=".toList ++ (rects ++ (" dirty=".toList ++
          (dirty ++ ("% bus_fps=".toList ++ panel))))))))))), ?_⟩
      simp only [List.append_assoc, List.append_nil]
  -- The line starts with one of the two words.
  rcases sampleStart_eq hstart with heq | heq
  · obtain ⟨hcount, hbefore⟩ := hsame "dirty".toList (by decide) heq
    refine ⟨.inl ?_, hcount, hoc, hbefore⟩
    rw [heq, ← List.append_assoc]
    exact List.prefix_append _ _
  · obtain ⟨hcount, hbefore⟩ := hsame "rect".toList (by decide) heq
    refine ⟨.inr ?_, hcount, hoc, hbefore⟩
    rw [heq, ← List.append_assoc]
    exact List.prefix_append _ _

/-- A sample line does not begin inside of another one. -/
theorem SampleFields.start {frames' panel' observed' start : List Char}
    (h : SampleFields line frames panel observed)
    (h' : SampleFields (start ++ line) frames' panel' observed') : start = [] := by
  obtain ⟨hfirst, hcount, -, -⟩ := h.eq
  obtain ⟨hfirst', hcount', -, -⟩ := h'.eq
  have hstart : start.count '=' = 0 := by
    rw [List.count_append] at hcount'
    omega
  have hdirty : "dirty frame=".toList = "dirty frame".toList ++ ['='] := by decide
  have hrect : "rect frame=".toList = "rect frame".toList ++ ['='] := by decide
  rw [hdirty, hrect] at hfirst hfirst'
  rcases hfirst with ⟨rest, rfl⟩ | ⟨rest, rfl⟩
  · rcases hfirst' with ⟨rest', heq⟩ | ⟨rest', heq⟩
    · exact List.append_left_eq_self.mp (start_append hstart (by decide) (by decide) heq)
    · exact absurd ⟨start, start_append hstart (by decide) (by decide) heq⟩
        (by decide : ¬ "dirty frame".toList <:+ "rect frame".toList)
  · rcases hfirst' with ⟨rest', heq⟩ | ⟨rest', heq⟩
    · exact absurd ⟨start, start_append hstart (by decide) (by decide) heq⟩
        (by decide : ¬ "rect frame".toList <:+ "dirty frame".toList)
    · exact List.append_left_eq_self.mp (start_append hstart (by decide) (by decide) heq)

/-- The fields of a line that is read, and what is made of them. -/
theorem debugLine_fields {F : Floats} {raw : List Char} {sample : DebugSample}
    (h : debugLine F raw = some sample) : ∃ frames panel observed,
      SampleFields (strip raw) frames panel observed ∧ rate F panel = some sample.panelFps ∧
        rate F observed = some sample.observedFps ∧
        Nat.ofDigitChars 10 frames 0 = sample.frames := by
  obtain ⟨⟨frames, panel, observed⟩, hmatch, hnext⟩ := Option.bind_eq_some_iff.mp h
  obtain ⟨panelFps, hpanel, hnext⟩ := Option.bind_eq_some_iff.mp hnext
  obtain ⟨observedFps, hobserved, hnext⟩ := Option.bind_eq_some_iff.mp hnext
  dsimp only at hnext
  split at hnext
  · cases hnext
  · cases hnext
    exact ⟨frames, panel, observed, matchDebugSample_iff.mp hmatch, hpanel, hobserved, rfl⟩

/-- A sample line that is not finished can be read as a sample only if it is cut inside of
    its last field: all that it says but the rate of the panel is what its line says. -/
theorem debugLine_torn {F : Floats} {fragment more : List Char} {sample sample' : DebugSample}
    (h : debugLine F fragment = some sample) (h' : debugLine F (fragment ++ more) = some sample') :
    sample.frames = sample'.frames ∧ sample.panelFps = sample'.panelFps ∧
      ∃ before observed tail, (∀ c ∈ observed ++ tail, isRateChar c = true) ∧
        strip fragment = before ++ " out_fps=".toList ++ observed ∧
        strip (fragment ++ more) = before ++ " out_fps=".toList ++ (observed ++ tail) ∧
        rate F observed = some sample.observedFps ∧
        rate F (observed ++ tail) = some sample'.observedFps := by
  obtain ⟨frames, panel, observed, hfields, hpanel, hobserved, hframes⟩ := debugLine_fields h
  obtain ⟨frames', panel', observed', hfields', hpanel', hobserved', hframes'⟩ :=
    debugLine_fields h'
  obtain ⟨-, hcount, -, before, hbefore⟩ := hfields.eq
  have hne : strip fragment ≠ [] := by
    intro hnil
    rw [hnil] at hcount
    cases hcount
  obtain ⟨tail, htail⟩ := strip_append_prefix hne more
  have hrate := hfields'.eq.2.2.1
  rw [htail] at hfields'
  obtain ⟨rfl, rfl, rfl⟩ := hfields.append hfields'
  rw [hpanel] at hpanel'
  refine ⟨hframes.symm.trans hframes', Option.some.inj hpanel', before, observed, tail, hrate,
    hbefore, ?_, hobserved, hobserved'⟩
  rw [htail, hbefore, List.append_assoc]

/-- A sample line that has lost its start can be read as a sample only if that is white
    space. -/
theorem debugLine_cut {F : Floats} {start fragment : List Char} {sample sample' : DebugSample}
    (h : debugLine F fragment = some sample) (h' : debugLine F (start ++ fragment) = some sample') :
    strip (start ++ fragment) = strip fragment ∧ sample = sample' := by
  obtain ⟨frames, panel, observed, hfields, -⟩ := debugLine_fields h
  obtain ⟨frames', panel', observed', hfields', -⟩ := debugLine_fields h'
  have hne : strip fragment ≠ [] := by
    intro hnil
    have hcount := hfields.eq.2.1
    rw [hnil] at hcount
    cases hcount
  obtain ⟨head, hhead⟩ := strip_append_suffix hne start
  rw [hhead] at hfields'
  obtain rfl := hfields.start hfields'
  rw [List.nil_append] at hhead
  refine ⟨hhead, ?_⟩
  rw [debugLine, hhead] at h'
  rw [debugLine, h'] at h
  exact (Option.some.inj h).symm

end Samples

/-! ## Counters -/

section Counters

variable {names : List String} {values : List (List Char)} {input line : List Char}

/-- The fields of a line of counters. -/
def fieldsText (names : List String) (values : List (List Char)) : List Char :=
  (names.zip values).flatMap fun field => ' ' :: field.1.toList ++ ['='] ++ field.2

theorem matchFields_eq (h : matchFields names input = some values) :
    values.length = names.length ∧ input = fieldsText names values := by
  induction names generalizing input values with
  | nil =>
    rw [matchFields] at h
    split at h
    · next hempty =>
      cases h
      exact ⟨rfl, List.isEmpty_iff.mp hempty⟩
    · cases h
  | cons name names ih =>
    obtain ⟨rest, hname, hnext⟩ := Option.bind_eq_some_iff.mp h
    dsimp only at hnext
    split at hnext
    · cases hnext
    · obtain ⟨values, hvalues, rfl⟩ := Option.map_eq_some_iff.mp hnext
      obtain ⟨hlength, heq⟩ := ih hvalues
      refine ⟨congrArg Nat.succ hlength, ?_⟩
      rw [fieldsText, List.zip_cons_cons, List.flatMap_cons, ← fieldsText, ← heq,
        List.append_assoc, List.takeWhile_append_dropWhile]
      exact literal_eq hname

/-- Fields that go on have the same values but for the last one. -/
theorem matchFields_append {more : List Char} {values' : List (List Char)} (hnames : names ≠ [])
    (h : matchFields names input = some values)
    (h' : matchFields names (input ++ more) = some values') :
    ∃ before last, values = before ++ [last] ∧ values' = before ++ [last ++ more] := by
  -- Induction on the names; all fields but the last end at a space in both lines.
  induction names generalizing input values values' with
  | nil => exact absurd rfl hnames
  | cons name names ih =>
    obtain ⟨rest, hname, hnext⟩ := Option.bind_eq_some_iff.mp h
    obtain ⟨rest', hname', hnext'⟩ := Option.bind_eq_some_iff.mp h'
    rw [literal_eq hname, List.append_assoc, literal_append] at hname'
    cases hname'
    dsimp only at hnext hnext'
    split at hnext
    · cases hnext
    split at hnext'
    · cases hnext'
    obtain ⟨values, hvalues, rfl⟩ := Option.map_eq_some_iff.mp hnext
    -- The last field takes all that is left, so it ends with the text that follows.
    obtain ⟨values', hvalues', rfl⟩ := Option.map_eq_some_iff.mp hnext'
    cases names with
    | nil =>
      obtain ⟨hlength, hrest⟩ := matchFields_eq hvalues
      obtain ⟨hlength', hrest'⟩ := matchFields_eq hvalues'
      obtain rfl := List.length_eq_zero_iff.mp hlength
      obtain rfl := List.length_eq_zero_iff.mp hlength'
      -- Behind this field there is a space, so the text that follows does not reach it.
      refine ⟨[], rest, ?_, ?_⟩
      · rw [List.takeWhile_eq_self_iff.mpr (List.dropWhile_eq_nil_iff.mp hrest), List.nil_append]
      · rw [List.takeWhile_eq_self_iff.mpr (List.dropWhile_eq_nil_iff.mp hrest'), List.nil_append]
    | cons next names =>
      have hrest : rest.dropWhile (!isSpace ·) ≠ [] := by
        intro hnil
        rw [hnil] at hvalues
        cases hvalues
      have htake : (rest ++ more).takeWhile (!isSpace ·) = rest.takeWhile (!isSpace ·) := by
        rw [List.takeWhile_append, if_neg]
        intro hall
        refine hrest (List.dropWhile_eq_nil_iff.mpr ?_)
        rw [← List.takeWhile_eq_self_iff]
        exact (List.takeWhile_prefix _).eq_of_length hall
      rw [List.dropWhile_append, if_neg (by simpa using hrest)] at hvalues'
      obtain ⟨before, last, rfl, rfl⟩ := ih (List.cons_ne_nil _ _) hvalues hvalues'
      exact ⟨rest.takeWhile (!isSpace ·) :: before, last, rfl, by rw [htake]; rfl⟩

theorem count_fieldsText (hlength : values.length = names.length)
    (hnames : ∀ name ∈ names, name.toList.count '=' = 0)
    (hvalues : ∀ value ∈ values, value.count '=' = 0) :
    (fieldsText names values).count '=' = names.length := by
  induction names generalizing values with
  | nil =>
    rw [List.length_eq_zero_iff.mp hlength]
    rfl
  | cons name names ih =>
    obtain ⟨value, values, rfl⟩ := List.exists_cons_of_length_eq_add_one hlength
    rw [List.forall_mem_cons] at hnames hvalues
    have hrest := ih (Nat.succ.inj hlength) hnames.2 hvalues.2
    rw [fieldsText] at hrest ⊢
    rw [List.zip_cons_cons, List.flatMap_cons, List.count_append, hrest]
    simp [hnames.1, hvalues.1, Nat.add_comm]

theorem count_of_counter {text : List Char} {n : Nat} (h : counter text = some n) :
    text.count '=' = 0 := by
  rw [counter] at h
  split at h
  · next hdigits =>
    rw [Bool.and_eq_true, Bool.and_eq_true, List.all_eq_true] at hdigits
    exact count_eq_zero_of_digits fun c hc => by rw [isRateChar, hdigits.1.2 c hc, Bool.true_or]
  · cases h

theorem mapM_counter_singleton {text : List Char} {counters : List Nat}
    (h : [text].mapM counter = some counters) : ∃ n, counter text = some n ∧ counters = [n] := by
  cases List.forall₂_of_mapM_some h with
  | cons hcounter hnil =>
    cases hnil
    exact ⟨_, hcounter, rfl⟩

theorem dirtyCounters_groups {values : List (String × Nat)} (h : dirtyCounters line = some values) :
    ∃ rest groups counters, line = "dirty_stats".toList ++ rest ∧
      matchFields ("frame" :: dirtyStatsFields) rest = some groups ∧
      groups.mapM counter = some counters ∧ values = dirtyStatsFields.zip counters.tail := by
  obtain ⟨groups, hgroups, hnext⟩ := Option.bind_eq_some_iff.mp h
  obtain ⟨counters, hcounters, hend⟩ := Option.bind_eq_some_iff.mp hnext
  obtain ⟨rest, hrest, hfields⟩ := Option.bind_eq_some_iff.mp hgroups
  exact ⟨rest, groups, counters, literal_eq hrest, hfields, hcounters, (Option.some.inj hend).symm⟩

/-- Counters that go on are the same but for the last one. -/
theorem dirtyCounters_append {more : List Char} {values values' : List (String × Nat)}
    (h : dirtyCounters line = some values) (h' : dirtyCounters (line ++ more) = some values') :
    ∃ before last shared n n', line = before ++ " last_rects=".toList ++ last ∧
      counter last = some n ∧ counter (last ++ more) = some n' ∧
      values = shared ++ [("last_rects", n)] ∧ values' = shared ++ [("last_rects", n')] := by
  obtain ⟨rest, groups, counters, rfl, hfields, hcounters, rfl⟩ := dirtyCounters_groups h
  obtain ⟨rest', groups', counters', hrest, hfields', hcounters', rfl⟩ := dirtyCounters_groups h'
  -- Both lines start with the same fields; only the last group can differ.
  rw [List.append_assoc, List.append_cancel_left_eq] at hrest
  subst hrest
  obtain ⟨hlength, htext⟩ := matchFields_eq hfields
  obtain ⟨before, last, rfl, rfl⟩ := matchFields_append (List.cons_ne_nil _ _) hfields hfields'
  rw [List.mapM_append] at hcounters hcounters'
  obtain ⟨shared, hshared, hnext⟩ := Option.bind_eq_some_iff.mp hcounters
  obtain ⟨shared', hshared', hnext'⟩ := Option.bind_eq_some_iff.mp hcounters'
  rw [hshared] at hshared'
  cases hshared'
  obtain ⟨ns, hn, hend⟩ := Option.bind_eq_some_iff.mp hnext
  obtain ⟨ns', hn', hend'⟩ := Option.bind_eq_some_iff.mp hnext'
  cases hend
  cases hend'
  obtain ⟨n, hcounter, rfl⟩ := mapM_counter_singleton hn
  obtain ⟨n', hcounter', rfl⟩ := mapM_counter_singleton hn'
  have hbefore : before.length = 7 := by simpa [dirtyStatsFields] using hlength
  -- The frame and seven counters, the last of which is split off.
  have hcount : shared.length = 7 := by
    rw [← (List.forall₂_of_mapM_some hshared).length_eq, hbefore]
  obtain ⟨first, shared, rfl⟩ := List.exists_cons_of_length_eq_add_one hcount
  have hsix : dirtyStatsFields.dropLast.length = shared.length := (Nat.succ.inj hcount).symm
  have hnames : dirtyStatsFields = dirtyStatsFields.dropLast ++ ["last_rects"] := by decide
  have hzip (n : Nat) : dirtyStatsFields.zip (first :: shared ++ [n]).tail =
      dirtyStatsFields.dropLast.zip shared ++ [("last_rects", n)] := by
    rw [List.cons_append, List.tail_cons]
    conv_lhs => rw [hnames, List.zip_append hsix]
    rfl
  refine ⟨"dirty_stats".toList ++ fieldsText ("frame" :: dirtyStatsFields.dropLast) before, last,
    dirtyStatsFields.dropLast.zip shared, n, n', ?_, hcounter, hcounter', hzip n, hzip n'⟩
  have hseven : ("frame" :: dirtyStatsFields.dropLast).length = before.length := hbefore.symm
  rw [htext, fieldsText, fieldsText]
  conv_lhs => rw [hnames, ← List.cons_append, List.zip_append hseven, List.flatMap_append]
  simp

theorem dirtyCounters_marks {values : List (String × Nat)} (h : dirtyCounters line = some values) :
    line.count '=' = 8 ∧ "dirty_stats frame=".toList <+: line := by
  obtain ⟨rest, groups, counters, rfl, hfields, hcounters, -⟩ := dirtyCounters_groups h
  obtain ⟨hlength, rfl⟩ := matchFields_eq hfields
  constructor
  · rw [List.count_append, count_fieldsText hlength (by decide)]
    · decide
    · exact ((List.forall₂_and_left _ _).mp <| (List.forall₂_of_mapM_some hcounters).imp
        fun _ _ hcounter => ⟨count_of_counter hcounter, hcounter⟩).1
  · obtain ⟨frame, groups, rfl⟩ := List.exists_cons_of_length_eq_add_one hlength
    have hfirst : "dirty_stats frame=".toList =
        "dirty_stats".toList ++ (' ' :: "frame".toList ++ ['=']) := by decide
    rw [fieldsText, List.zip_cons_cons, List.flatMap_cons, hfirst, List.append_assoc,
      ← List.append_assoc]
    exact List.prefix_append _ _

theorem dirtyStatsLine_counters {raw : List Char} {values : List (String × Nat)}
    (h : dirtyStatsLine raw = some (some values)) : dirtyCounters (strip raw) = some values := by
  rw [dirtyStatsLine] at h
  split at h
  · exact Option.some.inj h
  · cases h

/-- A line of counters does not begin inside of another one. -/
theorem dirtyCounters_start {start : List Char} {values values' : List (String × Nat)}
    (h : dirtyCounters line = some values) (h' : dirtyCounters (start ++ line) = some values') :
    start = [] := by
  obtain ⟨hcount, rest, rfl⟩ := dirtyCounters_marks h
  obtain ⟨hcount', rest', heq⟩ := dirtyCounters_marks h'
  rw [List.count_append] at hcount'
  have hfirst : "dirty_stats frame=".toList = "dirty_stats frame".toList ++ ['='] := by decide
  rw [hfirst] at heq
  exact List.append_left_eq_self.mp (start_append (by omega) (by decide) (by decide) heq)

/-- A line of counters that is not finished can be read only if it is cut inside of its
    last counter. -/
theorem dirtyStatsLine_torn {fragment more : List Char} {values values' : List (String × Nat)}
    (h : dirtyStatsLine fragment = some (some values))
    (h' : dirtyStatsLine (fragment ++ more) = some (some values')) :
    ∃ before last tail shared n n', strip fragment = before ++ " last_rects=".toList ++ last ∧
      strip (fragment ++ more) = before ++ " last_rects=".toList ++ (last ++ tail) ∧
      counter last = some n ∧ counter (last ++ tail) = some n' ∧
      values = shared ++ [("last_rects", n)] ∧ values' = shared ++ [("last_rects", n')] := by
  have hline := dirtyStatsLine_counters h
  have hline' := dirtyStatsLine_counters h'
  have hne : strip fragment ≠ [] := by
    intro hnil
    rw [hnil] at hline
    cases hline
  obtain ⟨tail, htail⟩ := strip_append_prefix hne more
  rw [htail] at hline'
  obtain ⟨before, last, shared, n, n', hbefore, hn, hn', hvalues, hvalues'⟩ :=
    dirtyCounters_append hline hline'
  refine ⟨before, last, tail, shared, n, n', hbefore, ?_, hn, hn', hvalues, hvalues'⟩
  rw [htail, hbefore, List.append_assoc]

/-- A line of counters that has lost its start can be read only if that is white space. -/
theorem dirtyStatsLine_cut {start fragment : List Char} {values values' : List (String × Nat)}
    (h : dirtyStatsLine fragment = some (some values))
    (h' : dirtyStatsLine (start ++ fragment) = some (some values')) :
    strip (start ++ fragment) = strip fragment ∧ values = values' := by
  have hline := dirtyStatsLine_counters h
  have hline' := dirtyStatsLine_counters h'
  have hne : strip fragment ≠ [] := by
    intro hnil
    rw [hnil] at hline
    cases hline
  obtain ⟨head, hhead⟩ := strip_append_suffix hne start
  rw [hhead] at hline'
  obtain rfl := dirtyCounters_start hline hline'
  rw [List.nil_append] at hhead hline'
  rw [hline] at hline'
  exact ⟨hhead, Option.some.inj hline'⟩

end Counters

/-! ## The lines of a log -/

section Lines

theorem splitlinesFrom_document {line text : List Char} (hend : EndsLine text)
    (hempty : text = [] → line = []) (h : ∀ c ∈ text, isLineBreak c = true → c = '\n') :
    document (splitlinesFrom line text) = line ++ text := by
  fun_induction splitlinesFrom line text with
  | case1 line hnil => rw [hempty rfl]; rfl
  | case2 line hnil => exact absurd (List.isEmpty_iff.mpr (hempty rfl)) hnil
  | case3 line rest ih => exact absurd (h '\r' List.mem_cons_self rfl) (by decide)
  | case4 line c rest hne hbreak ih =>
    obtain rfl := h c List.mem_cons_self hbreak
    rw [document, List.flatMap_cons, ← document, ih _ (fun _ => rfl)
      fun d hd => h d (List.mem_cons_of_mem _ hd), List.append_assoc]
    · rfl
    · by_cases hrest : rest = []
      · rw [hrest]
        rintro d ⟨⟩
      · exact hend.of_cons hrest
  | case5 line c rest hne hbreak ih =>
    have hrest : rest ≠ [] := by
      rintro rfl
      exact hbreak (hend c rfl)
    rw [ih (hend.of_cons hrest) (fun hnil => absurd hnil hrest)
      fun d hd => h d (List.mem_cons_of_mem _ hd), List.append_assoc, List.singleton_append]

/-- A log whose only line breaks are newlines is its lines, each with the newline that
    ends it. -/
theorem SinkText.lines_eq (log : SinkText)
    (h : ∀ c ∈ decodeAscii log.bytes, isLineBreak c = true → c = '\n') :
    document log.lines = decodeAscii log.bytes := by
  rw [SinkText.lines, splitlines, splitlinesFrom_document _ (fun _ => rfl) h, List.nil_append]
  rw [decodeAscii]
  rcases log.terminated with hnil | hlast
  · rw [hnil]
    rintro c ⟨⟩
  · intro c hc
    rw [List.getLast?_map, hlast] at hc
    cases hc
    rfl

end Lines

end MsysHal.Ch347
