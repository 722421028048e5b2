import MsysHal.Python.SinkLog

/-!
# Samples from complete lines

The tail of a log that is still being written starts and ends anywhere. Its lines
are lines of the whole log, apart from the first one, which the bound may have cut,
and the last one, which may be unfinished.

## Key results

- `splitlinesFrom_append`, `splitlines_tail_subset`: lines of a part of a text
- `newest_iff`: what the newest line that can be read says
- `samples_complete_iff`: when all samples come from complete lines
- `samples_torn`: a counter that lost its last digit
-/

namespace MsysHal.Ch347

/-! ## Lines of a part of a text -/

section Lines

variable {a b : List Char}

/-- The text is empty or its last character ends a line. -/
def EndsLine (text : List Char) : Prop := ∀ c ∈ text.getLast?, isLineBreak c = true

theorem EndsLine.of_cons {c : Char} (h : EndsLine (c :: a)) (ha : a ≠ []) : EndsLine a := by
  intro d hd
  refine h d ?_
  rwa [List.getLast?_cons_of_ne_nil ha]

theorem splitlinesFrom_break (line : List Char) {c : Char} {rest : List Char}
    (hc : isLineBreak c = true) (h : ∀ rest', c = '\r' → rest ≠ '\n' :: rest') :
    splitlinesFrom line (c :: rest) = line :: splitlines rest := by
  rw [splitlinesFrom, if_pos hc]
  · rfl
  · exact fun rest' hr => h rest' hr

theorem splitlinesFrom_char (line : List Char) {c : Char} {rest : List Char}
    (hc : isLineBreak c = false) :
    splitlinesFrom line (c :: rest) = splitlinesFrom (line ++ [c]) rest := by
  rw [splitlinesFrom, if_neg (by rw [hc]; decide)]
  rintro rest' rfl
  exact absurd hc (by decide)

/-- After the end of a line a text goes on with lines of its own; a line break of two
    characters may be divided. -/
theorem splitlinesFrom_endsLine (line : List Char) (ha : a ≠ []) (h : EndsLine a)
    (b : List Char) : ∃ b', (b' = b ∨ b = '\n' :: b') ∧
      splitlinesFrom line (a ++ b) = splitlinesFrom line a ++ splitlines b' := by
  fun_induction splitlinesFrom line a with
  | case1 => exact absurd rfl ha
  | case2 => exact absurd rfl ha
  -- A carriage return and a newline are one break.
  | case3 line rest ih =>
    rw [List.cons_append, List.cons_append, splitlinesFrom]
    by_cases hrest : rest = []
    · exact ⟨b, .inl rfl, by rw [hrest]; rfl⟩
    · obtain ⟨b', hb, heq⟩ := ih hrest ((h.of_cons (List.cons_ne_nil _ _)).of_cons hrest)
      exact ⟨b', hb, by rw [heq, List.cons_append]⟩
  -- At another break the line ends; only a carriage return can take the newline behind it.
  | case4 line c rest hne hbreak ih =>
    by_cases hrest : rest = []
    · subst hrest
      by_cases hdivided : ∃ b', c = '\r' ∧ b = '\n' :: b'
      · obtain ⟨b', rfl, rfl⟩ := hdivided
        exact ⟨b', .inr rfl, by rw [List.singleton_append, splitlinesFrom]; rfl⟩
      · refine ⟨b, .inl rfl, ?_⟩
        rw [List.singleton_append, splitlinesFrom_break line hbreak fun b' hc hb =>
          hdivided ⟨b', hc, hb⟩]
        rfl
    · obtain ⟨b', hb, heq⟩ := ih hrest (h.of_cons hrest)
      refine ⟨b', hb, ?_⟩
      rw [List.cons_append, splitlinesFrom_break line hbreak, splitlines, heq, List.cons_append]
      rintro rest' rfl hrest'
      obtain ⟨d, rest, rfl⟩ := List.exists_cons_of_ne_nil hrest
      rw [List.cons_append, List.cons.injEq] at hrest'
      exact hne rest rfl (by rw [hrest'.1])
  -- Any other character belongs to the line.
  | case5 line c rest hne hbreak ih =>
    have hrest : rest ≠ [] := by
      rintro rfl
      exact hbreak (h c rfl)
    obtain ⟨b', hb, heq⟩ := ih hrest (h.of_cons hrest)
    refine ⟨b', hb, ?_⟩
    rw [List.cons_append, splitlinesFrom_char line (Bool.eq_false_iff.mpr hbreak), heq]

/-- What was read of the first line does not change the others. -/
theorem splitlinesFrom_tail (line line' text : List Char) :
    (splitlinesFrom line text).tail = (splitlinesFrom line' text).tail := by
  fun_induction splitlinesFrom line text generalizing line' with
  | case1 line hempty => rw [splitlinesFrom]; split <;> rfl
  | case2 line hempty => rw [splitlinesFrom]; split <;> rfl
  | case3 line rest ih =>
    rw [splitlinesFrom]
    rfl
  | case4 line c rest hne hbreak ih =>
    rw [splitlinesFrom_break line' hbreak fun rest' hc hrest => hne rest' hc hrest]
    rfl
  | case5 line c rest hne hbreak ih =>
    rw [splitlinesFrom_char line' (Bool.eq_false_iff.mpr hbreak)]
    exact ih _

/-- A text without line breaks is read into the line. -/
theorem splitlinesFrom_noBreak (line : List Char) (ha : ∀ c ∈ a, isLineBreak c = false)
    (b : List Char) : splitlinesFrom line (a ++ b) = splitlinesFrom (line ++ a) b := by
  induction a generalizing line with
  | nil => rw [List.nil_append, List.append_nil]
  | cons c a ih =>
    rw [List.cons_append, splitlinesFrom_char line (ha c List.mem_cons_self),
      ih _ fun d hd => ha d (List.mem_cons_of_mem _ hd), List.append_assoc, List.singleton_append]

/-- What follows a part that ends a line: its lines, apart from an empty one. -/
theorem mem_splitlines_right (ha : EndsLine a) {line : List Char} (hline : line ∈ splitlines b)
    (hne : line ≠ []) : line ∈ splitlines (a ++ b) := by
  by_cases hnil : a = []
  · rwa [hnil]
  · obtain ⟨b', hb, heq⟩ := splitlinesFrom_endsLine [] hnil ha b
    rw [splitlines, heq, List.mem_append]
    right
    rcases hb with rfl | rfl
    · exact hline
    · rw [splitlines, splitlinesFrom_break [] (by decide) (by rintro _ hc; cases hc)] at hline
      exact (List.mem_cons.mp hline).resolve_left hne

/-- A part that ends a line has lines of the whole text. -/
theorem mem_splitlines_left (ha : EndsLine a) {line : List Char} (hline : line ∈ splitlines a) :
    line ∈ splitlines (a ++ b) := by
  by_cases hnil : a = []
  · rw [hnil] at hline
    exact nomatch hline
  · obtain ⟨b', -, heq⟩ := splitlinesFrom_endsLine [] hnil ha b
    rw [splitlines, heq, List.mem_append]
    exact .inl hline

/-! ## The unfinished line -/

/-- What follows the last line break. -/
def torn (text : List Char) : List Char := text.rtakeWhile (!isLineBreak ·)

/-- The text up to the last line break. -/
def settled (text : List Char) : List Char := text.rdropWhile (!isLineBreak ·)

theorem settled_append_torn (text : List Char) : settled text ++ torn text = text :=
  List.rdropWhile_append_rtakeWhile

theorem torn_noBreak (text : List Char) : ∀ c ∈ torn text, isLineBreak c = false := by
  intro c hc
  simpa using List.mem_rtakeWhile_imp hc

theorem endsLine_settled (text : List Char) : EndsLine (settled text) := by
  intro c hc
  obtain ⟨hne, rfl⟩ := List.mem_getLast?_eq_getLast hc
  simpa [settled] using List.rdropWhile_last_not _ _ hne

theorem endsLine_of_torn {text : List Char} (h : torn text = []) : EndsLine text := by
  have hsettled := settled_append_torn text
  rw [h, List.append_nil] at hsettled
  exact hsettled ▸ endsLine_settled text

theorem splitlines_noBreak (ha : ∀ c ∈ a, isLineBreak c = false) (hne : a ≠ []) :
    splitlines a = [a] := by
  have h := splitlinesFrom_noBreak [] ha []
  rw [List.append_nil, List.nil_append] at h
  rw [splitlines, h, splitlinesFrom, if_neg (by simpa using hne)]

/-- A text that goes on after the end of a line without dividing a line break. -/
theorem splitlines_append (ha : EndsLine a) (hb : ∀ b', b ≠ '\n' :: b') :
    splitlines (a ++ b) = splitlines a ++ splitlines b := by
  by_cases hnil : a = []
  · rw [hnil]
    rfl
  · obtain ⟨b', hb', heq⟩ := splitlinesFrom_endsLine [] hnil ha b
    rw [hb'.resolve_right (hb b')] at heq
    exact heq

theorem torn_append_ne {text : List Char} (h : torn text ≠ []) (b b' : List Char) :
    torn text ++ b ≠ '\n' :: b' := by
  obtain ⟨c, rest, hcons⟩ := List.exists_cons_of_ne_nil h
  have hc := torn_noBreak text c (by rw [hcons]; exact List.mem_cons_self)
  rw [hcons, List.cons_append]
  rintro heq
  rw [(List.cons.inj heq).1] at hc
  exact absurd hc (by decide)

/-- The lines of a text: those that are finished, and the unfinished one. -/
theorem splitlines_eq (text : List Char) : splitlines text =
    splitlines (settled text) ++ if torn text = [] then [] else [torn text] := by
  by_cases h : torn text = []
  · have hsettled := settled_append_torn text
    rw [h, List.append_nil] at hsettled
    rw [if_pos h, hsettled, List.append_nil]
  · rw [if_neg h, ← splitlines_noBreak (torn_noBreak text) h,
      ← splitlines_append (endsLine_settled text) fun b' heq => torn_append_ne h [] b'
        (by rw [List.append_nil]; exact heq), settled_append_torn]

/-- The lines after the first one of a part are lines of the whole text. -/
theorem mem_splitlines_tail {line : List Char} (hline : line ∈ (splitlines b).tail) :
    line ∈ splitlines (a ++ b) := by
  by_cases h : torn a = []
  · by_cases hnil : a = []
    · rw [hnil]
      exact List.mem_of_mem_tail hline
    · obtain ⟨b', hb, heq⟩ := splitlinesFrom_endsLine [] hnil (endsLine_of_torn h) b
      rw [splitlines, heq, List.mem_append]
      right
      rcases hb with rfl | rfl
      · exact List.mem_of_mem_tail hline
      · rwa [splitlines, splitlinesFrom_break [] (by decide) (by rintro _ hc; cases hc)] at hline
  · rw [← settled_append_torn a, List.append_assoc,
      splitlines_append (endsLine_settled a) (torn_append_ne h b), List.mem_append]
    right
    rw [splitlines, splitlinesFrom_noBreak [] (torn_noBreak a)]
    rw [splitlines, splitlinesFrom_tail [] ([] ++ torn a)] at hline
    exact List.mem_of_mem_tail hline

end Lines

/-! ## A log that is being written -/

/-- A log of lines that end in a newline. -/
structure SinkText where
  bytes : List UInt8
  terminated : bytes = [] ∨ bytes.getLast? = some 10

/-- The complete lines of the log. `splitlines` also cuts at a vertical tab, a form feed and
    the other line breaks of ASCII: the lines of the sink hold none of these, so that each
    of its lines is one here. -/
def SinkText.lines (log : SinkText) : List (List Char) := splitlines (decodeAscii log.bytes)

/-- The text that is read of a file. -/
def tailText (file : List UInt8) : List Char := decodeAscii (logTail file)

/-- The text before it. -/
def cutText (file : List UInt8) : List Char :=
  decodeAscii (file.take (file.length - maxLogTailBytes))

/-- The bound cuts the first line that is read. -/
def isCut (file : List UInt8) : Bool := !(torn (cutText file)).isEmpty

/-- The first line, if it is finished and cut. -/
def cutLine (file : List UInt8) : Option (List Char) :=
  if isCut file then (splitlines (settled (tailText file))).head? else none

/-- The finished lines that are not cut. -/
def wholeLines (file : List UInt8) : List (List Char) :=
  if isCut file then (splitlines (settled (tailText file))).tail
  else splitlines (settled (tailText file))

theorem decodeAscii_append (data data' : List UInt8) :
    decodeAscii (data ++ data') = decodeAscii data ++ decodeAscii data' := List.map_append

theorem cutText_append_tailText (file : List UInt8) :
    cutText file ++ tailText file = decodeAscii file := by
  rw [cutText, tailText, logTail, ← decodeAscii_append, List.take_append_drop]

/-- Each whole line of the tail is a line of the log, unless it is empty. -/
theorem mem_wholeLines (log : SinkText) (seen : Nat) {line : List Char}
    (hline : line ∈ wholeLines (log.bytes.take seen)) (hne : line ≠ []) : line ∈ log.lines := by
  set file := log.bytes.take seen with hfile
  have htext : decodeAscii log.bytes = cutText file ++ settled (tailText file) ++
      (torn (tailText file) ++ decodeAscii (log.bytes.drop seen)) := by
    rw [← List.append_assoc, List.append_assoc (cutText file), settled_append_torn,
      cutText_append_tailText, ← decodeAscii_append, hfile, List.take_append_drop]
  rw [SinkText.lines, htext]
  have hsettled := endsLine_settled (tailText file)
  by_cases hnil : settled (tailText file) = []
  · rw [wholeLines, hnil] at hline
    split at hline <;> exact nomatch hline
  · refine mem_splitlines_left ?_ ?_
    · intro c hc
      rw [List.getLast?_append_of_ne_nil _ hnil] at hc
      exact hsettled c hc
    · rw [wholeLines] at hline
      split at hline
      · exact mem_splitlines_tail hline
      · next hcut =>
        rw [isCut, Bool.not_eq_true, Bool.not_eq_false', List.isEmpty_iff] at hcut
        exact mem_splitlines_right (endsLine_of_torn hcut) hline hne

/-! ## The newest line that can be read -/

section Newest

variable {β : Type} (read : List Char → Option β)

/-- The newest of the lines that can be read. -/
def newest (lines : List (List Char)) : Option β := lines.reverse.findSome? read

theorem newest_append (lines lines' : List (List Char)) :
    newest read (lines ++ lines') = (newest read lines').or (newest read lines) := by
  rw [newest, List.reverse_append, List.findSome?_append]
  rfl

theorem exists_of_newest {lines : List (List Char)} {x : β} (h : newest read lines = some x) :
    ∃ line ∈ lines, read line = some x := by
  obtain ⟨line, hline, hread⟩ := List.exists_of_findSome?_eq_some h
  exact ⟨line, List.mem_reverse.mp hline, hread⟩

/-- The newest line of the tail is the unfinished one, one of the whole lines, or the
    first one that is cut. -/
theorem newest_tail (hnil : read [] = none) (file : List UInt8) :
    newest read (splitlines (tailText file)) =
      (read (torn (tailText file))).or
        ((newest read (wholeLines file)).or ((cutLine file).bind read)) := by
  have htorn : newest read (if torn (tailText file) = [] then [] else [torn (tailText file)]) =
      read (torn (tailText file)) := by
    split_ifs with h
    · rw [h, hnil]
      rfl
    · cases hread : read (torn (tailText file)) with
      | none => simp [newest, hread]
      | some x => simp [newest, hread]
  have hsettled : newest read (splitlines (settled (tailText file))) =
      (newest read (wholeLines file)).or ((cutLine file).bind read) := by
    rw [wholeLines, cutLine]
    split_ifs
    · cases splitlines (settled (tailText file)) with
      | nil => rfl
      | cons line lines =>
        rw [← List.singleton_append, newest_append]
        refine congrArg _ ?_
        cases hread : read line with
        | none => simp [newest, hread]
        | some x => simp [newest, hread]
    · rw [Option.bind_none, Option.or_none]
  rw [splitlines_eq, newest_append, htorn, hsettled]

/-- What the fragments of the tail say is allowed: the unfinished line, and the one
    that is cut if no newer line can be read. -/
structure FragmentsAllowed (allowed : β → Prop) (file : List UInt8) : Prop where
  torn : ∀ x, read (torn (tailText file)) = some x → allowed x
  cut : read (Ch347.torn (tailText file)) = none → newest read (wholeLines file) = none →
    ∀ x, (cutLine file).bind read = some x → allowed x

/-- When what complete lines say is allowed, the newest line of the tail says what is
    allowed exactly when the fragments do. -/
theorem newest_iff (hnil : read [] = none) {allowed : β → Prop} (log : SinkText) (seen : Nat)
    (hallowed : ∀ line ∈ log.lines, ∀ x, read line = some x → allowed x) :
    (∀ x, newest read (splitlines (tailText (log.bytes.take seen))) = some x → allowed x) ↔
      FragmentsAllowed read allowed (log.bytes.take seen) := by
  rw [newest_tail read hnil]
  constructor
  · intro h
    refine ⟨fun x hx => h x (by rw [hx, Option.some_or]), fun htorn hwhole x hx => h x ?_⟩
    rw [htorn, hwhole, hx, Option.none_or, Option.none_or]
  · intro h x hx
    cases htorn : read (torn (tailText (log.bytes.take seen))) with
    | some y =>
      rw [htorn, Option.some_or] at hx
      exact h.torn x (by rw [htorn, hx])
    | none =>
      rw [htorn, Option.none_or] at hx
      cases hwhole : newest read (wholeLines (log.bytes.take seen)) with
      | some y =>
        rw [hwhole, Option.some_or] at hx
        obtain ⟨line, hline, hread⟩ := exists_of_newest read hwhole
        have hne : line ≠ [] := by
          rintro rfl
          rw [hnil] at hread
          cases hread
        exact hallowed line (mem_wholeLines log seen hline hne) x (by rw [hread, hx])
      | none =>
        rw [hwhole, Option.none_or] at hx
        exact h.cut htorn hwhole x hx

end Newest

/-! ## Samples -/

theorem debugLine_nil (F : Floats) : debugLine F [] = none := rfl

theorem dirtyStatsLine_nil : dirtyStatsLine [] = none := rfl

/-- A sample that some complete line of the log has. -/
def SampledIn (F : Floats) (log : SinkText) (sample : DebugSample) : Prop :=
  ∃ line ∈ log.lines, debugLine F line = some sample

/-- No counters, or those of some complete line of the log. -/
def CountedIn (log : SinkText) (counters : Option (List (String × Nat))) : Prop :=
  ∀ values, counters = some values → ∃ line ∈ log.lines, dirtyStatsLine line = some (some values)

/-- The samples of the tail of a log that is being written are null or those of complete
    lines, exactly when its unfinished line, and its first line where the bound cuts it
    and nothing newer can be read, do not say what no complete line says. -/
theorem samples_complete_iff (F : Floats) (log : SinkText) (seen : Nat) :
    ((∀ sample, debugSample F (boundedLogTail (some (log.bytes.take seen))) = some sample →
        SampledIn F log sample) ∧
      (∀ values, dirtyStatsSample (boundedLogTail (some (log.bytes.take seen))) = some values →
        ∃ line ∈ log.lines, dirtyStatsLine line = some (some values))) ↔
      FragmentsAllowed (debugLine F) (SampledIn F log) (log.bytes.take seen) ∧
        FragmentsAllowed dirtyStatsLine (CountedIn log) (log.bytes.take seen) := by
  rw [← newest_iff (debugLine F) (debugLine_nil F) log seen fun line hline x hx =>
    ⟨line, hline, hx⟩,
      ← newest_iff dirtyStatsLine dirtyStatsLine_nil log seen fun line hline x hx values hvalues =>
      ⟨line, hline, by rw [hx, hvalues]⟩]
  refine and_congr Iff.rfl ?_
  rw [dirtyStatsSample]
  change (∀ values, (newest dirtyStatsLine (splitlines (tailText (log.bytes.take seen)))).join =
    some values → _) ↔ _
  cases newest dirtyStatsLine (splitlines (tailText (log.bytes.take seen))) with
  | none => simp
  | some counters => simp [CountedIn]

/-- A log with one line of counters. -/
def countersText : SinkText where
  bytes := ("dirty_stats frame=9 sent_frames=8 zero_damage=7 full_refreshes=6 large_refreshes=5 " ++
    "sent_pixels=4 last_sent_pixels=3 last_rects=12\n").toList.map fun c => UInt8.ofNat c.toNat
  terminated := .inr (by decide +kernel)

/-- The last counter of a line whose last two bytes are not written yet. -/
theorem samples_torn : ∃ values,
    dirtyStatsSample
      (boundedLogTail (some (countersText.bytes.take (countersText.bytes.length - 2)))) =
      some values ∧
    ¬ ∃ line ∈ countersText.lines, dirtyStatsLine line = some (some values) :=
  ⟨[("sent_frames", 8), ("zero_damage", 7), ("full_refreshes", 6), ("large_refreshes", 5),
    ("sent_pixels", 4), ("last_sent_pixels", 3), ("last_rects", 1)], by decide +kernel,
    by decide +kernel⟩

end MsysHal.Ch347
