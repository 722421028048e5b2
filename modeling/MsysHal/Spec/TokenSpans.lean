import MsysHal.Spec.JsonText

/-!
# Where the tokens of a document are

The tokens of a value stand one behind the other, and each starts inside its text. The
token behind a value is found by its start alone, however deep the value is, and so are
the positions of the members of an object.

## Key results

- `Doc.span`: tokens start inside the text
- `tokenNext_value`: the next token behind a value
- `Members.At.value_at`, `Members.At.rest_at`: a member and the members behind it
-/

namespace MsysHal.Native.Json

/-! ## Spans -/

mutual

/-- The tokens of a document start inside its text. -/
theorem Doc.span {start : Nat} {parent : Int} {index : Nat} {doc : Doc}
    (h : doc.WellFormed) {t : Token}
    (ht : t ∈ doc.tokens start parent index) :
    start ≤ t.start ∧ t.start < start + doc.text.length := by
  cases doc with
  | string raw =>
    obtain rfl := List.mem_singleton.mp ht
    simp [Doc.text]
  | primitive raw =>
    obtain rfl := List.mem_singleton.mp ht
    have := List.length_pos_iff.mpr h.1
    simp only [Doc.text]
    omega
  | object space members =>
    simp only [Doc.text, List.length_cons, List.length_append, List.length_nil]
    obtain rfl | ht := List.mem_cons.mp ht
    · dsimp only
      omega
    · have := Members.span h.2 ht
      omega
  | array space items =>
    simp only [Doc.text, List.length_cons, List.length_append, List.length_nil]
    obtain rfl | ht := List.mem_cons.mp ht
    · dsimp only
      omega
    · have := Items.span h.2 ht
      omega

theorem Members.span {start : Nat} {parent : Int} {index : Nat} {members : Members}
    (h : members.WellFormed) {t : Token}
    (ht : t ∈ members.tokens start parent index) :
    start ≤ t.start ∧ t.start < start + members.text.length := by
  cases members with
  | nil => exact absurd ht List.not_mem_nil
  | cons name beforeColon afterColon value behind afterComma rest =>
    simp only [Members.text, List.length_cons, List.length_append]
    rcases List.mem_cons.mp ht with rfl | ht
    · dsimp only
      omega
    · rcases List.mem_append.mp ht with ht | ht
      · have := Doc.span h.2.2.2.1 ht
        omega
      · have := Members.span h.2.2.2.2.2.2 ht
        cases rest with
        | nil => exact absurd ht List.not_mem_nil
        | cons => simp [Members.isNil]; omega

theorem Items.span {start : Nat} {parent : Int} {index : Nat} {items : Items}
    (h : items.WellFormed) {t : Token}
    (ht : t ∈ items.tokens start parent index) :
    start ≤ t.start ∧ t.start < start + items.text.length := by
  cases items with
  | nil => exact absurd ht List.not_mem_nil
  | cons value behind afterComma rest =>
    simp only [Items.text, List.length_append]
    rcases List.mem_append.mp ht with ht | ht
    · have := Doc.span h.1 ht
      omega
    · have := Items.span h.2.2.2 ht
      cases rest with
      | nil => exact absurd ht List.not_mem_nil
      | cons => simp [Items.isNil]; omega

end

/-- The first token of a value spans those of what is inside it. -/
theorem Doc.tokens_cons {doc : Doc} (h : doc.WellFormed) (start : Nat) (parent : Int)
    (index : Nat) : ∃ t inside, doc.tokens start parent index = t :: inside ∧ t.parent = parent ∧
      (∀ u ∈ inside, (u.start : Int) < t.stop) ∧ t.stop ≤ (start + doc.text.length : Nat) := by
  cases doc with
  | string raw =>
    refine ⟨_, [], rfl, rfl, nofun, ?_⟩
    simp [Doc.text]
    omega
  | primitive raw => exact ⟨_, [], rfl, rfl, nofun, le_refl _⟩
  | object space members =>
    refine ⟨_, _, rfl, rfl, fun u hu => ?_, ?_⟩
    · have := Members.span h.2 hu
      dsimp only
      omega
    · simp [Doc.text]
      omega
  | array space items =>
    refine ⟨_, _, rfl, rfl, fun u hu => ?_, ?_⟩
    · have := Items.span h.2 hu
      dsimp only
      omega
    · simp [Doc.text]
      omega

/-! ## Where a value is -/

/-- A document at a place of the array; what follows starts behind its text. -/
structure Doc.At (json : Bytes) (tokens : List Token) (parent : Int) (start index : Nat)
    (doc : Doc) : Prop where
  wellFormed : doc.WellFormed
  text : doc.text <+: json.drop start
  tokens : ∃ after, tokens.drop index = doc.tokens start parent index ++ after ∧
    ∀ t ∈ after, start + doc.text.length ≤ t.start

/-- Members of an object at a place of the array; what follows starts behind the object. -/
structure Members.At (json : Bytes) (tokens : List Token) (object stop start index : Nat)
    (members : Members) : Prop where
  wellFormed : members.WellFormed
  text : members.text <+: json.drop start
  tokens : ∃ after, tokens.drop index = members.tokens start object index ++ after ∧ ∀ t ∈ after,
  stop ≤ t.start
  stop : members.isNil = false → start + members.text.length < stop

/-- Items of an array at a place. -/
structure Items.At (json : Bytes) (tokens : List Token) (array stop start index : Nat)
    (items : Items) : Prop where
  wellFormed : items.WellFormed
  text : items.text <+: json.drop start
  tokens : ∃ after, tokens.drop index = items.tokens start array index ++ after ∧ ∀ t ∈ after,
  stop ≤ t.start
  stop : items.isNil = false → start + items.text.length < stop

theorem drop_behind {α : Type} (front : List α) {l after : List α} {n : Nat}
    (h : l.drop n = front ++ after) : l.drop (n + front.length) = after := by
  rw [← List.drop_drop, h, List.drop_left]

theorem prefix_behind {α : Type} (front : List α) {l after : List α} {n : Nat}
    (h : front ++ after <+: l.drop n) : after <+: l.drop (n + front.length) := by
  obtain ⟨rest, hrest⟩ := h
  rw [List.append_assoc] at hrest
  exact ⟨rest, (drop_behind front hrest.symm).symm⟩

variable {json : Bytes} {tokens : List Token} {object stop start index : Nat}

/-- The walk passes from a value to the token behind it. -/
theorem tokenNext_value {parent : Int} {doc : Doc} (h : doc.At json tokens parent start index) :
    tokenNext tokens index = index + doc.count := by
  obtain ⟨after, htokens, hafter⟩ := h.tokens
  obtain ⟨t, inside, hdoc, -, hinside, hstop⟩ := Doc.tokens_cons h.wellFormed start parent index
  have hcount := Doc.length_tokens start parent index doc
  rw [hdoc, List.length_cons] at hcount
  rw [hdoc, List.cons_append] at htokens
  have hat : tokens[index]? = some t := by rw [← List.head?_drop, htokens, List.head?_cons]
  have hrest : tokens.drop (index + 1) = inside ++ after := drop_behind [t] htokens
  have htaken :
      (inside ++ after).takeWhile (fun u => decide ((u.start : Int) < t.stop)) = inside := by
    rw [List.takeWhile_append_of_pos fun u hu => decide_eq_true (hinside u hu)]
    cases after with
    | nil => simp
    | cons u after =>
      have := hafter u List.mem_cons_self
      rw [List.takeWhile_cons_of_neg, List.append_nil]
      rw [decide_eq_true_eq]
      omega
  rw [tokenNext, hat]
  simp only [hrest, htaken]
  omega

theorem Doc.At.head {parent : Int} {doc : Doc} (h : doc.At json tokens parent start index) :
    ∃ t, tokens[index]? = some t ∧ (doc.tokens start parent index).head? = some t ∧
    t.parent = parent := by
  obtain ⟨after, htokens, -⟩ := h.tokens
  obtain ⟨t, inside, hdoc, hparent, -⟩ := Doc.tokens_cons h.wellFormed start parent index
  refine ⟨t, ?_, by rw [hdoc, List.head?_cons], hparent⟩
  rw [← List.head?_drop, htokens, hdoc, List.cons_append, List.head?_cons]

section Member

variable {name beforeColon afterColon behind afterComma : Bytes} {doc : Doc} {rest : Members}

/-- The token of a name, whose text is between the quotes. -/
theorem Members.At.name_token
    (h : (Members.cons name beforeColon afterColon doc behind afterComma rest).At json tokens object
      stop start index) :
    ∃ t, tokens[index]? = some t ∧ t.type = .string ∧ t.parent = object ∧ t.start < stop ∧
    t.raw json = name := by
  obtain ⟨after, htokens, -⟩ := h.tokens
  refine ⟨⟨.string, start + 1, (start + 1 + name.length : Nat), object⟩, ?_, rfl, rfl, ?_, ?_⟩
  · rw [← List.head?_drop, htokens, Members.tokens, List.cons_append, List.head?_cons]
  · have := h.stop rfl
    simp only [Members.text, List.length_cons, List.length_append] at this
    dsimp only
    omega
  · have htext : name ++ 0x22 :: (beforeColon ++ 0x3a :: (afterColon ++ (doc.text ++ (behind ++
        if rest.isNil then [] else 0x2c :: (afterComma ++ rest.text))))) <+: json.drop
          (start + 1) :=
      prefix_behind [0x22] h.text
    obtain ⟨more, hmore⟩ := htext
    rw [Token.raw, ← hmore, List.append_assoc]
    have hlength : (((start + 1 + name.length : Nat) : Int) - (start + 1 : Nat)).toNat =
        name.length := by omega
    rw [hlength, List.take_left]

/-- The tokens behind that of a name. -/
theorem Members.At.behind_name
    (h : (Members.cons name beforeColon afterColon doc behind afterComma rest).At json tokens object
      stop start index) :
    ∃ after, tokens.drop (index + 1) =
        doc.tokens (start + (name.length + beforeColon.length + afterColon.length + 3)) object
          (index + 1) ++
          (rest.tokens (start + (name.length + beforeColon.length + afterColon.length + 3) +
            (doc.text.length + behind.length + afterComma.length + 1)) object
              (index + 1 + doc.count) ++ after) ∧
      ∀ t ∈ after, stop ≤ t.start := by
  obtain ⟨after, htokens, hafter⟩ := h.tokens
  refine ⟨after, ?_, hafter⟩
  rw [Members.tokens] at htokens
  rw [← List.append_assoc]
  exact drop_behind [_] htokens

/-- The value of a member is behind its name. -/
theorem Members.At.value_at
    (h : (Members.cons name beforeColon afterColon doc behind afterComma rest).At json tokens object
      stop start index) :
    doc.At json tokens object (start + (name.length + beforeColon.length + afterColon.length + 3))
      (index + 1) := by
  obtain ⟨after, htokens, hafter⟩ := h.behind_name
  have hstop := h.stop rfl
  simp only [Members.text, List.length_cons, List.length_append] at hstop
  refine ⟨h.wellFormed.2.2.2.1, ?_, _, htokens, fun t ht => ?_⟩
  · have htext :
        0x22 :: (name ++ 0x22 :: (beforeColon ++ 0x3a :: afterColon)) ++ (doc.text ++ (behind ++
        if rest.isNil then [] else 0x2c :: (afterComma ++ rest.text))) <+: json.drop start := by
      simpa [Members.text] using h.text
    have hlength : (0x22 :: (name ++ 0x22 :: (beforeColon ++ 0x3a :: afterColon))).length =
        name.length + beforeColon.length + afterColon.length + 3 := by
      simp
      omega
    rw [← hlength]
    exact (List.prefix_append _ _).trans (prefix_behind _ htext)
  · rcases List.mem_append.mp ht with ht | ht
    · have := Members.span h.wellFormed.2.2.2.2.2.2 ht
      omega
    · have := hafter t ht
      omega

/-- The other members are behind the value. -/
theorem Members.At.rest_at
    (h : (Members.cons name beforeColon afterColon doc behind afterComma rest).At json tokens object
      stop start index) :
    rest.At json tokens object stop
      (start + (name.length + beforeColon.length + afterColon.length + 3) +
      (doc.text.length + behind.length + afterComma.length + 1)) (index + 1 + doc.count) := by
  obtain ⟨after, htokens, hafter⟩ := h.behind_name
  have hstop := h.stop rfl
  have hbehind := drop_behind _ htokens
  rw [Doc.length_tokens] at hbehind
  cases rest with
  | nil => exact ⟨trivial, List.nil_prefix, ⟨after, hbehind, hafter⟩, nofun⟩
  | cons name' beforeColon' afterColon' doc' behind' afterComma' rest' =>
    refine ⟨h.wellFormed.2.2.2.2.2.2, ?_, ⟨after, hbehind, hafter⟩, fun _ => ?_⟩
    -- What stands before the rest is its member and the comma.
    · have htext : 0x22 ::
          (name ++ 0x22 :: (beforeColon ++ 0x3a :: (afterColon ++ (doc.text ++ (behind ++
          0x2c :: afterComma))))) ++ Members.text
            (.cons name' beforeColon' afterColon' doc' behind' afterComma' rest')
            <+: json.drop start := by
        have := h.text
        rw [Members.text] at this
        simpa [Members.isNil] using this
      have hlength :
          (0x22 :: (name ++ 0x22 :: (beforeColon ++ 0x3a :: (afterColon ++ (doc.text ++ (behind ++
          0x2c :: afterComma)))))).length = name.length + beforeColon.length +
            afterColon.length + 3 +
            (doc.text.length + behind.length + afterComma.length + 1) := by
        simp
        omega
      rw [Nat.add_assoc, ← hlength]
      exact prefix_behind _ htext
    · rw [Members.text] at hstop
      simp only [Members.isNil, List.length_cons, List.length_append] at hstop
      simp at hstop
      omega

end Member

end MsysHal.Native.Json
