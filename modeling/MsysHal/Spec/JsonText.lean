import MsysHal.Spec.Tokenizer

/-!
# The document of an accepted text

A text that the tokenizer accepts is the text of a document, and its tokens are those of the
document from the root down.

## Key results

- `Doc.length_tokens`: a document has as many tokens as it counts
- `parseMembers_fuel`, `parseItems_fuel`: the loops of the parser end by themselves
- `parseValue_sound`, `parseJson_sound`: the document of an accepted text
-/

namespace MsysHal.Native.Json

/-! ## Documents -/

mutual

/-- A value as it is written. -/
inductive Doc where
  | string (raw : Bytes)
  | primitive (raw : Bytes)
  | object (space : Bytes) (members : Members)
  | array (space : Bytes) (items : Items)

/-- Members of an object: a name, its value, and the white space around the colon, behind
    the value, and behind the comma if there are more. -/
inductive Members where
  | nil
  | cons (name beforeColon afterColon : Bytes) (value : Doc) (behind afterComma : Bytes)
      (rest : Members)

/-- Items of an array. -/
inductive Items where
  | nil
  | cons (value : Doc) (behind afterComma : Bytes) (rest : Items)

end

def Members.isNil : Members → Bool
  | .nil => true
  | .cons .. => false

def Items.isNil : Items → Bool
  | .nil => true
  | .cons .. => false

mutual

/-- The text of a document. -/
def Doc.text : Doc → Bytes
  | .string raw => 0x22 :: (raw ++ [0x22])
  | .primitive raw => raw
  | .object space members => 0x7b :: (space ++ (members.text ++ [0x7d]))
  | .array space items => 0x5b :: (space ++ (items.text ++ [0x5d]))

def Members.text : Members → Bytes
  | .nil => []
  | .cons name beforeColon afterColon value behind afterComma rest =>
    0x22 :: (name ++ 0x22 :: (beforeColon ++ 0x3a :: (afterColon ++ (value.text ++ (behind ++
      if rest.isNil then [] else 0x2c :: (afterComma ++ rest.text))))))

def Items.text : Items → Bytes
  | .nil => []
  | .cons value behind afterComma rest =>
    value.text ++ (behind ++ if rest.isNil then [] else 0x2c :: (afterComma ++ rest.text))

end

/-- White space. -/
def IsSpace (space : Bytes) : Prop := ∀ b ∈ space, isSpaceByte b = true

mutual

/-- The strings end at their quotes, the primitives are those of JSON, and white space is
    white space. -/
def Doc.WellFormed : Doc → Prop
  | .string raw => stringLength (raw ++ [0x22]) = some raw.length
  | .primitive raw => raw ≠ [] ∧ (∀ b ∈ raw, isDelimiter b = false) ∧ validPrimitive raw = true
  | .object space members => IsSpace space ∧ members.WellFormed
  | .array space items => IsSpace space ∧ items.WellFormed

def Members.WellFormed : Members → Prop
  | .nil => True
  | .cons name beforeColon afterColon value behind afterComma rest =>
    stringLength (name ++ [0x22]) = some name.length ∧ IsSpace beforeColon ∧ IsSpace afterColon ∧
      value.WellFormed ∧ IsSpace behind ∧ IsSpace afterComma ∧ rest.WellFormed

def Items.WellFormed : Items → Prop
  | .nil => True
  | .cons value behind afterComma rest =>
    value.WellFormed ∧ IsSpace behind ∧ IsSpace afterComma ∧ rest.WellFormed

end

mutual

/-- The number of tokens of a document. -/
def Doc.count : Doc → Nat
  | .string _ => 1
  | .primitive _ => 1
  | .object _ members => members.count + 1
  | .array _ items => items.count + 1

def Members.count : Members → Nat
  | .nil => 0
  | .cons _ _ _ value _ _ rest => value.count + rest.count + 1

def Items.count : Items → Nat
  | .nil => 0
  | .cons value _ _ rest => value.count + rest.count

end

mutual

/-- The tokens of a document that starts at a position, inside a parent, when there are
    `index` tokens before them. -/
def Doc.tokens (start : Nat) (parent : Int) (index : Nat) : Doc → List Token
  | .string raw => [⟨.string, start + 1, (start + 1 + raw.length : Nat), parent⟩]
  | .primitive raw => [⟨.primitive, start, (start + raw.length : Nat), parent⟩]
  | .object space members =>
    ⟨.object, start, (start + (space.length + members.text.length + 2) : Nat), parent⟩ ::
      members.tokens (start + 1 + space.length) index (index + 1)
  | .array space items =>
    ⟨.array, start, (start + (space.length + items.text.length + 2) : Nat), parent⟩ ::
      items.tokens (start + 1 + space.length) index (index + 1)

def Members.tokens (start : Nat) (parent : Int) (index : Nat) : Members → List Token
  | .nil => []
  | .cons name beforeColon afterColon value behind afterComma rest =>
    let valueStart := start + (name.length + beforeColon.length + afterColon.length + 3)
    ⟨.string, start + 1, (start + 1 + name.length : Nat), parent⟩ ::
      (value.tokens valueStart parent (index + 1) ++
        rest.tokens (valueStart + (value.text.length + behind.length + afterComma.length + 1))
          parent
          (index + 1 + value.count))

def Items.tokens (start : Nat) (parent : Int) (index : Nat) : Items → List Token
  | .nil => []
  | .cons value behind afterComma rest =>
    value.tokens start parent index ++
      rest.tokens (start + (value.text.length + behind.length + afterComma.length + 1)) parent
        (index + value.count)

end

mutual

theorem Doc.length_tokens (start : Nat) (parent : Int) (index : Nat) (doc : Doc) :
    (doc.tokens start parent index).length = doc.count := by
  cases doc with
  | string raw => rfl
  | primitive raw => rfl
  | object space members => simp [Doc.tokens, Doc.count, Members.length_tokens]
  | array space items => simp [Doc.tokens, Doc.count, Items.length_tokens]

theorem Members.length_tokens (start : Nat) (parent : Int) (index : Nat) (members : Members) :
    (members.tokens start parent index).length = members.count := by
  cases members with
  | nil => rfl
  | cons name beforeColon afterColon value behind afterComma rest =>
    simp [Members.tokens, Members.count, Doc.length_tokens, Members.length_tokens]

theorem Items.length_tokens (start : Nat) (parent : Int) (index : Nat) (items : Items) :
    (items.tokens start parent index).length = items.count := by
  cases items with
  | nil => rfl
  | cons value behind afterComma rest =>
    simp [Items.tokens, Items.count, Doc.length_tokens, Items.length_tokens]

end

/-! ## What the parser reads -/

/-- A value that was read is a document, and its tokens are put behind the others. -/
def Sound (value : JsonParser → Int → Option JsonParser) : Prop :=
  ∀ {p p' : JsonParser} {parent : Int}, value p parent = some p' → ∃ doc : Doc, doc.WellFormed ∧
    p.Took doc.text p' ∧ p'.tokens = p.tokens ++ doc.tokens p.position parent p.tokens.length

variable {value : JsonParser → Int → Option JsonParser} {p p' : JsonParser}

/-- One turn over a member, up to the byte behind the value. -/
theorem member_sound (hvalue : Sound value) {object : Nat} {q : JsonParser}
    (hname : p.parseString object = some q)
    (hcolon : q.skipSpace.text[q.skipSpace.position]? = some 0x3a) {r : JsonParser}
    (hread : value (q.skipSpace.advance 1).skipSpace object = some r) :
    ∃ name beforeColon afterColon behind, ∃ doc : Doc,
      stringLength (name ++ [0x22]) = some name.length ∧ IsSpace beforeColon ∧ IsSpace afterColon ∧
      doc.WellFormed ∧ IsSpace behind ∧
      p.Took (0x22 ::
        (name ++ 0x22 :: (beforeColon ++ 0x3a :: (afterColon ++ (doc.text ++ behind)))))
          r.skipSpace ∧
      r.tokens =
        p.tokens ++ ⟨.string, p.position + 1, (p.position + 1 + name.length : Nat), object⟩ ::
        doc.tokens (p.position + (name.length + beforeColon.length + afterColon.length + 3)) object
          (p.tokens.length + 1) := by
  obtain ⟨name, hlength, htook, htokens⟩ := JsonParser.Took.parseString hname
  obtain ⟨beforeColon, hbefore, hskip⟩ := JsonParser.Took.skipSpace q
  have hpassed := JsonParser.Took.advance hcolon
  obtain ⟨afterColon, hafter, hskip'⟩ := JsonParser.Took.skipSpace (q.skipSpace.advance 1)
  obtain ⟨doc, hdoc, hvalue, hadded⟩ := hvalue hread
  obtain ⟨behind, hbehind, hlast⟩ := JsonParser.Took.skipSpace r
  refine ⟨name, beforeColon, afterColon, behind, doc, hlength, hbefore, hafter, hdoc,
    hbehind, ?_, ?_⟩
  · have hall := ((((htook.trans hskip).trans hpassed).trans hskip').trans hvalue).trans hlast
    simpa using hall
  · have hposition := (((htook.trans hskip).trans hpassed).trans hskip').position
    rw [hadded, hposition]
    simp only [JsonParser.skipSpace_tokens, JsonParser.advance_tokens, htokens, List.length_append,
      List.length_cons, List.length_nil, List.append_assoc, List.singleton_append]
    congr 4
    omega

theorem modify_append_left {α : Type} (l r : List α) (f : α → α) {n : Nat} (h : n < l.length) :
    (l ++ r).modify n f = l.modify n f ++ r := by
  induction l generalizing n with
  | nil => exact absurd h (Nat.not_lt_zero n)
  | cons a l ih =>
    cases n with
    | zero => rfl
    | succ n => simpa using ih (Nat.lt_of_succ_lt_succ h)

/-- The members that are read up to the closing brace. -/
theorem parseMembers_sound (hvalue : Sound value) {object : Nat} (fuel : Nat) {p p' : JsonParser}
    (h : parseMembers value object fuel p = some p') : ∃ members : Members, members.isNil = false ∧
      members.WellFormed ∧ p.Took (members.text ++ [0x7d]) p' ∧
      p'.tokens = (p.tokens ++ members.tokens p.position object p.tokens.length).modify
        object fun t => { t with stop := (p.position + members.text.length + 1 : Nat) } := by
  induction fuel generalizing p with
  | zero => cases h
  | succ fuel ih =>
    rw [parseMembers] at h
    obtain ⟨q, hname, h⟩ := Option.bind_eq_some_iff.mp h
    dsimp only at h
    split at h
    next hcolon =>
      obtain ⟨r, hread, h⟩ := Option.bind_eq_some_iff.mp h
      obtain ⟨name, beforeColon, afterColon, behind, doc, hlength, hbefore, hafter, hdoc, hbehind,
        htook, htokens⟩ :=
        member_sound hvalue hname hcolon hread
      split at h
      · -- The closing brace is behind the value.
        next hbrace =>
        obtain rfl := Option.some.inj h
        refine ⟨.cons name beforeColon afterColon doc behind [] .nil, rfl,
          ⟨hlength, hbefore, hafter, hdoc, hbehind, List.forall_mem_nil _, trivial⟩, ?_, ?_⟩
        · have hall :=
            (htook.trans (JsonParser.Took.advance hbrace)).close object (r.skipSpace.position + 1)
          simpa [Members.text, Members.isNil] using hall
        · simp only [JsonParser.close, JsonParser.advance_tokens, JsonParser.skipSpace_tokens,
            htokens, htook.position, Members.tokens, Members.text, Members.isNil,
            List.append_nil, if_true]
      · split at h
        · -- The next member is behind a comma.
          next hcomma =>
          obtain ⟨rest, hrest, hwell, htook', htokens'⟩ := ih h
          obtain ⟨afterComma, hspace, hskip⟩ := JsonParser.Took.skipSpace (r.skipSpace.advance 1)
          have hfront := (htook.trans (JsonParser.Took.advance hcomma)).trans hskip
          refine ⟨.cons name beforeColon afterColon doc behind afterComma rest, rfl,
            ⟨hlength, hbefore, hafter, hdoc, hbehind, hspace, hwell⟩, ?_, ?_⟩
          · simpa [Members.text, hrest] using hfront.trans htook'
          · simp only [JsonParser.skipSpace_tokens, JsonParser.advance_tokens, htokens,
              hfront.position] at htokens'
            -- The tokens of the rest are those of a later start and a later index.
            have hstart : p.position +
                (0x22 :: (name ++ 0x22 :: (beforeColon ++ 0x3a :: (afterColon ++ (doc.text ++
                behind)))) ++ [0x2c] ++ afterComma).length =
                p.position + (name.length + beforeColon.length + afterColon.length + 3) +
                  (doc.text.length + behind.length + afterComma.length + 1) := by
              simp
              omega
            have hstop : p.position +
                (Members.text (.cons name beforeColon afterColon doc behind afterComma
                rest)).length = p.position +
                  (name.length + beforeColon.length + afterColon.length + 3) +
                  (doc.text.length + behind.length + afterComma.length + 1) + rest.text.length := by
              simp [Members.text, hrest]
              omega
            have hindex : p.tokens.length + (doc.count + 1) = p.tokens.length + 1 + doc.count := by
              omega
            rw [htokens', hstart, hstop]
            simp [Members.tokens, Doc.length_tokens, hindex]
        · cases h
    · cases h

/-- The items that are read up to the closing bracket. -/
theorem parseItems_sound (hvalue : Sound value) {array : Nat} (fuel : Nat) {p p' : JsonParser}
    (h : parseItems value array fuel p = some p') : ∃ items : Items, items.isNil = false ∧
      items.WellFormed ∧ p.Took (items.text ++ [0x5d]) p' ∧
      p'.tokens = (p.tokens ++ items.tokens p.position array p.tokens.length).modify array fun t =>
        { t with stop := (p.position + items.text.length + 1 : Nat) } := by
  induction fuel generalizing p with
  | zero => cases h
  | succ fuel ih =>
    rw [parseItems] at h
    obtain ⟨r, hread, h⟩ := Option.bind_eq_some_iff.mp h
    obtain ⟨doc, hdoc, htaken, htokens⟩ := hvalue hread
    obtain ⟨behind, hbehind, hskip⟩ := JsonParser.Took.skipSpace r
    have htook := htaken.trans hskip
    dsimp only at h
    split at h
    -- The closing bracket is behind the value.
    · next hbracket =>
      obtain rfl := Option.some.inj h
      refine ⟨.cons doc behind [] .nil, rfl, ⟨hdoc, hbehind, List.forall_mem_nil _, trivial⟩,
        ?_, ?_⟩
      · have hall :=
          (htook.trans (JsonParser.Took.advance hbracket)).close array (r.skipSpace.position + 1)
        simpa [Items.text, Items.isNil] using hall
      · simp only [JsonParser.close, JsonParser.advance_tokens, JsonParser.skipSpace_tokens,
          htokens, htook.position, Items.tokens, Items.text, Items.isNil, List.append_nil, if_true]
    · split at h
      -- The next item is behind a comma.
      · next hcomma =>
        obtain ⟨rest, hrest, hwell, htook', htokens'⟩ := ih h
        obtain ⟨afterComma, hspace, hskip'⟩ := JsonParser.Took.skipSpace (r.skipSpace.advance 1)
        have hfront := (htook.trans (JsonParser.Took.advance hcomma)).trans hskip'
        refine ⟨.cons doc behind afterComma rest, rfl, ⟨hdoc, hbehind, hspace, hwell⟩, ?_, ?_⟩
        · simpa [Items.text, hrest] using hfront.trans htook'
        · simp only [JsonParser.skipSpace_tokens, JsonParser.advance_tokens, htokens,
            hfront.position] at htokens'
          have hstart : p.position + (doc.text ++ behind ++ [0x2c] ++ afterComma).length =
              p.position + (doc.text.length + behind.length + afterComma.length + 1) := by
            simp
            omega
          have hstop : p.position + (Items.text (.cons doc behind afterComma rest)).length =
              p.position + (doc.text.length + behind.length + afterComma.length + 1) +
                rest.text.length := by
            simp [Items.text, hrest]
            omega
          rw [htokens', hstart, hstop]
          simp [Items.tokens, Doc.length_tokens]
      · cases h

/-- A container is opened: its token is added, and white space is passed over. -/
theorem opened {type : JsonType} {parent : Int} {b : UInt8} (hb : p.text[p.position]? = some b)
    {q : JsonParser} (hnew : p.newToken type p.position parent = some q) : ∃ space, IsSpace space ∧
      p.Took (b :: space) (q.advance 1).skipSpace ∧
      (q.advance 1).skipSpace.tokens = p.tokens ++ [⟨type, p.position, -1, parent⟩] := by
  obtain ⟨hopened, htokens⟩ := JsonParser.Took.newToken hnew
  have hb' : q.text[q.position]? = some b := by rw [hopened.text, hopened.position]; exact hb
  obtain ⟨space, hspace, hskip⟩ := JsonParser.Took.skipSpace (q.advance 1)
  exact ⟨space, hspace, by simpa using (hopened.trans (JsonParser.Took.advance hb')).trans hskip,
    htokens⟩

theorem parseObject_sound (hvalue : Sound value) {parent : Int}
    (hbrace : p.text[p.position]? = some 0x7b)
    (h : parseObject value p parent = some p') : ∃ doc : Doc, doc.WellFormed ∧ p.Took doc.text p' ∧
      p'.tokens = p.tokens ++ doc.tokens p.position parent p.tokens.length := by
  obtain ⟨q, hnew, h⟩ := Option.bind_eq_some_iff.mp h
  obtain ⟨space, hspace, htook, htokens⟩ := opened hbrace hnew
  dsimp only at h
  generalize (q.advance 1).skipSpace = q' at h htook htokens
  split at h
  · next hclosed =>
    obtain rfl := Option.some.inj h
    refine ⟨.object space .nil, ⟨hspace, trivial⟩, ?_, ?_⟩
    · simpa [Doc.text, Members.text] using (htook.trans (JsonParser.Took.advance hclosed)).close
        p.tokens.length
        (q'.position + 1)
    · have hstop : p.position + ((0x7b : UInt8) :: space).length + 1 = p.position +
          (space.length + 0 + 2) := by
        rw [List.length_cons]
        omega
      simp only [JsonParser.close, JsonParser.advance_tokens, htokens, htook.position,
        modify_append_last, Doc.tokens, Members.tokens, Members.text, List.length_nil, hstop]
  · obtain ⟨members, -, hwell, htook', htokens'⟩ := parseMembers_sound hvalue _ h
    refine ⟨.object space members, ⟨hspace, hwell⟩, ?_, ?_⟩
    · simpa [Doc.text] using htook.trans htook'
    · have hstart :
          p.position + ((0x7b : UInt8) :: space).length = p.position + 1 + space.length := by
        rw [List.length_cons]
        omega
      have hstop : p.position + 1 + space.length + members.text.length + 1 =
          p.position + (space.length + members.text.length + 2) := by omega
      simp only [htokens, htook.position, hstart, hstop, List.length_append, List.length_singleton,
        List.append_assoc, List.singleton_append, modify_append_cons] at htokens'
      rw [htokens', Doc.tokens]

theorem parseArray_sound (hvalue : Sound value) {parent : Int}
    (hbracket : p.text[p.position]? = some 0x5b)
    (h : parseArray value p parent = some p') : ∃ doc : Doc, doc.WellFormed ∧ p.Took doc.text p' ∧
      p'.tokens = p.tokens ++ doc.tokens p.position parent p.tokens.length := by
  obtain ⟨q, hnew, h⟩ := Option.bind_eq_some_iff.mp h
  obtain ⟨space, hspace, htook, htokens⟩ := opened hbracket hnew
  dsimp only at h
  generalize (q.advance 1).skipSpace = q' at h htook htokens
  split at h
  · next hclosed =>
    obtain rfl := Option.some.inj h
    refine ⟨.array space .nil, ⟨hspace, trivial⟩, ?_, ?_⟩
    · simpa [Doc.text, Items.text] using (htook.trans (JsonParser.Took.advance hclosed)).close
        p.tokens.length
        (q'.position + 1)
    · have hstop : p.position + ((0x5b : UInt8) :: space).length + 1 = p.position +
          (space.length + 0 + 2) := by
        rw [List.length_cons]
        omega
      simp only [JsonParser.close, JsonParser.advance_tokens, htokens, htook.position,
        modify_append_last, Doc.tokens, Items.tokens, Items.text, List.length_nil, hstop]
  · obtain ⟨items, -, hwell, htook', htokens'⟩ := parseItems_sound hvalue _ h
    refine ⟨.array space items, ⟨hspace, hwell⟩, ?_, ?_⟩
    · simpa [Doc.text] using htook.trans htook'
    · have hstart :
          p.position + ((0x5b : UInt8) :: space).length = p.position + 1 + space.length := by
        rw [List.length_cons]
        omega
      have hstop : p.position + 1 + space.length + items.text.length + 1 =
          p.position + (space.length + items.text.length + 2) := by omega
      simp only [htokens, htook.position, hstart, hstop, List.length_append, List.length_singleton,
        List.append_assoc, List.singleton_append, modify_append_cons] at htokens'
      rw [htokens', Doc.tokens]

/-- Every turn over a member takes bytes: the fuel that `parseObject` gives is enough. -/
theorem parseMembers_fuel (hvalue : Sound value) {object : Nat} {fuel : Nat} {p p' : JsonParser}
    (h : parseMembers value object fuel p = some p') {enough : Nat}
    (henough : p.text.length < p.position + enough) :
    parseMembers value object enough p = some p' := by
  -- Induction on the fuel of the parse that succeeded.
  induction fuel generalizing p enough with
  | zero => exact nomatch h
  | succ fuel ih =>
    rw [parseMembers] at h
    obtain ⟨q, hname, h⟩ := Option.bind_eq_some_iff.mp h
    dsimp only at h
    split at h
    next hcolon =>
      obtain ⟨r, hread, h⟩ := Option.bind_eq_some_iff.mp h
      obtain ⟨name, beforeColon, afterColon, behind, doc, -, -, -, -, -, htook, -⟩ :=
        member_sound hvalue hname hcolon hread
      -- The member is in the text, so the other fuel is not used up.
      have hinside := htook.inside
      have hposition := htook.position
      simp only [List.length_cons] at hinside hposition
      obtain ⟨enough, rfl⟩ : ∃ n, enough = n + 1 := ⟨enough - 1, by omega⟩
      rw [parseMembers, hname]
      simp only [Option.bind_eq_bind, Option.bind_some, hcolon, if_true, hread]
      split at h
      · next hbrace => rw [if_pos hbrace]; exact h
      · next hbrace =>
        rw [if_neg hbrace]
        split at h
        · next hcomma =>
          rw [if_pos hcomma]
          obtain ⟨afterComma, -, hskip⟩ := JsonParser.Took.skipSpace (r.skipSpace.advance 1)
          have hnext := (htook.trans (JsonParser.Took.advance hcomma)).trans hskip
          refine ih h ?_
          rw [hnext.text, hnext.position]
          simp only [List.length_append, List.length_cons]
          omega
        · exact nomatch h
    · exact nomatch h

theorem parseItems_fuel (hvalue : Sound value) {array : Nat} {fuel : Nat} {p p' : JsonParser}
    (h : parseItems value array fuel p = some p') {enough : Nat}
    (henough : p.text.length < p.position + enough) :
    parseItems value array enough p = some p' := by
  -- Induction on the fuel of the parse that succeeded.
  induction fuel generalizing p enough with
  | zero => exact nomatch h
  | succ fuel ih =>
    rw [parseItems] at h
    obtain ⟨r, hread, h⟩ := Option.bind_eq_some_iff.mp h
    obtain ⟨doc, -, htaken, -⟩ := hvalue hread
    obtain ⟨behind, -, hskip⟩ := JsonParser.Took.skipSpace r
    have htook := htaken.trans hskip
    dsimp only at h
    split at h
    · next hbracket =>
      -- The bracket is in the text, so the other fuel is not used up.
      have hinside := (htook.trans (JsonParser.Took.advance hbracket)).inside
      rw [List.length_append, List.length_singleton] at hinside
      obtain ⟨enough, rfl⟩ : ∃ n, enough = n + 1 := ⟨enough - 1, by omega⟩
      rw [parseItems, hread]
      simp only [Option.bind_eq_bind, Option.bind_some, hbracket, if_true]
      exact h
    · next hbracket =>
      split at h
      · next hcomma =>
        have hinside := (htook.trans (JsonParser.Took.advance hcomma)).inside
        rw [List.length_append, List.length_singleton] at hinside
        obtain ⟨enough, rfl⟩ : ∃ n, enough = n + 1 := ⟨enough - 1, by omega⟩
        rw [parseItems, hread]
        simp only [Option.bind_eq_bind, Option.bind_some, hcomma, if_true]
        obtain ⟨afterComma, -, hskip'⟩ := JsonParser.Took.skipSpace (r.skipSpace.advance 1)
        have hnext := (htook.trans (JsonParser.Took.advance hcomma)).trans hskip'
        refine ih h ?_
        rw [hnext.text, hnext.position]
        simp only [List.length_append, List.length_cons]
        omega
      · exact nomatch h

/-- Values of every depth are documents: by induction on the levels that are left. -/
theorem parseValue_sound (levels : Nat) : Sound (parseValue levels) := by
  -- Strings and primitives need no levels.
  have hflat {p p' : JsonParser} {parent : Int}
      (h : (if p.text[p.position]? = some 0x22 then p.parseString parent else p.parsePrimitive
        parent) = some p') :
      ∃ doc : Doc, doc.WellFormed ∧ p.Took doc.text p' ∧
        p'.tokens = p.tokens ++ doc.tokens p.position parent p.tokens.length := by
    split at h
    · obtain ⟨raw, hlength, htook, htokens⟩ := JsonParser.Took.parseString h
      exact ⟨.string raw, hlength, htook, htokens⟩
    · obtain ⟨raw, hne, hplain, hvalid, htook, htokens⟩ := JsonParser.Took.parsePrimitive h
      exact ⟨.primitive raw, ⟨hne, hplain, hvalid⟩, htook, htokens⟩
  induction levels with
  | zero =>
    intro p p' parent h
    rw [parseValue] at h
    split at h
    · exact nomatch h
    · next b hb =>
      split at h
      · exact nomatch h
      · split at h
        · exact nomatch h
        · exact hflat (by simpa [hb] using h)
  | succ levels ih =>
    intro p p' parent h
    rw [parseValue] at h
    split at h
    · exact nomatch h
    · next b hb =>
      split at h
      · next hbrace => exact parseObject_sound ih (hbrace ▸ hb) h
      · split at h
        · next hbracket => exact parseArray_sound ih (hbracket ▸ hb) h
        · exact hflat (by simpa [hb] using h)

/-- A text that is accepted is that of a document inside white space. -/
theorem parseJson_sound {text : Bytes} {capacity : Nat} {tokens : List Token}
    (h : parseJson text capacity = some tokens) : ∃ doc : Doc, ∃ space behind, doc.WellFormed ∧
    IsSpace space ∧
      IsSpace behind ∧ text = space ++ (doc.text ++ behind) ∧ tokens =
        doc.tokens space.length (-1) 0 := by
  rw [parseJson] at h
  split at h
  · exact nomatch h
  · obtain ⟨p, hread, h⟩ := Option.bind_eq_some_iff.mp h
    obtain ⟨space, hspace, hskip⟩ := JsonParser.Took.skipSpace (JsonParser.mk text 0 [] capacity)
    obtain ⟨doc, hdoc, htook, htokens⟩ := parseValue_sound maxLevels hread
    obtain ⟨behind, hbehind, hskip'⟩ := JsonParser.Took.skipSpace p
    have hall := (hskip.trans htook).trans hskip'
    dsimp only at h
    split at h
    · next hend =>
      obtain rfl := Option.some.inj h
      have hrest : p.skipSpace.rest = [] := by
        rw [JsonParser.rest, hall.text, hend]
        exact List.drop_length
      refine ⟨doc, space, behind, hdoc, hspace, hbehind, ?_, ?_⟩
      · have htext := hall.rest
        rw [hrest, List.append_nil, List.append_assoc] at htext
        exact htext
      · rw [JsonParser.skipSpace_tokens, htokens, hskip.position]
        simp
    · exact nomatch h

end MsysHal.Native.Json
