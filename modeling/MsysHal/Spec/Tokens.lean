import MsysHal.Spec.TokenSpans

/-!
# Walks over flat tokens

The walks over the flat array tell what the document says: they pass from one member of
an object to the next, however deep the values are.

## Key results

- `fieldFrom_members`, `countFrom_members`, `validFrom_members`: the walks over members
- `token_walk`: every object of an accepted text
-/

namespace MsysHal.Native.Json

variable {json : Bytes} {tokens : List Token} {object stop start index : Nat}

/-! ## Members of an object -/

/-- A member: its name, its value with the position where the value starts, and the index of
    the value's token. -/
structure Entry where
  name : Bytes
  value : Doc
  start : Nat
  index : Nat

/-- The members of an object in their order. -/
def Members.entries (start index : Nat) : Members → List Entry
  | .nil => []
  | .cons name beforeColon afterColon value behind afterComma rest =>
    let valueStart := start + (name.length + beforeColon.length + afterColon.length + 3)
    ⟨name, value, valueStart, index + 1⟩ :: rest.entries
      (valueStart + (value.text.length + behind.length + afterComma.length + 1))
        (index + 1 + value.count)

/-- The index of the value of the only member of a name; -1 if there is none, and -2 if there
    are several. -/
def lookup (entries : List Entry) (key : Bytes) : Int :=
  match entries.filter (·.name == key) with
  | [] => -1
  | [e] => e.index
  | _ => -2

theorem Members.lt_index {start index : Nat} {members : Members} {e : Entry}
    (h : e ∈ members.entries start index) : index < e.index := by
  match members, h with
  | .cons name beforeColon afterColon value behind afterComma rest, h =>
    rcases List.mem_cons.mp h with rfl | h
    · exact Nat.lt_succ_self index
    · have := Members.lt_index h
      omega

theorem Members.length_entries (start index : Nat) (members : Members) :
    (members.entries start index).length ≤ members.count := by
  match members with
  | .nil => exact le_refl 0
  | .cons name beforeColon afterColon value behind afterComma rest =>
    have := Members.length_entries
      (start + (name.length + beforeColon.length + afterColon.length + 3) +
      (value.text.length + behind.length + afterComma.length + 1)) (index + 1 + value.count) rest
    simp only [entries, List.length_cons, count]
    omega

/-- The walk is at its end. -/
theorem Members.At.nil (h : Members.nil.At json tokens object stop start index) :
    tokens[index]? = none ∨ ∃ t, tokens[index]? = some t ∧ ¬(t.start : Int) < stop := by
  obtain ⟨after, htokens, hafter⟩ := h.tokens
  rw [← List.head?_drop, htokens, Members.tokens, List.nil_append]
  cases after with
  | nil => exact .inl rfl
  | cons t after =>
    have := hafter t List.mem_cons_self
    exact .inr ⟨t, rfl, by omega⟩

/-- What a walk sees at a member: its name, its value, and where the next member is. -/
structure Sees (json : Bytes) (tokens : List Token) (object stop index : Nat)
    (name : Bytes) (next : Nat) (t v : Token) : Prop where
  name_at : tokens[index]? = some t
  value_at : tokens[index + 1]? = some v
  inside : (t.start : Int) < stop
  type : t.type = .string
  parent : t.parent = object
  value_parent : v.parent = object
  raw : t.raw json = name
  next : tokenNext tokens (index + 1) = next

theorem Members.At.sees {name beforeColon afterColon behind afterComma : Bytes} {value : Doc}
    {rest : Members}
    (h : (Members.cons name beforeColon afterColon value behind afterComma rest).At json tokens
      object stop start
      index) : ∃ t v, Sees json tokens object stop index name (index + 1 + value.count) t v := by
  obtain ⟨t, ht, htype, hparent, hstart, hraw⟩ := h.name_token
  obtain ⟨v, hv, -, hvparent⟩ := h.value_at.head
  exact ⟨t, v, ht, hv, by omega, htype, hparent, hvparent, hraw, tokenNext_value h.value_at⟩

/-- `object_field` finds the member of a name among those that are left. -/
theorem fieldFrom_members {key : Bytes} (fuel : Nat) {members : Members} {start index : Nat}
    {found : Int}
    (h : members.At json tokens object stop start index)
    (hfuel : (members.entries start index).length ≤ fuel) :
    fieldFrom json tokens object stop key fuel index found =
      match (members.entries start index).filter (·.name == key) with
      | [] => found
      | [e] => if found ≥ 0 then -2 else e.index
      | _ => -2 := by
  induction fuel generalizing members start index found with
  | zero =>
    rw [List.length_eq_zero_iff.mp (Nat.le_zero.mp hfuel)]
    rfl
  | succ fuel ih =>
    rw [fieldFrom]
    cases members with
    | nil =>
      obtain hnone | ⟨t, ht, hstart⟩ := h.nil
      · rw [hnone]
        rfl
      · simp only [ht, hstart, if_false]
        rfl
    | cons name beforeColon afterColon value behind afterComma rest =>
      obtain ⟨t, v, hsees⟩ := h.sees
      have hmember : isMember object t v = true := by
        simp [isMember, hsees.type, hsees.parent, hsees.value_parent]
      have hequal : rawStringEqual json t key = (name == key) := by
        simp [rawStringEqual, hsees.type, hsees.raw]
      have hrest (found : Int) := @ih _ _ _ found h.rest_at (Nat.le_of_succ_le_succ hfuel)
      simp only [hsees.name_at, hsees.value_at, hsees.inside, hmember, hequal, hsees.next,
        hrest, if_true, Members.entries, List.filter_cons]
      -- A first match is kept, a second one makes the answer -2.
      by_cases hkey : name == key
      · simp only [hkey, if_true]
        generalize (rest.entries _ _).filter (·.name == key) = others
        by_cases hfound : found ≥ 0
        · cases others <;> simp [hfound]
        · simp only [hfound, if_false]
          match others with
          | [] => rfl
          | [e] => exact if_pos (by omega)
          | _ :: _ :: _ => rfl
      · simp only [hkey, if_false, Bool.false_eq_true]

/-- `object_field_count` counts the members that are left. -/
theorem countFrom_members (fuel : Nat) {members : Members} {start index : Nat} {fields : Int}
    (h : members.At json tokens object stop start index)
    (hfuel : (members.entries start index).length ≤ fuel) :
    countFrom tokens object stop fuel index fields =
      fields + (members.entries start index).length := by
  induction fuel generalizing members start index fields with
  | zero =>
    rw [List.length_eq_zero_iff.mp (Nat.le_zero.mp hfuel)]
    simp [countFrom]
  | succ fuel ih =>
    rw [countFrom]
    cases members with
    | nil =>
      obtain hnone | ⟨t, ht, hstart⟩ := h.nil
      · simp [hnone, Members.entries]
      · simp [ht, hstart, Members.entries]
    | cons name beforeColon afterColon value behind afterComma rest =>
      obtain ⟨t, v, hsees⟩ := h.sees
      have hrest (fields : Int) := @ih _ _ _ fields h.rest_at (Nat.le_of_succ_le_succ hfuel)
      simp only [hsees.name_at, hsees.value_at, hsees.inside, hsees.parent, hsees.value_parent,
        hsees.next, hrest, and_self, if_true, Members.entries, List.length_cons]
      omega

/-- The names before a member are compared with its own. -/
theorem repeatedFrom_members {limit : Nat} {name : Token} (fuel : Nat) {members : Members}
    {start index : Nat}
    (h : members.At json tokens object stop start index)
    (hfuel : (members.entries start index).length ≤ fuel)
    (hlimit : limit ≤ index + members.count) :
    repeatedFrom json tokens object limit name fuel index =
      (members.entries start index).any fun e =>
        decide (e.index ≤ limit) && e.name == name.raw json := by
  induction fuel generalizing members start index with
  | zero =>
    rw [List.length_eq_zero_iff.mp (Nat.le_zero.mp hfuel)]
    rfl
  | succ fuel ih =>
    rw [repeatedFrom]
    cases members with
    | nil => exact if_neg (by simpa [Members.count] using hlimit)
    | cons name' beforeColon afterColon value behind afterComma rest =>
      obtain ⟨t, v, hsees⟩ := h.sees
      have hrest :=
        ih h.rest_at (Nat.le_of_succ_le_succ hfuel) (by rw [Members.count] at hlimit; omega)
      by_cases hbefore : index < limit
      · have hle : index + 1 ≤ limit := hbefore
        simp only [hbefore, hsees.name_at, hsees.parent, hsees.raw, hsees.next, hrest, hle,
          true_and, if_true, Members.entries, List.any_cons, decide_true, Bool.true_and]
        by_cases hname : name' = name.raw json
        · simp [hname]
        · simp [hname]
      · rw [if_neg hbefore, eq_comm, List.any_eq_false]
        intro e he
        have := Members.lt_index he
        simp only [Bool.and_eq_true, decide_eq_true_eq]
        omega

theorem Members.At.entries_le {members : Members}
    (h : members.At json tokens object stop start index)
    (start' : Nat) : (members.entries start' index).length ≤ tokens.length := by
  obtain ⟨after, htokens, -⟩ := h.tokens
  have hlength := congrArg List.length htokens
  rw [List.length_drop, List.length_append, Members.length_tokens] at hlength
  have := Members.length_entries start' index members
  omega

/-- The scan for a repeated name starts anew for each member, but it counts only up to the
    current one: it sees the members before it. -/
theorem repeatedFrom_done {all members : Members} {allStart start index : Nat}
    {done : List Entry} {name : Token}
    (hall : all.At json tokens object stop allStart (object + 1))
    (hdone : all.entries allStart (object + 1) = done ++ members.entries start index)
    (hbefore : ∀ e ∈ done, e.index ≤ index) (hcount : index ≤ object + 1 + all.count) :
    repeatedFrom json tokens object index name tokens.length (object + 1) =
      done.any (·.name == name.raw json) := by
  rw [repeatedFrom_members _ hall (hall.entries_le _) hcount, hdone, List.any_append]
  have hfront : done.any (fun e => decide (e.index ≤ index) && e.name == name.raw json) =
      done.any (·.name == name.raw json) := by
    rw [Bool.eq_iff_iff, List.any_eq_true, List.any_eq_true]
    constructor
    · rintro ⟨e, he, heq⟩
      exact ⟨e, he, (Bool.and_eq_true _ _ ▸ heq).2⟩
    · rintro ⟨e, he, heq⟩
      exact ⟨e, he, by simpa [hbefore e he] using heq⟩
  have hlater : (members.entries start index).any
      (fun e => decide (e.index ≤ index) && e.name == name.raw json) = false := by
    rw [List.any_eq_false]
    intro e he
    have := Members.lt_index he
    simp only [Bool.and_eq_true, decide_eq_true_eq]
    omega
  rw [hfront, hlater, Bool.or_false]

/-- A member that is known and new is put to those before the others. -/
theorem fresh_cons {allowed : List Bytes} {done others : List Entry} {e : Entry}
    (hin : e.name ∈ allowed) (hnew : ∀ d ∈ done, d.name ≠ e.name) :
    ((∀ f ∈ others, f.name ∈ allowed ∧ ∀ d ∈ done ++ [e], d.name ≠ f.name) ∧
      (others.map Entry.name).Nodup) ↔
      (∀ f ∈ e :: others, f.name ∈ allowed ∧ ∀ d ∈ done, d.name ≠ f.name) ∧
        ((e :: others).map Entry.name).Nodup := by
  rw [List.map_cons, List.nodup_cons, List.forall_mem_cons, List.mem_map]
  constructor
  · rintro ⟨hothers, hnodup⟩
    refine ⟨⟨⟨hin, hnew⟩, fun f hf => ⟨(hothers f hf).1, fun d hd => ?_⟩⟩, ?_, hnodup⟩
    · exact (hothers f hf).2 d (List.mem_append_left _ hd)
    · rintro ⟨f, hf, heq⟩
      exact (hothers f hf).2 e (List.mem_append_right _ List.mem_cons_self) heq.symm
  · rintro ⟨⟨-, hothers⟩, hnot, hnodup⟩
    refine ⟨fun f hf => ⟨(hothers f hf).1, fun d hd => ?_⟩, hnodup⟩
    rcases List.mem_append.mp hd with hd | hd
    · exact (hothers f hf).2 d hd
    · obtain rfl := List.mem_singleton.mp hd
      exact fun heq => hnot ⟨f, hf, heq.symm⟩

/-- `object_validate_fields` over the members that are left, when those before them are
    `done`. -/
theorem validFrom_members (allowed : List Bytes) {all : Members} {allStart : Nat}
    (hall : all.At json tokens object stop allStart (object + 1)) (fuel : Nat) {members : Members}
    {start index : Nat} (h : members.At json tokens object stop start index)
    (hfuel : (members.entries start index).length ≤ fuel)
    (done : List Entry)
    (hdone : all.entries allStart (object + 1) = done ++ members.entries start index)
    (hbefore : ∀ e ∈ done, e.index ≤ index)
    (hcount : index + members.count = object + 1 + all.count) :
    validFrom json tokens object stop allowed fuel index = true ↔
      (∀ e ∈ members.entries start index, e.name ∈ allowed ∧ ∀ d ∈ done, d.name ≠ e.name) ∧
      ((members.entries start index).map Entry.name).Nodup := by
  -- Induction on the fuel; `done` are the members that the loop has passed.
  induction fuel generalizing members start index done with
  | zero =>
    rw [List.length_eq_zero_iff.mp (Nat.le_zero.mp hfuel)]
    simp [validFrom]
  | succ fuel ih =>
    rw [validFrom]
    cases members with
    | nil =>
      -- Nothing is left: the next token starts behind the object, or there is none.
      obtain hnone | ⟨t, ht, hstart⟩ := h.nil
      · simp [hnone, Members.entries]
      · simp [ht, hstart, Members.entries]
    | cons name beforeColon afterColon value behind afterComma rest =>
      obtain ⟨t, v, hsees⟩ := h.sees
      have hmember : isMember object t v = true := by
        simp [isMember, hsees.type, hsees.parent, hsees.value_parent]
      have hknown : allowed.any (rawStringEqual json t) = decide (name ∈ allowed) := by
        rw [Bool.eq_iff_iff, List.any_eq_true, decide_eq_true_iff]
        simp [rawStringEqual, hsees.type, hsees.raw]
      have hrepeated : repeatedFrom json tokens object index t tokens.length (object + 1) =
          done.any (·.name == name) := by
        rw [repeatedFrom_done hall hdone hbefore (by rw [← hcount]; omega), hsees.raw]
      have hrest :=
        ih h.rest_at (Nat.le_of_succ_le_succ hfuel) (done ++ [⟨name, value, _, index + 1⟩])
        (by rw [hdone, List.append_assoc]; rfl) ?_ ?_
      · simp only [hsees.name_at, hsees.value_at, hsees.inside, hmember, hknown, hrepeated,
          hsees.next, if_true, Bool.not_true, Bool.false_eq_true, if_false]
        -- The member is refused for its name, for a name that came before, or not at all.
        by_cases hin : name ∈ allowed
        · by_cases hany : done.any (·.name == name)
          · obtain ⟨d, hd, heq⟩ := List.any_eq_true.mp hany
            simp only [hin, hany, decide_true, Bool.not_true, Bool.false_eq_true, if_false,
              if_true, false_iff]
            intro hgood
            exact (hgood.1 _ List.mem_cons_self).2 d hd (beq_iff_eq.mp heq)
          · have hnew : ∀ d ∈ done, d.name ≠ name := fun d hd heq =>
              hany (List.any_eq_true.mpr ⟨d, hd, beq_iff_eq.mpr heq⟩)
            simp only [hin, hany, decide_true, Bool.not_true, Bool.false_eq_true, if_false, hrest]
            exact fresh_cons hin hnew
        · simp only [hin, decide_false, Bool.not_false, if_true, Bool.false_eq_true, false_iff]
          intro hgood
          exact hin (hgood.1 _ List.mem_cons_self).1
      · intro e he
        rcases List.mem_append.mp he with he | he
        · have := hbefore e he
          omega
        · obtain rfl := List.mem_singleton.mp he
          exact Nat.le_add_right _ _
      · rw [Members.count] at hcount
        omega

/-! ## Objects of a document -/

mutual

/-- The objects of a document with their members, by the index of their token. -/
def Doc.objects (start index : Nat) : Doc → List (Nat × List Entry)
  | .string _ => []
  | .primitive _ => []
  | .object space members =>
    (index, members.entries (start + 1 + space.length) (index + 1)) ::
      members.objects (start + 1 + space.length) (index + 1)
  | .array space items => items.objects (start + 1 + space.length) (index + 1)

def Members.objects (start index : Nat) : Members → List (Nat × List Entry)
  | .nil => []
  | .cons name beforeColon afterColon value behind afterComma rest =>
    let valueStart := start + (name.length + beforeColon.length + afterColon.length + 3)
    value.objects valueStart (index + 1) ++
      rest.objects (valueStart + (value.text.length + behind.length + afterComma.length + 1))
        (index + 1 + value.count)

def Items.objects (start index : Nat) : Items → List (Nat × List Entry)
  | .nil => []
  | .cons value behind afterComma rest =>
    value.objects start index ++
      rest.objects (start + (value.text.length + behind.length + afterComma.length + 1))
        (index + value.count)

end

mutual

/-- Every token of an object is that of an object of the document. -/
theorem Doc.object_listed {start : Nat} {parent : Int} {index : Nat} {doc : Doc}
    {k : Nat} {t : Token}
    (h : (doc.tokens start parent index)[k]? = some t) (htype : t.type = .object) :
    ∃ entries, (index + k, entries) ∈ doc.objects start index := by
  have hnext (k : Nat) : index + 1 + k = index + (k + 1) := by omega
  cases doc with
  | string raw =>
    obtain rfl := List.mem_singleton.mp (List.mem_of_getElem? h)
    exact nomatch htype
  | primitive raw =>
    obtain rfl := List.mem_singleton.mp (List.mem_of_getElem? h)
    exact nomatch htype
  | object space members =>
    cases k with
    | zero => exact ⟨_, List.mem_cons_self⟩
    | succ k =>
      have hinside : (members.tokens (start + 1 + space.length) index (index + 1))[k]? = some t := h
      obtain ⟨entries, hmem⟩ := Members.object_listed hinside htype
      rw [hnext k] at hmem
      exact ⟨entries, List.mem_cons_of_mem _ hmem⟩
  | array space items =>
    cases k with
    | zero =>
      obtain rfl := Option.some.inj h
      exact nomatch htype
    | succ k =>
      have hinside : (items.tokens (start + 1 + space.length) index (index + 1))[k]? = some t := h
      obtain ⟨entries, hmem⟩ := Items.object_listed hinside htype
      rw [hnext k] at hmem
      exact ⟨entries, hmem⟩

theorem Members.object_listed {start : Nat} {parent : Int} {index : Nat} {members : Members}
    {k : Nat} {t : Token}
    (h : (members.tokens start parent index)[k]? = some t) (htype : t.type = .object) :
    ∃ entries, (index + k, entries) ∈ members.objects start index := by
  have hnext (k : Nat) : index + 1 + k = index + (k + 1) := by omega
  cases members with
  | nil => exact nomatch h
  | cons name beforeColon afterColon value behind afterComma rest =>
    cases k with
    | zero =>
      obtain rfl := Option.some.inj h
      exact nomatch htype
    | succ k =>
      rw [Members.tokens, List.getElem?_cons_succ, List.getElem?_append, Doc.length_tokens] at h
      split at h
      · obtain ⟨entries, hmem⟩ := Doc.object_listed h htype
        rw [hnext k] at hmem
        exact ⟨entries, List.mem_append_left _ hmem⟩
      · obtain ⟨entries, hmem⟩ := Members.object_listed h htype
        refine ⟨entries, List.mem_append_right _ ?_⟩
        have hindex : index + 1 + value.count + (k - value.count) = index + (k + 1) := by omega
        rwa [hindex] at hmem

theorem Items.object_listed {start : Nat} {parent : Int} {index : Nat} {items : Items}
    {k : Nat} {t : Token}
    (h : (items.tokens start parent index)[k]? = some t) (htype : t.type = .object) :
    ∃ entries, (index + k, entries) ∈ items.objects start index := by
  cases items with
  | nil => exact nomatch h
  | cons value behind afterComma rest =>
    rw [Items.tokens, List.getElem?_append, Doc.length_tokens] at h
    split at h
    · obtain ⟨entries, hmem⟩ := Doc.object_listed h htype
      exact ⟨entries, List.mem_append_left _ hmem⟩
    · obtain ⟨entries, hmem⟩ := Items.object_listed h htype
      refine ⟨entries, List.mem_append_right _ ?_⟩
      have hindex : index + value.count + (k - value.count) = index + k := by omega
      rwa [hindex] at hmem

end

section Item

variable {array : Nat} {behind afterComma : Bytes} {doc : Doc} {rest : Items}

theorem Items.At.behind_value
    (h : (Items.cons doc behind afterComma rest).At json tokens array stop start index) :
    ∃ after, tokens.drop index = doc.tokens start array index ++
        (rest.tokens (start + (doc.text.length + behind.length + afterComma.length + 1)) array
          (index + doc.count) ++ after) ∧
      ∀ t ∈ after, stop ≤ t.start := by
  obtain ⟨after, htokens, hafter⟩ := h.tokens
  refine ⟨after, ?_, hafter⟩
  rw [htokens, Items.tokens, List.append_assoc]

theorem Items.At.value_at
    (h : (Items.cons doc behind afterComma rest).At json tokens array stop start index) :
    doc.At json tokens array start index := by
  obtain ⟨after, htokens, hafter⟩ := h.behind_value
  have hstop := h.stop rfl
  simp only [Items.text, List.length_append] at hstop
  refine ⟨h.wellFormed.1, (List.prefix_append _ _).trans h.text, _, htokens, fun t ht => ?_⟩
  rcases List.mem_append.mp ht with ht | ht
  · have := Items.span h.wellFormed.2.2.2 ht
    omega
  · have := hafter t ht
    omega

theorem Items.At.rest_at
    (h : (Items.cons doc behind afterComma rest).At json tokens array stop start index) :
    rest.At json tokens array stop
      (start + (doc.text.length + behind.length + afterComma.length + 1)) (index + doc.count) := by
  obtain ⟨after, htokens, hafter⟩ := h.behind_value
  have hstop := h.stop rfl
  have hbehind := drop_behind _ htokens
  rw [Doc.length_tokens] at hbehind
  cases rest with
  | nil => exact ⟨trivial, List.nil_prefix, ⟨after, hbehind, hafter⟩, nofun⟩
  | cons doc' behind' afterComma' rest' =>
    refine ⟨h.wellFormed.2.2.2, ?_, ⟨after, hbehind, hafter⟩, fun _ => ?_⟩
    · have htext : (doc.text ++ (behind ++ 0x2c :: afterComma)) ++
          Items.text (.cons doc' behind' afterComma' rest') <+:
          json.drop start := by
        have := h.text
        rw [Items.text] at this
        simpa [Items.isNil] using this
      have hlength : (doc.text ++ (behind ++ 0x2c :: afterComma)).length =
          doc.text.length + behind.length + afterComma.length + 1 := by
        simp
        omega
      rw [← hlength]
      exact prefix_behind _ htext
    · rw [Items.text] at hstop
      simp [Items.isNil] at hstop
      omega

end Item

/-- The members of an object at a place. -/
theorem Doc.At.members_at {parent : Int} {space : Bytes} {members : Members}
    (h : (Doc.object space members).At json tokens parent start index) :
    members.At json tokens index (start + (space.length + members.text.length + 2))
      (start + 1 + space.length) (index + 1) := by
  obtain ⟨after, htokens, hafter⟩ := h.tokens
  simp only [Doc.text, List.length_cons, List.length_append, List.length_nil] at hafter
  refine ⟨h.wellFormed.2, ?_, ⟨after, drop_behind [_] htokens, fun t ht => ?_⟩, fun _ => by omega⟩
  · have htext : (0x7b :: space) ++ (members.text ++ [0x7d]) <+: json.drop start := h.text
    have hbehind := prefix_behind _ htext
    rw [List.length_cons, Nat.add_comm space.length, ← Nat.add_assoc] at hbehind
    exact (List.prefix_append _ _).trans hbehind
  · have := hafter t ht
    omega

theorem Doc.At.items_at {parent : Int} {space : Bytes} {items : Items}
    (h : (Doc.array space items).At json tokens parent start index) :
    items.At json tokens index (start + (space.length + items.text.length + 2))
      (start + 1 + space.length) (index + 1) := by
  obtain ⟨after, htokens, hafter⟩ := h.tokens
  simp only [Doc.text, List.length_cons, List.length_append, List.length_nil] at hafter
  refine ⟨h.wellFormed.2, ?_, ⟨after, drop_behind [_] htokens, fun t ht => ?_⟩, fun _ => by omega⟩
  · have htext : (0x5b :: space) ++ (items.text ++ [0x5d]) <+: json.drop start := h.text
    have hbehind := prefix_behind _ htext
    rw [List.length_cons, Nat.add_comm space.length, ← Nat.add_assoc] at hbehind
    exact (List.prefix_append _ _).trans hbehind
  · have := hafter t ht
    omega

/-- The token of an object, and its members behind it. -/
structure ObjectAt (json : Bytes) (tokens : List Token) (o : Nat) (entries : List Entry)
    (members : Members) (start stop : Nat) : Prop where
  token : ∃ t, tokens[o]? = some t ∧ t.type = .object ∧ t.stop = stop
  members_at : members.At json tokens o stop start (o + 1)
  entries_eq : entries = members.entries start (o + 1)

mutual

/-- Every object of a document is at the place of its token. -/
theorem Doc.At.object_at {parent : Int} {start index : Nat} {doc : Doc}
    (h : doc.At json tokens parent start index)
    {o : Nat} {entries : List Entry} (hmem : (o, entries) ∈ doc.objects start index) :
    ∃ members start stop, ObjectAt json tokens o entries members start stop := by
  cases doc with
  | string raw => exact absurd hmem List.not_mem_nil
  | primitive raw => exact absurd hmem List.not_mem_nil
  | object space members =>
    rcases List.mem_cons.mp hmem with heq | hmem
    · cases heq
      obtain ⟨t, ht, hhead, -⟩ := h.head
      cases hhead
      exact ⟨members, _, _, ⟨_, ht, rfl, rfl⟩, h.members_at, rfl⟩
    · exact h.members_at.object_at hmem
  | array space items => exact h.items_at.object_at hmem

theorem Members.At.object_at {object stop start index : Nat} {members : Members}
    (h : members.At json tokens object stop start index) {o : Nat} {entries : List Entry}
    (hmem : (o, entries) ∈ members.objects start index) :
    ∃ members start stop, ObjectAt json tokens o entries members start stop := by
  cases members with
  | nil => exact absurd hmem List.not_mem_nil
  | cons name beforeColon afterColon value behind afterComma rest =>
    rcases List.mem_append.mp hmem with hmem | hmem
    · exact h.value_at.object_at hmem
    · exact h.rest_at.object_at hmem

theorem Items.At.object_at {array stop start index : Nat} {items : Items}
    (h : items.At json tokens array stop start index) {o : Nat} {entries : List Entry}
    (hmem : (o, entries) ∈ items.objects start index) :
    ∃ members start stop, ObjectAt json tokens o entries members start stop := by
  cases items with
  | nil => exact absurd hmem List.not_mem_nil
  | cons value behind afterComma rest =>
    rcases List.mem_append.mp hmem with hmem | hmem
    · exact h.value_at.object_at hmem
    · exact h.rest_at.object_at hmem

end

/-- The values of the members are at their places. -/
theorem Members.At.entry_at {start index : Nat} {members : Members}
    (h : members.At json tokens object stop start index) {e : Entry}
    (he : e ∈ members.entries start index) :
    e.value.At json tokens object e.start e.index := by
  match members, h, he with
  | .cons name beforeColon afterColon value behind afterComma rest, h, he =>
    rcases List.mem_cons.mp he with rfl | he
    · exact h.value_at
    · exact h.rest_at.entry_at he

/-! ## The walks over an object -/

section Object

variable {o : Nat} {entries : List Entry} {members : Members}

theorem ObjectAt.field (h : ObjectAt json tokens o entries members start stop) (key : Bytes) :
    objectField json tokens o key = lookup entries key := by
  obtain ⟨t, ht, htype, hstop⟩ := h.token
  rw [objectField, ht]
  simp only [htype, if_true]
  rw [hstop, fieldFrom_members _ h.members_at (h.members_at.entries_le _), lookup, h.entries_eq]
  rfl

theorem ObjectAt.count (h : ObjectAt json tokens o entries members start stop) {t : Token}
    (ht : tokens[o]? = some t) : objectFieldCount tokens o t = entries.length := by
  obtain ⟨t', ht', -, hstop⟩ := h.token
  obtain rfl : t = t' := Option.some.inj (ht.symm.trans ht')
  rw [objectFieldCount, hstop, countFrom_members _ h.members_at (h.members_at.entries_le _),
    h.entries_eq, zero_add]

theorem ObjectAt.validate (h : ObjectAt json tokens o entries members start stop)
    (allowed : List Bytes) : objectValidateFields json tokens o allowed = true ↔
      (∀ e ∈ entries, e.name ∈ allowed) ∧ (entries.map Entry.name).Nodup := by
  obtain ⟨t, ht, htype, hstop⟩ := h.token
  have hwalk := validFrom_members allowed h.members_at _ h.members_at (h.members_at.entries_le _) []
    rfl nofun rfl
  rw [objectValidateFields, ht]
  simp only [htype, hstop, beq_self_eq_true, Bool.true_and, hwalk, h.entries_eq]
  simp

end Object

/-- The walks over the tokens of an accepted text tell what its document says. -/
theorem token_walk {text : Bytes} {capacity : Nat} {tokens : List Token}
    (h : parseJson text capacity = some tokens) :
    ∃ doc : Doc, ∃ space behind, doc.WellFormed ∧ IsSpace space ∧ IsSpace behind ∧
      text = space ++ (doc.text ++ behind) ∧ tokens = doc.tokens space.length (-1) 0 ∧
      ∀ o t, tokens[o]? = some t → t.type = .object → ∃ entries, (o, entries) ∈
        doc.objects space.length 0 ∧ (∀ e ∈ entries, e.value.At text tokens o e.start e.index) ∧
        (∀ key, objectField text tokens o key = lookup entries key) ∧
        objectFieldCount tokens o t = entries.length ∧
        ∀ allowed, objectValidateFields text tokens o allowed = true ↔
          (∀ e ∈ entries, e.name ∈ allowed) ∧ (entries.map Entry.name).Nodup := by
  obtain ⟨doc, space, behind, hwell, hspace, hbehind, htext, htokens⟩ := parseJson_sound h
  refine ⟨doc, space, behind, hwell, hspace, hbehind, htext, htokens, fun o t ht htype => ?_⟩
  have hdoc : doc.At text tokens (-1) space.length 0 := by
    refine ⟨hwell, ⟨behind, ?_⟩, ⟨[], by rw [htokens, List.drop_zero, List.append_nil], nofun⟩⟩
    rw [htext, List.drop_left]
  obtain ⟨entries, hmem⟩ := Doc.object_listed (htokens ▸ ht) htype
  rw [Nat.zero_add] at hmem
  obtain ⟨members, start, stop, hobject⟩ := hdoc.object_at hmem
  refine ⟨entries, hmem, fun e he => ?_, hobject.field, hobject.count ht, hobject.validate⟩
  exact hobject.members_at.entry_at (hobject.entries_eq ▸ he)

/-- An object with an object inside, whose member has a name that the outer one lacks. -/
def nestedText : Bytes := ascii "\x7b\"a\":\x7b\"b\":1\x7d,\"c\":2\x7d"

def nestedTokens : List Token :=
  [⟨.object, 0, 19, -1⟩, ⟨.string, 2, 3, 0⟩, ⟨.object, 5, 12, 0⟩, ⟨.string, 7, 8, 2⟩,
    ⟨.primitive, 10, 11, 2⟩, ⟨.string, 14, 15, 0⟩, ⟨.primitive, 17, 18, 0⟩]

theorem token_walk_nested : parseJson nestedText 8 = some nestedTokens ∧ ∃ entries : List Entry,
    (∀ e ∈ entries, e.value.At nestedText nestedTokens 0 e.start e.index) ∧
    lookup entries (ascii "b") = -1 ∧ lookup entries (ascii "c") = 6 ∧ entries.length = 2 := by
  have hparse : parseJson nestedText 8 = some nestedTokens := by decide +kernel
  obtain ⟨doc, space, behind, -, -, -, -, -, hwalk⟩ := token_walk hparse
  obtain ⟨entries, -, hvalues, hfield, hcount, -⟩ := hwalk 0 _ rfl rfl
  refine ⟨hparse, entries, hvalues, ?_, ?_, ?_⟩
  · rw [← hfield]
    decide +kernel
  · rw [← hfield]
    decide +kernel
  · have htwo : objectFieldCount nestedTokens 0 ⟨.object, 0, 19, -1⟩ = 2 := by decide +kernel
    rw [htwo] at hcount
    omega

end MsysHal.Native.Json
