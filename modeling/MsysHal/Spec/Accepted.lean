import MsysHal.Spec.Inventory

/-!
# Values that the validators accept

The other direction of the lemmas about the validators: what is known of a value is
enough for the validator to accept it, under any label.

## Key results

- `boundedString_text`, `matching_text`: texts that are accepted
- `boundedString_again`, `matching_again`: a checked text passes its check again
- `stringList_strings`, `objectPayload_object`: lists of texts and objects that are accepted
- `Sendable.item`, `Sendable.member`: the parts of a value that can be sent
- `size_str_le`, `size_strings_le`, `memberSize_str_le`: bytes of the parts of an object
-/

namespace MsysHal

open Python (Value memberSize)

/-! ## Texts and lists of texts -/

/-- A text that is not empty, not too long and has no NUL. -/
theorem boundedString_text {s : String} {maximum : Nat} (hne : s.isEmpty = false)
    (h : Plain maximum s) (label : String) : boundedString (.str s) label maximum = .ok s :=
  boundedString_ok_iff.mpr ⟨rfl, textOutside_str.mpr ⟨hne, h.1, h.2⟩⟩

theorem matching_text {grammar : String → Bool} {s : String} {maximum : Nat}
    (hne : s.isEmpty = false)
    (h : Plain maximum s) (hgrammar : grammar s = true) (complaint label : String) :
    matching grammar maximum complaint (.str s) label = .ok s :=
  matching_ok_iff.mpr ⟨rfl, textOutside_str.mpr ⟨hne, h.1, h.2⟩, hgrammar⟩

/-- A checked string passes the check again, under any label. -/
theorem boundedString_again {value : Value} {label : String} {maximum : Nat} {s : String}
    (h : boundedString value label maximum = .ok s) (label' : String) :
    boundedString (.str s) label' maximum = .ok s :=
  boundedString_ok_iff.mpr ⟨rfl, (boundedString_ok_iff.mp h).2⟩

/-- The same for a string that matches a grammar. -/
theorem matching_again {grammar : String → Bool} {maximum : Nat} {complaint : String}
    {value : Value} {label s : String} (h : matching grammar maximum complaint value label = .ok s)
    (label' : String) : matching grammar maximum complaint (.str s) label' = .ok s :=
  matching_ok_iff.mpr ⟨rfl, (matching_ok_iff.mp h).2⟩

/-- A string that matches a grammar is a bounded one. -/
theorem matching_bounded {grammar : String → Bool} {maximum : Nat} {complaint : String}
    {value : Value} {label s : String} (h : matching grammar maximum complaint value label = .ok s)
    (label' : String) : boundedString (.str s) label' maximum = .ok s :=
  boundedString_ok_iff.mpr ⟨rfl, (matching_ok_iff.mp h).2.1⟩

/-- Distinct strings within the bound are a string list. -/
theorem stringListFrom_strings {label : String} {maximum : Nat} (items acc : List String)
    (index : Nat) (hnodup : (acc ++ items).Nodup)
    (hbounded : ∀ s ∈ items, ∀ label, boundedString (.str s) label maximum = .ok s) :
    stringListFrom label maximum (items.map .str) index acc = .ok (acc ++ items) := by
  induction items generalizing acc index with
  | nil => rw [List.append_nil]; rfl
  | cons item items ih =>
    have hitem := hbounded item List.mem_cons_self
    have hfresh : acc.contains item = false := by
      rw [List.contains_eq_mem, decide_eq_false_iff_not]
      intro hmem
      exact (List.nodup_append.mp hnodup).2.2 item hmem item List.mem_cons_self rfl
    have hrest := ih (acc ++ [item]) (index + 1) (by rwa [List.append_assoc, List.singleton_append])
      fun s hs => hbounded s (List.mem_cons_of_mem _ hs)
    rw [List.map_cons, stringListFrom, hitem]
    simp only [bind, Except.bind, hfresh]
    rw [List.append_assoc, List.singleton_append] at hrest
    exact hrest

theorem stringList_strings {label : String} {maximumItems maximum : Nat} {items : List String}
    (hlen : items.length ≤ maximumItems) (hnodup : items.Nodup)
    (hbounded : ∀ s ∈ items, ∀ label, boundedString (.str s) label maximum = .ok s) :
    stringList (strings items) label maximumItems maximum = .ok items := by
  rw [strings, stringList, if_neg (by rw [List.length_map]; omega)]
  exact stringListFrom_strings items [] 0 hnodup hbounded

/-! ## Objects -/

theorem lookup_isSome {name : String} {members : List (String × Value)} :
    (Value.lookup name (members.map fun m => (.str m.1, m.2))).isSome = true ↔
      name ∈ members.map Prod.fst := by
  induction members with
  | nil => simp [Value.lookup]
  | cons member members ih =>
    rw [List.map_cons, Value.lookup, Value.isKey, List.map_cons, List.mem_cons, ← ih]
    by_cases h : member.1 = name
    · simp [h]
    · simp [h, Ne.symm h]

/-- An object within the bounds that has the keys of a request is accepted. -/
theorem objectPayload_object (keys : List String) {members : List (String × Value)}
    {allowed required : List String} {label : String} (hmembers : members.map Prod.fst = keys)
    (hkeys : (decide (keys.length ≤ 32) && keys.all allowed.contains &&
      required.all keys.contains) = true)
    (hbounded : Bounded 6 512 (.object members)) :
    objectPayload (.object members) allowed required label =
      .ok (members.map fun m => (.str m.1, m.2)) := by
  subst hmembers
  simp only [Bool.and_eq_true, decide_eq_true_eq, List.length_map, List.all_eq_true] at hkeys
  obtain ⟨⟨hlen, hallowed⟩, hrequired⟩ := hkeys
  have hunknown : ((members.map fun m => (Value.str m.1, m.2)).map (keyName ∘ Prod.fst)).filter
      (!allowed.contains ·) = [] := by
    rw [List.map_map, List.filter_eq_nil_iff]
    intro name hname
    rw [hallowed name hname]
    exact Bool.false_ne_true
  have hmissing : required.filter (fun name =>
      (Value.lookup name (members.map fun m => (.str m.1, m.2))).isNone) = [] := by
    rw [List.filter_eq_nil_iff]
    intro name hname
    have hmem : name ∈ members.map Prod.fst := by simpa using hrequired name hname
    rw [Option.isNone_iff_eq_none, ← ne_eq, ← Option.isSome_iff_ne_none]
    exact lookup_isSome.mpr hmem
  have hcheck := (ensureBoundedJson_ok_iff (.object members) label 6 512).mpr hbounded
  rw [Value.object] at hcheck ⊢
  rw [objectPayload, if_neg (by rw [List.length_map]; omega), hunknown, hmissing, hcheck]
  rfl

/-! ## Sizes -/

theorem size_str_le {text : String} {n : Nat} (h : text.length ≤ n) :
    (Value.str text).size ≤ 6 * n + 2 := by
  have hquote := Python.utf8Len_quote_le text
  rw [Value.size, Value.text]
  omega

theorem size_strings_le {items : List String} {k n : Nat} (hlen : items.length ≤ k)
    (hitems : ∀ s ∈ items, s.length ≤ n) : (strings items).size ≤ 2 + k * (6 * n + 3) := by
  have hsum : ((items.map Value.str).map Value.size).sum ≤ items.length * (6 * n + 2) := by
    rw [List.map_map]
    have := List.sum_le_card_nsmul (items.map (Value.size ∘ Value.str)) (6 * n + 2) (by
      rw [List.forall_mem_map]
      exact fun s hs => size_str_le (hitems s hs))
    rwa [List.length_map, smul_eq_mul] at this
  have hmul : items.length * (6 * n + 3) ≤ k * (6 * n + 3) := Nat.mul_le_mul_right _ hlen
  rw [strings, Python.size_list, List.length_map]
  rw [Nat.mul_succ] at hmul
  rw [Nat.mul_succ k] at hmul ⊢
  omega

/-- A key in quotes with its colon. -/
theorem memberSize_str_le (key : String) (k : Nat) {value : Value} {n : Nat} (hkey : key.length ≤ k)
    (hvalue : value.size ≤ n) : Python.memberSize (.str key, value) ≤ 6 * k + 3 + n := by
  have hquote := Python.utf8Len_quote_le key
  change String.utf8Len (Python.quote key) + 1 + value.size ≤ _
  omega

/-! ## Parts of a value -/

/-- A value that passes every check but those on the number of values and the depth. -/
structure Sendable (v : Value) : Prop where
  wellFormed : wellFormed v = true
  dumpable : v.dumpable = true
  size : v.size ≤ maxHalJson

theorem Bounded.sendable {D N : Nat} {v : Value} (h : Bounded D N v) : Sendable v :=
  ⟨h.wellFormed, h.dumpable, h.size⟩

theorem wellFormedItems_mem {items : List Value} (h : wellFormedItems items = true) {v : Value}
    (hv : v ∈ items) : wellFormed v = true := by
  induction items with
  | nil => exact nomatch hv
  | cons item items ih =>
    rw [wellFormedItems, Bool.and_eq_true] at h
    cases List.mem_cons.mp hv with
    | inl heq => exact heq ▸ h.1
    | inr hv => exact ih h.2 hv

theorem dumpableItems_mem {items : List Value} (h : Python.dumpableItems items = true) {v : Value}
    (hv : v ∈ items) : v.dumpable = true := by
  induction items with
  | nil => exact nomatch hv
  | cons item items ih =>
    rw [Python.dumpableItems, Bool.and_eq_true] at h
    cases List.mem_cons.mp hv with
    | inl heq => exact heq ▸ h.1
    | inr hv => exact ih h.2 hv

theorem wellFormedMembers_mem {members : List (Value × Value)}
    (h : wellFormedMembers members = true)
    {m : Value × Value} (hm : m ∈ members) : wellFormed m.2 = true := by
  induction members with
  | nil => cases hm
  | cons member members ih =>
    rw [wellFormedMembers, Bool.and_eq_true, Bool.and_eq_true] at h
    cases List.mem_cons.mp hm with
    | inl heq => exact heq ▸ h.1.2
    | inr hm => exact ih h.2 hm

theorem dumpableMembers_mem {members : List (Value × Value)}
    (h : Python.dumpableMembers members = true) {m : Value × Value} (hm : m ∈ members) :
    m.2.dumpable = true := by
  induction members with
  | nil => cases hm
  | cons member members ih =>
    rw [Python.dumpableMembers, Bool.and_eq_true, Bool.and_eq_true] at h
    cases List.mem_cons.mp hm with
    | inl heq => exact heq ▸ h.1.2
    | inr hm => exact ih h.2 hm

/-- The items of a list can be sent when the list can. -/
theorem Sendable.item {items : List Value} (h : Sendable (.list items)) {v : Value}
    (hv : v ∈ items) : Sendable v := by
  have hw := h.wellFormed
  have hsize := h.size
  have hle := List.le_sum_of_mem (List.mem_map_of_mem (f := Value.size) hv)
  rw [MsysHal.wellFormed, Bool.and_eq_true] at hw
  rw [Python.size_list] at hsize
  exact ⟨wellFormedItems_mem hw.2 hv, dumpableItems_mem h.dumpable hv, by omega⟩

/-- The members of an object can be sent when the object can. -/
theorem Sendable.member {members : List (String × Value)} (h : Sendable (.object members))
    {m : String × Value} (hm : m ∈ members) : Sendable m.2 := by
  have hmem : (Value.str m.1, m.2) ∈ members.map fun m => (Value.str m.1, m.2) :=
    List.mem_map_of_mem hm
  have hw := h.wellFormed
  have hsize := h.size
  have hle := List.le_sum_of_mem (List.mem_map_of_mem (f := memberSize) hmem)
  have hvalue : m.2.size ≤ memberSize (.str m.1, m.2) := Nat.le_add_left _ _
  rw [Value.object, MsysHal.wellFormed, Bool.and_eq_true] at hw
  rw [Value.object, Python.size_dict] at hsize
  exact ⟨wellFormedMembers_mem hw.2 hmem, dumpableMembers_mem h.dumpable hmem, by omega⟩

end MsysHal
