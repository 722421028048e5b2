import MsysHal.Spec.BoundedJson

/-!
# What the validators accept and what they complain about

For each validator of `msys_hal/validation.py`: what is known of a value it
returns, and that the message of an error it raises has no NUL, so that the
message can be put into a packet.

## Key results

- `boundedString_ok`, `stringList_ok`, `safeScalarMap_ok`: the values returned
- `boundedString_clean`, `stringList_clean`, `objectPayload_clean`: the messages
-/

namespace MsysHal

open Python (Value)

/-! ## Texts without NUL -/

theorem length_clip_le (n : Nat) (text : String) : (clip n text).length ≤ n := by
  rw [clip, String.length_ofList, List.length_take]
  exact min_le_left _ _

theorem hasNul_clip {n : Nat} {text : String} (h : hasNul text = false) :
    hasNul (clip n text) = false := by
  rw [hasNul, List.contains_eq_mem, decide_eq_false_iff_not] at h ⊢
  rw [clip, String.toList_ofList]
  exact fun hmem => h (List.mem_of_mem_take hmem)

theorem hasNul_natRepr (n : Nat) : hasNul (toString n) = false := by
  change hasNul (Nat.repr n) = false
  rw [hasNul, List.contains_eq_mem, decide_eq_false_iff_not, Nat.toList_repr]
  intro h
  cases Nat.isDigit_of_mem_toDigits (by omega) (by omega) h

theorem hasNul_intercalate {names : List String} (h : ∀ name ∈ names, hasNul name = false) :
    hasNul (String.intercalate ", " names) = false := by
  induction names with
  | nil => rw [String.intercalate_nil]; decide
  | cons name rest ih =>
    have hname := h name List.mem_cons_self
    have hrest := ih fun n hn => h n (List.mem_cons_of_mem name hn)
    cases rest with
    | nil => rw [String.intercalate_singleton]; exact hname
    | cons next rest =>
      rw [String.intercalate_cons_cons, hasNul_append, hasNul_append, hname, hrest]
      decide

theorem hasNul_sortStrings {names : List String} (h : ∀ name ∈ names, hasNul name = false) :
    ∀ name ∈ sortStrings names, hasNul name = false :=
  fun name hname => h name ((List.mem_insertionSort _).mp hname)

/-! ## Strings -/

section Strings

variable {value : Value} {label : String} {maximum : Nat}

theorem textOutside_str {s : String} : textOutside (.str s) maximum = some false ↔
    s.isEmpty = false ∧ s.length ≤ maximum ∧ hasNul s = false := by
  simp [textOutside, and_assoc]

theorem boundedText_ok_iff {text : Value} : boundedText value label maximum = .ok text ↔
    textOutside value maximum = some false ∧ text = value := by
  rw [boundedText]
  split <;> next h => simp [h, eq_comm]

theorem boundedText_clean (hl : hasNul label = false) {e : HalError}
    (h : boundedText value label maximum = .error e) : hasNul e.message = false := by
  rw [boundedText] at h
  split at h
  · cases h; exact (validation_plain hl (by decide)).message
  · cases h; exact (validation_plain hl (by decide)).message
  · cases h

theorem boundedString_ok_iff {s : String} : boundedString value label maximum = .ok s ↔
    value = .str s ∧ textOutside (.str s) maximum = some false := by
  rw [boundedString, Except.bind_eq_ok_iff]
  constructor
  · rintro ⟨text, htext, h⟩
    obtain ⟨hbounds, rfl⟩ := boundedText_ok_iff.mp htext
    split at h
    · cases h
      exact ⟨rfl, hbounds⟩
    · cases h
  · rintro ⟨rfl, hbounds⟩
    exact ⟨_, boundedText_ok_iff.mpr ⟨hbounds, rfl⟩, rfl⟩

theorem boundedString_ok {s : String} (h : boundedString value label maximum = .ok s) :
    value = .str s ∧ s.length ≤ maximum ∧ hasNul s = false := by
  obtain ⟨hvalue, hbounds⟩ := boundedString_ok_iff.mp h
  exact ⟨hvalue, (textOutside_str.mp hbounds).2⟩

theorem boundedString_clean (hl : hasNul label = false) {e : HalError}
    (h : boundedString value label maximum = .error e) : hasNul e.message = false := by
  rcases Except.bind_eq_error_iff.mp h with h | ⟨text, -, h⟩
  · exact boundedText_clean hl h
  · split at h
    · cases h
    · cases h; exact (validation_plain hl (by decide)).message

theorem matching_ok_iff {grammar : String → Bool} {complaint s : String} :
    matching grammar maximum complaint value label = .ok s ↔
      value = .str s ∧ textOutside (.str s) maximum = some false ∧ grammar s = true := by
  rw [matching, Except.bind_eq_ok_iff]
  constructor
  · rintro ⟨text, htext, h⟩
    obtain ⟨hbounds, rfl⟩ := boundedText_ok_iff.mp htext
    split at h
    · split at h
      · next hg =>
        cases h
        exact ⟨rfl, hbounds, hg⟩
      · cases h
    · cases h
  · rintro ⟨rfl, hbounds, hg⟩
    refine ⟨_, boundedText_ok_iff.mpr ⟨hbounds, rfl⟩, ?_⟩
    simp only [hg, if_true]
    rfl

theorem matching_ok {grammar : String → Bool} {complaint s : String}
    (h : matching grammar maximum complaint value label = .ok s) :
    value = .str s ∧ s.length ≤ maximum ∧ hasNul s = false ∧ grammar s = true := by
  obtain ⟨hvalue, hbounds, hg⟩ := matching_ok_iff.mp h
  obtain ⟨-, hlen, hnul⟩ := textOutside_str.mp hbounds
  exact ⟨hvalue, hlen, hnul, hg⟩

theorem matching_clean {grammar : String → Bool} {complaint : String} (hl : hasNul label = false)
    (hc : hasNul complaint = false) {e : HalError}
    (h : matching grammar maximum complaint value label = .error e) :
    hasNul e.message = false := by
  have hmessage : hasNul (label ++ " " ++ complaint) = false := by
    rw [hasNul_append, hasNul_append, hl, hc]
    decide
  rcases Except.bind_eq_error_iff.mp h with h | ⟨text, -, h⟩
  · exact boundedText_clean hl h
  · split at h
    · split at h
      · cases h
      · cases h
        exact hmessage
    · cases h
      exact hmessage

end Strings

/-! ## Lists of strings -/

section Lists

variable {label : String} {itemMaximum : Nat}

private theorem stringListFrom_ok {items : List Value} {index : Nat} {acc result : List String}
    (h : stringListFrom label itemMaximum items index acc = .ok result)
    (hacc : ∀ s ∈ acc, s.length ≤ itemMaximum ∧ hasNul s = false) :
    result.length = acc.length + items.length ∧
      ∀ s ∈ result, s.length ≤ itemMaximum ∧ hasNul s = false := by
  induction items generalizing index acc with
  | nil =>
    cases h
    exact ⟨rfl, hacc⟩
  | cons item rest ih =>
    obtain ⟨text, hb, h⟩ := Except.bind_eq_ok_iff.mp h
    obtain ⟨-, hlen, hnul⟩ := boundedString_ok hb
    dsimp only at h
    split at h
    · exact nomatch h
    · obtain ⟨hsize, hall⟩ := ih h (by
        intro s hs
        rcases List.mem_append.mp hs with hs | hs
        · exact hacc s hs
        · rw [List.mem_singleton] at hs
          exact hs ▸ ⟨hlen, hnul⟩)
      refine ⟨?_, hall⟩
      rw [hsize, List.length_append, List.length_singleton, List.length_cons]
      omega

theorem stringList_ok {value : Value} {maximumItems : Nat} {result : List String}
    (h : stringList value label maximumItems itemMaximum = .ok result) :
    result.length ≤ maximumItems ∧ ∀ s ∈ result, s.length ≤ itemMaximum ∧ hasNul s = false := by
  unfold stringList at h
  split at h
  · rw [Except.ite_error_eq_ok_iff, not_lt] at h
    obtain ⟨hlen, hall⟩ := stringListFrom_ok h.2 fun s hs => by cases hs
    refine ⟨?_, hall⟩
    rw [hlen, List.length_nil]
    omega
  · cases h

private theorem stringListFrom_clean (hl : hasNul label = false) {items : List Value} {index : Nat}
    {acc : List String} {e : HalError}
    (h : stringListFrom label itemMaximum items index acc = .error e) :
    hasNul e.message = false := by
  induction items generalizing index acc with
  | nil => exact nomatch h
  | cons item rest ih =>
    rcases Except.bind_eq_error_iff.mp h with h | ⟨text, -, h⟩
    · apply boundedString_clean _ h
      change hasNul (label ++ "[" ++ toString index ++ "]") = false
      rw [hasNul_append, hasNul_append, hasNul_append, hl, hasNul_natRepr]
      decide
    · dsimp only at h
      split at h
      · cases h; exact (validation_plain hl (by decide)).message
      · exact ih h

theorem stringList_clean (hl : hasNul label = false) {value : Value} {maximumItems : Nat}
    {e : HalError} (h : stringList value label maximumItems itemMaximum = .error e) :
    hasNul e.message = false := by
  have hmessage : hasNul (label ++ " must be a list with at most " ++ toString maximumItems ++
      " items") = false := by
    rw [hasNul_append, hasNul_append, hasNul_append, hl, hasNul_natRepr]
    decide
  unfold stringList at h
  split at h
  · split at h
    · cases h; exact hmessage
    · exact stringListFrom_clean hl h
  · cases h; exact hmessage

end Lists

/-! ## Objects -/

theorem safeScalarMap_ok {value : Value} {label : String} {maximumFields : Nat}
    {members : List (Value × Value)} (h : safeScalarMap value label maximumFields = .ok members) :
    value = .dict members ∧ Bounded 4 256 value := by
  unfold safeScalarMap at h
  split at h
  · dsimp only at h
    split at h
    · exact nomatch h
    · obtain ⟨_, hb, h⟩ := Except.bind_eq_ok_iff.mp h
      cases h
      exact ⟨rfl, (ensureBoundedJson_ok_iff _ _ _ _).mp hb⟩
  · exact nomatch h

theorem safeScalarMap_clean {value : Value} {label : String} (hl : hasNul label = false)
    {maximumFields : Nat} {e : HalError} (h : safeScalarMap value label maximumFields = .error e) :
    hasNul e.message = false := by
  unfold safeScalarMap at h
  split at h
  · dsimp only at h
    split at h
    · cases h; exact (validation_plain hl (by decide)).message
    · rcases Except.bind_eq_error_iff.mp h with h | ⟨_, -, h⟩
      · exact (ensureBoundedJson_plain hl h).message
      · exact nomatch h
  · cases h; exact (validation_plain hl (by decide)).message

/-- The keys of an object of the right shape have no NUL. -/
private theorem hasNul_keyName {members : List (Value × Value)}
    (h : wellFormedMembers members = true) :
    ∀ name ∈ members.map (keyName ∘ Prod.fst), hasNul name = false := by
  induction members with
  | nil => exact fun name hname => nomatch hname
  | cons member rest ih =>
    obtain ⟨key, value⟩ := member
    simp only [wellFormedMembers, Bool.and_eq_true] at h
    intro name hname
    rcases List.mem_cons.mp hname with rfl | hname
    · cases key with
      | str s =>
        have hkey := h.1.1
        rw [plainKey, Bool.and_eq_true, Bool.not_eq_true'] at hkey
        exact hkey.2
      | _ => exact (by decide : hasNul "?" = false)
    · exact ih h.2 name hname

/-- A complaint that lists names. -/
private theorem listing_clean {label complaint : String} {names : List String}
    (hl : hasNul label = false) (hc : hasNul complaint = false)
    (hnames : ∀ name ∈ names, hasNul name = false) :
    hasNul (label ++ complaint ++ String.intercalate ", " names) = false := by
  rw [hasNul_append, hasNul_append, hl, hc, hasNul_intercalate hnames]
  rfl

/-- The complaints of `object_payload` about a value of the right shape. -/
theorem objectPayload_clean {value : Value} (hw : wellFormed value = true)
    {allowed required : List String} {label : String} (hl : hasNul label = false)
    (hrequired : ∀ name ∈ required, hasNul name = false) {e : HalError}
    (h : objectPayload value allowed required label = .error e) : hasNul e.message = false := by
  unfold objectPayload at h
  split at h
  · next members =>
    rw [wellFormed, Bool.and_eq_true] at hw
    dsimp only at h
    split at h
    · cases h; exact (validation_plain hl (by decide)).message
    · split at h
      · cases h
        exact listing_clean hl (by decide) (hasNul_sortStrings fun name hname =>
          hasNul_keyName hw.2 name (List.mem_of_mem_filter hname))
      · split at h
        · cases h
          exact listing_clean hl (by decide) (hasNul_sortStrings fun name hname =>
            hrequired name (List.mem_of_mem_filter hname))
        · rcases Except.bind_eq_error_iff.mp h with h | ⟨_, -, h⟩
          · exact (ensureBoundedJson_plain hl h).message
          · exact nomatch h
  · cases h; exact (validation_plain hl (by decide)).message

end MsysHal
