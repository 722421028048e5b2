import MsysHal.ForStd.Except
import MsysHal.Python.Validation

/-!
# What the bounds on JSON values admit

`ensure_bounded_json` walks a value with a running count and stops at the first
thing it finds wrong. It succeeds exactly on the values within five bounds that
do not mention the walk: the number of values, the nesting depth, the shape of
the strings, keys and containers, whether the value can be written as JSON, and
the size of its text.

## Key results

- `walk_ok_iff`: when the walk succeeds, and the count it returns
- `ensureBoundedJson_ok_iff`: the bounds, without the walk
- `objectPayload_ok`, `wellFormed_lookup`: what is known of a checked object
- `ensureBoundedJson_plain`: the errors of the check
-/

namespace MsysHal

open Python (Value nodesItems nodesMembers heightItems heightMembers)

/-! ## The shape of values -/

/-- A string `walk` accepts. -/
def plainText (text : String) : Bool := text.length ≤ 4096 && !hasNul text

/-- A key `walk` accepts. -/
def plainKey : Value → Bool
  | .str name => name.length ≤ 128 && !hasNul name
  | .lone codes => codes.length ≤ 128 && !codes.contains 0
  | _ => false

mutual

/-- The checks `walk` makes on a value besides depth and count. -/
def wellFormed : Value → Bool
  | .null | .bool _ | .int _ => true
  | .float (.finite _ _) => true
  | .float .nonFinite => false
  | .str s => plainText s
  | .lone codes => codes.length ≤ 4096 && !codes.contains 0
  | .list items => items.length ≤ 256 && wellFormedItems items
  | .dict members => members.length ≤ 128 && wellFormedMembers members
  | .other => false

/-- `wellFormed` for the items of a list. -/
def wellFormedItems : List Value → Bool
  | [] => true
  | item :: rest => wellFormed item && wellFormedItems rest

/-- `wellFormed` for the members of a dict. -/
def wellFormedMembers : List (Value × Value) → Bool
  | [] => true
  | (key, value) :: rest => plainKey key && wellFormed value && wellFormedMembers rest

end

/-! ## The walk -/

theorem walkEnter_ok_iff (label : String) (D N depth count c : Nat) :
    walkEnter label D N depth count = .ok c ↔ c = count + 1 ∧ count + 1 ≤ N ∧ depth ≤ D := by
  simp only [walkEnter]
  split
  · simp only [reduceCtorEq, false_iff]; omega
  · split
    · simp only [reduceCtorEq, false_iff]; omega
    · simp only [Except.ok.injEq]; omega

private theorem bound_eq_false_iff (n m : Nat) (fault : Bool) :
    (decide (n > m) || fault) = false ↔ (decide (n ≤ m) && !fault) = true := by
  cases fault <;> simp

theorem walkKey_ok_iff (label : String) (key : Value) :
    walkKey label key = .ok () ↔ plainKey key = true := by
  cases key with
  | str name =>
    rw [walkKey, Except.ite_error_eq_ok_iff, Bool.not_eq_true, bound_eq_false_iff]
    exact and_iff_left rfl
  | lone codes =>
    rw [walkKey, Except.ite_error_eq_ok_iff, Bool.not_eq_true, bound_eq_false_iff]
    exact and_iff_left rfl
  | _ => simp only [walkKey, plainKey, if_true, reduceCtorEq, Bool.false_eq_true]

/-- Entering a value and then checking its content. -/
private theorem enter_ok_iff (label : String) (D N depth count c : Nat)
    (k : Nat → Except HalError Nat) :
    (walkEnter label D N depth count >>= k) = .ok c ↔
      (count + 1 ≤ N ∧ depth ≤ D) ∧ k (count + 1) = .ok c := by
  rw [Except.bind_eq_ok_iff]
  constructor
  · rintro ⟨n, hn, hk⟩
    obtain ⟨rfl, hN, hD⟩ := (walkEnter_ok_iff label D N depth count n).mp hn
    exact ⟨⟨hN, hD⟩, hk⟩
  · rintro ⟨⟨hN, hD⟩, hk⟩
    exact ⟨count + 1, (walkEnter_ok_iff label D N depth count _).mpr ⟨rfl, hN, hD⟩, hk⟩

/-- A scalar whose own check is `ok`. -/
private theorem scalar_ok_iff (label : String) (D N depth count c : Nat) (fault : Bool)
    (e : HalError) : (walkEnter label D N depth count >>= fun count =>
      if fault = true then .error e else .ok count) = .ok c ↔
      c = count + 1 ∧ count + 1 ≤ N ∧ depth ≤ D ∧ fault = false := by
  rw [enter_ok_iff, Except.ite_error_eq_ok_iff, Except.ok.injEq, Bool.not_eq_true]
  constructor
  · rintro ⟨⟨hN, hD⟩, hf, rfl⟩
    exact ⟨rfl, hN, hD, hf⟩
  · rintro ⟨rfl, hN, hD, hf⟩
    exact ⟨⟨hN, hD⟩, hf, rfl⟩

mutual

/-- When the walk of a value succeeds, and the count it returns. -/
theorem walk_ok_iff (label : String) (D N : Nat) (v : Value) (depth count c : Nat) :
    walk label D N v depth count = .ok c ↔
      c = count + v.nodes ∧ count + v.nodes ≤ N ∧ depth + v.height ≤ D ∧ wellFormed v = true := by
  cases v with
  | null => simp [walk, walkEnter_ok_iff, Value.nodes, Value.height, wellFormed]
  | bool b => simp [walk, walkEnter_ok_iff, Value.nodes, Value.height, wellFormed]
  | int n => simp [walk, walkEnter_ok_iff, Value.nodes, Value.height, wellFormed]
  | float f =>
    -- A number has to be finite.
    rw [walk, enter_ok_iff]
    cases f with
    | finite value repr => simp [Value.nodes, Value.height, wellFormed]; omega
    | nonFinite => simp [wellFormed]
  | str s =>
    rw [walk, scalar_ok_iff, bound_eq_false_iff]
    simp only [Value.nodes, Value.height, wellFormed, plainText, Nat.add_zero]
  | lone codes =>
    rw [walk, scalar_ok_iff, bound_eq_false_iff]
    simp only [Value.nodes, Value.height, wellFormed, Nat.add_zero]
  | list items =>
    -- A container is entered, and its parts are walked one level deeper.
    rw [walk, enter_ok_iff, Except.ite_error_eq_ok_iff, not_lt]
    simp only [Value.nodes, Value.height, wellFormed, Bool.and_eq_true, decide_eq_true_eq]
    constructor
    · rintro ⟨⟨hN, hD⟩, hlen, hitems⟩
      obtain ⟨rfl, hN', hD', hw⟩ :=
        (walkItems_ok_iff label D N items depth (count + 1) c hD hN).mp hitems
      exact ⟨by omega, by omega, hD', hlen, hw⟩
    · rintro ⟨rfl, hN, hD, hlen, hw⟩
      refine ⟨⟨by omega, by omega⟩, hlen, ?_⟩
      rw [walkItems_ok_iff label D N items depth (count + 1) _ (by omega) (by omega)]
      exact ⟨by omega, by omega, hD, hw⟩
  | dict members =>
    rw [walk, enter_ok_iff, Except.ite_error_eq_ok_iff, not_lt]
    simp only [Value.nodes, Value.height, wellFormed, Bool.and_eq_true, decide_eq_true_eq]
    constructor
    · rintro ⟨⟨hN, hD⟩, hlen, hmembers⟩
      obtain ⟨rfl, hN', hD', hw⟩ :=
        (walkMembers_ok_iff label D N members depth (count + 1) c hD hN).mp hmembers
      exact ⟨by omega, by omega, hD', hlen, hw⟩
    · rintro ⟨rfl, hN, hD, hlen, hw⟩
      refine ⟨⟨by omega, by omega⟩, hlen, ?_⟩
      rw [walkMembers_ok_iff label D N members depth (count + 1) _ (by omega) (by omega)]
      exact ⟨by omega, by omega, hD, hw⟩
  | other =>
    rw [walk, enter_ok_iff]
    simp only [reduceCtorEq, and_false, wellFormed, Bool.false_eq_true]

/-- `walk_ok_iff` for the items of a list that has been entered. -/
theorem walkItems_ok_iff (label : String) (D N : Nat) (items : List Value) (depth count c : Nat)
    (hdepth : depth ≤ D) (hcount : count ≤ N) :
    walkItems label D N items (depth + 1) count = .ok c ↔
      c = count + nodesItems items ∧ count + nodesItems items ≤ N ∧
        depth + heightItems items ≤ D ∧ wellFormedItems items = true := by
  cases items with
  | nil =>
    simp only [walkItems, nodesItems, heightItems, wellFormedItems, Except.ok.injEq, Nat.add_zero]
    exact ⟨fun h => ⟨h.symm, hcount, hdepth, trivial⟩, fun h => h.1.symm⟩
  | cons item rest =>
    rw [walkItems, Except.bind_eq_ok_iff]
    simp only [walk_ok_iff label D N item, nodesItems, heightItems, wellFormedItems,
      Bool.and_eq_true]
    constructor
    · rintro ⟨n, ⟨rfl, hN, hD, hw⟩, hrest⟩
      obtain ⟨rfl, hN', hD', hw'⟩ := (walkItems_ok_iff label D N rest depth _ c hdepth hN).mp hrest
      exact ⟨by omega, by omega, by omega, hw, hw'⟩
    · rintro ⟨rfl, hN, hD, hw, hw'⟩
      refine ⟨count + item.nodes, ⟨rfl, by omega, by omega, hw⟩, ?_⟩
      rw [walkItems_ok_iff label D N rest depth _ _ hdepth (by omega)]
      exact ⟨by omega, by omega, by omega, hw'⟩

/-- `walk_ok_iff` for the members of a dict that has been entered. -/
theorem walkMembers_ok_iff (label : String) (D N : Nat) (members : List (Value × Value))
    (depth count c : Nat) (hdepth : depth ≤ D) (hcount : count ≤ N) :
    walkMembers label D N members (depth + 1) count = .ok c ↔
      c = count + nodesMembers members ∧ count + nodesMembers members ≤ N ∧
        depth + heightMembers members ≤ D ∧ wellFormedMembers members = true := by
  cases members with
  | nil =>
    simp only [walkMembers, nodesMembers, heightMembers, wellFormedMembers, Except.ok.injEq,
      Nat.add_zero]
    exact ⟨fun h => ⟨h.symm, hcount, hdepth, trivial⟩, fun h => h.1.symm⟩
  | cons member rest =>
    obtain ⟨key, value⟩ := member
    rw [walkMembers, Except.bind_eq_ok_iff]
    simp only [Except.bind_eq_ok_iff, walk_ok_iff label D N value, nodesMembers, heightMembers,
      wellFormedMembers, Bool.and_eq_true]
    constructor
    · rintro ⟨_, hkey, n, ⟨rfl, hN, hD, hw⟩, hrest⟩
      obtain ⟨rfl, hN', hD', hw'⟩ :=
        (walkMembers_ok_iff label D N rest depth _ c hdepth hN).mp hrest
      exact ⟨by omega, by omega, by omega, ⟨(walkKey_ok_iff label key).mp hkey, hw⟩, hw'⟩
    · rintro ⟨rfl, hN, hD, ⟨hkey, hw⟩, hw'⟩
      refine ⟨(), (walkKey_ok_iff label key).mpr hkey, count + value.nodes,
        ⟨rfl, by omega, by omega, hw⟩, ?_⟩
      rw [walkMembers_ok_iff label D N rest depth _ _ hdepth (by omega)]
      exact ⟨by omega, by omega, by omega, hw'⟩

end

/-! ## The bounds -/

/-- Within the bounds of `ensure_bounded_json` for a depth and a number of values. -/
structure Bounded (D N : Nat) (v : Value) : Prop where
  nodes : v.nodes ≤ N
  height : v.height ≤ D
  wellFormed : wellFormed v = true
  dumpable : v.dumpable = true
  size : v.size ≤ maxHalJson

/-- `ensure_bounded_json` accepts exactly the values within its bounds. -/
theorem ensureBoundedJson_ok_iff (v : Value) (label : String) (D N : Nat) :
    ensureBoundedJson v label D N = .ok () ↔ Bounded D N v := by
  rw [ensureBoundedJson, Except.bind_eq_ok_iff]
  simp only [walk_ok_iff, Nat.zero_add, Python.dumps]
  constructor
  · rintro ⟨c, ⟨-, hN, hD, hw⟩, hdump⟩
    split at hdump
    · exact nomatch hdump
    · next encoded hd =>
      split at hd
      · next hdumpable =>
        rw [Option.some.injEq] at hd
        subst hd
        rw [Except.ite_error_eq_ok_iff, not_lt] at hdump
        exact ⟨hN, hD, hw, hdumpable, hdump.1⟩
      · exact nomatch hd
  · rintro ⟨hN, hD, hw, hdump, hsize⟩
    refine ⟨v.nodes, ⟨rfl, hN, hD, hw⟩, ?_⟩
    rw [if_pos hdump]
    exact if_neg (not_lt.mpr hsize)

/-! ## Objects -/

/-- What `object_payload` returns are the members of an object within its bounds. -/
theorem objectPayload_ok {value : Value} {allowed required : List String} {label : String}
    {members : List (Value × Value)}
    (h : objectPayload value allowed required label = .ok members) :
    value = .dict members ∧ Bounded 6 512 value := by
  unfold objectPayload at h
  split at h
  · next found =>
    dsimp only at h
    split at h
    · exact nomatch h
    · split at h
      · exact nomatch h
      · split at h
        · exact nomatch h
        · obtain ⟨_, hb, h⟩ := Except.bind_eq_ok_iff.mp h
          cases h
          exact ⟨rfl, (ensureBoundedJson_ok_iff _ _ _ _).mp hb⟩
  · exact nomatch h

/-- What an object of the right shape holds has the right shape. -/
theorem wellFormed_lookup {members : List (Value × Value)} {name : String} {v : Value}
    (h : wellFormedMembers members = true) (hv : Value.lookup name members = some v) :
    wellFormed v = true := by
  induction members with
  | nil => exact nomatch hv
  | cons member rest ih =>
    obtain ⟨key, value⟩ := member
    simp only [wellFormedMembers, Bool.and_eq_true] at h
    rw [Value.lookup] at hv
    split at hv
    · rw [Option.some.injEq] at hv
      exact hv ▸ h.1.2
    · exact ih h.2 hv

/-! ## The errors -/

@[simp] theorem hasNul_append (a b : String) : hasNul (a ++ b) = (hasNul a || hasNul b) := by
  simp only [hasNul, String.toList_append, List.contains_eq_mem, List.mem_append,
    Bool.decide_or]

/-- An error without details and without NUL in its texts. -/
structure PlainError (e : HalError) : Prop where
  details : e.details = []
  code : hasNul e.code = false
  message : hasNul e.message = false

/-- A `ValidationError` about a label. -/
theorem validation_plain {label suffix : String} (hl : hasNul label = false)
    (hs : hasNul suffix = false) : PlainError (.validation (label ++ suffix)) where
  details := rfl
  code := (by decide : hasNul "HAL_BAD_PAYLOAD" = false)
  message := by
    show hasNul (label ++ suffix) = false
    rw [hasNul_append, hl, hs]
    rfl

private theorem walkEnter_plain {label : String} (hl : hasNul label = false) {D N depth count : Nat}
    {e : HalError} (h : walkEnter label D N depth count = .error e) : PlainError e := by
  simp only [walkEnter] at h
  split at h
  · cases h; exact validation_plain hl (by decide)
  · split at h
    · cases h; exact validation_plain hl (by decide)
    · exact nomatch h

private theorem walkKey_plain {label : String} (hl : hasNul label = false) {key : Value}
    {e : HalError} (h : walkKey label key = .error e) : PlainError e := by
  have hguard : ∀ (bad : Bool) (complaint : HalError),
      (if bad then .error complaint else .ok ()) = (.error e : Except HalError Unit) →
        complaint = e := by
    intro bad complaint hbad
    cases bad with
    | false => exact nomatch hbad
    | true => exact Except.error.inj hbad
  rw [← hguard _ _ h]
  exact validation_plain hl (by decide)

mutual

/-- Every error of the walk names the label. -/
private theorem walk_plain {label : String} (hl : hasNul label = false) (D N : Nat) (v : Value)
    {depth count : Nat} {e : HalError} (h : walk label D N v depth count = .error e) :
    PlainError e := by
  -- every constructor but the first three enters first and then checks its content
  cases v with
  | null => exact walkEnter_plain hl h
  | bool b => exact walkEnter_plain hl h
  | int n => exact walkEnter_plain hl h
  | float f =>
    rcases Except.bind_eq_error_iff.mp h with h | ⟨c, _, h⟩
    · exact walkEnter_plain hl h
    · cases f with
      | finite value repr => exact nomatch h
      | nonFinite => cases h; exact validation_plain hl (by decide)
  | str s =>
    rcases Except.bind_eq_error_iff.mp h with h | ⟨c, _, h⟩
    · exact walkEnter_plain hl h
    · split at h
      · cases h; exact validation_plain hl (by decide)
      · exact nomatch h
  | lone codes =>
    rcases Except.bind_eq_error_iff.mp h with h | ⟨c, _, h⟩
    · exact walkEnter_plain hl h
    · split at h
      · cases h; exact validation_plain hl (by decide)
      · exact nomatch h
  | list items =>
    rcases Except.bind_eq_error_iff.mp h with h | ⟨c, _, h⟩
    · exact walkEnter_plain hl h
    · split at h
      · cases h; exact validation_plain hl (by decide)
      · exact walkItems_plain hl D N items h
  | dict members =>
    rcases Except.bind_eq_error_iff.mp h with h | ⟨c, _, h⟩
    · exact walkEnter_plain hl h
    · split at h
      · cases h; exact validation_plain hl (by decide)
      · exact walkMembers_plain hl D N members h
  | other =>
    rcases Except.bind_eq_error_iff.mp h with h | ⟨c, _, h⟩
    · exact walkEnter_plain hl h
    · cases h; exact validation_plain hl (by decide)

private theorem walkItems_plain {label : String} (hl : hasNul label = false) (D N : Nat)
    (items : List Value) {depth count : Nat} {e : HalError}
    (h : walkItems label D N items depth count = .error e) : PlainError e := by
  cases items with
  | nil => exact nomatch h
  | cons item rest =>
    rcases Except.bind_eq_error_iff.mp h with h | ⟨c, _, h⟩
    · exact walk_plain hl D N item h
    · exact walkItems_plain hl D N rest h

private theorem walkMembers_plain {label : String} (hl : hasNul label = false) (D N : Nat)
    (members : List (Value × Value)) {depth count : Nat} {e : HalError}
    (h : walkMembers label D N members depth count = .error e) : PlainError e := by
  cases members with
  | nil => exact nomatch h
  | cons member rest =>
    obtain ⟨key, value⟩ := member
    rcases Except.bind_eq_error_iff.mp h with h | ⟨_, _, h⟩
    · exact walkKey_plain hl h
    · rcases Except.bind_eq_error_iff.mp h with h | ⟨c, _, h⟩
      · exact walk_plain hl D N value h
      · exact walkMembers_plain hl D N rest h

end

/-- The errors of `ensure_bounded_json` name the label and carry no details. -/
theorem ensureBoundedJson_plain {label : String} (hl : hasNul label = false) {D N : Nat}
    {v : Value} {e : HalError} (h : ensureBoundedJson v label D N = .error e) : PlainError e := by
  rcases Except.bind_eq_error_iff.mp h with h | ⟨c, _, h⟩
  · exact walk_plain hl D N v h
  · split at h
    · cases h; exact validation_plain hl (by decide)
    · split at h
      · cases h; exact validation_plain hl (by decide)
      · exact nomatch h

end MsysHal
