import MsysHal.ForStd.JsonLoads

/-!
# The scan of `json.loads`, step by step

`loads` calls itself for every container. The same scan as a machine has a stack of
the open containers and moves over the text from left to right, so that what is
wrong with a text is where the machine stops. The two agree: `loads` raises an
exception if and only if the machine stops with it.

## Key results

- `loads_error_iff`: the exception of `loads` is the one the machine stops with
- `loads_raises_iff`: `loads` raises something else than a `JSONDecodeError` if and
  only if the scan gets to an over-long integer or past the recursion limit
-/

namespace Python

/-! ## The machine -/

/-- A container that is open. -/
inductive Container where
  | array
  | object
deriving DecidableEq, Repr

/-- Where a scan stands, with the open containers, the innermost one first, and the
    text that is left: at a value, at the name of a member, or after a value. -/
inductive Place where
  | value (stack : List Container) (text : List Char)
  | name (stack : List Container) (text : List Char)
  | after (stack : List Container) (text : List Char)

/-- The text that is left at a place. -/
def Place.text : Place → List Char
  | .value _ text | .name _ text | .after _ text => text

/-- What a scan does at a place. -/
inductive Move where
  | go (place : Place)
  | done
  | fail (error : LoadsError)

/-- The move at a value. -/
def moveValue (rt : Runtime) (stack : List Container) (text : List Char) : Move :=
  match text with
  | '"' :: rest =>
    match scanString rest with
    | some (_, rest) => .go (.after stack rest)
    | none => .fail .decodeError
  | '[' :: rest =>
    if stack.length ≥ rt.recursionLimit then .fail .recursionError
    else match skipWs rest with
      | ']' :: rest => .go (.after stack rest)
      | rest => .go (.value (.array :: stack) rest)
  | '\x7b' :: rest =>
    if stack.length ≥ rt.recursionLimit then .fail .recursionError
    else match skipWs rest with
      | '\x7d' :: rest => .go (.after stack rest)
      | rest => .go (.name (.object :: stack) rest)
  | _ =>
    match scanScalar rt text with
    | .ok (_, rest) => .go (.after stack rest)
    | .error e => .fail e

/-- The move at the name of a member: to the value after its colon. -/
def moveName (stack : List Container) (text : List Char) : Move :=
  match text with
  | '"' :: rest =>
    match scanString rest with
    | some (_, rest) =>
      match skipWs rest with
      | ':' :: rest => .go (.value stack (skipWs rest))
      | _ => .fail .decodeError
    | none => .fail .decodeError
  | _ => .fail .decodeError

/-- The move after a value: to the next one, out of the container, or to the end. -/
def moveAfter (stack : List Container) (text : List Char) : Move :=
  match stack with
  | [] => if (skipWs text).isEmpty then .done else .fail .decodeError
  | .array :: stack =>
    match skipWs text with
    | ',' :: rest => .go (.value (.array :: stack) (skipWs rest))
    | ']' :: rest => .go (.after stack rest)
    | _ => .fail .decodeError
  | .object :: stack =>
    match skipWs text with
    | ',' :: rest => .go (.name (.object :: stack) (skipWs rest))
    | '\x7d' :: rest => .go (.after stack rest)
    | _ => .fail .decodeError

/-- One move of the scan. -/
def Place.move (rt : Runtime) : Place → Move
  | .value stack text => moveValue rt stack text
  | .name stack text => moveName stack text
  | .after stack text => moveAfter stack text

/-- The scan gets from one place to another. -/
def Reaches (rt : Runtime) : Place → Place → Prop :=
  Relation.ReflTransGen fun p q => p.move rt = .go q

theorem Reaches.single {rt : Runtime} {p q : Place} (h : p.move rt = .go q) : Reaches rt p q :=
  Relation.ReflTransGen.single h

/-- A scan that has stopped at two places has stopped at one. -/
theorem Reaches.unique {rt : Runtime} {p q r : Place} (hq : Reaches rt p q) (hr : Reaches rt p r)
    (hstopq : ∀ s, q.move rt ≠ .go s) (hstopr : ∀ s, r.move rt ≠ .go s) : q = r := by
  have hunique : Relator.RightUnique fun p q : Place => p.move rt = .go q := by
    intro a b c (hb : a.move rt = .go b) (hc : a.move rt = .go c)
    rw [hb, Move.go.injEq] at hc
    exact hc
  have hstay : ∀ {a b : Place}, (∀ s, a.move rt ≠ .go s) → Reaches rt a b → a = b := by
    intro a b hstop h
    cases Relation.ReflTransGen.cases_head h with
    | inl heq => exact heq
    | inr h =>
      obtain ⟨c, hc, _⟩ := h
      exact absurd hc (hstop c)
  cases Relation.ReflTransGen.total_of_right_unique hunique hq hr with
  | inl h => exact hstay hstopq h
  | inr h => exact (hstay hstopr h).symm

/-! ## The text gets shorter -/

theorem length_skipWs_le (text : List Char) : (skipWs text).length ≤ text.length :=
  List.length_dropWhile_le _ _

theorem length_scanUnits {text rest : List Char} {units : List Nat}
    (h : scanUnits text = some (units, rest)) : rest.length < text.length := by
  -- Each case of the scan takes at least one character from the text.
  induction text using scanUnits.induct generalizing units rest with
  | case1 => simp [scanUnits] at h
  | case2 tail =>
    simp only [scanUnits, Option.some.injEq, Prod.mk.injEq] at h
    rw [← h.2, List.length_cons]
    omega
  | case3 a b c d tail unit units' tail' hscan hunit ih =>
    rw [scanUnits, hunit, hscan] at h
    simp only [Option.some.injEq, Prod.mk.injEq] at h
    have := ih hscan
    simp only [List.length_cons, ← h.2]
    omega
  | case4 a b c d tail hnone ih =>
    rw [scanUnits] at h
    split at h
    · next unit units' tail' hunit hscan => exact absurd hscan (hnone unit units' tail' hunit)
    · simp at h
  | case5 c tail hne char units' tail' hscan hchar ih =>
    rw [scanUnits, hchar, hscan] at h
    · simp only [Option.some.injEq, Prod.mk.injEq] at h
      have := ih hscan
      simp only [List.length_cons, ← h.2]
      omega
    · exact hne
  | case6 c tail hne hnone ih =>
    rw [scanUnits] at h
    · split at h
      · next char units' tail' hchar hscan => exact absurd hscan (hnone char units' tail' hchar)
      · simp at h
    · exact hne
  | case7 c tail h1 h2 h3 hc =>
    rw [scanUnits, if_pos hc] at h
    · simp at h
    · exact h1
    · exact h2
    · exact h3
  | case8 c tail h1 h2 h3 hc ih =>
    rw [scanUnits, if_neg hc, Option.map_eq_some_iff] at h
    · obtain ⟨⟨units', tail'⟩, hscan, heq⟩ := h
      simp only [Prod.mk.injEq] at heq
      have := ih hscan
      simp only [List.length_cons, ← heq.2]
      omega
    · exact h1
    · exact h2
    · exact h3

theorem length_scanString {text rest : List Char} {v : Value}
    (h : scanString text = some (v, rest)) : rest.length < text.length := by
  rw [scanString, Option.map_eq_some_iff] at h
  obtain ⟨⟨units, tail⟩, hscan, heq⟩ := h
  simp only [Prod.mk.injEq] at heq
  rw [← heq.2]
  exact length_scanUnits hscan

theorem length_scanDigits {text digits rest : List Char}
    (h : scanDigits text = some (digits, rest)) : rest.length ≤ text.length := by
  unfold scanDigits at h
  split at h
  · simp only [Option.some.injEq, Prod.mk.injEq] at h
    rw [← h.2, List.length_cons]
    omega
  · split at h
    · simp only [Option.some.injEq, Prod.mk.injEq] at h
      rw [← h.2]
      exact List.length_dropWhile_le _ _
    · simp at h
  · simp at h

theorem length_scanFraction_le (text : List Char) : (scanFraction text).2.length ≤ text.length := by
  unfold scanFraction
  split
  · split
    · have := List.length_dropWhile_le Char.isDigit (‹Char› :: ‹List Char›)
      simp only [List.length_cons] at this ⊢
      omega
    · exact Nat.le_refl _
  · exact Nat.le_refl _

theorem length_scanExponentDigits_le (head text whole : List Char)
    (h : text.length ≤ whole.length) :
    (scanExponentDigits head text whole).2.length ≤ whole.length := by
  unfold scanExponentDigits
  split
  · split
    · exact Nat.le_trans (List.length_dropWhile_le _ _) h
    · exact Nat.le_refl _
  · exact Nat.le_refl _

theorem length_scanExponent_le (text : List Char) : (scanExponent text).2.length ≤ text.length := by
  unfold scanExponent
  split
  · split
    · split <;> apply length_scanExponentDigits_le <;> simp only [List.length_cons] <;> omega
    · exact Nat.le_refl _
  · exact Nat.le_refl _

theorem length_scanNumber {rt : Runtime} {negative : Bool} {text rest : List Char} {v : Value}
    (h : scanNumber rt negative text = .ok (v, rest)) : rest.length ≤ text.length := by
  unfold scanNumber at h
  split at h
  · simp at h
  · next digits tail hdigits =>
    have h1 := length_scanDigits hdigits
    have h2 := length_scanFraction_le tail
    have h3 := length_scanExponent_le (scanFraction tail).2
    simp only at h
    split at h
    · split at h
      · simp at h
      · simp only [Except.ok.injEq, Prod.mk.injEq] at h
        rw [← h.2]
        omega
    · simp only [Except.ok.injEq, Prod.mk.injEq] at h
      rw [← h.2]
      omega

theorem length_scanLiteral {literal text rest : List Char}
    (h : scanLiteral literal text = some rest) : rest.length ≤ text.length := by
  unfold scanLiteral at h
  split at h
  · simp only [Option.some.injEq] at h
    rw [← h, List.length_drop]
    omega
  · simp at h

theorem length_scanScalar {rt : Runtime} {text rest : List Char} {v : Value}
    (h : scanScalar rt text = .ok (v, rest)) : rest.length ≤ text.length := by
  unfold scanScalar at h
  split at h
  · next hlit =>
    simp only [Except.ok.injEq, Prod.mk.injEq] at h
    exact h.2 ▸ length_scanLiteral hlit
  split at h
  · next hlit =>
    simp only [Except.ok.injEq, Prod.mk.injEq] at h
    exact h.2 ▸ length_scanLiteral hlit
  split at h
  · next hlit =>
    simp only [Except.ok.injEq, Prod.mk.injEq] at h
    exact h.2 ▸ length_scanLiteral hlit
  split at h
  · next hlit =>
    simp only [Except.ok.injEq, Prod.mk.injEq] at h
    exact h.2 ▸ length_scanLiteral hlit
  split at h
  · next hlit =>
    simp only [Except.ok.injEq, Prod.mk.injEq] at h
    exact h.2 ▸ length_scanLiteral hlit
  split at h
  · next hlit =>
    simp only [Except.ok.injEq, Prod.mk.injEq] at h
    exact h.2 ▸ length_scanLiteral hlit
  split at h
  · have := length_scanNumber h
    simp only [List.length_cons]
    omega
  · exact length_scanNumber h

/-! ## Every value is followed -/

/-- The outcome of a scan from a place, as the machine sees it: it gets past the value
    or container, or it stops with the exception. -/
def Follows {α : Type} (rt : Runtime) (p : Place) (stack : List Container) :
    Except LoadsError (α × List Char) → Prop
  | .ok (_, rest) => Reaches rt p (.after stack rest) ∧ rest.length ≤ p.text.length
  | .error e => ∃ q, Reaches rt p q ∧ q.move rt = .fail e

/-- A scan that fails at the place it is at. -/
theorem Follows.fail {α : Type} {rt : Runtime} {p : Place} {stack : List Container} {e : LoadsError}
    (h : p.move rt = .fail e) : Follows (α := α) rt p stack (.error e) :=
  ⟨p, .refl, h⟩

/-- A scan that moves on first. -/
theorem Follows.go {α : Type} {rt : Runtime} {p q : Place} {stack : List Container}
    {result : Except LoadsError (α × List Char)} (h : Reaches rt p q)
    (hlen : q.text.length ≤ p.text.length) (hq : Follows rt q stack result) :
    Follows rt p stack result := by
  cases result with
  | ok r => exact ⟨h.trans hq.1, Nat.le_trans hq.2 hlen⟩
  | error e =>
    obtain ⟨r, hr, hfail⟩ := hq
    exact ⟨r, h.trans hr, hfail⟩

/-- The result of a scan does not matter, only where it ends. -/
theorem Follows.map {α β : Type} {rt : Runtime} {p : Place} {stack : List Container} (f : α → β)
    {result : Except LoadsError (α × List Char)} (h : Follows rt p stack result) :
    Follows rt p stack (do let (a, rest) ← result; .ok (f a, rest)) := by
  cases result with
  | ok r => exact h
  | error e => exact h

theorem moveValue_scalar (rt : Runtime) (stack : List Container) (text : List Char)
    (hq : ∀ rest, text ≠ '"' :: rest) (ha : ∀ rest, text ≠ '[' :: rest)
    (hb : ∀ rest, text ≠ '\x7b' :: rest) :
    moveValue rt stack text =
      match scanScalar rt text with
      | .ok (_, rest) => .go (.after stack rest)
      | .error e => .fail e := by
  unfold moveValue
  split
  · exact absurd rfl (hq _)
  · exact absurd rfl (ha _)
  · exact absurd rfl (hb _)
  · rfl

mutual

/-- The machine gets past a value that is scanned. -/
theorem scanValue_follows (rt : Runtime) : ∀ (fuel : Nat) (stack : List Container)
    (text : List Char), 2 * text.length + 1 ≤ fuel →
    Follows rt (.value stack text) stack (scanValue rt fuel stack.length text)
  | 0, _, _, h => by omega
  | fuel + 1, stack, text, h => by
    unfold scanValue
    split
    · next rest =>
      -- A text.
      cases hs : scanString rest with
      | none => exact .fail (by simp only [Place.move, moveValue, hs])
      | some r =>
        have hlen := length_scanString hs
        exact ⟨.single (by simp only [Place.move, moveValue, hs]), by
          simp only [Place.text, List.length_cons]
          omega⟩
    · next rest =>
      -- An array: too deep, empty, or with items.
      have hle := length_skipWs_le rest
      simp only [List.length_cons] at h
      split
      · next hd => exact .fail (by simp only [Place.move, moveValue, if_pos hd])
      · next hd =>
        split
        · next tail hclose =>
          rw [hclose, List.length_cons] at hle
          exact ⟨.single (by simp only [Place.move, moveValue, if_neg hd, hclose]), by
            simp only [Place.text, List.length_cons]
            omega⟩
        · next hopen =>
          have hgo : (Place.value stack ('[' :: rest)).move rt =
              .go (.value (.array :: stack) (skipWs rest)) := by
            simp only [Place.move, moveValue, if_neg hd]
          have hitems := scanItems_follows rt fuel stack (skipWs rest) (by omega)
          apply Follows.go (.single hgo) _ (hitems.map Value.list)
          simp only [Place.text, List.length_cons]
          omega
    · next rest =>
      -- An object, likewise.
      have hle := length_skipWs_le rest
      simp only [List.length_cons] at h
      split
      · next hd => exact .fail (by simp only [Place.move, moveValue, if_pos hd])
      · next hd =>
        split
        · next tail hclose =>
          rw [hclose, List.length_cons] at hle
          exact ⟨.single (by simp only [Place.move, moveValue, if_neg hd, hclose]), by
            simp only [Place.text, List.length_cons]
            omega⟩
        · next hopen =>
          have hgo : (Place.value stack ('\x7b' :: rest)).move rt =
              .go (.name (.object :: stack) (skipWs rest)) := by
            simp only [Place.move, moveValue, if_neg hd]
          have hmembers := scanMembers_follows rt fuel stack [] (skipWs rest) (by omega)
          apply Follows.go (.single hgo) _ (hmembers.map Value.dict)
          simp only [Place.text, List.length_cons]
          omega
    · next hq ha hb =>
      -- A scalar.
      have hmove : (Place.value stack text).move rt = _ := moveValue_scalar rt stack text hq ha hb
      cases hs : scanScalar rt text with
      | error e => exact .fail (by rw [hmove, hs])
      | ok r => exact ⟨.single (by rw [hmove, hs]), length_scanScalar hs⟩

/-- The machine gets past the array of the items that are scanned. -/
theorem scanItems_follows (rt : Runtime) : ∀ (fuel : Nat) (stack : List Container)
    (text : List Char), 2 * text.length + 2 ≤ fuel →
    Follows rt (.value (.array :: stack) text) stack (scanItems rt fuel (stack.length + 1) text)
  | 0, _, _, h => by omega
  | fuel + 1, stack, text, h => by
    have hvalue := scanValue_follows rt fuel (.array :: stack) text (by omega)
    rw [List.length_cons] at hvalue
    unfold scanItems
    -- The item is scanned first.
    cases hv : scanValue rt fuel (stack.length + 1) text with
    | error e =>
      rw [hv] at hvalue
      exact hvalue
    | ok r =>
      obtain ⟨item, rest⟩ := r
      rw [hv] at hvalue
      have hlen : rest.length ≤ text.length := hvalue.2
      have hle := length_skipWs_le rest
      apply Follows.go hvalue.1 hlen
      simp only [bind, Except.bind]
      split
      -- A comma, and another item.
      · next tail hcomma =>
        have hgo : (Place.after (.array :: stack) rest).move rt =
            .go (.value (.array :: stack) (skipWs tail)) := by
          simp only [Place.move, moveAfter, hcomma]
        have hle' := length_skipWs_le tail
        rw [hcomma, List.length_cons] at hle
        have hitems := scanItems_follows rt fuel stack (skipWs tail) (by omega)
        apply Follows.go (.single hgo) _ (hitems.map (item :: ·))
        simp only [Place.text]
        omega
      -- The bracket that closes the array.
      · next tail hclose =>
        rw [hclose, List.length_cons] at hle
        exact ⟨.single (by simp only [Place.move, moveAfter, hclose]), by
          simp only [Place.text]
          omega⟩
      · exact .fail (by simp only [Place.move, moveAfter])

/-- The machine gets past the object of the members that are scanned. -/
theorem scanMembers_follows (rt : Runtime) : ∀ (fuel : Nat) (stack : List Container)
    (seen : List (Value × Value)) (text : List Char), 2 * text.length + 2 ≤ fuel →
    Follows rt (.name (.object :: stack) text) stack
      (scanMembers rt fuel (stack.length + 1) seen text)
  | 0, _, _, _, h => by omega
  | fuel + 1, stack, seen, text, h => by
    unfold scanMembers
    split
    · next rest =>
      cases hs : scanString rest with
      | none => exact .fail (by simp only [Place.move, moveName, hs])
      | some r =>
        obtain ⟨key, tail⟩ := r
        have hlen := length_scanString hs
        have hle := length_skipWs_le tail
        simp only [List.length_cons] at h ⊢
        split
        · next after hcolon =>
          -- The name is followed by a colon and a value.
          have hle' := length_skipWs_le after
          rw [hcolon, List.length_cons] at hle
          have hgo : (Place.name (.object :: stack) ('"' :: rest)).move rt =
              .go (.value (.object :: stack) (skipWs after)) := by
            simp only [Place.move, moveName, hs, hcolon]
          have hvalue := scanValue_follows rt fuel (.object :: stack) (skipWs after) (by omega)
          rw [List.length_cons] at hvalue
          apply Follows.go (.single hgo)
          · simp only [Place.text, List.length_cons]
            omega
          cases hv : scanValue rt fuel (stack.length + 1) (skipWs after) with
          | error e =>
            rw [hv] at hvalue
            exact hvalue
          | ok r =>
            obtain ⟨value, rest'⟩ := r
            rw [hv] at hvalue
            have hlen' : rest'.length ≤ (skipWs after).length := hvalue.2
            have hle'' := length_skipWs_le rest'
            apply Follows.go hvalue.1 hlen'
            simp only [bind, Except.bind]
            split
            · next next hcomma =>
              -- A comma, and another member.
              have hgo' : (Place.after (.object :: stack) rest').move rt =
                  .go (.name (.object :: stack) (skipWs next)) := by
                simp only [Place.move, moveAfter, hcomma]
              have hle''' := length_skipWs_le next
              rw [hcomma, List.length_cons] at hle''
              apply Follows.go (.single hgo')
              · simp only [Place.text]
                omega
              exact scanMembers_follows rt fuel stack _ (skipWs next) (by omega)
            · next next hclose =>
              -- The brace that ends the object.
              rw [hclose, List.length_cons] at hle''
              exact ⟨.single (by simp only [Place.move, moveAfter, hclose]), by
                simp only [Place.text]
                omega⟩
            · exact .fail (by simp only [Place.move, moveAfter])
        · exact .fail (by simp only [Place.move, moveName, hs])
    · exact .fail (by simp only [Place.move, moveName])

end

/-! ## Where `loads` stops -/

/-- Where the scan of a text starts. -/
def startPlace (text : List Char) : Place := .value [] (skipWs text)

/-- `loads` starts with a byte order mark as the machine does: neither reads it. -/
theorem move_bom (rt : Runtime) (rest : List Char) :
    (startPlace ('\ufeff' :: rest)).move rt = .fail .decodeError := by
  have hskip : skipWs ('\ufeff' :: rest) = '\ufeff' :: rest := by
    rw [skipWs, List.dropWhile_cons, if_neg (by decide)]
  have hscan : scanScalar rt ('\ufeff' :: rest) = .error .decodeError := rfl
  have hne : ∀ c : Char, c ≠ '\ufeff' → ∀ tail, '\ufeff' :: rest ≠ c :: tail :=
    fun c hc tail heq => hc (List.cons.inj heq).1.symm
  rw [startPlace, hskip]
  simp only [Place.move]
  rw [moveValue_scalar rt [] _ (hne _ (by decide)) (hne _ (by decide)) (hne _ (by decide)), hscan]

/-- The scan of a text stops: after a value with nothing behind it, or with the exception
    of `loads`. -/
theorem loads_follows (rt : Runtime) (text : List Char) :
    match loads rt text with
    | .ok _ => ∃ q, Reaches rt (startPlace text) q ∧ q.move rt = .done
    | .error e => ∃ q, Reaches rt (startPlace text) q ∧ q.move rt = .fail e := by
  unfold loads
  by_cases hbom : text.head? = some '\ufeff'
  · rw [if_pos hbom]
    obtain ⟨rest, rfl⟩ := List.head?_eq_some_iff.mp hbom
    exact ⟨_, .refl, move_bom rt rest⟩
  · rw [if_neg hbom]
    have hle := length_skipWs_le text
    have hvalue := scanValue_follows rt (2 * text.length + 1) [] (skipWs text) (by omega)
    rw [List.length_nil] at hvalue
    cases hv : scanValue rt (2 * text.length + 1) 0 (skipWs text) with
    | error e =>
      rw [hv] at hvalue
      exact hvalue
    | ok r =>
      obtain ⟨value, rest⟩ := r
      rw [hv] at hvalue
      simp only [bind, Except.bind]
      by_cases hrest : (skipWs rest).isEmpty = true
      · rw [if_pos hrest]
        exact ⟨_, hvalue.1, by simp only [Place.move, moveAfter, if_pos hrest]⟩
      · rw [if_neg hrest]
        exact ⟨_, hvalue.1, by simp only [Place.move, moveAfter, if_neg hrest]⟩

/-- `loads` raises the exception the machine stops with. -/
theorem loads_error_iff (rt : Runtime) (text : List Char) (e : LoadsError) :
    loads rt text = .error e ↔ ∃ q, Reaches rt (startPlace text) q ∧ q.move rt = .fail e := by
  have hfollows := loads_follows rt text
  constructor
  · intro h
    rw [h] at hfollows
    exact hfollows
  · rintro ⟨q, hq, hfail⟩
    cases hload : loads rt text with
    | ok v =>
      rw [hload] at hfollows
      obtain ⟨p, hp, hdone⟩ := hfollows
      have heq := hp.unique hq (by simp [hdone]) (by simp [hfail])
      rw [heq, hfail] at hdone
      exact nomatch hdone
    | error e' =>
      rw [hload] at hfollows
      obtain ⟨p, hp, hfail'⟩ := hfollows
      have heq := hp.unique hq (by simp [hfail']) (by simp [hfail])
      rw [heq, hfail, Move.fail.injEq] at hfail'
      rw [hfail']

/-! ## The exceptions that are no `JSONDecodeError` -/

/-- The text of a number after its sign. -/
def unsigned (text : List Char) : List Char :=
  match text with
  | '-' :: rest => rest
  | _ => text

/-- An integer literal with more digits than an `int` is read from. -/
def overlongLiteral (text : List Char) : Bool :=
  match scanDigits (unsigned text) with
  | none => false
  | some (digits, rest) =>
    decide (maxStrDigits < digits.length) && (scanFraction rest).1.isEmpty &&
      (scanExponent (scanFraction rest).2).1.isEmpty

/-- The place is at an integer literal that is too long. -/
def Place.Overlong : Place → Prop
  | .value _ text => overlongLiteral text = true
  | .name _ _ | .after _ _ => False

/-- The place is at a container, with as many open around it as the recursion allows. -/
def Place.TooDeep (rt : Runtime) : Place → Prop
  | .value stack (c :: _) => (c = '[' ∨ c = '\x7b') ∧ rt.recursionLimit ≤ stack.length
  | .value _ [] | .name _ _ | .after _ _ => False

/-- The scan of a text gets to an integer literal that is too long. -/
def ReachesOverlong (rt : Runtime) (text : List Char) : Prop :=
  ∃ p, Reaches rt (startPlace text) p ∧ p.Overlong

/-- The scan of a text gets past the recursion limit. -/
def ReachesTooDeep (rt : Runtime) (text : List Char) : Prop :=
  ∃ p, Reaches rt (startPlace text) p ∧ p.TooDeep rt

theorem scanNumber_valueError (rt : Runtime) (negative : Bool) (text : List Char) :
    scanNumber rt negative text = .error .valueError ↔
      ∃ digits rest, scanDigits text = some (digits, rest) ∧ maxStrDigits < digits.length ∧
        (scanFraction rest).1.isEmpty = true ∧
        (scanExponent (scanFraction rest).2).1.isEmpty = true := by
  unfold scanNumber
  cases hd : scanDigits text with
  | none => simp
  | some r =>
    obtain ⟨digits, rest⟩ := r
    simp only [Option.some.injEq, Prod.mk.injEq]
    by_cases hint :
      ((scanFraction rest).1.isEmpty && (scanExponent (scanFraction rest).2).1.isEmpty) = true
    · rw [if_pos hint]
      rw [Bool.and_eq_true] at hint
      by_cases hlong : digits.length > maxStrDigits
      · rw [if_pos hlong]
        simp only [true_iff]
        exact ⟨digits, rest, ⟨rfl, rfl⟩, hlong, hint⟩
      · rw [if_neg hlong]
        simp only [reduceCtorEq, false_iff]
        rintro ⟨_, _, ⟨rfl, rfl⟩, hlong', _⟩
        exact hlong hlong'
    · rw [if_neg hint]
      simp only [reduceCtorEq, false_iff]
      rintro ⟨_, _, ⟨rfl, rfl⟩, _, hint'⟩
      exact hint (by rw [Bool.and_eq_true]; exact hint')

theorem scanDigits_head {text digits rest : List Char} (h : scanDigits text = some (digits, rest)) :
    ∃ c tail, text = c :: tail ∧ c.isDigit = true := by
  unfold scanDigits at h
  split at h
  · exact ⟨_, _, rfl, by decide⟩
  · split at h
    · next hd => exact ⟨_, _, rfl, hd⟩
    · simp at h
  · simp at h

/-- A text whose digits follow an optional sign is scanned as a number. -/
theorem scanScalar_number (rt : Runtime) {text digits rest : List Char}
    (h : scanDigits (unsigned text) = some (digits, rest)) :
    ∃ negative, scanScalar rt text = scanNumber rt negative (unsigned text) := by
  obtain ⟨c, tail, htext, hc⟩ := scanDigits_head h
  unfold unsigned at htext ⊢
  split at htext
  · subst htext
    exact ⟨true, scanScalar_minus rt tail hc⟩
  · subst htext
    exact ⟨false, scanScalar_digit rt tail hc⟩

/-- A text without digits after an optional sign is a constant or no value. -/
theorem scanScalar_noDigits (rt : Runtime) {text : List Char} {e : LoadsError}
    (h : scanDigits (unsigned text) = none) (he : scanScalar rt text = .error e) :
    e = .decodeError := by
  unfold scanScalar at he
  split at he
  · simp at he
  split at he
  · simp at he
  split at he
  · simp at he
  split at he
  · simp at he
  split at he
  · simp at he
  split at he
  · simp at he
  split at he
  · next rest _ _ _ _ _ _ =>
    simp only [unsigned] at h
    simp only [scanNumber, h, Except.error.injEq] at he
    exact he.symm
  · next hminus =>
    have hun : unsigned text = text := by
      unfold unsigned
      split
      · exact absurd rfl (hminus _)
      · rfl
    rw [hun] at h
    simp only [scanNumber, h, Except.error.injEq] at he
    exact he.symm

theorem scanNumber_ne_recursionError (rt : Runtime) (negative : Bool) (text : List Char) :
    scanNumber rt negative text ≠ .error .recursionError := by
  unfold scanNumber
  split
  · simp
  · simp only
    split
    · split <;> simp
    · simp

theorem scanScalar_valueError (rt : Runtime) (text : List Char) :
    scanScalar rt text = .error .valueError ↔ overlongLiteral text = true := by
  unfold overlongLiteral
  cases hd : scanDigits (unsigned text) with
  | none =>
    simp only [Bool.false_eq_true, iff_false]
    intro he
    exact nomatch scanScalar_noDigits rt hd he
  | some r =>
    obtain ⟨digits, rest⟩ := r
    obtain ⟨negative, hnum⟩ := scanScalar_number rt hd
    rw [hnum, scanNumber_valueError]
    simp only [Bool.and_eq_true, decide_eq_true_eq]
    constructor
    · rintro ⟨digits', rest', h, hlong, hfraction, hexponent⟩
      rw [hd, Option.some.injEq, Prod.mk.injEq] at h
      obtain ⟨rfl, rfl⟩ := h
      exact ⟨⟨hlong, hfraction⟩, hexponent⟩
    · rintro ⟨⟨hlong, hfraction⟩, hexponent⟩
      exact ⟨digits, rest, hd, hlong, hfraction, hexponent⟩

theorem scanScalar_ne_recursionError (rt : Runtime) (text : List Char) :
    scanScalar rt text ≠ .error .recursionError := by
  intro he
  cases hd : scanDigits (unsigned text) with
  | none => exact nomatch scanScalar_noDigits rt hd he
  | some r =>
    obtain ⟨negative, hnum⟩ := scanScalar_number rt hd
    rw [hnum] at he
    exact scanNumber_ne_recursionError rt negative _ he

/-- No literal starts like a string or a container. -/
theorem overlongLiteral_cons {c : Char} (rest : List Char) (hd : c.isDigit = false) (hm : c ≠ '-') :
    overlongLiteral (c :: rest) = false := by
  have hun : unsigned (c :: rest) = c :: rest := by
    unfold unsigned
    split
    · next heq => exact absurd (List.cons.inj heq).1 hm
    · rfl
  have hdigits : scanDigits (c :: rest) = none := by
    cases h : scanDigits (c :: rest) with
    | none => rfl
    | some r =>
      obtain ⟨c', tail, heq, hc⟩ := scanDigits_head h
      rw [← (List.cons.inj heq).1, hd] at hc
      exact nomatch hc
  rw [overlongLiteral, hun, hdigits]

theorem moveName_fail {stack : List Container} {text : List Char} {e : LoadsError}
    (h : moveName stack text = .fail e) : e = .decodeError := by
  unfold moveName at h
  split at h
  · split at h
    · split at h
      · simp at h
      · exact (Move.fail.inj h).symm
    · exact (Move.fail.inj h).symm
  · exact (Move.fail.inj h).symm

theorem moveAfter_fail {stack : List Container} {text : List Char} {e : LoadsError}
    (h : moveAfter stack text = .fail e) : e = .decodeError := by
  unfold moveAfter at h
  split at h
  · split at h
    · simp at h
    · exact (Move.fail.inj h).symm
  · split at h
    · simp at h
    · simp at h
    · exact (Move.fail.inj h).symm
  · split at h
    · simp at h
    · simp at h
    · exact (Move.fail.inj h).symm

/-- The scan stops with a plain `ValueError` at a literal that is too long. -/
theorem move_valueError_iff (rt : Runtime) (p : Place) :
    p.move rt = .fail .valueError ↔ p.Overlong := by
  cases p with
  | name stack text =>
    constructor
    · intro h
      exact nomatch moveName_fail h
    · intro h
      exact h.elim
  | after stack text =>
    constructor
    · intro h
      exact nomatch moveAfter_fail h
    · intro h
      exact h.elim
  | value stack text =>
    simp only [Place.move, Place.Overlong]
    unfold moveValue
    split
    · next rest =>
      rw [overlongLiteral_cons rest (by decide) (by decide)]
      split <;> simp
    · next rest =>
      rw [overlongLiteral_cons rest (by decide) (by decide)]
      split
      · simp
      · split <;> simp
    · next rest =>
      rw [overlongLiteral_cons rest (by decide) (by decide)]
      split
      · simp
      · split <;> simp
    · rw [← scanScalar_valueError rt text]
      cases scanScalar rt text <;> simp

/-- The scan stops with a `RecursionError` at a container that is too deep. -/
theorem move_recursionError_iff (rt : Runtime) (p : Place) :
    p.move rt = .fail .recursionError ↔ p.TooDeep rt := by
  cases p with
  | name stack text =>
    constructor
    · intro h
      exact nomatch moveName_fail h
    · intro h
      exact h.elim
  | after stack text =>
    constructor
    · intro h
      exact nomatch moveAfter_fail h
    · intro h
      exact h.elim
  | value stack text =>
    -- Only a value can be too deep: the bracket that opens it is looked at first.
    simp only [Place.move]
    unfold moveValue
    split
    · simp only [Place.TooDeep]
      split <;> simp
    · simp only [Place.TooDeep]
      split
      · next hd => simp [hd]
      · next hd =>
        split <;> simp [hd]
    · simp only [Place.TooDeep]
      split
      · next hd => simp [hd]
      · next hd =>
        split <;> simp [hd]
    -- A scalar opens no container.
    · next ha hb =>
      have hdeep : ¬ (Place.value stack text).TooDeep rt := by
        intro h
        cases text with
        | nil => exact h
        | cons c rest =>
          cases h.1 with
          | inl hc => exact ha rest (by rw [hc])
          | inr hc => exact hb rest (by rw [hc])
      have hscan := scanScalar_ne_recursionError rt text
      cases hs : scanScalar rt text with
      | ok r => simp [hdeep]
      | error e =>
        rw [hs] at hscan
        simp only [Move.fail.injEq, hdeep, iff_false]
        exact fun heq => hscan (by rw [heq])

/-- `loads` raises a plain `ValueError` where the scan gets to an integer literal that is
    too long. -/
theorem loads_valueError_iff (rt : Runtime) (text : List Char) :
    loads rt text = .error .valueError ↔ ReachesOverlong rt text := by
  rw [loads_error_iff]
  simp only [move_valueError_iff]
  rfl

/-- `loads` raises a `RecursionError` where the scan gets past the recursion limit. -/
theorem loads_recursionError_iff (rt : Runtime) (text : List Char) :
    loads rt text = .error .recursionError ↔ ReachesTooDeep rt text := by
  rw [loads_error_iff]
  simp only [move_recursionError_iff]
  rfl

end Python
