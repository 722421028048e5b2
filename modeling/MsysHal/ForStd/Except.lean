import Mathlib

/-!
# Inversion of `Except` computations

What it means for a sequence of checks to succeed: every check succeeded.
-/

namespace Except

variable {ε ε' α β : Type}

theorem bind_eq_ok_iff {x : Except ε α} {f : α → Except ε β} {b : β} :
    x >>= f = .ok b ↔ ∃ a, x = .ok a ∧ f a = .ok b := by
  cases x with
  | error e => exact ⟨fun h => (nomatch h), fun ⟨a, h, _⟩ => (nomatch h)⟩
  | ok a =>
    refine ⟨fun h => ⟨a, rfl, h⟩, fun ⟨a', h, h'⟩ => ?_⟩
    cases h
    exact h'

theorem bind_eq_error_iff {x : Except ε α} {f : α → Except ε β} {e : ε} :
    x >>= f = .error e ↔ x = .error e ∨ ∃ a, x = .ok a ∧ f a = .error e := by
  cases x with
  | error e' =>
    refine ⟨fun h => .inl ?_, fun h => ?_⟩
    · cases h
      rfl
    · rcases h with h | ⟨a, h, _⟩
      · cases h
        rfl
      · exact nomatch h
  | ok a =>
    refine ⟨fun h => .inr ⟨a, rfl, h⟩, fun h => ?_⟩
    rcases h with h | ⟨a', h, h'⟩
    · exact nomatch h
    · cases h
      exact h'

theorem map_eq_ok_iff {f : α → β} {x : Except ε α} {b : β} :
    x.map f = .ok b ↔ ∃ a, x = .ok a ∧ f a = b := by
  cases x with
  | error e => exact ⟨fun h => (nomatch h), fun ⟨a, h, _⟩ => (nomatch h)⟩
  | ok a =>
    refine ⟨fun h => ⟨a, rfl, Except.ok.inj h⟩, fun ⟨a', h, hb⟩ => ?_⟩
    cases h
    exact congrArg _ hb

theorem mapError_eq_ok_iff {f : ε → ε'} {x : Except ε α} {a : α} :
    x.mapError f = .ok a ↔ x = .ok a := by
  cases x with
  | error e => exact ⟨fun h => (nomatch h), fun h => (nomatch h)⟩
  | ok a' => simp only [Except.mapError, Except.ok.injEq]

theorem mapError_eq_error_iff {f : ε → ε'} {x : Except ε α} {e : ε'} :
    x.mapError f = .error e ↔ ∃ e', x = .error e' ∧ f e' = e := by
  cases x with
  | error e' =>
    refine ⟨fun h => ⟨e', rfl, Except.error.inj h⟩, fun ⟨e'', h, hf⟩ => ?_⟩
    cases h
    exact congrArg _ hf
  | ok a => exact ⟨fun h => (nomatch h), fun ⟨e', h, _⟩ => (nomatch h)⟩

/-- A check that raises under a condition succeeds when the condition does not hold. -/
theorem ite_error_eq_ok_iff {c : Prop} [Decidable c] {e : ε} {x : Except ε α} {a : α} :
    (if c then .error e else x) = .ok a ↔ ¬c ∧ x = .ok a := by
  by_cases h : c
  · simp only [h, if_true, reduceCtorEq, not_true_eq_false, false_and]
  · simp only [h, if_false, not_false_iff, true_and]

end Except

/-! ## `mapM` that succeeds -/

namespace List

variable {ε α β : Type}

theorem forall₂_of_mapM_ok {f : α → Except ε β} {l : List α} {l' : List β}
    (h : l.mapM f = .ok l') : Forall₂ (fun a b => f a = .ok b) l l' := by
  induction l generalizing l' with
  | nil =>
    rw [mapM_nil] at h
    cases h
    exact .nil
  | cons a l ih =>
    rw [mapM_cons, Except.bind_eq_ok_iff] at h
    obtain ⟨b, hb, h⟩ := h
    obtain ⟨bs, hbs, h⟩ := Except.bind_eq_ok_iff.mp h
    cases h
    exact .cons hb (ih hbs)

theorem forall₂_of_mapM_some {f : α → Option β} {l : List α} {l' : List β}
    (h : l.mapM f = some l') : Forall₂ (fun a b => f a = some b) l l' := by
  induction l generalizing l' with
  | nil =>
    rw [mapM_nil] at h
    cases h
    exact .nil
  | cons a l ih =>
    rw [mapM_cons] at h
    obtain ⟨b, hb, h⟩ := Option.bind_eq_some_iff.mp h
    obtain ⟨bs, hbs, h⟩ := Option.bind_eq_some_iff.mp h
    cases h
    exact .cons hb (ih hbs)

theorem mapM_ok_of_forall₂ {f : α → Except ε β} {l : List α} {l' : List β}
    (h : Forall₂ (fun a b => f a = .ok b) l l') : l.mapM f = .ok l' := by
  induction h with
  | nil => rfl
  | cons ha _ ih =>
    rw [mapM_cons, ha, ih]
    rfl

theorem mapM_some_of_forall₂ {f : α → Option β} {l : List α} {l' : List β}
    (h : Forall₂ (fun a b => f a = some b) l l') : l.mapM f = some l' := by
  induction h with
  | nil => rfl
  | cons ha _ ih =>
    rw [mapM_cons, ha, ih]
    rfl

/-- `mapM` raises what its function raises at the first item where it does. -/
theorem mapM_eq_error_iff {f : α → Except ε β} {l : List α} {e : ε} :
    l.mapM f = .error e ↔ ∃ before item after, l = before ++ item :: after ∧
      (∀ a ∈ before, ∃ b, f a = .ok b) ∧ f item = .error e := by
  -- Induction on the list: the error is that of its head or of its tail.
  induction l with
  | nil =>
    constructor
    · intro h
      exact nomatch h
    · rintro ⟨before, item, after, h, -, -⟩
      simp at h
  | cons a l ih =>
    rw [mapM_cons, Except.bind_eq_error_iff]
    constructor
    · intro h
      cases h with
      | inl h => exact ⟨[], a, l, rfl, by simp, h⟩
      | inr h =>
        obtain ⟨b, hb, h⟩ := h
        rw [Except.bind_eq_error_iff] at h
        cases h with
        | inr h => exact nomatch h.choose_spec.2
        | inl h =>
          obtain ⟨before, item, after, rfl, hbefore, hitem⟩ := ih.mp h
          refine ⟨a :: before, item, after, rfl, ?_, hitem⟩
          intro a' ha'
          cases List.mem_cons.mp ha' with
          | inl heq => exact ⟨b, heq ▸ hb⟩
          | inr hmem => exact hbefore a' hmem
    · rintro ⟨before, item, after, hl, hbefore, hitem⟩
      cases before with
      | nil =>
        obtain ⟨rfl, rfl⟩ := List.cons.inj hl
        exact .inl hitem
      | cons a' before =>
        rw [cons_append, cons.injEq] at hl
        obtain ⟨rfl, hl⟩ := hl
        obtain ⟨b, hb⟩ := hbefore a mem_cons_self
        have htail := ih.mpr ⟨before, item, after, hl,
          fun a' ha' => hbefore a' (mem_cons_of_mem _ ha'), hitem⟩
        exact .inr ⟨b, hb, by rw [htail]; rfl⟩

end List
