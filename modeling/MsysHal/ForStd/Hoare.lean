import MsysHal.ForStd.Prog

/-!
# Weakest preconditions of programs

What holds when a program that runs alone comes to an end, whatever the
environment supplies on the way. A postcondition speaks about the result, the
answers the program has seen and the state it leaves.

## Key results

- `wp_of_run`, `wp_of_run_only`: a weakest precondition is a fact about every run
- `wp_bind`, `wp_attempt`, `wp_perform_bind`: one rule for each way to build a program
- `wp_path`: the answers seen are a path through the program
- `wp_issues`: a program keeps what its operations keep
- `run_restrict`: what is assumed of the steps of a run can be put into the machine
-/

namespace Interleave

/-- The operations of a run with their answers, oldest first. -/
abbrev Log (S : Sig) := List ((o : S.Op) × S.Ret o)

section Wp

variable {S : Sig} {σ ι ε α β : Type} (M : Machine S σ ι)

/-- The weakest precondition of a program for a postcondition on the result, the
    log and the state. -/
def Prog.wp : Prog S ε α → (Except ε α → Log S → σ → Prop) → σ → Prop
  | .pure a, Q, s => Q (.ok a) [] s
  | .raise e, Q, s => Q (.error e) [] s
  | .step o k, Q, s =>
    ∀ i r s', M.exec o i s = some (r, s') → (k r).wp (fun x log => Q x (⟨o, r⟩ :: log)) s'

variable {M}

/-- A weakest precondition is a fact about every run. -/
theorem wp_of_run {p : Prog S ε α} {Q : Except ε α → Log S → σ → Prop} {s : σ} (h : p.wp M Q s)
    {ω : Nat → ι} {out : Outcome σ ι ε α} (hrun : p.run M ω s = some out) :
    Q out.result (p.log M ω s) out.state := by
  induction p generalizing Q ω s with
  | pure a =>
    rw [Prog.run, Option.some.injEq] at hrun
    exact hrun ▸ h
  | raise e =>
    rw [Prog.run, Option.some.injEq] at hrun
    exact hrun ▸ h
  | step o k ih =>
    rw [Prog.run] at hrun
    rw [Prog.log]
    split at hrun
    · next r s' he => exact ih r (h _ r s' he) hrun
    · cases hrun

theorem wp_mono {p : Prog S ε α} {Q Q' : Except ε α → Log S → σ → Prop} {s : σ} (h : p.wp M Q s)
    (hQ : ∀ x log s', Q x log s' → Q' x log s') : p.wp M Q' s := by
  induction p generalizing Q Q' s with
  | pure a => exact hQ _ _ _ h
  | raise e => exact hQ _ _ _ h
  | step o k ih =>
    exact fun i r s' he => ih r (h i r s' he) fun x log s'' => hQ x _ s''

theorem wp_and {p : Prog S ε α} {Q Q' : Except ε α → Log S → σ → Prop} {s : σ} (h : p.wp M Q s)
    (h' : p.wp M Q' s) : p.wp M (fun x log s' => Q x log s' ∧ Q' x log s') s := by
  induction p generalizing Q Q' s with
  | pure a => exact ⟨h, h'⟩
  | raise e => exact ⟨h, h'⟩
  | step o k ih => exact fun i r s' he => ih r (h i r s' he) (h' i r s' he)

/-- The answers seen are a path through the program. -/
theorem wp_path (p : Prog S ε α) (s : σ) : p.wp M (fun x log _ => Path p log x) s := by
  induction p generalizing s with
  | pure a => exact .pure a
  | raise e => exact .raise e
  | step o k ih =>
    exact fun i r s' _ => wp_mono (ih r s') fun x log _ h => .step h

theorem wp_pure {a : α} {Q : Except ε α → Log S → σ → Prop} {s : σ} (h : Q (.ok a) [] s) :
    (pure a : Prog S ε α).wp M Q s := h

theorem wp_raise {e : ε} {Q : Except ε α → Log S → σ → Prop} {s : σ} (h : Q (.error e) [] s) :
    (Prog.raise e : Prog S ε α).wp M Q s := h

theorem wp_ofExcept {x : Except ε α} {Q : Except ε α → Log S → σ → Prop} {s : σ} (h : Q x [] s) :
    (Prog.ofExcept x : Prog S ε α).wp M Q s := by
  cases x with
  | ok a => exact h
  | error e => exact h

theorem wp_perform {o : S.Op} {Q : Except ε (S.Ret o) → Log S → σ → Prop} {s : σ}
    (h : ∀ i r s', M.exec o i s = some (r, s') → Q (.ok r) [⟨o, r⟩] s') :
    (Prog.perform o : Prog S ε _).wp M Q s := h

theorem wp_perform_bind {o : S.Op} {f : S.Ret o → Prog S ε α}
    {Q : Except ε α → Log S → σ → Prop} {s : σ} (h : ∀ i r s', M.exec o i s = some (r, s') →
      (f r).wp M (fun x log => Q x (⟨o, r⟩ :: log)) s') : (Prog.perform o >>= f).wp M Q s := h

/-- Sequential composition: what the first program guarantees is what the second
    one starts from. -/
theorem wp_bind {p : Prog S ε α} {f : α → Prog S ε β} {R : Except ε α → Log S → σ → Prop}
    {Q : Except ε β → Log S → σ → Prop} {s : σ} (h : p.wp M R s)
    (hok : ∀ a log s', R (.ok a) log s' → (f a).wp M (fun x log' => Q x (log ++ log')) s')
    (herr : ∀ e log s', R (.error e) log s' → Q (.error e) log s') : (p >>= f).wp M Q s := by
  change (p.bind f).wp M Q s
  induction p generalizing R Q s with
  | pure a => exact hok a [] s h
  | raise e => exact herr e [] s h
  | step o k ih =>
    exact fun i r s' he => ih r (h i r s' he) (fun a log s'' => hok a _ s'')
      fun e log s'' => herr e _ s''

theorem wp_attempt {p : Prog S ε α} {Q : Except ε (Except ε α) → Log S → σ → Prop} {s : σ}
    (h : p.wp M (fun x log s' => Q (.ok x) log s') s) : p.attempt.wp M Q s := by
  induction p generalizing Q s with
  | pure a => exact h
  | raise e => exact h
  | step o k ih => exact fun i r s' he => ih r (h i r s' he)

/-- A caught program and what follows it. -/
theorem wp_attempt_bind {p : Prog S ε α} {f : Except ε α → Prog S ε β}
    {R : Except ε α → Log S → σ → Prop} {Q : Except ε β → Log S → σ → Prop} {s : σ}
    (h : p.wp M R s)
    (hf : ∀ x log s', R x log s' → (f x).wp M (fun y log' => Q y (log ++ log')) s') :
    (p.attempt >>= f).wp M Q s := by
  refine wp_bind (R := fun y log s' => ∃ x, y = .ok x ∧ R x log s')
    (wp_attempt (wp_mono h fun x log s' hx => ⟨x, rfl, hx⟩)) ?_ ?_
  · rintro a log s' ⟨x, hx, hR⟩
    cases hx
    exact hf _ log s' hR
  · rintro e log s' ⟨x, hx, -⟩
    exact nomatch hx

/-- A relation between the states around a run and the answers seen on the way is
    built up operation by operation. -/
theorem wp_issues_log {P : S.Op → Prop} {R : σ → Log S → σ → Prop} (hnil : ∀ s, R s [] s)
    (hcons : ∀ o i s r s' log s'', P o → M.exec o i s = some (r, s') → R s' log s'' →
      R s (⟨o, r⟩ :: log) s'') {p : Prog S ε α} (h : Issues P p) (s : σ) :
    p.wp M (fun _ log s' => R s log s') s := by
  induction h generalizing s with
  | pure a => exact hnil s
  | raise e => exact hnil s
  | step ho _ ih =>
    exact fun i r s' he => wp_mono (ih r s') fun x log s'' h => hcons _ i s r s' log s'' ho he h

/-- A program whose operations keep a relation keeps it. -/
theorem wp_issues {P : S.Op → Prop} {R : σ → σ → Prop} (hrefl : ∀ s, R s s)
    (htrans : ∀ s s' s'', R s s' → R s' s'' → R s s'')
    (hexec : ∀ o i s r s', P o → M.exec o i s = some (r, s') → R s s') {p : Prog S ε α}
    (h : Issues P p) (s : σ) : p.wp M (fun _ _ s' => R s s') s :=
  wp_issues_log hrefl (fun o i s r s' _ s'' ho he h => htrans s s' s'' (hexec o i s r s' ho he) h)
    h s

/-! ### Runs all of whose steps pass a test -/

/-- The machine without the steps that fail a test. -/
def Machine.restrict (M : Machine S σ ι) (test : (o : S.Op) → S.Ret o → σ → Bool) :
    Machine S σ ι where
  exec o i s := (M.exec o i s).filter fun x => test o x.1 s

/-- The machine in an environment that supplies only some of the inputs. -/
def Machine.only (M : Machine S σ ι) (allowed : ι → Prop) : Machine S σ {i // allowed i} where
  exec o i s := M.exec o i.1 s

/-- What holds when the environment supplies some of the inputs is a fact about every run
    on such inputs. -/
theorem wp_of_run_only {allowed : ι → Prop} {p : Prog S ε α} {Q : Except ε α → Log S → σ → Prop}
    {s : σ}
    (h : p.wp (M.only allowed) Q s) {ω : Nat → ι} (hω : ∀ n, allowed (ω n)) {out : Outcome σ ι ε α}
    (hrun : p.run M ω s = some out) : Q out.result (p.log M ω s) out.state := by
  induction p generalizing Q ω s with
  | pure a =>
    rw [Prog.run, Option.some.injEq] at hrun
    exact hrun ▸ h
  | raise e =>
    rw [Prog.run, Option.some.injEq] at hrun
    exact hrun ▸ h
  | step o k ih =>
    rw [Prog.run] at hrun
    rw [Prog.log]
    split at hrun
    · next r s' he => exact ih r (h ⟨ω 0, hω 0⟩ r s' he) (fun n => hω (n + 1)) hrun
    · cases hrun

/-- Whether every step of a run passes a test on the operation, its answer and the
    state before it. -/
def Prog.along (M : Machine S σ ι) (test : (o : S.Op) → S.Ret o → σ → Bool) :
    Prog S ε α → (Nat → ι) → σ → Bool
  | .pure _, _, _ => true
  | .raise _, _, _ => true
  | .step o k, ω, s =>
    match M.exec o (ω 0) s with
    | some (r, s') => test o r s && (k r).along M test (fun n => ω (n + 1)) s'
    | none => true

theorem Machine.of_restrict {M : Machine S σ ι} {test : (o : S.Op) → S.Ret o → σ → Bool} {o : S.Op}
    {i : ι} {s s' : σ} {r : S.Ret o} (h : (M.restrict test).exec o i s = some (r, s')) :
    M.exec o i s = some (r, s') ∧ test o r s = true := by
  obtain ⟨hexec, htest⟩ := Option.filter_eq_some_iff.mp h
  exact ⟨hexec, htest⟩

/-- A run all of whose steps pass the test is a run of the restricted machine. -/
theorem run_restrict {M : Machine S σ ι} {test : (o : S.Op) → S.Ret o → σ → Bool}
    {p : Prog S ε α} {ω : Nat → ι} {s : σ} {out : Outcome σ ι ε α}
    (h : p.run M ω s = some out) (htest : p.along M test ω s = true) :
    p.run (M.restrict test) ω s = some out := by
  induction p generalizing ω s with
  | pure a => exact h
  | raise e => exact h
  | step o k ih =>
    rw [Prog.run] at h ⊢
    rw [Prog.along] at htest
    cases he : M.exec o (ω 0) s with
    | none => rw [he] at h; cases h
    | some x =>
      obtain ⟨r, s'⟩ := x
      rw [he] at h htest
      dsimp only at h htest
      rw [Bool.and_eq_true] at htest
      have hexec : (M.restrict test).exec o (ω 0) s = some (r, s') :=
        Option.filter_eq_some_iff.mpr ⟨he, htest.1⟩
      rw [hexec]
      exact ih r h htest.2

end Wp

-- the rules above are the only way in and out
attribute [irreducible] Prog.wp

end Interleave
