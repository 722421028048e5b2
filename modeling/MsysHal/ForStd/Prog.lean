import Mathlib

/-!
# Programs of atomic steps and their interleavings

A program is a tree of atomic operations with continuations: it returns, raises,
or issues an operation and goes on with the answer. Run alone against a machine
it is a sequential computation; a pool of such programs over one shared state is
a concurrent system in which each operation is one indivisible step.

## Key results

- `run_bind`, `run_attempt`: sequential composition of runs
- `Issues.run`, `Ends.bind`: what a program keeps and that it comes to an end,
  from the operations it may issue
- `Path.of_bind`, `Path.of_attempt`: the answers a program has seen, piece by piece
- `Sat.bind`, `Sat.attempt`: rules for what a program guarantees at each of its
  steps under what it may rely on for the answers
- `Pool.run_trace`: the events of an interleaving are a trace of the machine
- `Pool.run_follows`: each thread of an interleaving follows its own program
- `Pool.run_discipline`: programs that keep a discipline keep it in every
  interleaving
-/

namespace Interleave

/-- A signature: the atomic operations and the type of each one's answer. -/
structure Sig where
  Op : Type
  Ret : Op → Type

/-- A program over a signature that returns an `α` or raises an `ε`. -/
inductive Prog (S : Sig) (ε α : Type) where
  | pure (a : α)
  | raise (e : ε)
  | step (o : S.Op) (k : S.Ret o → Prog S ε α)

namespace Prog

variable {S : Sig} {ε α β γ : Type}

/-- Sequential composition. -/
def bind : Prog S ε α → (α → Prog S ε β) → Prog S ε β
  | .pure a, f => f a
  | .raise e, _ => .raise e
  | .step o k, f => .step o fun r => (k r).bind f

/-- Catch what the program raises and return it as a value. -/
def attempt : Prog S ε α → Prog S ε (Except ε α)
  | .pure a => .pure (.ok a)
  | .raise e => .pure (.error e)
  | .step o k => .step o fun r => (k r).attempt

instance : Monad (Prog S ε) where
  pure := .pure
  bind := .bind

/-- Issue one operation and return its answer. -/
def perform (o : S.Op) : Prog S ε (S.Ret o) := .step o .pure

/-- Raise the error of a pure check, or go on with its value. -/
def ofExcept : Except ε α → Prog S ε α
  | .ok a => .pure a
  | .error e => .raise e

/-- Do the cleanup whether the program returns or raises. -/
def withCleanup (p : Prog S ε α) (cleanup : Prog S ε Unit) : Prog S ε α := do
  let result ← p.attempt
  cleanup
  ofExcept result

@[simp] theorem pure_bind (a : α) (f : α → Prog S ε β) : (Prog.pure a).bind f = f a := rfl

@[simp] theorem raise_bind (e : ε) (f : α → Prog S ε β) :
    (Prog.raise e : Prog S ε α).bind f = .raise e := rfl

@[simp] theorem step_bind (o : S.Op) (k : S.Ret o → Prog S ε α) (f : α → Prog S ε β) :
    (Prog.step o k).bind f = .step o fun r => (k r).bind f := rfl

end Prog

/-! ## Sequential runs -/

/-- How each operation acts on a shared state under an input of the
    environment; `none` while the operation is blocked. -/
structure Machine (S : Sig) (σ ι : Type) where
  exec : (o : S.Op) → ι → σ → Option (S.Ret o × σ)

/-- The result of a sequential run: what the program returned or raised, the
    state it left, and the inputs it did not use. -/
structure Outcome (σ ι ε α : Type) where
  result : Except ε α
  state : σ
  inputs : Nat → ι

section Run

variable {S : Sig} {σ ι ε α β : Type} (M : Machine S σ ι)

/-- Run a program alone, one input for each operation. -/
def Prog.run : Prog S ε α → (Nat → ι) → σ → Option (Outcome σ ι ε α)
  | .pure a, ω, s => some ⟨.ok a, s, ω⟩
  | .raise e, ω, s => some ⟨.error e, s, ω⟩
  | .step o k, ω, s =>
    match M.exec o (ω 0) s with
    | some (r, s') => (k r).run (fun n => ω (n + 1)) s'
    | none => none

theorem run_bind (p : Prog S ε α) (f : α → Prog S ε β) (ω : Nat → ι) (s : σ) :
    (p >>= f).run M ω s =
      match p.run M ω s with
      | some ⟨.ok a, s', ω'⟩ => (f a).run M ω' s'
      | some ⟨.error e, s', ω'⟩ => some ⟨.error e, s', ω'⟩
      | none => none := by
  change (p.bind f).run M ω s = _
  induction p generalizing ω s with
  | pure a => rfl
  | raise e => rfl
  | step o k ih =>
    simp only [Prog.step_bind, Prog.run]
    split
    · exact ih _ _ _
    · rfl

theorem run_attempt (p : Prog S ε α) (ω : Nat → ι) (s : σ) :
    p.attempt.run M ω s = (p.run M ω s).map fun o => ⟨.ok o.result, o.state, o.inputs⟩ := by
  induction p generalizing ω s with
  | pure a => rfl
  | raise e => rfl
  | step o k ih =>
    simp only [Prog.attempt, Prog.run]
    split
    · exact ih _ _ _
    · rfl

end Run

/-! ## The operations a program may issue -/

/-- Every operation the program can issue, whatever the answers, satisfies `P`. -/
inductive Issues {S : Sig} {ε α : Type} (P : S.Op → Prop) : Prog S ε α → Prop where
  | pure (a : α) : Issues P (.pure a)
  | raise (e : ε) : Issues P (.raise e)
  | step {o : S.Op} {k : S.Ret o → Prog S ε α} (ho : P o) (hk : ∀ r, Issues P (k r)) :
    Issues P (.step o k)

namespace Issues

variable {S : Sig} {ε α β : Type} {P P' : S.Op → Prop}

theorem mono {p : Prog S ε α} (h : Issues P p) (hP : ∀ o, P o → P' o) : Issues P' p := by
  induction h with
  | pure a => exact .pure a
  | raise e => exact .raise e
  | step ho _ ih => exact .step (hP _ ho) ih

theorem bind {p : Prog S ε α} {f : α → Prog S ε β} (h : Issues P p) (hf : ∀ a, Issues P (f a)) :
    Issues P (p >>= f) := by
  induction h with
  | pure a => exact hf a
  | raise e => exact .raise e
  | step ho _ ih => exact .step ho ih

theorem attempt {p : Prog S ε α} (h : Issues P p) : Issues P p.attempt := by
  induction h with
  | pure a => exact .pure _
  | raise e => exact .pure _
  | step ho _ ih => exact .step ho ih

theorem perform {o : S.Op} (h : P o) : Issues P (Prog.perform o : Prog S ε _) :=
  .step h fun r => .pure r

theorem ofExcept (x : Except ε α) : Issues P (Prog.ofExcept x : Prog S ε α) := by
  cases x with
  | ok a => exact .pure a
  | error e => exact .raise e

theorem withCleanup {p : Prog S ε α} {cleanup : Prog S ε Unit} (h : Issues P p)
    (hc : Issues P cleanup) : Issues P (p.withCleanup cleanup) :=
  h.attempt.bind fun result => hc.bind fun _ => .ofExcept result

/-- A relation that each of the operations keeps is kept by a whole run. -/
theorem run {σ ι : Type} {M : Machine S σ ι} {R : σ → σ → Prop} (hrefl : ∀ s, R s s)
    (htrans : ∀ s s' s'', R s s' → R s' s'' → R s s'')
    (hexec : ∀ o i s r s', P o → M.exec o i s = some (r, s') → R s s') {p : Prog S ε α}
    (h : Issues P p) {ω : Nat → ι} {s : σ} {out : Outcome σ ι ε α}
    (hrun : p.run M ω s = some out) : R s out.state := by
  induction h generalizing ω s with
  | pure a =>
    rw [Prog.run, Option.some.injEq] at hrun
    exact hrun ▸ hrefl s
  | raise e =>
    rw [Prog.run, Option.some.injEq] at hrun
    exact hrun ▸ hrefl s
  | @step o k ho _ ih =>
    rw [Prog.run] at hrun
    split at hrun
    · next r s' he => exact htrans _ _ _ (hexec o _ s r s' ho he) (ih r hrun)
    · exact nomatch hrun

end Issues

/-- Run alone from any state of `I`, the program comes to an end in `I'`: it is
    never blocked. -/
def Ends {S : Sig} {σ ι ε α : Type} (M : Machine S σ ι) (I I' : σ → Prop) (p : Prog S ε α) : Prop :=
  ∀ ω s, I s → ∃ out, p.run M ω s = some out ∧ I' out.state

namespace Ends

variable {S : Sig} {σ ι ε α β : Type} {M : Machine S σ ι} {I I' I'' : σ → Prop}

theorem pure (a : α) : Ends M I I (Pure.pure a : Prog S ε α) :=
  fun ω s hs => ⟨⟨.ok a, s, ω⟩, rfl, hs⟩

theorem ofExcept (x : Except ε α) : Ends M I I (Prog.ofExcept x : Prog S ε α) := by
  cases x with
  | ok a => exact .pure a
  | error e => exact fun ω s hs => ⟨⟨.error e, s, ω⟩, rfl, hs⟩

theorem bind {p : Prog S ε α} {f : α → Prog S ε β} (h : Ends M I I p)
    (hf : ∀ a, Ends M I I (f a)) : Ends M I I (p >>= f) := by
  intro ω s hs
  obtain ⟨⟨result, s', ω'⟩, hrun, hs'⟩ := h ω s hs
  cases result with
  | error e => exact ⟨⟨.error e, s', ω'⟩, by rw [run_bind, hrun], hs'⟩
  | ok a =>
    obtain ⟨out, hrun', hout⟩ := hf a ω' s' hs'
    exact ⟨out, by rw [run_bind, hrun]; exact hrun', hout⟩

/-- An operation that is not blocked, then the rest of the program. -/
theorem perform_bind {o : S.Op} {f : S.Ret o → Prog S ε α}
    (h : ∀ i s, I s → ∃ r s', M.exec o i s = some (r, s') ∧ I' s')
    (hf : ∀ r, Ends M I' I'' (f r)) : Ends M I I'' (Prog.perform o >>= f) := by
  intro ω s hs
  obtain ⟨r, s', he, hs'⟩ := h (ω 0) s hs
  obtain ⟨out, hrun, hout⟩ := hf r (fun n => ω (n + 1)) s' hs'
  refine ⟨out, ?_, hout⟩
  change Prog.run M (.step o f) ω s = some out
  rw [Prog.run, he]
  exact hrun

/-- The cleanup is reached on every path. -/
theorem withCleanup {p : Prog S ε α} {cleanup : Prog S ε Unit} (h : Ends M I I p)
    (hc : ∀ x : Except ε α, Ends M I I' (cleanup >>= fun _ => Prog.ofExcept x)) :
    Ends M I I' (p.withCleanup cleanup) := by
  intro ω s hs
  obtain ⟨⟨result, s', ω'⟩, hrun, hs'⟩ := h ω s hs
  obtain ⟨out, hrun', hout⟩ := hc result ω' s' hs'
  refine ⟨out, ?_, hout⟩
  rw [Prog.withCleanup, run_bind, run_attempt, hrun]
  exact hrun'

/-- A program none of whose operations is blocked. -/
theorem of_issues {p : Prog S ε α}
    (h : Issues (fun o => ∀ i s, I s → ∃ r s', M.exec o i s = some (r, s') ∧ I s') p) :
    Ends M I I p := by
  intro ω s hs
  induction h generalizing ω s with
  | pure a => exact ⟨⟨.ok a, s, ω⟩, rfl, hs⟩
  | raise e => exact ⟨⟨.error e, s, ω⟩, rfl, hs⟩
  | step ho _ ih =>
    obtain ⟨r, s', he, hs'⟩ := ho (ω 0) s hs
    obtain ⟨out, hrun, hout⟩ := ih r (fun n => ω (n + 1)) s' hs'
    refine ⟨out, ?_, hout⟩
    rw [Prog.run, he]
    exact hrun

end Ends

/-! ## Paths through a program -/

/-- A program that is given the answers of the log ends with the result. -/
inductive Path {S : Sig} {ε α : Type} :
    Prog S ε α → List ((o : S.Op) × S.Ret o) → Except ε α → Prop where
  | pure (a : α) : Path (.pure a) [] (.ok a)
  | raise (e : ε) : Path (.raise e) [] (.error e)
  | step {o : S.Op} {k : S.Ret o → Prog S ε α} {r : S.Ret o} {log : List ((o : S.Op) × S.Ret o)}
    {result : Except ε α} (h : Path (k r) log result) : Path (.step o k) (⟨o, r⟩ :: log) result

namespace Path

variable {S : Sig} {ε α β : Type} {log : List ((o : S.Op) × S.Ret o)}

theorem of_pure {a : α} {result : Except ε α} (h : Path (Pure.pure a : Prog S ε α) log result) :
    log = [] ∧ result = .ok a := by
  cases h
  exact ⟨rfl, rfl⟩

theorem of_bind {p : Prog S ε α} {f : α → Prog S ε β} {result : Except ε β}
    (h : Path (p >>= f) log result) :
    (∃ e, result = .error e ∧ Path p log (.error e)) ∨
    (∃ a log₁ log₂, log = log₁ ++ log₂ ∧ Path p log₁ (.ok a) ∧ Path (f a) log₂ result) := by
  change Path (p.bind f) log result at h
  induction p generalizing log with
  | pure a => exact .inr ⟨a, [], log, rfl, .pure a, h⟩
  | raise e =>
    cases h
    exact .inl ⟨e, rfl, .raise e⟩
  | step o k ih =>
    cases h with
    | step h =>
      rcases ih _ h with ⟨e, he, hp⟩ | ⟨a, log₁, log₂, rfl, hp, hf⟩
      · exact .inl ⟨e, he, .step hp⟩
      · exact .inr ⟨a, _ :: log₁, log₂, rfl, .step hp, hf⟩

theorem of_attempt {p : Prog S ε α} {result : Except ε (Except ε α)}
    (h : Path p.attempt log result) : ∃ r, result = .ok r ∧ Path p log r := by
  induction p generalizing log with
  | pure a =>
    cases h
    exact ⟨_, rfl, .pure a⟩
  | raise e =>
    cases h
    exact ⟨_, rfl, .raise e⟩
  | step o k ih =>
    cases h with
    | step h =>
      obtain ⟨r, hr, hp⟩ := ih _ h
      exact ⟨r, hr, .step hp⟩

theorem of_perform {o : S.Op} {result : Except ε (S.Ret o)}
    (h : Path (Prog.perform o : Prog S ε _) log result) : ∃ r, log = [⟨o, r⟩] ∧ result = .ok r := by
  cases h with
  | step h =>
    cases h
    exact ⟨_, rfl, rfl⟩

theorem of_perform_bind {o : S.Op} {f : S.Ret o → Prog S ε α} {result : Except ε α}
    (h : Path (Prog.perform o >>= f) log result) :
    ∃ r log', log = ⟨o, r⟩ :: log' ∧ Path (f r) log' result := by
  change Path (.step o f) log result at h
  cases h with
  | step h => exact ⟨_, _, rfl, h⟩

theorem of_attempt_bind {p : Prog S ε α} {f : Except ε α → Prog S ε β} {result : Except ε β}
    (h : Path (p.attempt >>= f) log result) :
    ∃ r log₁ log₂, log = log₁ ++ log₂ ∧ Path p log₁ r ∧ Path (f r) log₂ result := by
  rcases of_bind h with ⟨e, -, hp⟩ | ⟨r, log₁, log₂, hlog, hp, hf⟩
  · obtain ⟨r, hr, -⟩ := of_attempt hp
    exact nomatch hr
  · obtain ⟨r', hr, hp⟩ := of_attempt hp
    cases hr
    exact ⟨r, log₁, log₂, hlog, hp, hf⟩

theorem of_ofExcept {x result : Except ε α} (h : Path (Prog.ofExcept x : Prog S ε α) log result) :
    log = [] ∧ result = x := by
  cases x <;> cases h <;> exact ⟨rfl, rfl⟩

theorem of_withCleanup {p : Prog S ε α} {cleanup : Prog S ε Unit} {result : Except ε α}
    (h : Path (p.withCleanup cleanup) log result) :
    ∃ r log₁ log₂ done, log = log₁ ++ log₂ ∧ Path p log₁ r ∧ Path cleanup log₂ done ∧
      (result = r ∨ ∃ e, done = .error e) := by
  obtain ⟨r, log₁, log₂, rfl, hp, hc⟩ := of_attempt_bind h
  rcases of_bind hc with ⟨e, -, hdone⟩ | ⟨u, log₃, log₄, rfl, hdone, he⟩
  · exact ⟨r, log₁, log₂, _, rfl, hp, hdone, .inr ⟨e, rfl⟩⟩
  · obtain ⟨rfl, hresult⟩ := of_ofExcept he
    exact ⟨r, log₁, log₃, _, by rw [List.append_nil], hp, hdone, .inl hresult⟩

/-- What the second program may issue can depend on how the first one came to its end. -/
theorem issues_bind {P : S.Op → Prop} {p : Prog S ε α} {f : α → Prog S ε β} (hp : Issues P p)
    (hf : ∀ a log, Path p log (.ok a) → Issues P (f a)) : Issues P (p >>= f) := by
  induction hp with
  | pure a => exact hf a [] (.pure a)
  | raise e => exact .raise e
  | step ho _ ih => exact .step ho fun r => ih r fun a log h => hf a _ (.step h)

/-- The operations on a path are operations the program may issue. -/
theorem issues {P : S.Op → Prop} {p : Prog S ε α} (hp : Issues P p) {result : Except ε α}
    (h : Path p log result) : ∀ x ∈ log, P x.1 := by
  induction h with
  | pure a => exact fun x hx => nomatch hx
  | raise e => exact fun x hx => nomatch hx
  | step h ih =>
    cases hp with
    | step ho hk =>
      intro x hx
      rcases List.mem_cons.mp hx with rfl | hx
      · exact ho
      · exact ih (hk _) x hx

/-- A program is determined by its answers. -/
theorem unique {p : Prog S ε α} {x y : Except ε α} (h : Path p log x) (h' : Path p log y) :
    x = y := by
  induction h with
  | pure a =>
    cases h'
    rfl
  | raise e =>
    cases h'
    rfl
  | step h ih =>
    cases h' with
    | step h' => exact ih h'

end Path

/-- Given the answers of the log, the program goes on as `p'`. -/
inductive Resumes {S : Sig} {ε α : Type} :
    Prog S ε α → List ((o : S.Op) × S.Ret o) → Prog S ε α → Prop where
  | refl (p : Prog S ε α) : Resumes p [] p
  | step {o : S.Op} {k : S.Ret o → Prog S ε α} {r : S.Ret o} {log : List ((o : S.Op) × S.Ret o)}
    {p' : Prog S ε α} (h : Resumes (k r) log p') : Resumes (.step o k) (⟨o, r⟩ :: log) p'

namespace Resumes

variable {S : Sig} {ε α : Type} {p p' : Prog S ε α} {log : List ((o : S.Op) × S.Ret o)}

theorem snoc {o : S.Op} {k : S.Ret o → Prog S ε α} (h : Resumes p log (.step o k)) (r : S.Ret o) :
    Resumes p (log ++ [⟨o, r⟩]) (k r) := by
  generalize hstep : Prog.step o k = p' at h
  induction h with
  | refl p =>
    subst hstep
    exact .step (.refl _)
  | step _ ih => exact .step (ih hstep)

/-- A program that has come to its error is at the end of a path. -/
theorem path {e : ε} (h : Resumes p log (.raise e)) : Path p log (.error e) := by
  generalize hraise : Prog.raise e = p' at h
  induction h with
  | refl p =>
    subst hraise
    exact .raise e
  | step _ ih => exact .step (ih hraise)

theorem issues {P : S.Op → Prop} (hp : Issues P p) (h : Resumes p log p') : Issues P p' := by
  induction h with
  | refl p => exact hp
  | step _ ih =>
    cases hp with
    | step _ hk => exact ih (hk _)

end Resumes

/-- The operations of a sequential run and their answers. -/
def Prog.log {S : Sig} {σ ι ε α : Type} (M : Machine S σ ι) :
    Prog S ε α → (Nat → ι) → σ → List ((o : S.Op) × S.Ret o)
  | .pure _, _, _ => []
  | .raise _, _, _ => []
  | .step o k, ω, s =>
    match M.exec o (ω 0) s with
    | some (r, s') => ⟨o, r⟩ :: (k r).log M (fun n => ω (n + 1)) s'
    | none => []

/-- What is in the log is what the machine does under one of the inputs. -/
theorem Prog.of_mem_log {S : Sig} {σ ι ε α : Type} {M : Machine S σ ι} {p : Prog S ε α}
    {ω : Nat → ι} {s : σ} {x : (o : S.Op) × S.Ret o} (h : x ∈ p.log M ω s) :
    ∃ n s s', M.exec x.1 (ω n) s = some (x.2, s') := by
  induction p generalizing ω s with
  | pure a => exact nomatch h
  | raise e => exact nomatch h
  | step o k ih =>
    rw [Prog.log] at h
    split at h
    · next r s' he =>
      rcases List.mem_cons.mp h with rfl | h
      · exact ⟨0, s, s', he⟩
      · obtain ⟨n, hn⟩ := ih r h
        exact ⟨n + 1, hn⟩
    · exact nomatch h

/-- A run that ends is a path. -/
theorem Path.of_run {S : Sig} {σ ι ε α : Type} {M : Machine S σ ι} {p : Prog S ε α} {ω : Nat → ι}
    {s : σ} {out : Outcome σ ι ε α} (h : p.run M ω s = some out) :
    Path p (p.log M ω s) out.result := by
  induction p generalizing ω s with
  | pure a =>
    rw [Prog.run, Option.some.injEq] at h
    exact h ▸ .pure a
  | raise e =>
    rw [Prog.run, Option.some.injEq] at h
    exact h ▸ .raise e
  | step o k ih =>
    rw [Prog.run] at h
    rw [Prog.log]
    split at h
    · next r s' he =>
      exact .step (ih r h)
    · exact nomatch h

/-! ## What a program guarantees at its steps -/

/-- A discipline for the steps of a program. A ghost state `τ` follows the
    program; between two of its steps the environment may advance it. At each
    step the program guarantees `guar`, and may rely on `rely` for the answer. -/
structure Discipline (S : Sig) (τ : Type) where
  adv : τ → τ → Prop
  guar : τ → S.Op → Prop
  rely : τ → (o : S.Op) → S.Ret o → Prop
  next : τ → (o : S.Op) → S.Ret o → τ

/-- The program keeps the discipline from ghost state `t` on, ends in `Q` where
    it returns and in `E` where it raises. -/
inductive Sat {S : Sig} {τ ε α : Type} (D : Discipline S τ) (Q : τ → α → Prop)
    (E : τ → ε → Prop) : Prog S ε α → τ → Prop where
  | pure {t : τ} {a : α} (h : Q t a) : Sat D Q E (.pure a) t
  | raise {t : τ} {e : ε} (h : E t e) : Sat D Q E (.raise e) t
  | step {t : τ} {o : S.Op} {k : S.Ret o → Prog S ε α}
    (hguar : ∀ t', D.adv t t' → D.guar t' o)
    (hk : ∀ t', D.adv t t' → ∀ r, D.rely t' o r → Sat D Q E (k r) (D.next t' o r)) :
    Sat D Q E (.step o k) t

/-- The ghost state over a log of answers that could be relied on. -/
inductive Trail {S : Sig} {τ : Type} (D : Discipline S τ) :
    τ → List ((o : S.Op) × S.Ret o) → τ → Prop where
  | nil (t : τ) : Trail D t [] t
  | cons {t t' t'' : τ} {o : S.Op} {r : S.Ret o} {log : List ((o : S.Op) × S.Ret o)}
    (hadv : D.adv t t') (hrely : D.rely t' o r) (h : Trail D (D.next t' o r) log t'') :
    Trail D t (⟨o, r⟩ :: log) t''

namespace Sat

variable {S : Sig} {τ ε α β : Type} {D : Discipline S τ}

theorem mono {Q Q' : τ → α → Prop} {E E' : τ → ε → Prop} {p : Prog S ε α} {t : τ}
    (h : Sat D Q E p t) (hQ : ∀ t a, Q t a → Q' t a) (hE : ∀ t e, E t e → E' t e) :
    Sat D Q' E' p t := by
  induction h with
  | pure h => exact .pure (hQ _ _ h)
  | raise h => exact .raise (hE _ _ h)
  | step hguar _ ih => exact .step hguar ih

theorem bind {Q : τ → α → Prop} {Q' : τ → β → Prop} {E : τ → ε → Prop} {p : Prog S ε α}
    {f : α → Prog S ε β} {t : τ} (h : Sat D Q E p t)
    (hf : ∀ t a, Q t a → Sat D Q' E (f a) t) : Sat D Q' E (p >>= f) t := by
  induction h with
  | pure h => exact hf _ _ h
  | raise h => exact .raise h
  | step hguar _ ih => exact .step hguar ih

theorem attempt {Q : τ → α → Prop} {E : τ → ε → Prop} {Q' : τ → Except ε α → Prop}
    {E' : τ → ε → Prop} {p : Prog S ε α} {t : τ} (h : Sat D Q E p t)
    (hok : ∀ t a, Q t a → Q' t (.ok a)) (herr : ∀ t e, E t e → Q' t (.error e)) :
    Sat D Q' E' p.attempt t := by
  induction h with
  | pure h => exact .pure (hok _ _ h)
  | raise h => exact .pure (herr _ _ h)
  | step hguar _ ih => exact .step hguar ih

theorem perform {o : S.Op} {Q : τ → S.Ret o → Prop} {E : τ → ε → Prop} {t : τ}
    (hguar : ∀ t', D.adv t t' → D.guar t' o)
    (hQ : ∀ t', D.adv t t' → ∀ r, D.rely t' o r → Q (D.next t' o r) r) :
    Sat D Q E (Prog.perform o : Prog S ε _) t :=
  .step hguar fun t' hadv r hr => .pure (hQ t' hadv r hr)

theorem ofExcept {Q : τ → α → Prop} {E : τ → ε → Prop} {x : Except ε α} {t : τ}
    (hok : ∀ a, x = .ok a → Q t a) (herr : ∀ e, x = .error e → E t e) :
    Sat D Q E (Prog.ofExcept x : Prog S ε α) t := by
  cases x with
  | ok a => exact .pure (hok a rfl)
  | error e => exact .raise (herr e rfl)

/-- A program whose operations leave the ghost state as it is and need no
    guarantee keeps any discipline. -/
theorem of_issues {P : S.Op → Prop} {I : τ → Prop} (hadv : ∀ t t', D.adv t t' → I t → I t')
    (hguar : ∀ t o, P o → I t → D.guar t o)
    (hnext : ∀ t o r, P o → I t → D.rely t o r → I (D.next t o r))
    {p : Prog S ε α} (h : Issues P p) {t : τ} (ht : I t) :
    Sat D (fun t _ => I t) (fun t _ => I t) p t := by
  induction h generalizing t with
  | pure a => exact .pure ht
  | raise e => exact .raise ht
  | step ho _ ih =>
    exact .step (fun t' h' => hguar t' _ ho (hadv t t' h' ht)) fun t' h' r hr =>
      ih r (hnext t' _ r ho (hadv t t' h' ht) hr)

/-- A program whose operations need no guarantee ends on one of its paths, with
    answers that could be relied on. -/
theorem of_trail {P : S.Op → Prop} (hguar : ∀ t o, P o → D.guar t o) {p : Prog S ε α}
    (h : Issues P p) (t : τ) :
    Sat D (fun t' a => ∃ log, Path p log (.ok a) ∧ Trail D t log t') (fun _ _ => True) p t := by
  induction h generalizing t with
  | pure a => exact .pure ⟨[], .pure a, .nil t⟩
  | raise e => exact .raise trivial
  | step ho _ ih =>
    refine .step (fun t' _ => hguar t' _ ho) fun t' h' r hr => ?_
    refine (ih r (D.next t' _ r)).mono ?_ fun _ _ h => h
    rintro t'' a ⟨log, hpath, htrail⟩
    exact ⟨_, .step hpath, .cons h' hr htrail⟩

/-- What is left of a program keeps the discipline from the ghost state it has
    come to. -/
theorem resumes {Q : τ → α → Prop} {E : τ → ε → Prop} {p p' : Prog S ε α} {t t' : τ}
    {log : List ((o : S.Op) × S.Ret o)} (h : Sat D Q E p t) (hr : Resumes p log p')
    (ht : Trail D t log t') : Sat D Q E p' t' := by
  induction hr generalizing t with
  | refl p =>
    cases ht
    exact h
  | step _ ih =>
    cases ht with
    | cons hadv hrely htrail =>
      cases h with
      | step _ hk => exact ih (hk _ hadv _ hrely) htrail

end Sat

/-! ## Interleavings -/

/-- A shared state and the programs that run over it; a thread is named by its
    place in the list. -/
structure Pool (S : Sig) (σ ε α : Type) where
  shared : σ
  threads : List (Prog S ε α)

/-- Every thread has returned or raised. -/
def Pool.Finished {S : Sig} {σ ε α : Type} (p : Pool S σ ε α) : Prop :=
  ∀ prog ∈ p.threads, ∀ o k, prog ≠ .step o k

/-- One choice of the scheduler: start a thread for a request, or let a thread
    do its next operation under an input of the environment. -/
inductive Label (ρ ι : Type) where
  | spawn (request : ρ)
  | step (tid : Nat) (input : ι)

/-- One operation of a run, with the states around it. -/
structure Event (S : Sig) (σ : Type) where
  tid : Nat
  op : S.Op
  ret : S.Ret op
  before : σ
  after : σ

section Pool

variable {S : Sig} {σ ι ρ ε α : Type} (M : Machine S σ ι) (program : ρ → Prog S ε α)

/-- One step of a pool; `none` where the label is not enabled. -/
def Pool.step (p : Pool S σ ε α) : Label ρ ι → Option (Pool S σ ε α × List (Event S σ))
  | .spawn request => some (⟨p.shared, p.threads ++ [program request]⟩, [])
  | .step tid input =>
    match p.threads[tid]? with
    | some (.step o k) =>
      match M.exec o input p.shared with
      | some (r, s') => some (⟨s', p.threads.set tid (k r)⟩, [⟨tid, o, r, p.shared, s'⟩])
      | none => none
    | _ => none

/-- A run of a pool and its events, oldest first. -/
def Pool.run (p : Pool S σ ε α) : List (Label ρ ι) → Option (Pool S σ ε α × List (Event S σ))
  | [] => some (p, [])
  | l :: ls =>
    match p.step M program l with
    | some (q, es) => (Pool.run q ls).map fun r => (r.1, es ++ r.2)
    | none => none

/-- What a step of a pool can do: start a thread, or one operation of a thread. -/
theorem Pool.step_cases {p q : Pool S σ ε α} {l : Label ρ ι} {es : List (Event S σ)}
    (h : p.step M program l = some (q, es)) :
    (∃ request, l = .spawn request ∧ q = ⟨p.shared, p.threads ++ [program request]⟩ ∧ es = []) ∨
    (∃ tid input o k r s', l = .step tid input ∧ p.threads[tid]? = some (.step o k) ∧
      M.exec o input p.shared = some (r, s') ∧ q = ⟨s', p.threads.set tid (k r)⟩ ∧
      es = [⟨tid, o, r, p.shared, s'⟩]) := by
  cases l with
  | spawn request =>
    simp only [Pool.step, Option.some.injEq, Prod.mk.injEq] at h
    exact .inl ⟨request, rfl, h.1.symm, h.2.symm⟩
  | step tid input =>
    simp only [Pool.step] at h
    split at h
    · next o k hk =>
      split at h
      · next r s' he =>
        simp only [Option.some.injEq, Prod.mk.injEq] at h
        exact .inr ⟨tid, input, o, k, r, s', rfl, hk, he, h.1.symm, h.2.symm⟩
      · exact nomatch h
    · exact nomatch h

/-- What a run that starts with a given label does first. -/
theorem Pool.run_cons {p q : Pool S σ ε α} {l : Label ρ ι} {ls : List (Label ρ ι)}
    {tr : List (Event S σ)} (h : p.run M program (l :: ls) = some (q, tr)) :
    ∃ p' es tr', p.step M program l = some (p', es) ∧
      p'.run M program ls = some (q, tr') ∧ tr = es ++ tr' := by
  simp only [Pool.run] at h
  split at h
  · next p' es hs =>
    obtain ⟨⟨q', tr'⟩, hr, heq⟩ := Option.map_eq_some_iff.mp h
    simp only [Prod.mk.injEq] at heq
    obtain ⟨rfl, rfl⟩ := heq
    exact ⟨p', es, tr', hs, hr, rfl⟩
  · exact nomatch h

/-- A trace of the machine: each operation starts where the one before it ended. -/
def Trace (M : Machine S σ ι) : σ → List (Event S σ) → σ → Prop
  | s, [], s' => s = s'
  | s, e :: tr, s' =>
    e.before = s ∧ (∃ i, M.exec e.op i e.before = some (e.ret, e.after)) ∧ Trace M e.after tr s'

/-- The events of a run are a trace of the machine. -/
theorem Pool.run_trace {p q : Pool S σ ε α} {ls : List (Label ρ ι)} {tr : List (Event S σ)}
    (h : p.run M program ls = some (q, tr)) : Trace M p.shared tr q.shared := by
  induction ls generalizing p tr with
  | nil =>
    simp only [Pool.run, Option.some.injEq, Prod.mk.injEq] at h
    obtain ⟨rfl, rfl⟩ := h
    rfl
  | cons l ls ih =>
    obtain ⟨p', es, tr', hs, hr, rfl⟩ := Pool.run_cons M program h
    rcases Pool.step_cases M program hs with
      ⟨request, _, rfl, rfl⟩ | ⟨tid, i, o, _, r, s', _, _, he, rfl, rfl⟩
    · exact ih (p := ⟨p.shared, p.threads ++ [program request]⟩) hr
    · exact ⟨rfl, ⟨i, he⟩, ih hr⟩

/-- Each event of a trace is what the machine does. -/
theorem Trace.happens {s s' : σ} {tr : List (Event S σ)} (h : Trace M s tr s') {e : Event S σ}
    (he : e ∈ tr) : ∃ i, M.exec e.op i e.before = some (e.ret, e.after) := by
  induction tr generalizing s with
  | nil => exact nomatch he
  | cons e' tr ih =>
    rcases List.mem_cons.mp he with rfl | he
    · exact h.2.1
    · exact ih h.2.2 he

/-- What every operation of the machine preserves holds at the end of a trace. -/
theorem Trace.invariant {I : σ → Prop}
    (hexec : ∀ o i s r s', I s → M.exec o i s = some (r, s') → I s') {s s' : σ}
    {tr : List (Event S σ)} (hs : I s) (h : Trace M s tr s') : I s' := by
  induction tr generalizing s with
  | nil => exact h ▸ hs
  | cons e tr ih =>
    obtain ⟨rfl, ⟨i, he⟩, h⟩ := h
    exact ih (hexec e.op i e.before e.ret e.after hs he) h

/-- A trace splits where its events do. -/
theorem Trace.append {s s' : σ} {tr tr' : List (Event S σ)} (h : Trace M s (tr ++ tr') s') :
    ∃ m, Trace M s tr m ∧ Trace M m tr' s' := by
  induction tr generalizing s with
  | nil => exact ⟨s, rfl, h⟩
  | cons e tr ih =>
    obtain ⟨hb, he, h⟩ := h
    obtain ⟨m, h₁, h₂⟩ := ih h
    exact ⟨m, ⟨hb, he, h₁⟩, h₂⟩

/-- The requests of a list of labels; the thread of each is its place. -/
def requests (ls : List (Label ρ ι)) : List ρ :=
  ls.filterMap fun l => match l with
    | .spawn request => some request
    | .step _ _ => none

/-- The operations of one thread and their answers. -/
def logOf (tid : Nat) (tr : List (Event S σ)) : List ((o : S.Op) × S.Ret o) :=
  (tr.filter fun e => e.tid == tid).map fun e => ⟨e.op, e.ret⟩

theorem logOf_append (tid : Nat) (tr tr' : List (Event S σ)) :
    logOf tid (tr ++ tr') = logOf tid tr ++ logOf tid tr' := by
  rw [logOf, List.filter_append, List.map_append]
  rfl

theorem logOf_concat (tid : Nat) (tr : List (Event S σ)) (e : Event S σ) :
    logOf tid (tr ++ [e]) =
      if tid = e.tid then logOf tid tr ++ [⟨e.op, e.ret⟩] else logOf tid tr := by
  rw [logOf_append]
  split
  · next heq =>
    subst heq
    simp [logOf]
  · next hne => simp [logOf, Ne.symm hne]

/-- Each thread is where the answers it has seen bring the program of its request. -/
def Pool.Follows (hist : List (Event S σ)) (rs : List ρ) (p : Pool S σ ε α) : Prop :=
  p.threads.length = rs.length ∧
    (∀ tid, rs.length ≤ tid → logOf tid hist = []) ∧
    ∀ (tid : Nat) prog, p.threads[tid]? = some prog →
      ∃ request, rs[tid]? = some request ∧ Resumes (program request) (logOf tid hist) prog

theorem Pool.Follows.spawn {hist : List (Event S σ)} {rs : List ρ} {p : Pool S σ ε α}
    (h : p.Follows program hist rs) (request : ρ) :
    Pool.Follows program hist (rs ++ [request]) ⟨p.shared, p.threads ++ [program request]⟩ := by
  obtain ⟨hlen, hnew, hp⟩ := h
  refine ⟨by simp only [List.length_append, hlen, List.length_singleton], ?_, ?_⟩
  · intro tid htid
    rw [List.length_append, List.length_singleton] at htid
    exact hnew tid (by omega)
  · intro tid prog hprog
    rw [List.getElem?_append] at hprog
    split at hprog
    · next hlt =>
      obtain ⟨r, hr, hresumes⟩ := hp tid prog hprog
      exact ⟨r, by rw [List.getElem?_append_left (hlen ▸ hlt)]; exact hr, hresumes⟩
    · next hlt =>
      rw [List.getElem?_singleton] at hprog
      split at hprog
      · next heq =>
        rw [Option.some.injEq] at hprog
        subst hprog
        refine ⟨request, ?_, ?_⟩
        · rw [List.getElem?_append_right (hlen ▸ not_lt.mp hlt), ← hlen, heq]
          rfl
        · rw [hnew tid (hlen ▸ not_lt.mp hlt)]
          exact .refl _
      · exact nomatch hprog

theorem Pool.Follows.step {hist : List (Event S σ)} {rs : List ρ} {p : Pool S σ ε α}
    (h : p.Follows program hist rs) {tid : Nat} {o : S.Op} {k : S.Ret o → Prog S ε α}
    (hk : p.threads[tid]? = some (.step o k)) (r : S.Ret o) (s' : σ) :
    Pool.Follows program (hist ++ [⟨tid, o, r, p.shared, s'⟩]) rs
      ⟨s', p.threads.set tid (k r)⟩ := by
  obtain ⟨hlen, hnew, hp⟩ := h
  have hlog : ∀ tid', logOf tid' (hist ++ [⟨tid, o, r, p.shared, s'⟩]) =
      if tid' = tid then logOf tid' hist ++ [⟨o, r⟩] else logOf tid' hist :=
    fun tid' => logOf_concat tid' hist _
  have htid : tid < rs.length := hlen ▸ (List.getElem?_eq_some_iff.mp hk).1
  refine ⟨by rw [List.length_set, hlen], ?_, ?_⟩
  · intro tid' htid'
    rw [hlog, if_neg (by omega)]
    exact hnew tid' htid'
  · intro tid' prog hprog
    rw [hlog]
    rw [List.getElem?_set] at hprog
    split at hprog
    · next heq =>
      subst heq
      split at hprog
      · rw [Option.some.injEq] at hprog
        subst hprog
        obtain ⟨request, hr, hresumes⟩ := hp tid _ hk
        exact ⟨request, hr, by rw [if_pos rfl]; exact hresumes.snoc r⟩
      · exact nomatch hprog
    · next hne =>
      rw [if_neg (Ne.symm hne)]
      exact hp tid' prog hprog

private theorem Pool.run_follows_from {p q : Pool S σ ε α} {ls : List (Label ρ ι)}
    {tr : List (Event S σ)} {hist : List (Event S σ)} {rs : List ρ}
    (hp : p.Follows program hist rs) (h : p.run M program ls = some (q, tr)) :
    q.Follows program (hist ++ tr) (rs ++ requests ls) ∧
      ∀ pre e post, tr = pre ++ e :: post → ∃ request k, (rs ++ requests ls)[e.tid]? =
        some request ∧ Resumes (program request) (logOf e.tid (hist ++ pre)) (.step e.op k) := by
  induction ls generalizing p tr hist rs with
  -- Induction on the labels; `hist` and `rs` are the events and the requests so far.
  | nil =>
    simp only [Pool.run, Option.some.injEq, Prod.mk.injEq] at h
    obtain ⟨rfl, rfl⟩ := h
    refine ⟨by simpa only [List.append_nil, requests, List.filterMap_nil] using hp, ?_⟩
    intro pre e post hnil
    simp only [List.nil_eq, List.append_eq_nil_iff, reduceCtorEq, and_false] at hnil
  | cons l ls ih =>
    obtain ⟨p', es, tr', hs, hr, rfl⟩ := Pool.run_cons M program h
    rcases Pool.step_cases M program hs with
      ⟨request, rfl, rfl, rfl⟩ | ⟨tid, i, o, k, r, s', rfl, hk, he, rfl, rfl⟩
    -- A new thread adds its request and no event.
    · have hreq : rs ++ requests (.spawn request :: ls) = (rs ++ [request]) ++ requests ls := by
        rw [List.append_assoc]; rfl
      rw [hreq]
      exact ih (hp.spawn program request) hr
    -- A step is the first event of the rest.
    · obtain ⟨hq, hev⟩ := ih (hp.step program hk r s') hr
      have hreq : requests (.step tid i :: ls) = requests ls := rfl
      rw [hreq]
      refine ⟨by rwa [List.append_assoc] at hq, fun pre e post heq => ?_⟩
      cases pre with
      | nil =>
        -- The event of this step: its thread stood at this operation.
        simp only [List.nil_append, List.cons_append, List.cons.injEq] at heq
        obtain ⟨rfl, -⟩ := heq
        obtain ⟨request, hrequest, hresumes⟩ := hp.2.2 tid _ hk
        have hlt : tid < rs.length := (List.getElem?_eq_some_iff.mp hrequest).1
        refine ⟨request, k, by rw [List.getElem?_append_left hlt]; exact hrequest, ?_⟩
        rw [List.append_nil]
        exact hresumes
      -- A later event.
      | cons e' pre =>
        simp only [List.cons_append, List.nil_append, List.cons.injEq] at heq
        obtain ⟨rfl, heq⟩ := heq
        have := hev pre e post heq
        rwa [List.append_assoc] at this

private theorem Pool.follows_empty (s : σ) :
    Pool.Follows program [] [] (⟨s, []⟩ : Pool S σ ε α) :=
  ⟨rfl, fun _ _ => rfl, fun _ _ h => nomatch h⟩

/-- In a run that starts without threads, each thread is where the answers it has
    seen bring the program of its request. -/
theorem Pool.run_follows {s : σ} {q : Pool S σ ε α} {ls : List (Label ρ ι)}
    {tr : List (Event S σ)} (h : Pool.run M program ⟨s, []⟩ ls = some (q, tr)) {tid : Nat}
    {prog : Prog S ε α} (hprog : q.threads[tid]? = some prog) :
    ∃ request, (requests ls)[tid]? = some request ∧
      Resumes (program request) (logOf tid tr) prog :=
  (Pool.run_follows_from M program (Pool.follows_empty program s) h).1.2.2 tid prog hprog

/-- A thread that does not exist has done nothing. -/
theorem Pool.run_logOf_nil {s : σ} {q : Pool S σ ε α} {ls : List (Label ρ ι)}
    {tr : List (Event S σ)} (h : Pool.run M program ⟨s, []⟩ ls = some (q, tr)) {tid : Nat}
    (hnone : q.threads[tid]? = none) : logOf tid tr = [] := by
  obtain ⟨hlen, hnew, -⟩ := (Pool.run_follows_from M program (Pool.follows_empty program s) h).1
  rw [List.getElem?_eq_none_iff] at hnone
  exact hnew tid (hlen ▸ hnone)

/-- Every event of a run that starts without threads is the next operation of the
    program of its thread, after the answers this thread has seen. -/
theorem Pool.run_resumes {s : σ} {q : Pool S σ ε α} {ls : List (Label ρ ι)}
    {pre post : List (Event S σ)} {e : Event S σ}
    (h : Pool.run M program ⟨s, []⟩ ls = some (q, pre ++ e :: post)) :
    ∃ request k, (requests ls)[e.tid]? = some request ∧
      Resumes (program request) (logOf e.tid pre) (.step e.op k) :=
  (Pool.run_follows_from M program (Pool.follows_empty program s) h).2 pre e post rfl

/-- Every event of a run that starts without threads is an operation the program
    of its thread may issue. -/
theorem Pool.run_issues {P : ρ → S.Op → Prop} (hP : ∀ request, Issues (P request) (program request))
    {s : σ} {q : Pool S σ ε α} {ls : List (Label ρ ι)} {tr : List (Event S σ)}
    (h : Pool.run M program ⟨s, []⟩ ls = some (q, tr)) :
    ∀ e ∈ tr, ∃ r, (requests ls)[e.tid]? = some r ∧ P r e.op := by
  intro e he
  obtain ⟨pre, post, rfl⟩ := List.append_of_mem he
  obtain ⟨request, k, hrequest, hresumes⟩ := Pool.run_resumes M program h
  refine ⟨request, hrequest, ?_⟩
  cases hresumes.issues (hP request) with
  | step ho _ => exact ho

/-- Run a program alone, as the thread `tid`, on exactly the inputs given. -/
def Prog.finish (M : Machine S σ ι) (tid : Nat) :
    Prog S ε α → List ι → σ → Option (σ × List (Event S σ))
  | .pure _, [], s => some (s, [])
  | .raise _, [], s => some (s, [])
  | .step o k, i :: is, s =>
    match M.exec o i s with
    | some (r, s') => ((k r).finish M tid is s').map fun x => (x.1, ⟨tid, o, r, s, s'⟩ :: x.2)
    | none => none
  | _, _, _ => none

private theorem Pool.run_steps {p : Prog S ε α} {is : List ι} {s s' : σ} {tid : Nat}
    {tr : List (Event S σ)} (h : p.finish M tid is s = some (s', tr)) (ts : List (Prog S ε α))
    (ht : ts[tid]? = some p) :
    ∃ ts', Pool.run M program ⟨s, ts⟩ (is.map (Label.step tid)) = some (⟨s', ts'⟩, tr) ∧
      ts'.length = ts.length := by
  induction is generalizing p s ts tr with
  | nil =>
    cases p <;> simp only [Prog.finish, Option.some.injEq, Prod.mk.injEq, reduceCtorEq] at h <;>
      exact ⟨ts, by simp only [List.map_nil, Pool.run, h], rfl⟩
  | cons i is ih =>
    cases p with
    | pure a => exact nomatch h
    | raise e => exact nomatch h
    | step o k =>
      simp only [Prog.finish] at h
      split at h
      · next r s₁ he =>
        obtain ⟨⟨s₂, tr₂⟩, hfin, heq⟩ := Option.map_eq_some_iff.mp h
        rw [Prod.mk.injEq] at heq
        obtain ⟨rfl, rfl⟩ := heq
        have htid : tid < ts.length := (List.getElem?_eq_some_iff.mp ht).1
        obtain ⟨ts', hrun, hlen⟩ := ih hfin (ts.set tid (k r)) (List.getElem?_set_self htid)
        refine ⟨ts', ?_, by rw [hlen, List.length_set]⟩
        simp only [List.map_cons, Pool.run, Pool.step, ht, he, hrun, Option.map_some,
          List.cons_append, List.nil_append]
      · exact nomatch h

/-- A thread that is started and runs to its end alone does what its program
    does alone, whatever other threads there are. -/
theorem Pool.run_alone {request : ρ} {is : List ι} {s s' : σ} {tr : List (Event S σ)}
    (ts : List (Prog S ε α)) (h : (program request).finish M ts.length is s = some (s', tr)) :
    ∃ ts', Pool.run M program ⟨s, ts⟩ (.spawn request :: is.map (Label.step ts.length)) =
      some (⟨s', ts'⟩, tr) ∧ ts'.length = ts.length + 1 := by
  obtain ⟨ts', hrun, hlen⟩ := Pool.run_steps M program h (ts ++ [program request])
    List.getElem?_concat_length
  refine ⟨ts', ?_, by rw [hlen, List.length_append, List.length_singleton]⟩
  simp only [Pool.run, Pool.step, hrun, Option.map_some, List.nil_append]

/-- A run of a list of labels after a run of another. -/
theorem Pool.run_append {p q r : Pool S σ ε α} {ls ls' : List (Label ρ ι)}
    {tr tr' : List (Event S σ)} (h : p.run M program ls = some (q, tr))
    (h' : q.run M program ls' = some (r, tr')) :
    p.run M program (ls ++ ls') = some (r, tr ++ tr') := by
  induction ls generalizing p tr with
  | nil =>
    simp only [Pool.run, Option.some.injEq, Prod.mk.injEq] at h
    obtain ⟨rfl, rfl⟩ := h
    exact h'
  | cons l ls ih =>
    obtain ⟨p', es, tr₁, hs, hr, rfl⟩ := Pool.run_cons M program h
    simp only [List.cons_append, Pool.run, hs, ih hr, Option.map_some, List.append_assoc]

/-! ### Programs that keep a discipline

The ghost state of each thread is a function `g` of the history and the thread.
`J` is an invariant of the shared state under a history, and `A` is what is
assumed of each event. -/

section Discipline

variable {τ : Type} (D : Discipline S τ) (J : List (Event S σ) → σ → Prop)
  (g : List (Event S σ) → Nat → τ) (A : List (Event S σ) → Event S σ → Prop)

/-- The invariant holds and every thread keeps the discipline from here on. -/
def Pool.Keeps (hist : List (Event S σ)) (p : Pool S σ ε α) : Prop :=
  J hist p.shared ∧ ∀ tid prog, p.threads[tid]? = some prog →
    Sat D (fun _ _ => True) (fun _ _ => True) prog (g hist tid)

variable {D J g A}

/-- A program that keeps the discipline still does when the environment has
    advanced its ghost state. -/
theorem Sat.advance (htrans : ∀ t t' t'', D.adv t t' → D.adv t' t'' → D.adv t t'')
    {prog : Prog S ε α} {t t' : τ} (hadv : D.adv t t')
    (h : Sat D (fun _ _ => True) (fun _ _ => True) prog t) :
    Sat D (fun _ _ => True) (fun _ _ => True) prog t' := by
  cases h with
  | pure _ => exact .pure trivial
  | raise _ => exact .raise trivial
  | step hguar hk =>
    exact .step (fun t'' h' => hguar t'' (htrans _ _ _ hadv h')) fun t'' h' =>
      hk t'' (htrans _ _ _ hadv h')

/-- One event of a pool that keeps a discipline. -/
theorem Pool.Keeps.step (hrefl : ∀ t, D.adv t t)
    (htrans : ∀ t t' t'', D.adv t t' → D.adv t' t'' → D.adv t t'')
    (hother : ∀ hist e tid, tid ≠ e.tid → D.adv (g hist tid) (g (hist ++ [e]) tid))
    (hself : ∀ hist e, g (hist ++ [e]) e.tid = D.next (g hist e.tid) e.op e.ret)
    (hrely : ∀ hist e i, J hist e.before → A hist e →
      M.exec e.op i e.before = some (e.ret, e.after) → D.rely (g hist e.tid) e.op e.ret)
    (hJ : ∀ hist e i, J hist e.before → A hist e → D.guar (g hist e.tid) e.op →
      M.exec e.op i e.before = some (e.ret, e.after) → J (hist ++ [e]) e.after)
    {hist : List (Event S σ)} {p : Pool S σ ε α} (hp : p.Keeps D J g hist) {tid : Nat} {i : ι}
    {o : S.Op} {k : S.Ret o → Prog S ε α} {r : S.Ret o} {s' : σ}
    (hk : p.threads[tid]? = some (.step o k)) (he : M.exec o i p.shared = some (r, s'))
    (hA : A hist ⟨tid, o, r, p.shared, s'⟩) :
    D.guar (g hist tid) o ∧
      Pool.Keeps D J g (hist ++ [⟨tid, o, r, p.shared, s'⟩]) ⟨s', p.threads.set tid (k r)⟩ := by
  obtain ⟨hinv, hthreads⟩ := hp
  obtain ⟨hguar, hcont⟩ : D.guar (g hist tid) o ∧ ∀ r, D.rely (g hist tid) o r →
      Sat D (fun _ _ => True) (fun _ _ => True) (k r) (D.next (g hist tid) o r) := by
    cases hthreads tid _ hk with
    | step hguar hk => exact ⟨hguar _ (hrefl _), hk _ (hrefl _)⟩
  refine ⟨hguar, hJ hist ⟨tid, o, r, p.shared, s'⟩ i hinv hA hguar he, ?_⟩
  intro tid' prog hprog
  rw [List.getElem?_set] at hprog
  split at hprog
  · next heq =>
    subst heq
    split at hprog
    · rw [Option.some.injEq] at hprog
      subst hprog
      rw [hself hist ⟨tid, o, r, p.shared, s'⟩]
      exact hcont r (hrely hist ⟨tid, o, r, p.shared, s'⟩ i hinv hA he)
    · exact nomatch hprog
  · next hne =>
    exact Sat.advance htrans (hother hist ⟨tid, o, r, p.shared, s'⟩ tid' (Ne.symm hne))
      (hthreads tid' prog hprog)

/-- Programs that keep a discipline keep it in every interleaving: each event
    satisfies its guarantee and happens in a state of the invariant. -/
theorem Pool.run_discipline (hrefl : ∀ t, D.adv t t)
    (htrans : ∀ t t' t'', D.adv t t' → D.adv t' t'' → D.adv t t'')
    (hother : ∀ hist e tid, tid ≠ e.tid → D.adv (g hist tid) (g (hist ++ [e]) tid))
    (hself : ∀ hist e, g (hist ++ [e]) e.tid = D.next (g hist e.tid) e.op e.ret)
    (hrely : ∀ hist e i, J hist e.before → A hist e →
      M.exec e.op i e.before = some (e.ret, e.after) → D.rely (g hist e.tid) e.op e.ret)
    (hJ : ∀ hist e i, J hist e.before → A hist e → D.guar (g hist e.tid) e.op →
      M.exec e.op i e.before = some (e.ret, e.after) → J (hist ++ [e]) e.after)
    {start : Nat} (hspawn : ∀ hist tid request, start ≤ tid →
      Sat D (fun _ _ => True) (fun _ _ => True) (program request) (g hist tid))
    {hist : List (Event S σ)} {p q : Pool S σ ε α} {ls : List (Label ρ ι)}
    {tr : List (Event S σ)} (hp : p.Keeps D J g hist) (hstart : start ≤ p.threads.length)
    (h : p.run M program ls = some (q, tr))
    (hA : ∀ pre e post, tr = pre ++ e :: post → A (hist ++ pre) e) :
    q.Keeps D J g (hist ++ tr) ∧ start ≤ q.threads.length ∧
      ∀ pre e post, tr = pre ++ e :: post →
        D.guar (g (hist ++ pre) e.tid) e.op ∧ J (hist ++ pre) e.before := by
  -- Induction on the labels: each starts a thread or lets one take a step.
  induction ls generalizing p tr hist with
  | nil =>
    simp only [Pool.run, Option.some.injEq, Prod.mk.injEq] at h
    obtain ⟨rfl, rfl⟩ := h
    exact ⟨by rwa [List.append_nil], hstart, fun pre e post h => by
      simp only [List.nil_eq, List.append_eq_nil_iff, reduceCtorEq, and_false] at h⟩
  | cons l ls ih =>
    obtain ⟨p', es, tr', hs, hr, rfl⟩ := Pool.run_cons M program h
    rcases Pool.step_cases M program hs with
      ⟨request, _, rfl, rfl⟩ | ⟨tid, i, o, k, r, s', _, hk, he, rfl, rfl⟩
    -- A new thread keeps the discipline from the ghost state of its number on.
    · refine ih (p := ⟨p.shared, p.threads ++ [program request]⟩)
        ⟨hp.1, fun tid prog hprog => ?_⟩ ?_ hr hA
      · rw [List.getElem?_append] at hprog
        split at hprog
        · exact hp.2 tid prog hprog
        · next hlt =>
          rw [List.getElem?_singleton] at hprog
          split at hprog
          · rw [Option.some.injEq] at hprog
            exact hprog ▸ hspawn hist tid request (le_trans hstart (not_lt.mp hlt))
          · exact nomatch hprog
      · rw [List.length_append]
        exact Nat.le_add_right_of_le hstart
    -- A step is one event: its thread guarantees it, the others advance over it.
    · have hAe : A hist ⟨tid, o, r, p.shared, s'⟩ := by
        have := hA [] _ tr' rfl
        rwa [List.append_nil] at this
      obtain ⟨hguar, hp'⟩ := hp.step M hrefl htrans hother hself hrely hJ hk he hAe
      have hlen : start ≤ (p.threads.set tid (k r)).length := by rwa [List.length_set]
      obtain ⟨hq, hq', hev⟩ := ih hp' hlen hr fun pre e post heq => by
        have := hA (⟨tid, o, r, p.shared, s'⟩ :: pre) e post (by rw [heq]; rfl)
        rwa [List.append_cons] at this
      refine ⟨by rwa [← List.append_assoc], hq', fun pre e post heq => ?_⟩
      cases pre with
      | nil =>
        simp only [List.nil_append, List.cons_append, List.cons.injEq] at heq
        obtain ⟨rfl, _⟩ := heq
        rw [List.append_nil]
        exact ⟨hguar, hp.1⟩
      | cons e' pre =>
        simp only [List.cons_append, List.nil_append, List.cons.injEq] at heq
        obtain ⟨rfl, heq⟩ := heq
        rw [List.append_cons]
        exact hev pre e post heq

end Discipline

end Pool

end Interleave
