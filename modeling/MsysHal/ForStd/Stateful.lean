import MsysHal.ForStd.Hoare

/-!
# Programs with a memory of their own

A process that keeps a memory and talks to an environment: the memory is a state
that the program threads through, the environment is the answers in the log.
`Does p s log a s'` says that `p`, started with memory `s` and given the answers
of `log`, returns `a` and leaves the memory `s'`. Nothing is assumed about the
answers, so a fact about every log is a fact about every environment.

## Key results

- `does_pure`, `does_bind`, `does_ask`, `does_get`, `does_modify`: one rule for
  each way to build a program
- `Keeps.bind`: a relation that each piece of a program satisfies
- `Composes.maintains`: an invariant of the memory and the history
- `exists_does`: a program comes to an end under every way to answer
-/

namespace Interleave

/-- A program with a memory `σ`; nothing is raised. -/
abbrev Proc (S : Sig) (σ : Type) := StateT σ (Prog S Empty)

section Does

variable {S : Sig} {σ α β : Type}

/-- Issue one operation and return its answer. -/
def ask (o : S.Op) : Proc S σ (S.Ret o) := fun s => .step o fun r => .pure (r, s)

/-- The program, started with memory `s` and given the answers of the log,
    returns `a` and leaves the memory `s'`. -/
def Does (p : Proc S σ α) (s : σ) (log : Log S) (a : α) (s' : σ) : Prop :=
  Path (p s) log (.ok (a, s'))

variable {p : Proc S σ α} {f : α → Proc S σ β} {s s' : σ} {log : Log S}

theorem does_pure {a b : α} :
    Does (pure a : Proc S σ α) s log b s' ↔ log = [] ∧ b = a ∧ s' = s := by
  constructor
  · intro h
    obtain ⟨hlog, heq⟩ := Path.of_pure h
    rw [Except.ok.injEq, Prod.mk.injEq] at heq
    exact ⟨hlog, heq.1, heq.2⟩
  · rintro ⟨rfl, rfl, rfl⟩
    exact Path.pure _

theorem Does.bind {a : α} {b : β} {s₁ : σ} {log₁ log₂ : Log S} (hp : Does p s log₁ a s₁)
    (hf : Does (f a) s₁ log₂ b s') : Does (p >>= f) s (log₁ ++ log₂) b s' := by
  change Path ((p s).bind fun x => f x.1 x.2) (log₁ ++ log₂) (.ok (b, s'))
  replace hp : Path (p s) log₁ (.ok (a, s₁)) := hp
  generalize p s = prog at hp
  generalize hres : (Except.ok (a, s₁) : Except Empty (α × σ)) = result at hp
  induction hp with
  | pure x =>
    rw [Except.ok.injEq] at hres
    subst hres
    exact hf
  | raise e => exact e.elim
  | step _ ih => exact .step (ih hres)

theorem does_bind {b : β} : Does (p >>= f) s log b s' ↔
    ∃ a s₁ log₁ log₂, log = log₁ ++ log₂ ∧ Does p s log₁ a s₁ ∧ Does (f a) s₁ log₂ b s' := by
  constructor
  · intro h
    have h : Path (p s >>= fun x => f x.1 x.2) log (.ok (b, s')) := h
    rcases Path.of_bind h with ⟨e, -, -⟩ | ⟨⟨a, s₁⟩, log₁, log₂, hlog, hp, hf⟩
    · exact e.elim
    · exact ⟨a, s₁, log₁, log₂, hlog, hp, hf⟩
  · rintro ⟨a, s₁, log₁, log₂, rfl, hp, hf⟩
    exact hp.bind hf

theorem does_ask {o : S.Op} {r : S.Ret o} :
    Does (ask o : Proc S σ (S.Ret o)) s log r s' ↔ log = [⟨o, r⟩] ∧ s' = s := by
  constructor
  · intro h
    cases h with
    | step h =>
      cases h
      exact ⟨rfl, rfl⟩
  · rintro ⟨rfl, rfl⟩
    exact .step (.pure _)

theorem does_ask_bind {o : S.Op} {f : S.Ret o → Proc S σ β} {b : β} :
    Does (ask o >>= f) s log b s' ↔ ∃ r log', log = ⟨o, r⟩ :: log' ∧ Does (f r) s log' b s' := by
  rw [does_bind]
  constructor
  · rintro ⟨r, s₁, log₁, log₂, rfl, hask, hf⟩
    obtain ⟨rfl, rfl⟩ := does_ask.mp hask
    exact ⟨r, log₂, rfl, hf⟩
  · rintro ⟨r, log', rfl, hf⟩
    exact ⟨r, s, [⟨o, r⟩], log', rfl, does_ask.mpr ⟨rfl, rfl⟩, hf⟩

theorem does_get_bind {f : σ → Proc S σ β} {b : β} :
    Does (get >>= f) s log b s' ↔ Does (f s) s log b s' := Iff.rfl

theorem does_modify {g : σ → σ} {u : Unit} :
    Does (modify g : Proc S σ Unit) s log u s' ↔ log = [] ∧ s' = g s := by
  constructor
  · intro h
    obtain ⟨hlog, heq⟩ := Path.of_pure (show Path (Pure.pure ((), g s)) log (.ok (u, s')) from h)
    rw [Except.ok.injEq, Prod.mk.injEq] at heq
    exact ⟨hlog, heq.2⟩
  · rintro ⟨rfl, rfl⟩
    exact Path.pure _

theorem does_modify_bind {g : σ → σ} {f : Unit → Proc S σ β} {b : β} :
    Does (modify g >>= f) s log b s' ↔ Does (f ()) (g s) log b s' := Iff.rfl

/-- A program comes to an end under every way to answer. -/
theorem exists_does (answer : (o : S.Op) → S.Ret o) (p : Proc S σ α) (s : σ) :
    ∃ log a s', Does p s log a s' ∧ ∀ x ∈ log, x.2 = answer x.1 := by
  suffices h : ∀ prog : Prog S Empty (α × σ), ∃ log x, Path prog log (.ok x) ∧
      ∀ x ∈ log, x.2 = answer x.1 by
    obtain ⟨log, x, hpath, hlog⟩ := h (p s)
    exact ⟨log, x.1, x.2, hpath, hlog⟩
  intro prog
  induction prog with
  | pure x => exact ⟨[], x, .pure x, fun _ h => nomatch h⟩
  | raise e => exact e.elim
  | step o k ih =>
    obtain ⟨log, x, hpath, hlog⟩ := ih (answer o)
    refine ⟨⟨o, answer o⟩ :: log, x, .step hpath, fun y hy => ?_⟩
    rcases List.mem_cons.mp hy with rfl | hy
    · rfl
    · exact hlog y hy

end Does

/-! ### Relations that runs build up -/

/-- A relation between the memories around a run and the answers on the way that is
    built up piece by piece. -/
structure Composes {S : Sig} {σ : Type} (R : σ → Log S → σ → Prop) : Prop where
  nil (s : σ) : R s [] s
  append {s s' s'' : σ} {log log' : Log S} (h : R s log s') (h' : R s' log' s'') :
    R s (log ++ log') s''

/-- An invariant of the memory and of all that was answered so far, as a relation. -/
def Maintains {S : Sig} {σ : Type} (Inv : Log S → σ → Prop) (s : σ) (log : Log S) (s' : σ) : Prop :=
  ∀ history, Inv history s → Inv (history ++ log) s'

theorem Composes.maintains {S : Sig} {σ : Type} (Inv : Log S → σ → Prop) :
    Composes (Maintains Inv) where
  nil s history h := by rwa [List.append_nil]
  append h h' history hinv := by
    rw [← List.append_assoc]
    exact h' _ (h history hinv)

/-- Every run of the program satisfies the relation. -/
def Keeps {S : Sig} {σ α : Type} (R : σ → Log S → σ → Prop) (p : Proc S σ α) : Prop :=
  ∀ s log a s', Does p s log a s' → R s log s'

namespace Keeps

variable {S : Sig} {σ α β : Type} {R : σ → Log S → σ → Prop}

theorem pure (hR : Composes R) (a : α) : Keeps R (Pure.pure a : Proc S σ α) := by
  intro s log b s' h
  obtain ⟨rfl, -, rfl⟩ := does_pure.mp h
  exact hR.nil s'

theorem bind (hR : Composes R) {p : Proc S σ α} {f : α → Proc S σ β} (hp : Keeps R p)
    (hf : ∀ a, Keeps R (f a)) : Keeps R (p >>= f) := by
  intro s log b s' h
  obtain ⟨a, s₁, log₁, log₂, rfl, hp', hf'⟩ := does_bind.mp h
  exact hR.append (hp s log₁ a s₁ hp') (hf a s₁ log₂ b s' hf')

theorem ask {o : S.Op} (h : ∀ s r, R s [⟨o, r⟩] s) : Keeps R (Interleave.ask o : Proc S σ _) := by
  intro s log r s' hdoes
  obtain ⟨rfl, rfl⟩ := does_ask.mp hdoes
  exact h s' r

theorem modify {g : σ → σ} (h : ∀ s, R s [] (g s)) :
    Keeps R (MonadState.modifyGet fun s => ((), g s) : Proc S σ Unit) := by
  intro s log u s' hdoes
  obtain ⟨rfl, rfl⟩ := does_modify.mp hdoes
  exact h s

theorem get_bind {f : σ → Proc S σ β} (hf : ∀ s, Keeps R (f s)) :
    Keeps R (MonadState.get >>= f) := fun s log b s' h => hf s s log b s' h

end Keeps

/-! ### Runs that can be evaluated -/

section Feed

variable {S : Sig} {σ ε α : Type}

/-- Run a program on a list of ways to answer, one for each operation, all of which are used. -/
def Prog.feed : Prog S ε α → List ((o : S.Op) → S.Ret o) → Option (α × Log S)
  | .pure a, [] => some (a, [])
  | .step o k, answer :: answers =>
    ((k (answer o)).feed answers).map fun x => (x.1, ⟨o, answer o⟩ :: x.2)
  | _, _ => none

theorem Path.of_feed {p : Prog S ε α} {answers : List ((o : S.Op) → S.Ret o)} {x : α × Log S}
    (h : p.feed answers = some x) : Path p x.2 (.ok x.1) := by
  induction p generalizing answers x with
  | pure a =>
    cases answers with
    | nil =>
      rw [Prog.feed, Option.some.injEq] at h
      exact h ▸ .pure a
    | cons answer answers => exact nomatch h
  | raise e => exact nomatch h
  | step o k ih =>
    cases answers with
    | nil => exact nomatch h
    | cons answer answers =>
      obtain ⟨y, hy, rfl⟩ := Option.map_eq_some_iff.mp h
      exact .step (ih _ hy)

/-- A run that was evaluated is a run. -/
theorem Does.of_feed {p : Proc S σ α} {s : σ} {answers : List ((o : S.Op) → S.Ret o)}
    {x : (α × σ) × Log S} (h : (p s).feed answers = some x) : Does p s x.2 x.1.1 x.1.2 :=
  Path.of_feed h

/-- Run a program in an environment that always answers an operation in the same way. -/
def Prog.follow (answer : (o : S.Op) → S.Ret o) : Prog S ε α → Except ε α × Log S
  | .pure a => (.ok a, [])
  | .raise e => (.error e, [])
  | .step o k =>
    let rest := (k (answer o)).follow answer
    (rest.1, ⟨o, answer o⟩ :: rest.2)

theorem Path.of_follow (answer : (o : S.Op) → S.Ret o) (p : Prog S ε α) :
    Path p (p.follow answer).2 (p.follow answer).1 := by
  induction p with
  | pure a => exact .pure a
  | raise e => exact .raise e
  | step o k ih => exact .step (ih (answer o))

theorem Prog.follow_answers (answer : (o : S.Op) → S.Ret o) (p : Prog S ε α) :
    ∀ x ∈ (p.follow answer).2, x.2 = answer x.1 := by
  induction p with
  | pure a => exact fun x hx => nomatch hx
  | raise e => exact fun x hx => nomatch hx
  | step o k ih =>
    intro x hx
    rcases List.mem_cons.mp hx with rfl | hx
    · rfl
    · exact ih (answer o) x hx

theorem Prog.follow_bind {β : Type} {answer : (o : S.Op) → S.Ret o} {p : Prog S ε α} {a : α}
    {log : Log S} (h : p.follow answer = (.ok a, log)) (f : α → Prog S ε β) :
    (p >>= f).follow answer = (((f a).follow answer).1, log ++ ((f a).follow answer).2) := by
  change (p.bind f).follow answer = _
  induction p generalizing log with
  | pure b =>
    cases h
    rfl
  | raise e => exact nomatch h
  | step o k ih =>
    obtain ⟨hresult, rfl⟩ := Prod.mk.inj h
    rw [Prog.step_bind, Prog.follow, ih _ (Prod.ext hresult rfl)]
    rfl

/-- An operation that was issued is in the log with its answer. -/
theorem Prog.mem_follow [DecidableEq S.Op] (answer : (o : S.Op) → S.Ret o)
    (p : Prog S ε α) (o : S.Op) (h : (p.follow answer).2.any (fun x => x.1 == o) = true) :
    (⟨o, answer o⟩ : (o : S.Op) × S.Ret o) ∈ (p.follow answer).2 := by
  obtain ⟨⟨o', r⟩, hx, hop⟩ := List.any_eq_true.mp h
  have hanswer := p.follow_answers answer _ hx
  obtain rfl := eq_of_beq hop
  rwa [show r = answer o' from hanswer] at hx

/-- The same of a program with a memory: what it returns, the memory it leaves and the answers. -/
def Proc.follow (answer : (o : S.Op) → S.Ret o) (p : Proc S σ α) (s : σ) : (α × σ) × Log S :=
  match (p s).follow answer with
  | (.ok x, log) => (x, log)
  | (.error e, _) => e.elim

theorem Proc.follow_log (answer : (o : S.Op) → S.Ret o) (p : Proc S σ α) (s : σ) :
    (p.follow answer s).2 = ((p s).follow answer).2 := by
  rw [Proc.follow]
  match (p s).follow answer with
  | (.ok x, log) => rfl
  | (.error e, _) => exact e.elim

theorem Does.of_follow (answer : (o : S.Op) → S.Ret o) (p : Proc S σ α) (s : σ) :
    Does p s (p.follow answer s).2 (p.follow answer s).1.1 (p.follow answer s).1.2 := by
  have hpath := Path.of_follow answer (p s)
  rw [Proc.follow]
  match hrun : (p s).follow answer with
  | (.ok x, log) => rwa [hrun] at hpath
  | (.error e, _) => exact e.elim

end Feed

end Interleave
