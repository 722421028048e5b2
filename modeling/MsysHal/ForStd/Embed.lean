import MsysHal.ForStd.Stateful

/-!
# Programs inside a larger system

The operations of one signature are embedded into those of another, and the memory of a
program is a part of a larger one. A program of the small system runs unchanged in the large
one: what it returns there, it returns from the same part of the memory by itself.

## Key results

- `does_within`: a run in the larger system is a run of the program
- `Does.unique_front`: a run is determined by the answers that it starts to take
-/

namespace Interleave

/-- The operations of `S` among those of `T`, and what an answer there says. -/
structure Embedding (S T : Sig) where
  op : S.Op → T.Op
  ret : (o : S.Op) → T.Ret (op o) → S.Ret o

variable {S T : Sig} {ε σ τ α : Type}

/-- A program over the larger signature. -/
def Prog.embed (E : Embedding S T) : Prog S ε α → Prog T ε α
  | .pure a => .pure a
  | .raise e => .raise e
  | .step o k => .step (E.op o) fun r => (k (E.ret o r)).embed E

/-- A program that has a part of the memory as its own. -/
def within (E : Embedding S T) (view : τ → σ) (update : σ → τ → τ) (p : Proc S σ α) : Proc T τ α :=
  fun t => ((p (view t)).embed E).bind fun x => .pure (x.1, update x.2 t)

/-- The answers of the larger system are answers for the program. -/
theorem Path.of_embed {E : Embedding S T} {p : Prog S ε α} {log : Log T} {x : Except ε α}
    (h : Path (p.embed E) log x) : ∃ log', Path p log' x := by
  induction p generalizing log with
  | pure a =>
    cases h
    exact ⟨[], .pure a⟩
  | raise e =>
    cases h
    exact ⟨[], .raise e⟩
  | step o k ih =>
    rw [Prog.embed] at h
    cases h with
    | step h =>
      obtain ⟨log', hpath⟩ := ih _ h
      exact ⟨_, .step hpath⟩

theorem does_within {E : Embedding S T} {view : τ → σ} {update : σ → τ → τ}
    {p : Proc S σ α} {t t' : τ}
    {log : Log T} {a : α} (h : Does (within E view update p) t log a t') :
    ∃ log' s', Does p (view t) log' a s' ∧ t' = update s' t := by
  have h : Path ((p (view t)).embed E >>= fun x => .pure (x.1, update x.2 t)) log (.ok (a, t')) := h
  rcases Path.of_bind h with ⟨e, -, -⟩ | ⟨⟨b, s'⟩, log₁, log₂, -, hembed, hend⟩
  · exact e.elim
  · obtain ⟨log', hpath⟩ := Path.of_embed hembed
    obtain ⟨-, heq⟩ := Path.of_pure hend
    cases heq
    exact ⟨log', s', hpath, rfl⟩

/-- What comes behind the answers of a run does not matter. -/
theorem Path.unique_front {p : Prog S ε α} {log log' rest rest' : Log S} {x y : Except ε α}
    (h : Path p log x)
    (h' : Path p log' y) (heq : log ++ rest = log' ++ rest') : log = log' ∧ x = y := by
  induction h generalizing log' with
  | pure a =>
    cases h'
    exact ⟨rfl, rfl⟩
  | raise e =>
    cases h'
    exact ⟨rfl, rfl⟩
  | step h ih =>
    cases h' with
    | step h' =>
      rw [List.cons_append, List.cons_append, List.cons.injEq] at heq
      obtain ⟨hanswer, heq⟩ := heq
      cases hanswer
      obtain ⟨rfl, rfl⟩ := ih h' heq
      exact ⟨rfl, rfl⟩

theorem Does.unique_front {p : Proc S σ α} {s s' s'' : σ} {log log' rest rest' : Log S} {a b : α}
    (h : Does p s log a s') (h' : Does p s log' b s'') (heq : log ++ rest = log' ++ rest') :
    log = log' ∧ a = b ∧ s' = s'' := by
  obtain ⟨hlog, hresult⟩ := Path.unique_front h h' heq
  rw [Except.ok.injEq, Prod.mk.injEq] at hresult
  exact ⟨hlog, hresult⟩

end Interleave
