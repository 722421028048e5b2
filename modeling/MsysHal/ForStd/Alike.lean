import MsysHal.ForStd.Stateful

/-!
# Programs that differ in a secret

Two programs are alike when they issue the same operations, but for a secret that some of
them carry, and go on alike with every answer. In an environment that is blind to the
secret they cannot be told apart: they return the same, leave it in the same state, and so
does whatever comes after them.

## Key results

- `Alike.bind`, `Alike.attempt`: programs that are built alike
- `Alike.run`: two runs in a blind environment
-/

namespace Interleave

/-- Which operation may stand in for which, and what an answer to the one is as an answer to
    the other. -/
abbrev Disguise (S : Sig) := (o o' : S.Op) → (S.Ret o → S.Ret o') → Prop

/-- The programs issue the same operations, but for what the disguise hides. -/
inductive Alike {S : Sig} {ε α : Type} (D : Disguise S) : Prog S ε α → Prog S ε α → Prop where
  | pure (a : α) : Alike D (.pure a) (.pure a)
  | raise (e : ε) : Alike D (.raise e) (.raise e)
  | same {o : S.Op} {k k' : S.Ret o → Prog S ε α} (hk : ∀ r, Alike D (k r) (k' r)) :
    Alike D (.step o k) (.step o k')
  | hidden {o o' : S.Op} {f : S.Ret o → S.Ret o'} {k : S.Ret o → Prog S ε α}
    {k' : S.Ret o' → Prog S ε α} (ho : D o o' f) (hk : ∀ r, Alike D (k r) (k' (f r))) :
    Alike D (.step o k) (.step o' k')

/-- The environment answers, and changes, in the same way for an operation and for what may
    stand in for it. -/
def Machine.Blind {S : Sig} {σ ι : Type} (M : Machine S σ ι) (D : Disguise S) : Prop :=
  ∀ {o o'} {f : S.Ret o → S.Ret o'}, D o o' f → ∀ i s,
    M.exec o' i s = (M.exec o i s).map fun x => (f x.1, x.2)

namespace Alike

variable {S : Sig} {ε α β : Type} {D : Disguise S}

theorem refl (p : Prog S ε α) : Alike D p p := by
  induction p with
  | pure a => exact .pure a
  | raise e => exact .raise e
  | step o k ih => exact .same ih

theorem bind {p p' : Prog S ε α} {f f' : α → Prog S ε β} (h : Alike D p p')
    (hf : ∀ a, Alike D (f a) (f' a)) : Alike D (p >>= f) (p' >>= f') := by
  induction h with
  | pure a => exact hf a
  | raise e => exact .raise e
  | same _ ih => exact .same ih
  | hidden ho _ ih => exact .hidden ho ih

theorem attempt {p p' : Prog S ε α} (h : Alike D p p') : Alike D p.attempt p'.attempt := by
  induction h with
  | pure a => exact .pure _
  | raise e => exact .pure _
  | same _ ih => exact .same ih
  | hidden ho _ ih => exact .hidden ho ih

/-- In a blind environment the two runs end in the same way. -/
theorem run {σ ι : Type} {M : Machine S σ ι} (hM : M.Blind D) {p p' : Prog S ε α} (h : Alike D p p')
    (ω : Nat → ι) (s : σ) : p'.run M ω s = p.run M ω s := by
  induction h generalizing ω s with
  | pure a => rfl
  | raise e => rfl
  | @same o k k' _ ih =>
    rw [Prog.run, Prog.run]
    cases M.exec o (ω 0) s with
    | none => rfl
    | some x => exact ih x.1 _ _
  | @hidden o o' g k k' ho _ ih =>
    rw [Prog.run, Prog.run, hM ho]
    cases M.exec o (ω 0) s with
    | none => rfl
    | some x => exact ih x.1 _ _

end Alike

/-- The same of programs with a memory. -/
def AlikeProc {S : Sig} {σ α : Type} (D : Disguise S) (p p' : Proc S σ α) : Prop :=
  ∀ s, Alike D (p s) (p' s)

namespace AlikeProc

variable {S : Sig} {σ α β : Type} {D : Disguise S}

theorem refl (p : Proc S σ α) : AlikeProc D p p := fun s => .refl (p s)

theorem bind {p p' : Proc S σ α} {f f' : α → Proc S σ β} (h : AlikeProc D p p')
    (hf : ∀ a, AlikeProc D (f a) (f' a)) : AlikeProc D (p >>= f) (p' >>= f') :=
  fun s => (h s).bind fun x => hf x.1 x.2

theorem ask_bind {o o' : S.Op} {g : S.Ret o → S.Ret o'} {f : S.Ret o → Proc S σ β}
    {f' : S.Ret o' → Proc S σ β} (ho : D o o' g) (hf : ∀ r, AlikeProc D (f r) (f' (g r))) :
    AlikeProc D (Interleave.ask o >>= f) (Interleave.ask o' >>= f') :=
  fun s => .hidden ho fun r => hf r s

end AlikeProc

end Interleave
