import Mathlib.Data.List.Induction

/-!
# Traces

What holds of every event of a trace and of what comes before it, the last event of a
kind, and traces in which one event forbids another: between an event that starts
something and one that stops it, there may be no event of a third kind.

## Key results

- `Each.concat`, `Each.at`: one more event, and what holds of an event
- `latest_concat`: the last event of a kind after one more event
- `Never.exists_stop`: a forbidden event after a start is preceded by a stop
-/

namespace List

variable {α β : Type}

/-! ### Every event -/

/-- Every event of the trace is as it should be after what comes before it. -/
def Each (P : List α → α → Prop) (trace : List α) : Prop :=
  ∀ before x, before ++ [x] <+: trace → P before x

theorem Each.nil {P : List α → α → Prop} : Each P [] := by
  intro before x h
  simp at h

theorem Each.concat {P : List α → α → Prop} {trace : List α} {x : α} (h : Each P trace)
    (hx : P trace x) : Each P (trace ++ [x]) := by
  intro before y hbefore
  rcases prefix_concat_iff.mp hbefore with heq | hbefore
  · obtain ⟨rfl, hyx⟩ := append_inj' heq rfl
    cases hyx
    exact hx
  · exact h before y hbefore

theorem Each.at {P : List α → α → Prop} {trace before after : List α} {x : α} (h : Each P trace)
    (htrace : trace = before ++ x :: after) : P before x :=
  h before x ⟨after, by rw [htrace, append_assoc]; rfl⟩

/-! ### The last event of a kind -/

/-- What the last event of a kind says. -/
def latest (f : α → Option β) (trace : List α) : Option β := (trace.filterMap f).getLast?

theorem latest_concat (f : α → Option β) (trace : List α) (x : α) :
    latest f (trace ++ [x]) = (f x).or (latest f trace) := by
  rw [latest, latest, filterMap_append, getLast?_append]
  cases h : f x with
  | none => rw [filterMap_cons_none h]; rfl
  | some y => rw [filterMap_cons_some h]; rfl

/-! ### Starts and stops -/

/-- Whether something was started and not stopped since. -/
def since (start stop : α → Bool) (trace : List α) : Bool :=
  trace.foldl (fun on x => start x || on && !stop x) false

variable {start stop bad : α → Bool}

@[simp] theorem since_nil : since start stop ([] : List α) = false := rfl

theorem since_concat (trace : List α) (x : α) :
    since start stop (trace ++ [x]) = (start x || since start stop trace && !stop x) := by
  rw [since, foldl_append]
  rfl

theorem since_of_start {x : α} (hx : start x = true) (before : List α) {middle : List α}
    (h : ∀ z ∈ middle, stop z = false) : since start stop (before ++ x :: middle) = true := by
  induction middle using reverseRecOn with
  | nil => rw [since_concat, hx, Bool.true_or]
  | append_singleton middle z ih =>
    rw [← cons_append, ← append_assoc, since_concat, ih fun z hz => h z (mem_append_left _ hz),
      h z (mem_append_right _ (mem_singleton_self z))]
    exact Bool.or_true _

/-- No bad event of the trace comes after a start without a stop. -/
def Never (start stop bad : α → Bool) (trace : List α) : Prop :=
  Each (fun before x => bad x = true → since start stop before = false) trace

/-- Between a start and a bad event there is a stop. -/
theorem Never.exists_stop {trace before middle after : List α} {x y : α}
    (h : Never start stop bad trace) (htrace : trace = before ++ x :: (middle ++ y :: after))
    (hx : start x = true) (hy : bad y = true) : ∃ z ∈ middle, stop z = true := by
  by_contra hnone
  have hsince := since_of_start hx before fun z hz => by
    rw [← Bool.not_eq_true]
    exact fun hz' => hnone ⟨z, hz, hz'⟩
  have hsplit : trace = (before ++ x :: middle) ++ y :: after := by
    rw [htrace, append_assoc, cons_append]
  have hfalse := Each.at h hsplit hy
  rw [hsince] at hfalse
  exact nomatch hfalse

end List
