import MsysHal.Spec.Journal

/-!
# Provider selection as a compare-and-swap

In every interleaving of requests and polls, a preference changes only in a
commit section. A commit that names a revision happens at that revision and
leaves the next one, so two commits never share one; each appends one event; and
the preferences are always the map that was last written to the selection file.

## Key results

- `Happens.commit`, `Happens.no_commit`: what a step does to the preferences
- `countP_commitsAt_le_one`: at most one commit against a revision, in every trace
- `selection_linearizable`: the compare-and-swap, over all interleavings
-/

namespace MsysHal

open Python (Value Runtime)
open Interleave (Pool Label Trace Issues requests)

/-! ## One step -/

/-- What a commit does. -/
theorem Happens.commit {e : ManagerEvent} (h : Happens e) {choice : Choice} {expected : Option Nat}
    (hc : committed e = some (choice, expected)) :
    (∀ r, expected = some r → e.before.revision = r) ∧
    e.before.selections.get? choice.domain ≠ choice.component ∧
    journaled e = some ((ManagerState.choiceNotice choice).entry (e.before.revision + 1)) ∧
    ∃ data, SelectionStore.encode (e.before.selections.apply choice) = .ok data ∧
      e.after = e.before.afterCommit choice data := by
  obtain ⟨tid, o, r, s, s'⟩ := e
  obtain ⟨i, h⟩ := h
  cases o <;> simp only [committed, reduceCtorEq] at hc
  case commitSelection choice' expected' =>
    simp only [managerMachine, managerExec, Option.some.injEq] at h
    rcases commitSelection_cases s choice' expected' i.saveError with
      ⟨err, he⟩ | he | ⟨err, he⟩ | ⟨data, hrev, hne, henc, he⟩ <;>
      rw [he, Prod.mk.injEq] at h <;> obtain ⟨rfl, rfl⟩ := h
    · cases hc
    · cases hc
    · cases hc
    · simp only [Option.some.injEq, Prod.mk.injEq] at hc
      obtain ⟨rfl, rfl⟩ := hc
      exact ⟨fun r hr => (hrev r hr).symm, hne, rfl, data, henc, rfl⟩

/-- What any other operation does to the preferences and their file: nothing. -/
theorem Happens.no_commit {e : ManagerEvent} (h : Happens e) (hc : committed e = none) :
    (∀ d, e.after.selections.get? d = e.before.selections.get? d) ∧
      e.after.file = e.before.file := by
  obtain ⟨tid, o, r, s, s'⟩ := e
  obtain ⟨i, h⟩ := h
  simp only [managerMachine] at h
  cases o <;> simp only [managerExec, Option.some.injEq, Prod.mk.injEq] at h
  case recordEvent notice =>
    simp only [ManagerState.appendEvent, Prod.mk.injEq] at h
    obtain ⟨rfl, rfl⟩ := h
    exact ⟨fun _ => rfl, rfl⟩
  case commitSelection choice expected =>
    rcases commitSelection_cases s choice expected i.saveError with
      ⟨e, he⟩ | he | ⟨e, he⟩ | ⟨data, _, _, _, he⟩ <;>
      rw [he, Prod.mk.injEq] at h <;> obtain ⟨rfl, rfl⟩ := h
    · exact ⟨fun _ => rfl, rfl⟩
    · exact ⟨fun _ => rfl, rfl⟩
    · exact ⟨fun d => Selections.get?_restore s.selections choice d, rfl⟩
    · cases hc
  case lockCatalog =>
    split at h
    · cases h
    · simp only [Option.some.injEq, Prod.mk.injEq] at h
      obtain ⟨_, rfl⟩ := h
      exact ⟨fun _ => rfl, rfl⟩
  case watch after timeoutMs deadline domains =>
    split at h
    · cases h
    · simp only [Option.some.injEq, Prod.mk.injEq] at h
      obtain ⟨_, rfl⟩ := h
      exact ⟨fun _ => rfl, rfl⟩
  case electActive d candidates =>
    obtain ⟨_, rfl⟩ := h
    exact ⟨(electActive_unchanged s d candidates).selections,
      (electActive_unchanged s d candidates).file⟩
  all_goals
    obtain ⟨_, rfl⟩ := h
    exact ⟨fun _ => rfl, rfl⟩

/-! ## At most one commit against a revision -/

/-- Whether an event commits a choice that was checked against a revision. -/
def commitsAt (r : Nat) (e : ManagerEvent) : Bool := (committed e).any (·.2 == some r)

theorem Happens.commitsAt {e : ManagerEvent} (h : Happens e) {r : Nat} (hc : commitsAt r e = true) :
    e.before.revision = r ∧ e.after.revision = r + 1 := by
  cases hcom : committed e with
  | none => rw [MsysHal.commitsAt, hcom] at hc; exact nomatch hc
  | some c =>
    obtain ⟨choice, expected⟩ := c
    rw [MsysHal.commitsAt, hcom, Option.any_some, beq_iff_eq] at hc
    obtain ⟨hrev, _, _, data, _, hafter⟩ := h.commit hcom
    refine ⟨hrev r hc, ?_⟩
    rw [hafter, ← hrev r hc]
    rfl

/-- After revision `r` no commit is checked against it. -/
private theorem countP_commitsAt_eq_zero {r : Nat} {s s' : ManagerState} {tr : List ManagerEvent}
    (h : Trace managerMachine s tr s') (hs : r < s.revision) : tr.countP (commitsAt r) = 0 := by
  induction tr generalizing s with
  | nil => rfl
  | cons e tr ih =>
    obtain ⟨rfl, he, htr⟩ := h
    have he : Happens e := he
    rw [List.countP_cons, ih htr (hs.trans_le he.revision_le), if_neg]
    intro hc
    exact absurd (he.commitsAt hc).1 (Nat.ne_of_gt hs)

/-- At most one commit of a trace is checked against revision `r`. -/
theorem countP_commitsAt_le_one (r : Nat) {s s' : ManagerState} {tr : List ManagerEvent}
    (h : Trace managerMachine s tr s') : tr.countP (commitsAt r) ≤ 1 := by
  induction tr generalizing s with
  | nil => exact Nat.zero_le 1
  | cons e tr ih =>
    obtain ⟨rfl, he, htr⟩ := h
    have he : Happens e := he
    rw [List.countP_cons]
    split
    · next hc =>
      rw [countP_commitsAt_eq_zero htr (by rw [(he.commitsAt hc).2]; exact Nat.lt_succ_self r)]
    · exact ih htr

/-! ## The map that was saved last -/

/-- The map a commit hands to `SelectionStore.save`. -/
def savedMap (e : ManagerEvent) : Option Selections :=
  (committed e).map fun c => e.before.selections.apply c.1

/-- The map saved last, or the one that was loaded. -/
def lastSaved (loaded : Selections) (tr : List ManagerEvent) : Selections :=
  tr.foldl (fun saved e => (savedMap e).getD saved) loaded

/-- The file holds the bytes of a map. -/
def Holds (s : ManagerState) (saved : Selections) : Prop :=
  ∃ data, SelectionStore.encode saved = .ok data ∧ s.file = some data

theorem Happens.savedMap {e : ManagerEvent} (h : Happens e) {saved : Selections}
    (hs : savedMap e = some saved) : e.after.selections = saved ∧ Holds e.after saved := by
  cases hc : committed e with
  | none => rw [MsysHal.savedMap, hc] at hs; exact nomatch hs
  | some c =>
    obtain ⟨choice, expected⟩ := c
    obtain ⟨_, _, _, data, henc, hafter⟩ := h.commit hc
    rw [MsysHal.savedMap, hc, Option.map_some, Option.some.injEq] at hs
    subst hs
    exact ⟨by rw [hafter]; rfl, data, henc, by rw [hafter]; rfl⟩

theorem Happens.savedMap_none {e : ManagerEvent} (h : Happens e) (hs : MsysHal.savedMap e = none) :
    (∀ d, e.after.selections.get? d = e.before.selections.get? d) ∧ e.after.file = e.before.file :=
  h.no_commit (Option.map_eq_none_iff.mp hs)

/-- The preferences are the map saved last, at the end of every trace. -/
theorem lastSaved_selections {s s' : ManagerState} {tr : List ManagerEvent} {saved : Selections}
    (h : ∀ d, s.selections.get? d = saved.get? d) (htr : Trace managerMachine s tr s') :
    ∀ d, s'.selections.get? d = (lastSaved saved tr).get? d := by
  induction tr generalizing s saved with
  | nil => exact htr ▸ h
  | cons e tr ih =>
    obtain ⟨rfl, he, htr⟩ := htr
    have he : Happens e := he
    rw [lastSaved, List.foldl_cons]
    refine ih (fun d => ?_) htr
    cases hs : savedMap e with
    | none => rw [Option.getD_none, (he.savedMap_none hs).1 d, h d]
    | some m => rw [Option.getD_some, (he.savedMap hs).1]

/-- Once a map has been saved, the file holds the bytes of the one saved last. -/
theorem lastSaved_holds {s s' : ManagerState} {tr : List ManagerEvent} {saved : Selections}
    (h : Holds s saved ∨ ∃ e ∈ tr, (committed e).isSome = true)
    (htr : Trace managerMachine s tr s') :
    Holds s' (lastSaved saved tr) := by
  induction tr generalizing s saved with
  | nil =>
    rcases h with h | ⟨e, he, _⟩
    · exact htr ▸ h
    · exact nomatch he
  | cons e tr ih =>
    obtain ⟨rfl, he, htr⟩ := htr
    have he : Happens e := he
    rw [lastSaved, List.foldl_cons]
    refine ih ?_ htr
    cases hs : savedMap e with
    | some m => exact .inl (he.savedMap hs).2
    | none =>
      rcases h with ⟨data, henc, hfile⟩ | ⟨e', he', hc⟩
      · exact .inl ⟨data, henc, (he.savedMap_none hs).2.trans hfile⟩
      · rcases List.mem_cons.mp he' with rfl | he'
        · rw [Option.map_eq_none_iff.mp hs] at hc
          exact nomatch hc
        · exact .inr ⟨e', he', hc⟩

/-! ## The compare-and-swap -/

/-- The events of a run are what the jobs of their threads may do: a commit is by
    a `select_provider` for this choice and this revision. -/
theorem committed_request {rt : Runtime} {s : ManagerState} {labels : List (Label Job Input)}
    {q : Pool managerSig ManagerState PyError Value} {tr : List ManagerEvent}
    (h : managerRun rt ⟨s, []⟩ labels = some (q, tr)) {e : ManagerEvent} (he : e ∈ tr)
    {choice : Choice} {expected : Option Nat} (hc : committed e = some (choice, expected)) :
    ∃ allow, (requests labels)[e.tid]? =
      some (.request (.selectProvider choice.domain choice.component expected allow)) := by
  obtain ⟨job, hjob, hop⟩ := Pool.run_issues managerMachine (Job.program rt)
    (program_issues_commit rt) h e he
  obtain ⟨tid, o, r, s, s'⟩ := e
  cases o <;> simp only [committed, reduceCtorEq] at hc
  case commitSelection choice' expected' =>
    rcases r with err | (_ | event)
    · exact nomatch hc
    · exact nomatch hc
    · simp only [Option.some.injEq, Prod.mk.injEq] at hc
      obtain ⟨rfl, rfl⟩ := hc
      obtain ⟨allow, rfl⟩ := hop choice' expected' rfl
      exact ⟨allow, hjob⟩

/-- In every interleaving of requests and polls: a commit is by a call for this
    choice and revision, at that revision, which it leaves one higher, with one
    new journal entry that carries the new revision; at most one call commits
    against a revision; the journal is the last `min revision 256` revisions in
    order; and the preferences are the map saved last. -/
theorem selection_linearizable (rt : Runtime) (file : Option ByteArray) (ttl : ℚ)
    (s₀ : ManagerState) (hinit : ManagerState.init rt file ttl = .ok s₀)
    (labels : List (Label Job Input)) (q : Pool managerSig ManagerState PyError Value)
    (tr : List ManagerEvent) (hrun : managerRun rt ⟨s₀, []⟩ labels = some (q, tr)) :
    (∀ e ∈ tr, ∀ choice expected, committed e = some (choice, expected) →
      (∃ allow, (requests labels)[e.tid]? =
        some (.request (.selectProvider choice.domain choice.component expected allow))) ∧
      (∀ r, expected = some r → e.before.revision = r ∧ e.after.revision = r + 1) ∧
      ∃ event, journaled e = some event ∧ event.revision = e.after.revision ∧
        e.after.revision = e.before.revision + 1 ∧
        e.after.journal = pushEvent e.before.journal event) ∧
    (∀ r, tr.countP (commitsAt r) ≤ 1) ∧
    q.shared.journal.map (·.revision) =
      List.range' (q.shared.revision - min q.shared.revision 256 + 1) (min q.shared.revision 256) ∧
    (∀ d, q.shared.selections.get? d = (lastSaved s₀.selections tr).get? d) ∧
    ((∃ e ∈ tr, (committed e).isSome = true) → Holds q.shared (lastSaved s₀.selections tr)) := by
  have htrace := Pool.run_trace _ _ hrun
  refine ⟨?_, fun r => countP_commitsAt_le_one r htrace, ?_,
    lastSaved_selections (fun _ => rfl) htrace, fun h => lastSaved_holds (.inr h) htrace⟩
  · intro e he choice expected hc
    have hhap : Happens e := Trace.happens _ htrace he
    obtain ⟨hrev, _, hj, data, _, hafter⟩ := hhap.commit hc
    have hjournal := hhap.journal
    rw [hj] at hjournal
    refine ⟨committed_request hrun he hc, fun r hr => ⟨hrev r hr, ?_⟩, _, hj, ?_⟩
    · rw [hjournal.2.1, hrev r hr]
    · exact ⟨hjournal.1.trans hjournal.2.1.symm, hjournal.2.1, hjournal.2.2⟩
  · have hcons := ((Recorded.init hinit).trace htrace).consecutive
    simpa only [journalLimit] using hcons

namespace Sample

/-- A client selects a component for the domain `power` against a revision. -/
def select (component : String) (expected : Option Nat) : Job :=
  .request (.selectProvider "power" (some component) expected false)

/-- The environment of such a request: discovery and description of the
    component, and its inventory. -/
def selectInputs (component : String) : List Input :=
  let quiet : Input := {}
  let answer (reply : Reply) : Input := { reply := reply }
  [quiet, quiet, quiet, answer (discovery [component]), answer (description component ["power"]),
    quiet, quiet, quiet, quiet,
    answer (inventory component "power" [device "power:main" "power" []]),
    quiet, quiet, quiet, quiet, quiet, quiet, quiet, quiet]

/-- The same while two components serve the domain. -/
def raceInputs (component : String) : List Input :=
  let quiet : Input := {}
  let answer (reply : Reply) : Input := { reply := reply }
  [quiet, quiet, quiet, answer (discovery ["a.b:c", "d.e:f"]),
    answer (description "a.b:c" ["power"]), answer (description "d.e:f" ["power"]), quiet, quiet,
    quiet, quiet, answer (inventory component "power" [device "power:main" "power" []]), quiet,
    quiet, quiet]

/-- Two clients select different components against revision 0. Each has checked the
    revision and asked its component when the first commits, and then the second. -/
def race : List (Label Job Input) :=
  let steps (tid : Nat) (inputs : List Input) : List (Label Job Input) := inputs.map (.step tid)
  [.spawn (select "a.b:c" (some 0)), .spawn (select "d.e:f" (some 0))] ++
    steps 0 ((raceInputs "a.b:c").take 13) ++ steps 1 ((raceInputs "d.e:f").take 13) ++
    steps 0 ((raceInputs "a.b:c").drop 13) ++ steps 1 ((raceInputs "d.e:f").drop 13)

/-- A test for an attempt to commit a preference. -/
def isCommitSelection : ManagerOp → Bool
  | .commitSelection _ _ => true
  | _ => false

end Sample

/-- Two clients race for a commit at revision 0: both attempt it, and one of them does. -/
theorem selection_linearizable_race : ∃ q tr,
    managerRun Runtime.sample ⟨Sample.start, []⟩ Sample.race = some (q, tr) ∧
    (tr.filter fun e => Sample.isCommitSelection e.op).map (·.tid) = [0, 1] ∧
    1 ≤ tr.countP (commitsAt 0) ∧ tr.countP (commitsAt 0) ≤ 1 := by
  have heval : (managerRun Runtime.sample ⟨Sample.start, []⟩ Sample.race).any (fun r =>
      (r.2.filter fun e => Sample.isCommitSelection e.op).map (·.tid) == [0, 1] &&
        r.2.countP (commitsAt 0) == 1) = true := by
    decide +kernel
  obtain ⟨⟨q, tr⟩, hrun, htest⟩ := (Option.any_eq_true _ _).mp heval
  rw [Bool.and_eq_true, beq_iff_eq, beq_iff_eq] at htest
  refine ⟨q, tr, hrun, htest.1, htest.2.ge, ?_⟩
  exact (selection_linearizable Runtime.sample none 30 Sample.start Sample.init_start _ _ tr
    hrun).2.1 0

end MsysHal
