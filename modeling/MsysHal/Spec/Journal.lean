import MsysHal.Spec.ManagerOps

/-!
# The journal and the watch

The revision counts the events a manager has recorded, and its journal holds the
last 256 of them. A chain of watch calls, each after the revision the one before
it returned, therefore partitions the events into the intervals between two
responses; what a response leaves out of its interval is lost.

## Key results

- `commitSelection_cases`: the outcomes of the commit section
- `Recorded.trace`: the journal is the end of the recorded history, in every trace
- `Recorded.pending`: what a watch without resync finds is all that was recorded
- `watch_chain_complete`: when a chain of watch calls delivers every event once
-/

namespace MsysHal

open Python (Value Runtime)
open Interleave (Pool Label Trace)

/-! ## The commit section -/

namespace Selections

theorem get?_set (selections : Selections) (domain component : String)
    (hd : matchesDomain domain = true) (hc : matchesComponent component = true) (d : String) :
    (selections.set domain component hd hc).get? d =
      if d = domain then some component else selections.get? d :=
  Dict.get?_set selections.map domain component d

theorem get?_erase (selections : Selections) (domain d : String) :
    (selections.erase domain).get? d = if d = domain then none else selections.get? d :=
  Dict.get?_erase selections.map domain d

theorem get?_apply (selections : Selections) (choice : Choice) (d : String) :
    (selections.apply choice).get? d =
      if d = choice.domain then choice.component else selections.get? d := by
  rw [apply]
  split
  · next h => rw [get?_erase, h]
  · next c h => rw [get?_set, h]

/-- The rollback gives every domain its old preference back. -/
theorem get?_restore (selections : Selections) (choice : Choice) (d : String) :
    (selections.restore (selections.apply choice) choice.domain).get? d = selections.get? d := by
  rw [restore]
  split
  · next h =>
    rw [get?_erase, get?_apply]
    split
    · next heq => rw [heq, h]
    · rfl
  · next old h =>
    rw [get?_set, get?_apply]
    split
    · next heq => rw [heq, h]
    · rfl

end Selections

/-- The state a successful commit leaves. -/
def ManagerState.afterCommit (s : ManagerState) (choice : Choice) (data : ByteArray) :
    ManagerState :=
  { s with
    selections := s.selections.apply choice
    file := some data
    deviceRoutes := s.deviceRoutes.filter fun id _ => domainOf id != choice.domain
    activeProviders := s.activeProviders.erase choice.domain
    revision := s.revision + 1
    journal := pushEvent s.journal ((ManagerState.choiceNotice choice).entry (s.revision + 1)) }

theorem checkRevision_ok {s : ManagerState} {expected : Option Nat}
    (h : s.checkRevision expected = .ok ()) (r : Nat) (hr : expected = some r) :
    r = s.revision := by
  subst hr
  simp only [ManagerState.checkRevision] at h
  split at h
  · next heq => exact heq
  · exact nomatch h

/-- The outcomes of the commit section: refused, already in force, not saved and
    rolled back, or committed. -/
theorem commitSelection_cases (s : ManagerState) (choice : Choice) (expected : Option Nat)
    (saveError : Option String) :
    (∃ e, s.commitSelection choice expected saveError = (.error e, s)) ∨
    (s.commitSelection choice expected saveError = (.ok none, s)) ∨
    (∃ e, s.commitSelection choice expected saveError =
      (.error e, { s with
        selections := s.selections.restore (s.selections.apply choice) choice.domain })) ∨
    (∃ data, (∀ r, expected = some r → r = s.revision) ∧
      s.selections.get? choice.domain ≠ choice.component ∧
      SelectionStore.encode (s.selections.apply choice) = .ok data ∧
      s.commitSelection choice expected saveError =
        (.ok (some ((ManagerState.choiceNotice choice).entry (s.revision + 1))),
          s.afterCommit choice data)) := by
  cases hcheck : s.checkRevision expected with
  | error e => exact .inl ⟨e, by simp only [ManagerState.commitSelection, hcheck]⟩
  | ok u =>
    by_cases hsame : s.selections.get? choice.domain = choice.component
    · exact .inr (.inl (by simp only [ManagerState.commitSelection, hcheck, hsame, if_true]))
    · cases hsave : ManagerState.saveOutcome (s.selections.apply choice) saveError with
      | error cause =>
        exact .inr (.inr (.inl ⟨_, by
          simp only [ManagerState.commitSelection, hcheck, hsame, if_false, hsave]; rfl⟩))
      | ok data =>
        refine .inr (.inr (.inr ⟨data, checkRevision_ok hcheck, hsame, ?_, by
          simp only [ManagerState.commitSelection, hcheck, hsame, if_false, hsave]; rfl⟩))
        simp only [ManagerState.saveOutcome] at hsave
        split at hsave
        · exact nomatch hsave
        · next encoded henc =>
          split at hsave
          · exact nomatch hsave
          · rw [Except.ok.injEq] at hsave
            exact hsave ▸ henc

/-! ## Events of a run -/

/-- The journal entry an operation appends. -/
def journaled : ManagerEvent → Option JournalEvent
  | ⟨_, .recordEvent _, event, _, _⟩ => some event
  | ⟨_, .commitSelection _ _, .ok event, _, _⟩ => event
  | _ => none

/-- The choice an operation commits and the revision it was checked against. -/
def committed : ManagerEvent → Option (Choice × Option Nat)
  | ⟨_, .commitSelection choice expected, .ok (some _), _, _⟩ => some (choice, expected)
  | _ => none

/-- The request and the result of a watch. -/
def watched : ManagerEvent → Option (Nat × List String × WatchResult)
  | ⟨_, .watch after _ _ domains, result, _, _⟩ => some (after, domains, result)
  | _ => none

/-- An event happens as the machine says. -/
def Happens (e : ManagerEvent) : Prop :=
  ∃ i, managerMachine.exec e.op i e.before = some (e.ret, e.after)

/-- An operation appends its entry with the next revision, or leaves the journal
    and the revision as they are. -/
theorem Happens.journal {e : ManagerEvent} (h : Happens e) :
    match journaled e with
    | none => e.after.revision = e.before.revision ∧ e.after.journal = e.before.journal
    | some event => event.revision = e.before.revision + 1 ∧
        e.after.revision = e.before.revision + 1 ∧
        e.after.journal = pushEvent e.before.journal event := by
  obtain ⟨tid, o, r, s, s'⟩ := e
  obtain ⟨i, h⟩ := h
  simp only [managerMachine] at h
  cases o <;> simp only [managerExec, Option.some.injEq, Prod.mk.injEq] at h
  -- An event is appended, and the revision is its own.
  case recordEvent notice =>
    simp only [ManagerState.appendEvent, Prod.mk.injEq] at h
    obtain ⟨rfl, rfl⟩ := h
    exact ⟨rfl, rfl, rfl⟩
  -- Only a choice that was saved is an event.
  case commitSelection choice expected =>
    rcases commitSelection_cases s choice expected i.saveError with
      ⟨e, he⟩ | he | ⟨e, he⟩ | ⟨data, _, _, _, he⟩ <;>
      rw [he, Prod.mk.injEq] at h <;> obtain ⟨rfl, rfl⟩ := h
    · exact ⟨rfl, rfl⟩
    · exact ⟨rfl, rfl⟩
    · exact ⟨rfl, rfl⟩
    · exact ⟨rfl, rfl, rfl⟩
  case lockCatalog =>
    split at h
    · cases h
    · simp only [Option.some.injEq, Prod.mk.injEq] at h
      obtain ⟨_, rfl⟩ := h
      exact ⟨rfl, rfl⟩
  case watch after timeoutMs deadline domains =>
    split at h
    · cases h
    · simp only [Option.some.injEq, Prod.mk.injEq] at h
      obtain ⟨_, rfl⟩ := h
      exact ⟨rfl, rfl⟩
  case electActive d candidates =>
    obtain ⟨_, rfl⟩ := h
    exact ⟨(electActive_unchanged s d candidates).revision,
      (electActive_unchanged s d candidates).journal⟩
  -- All other operations leave the journal as it is.
  all_goals
    obtain ⟨_, rfl⟩ := h
    exact ⟨rfl, rfl⟩

/-! ## The history behind the journal -/

/-- The events a trace records, oldest first. -/
def recordedBy (tr : List ManagerEvent) : List JournalEvent := tr.filterMap journaled

theorem recordedBy_cons (e : ManagerEvent) (tr : List ManagerEvent) :
    recordedBy (e :: tr) = (journaled e).toList ++ recordedBy tr := by
  cases h : journaled e with
  | none => exact List.filterMap_cons_none h
  | some event => exact List.filterMap_cons_some h

theorem recordedBy_append (tr tr' : List ManagerEvent) :
    recordedBy (tr ++ tr') = recordedBy tr ++ recordedBy tr' := List.filterMap_append

/-- The events recorded so far are numbered from one, the last number is the
    revision, and the journal is the end of them. -/
structure Recorded (s : ManagerState) (history : List JournalEvent) : Prop where
  revisions : history.map (·.revision) = List.range' 1 s.revision
  journal : s.journal = history.drop (history.length - journalLimit)

namespace Recorded

theorem init {rt : Runtime} {file : Option ByteArray} {ttl : ℚ} {s : ManagerState}
    (h : ManagerState.init rt file ttl = .ok s) : Recorded s [] := by
  simp only [ManagerState.init, bind, Except.bind] at h
  split at h
  · cases h
  · simp only [pure, Except.pure, Except.ok.injEq] at h
    subst h
    exact ⟨rfl, List.drop_nil.symm⟩

theorem length {s : ManagerState} {history : List JournalEvent} (h : Recorded s history) :
    history.length = s.revision := by
  simpa only [List.length_map, List.length_range'] using congrArg List.length h.revisions

/-- An event of the history stands at its revision. -/
theorem getElem? {s : ManagerState} {history : List JournalEvent} (h : Recorded s history)
    {n : Nat} {event : JournalEvent} (hn : history[n]? = some event) : event.revision = n + 1 := by
  have hlt : n < history.length := (List.getElem?_eq_some_iff.mp hn).1
  have hmap : (history.map (·.revision))[n]? = some event.revision := by
    rw [List.getElem?_map, hn]; rfl
  rw [h.revisions, List.getElem?_range' (by rw [← h.length]; exact hlt), Option.some.injEq] at hmap
  omega

private theorem pushEvent_drop (history : List JournalEvent) (event : JournalEvent) :
    pushEvent (history.drop (history.length - journalLimit)) event =
      (history ++ [event]).drop ((history ++ [event]).length - journalLimit) := by
  have hdrop : history.drop (history.length - journalLimit) ++ [event] =
      (history ++ [event]).drop (history.length - journalLimit) := by
    rw [List.drop_append_of_le_length (Nat.sub_le _ _)]
  rw [pushEvent, hdrop, List.drop_drop]
  congr 1
  simp only [List.length_drop, List.length_append, List.length_singleton, journalLimit]
  omega

/-- One operation. -/
theorem step {e : ManagerEvent} {history : List JournalEvent} (h : Recorded e.before history)
    (he : Happens e) : Recorded e.after (history ++ (journaled e).toList) := by
  have hj := he.journal
  cases hev : journaled e with
  | none =>
    rw [hev] at hj
    rw [Option.toList_none, List.append_nil]
    exact ⟨hj.1 ▸ h.revisions, hj.2.trans h.journal⟩
  | some event =>
    rw [hev] at hj
    obtain ⟨hrev, hrev', hjournal⟩ := hj
    rw [Option.toList_some]
    constructor
    · rw [List.map_append, h.revisions, hrev', List.range'_concat, List.map_singleton, hrev]
      congr 2
      omega
    · rw [hjournal, h.journal, pushEvent_drop]

/-- The journal is the end of the recorded history at the end of every trace. -/
theorem trace {s s' : ManagerState} {tr : List ManagerEvent} {history : List JournalEvent}
    (h : Recorded s history) (htr : Trace managerMachine s tr s') :
    Recorded s' (history ++ recordedBy tr) := by
  induction tr generalizing s history with
  | nil =>
    rw [recordedBy, List.filterMap_nil, List.append_nil]
    exact htr ▸ h
  | cons e tr ih =>
    obtain ⟨rfl, he, htr⟩ := htr
    rw [recordedBy_cons, ← List.append_assoc]
    exact ih (h.step he) htr

/-- The journal is the last `min revision 256` revisions in consecutive order. -/
theorem consecutive {s : ManagerState} {history : List JournalEvent} (h : Recorded s history) :
    s.journal.map (·.revision) =
      List.range' (s.revision - min s.revision journalLimit + 1) (min s.revision journalLimit) := by
  rw [h.journal, List.map_drop, h.revisions, List.drop_range', h.length]
  congr 1
  · simp only [journalLimit]; omega
  · simp only [journalLimit]; omega

end Recorded

/-! ## Watch calls -/

theorem Happens.watch {e : ManagerEvent} (h : Happens e) {after : Nat} {domains : List String}
    {result : WatchResult} (hw : watched e = some (after, domains, result)) :
    result = e.before.watchResult after domains ∧ e.after = e.before := by
  obtain ⟨tid, o, r, s, s'⟩ := e
  obtain ⟨i, h⟩ := h
  cases o <;> simp only [watched, reduceCtorEq] at hw
  case watch after' timeoutMs deadline domains' =>
    simp only [Option.some.injEq, Prod.mk.injEq] at hw
    obtain ⟨rfl, rfl, rfl⟩ := hw
    simp only [managerMachine, managerExec] at h
    split at h
    · cases h
    · simp only [Option.some.injEq, Prod.mk.injEq] at h
      exact ⟨h.1.symm, h.2.symm⟩

namespace Recorded

variable {s : ManagerState} {history : List JournalEvent}

/-- Revisions tell the events of a history apart. -/
theorem inj (h : Recorded s history) {x y : JournalEvent} (hx : x ∈ history) (hy : y ∈ history)
    (heq : x.revision = y.revision) : x = y := by
  obtain ⟨m, hm⟩ := List.mem_iff_getElem?.mp hx
  obtain ⟨n, hn⟩ := List.mem_iff_getElem?.mp hy
  have hm' := h.getElem? hm
  have hn' := h.getElem? hn
  have hmn : m = n := by omega
  subst hmn
  rw [hm, Option.some.injEq] at hn
  exact hn

theorem nodup (h : Recorded s history) : history.Nodup := by
  refine List.Nodup.of_map (·.revision) ?_
  rw [h.revisions]
  exact List.nodup_range'

theorem revision_pos (h : Recorded s history) {x : JournalEvent} (hx : x ∈ history) :
    0 < x.revision ∧ x.revision ≤ s.revision := by
  have hmem : x.revision ∈ history.map (·.revision) := List.mem_map_of_mem hx
  rw [h.revisions, List.mem_range'_1] at hmem
  omega

/-- The journal holds the events above `revision - 256`. -/
theorem mem_journal (h : Recorded s history) {x : JournalEvent} :
    x ∈ s.journal ↔ x ∈ history ∧ s.revision < x.revision + journalLimit := by
  rw [h.journal, h.length]
  constructor
  · intro hx
    obtain ⟨n, hn⟩ := List.mem_iff_getElem?.mp hx
    rw [List.getElem?_drop] at hn
    have hrev := h.getElem? hn
    exact ⟨List.mem_of_mem_drop hx, by omega⟩
  · rintro ⟨hx, hlt⟩
    obtain ⟨n, hn⟩ := List.mem_iff_getElem?.mp hx
    have hrev := h.getElem? hn
    refine List.mem_iff_getElem?.mpr ⟨n - (s.revision - journalLimit), ?_⟩
    rw [List.getElem?_drop, ← hn]
    congr 1
    omega

/-- Without resync every event after the revision is still in the journal. -/
theorem kept (h : Recorded s history) {after : Nat} (hsync : s.needsResync after = false)
    {x : JournalEvent} (hx : x ∈ history) (hafter : after < x.revision) : x ∈ s.journal := by
  refine h.mem_journal.mpr ⟨hx, ?_⟩
  have hpos := h.revision_pos hx
  have hcons := h.consecutive
  simp only [ManagerState.needsResync, decide_eq_false_iff_not, not_lt] at hsync
  cases hj : s.journal with
  | nil =>
    rw [hj] at hsync hcons
    simp only at hsync
    omega
  | cons first rest =>
    rw [hj] at hsync hcons
    simp only at hsync
    cases hmin : min s.revision journalLimit with
    | zero =>
      rw [hmin] at hcons
      exact nomatch hcons
    | succ n =>
      rw [hmin, List.range'_succ, List.map_cons, List.cons.injEq] at hcons
      have hfirst := hcons.1
      omega

/-- What a watch without resync finds is all that was recorded after its revision
    and passes its filter. -/
theorem mem_pending (h : Recorded s history) {after : Nat} (hsync : s.needsResync after = false)
    (domains : List String) (x : JournalEvent) :
    x ∈ s.pending after domains ↔
      x ∈ history ∧ after < x.revision ∧ ManagerState.passes domains x = true := by
  simp only [ManagerState.pending, List.mem_filter, Bool.and_eq_true, decide_eq_true_eq, gt_iff_lt]
  constructor
  · rintro ⟨hx, hafter, hpass⟩
    exact ⟨(h.mem_journal.mp hx).1, hafter, hpass⟩
  · rintro ⟨hx, hafter, hpass⟩
    exact ⟨h.kept hsync hx hafter, hafter, hpass⟩

theorem pending_nodup (h : Recorded s history) (after : Nat) (domains : List String) :
    (s.pending after domains).Nodup := by
  rw [ManagerState.pending, h.journal]
  exact (h.nodup.sublist (List.drop_sublist _ _)).filter _

end Recorded

/-! ## Chains of watch calls -/

/-- The watch calls of one client in a trace: each asks for what came after the
    revision the one before it returned, with the same filter. Any other
    operations may happen in between. -/
inductive WatchChain (domains : List String) :
    Nat → List ManagerEvent → List ManagerEvent → Prop where
  | done (after : Nat) (tr : List ManagerEvent) : WatchChain domains after tr []
  | skip {after : Nat} {tr calls : List ManagerEvent} (e : ManagerEvent)
    (h : WatchChain domains after tr calls) : WatchChain domains after (e :: tr) calls
  | call {after : Nat} {tr calls : List ManagerEvent} {e : ManagerEvent} {result : WatchResult}
    (hw : watched e = some (after, domains, result))
    (h : WatchChain domains result.revision tr calls) :
    WatchChain domains after (e :: tr) (e :: calls)

theorem WatchChain.skips {domains : List String} {after : Nat} {tr calls : List ManagerEvent}
    (pre : List ManagerEvent) (h : WatchChain domains after tr calls) :
    WatchChain domains after (pre ++ tr) calls := by
  induction pre with
  | nil => exact h
  | cons e pre ih => exact .skip e ih

/-- Whether a watch call answered with `resync`. -/
def resynced (e : ManagerEvent) : Bool := (watched e).any (·.2.2.resync)

/-- Whether the answer of a watch call contains an event. -/
def delivers (event : JournalEvent) (e : ManagerEvent) : Bool :=
  (watched e).any (·.2.2.events.contains event)

/-- The events that were pending for a watch call when it was answered. -/
def pendingAt (e : ManagerEvent) : List JournalEvent :=
  match watched e with
  | some (after, domains, _) => e.before.pending after domains
  | none => []

/-- The revision a chain of calls has reached. -/
def reachedRevision (after : Nat) : List ManagerEvent → Nat
  | [] => after
  | e :: calls => reachedRevision (((watched e).map (·.2.2.revision)).getD after) calls

theorem Happens.revision_le {e : ManagerEvent} (h : Happens e) :
    e.before.revision ≤ e.after.revision := by
  have hj := h.journal
  split at hj
  · exact hj.1.ge
  · omega

/-- An event at or before the start of a chain is in none of its answers. -/
theorem WatchChain.countP_delivers_eq_zero {domains : List String} {after : Nat}
    {tr calls : List ManagerEvent} (h : WatchChain domains after tr calls) {s s' : ManagerState}
    (htr : Trace managerMachine s tr s') (hs : after ≤ s.revision) {x : JournalEvent}
    (hx : x.revision ≤ after) : calls.countP (delivers x) = 0 := by
  induction h generalizing s with
  | done => rfl
  | skip e _ ih =>
    obtain ⟨rfl, he, htr⟩ := htr
    exact ih htr (hs.trans (Happens.revision_le he)) hx
  | @call after tr calls e result hw _ ih =>
    obtain ⟨rfl, he, htr⟩ := htr
    obtain ⟨rfl, hafter⟩ := Happens.watch he hw
    have hx' : x ∉ ((e.before.pending after domains).take 128) := by
      intro hmem
      have := List.mem_of_mem_take hmem
      simp only [ManagerState.pending, List.mem_filter, Bool.and_eq_true, decide_eq_true_eq] at this
      omega
    rw [List.countP_cons, ih (hafter ▸ htr) le_rfl (hx.trans hs), if_neg]
    simp only [delivers, hw, Option.any_some, ManagerState.watchResult, List.contains_iff_mem]
    exact hx'

/-- One call without resync delivers all the events of its interval exactly when
    at most 128 were pending. -/
theorem delivers_all_iff {e : ManagerEvent} (he : Happens e) {after : Nat}
    {domains : List String} {result : WatchResult} (hw : watched e = some (after, domains, result))
    {history later : List JournalEvent} (hrec : Recorded e.before history) {s' : ManagerState}
    (hrec' : Recorded s' (history ++ later)) (hsync : resynced e = false) :
    (∀ x ∈ history ++ later, ManagerState.passes domains x = true → after < x.revision →
      x.revision ≤ e.before.revision → delivers x e = true) ↔ (pendingAt e).length ≤ 128 := by
  obtain ⟨rfl, -⟩ := he.watch hw
  have hsync' : e.before.needsResync after = false := by
    simpa only [resynced, hw, Option.any_some, ManagerState.watchResult] using hsync
  have hdel : ∀ x, delivers x e = true ↔ x ∈ (pendingAt e).take 128 := by
    intro x
    simp only [delivers, hw, Option.any_some, ManagerState.watchResult, List.contains_iff_mem,
      pendingAt]
  have hpend : ∀ x, x ∈ pendingAt e ↔ x ∈ history ∧ after < x.revision ∧
      ManagerState.passes domains x = true := by
    intro x
    simp only [pendingAt, hw]
    exact hrec.mem_pending hsync' domains x
  constructor
  · intro hall
    by_contra hlong
    -- the pending event at place 128 is left out
    have hlt : 128 < (pendingAt e).length := not_le.mp hlong
    have hmem : (pendingAt e)[128] ∈ pendingAt e := List.getElem_mem hlt
    obtain ⟨hhist, hafter, hpass⟩ := (hpend _).mp hmem
    have htake := (hdel _).mp (hall _ (List.mem_append_left _ hhist) hpass hafter
      (hrec.revision_pos hhist).2)
    obtain ⟨n, hn, heq⟩ := List.getElem_of_mem htake
    rw [List.getElem_take] at heq
    rw [List.length_take] at hn
    have hnodup : (pendingAt e).Nodup := by
      simp only [pendingAt, hw]
      exact hrec.pending_nodup after domains
    have : n = 128 := (List.Nodup.getElem_inj_iff hnodup).mp heq
    omega
  · intro hshort x hx hpass hafter hle
    -- Not more than 128 are pending, so none of them is cut off.
    rw [hdel, List.take_of_length_le hshort, hpend]
    refine ⟨?_, hafter, hpass⟩
    obtain ⟨n, hn⟩ := List.mem_iff_getElem?.mp hx
    have hrev := hrec'.getElem? hn
    have hlt : n < history.length := by rw [hrec.length]; omega
    rw [List.getElem?_append_left hlt] at hn
    exact List.mem_of_getElem? hn

theorem WatchChain.le_reachedRevision {domains : List String} {after : Nat}
    {tr calls : List ManagerEvent} (h : WatchChain domains after tr calls) {s s' : ManagerState}
    (htr : Trace managerMachine s tr s') (hs : after ≤ s.revision) :
    after ≤ reachedRevision after calls := by
  induction h generalizing s with
  | done => exact le_rfl
  | skip e _ ih =>
    obtain ⟨rfl, he, htr⟩ := htr
    exact ih htr (hs.trans (Happens.revision_le he))
  | @call after tr calls e result hw _ ih =>
    obtain ⟨rfl, he, htr⟩ := htr
    obtain ⟨rfl, hafter⟩ := Happens.watch he hw
    rw [reachedRevision, hw]
    exact hs.trans (ih (hafter ▸ htr) le_rfl)

/-- A call delivers no event newer than the revision it returns. -/
theorem delivers_le {e : ManagerEvent} (he : Happens e) {after : Nat} {domains : List String}
    {result : WatchResult} (hw : watched e = some (after, domains, result))
    {history : List JournalEvent} (hrec : Recorded e.before history) {x : JournalEvent}
    (hx : delivers x e = true) : x.revision ≤ e.before.revision := by
  obtain ⟨rfl, -⟩ := he.watch hw
  simp only [delivers, hw, Option.any_some, ManagerState.watchResult, List.contains_iff_mem] at hx
  have hmem := (List.mem_filter.mp (List.mem_of_mem_take hx)).1
  exact (hrec.revision_pos (hrec.mem_journal.mp hmem).1).2

theorem journaled_eq_none_of_watched {e : ManagerEvent} {w : Nat × List String × WatchResult}
    (hw : watched e = some w) : journaled e = none := by
  obtain ⟨tid, o, r, s, s'⟩ := e
  cases o <;> simp only [watched, reduceCtorEq] at hw
  rfl

/-- A chain without resync delivers every event between its two ends exactly
    once if and only if each of its calls found at most 128 events pending. -/
theorem WatchChain.delivers_iff {domains : List String} {after : Nat} {tr calls : List ManagerEvent}
    (h : WatchChain domains after tr calls) {s s' : ManagerState}
    (htr : Trace managerMachine s tr s') (hs : after ≤ s.revision) {history : List JournalEvent}
    (hrec : Recorded s history) (hsync : ∀ e ∈ calls, resynced e = false) :
    (∀ x ∈ history ++ recordedBy tr, ManagerState.passes domains x = true → after < x.revision →
      x.revision ≤ reachedRevision after calls → calls.countP (delivers x) = 1) ↔
    ∀ e ∈ calls, (pendingAt e).length ≤ 128 := by
  induction h generalizing s history with
  | done after tr =>
    refine ⟨fun _ e he => (nomatch he), fun _ x _ _ hlt hle => ?_⟩
    rw [reachedRevision] at hle
    omega
  -- An event of the run that is no call of the chain.
  | skip e _ ih =>
    obtain ⟨rfl, he, htr⟩ := htr
    rw [recordedBy_cons, ← List.append_assoc]
    exact ih htr (hs.trans (Happens.revision_le he)) (hrec.step he) hsync
  | @call after tr calls e result hw hchain ih =>
    obtain ⟨rfl, he, htr⟩ := htr
    have he : Happens e := he
    obtain ⟨rfl, hafter⟩ := he.watch hw
    rw [hafter] at htr
    have hreached : reachedRevision after (e :: calls) =
        reachedRevision e.before.revision calls := by rw [reachedRevision, hw]; rfl
    have hrec' := hrec.trace htr
    have hcons : recordedBy (e :: tr) = recordedBy tr := by
      rw [recordedBy_cons, journaled_eq_none_of_watched hw]; rfl
    rw [hreached, hcons, List.forall_mem_cons,
      ← delivers_all_iff he hw hrec hrec' (hsync e List.mem_cons_self),
      ← ih htr le_rfl hrec fun e' he' => hsync e' (List.mem_cons_of_mem e he')]
    have hzero : ∀ {x : JournalEvent}, x.revision ≤ e.before.revision →
        calls.countP (delivers x) = 0 := fun hx => hchain.countP_delivers_eq_zero htr le_rfl hx
    have hle := hchain.le_reachedRevision htr le_rfl
    constructor
    · -- an event belongs to the interval of this call or to the rest of the chain
      intro hall
      refine ⟨fun x hx hpass hlt hle' => ?_, fun x hx hpass hlt hle' => ?_⟩
      · have hone := hall x hx hpass hlt (hle'.trans hle)
        rw [List.countP_cons, hzero hle', Nat.zero_add] at hone
        by_contra hnot
        rw [if_neg hnot] at hone
        exact nomatch hone
      · have hone := hall x hx hpass (hs.trans_lt hlt) hle'
        rwa [List.countP_cons, if_neg fun hd => absurd (delivers_le he hw hrec hd) (not_le.mpr hlt)]
          at hone
    · rintro ⟨hhere, hrest⟩ x hx hpass hlt hle'
      rw [List.countP_cons]
      -- Up to the first response the call delivers it, after that the rest of the chain.
      rcases le_or_gt x.revision e.before.revision with hcase | hcase
      · rw [hzero hcase, if_pos (hhere x hx hpass hlt hcase)]
      · rw [hrest x hx hpass hcase hle',
          if_neg fun hd => absurd (delivers_le he hw hrec hd) (not_le.mpr hcase)]

/-! ## No event is lost, unless more than 128 are pending -/

/-- A run of the manager from its start, for a program of every job. -/
abbrev managerRun (rt : Runtime) (p : Pool managerSig ManagerState PyError Value)
    (labels : List (Label Job Input)) :
    Option (Pool managerSig ManagerState PyError Value × List ManagerEvent) :=
  p.run managerMachine (Job.program rt) labels

/-- Every event a client should see, after the revision it started from and up to
    the last revision it was told, is in exactly one of the answers. -/
def DeliveredOnce (domains : List String) (after : Nat) (events : List JournalEvent)
    (calls : List ManagerEvent) : Prop :=
  ∀ x ∈ events, ManagerState.passes domains x = true → after < x.revision →
    x.revision ≤ reachedRevision after calls → calls.countP (delivers x) = 1

/-- In every run, a client that starts from a revision of the manager and chains
    its watch calls gets every event exactly once, or is told to resync, if and
    only if it is told to resync or each call found at most 128 events pending. -/
theorem watch_chain_complete (rt : Runtime) (file : Option ByteArray) (ttl : ℚ) (s₀ : ManagerState)
    (hinit : ManagerState.init rt file ttl = .ok s₀)
    (labels labels' : List (Label Job Input)) (p q : Pool managerSig ManagerState PyError Value)
    (tr tr' : List ManagerEvent) (hrun : managerRun rt ⟨s₀, []⟩ labels = some (p, tr))
    (hrun' : managerRun rt p labels' = some (q, tr')) (domains : List String)
    (calls : List ManagerEvent) (hchain : WatchChain domains p.shared.revision tr' calls) :
    ((∃ e ∈ calls, resynced e = true) ∨
      DeliveredOnce domains p.shared.revision (recordedBy (tr ++ tr')) calls) ↔
    ((∃ e ∈ calls, resynced e = true) ∨ ∀ e ∈ calls, (pendingAt e).length ≤ 128) := by
  by_cases hsync : ∃ e ∈ calls, resynced e = true
  · exact ⟨fun _ => .inl hsync, fun _ => .inl hsync⟩
  · have hsync' : ∀ e ∈ calls, resynced e = false := fun e he =>
      Bool.eq_false_iff.mpr fun h => hsync ⟨e, he, h⟩
    have hrec := (Recorded.init hinit).trace (Pool.run_trace _ _ hrun)
    rw [List.nil_append] at hrec
    rw [or_iff_right hsync, or_iff_right hsync, recordedBy_append]
    exact hchain.delivers_iff (Pool.run_trace _ _ hrun') le_rfl hrec hsync'

/-! ### A manager with one provider

Replies of a small provider, and the run in which clients write its only device a
number of times. -/

namespace Sample

/-- A manager without a selection file. -/
def start : ManagerState where
  catalogTtl := 30
  candidates := []
  catalogAt := 0
  selections := .empty
  deviceRoutes := .empty
  activeProviders := .empty
  providerHealth := .empty
  revision := 0
  journal := []
  stopped := false
  lastFingerprint := none
  file := none
  catalogLocked := false

theorem init_start : ManagerState.init Runtime.sample none 30 = .ok start := by
  have httl : max 0 (min (30 : ℚ) 60) = 30 := by norm_num
  rw [ManagerState.init, httl]
  rfl

/-- A return packet. -/
def returned (members : List (String × Value)) : Reply :=
  .response (.object [("type", .str "return"), ("payload", .object members)])

/-- A discovery reply that names the components. -/
def discovery (components : List String) : Reply :=
  returned [("services", .list [.object [("name", .str providerInterface),
    ("providers", .list (components.map fun c => .object [("component", .str c)]))]])]

/-- A description of a component with the domains. -/
def description (component : String) (domains : List String) : Reply :=
  returned [("schema", .str providerInterface),
    ("provider",
      .object [("id", .str component), ("name", .str "sample"), ("version", .str "1.0.0")]),
    ("domains", strings domains)]

/-- A device of a domain. -/
def device (id domain : String) (metadata : List (Value × Value)) : Value :=
  .object [("id", .str id), ("domain", .str domain), ("name", .str "sample"),
    ("available", .bool true), ("mutable", .list []), ("metadata", .dict metadata)]

/-- An inventory of a component for a domain. -/
def inventory (component domain : String) (devices : List Value) : Reply :=
  returned [("schema", .str providerInterface), ("provider", .str component),
    ("domains", .list [.object [("domain", .str domain), ("status", .str "available")]]),
    ("devices", .list devices)]

/-- The state of a device of a domain. -/
def state (component id domain : String) : Reply :=
  returned [("schema", .str providerInterface), ("provider", .str component),
    ("state", .object [("id", .str id), ("domain", .str domain), ("available", .bool true),
      ("values", .dict []), ("mutable", .list [])])]

/-- A client writes the device `power:main`. -/
def write : Job := .request (.setState "power:main" [(.str "mode", .null)])

/-- The environment of one such write: discovery, description, inventory, state. -/
def writeInputs : List Input :=
  let quiet : Input := {}
  let answer (reply : Reply) : Input := { reply := reply }
  [quiet, quiet, quiet, answer (discovery ["a.b:c"]), answer (description "a.b:c" ["power"]), quiet,
    quiet, quiet, quiet, quiet, answer (inventory "a.b:c" "power" [device "power:main" "power" []]),
    quiet, quiet, quiet, quiet, answer (state "a.b:c" "power:main" "power"), quiet, quiet]

/-- The state after a number of writes, each by a new thread. -/
def writes : Nat → ManagerState → Option ManagerState
  | 0, s => some s
  | n + 1, s => (writes n s).bind fun s =>
      ((write.program Runtime.sample).finish managerMachine n writeInputs s).map Prod.fst

theorem writes_run {n : Nat} {s s' : ManagerState} (h : writes n s = some s') :
    ∃ labels ts tr, managerRun Runtime.sample ⟨s, []⟩ labels = some (⟨s', ts⟩, tr) ∧
    ts.length = n := by
  induction n generalizing s' with
  | zero =>
    rw [writes, Option.some.injEq] at h
    exact ⟨[], [], [], by rw [h]; rfl, rfl⟩
  | succ n ih =>
    rw [writes, Option.bind_eq_some_iff] at h
    obtain ⟨s₁, hs₁, hs'⟩ := h
    obtain ⟨⟨_, tr'⟩, hfin, rfl⟩ := Option.map_eq_some_iff.mp hs'
    obtain ⟨labels, ts, tr, hrun, rfl⟩ := ih hs₁
    obtain ⟨ts', hrun', hlen⟩ := Pool.run_alone managerMachine (Job.program Runtime.sample) ts hfin
    exact ⟨_, ts', _, Pool.run_append _ _ hrun hrun', hlen⟩

/-- A watch from a revision, without a filter and without waiting. -/
def look (after : Nat) : Job := .request (.watch after 0 none)

/-- The watch of `look`, as an event. -/
def lookEvent (tid after : Nat) (s : ManagerState) : ManagerEvent :=
  ⟨tid, .watch after 0 (0 + (0 : Nat) / 1000) [], s.watchResult after [], s, s⟩

theorem lookEvent_watched (tid after : Nat) (s : ManagerState) :
    watched (lookEvent tid after s) = some (after, [], s.watchResult after []) := rfl

theorem lookEvent_pendingAt (tid after : Nat) (s : ManagerState) :
    pendingAt (lookEvent tid after s) = s.pending after [] := rfl

/-- Writes, and then a watch: a chain of one call. -/
theorem look_run {n : Nat} {s : ManagerState} (h : writes n start = some s) (after : Nat) :
    ∃ labels q tr, managerRun Runtime.sample ⟨start, []⟩ labels = some (q, tr) ∧
      WatchChain [] after tr [lookEvent n after s] := by
  obtain ⟨labels, ts, tr, hrun, rfl⟩ := writes_run h
  have hlook : ((look after).program Runtime.sample).finish managerMachine ts.length [{}, {}] s =
      some (s, [⟨ts.length, .clock, ⟨0, 0⟩, s, s⟩, lookEvent ts.length after s]) := rfl
  obtain ⟨ts', hrun', -⟩ := Pool.run_alone managerMachine (Job.program Runtime.sample) ts hlook
  refine ⟨_, _, _, Pool.run_append _ _ hrun hrun', .skips tr ?_⟩
  exact .skip _ (.call (lookEvent_watched ts.length after s) (.done _ _))

end Sample

set_option maxRecDepth 10000 in
/-- One write and one watch: the client gets the event. -/
theorem watch_chain_complete_one_write : ∃ labels q tr calls,
    managerRun Runtime.sample ⟨Sample.start, []⟩ labels = some (q, tr) ∧
    WatchChain [] 0 tr calls ∧ DeliveredOnce [] 0 (recordedBy tr) calls := by
  have heval : (Sample.writes 1 Sample.start).map (fun s => (s.pending 0 []).length) = some 1 ∧
      (Sample.writes 1 Sample.start).map (fun s => s.needsResync 0) = some false := by
    decide +kernel
  obtain ⟨s, hs, hlen⟩ := Option.map_eq_some_iff.mp heval.1
  obtain ⟨labels, q, tr, hrun, hchain⟩ := Sample.look_run hs 0
  have hsync : s.needsResync 0 = false := by
    simpa only [hs, Option.map_some, Option.some.injEq] using heval.2
  refine ⟨labels, q, tr, _, hrun, hchain, ?_⟩
  have hiff := watch_chain_complete Runtime.sample none 30 Sample.start Sample.init_start [] labels
    ⟨Sample.start, []⟩ q [] tr rfl hrun [] _ hchain
  have hnot : ¬∃ e ∈ [Sample.lookEvent 1 0 s], resynced e = true := by
    simp only [List.mem_singleton, exists_eq_left, resynced, Sample.lookEvent_watched,
      Option.any_some, ManagerState.watchResult, hsync, Bool.false_eq_true, not_false_iff]
  rw [or_iff_right hnot, or_iff_right hnot, List.nil_append] at hiff
  refine hiff.mpr fun e he => ?_
  rw [List.mem_singleton] at he
  rw [he, Sample.lookEvent_pendingAt, hlen]
  decide

set_option maxRecDepth 10000 in
/-- After 129 writes one watch from the start answers without resync, with the
    current revision, and without the last event. -/
theorem watch_chain_loses_event : ¬∀ (rt : Runtime) (file : Option ByteArray) (ttl : ℚ)
    (s₀ : ManagerState), ManagerState.init rt file ttl = .ok s₀ →
    ∀ (labels labels' : List (Label Job Input)) (p q : Pool managerSig ManagerState PyError Value)
      (tr tr' : List ManagerEvent), managerRun rt ⟨s₀, []⟩ labels = some (p, tr) →
      managerRun rt p labels' = some (q, tr') → ∀ (domains : List String)
      (calls : List ManagerEvent), WatchChain domains p.shared.revision tr' calls →
      (∃ e ∈ calls, resynced e = true) ∨
        DeliveredOnce domains p.shared.revision (recordedBy (tr ++ tr')) calls := by
  intro hclaim
  have heval : (Sample.writes 129 Sample.start).map
      (fun s => ((s.pending 0 []).length, s.needsResync 0)) = some (129, false) := by
    decide +kernel
  obtain ⟨s, hs, hs'⟩ := Option.map_eq_some_iff.mp heval
  rw [Prod.mk.injEq] at hs'
  obtain ⟨labels, q, tr, hrun, hchain⟩ := Sample.look_run hs 0
  have hsync : ∀ e ∈ [Sample.lookEvent 129 0 s], resynced e = false := by
    simp only [List.mem_singleton, forall_eq, resynced, Sample.lookEvent_watched, Option.any_some,
      ManagerState.watchResult, hs'.2]
  have hdel := (hclaim Runtime.sample none 30 Sample.start Sample.init_start [] labels
    ⟨Sample.start, []⟩ q [] tr rfl hrun [] _ hchain).resolve_left
    fun ⟨e, he, h⟩ => absurd h (Bool.eq_false_iff.mp (hsync e he))
  have hall := (hchain.delivers_iff (Pool.run_trace _ _ hrun) le_rfl
    (Recorded.init Sample.init_start) hsync).mp hdel
  have hlen := hall _ List.mem_cons_self
  rw [Sample.lookEvent_pendingAt, hs'.1] at hlen
  exact absurd hlen (by decide)

end MsysHal
