import MsysHal.Spec.Switch
import MsysHal.Spec.Routing

/-!
# The order of delivery

An event gets its revision in a section under the lock and is passed to the sink
after the section, by the thread that recorded it. Each recorded event is
therefore delivered once by its own thread, but another thread may record and
deliver a later event in between.

## Key results

- `program_delivers`: a thread delivers what it has recorded, and nothing else, right after it
- `Deliveries.step`: one event of an interleaving
- `events_in_revision_order`: exactly when the events reach the sink in their order
-/

namespace MsysHal

open Python (Value Runtime)
open Interleave (Prog Issues Path Pool Label Trace Trail Sat Discipline)

/-! ## Recording and delivering -/

/-- The event an operation passes to the sink. -/
def delivered : ManagerEvent → Option JournalEvent
  | ⟨_, .emit event, _, _, _⟩ => some event
  | _ => none

/-- The events a trace passes to the sink, oldest first. -/
def deliveredBy (tr : List ManagerEvent) : List JournalEvent := tr.filterMap delivered

/-- The event a step records. -/
def recordedIn : (o : ManagerOp) → o.Ret → Option JournalEvent
  | .recordEvent _, event => some event
  | .commitSelection _ _, .ok event => event
  | _, _ => none

/-- The event a thread has recorded and not delivered, after one more of its steps. -/
def owed (owes : Option JournalEvent) (o : ManagerOp) (r : o.Ret) : Option JournalEvent :=
  match o with
  | .emit _ => none
  | o => (recordedIn o r).or owes

/-- A thread that owes an event delivers it, and no other thread delivers. -/
def deliveryDiscipline : Discipline managerSig (Option JournalEvent) where
  adv t t' := t = t'
  guar t o := ∀ event, t = some event ↔ o = .emit event
  rely _ _ _ := True
  next t o r := owed t o r

/-- An operation that neither records nor delivers. -/
def Mute : ManagerOp → Prop
  | .recordEvent _ | .emit _ | .commitSelection _ _ => False
  | _ => True

/-- The program starts and ends without an event it owes. -/
abbrev Delivers {α : Type} (p : ManagerProg α) : Prop :=
  Sat deliveryDiscipline (fun t _ => t = none) (fun t _ => t = none) p none

theorem Mute.owed_eq {o : ManagerOp} (h : Mute o) (r : o.Ret) : owed none o r = none := by
  cases o <;> first | rfl | exact absurd h id

theorem Delivers.of_mute {α : Type} {p : ManagerProg α} (h : Issues (S := managerSig) Mute p) :
    Delivers p := by
  refine Sat.of_issues (D := deliveryDiscipline) (P := Mute) (I := fun t => t = none) ?_ ?_ ?_ h rfl
  · rintro t t' hadv rfl
    exact hadv.symm
  · rintro t o ho rfl event
    constructor
    · exact fun h => nomatch h
    · rintro rfl
      exact absurd ho id
  · rintro t o r ho rfl -
    exact ho.owed_eq r

theorem Delivers.bind {α β : Type} {p : ManagerProg α} {f : α → ManagerProg β} (h : Delivers p)
    (hf : ∀ a, Delivers (f a)) : Delivers (p >>= f) := by
  refine Sat.bind h fun t a ht => ?_
  subst ht
  exact hf a

/-- The delivery of an event that is owed. -/
theorem emit_delivers (event : JournalEvent) :
    Sat deliveryDiscipline (fun t _ => t = none) (fun t _ => t = none) (op (.emit event))
      (some event) := by
  refine Sat.perform (S := managerSig) (o := .emit event) ?_ fun t' _ r _ => rfl
  rintro t' rfl other
  simp only [Option.some.injEq, ManagerOp.emit.injEq]

theorem recordEvent_delivers (notice : Notice) : Delivers (recordEvent notice) := by
  refine Sat.step ?_ fun t' hadv event _ => ?_
  · rintro t' rfl event
    exact ⟨fun h => (nomatch h), fun h => (nomatch h)⟩
  · subst hadv
    exact (emit_delivers event).bind fun t _ ht => .pure ht

theorem commitChoice_delivers (choice : Choice) (expected : Option Nat) :
    Delivers (commitChoice choice expected) := by
  refine Sat.step ?_ fun t' hadv result _ => ?_
  · rintro t' rfl event
    exact ⟨fun h => (nomatch h), fun h => (nomatch h)⟩
  · subst hadv
    rcases result with e | (_ | event)
    · exact .raise rfl
    · exact .pure rfl
    · exact emit_delivers event

/-! ## The threads of the manager -/

theorem Discovers.mute {lookup : Option String} {o : ManagerOp} (h : Discovers lookup o) :
    Mute o := by
  cases o <;> trivial

theorem Calm.mute (o : ManagerOp) (h : Calm o) : Mute o := by
  cases o <;> trivial

theorem refreshCatalog_mute (rt : Runtime) (force : Bool) (lookup : Option String) :
    Issues (S := managerSig) Mute (refreshCatalog rt force lookup) :=
  (refreshCatalog_discovers rt force lookup).mono fun _ => Discovers.mute

theorem setState_delivers (rt : Runtime) (x : String) (requested : List (Value × Value)) :
    Delivers (setState rt x requested) := by
  refine (Delivers.of_mute (route_of_calm (refreshCatalog_mute rt) Calm.mute x true)).bind fun c =>
    ?_
  refine (Delivers.of_mute (invoke_issues rt (P := Mute) trivial)).bind fun raw => ?_
  refine (Delivers.of_mute (check_issues _)).bind fun state => ?_
  exact (recordEvent_delivers _).bind fun _ => .of_mute (pure_issues _)

theorem switchProvider_delivers (rt : Runtime) (d : String) (component : Option String)
    (expected : Option Nat) (allow : Bool) :
    Delivers (switchProvider rt d component expected allow) := by
  have hunchanged : ∀ component, Delivers (unchanged d component expected) := fun component =>
    .of_mute ((unchanged_calm d component expected).mono Calm.mute)
  refine (Delivers.of_mute (refreshCatalog_mute rt true none)).bind fun candidates => ?_
  cases component with
  | none =>
    refine (hunchanged none).bind fun same => ?_
    split
    · exact .of_mute (pure_issues _)
    · exact commitChoice_delivers _ expected
  | some c =>
    dsimp only
    split
    · exact .of_mute (fail_issues _)
    · next selected _ =>
      refine (hunchanged (some c)).bind fun same => ?_
      split
      · exact .of_mute (pure_issues _)
      · exact Delivers.bind (.of_mute ((preflight_calm rt selected.1 d allow).mono Calm.mute))
          fun _ => commitChoice_delivers _ expected

theorem pollOnce_delivers (rt : Runtime) : Delivers (pollOnce rt) := by
  refine (Delivers.of_mute (inventory_of_calm (refreshCatalog_mute rt) Calm.mute none true)).bind
    fun result => ?_
  refine (Delivers.of_mute (polledStates_of_calm (refreshCatalog_mute rt) Calm.mute _)).bind
    fun states => ?_
  refine (Delivers.of_mute (op_issues (o := .swapFingerprint _) trivial)).bind fun previous => ?_
  cases previous with
  | none => exact .of_mute (pure_issues _)
  | some previous =>
    dsimp only
    split
    · exact .of_mute (pure_issues _)
    · exact (recordEvent_delivers _).bind fun _ => .of_mute (pure_issues _)

/-- A thread delivers what it has recorded, and nothing else, right after it. -/
theorem program_delivers (rt : Runtime) (job : Job) : Delivers (job.program rt) := by
  have hrefresh := refreshCatalog_mute rt
  cases job with
  | stop => exact .of_mute ((op_issues (o := .stop) trivial).bind fun _ => pure_issues _)
  | poll => exact (pollOnce_delivers rt).bind fun _ => .of_mute (pure_issues _)
  | request r =>
    cases r with
    | inventory domains refresh =>
      exact .of_mute ((inventory_of_calm hrefresh Calm.mute domains refresh).bind fun _ =>
        pure_issues _)
    | getState x refresh =>
      exact .of_mute ((getState_of_calm hrefresh Calm.mute x refresh).bind fun _ => pure_issues _)
    | setState x requested =>
      exact (setState_delivers rt x requested).bind fun _ => .of_mute (pure_issues _)
    | listProviders requested refresh probe =>
      exact .of_mute (listProviders_of_calm hrefresh Calm.mute requested refresh probe)
    | getProvider d component refresh probe =>
      exact .of_mute (getProvider_of_calm hrefresh Calm.mute d component refresh probe)
    | selectProvider d component expected allow =>
      exact (switchProvider_delivers rt d component expected allow).bind fun _ =>
        .of_mute (listProviders_of_calm hrefresh Calm.mute (some d) false false)
    | watch after timeoutMs domains =>
      refine .of_mute (Issues.bind ?_ fun _ => pure_issues _)
      exact (op_issues (o := .clock) trivial).bind fun _ => op_issues (o := .watch _ _ _ _) trivial

/-! ## Interleavings -/

/-- The event a thread has recorded and not delivered, at the end of a trace. -/
def owedBy (tid : Nat) (tr : List ManagerEvent) : Option JournalEvent :=
  (Interleave.logOf tid tr).foldl (fun owes x => owed owes x.1 x.2) none

theorem owedBy_concat (tid : Nat) (tr : List ManagerEvent) (e : ManagerEvent) :
    owedBy tid (tr ++ [e]) =
      if tid = e.tid then owed (owedBy tid tr) e.op e.ret else owedBy tid tr := by
  rw [owedBy, Interleave.logOf_concat]
  split
  · rw [List.foldl_append]
    rfl
  · rfl

private theorem owed_trail (owes : Option JournalEvent) (log : List ((o : ManagerOp) × o.Ret)) :
    Trail deliveryDiscipline owes log (log.foldl (fun owes x => owed owes x.1 x.2) owes) := by
  induction log generalizing owes with
  | nil => exact .nil _
  | cons x log ih => exact .cons rfl trivial (ih _)

section Run

variable {rt : Runtime} {s : ManagerState} {q : Pool managerSig ManagerState PyError Value}
  {labels : List (Label Job Input)}

/-- A thread delivers exactly when it owes an event, and then that event. -/
theorem run_emits {pre post : List ManagerEvent} {e : ManagerEvent}
    (hrun : managerRun rt ⟨s, []⟩ labels = some (q, pre ++ e :: post)) (event : JournalEvent) :
    owedBy e.tid pre = some event ↔ e.op = .emit event := by
  obtain ⟨job, k, -, hresumes⟩ := Pool.run_resumes _ _ hrun
  cases (program_delivers rt job).resumes hresumes (owed_trail none _) with
  | step hguar _ => exact hguar _ rfl event

/-- A thread that has ended owes nothing. -/
theorem finished_owes_nothing {tr : List ManagerEvent}
    (hrun : managerRun rt ⟨s, []⟩ labels = some (q, tr)) (hq : q.Finished) (tid : Nat) :
    owedBy tid tr = none := by
  cases hprog : q.threads[tid]? with
  | none => rw [owedBy, Pool.run_logOf_nil _ _ hrun hprog, List.foldl_nil]
  | some prog =>
    obtain ⟨job, -, hresumes⟩ := Pool.run_follows _ _ hrun hprog
    cases (program_delivers rt job).resumes hresumes (owed_trail none _) with
    | pure h => exact h
    | raise h => exact h
    | step => exact absurd rfl (hq _ (List.mem_of_getElem? hprog) _ _)

end Run

/-- An operation delivers an event, or what its thread owes is what it records. -/
theorem delivered_cases (e : ManagerEvent) :
    (∃ event, e.op = .emit event ∧ delivered e = some event ∧ journaled e = none ∧
      ∀ owes, owed owes e.op e.ret = none) ∨
    ((∀ event, e.op ≠ .emit event) ∧ delivered e = none ∧
      ∀ owes, owed owes e.op e.ret = (journaled e).or owes) := by
  obtain ⟨tid, o, r, s, s'⟩ := e
  cases o
  case emit event => exact .inl ⟨event, rfl, rfl, rfl, fun _ => rfl⟩
  case commitSelection choice expected =>
    refine .inr ⟨fun _ h => (nomatch h), rfl, fun owes => ?_⟩
    cases r <;> rfl
  all_goals exact .inr ⟨fun _ h => (nomatch h), rfl, fun _ => rfl⟩

/-- Each recorded event is delivered once or owed by one thread. -/
structure Deliveries (tr : List ManagerEvent) : Prop where
  nodup : (deliveredBy tr).Nodup
  recorded : ∀ x, x ∈ recordedBy tr ↔ x ∈ deliveredBy tr ∨ ∃ tid, owedBy tid tr = some x
  apart : ∀ tid x, owedBy tid tr = some x → x ∉ deliveredBy tr
  alone : ∀ tid tid' x, owedBy tid tr = some x → owedBy tid' tr = some x → tid = tid'

namespace Deliveries

theorem nil : Deliveries [] where
  nodup := List.nodup_nil
  recorded x := by
    constructor
    · exact fun h => (nomatch h)
    · rintro (h | ⟨tid, h⟩)
      · exact nomatch h
      · exact nomatch h
  apart _ _ h := nomatch h
  alone _ _ _ h := nomatch h

private theorem recordedBy_concat (tr : List ManagerEvent) (e : ManagerEvent) :
    recordedBy (tr ++ [e]) = recordedBy tr ++ (journaled e).toList := by
  rw [recordedBy_append]
  exact congrArg _ ((recordedBy_cons e []).trans (List.append_nil _))

private theorem deliveredBy_concat (tr : List ManagerEvent) (e : ManagerEvent) :
    deliveredBy (tr ++ [e]) = deliveredBy tr ++ (delivered e).toList := by
  rw [deliveredBy, List.filterMap_append]
  cases h : delivered e with
  | none => rw [List.filterMap_cons_none h]; rfl
  | some event => rw [List.filterMap_cons_some h]; rfl

/-- A thread delivers the event it owes. -/
theorem emit {tr : List ManagerEvent} (h : Deliveries tr) {e : ManagerEvent} {event : JournalEvent}
    (howes : owedBy e.tid tr = some event) (hdel : delivered e = some event)
    (hrec : journaled e = none) (hnext : ∀ owes, owed owes e.op e.ret = none) :
    Deliveries (tr ++ [e]) := by
  have howed : ∀ tid, owedBy tid (tr ++ [e]) = if tid = e.tid then none else owedBy tid tr := by
    intro tid
    rw [owedBy_concat, hnext]
  have hothers : ∀ {tid x}, owedBy tid (tr ++ [e]) = some x → tid ≠ e.tid ∧
      owedBy tid tr = some x := by
    intro tid x hx
    rw [howed] at hx
    split at hx
    · exact nomatch hx
    · next hne => exact ⟨hne, hx⟩
  have hd : deliveredBy (tr ++ [e]) = deliveredBy tr ++ [event] := by
    rw [deliveredBy_concat, hdel, Option.toList_some]
  have hr : recordedBy (tr ++ [e]) = recordedBy tr := by
    rw [recordedBy_concat, hrec, Option.toList_none, List.append_nil]
  constructor
  -- The event is delivered once: what a thread owes was not delivered yet.
  · rw [hd, List.nodup_append]
    refine ⟨h.nodup, List.nodup_singleton _, fun a ha b hb => ?_⟩
    rw [List.mem_singleton] at hb
    rintro rfl
    exact h.apart e.tid event howes (hb ▸ ha)
  · intro x
    rw [hr, hd, h.recorded, List.mem_append, List.mem_singleton]
    -- It changes from owed to delivered.
    constructor
    · rintro (hx | ⟨tid, hx⟩)
      · exact .inl (.inl hx)
      · by_cases htid : tid = e.tid
        · rw [htid, howes, Option.some.injEq] at hx
          exact .inl (.inr hx.symm)
        · exact .inr ⟨tid, by rw [howed, if_neg htid, hx]⟩
    · rintro ((hx | rfl) | ⟨tid, hx⟩)
      · exact .inl hx
      · exact .inr ⟨_, howes⟩
      · exact .inr ⟨tid, (hothers hx).2⟩
  · intro tid x hx
    -- The other threads owe other events.
    obtain ⟨hne, hx⟩ := hothers hx
    rw [hd, List.mem_append, List.mem_singleton, not_or]
    refine ⟨h.apart tid x hx, ?_⟩
    rintro rfl
    exact hne (h.alone tid e.tid x hx howes)
  · intro tid tid' x hx hx'
    exact h.alone tid tid' x (hothers hx).2 (hothers hx').2

/-- A thread that owes nothing does another operation, which may record an event. -/
theorem other {tr : List ManagerEvent} (h : Deliveries tr) {e : ManagerEvent}
    (howes : owedBy e.tid tr = none) (hdel : delivered e = none)
    (hnext : ∀ owes, owed owes e.op e.ret = (journaled e).or owes)
    (hnew : (recordedBy (tr ++ [e])).Nodup) : Deliveries (tr ++ [e]) := by
  have howed :
      ∀ tid, owedBy tid (tr ++ [e]) = if tid = e.tid then journaled e else owedBy tid tr := by
    intro tid
    rw [owedBy_concat, hnext]
    split
    · next heq => rw [heq, howes, Option.or_none]
    · rfl
  have hd : deliveredBy (tr ++ [e]) = deliveredBy tr := by
    rw [deliveredBy_concat, hdel, Option.toList_none, List.append_nil]
  rw [recordedBy_concat, List.nodup_append] at hnew
  have hfresh : ∀ {x}, journaled e = some x → x ∉ recordedBy tr := fun hx hmem =>
    hnew.2.2 _ hmem _ (Option.mem_toList.mpr hx) rfl
  constructor
  -- No event is delivered.
  · rw [hd]
    exact h.nodup
  · intro x
    rw [recordedBy_concat, hd, List.mem_append, h.recorded, Option.mem_toList, or_assoc]
    refine or_congr_right ?_
    -- What is recorded is delivered or owed; the new event is owed by this thread.
    constructor
    · rintro (⟨tid, hx⟩ | hx)
      · refine ⟨tid, ?_⟩
        rw [howed, if_neg, hx]
        rintro rfl
        rw [howes] at hx
        exact nomatch hx
      · exact ⟨e.tid, by rw [howed, if_pos rfl]; exact hx⟩
    · rintro ⟨tid, hx⟩
      rw [howed] at hx
      split at hx
      · exact .inr hx
      · exact .inl ⟨tid, hx⟩
  · intro tid x hx
    rw [hd]
    rw [howed] at hx
    split at hx
    · exact fun hmem => hfresh hx ((h.recorded x).mpr (.inl hmem))
    · exact h.apart tid x hx
  · intro tid tid' x hx hx'
    -- Two threads do not owe one event: a new one was not recorded before.
    rw [howed] at hx hx'
    split at hx <;> split at hx'
    · next h₁ h₂ => rw [h₁, h₂]
    · exact absurd ((h.recorded x).mpr (.inr ⟨tid', hx'⟩)) (hfresh hx)
    · exact absurd ((h.recorded x).mpr (.inr ⟨tid, hx⟩)) (hfresh hx')
    · exact h.alone tid tid' x hx hx'

/-- One event of an interleaving. -/
theorem step {tr : List ManagerEvent} (h : Deliveries tr) {e : ManagerEvent}
    (hemit : ∀ event, owedBy e.tid tr = some event ↔ e.op = .emit event)
    (hnew : (recordedBy (tr ++ [e])).Nodup) : Deliveries (tr ++ [e]) := by
  rcases delivered_cases e with ⟨event, hop, hdel, hrec, hnext⟩ | ⟨hop, hdel, hnext⟩
  · exact h.emit ((hemit event).mpr hop) hdel hrec hnext
  · refine h.other (Option.eq_none_iff_forall_ne_some.mpr fun event howes => ?_) hdel hnext hnew
    exact hop event ((hemit event).mp howes)

end Deliveries

/-- The events of a history stand in the order of their revisions. -/
theorem Recorded.increasing {s : ManagerState} {history : List JournalEvent}
    (h : Recorded s history) : history.Pairwise fun x y => x.revision < y.revision := by
  have hrange : (history.map (·.revision)).Pairwise (· < ·) := by
    rw [h.revisions]
    exact List.pairwise_lt_range'
  exact List.pairwise_map.mp hrange

theorem deliveredBy_append (tr tr' : List ManagerEvent) :
    deliveredBy (tr ++ tr') = deliveredBy tr ++ deliveredBy tr' := List.filterMap_append

/-- What the list of recorded events and the deliveries satisfy after every
    prefix of a run. -/
theorem run_deliveries {rt : Runtime} {file : Option ByteArray} {ttl : ℚ} {s₀ : ManagerState}
    (hinit : ManagerState.init rt file ttl = .ok s₀) {labels : List (Label Job Input)}
    {q : Pool managerSig ManagerState PyError Value} {pre post : List ManagerEvent}
    (hrun : managerRun rt ⟨s₀, []⟩ labels = some (q, pre ++ post)) :
    Deliveries pre ∧ (recordedBy pre).Pairwise fun x y => x.revision < y.revision := by
  have hrec : ∀ {pre post}, managerRun rt ⟨s₀, []⟩ labels = some (q, pre ++ post) →
      ∃ s, Recorded s (recordedBy pre) := by
    intro pre post hrun
    obtain ⟨s, htr, -⟩ := Trace.append _ (Pool.run_trace _ _ hrun)
    exact ⟨s, (Recorded.init hinit).trace htr⟩
  refine ⟨?_, (hrec hrun).choose_spec.increasing⟩
  induction pre using List.reverseRecOn generalizing post with
  | nil => exact .nil
  | append_singleton pre e ih =>
    obtain ⟨s, hs⟩ := hrec hrun
    rw [List.append_assoc] at hrun
    exact (ih hrun).step (run_emits hrun) hs.nodup

/-! ## The order of the sink -/

/-- Each event is delivered when no thread owes an earlier one. -/
def DeliversInTurn (tr : List ManagerEvent) : Prop :=
  ∀ pre e post event, tr = pre ++ e :: post → e.op = .emit event →
    ∀ tid other, owedBy tid pre = some other → event.revision ≤ other.revision

/-- The events passed to the sink are the recorded ones, each once and in strictly
    increasing order of revision: so far, and all of them when every thread has
    ended. -/
structure DeliveredInOrder (q : Pool managerSig ManagerState PyError Value)
    (tr : List ManagerEvent) : Prop where
  increasing : (deliveredBy tr).Pairwise fun x y => x.revision < y.revision
  recorded : deliveredBy tr <+: recordedBy tr
  complete : q.Finished → deliveredBy tr = recordedBy tr

section Order

variable {rt : Runtime} {file : Option ByteArray} {ttl : ℚ} {s₀ : ManagerState}
  (hinit : ManagerState.init rt file ttl = .ok s₀) {labels : List (Label Job Input)}
  {q : Pool managerSig ManagerState PyError Value}

include hinit

/-- Deliveries in turn are the first of the recorded events. -/
theorem delivered_prefix_of_turn {pre post : List ManagerEvent}
    (hrun : managerRun rt ⟨s₀, []⟩ labels = some (q, pre ++ post))
    (hturn : DeliversInTurn (pre ++ post)) : deliveredBy pre <+: recordedBy pre := by
  induction pre using List.reverseRecOn generalizing post with
  | nil => exact List.prefix_rfl
  | append_singleton pre e ih =>
    have hrun' := hrun
    rw [List.append_assoc] at hrun' hturn
    obtain ⟨rest, hrest⟩ := ih hrun' hturn
    rw [recordedBy_append, deliveredBy_append]
    rcases delivered_cases e with ⟨event, hop, hdel, hrec, -⟩ | ⟨hop, hdel, -⟩
    · have hd : deliveredBy [e] = [event] := List.filterMap_cons_some hdel
      have hr : recordedBy [e] = [] := List.filterMap_cons_none hrec
      obtain ⟨hdeliveries, hsorted⟩ := run_deliveries hinit hrun'
      have howes := (run_emits hrun' event).mpr hop
      -- the first event that is recorded and not delivered is the one delivered now
      have hmem : event ∈ rest := by
        have := (hdeliveries.recorded event).mpr (.inr ⟨_, howes⟩)
        rw [← hrest, List.mem_append] at this
        exact this.resolve_left (hdeliveries.apart _ _ howes)
      cases rest with
      | nil => exact nomatch hmem
      | cons first rest =>
        rw [← hrest, List.pairwise_append, List.pairwise_cons] at hsorted
        obtain ⟨-, ⟨hfirst, -⟩, hbetween⟩ := hsorted
        have hrecorded : first ∈ recordedBy pre := by
          rw [← hrest]
          exact List.mem_append_right _ List.mem_cons_self
        have hundelivered : first ∉ deliveredBy pre := fun h =>
          lt_irrefl _ (hbetween first h first List.mem_cons_self)
        obtain ⟨tid, htid⟩ := ((hdeliveries.recorded first).mp hrecorded).resolve_left hundelivered
        have hle := hturn pre e post event rfl hop tid first htid
        rcases List.mem_cons.mp hmem with rfl | hlater
        · rw [hd, hr, List.append_nil, ← hrest]
          exact ⟨rest, by rw [List.append_assoc]; rfl⟩
        · exact absurd (hfirst event hlater) (not_lt.mpr hle)
    · have hd : deliveredBy [e] = [] := List.filterMap_cons_none hdel
      rw [hd, List.append_nil, ← hrest, List.append_assoc]
      exact List.prefix_append _ _

/-- A delivery that is not in turn is not the next of the recorded events. -/
theorem turn_of_delivered_prefix {tr : List ManagerEvent}
    (hrun : managerRun rt ⟨s₀, []⟩ labels = some (q, tr)) (h : deliveredBy tr <+: recordedBy tr) :
    DeliversInTurn tr := by
  rintro pre e post event rfl hop tid other howes
  obtain ⟨rest, hrest⟩ := h
  have hdel : delivered e = some event := by
    rcases delivered_cases e with ⟨event', hop', hdel, -⟩ | ⟨hnot, -⟩
    · rw [hop, ManagerOp.emit.injEq] at hop'
      rw [hdel, hop']
    · exact absurd hop (hnot event)
  have hdeliveries := (run_deliveries hinit hrun).1
  have hwhole : managerRun rt ⟨s₀, []⟩ labels = some (q, (pre ++ e :: post) ++ []) := by
    rwa [List.append_nil]
  have hsorted := (run_deliveries hinit hwhole).2
  have hmem : other ∈ recordedBy (pre ++ e :: post) := by
    rw [recordedBy_append]
    exact List.mem_append_left _ ((hdeliveries.recorded other).mpr (.inr ⟨tid, howes⟩))
  have hcons : deliveredBy (e :: post) = event :: deliveredBy post := List.filterMap_cons_some hdel
  rw [← hrest, deliveredBy_append, hcons, List.append_assoc, List.cons_append] at hmem hsorted
  rw [List.pairwise_append, List.pairwise_cons] at hsorted
  rcases List.mem_append.mp hmem with hbefore | hlater
  · exact absurd hbefore (hdeliveries.apart tid other howes)
  · rcases List.mem_cons.mp hlater with rfl | hlater
    · exact le_rfl
    · exact (hsorted.2.1.1 other hlater).le

end Order

/-- In every interleaving, the events reach the sink exactly as they were recorded,
    each once and in strictly increasing order of revision, if and only if no
    thread delivers while another owes an earlier event. -/
theorem events_in_revision_order (rt : Runtime) (file : Option ByteArray) (ttl : ℚ)
    (s₀ : ManagerState) (hinit : ManagerState.init rt file ttl = .ok s₀)
    (labels : List (Label Job Input)) (q : Pool managerSig ManagerState PyError Value)
    (tr : List ManagerEvent) (hrun : managerRun rt ⟨s₀, []⟩ labels = some (q, tr)) :
    DeliveredInOrder q tr ↔ DeliversInTurn tr := by
  constructor
  · exact fun h => turn_of_delivered_prefix hinit hrun h.recorded
  · intro hturn
    have hrun' : managerRun rt ⟨s₀, []⟩ labels = some (q, tr ++ []) := by rwa [List.append_nil]
    obtain ⟨hdeliveries, hsorted⟩ := run_deliveries hinit hrun'
    have hpre := delivered_prefix_of_turn hinit hrun' (by rwa [List.append_nil])
    refine ⟨hsorted.sublist hpre.sublist, hpre, fun hq => ?_⟩
    obtain ⟨rest, hrest⟩ := hpre
    rw [← hrest, List.pairwise_append] at hsorted
    -- an event that is left over is recorded, so delivered: no thread owes it any more
    cases rest with
    | nil => rw [← hrest, List.append_nil]
    | cons x rest =>
      have hx : x ∈ recordedBy tr := by
        rw [← hrest]
        exact List.mem_append_right _ List.mem_cons_self
      rcases (hdeliveries.recorded x).mp hx with hdel | ⟨tid, howes⟩
      · exact absurd (hsorted.2.2 x hdel x List.mem_cons_self) (lt_irrefl _)
      · rw [finished_owes_nothing hrun hq tid] at howes
        exact nomatch howes

theorem owedBy_none {tid : Nat} {tr : List ManagerEvent} (h : ∀ e ∈ tr, e.tid ≠ tid) :
    owedBy tid tr = none := by
  have hnone : Interleave.logOf tid tr = [] := by
    rw [Interleave.logOf, List.map_eq_nil_iff, List.filter_eq_nil_iff]
    exact fun e he => by rw [beq_iff_eq]; exact h e he
  rw [owedBy, hnone]
  rfl

/-- A test for deliveries in turn by the first threads. -/
def inTurn (threads : Nat) (tr : List ManagerEvent) : Bool :=
  tr.all (·.tid < threads) && (List.range tr.length).all fun n =>
    (tr[n]?.bind delivered).all fun event => (List.range threads).all fun tid =>
      (owedBy tid (tr.take n)).all fun other => event.revision ≤ other.revision

theorem inTurn_elim {threads : Nat} {tr : List ManagerEvent} (h : inTurn threads tr = true) :
    DeliversInTurn tr := by
  simp only [inTurn, Bool.and_eq_true, List.all_eq_true, Option.all_eq_true, List.mem_range,
    decide_eq_true_eq] at h
  rintro pre e post event rfl hop tid other howes
  have htid : tid < threads := by
    by_contra hlt
    have hother : ∀ e ∈ pre, e.tid ≠ tid := by
      rintro e he rfl
      exact hlt (h.1 e (List.mem_append_left _ he))
    rw [owedBy_none hother] at howes
    cases howes
  have hdelivered : delivered e = some event := by
    rcases delivered_cases e with ⟨event', hop', hdel, -⟩ | ⟨hnot, -⟩
    · rw [hop, ManagerOp.emit.injEq] at hop'
      rw [hdel, hop']
    · exact absurd hop (hnot event)
  have hlength : pre.length < (pre ++ e :: post).length := by
    rw [List.length_append, List.length_cons]
    omega
  refine h.2 pre.length hlength event ?_ tid htid other ?_
  · rw [List.getElem?_append_right le_rfl, Nat.sub_self, List.getElem?_cons_zero]
    exact hdelivered
  · rwa [List.take_left]

namespace Sample

/-- The steps of a thread under the inputs. -/
def stepsOf (tid : Nat) (inputs : List Input) : List (Label Job Input) := inputs.map (.step tid)

/-- Two clients write a device. Both have recorded their events when the first delivers
    its own, and then the second does. -/
def orderlyWrites : List (Label Job Input) :=
  .spawn write :: stepsOf 0 (writeInputs.take 17) ++
    (.spawn write :: stepsOf 1 (writeInputs.take 17) ++
      (stepsOf 0 (writeInputs.drop 17) ++ stepsOf 1 (writeInputs.drop 17)))

/-- Two clients write a device. The first has recorded its event and not delivered
    it when the second records and delivers its own. -/
def overtakenWrite : List (Label Job Input) :=
  .spawn write :: stepsOf 0 (writeInputs.take 17) ++
    (.spawn write :: stepsOf 1 writeInputs ++ stepsOf 0 (writeInputs.drop 17))

end Sample

set_option maxRecDepth 10000 in
/-- Two threads owe their events at once and deliver them in turn. -/
theorem events_in_revision_order_two_writes : ∃ q tr,
    managerRun Runtime.sample ⟨Sample.start, []⟩ Sample.orderlyWrites = some (q, tr) ∧
    (recordedBy (tr.take 34)).map (·.revision) = [1, 2] ∧ deliveredBy (tr.take 34) = [] ∧
    (deliveredBy tr).map (·.revision) = [1, 2] ∧ DeliveredInOrder q tr := by
  have heval : (managerRun Runtime.sample ⟨Sample.start, []⟩ Sample.orderlyWrites).any (fun r =>
      inTurn 2 r.2 && (recordedBy (r.2.take 34)).map (·.revision) == [1, 2] &&
        (deliveredBy (r.2.take 34)).isEmpty && (deliveredBy r.2).map (·.revision) == [1, 2]) =
      true := by
    decide +kernel
  obtain ⟨⟨q, tr⟩, hrun, htest⟩ := (Option.any_eq_true _ _).mp heval
  simp only [Bool.and_eq_true, beq_iff_eq, List.isEmpty_iff] at htest
  obtain ⟨⟨⟨hturn, hrecorded⟩, hnone⟩, hdelivered⟩ := htest
  refine ⟨q, tr, hrun, hrecorded, hnone, hdelivered, ?_⟩
  exact (events_in_revision_order Runtime.sample none 30 Sample.start Sample.init_start _ q tr
    hrun).mpr (inTurn_elim hturn)

set_option maxRecDepth 10000 in
/-- The sink gets the event with revision 2 before the one with revision 1. -/
theorem events_overtaken : ¬∀ (rt : Runtime) (file : Option ByteArray) (ttl : ℚ)
    (s₀ : ManagerState), ManagerState.init rt file ttl = .ok s₀ →
    ∀ (labels : List (Label Job Input)) (q : Pool managerSig ManagerState PyError Value)
      (tr : List ManagerEvent), managerRun rt ⟨s₀, []⟩ labels = some (q, tr) →
      DeliveredInOrder q tr := by
  intro hclaim
  have heval : (managerRun Runtime.sample ⟨Sample.start, []⟩ Sample.overtakenWrite).any (fun r =>
      (deliveredBy r.2).map (·.revision) == [2, 1]) = true := by
    decide +kernel
  obtain ⟨⟨q, tr⟩, hrun, htest⟩ := (Option.any_eq_true _ _).mp heval
  rw [beq_iff_eq] at htest
  have horder :=
    (hclaim Runtime.sample none 30 Sample.start Sample.init_start _ q tr hrun).increasing
  rw [← List.pairwise_map (f := fun x : JournalEvent => x.revision) (R := (· < ·)), htest] at horder
  exact absurd horder (by decide)

end MsysHal
