import MsysHal.Spec.Journal

/-!
# Watching across restarts

The manager is started on demand, and each instance counts its revisions from
zero. A client that goes on with the number of an earlier instance asks the new
one for what came after that number: the events up to it are skipped, and the
answer does not say so.

## Key results

- `WatchChain.first_call`: what comes before the first call of a chain
- `WatchChain.reaches_all_iff`: when a chain that starts from any number gets every event
- `restart_noticed`: exactly when a client misses no event of an instance
-/

namespace MsysHal

open Python (Value Runtime)
open Interleave (Pool Label Trace)

/-! ## Lifetimes -/

/-- One instance of the manager, from its constructor to where it is reaped. -/
structure Lifetime (rt : Runtime) where
  file : Option ByteArray
  ttl : ℚ
  start : ManagerState
  init : ManagerState.init rt file ttl = .ok start
  labels : List (Label Job Input)
  pool : Pool managerSig ManagerState PyError Value
  trace : List ManagerEvent
  run : managerRun rt ⟨start, []⟩ labels = some (pool, trace)

/-- The watch calls of one client over a number of instances, each after the
    revision of the response before it, whichever instance gave that. -/
inductive ClientChain {rt : Runtime} (domains : List String) :
    Nat → List (Lifetime rt × List ManagerEvent) → Prop where
  | done (after : Nat) : ClientChain domains after []
  | next {after : Nat} {life : Lifetime rt} {calls : List ManagerEvent}
    {lives : List (Lifetime rt × List ManagerEvent)} (h : WatchChain domains after life.trace calls)
    (hrest : ClientChain domains (reachedRevision after calls) lives) :
    ClientChain domains after ((life, calls) :: lives)

/-- The number a client holds after its calls to a number of instances. -/
def heldNumber {rt : Runtime} (after : Nat) (lives : List (Lifetime rt × List ManagerEvent)) :
    Nat :=
  lives.foldl (fun number life => reachedRevision number life.2) after

theorem ClientChain.split {rt : Runtime} {domains : List String} {after : Nat}
    {before later : List (Lifetime rt × List ManagerEvent)} {life : Lifetime rt}
    {calls : List ManagerEvent} (h : ClientChain domains after (before ++ (life, calls) :: later)) :
    WatchChain domains (heldNumber after before) life.trace calls := by
  induction before generalizing after with
  | nil =>
    cases h with
    | next h _ => exact h
  | cons x before ih =>
    cases h with
    | next _ hrest => exact ih hrest

/-- The client gets a response from one of the instances. -/
def Answered {rt : Runtime} (lives : List (Lifetime rt × List ManagerEvent)) : Prop :=
  ∃ x ∈ lives, x.2 ≠ []

/-- A response of an instance, or of one after it, tells the client to resync. -/
def Resyncs {rt : Runtime} (calls : List ManagerEvent)
    (later : List (Lifetime rt × List ManagerEvent)) : Prop :=
  (∃ e ∈ calls, resynced e = true) ∨ ∃ x ∈ later, ∃ e ∈ x.2, resynced e = true

/-- The client gets a response after the instance has recorded the event, and the
    event is in none of the responses of this instance. A response from a later
    instance comes after every event of this one. -/
def Skips {rt : Runtime} (domains : List String) (life : Lifetime rt) (calls : List ManagerEvent)
    (later : List (Lifetime rt × List ManagerEvent)) (x : JournalEvent) : Prop :=
  x ∈ recordedBy life.trace ∧ ManagerState.passes domains x = true ∧
    (x.revision ≤ reachedRevision 0 calls ∨ Answered later) ∧ ∀ e ∈ calls, delivers x e = false

/-! ## A chain that starts from any number -/

/-- The first call of a chain, with what happens before and after it. -/
theorem WatchChain.first_call {domains : List String} {after : Nat} {tr calls : List ManagerEvent}
    {e : ManagerEvent} (h : WatchChain domains after tr (e :: calls)) :
    ∃ pre post result, tr = pre ++ e :: post ∧ watched e = some (after, domains, result) ∧
      WatchChain domains result.revision post calls := by
  generalize hall : e :: calls = all at h
  induction h with
  | done => exact nomatch hall
  | skip e' _ ih =>
    obtain ⟨pre, post, result, rfl, hw, hrest⟩ := ih hall
    exact ⟨e' :: pre, post, result, rfl, hw, hrest⟩
  | call hw h =>
    rw [List.cons.injEq] at hall
    obtain ⟨rfl, rfl⟩ := hall
    exact ⟨[], _, _, rfl, hw, h⟩

/-- An event is in at most one answer of a chain. -/
theorem WatchChain.countP_delivers_le_one {domains : List String} {after : Nat}
    {tr calls : List ManagerEvent} (h : WatchChain domains after tr calls) {s s' : ManagerState}
    (htr : Trace managerMachine s tr s') {history : List JournalEvent} (hrec : Recorded s history)
    (x : JournalEvent) : calls.countP (delivers x) ≤ 1 := by
  induction h generalizing s history with
  | done => exact Nat.zero_le 1
  | skip e _ ih =>
    obtain ⟨rfl, he, htr⟩ := htr
    exact ih htr (hrec.step he)
  | @call after tr calls e result hw hchain ih =>
    obtain ⟨rfl, he, htr⟩ := htr
    have he : Happens e := he
    obtain ⟨rfl, hafter⟩ := he.watch hw
    rw [hafter] at htr
    rw [List.countP_cons]
    split
    · next hdel =>
      rw [hchain.countP_delivers_eq_zero htr le_rfl (delivers_le he hw hrec hdel)]
    · exact ih htr hrec

/-- Once a chain has a response of the instance, it gets every event that follows
    exactly when each call finds at most 128 events pending. -/
theorem WatchChain.reaches_iff {domains : List String} {after : Nat} {tr calls : List ManagerEvent}
    (h : WatchChain domains after tr calls) {s s' : ManagerState}
    (htr : Trace managerMachine s tr s') (hs : after ≤ s.revision) {history : List JournalEvent}
    (hrec : Recorded s history) (hsync : ∀ e ∈ calls, resynced e = false) :
    (∀ x ∈ history ++ recordedBy tr, ManagerState.passes domains x = true → after < x.revision →
      x.revision ≤ reachedRevision after calls → ∃ e ∈ calls, delivers x e = true) ↔
    ∀ e ∈ calls, (pendingAt e).length ≤ 128 := by
  rw [← h.delivers_iff htr hs hrec hsync]
  refine forall₅_congr fun x _ _ _ _ => ?_
  rw [← List.countP_pos_iff]
  have := h.countP_delivers_le_one htr hrec x
  omega

theorem reachedRevision_cons {e : ManagerEvent} (he : Happens e) {after : Nat}
    {domains : List String} {result : WatchResult} (hw : watched e = some (after, domains, result))
    (number : Nat) (calls : List ManagerEvent) :
    reachedRevision number (e :: calls) = reachedRevision e.before.revision calls := by
  rw [reachedRevision, hw, (he.watch hw).1]
  rfl

/-- A chain that starts from any number gets every event of the instance, up to its
    last response, exactly when no event was recorded before its first call at or
    below this number, and each call finds at most 128 events pending. -/
theorem WatchChain.reaches_all_iff {domains : List String} {number : Nat}
    {tr calls : List ManagerEvent} (h : WatchChain domains number tr calls) {s s' : ManagerState}
    (htr : Trace managerMachine s tr s') (hrec : Recorded s [])
    (hsync : ∀ e ∈ calls, resynced e = false) :
    (∀ x ∈ recordedBy tr, ManagerState.passes domains x = true →
      x.revision ≤ reachedRevision 0 calls → ∃ e ∈ calls, delivers x e = true) ↔
    (∀ e ∈ calls, (pendingAt e).length ≤ 128) ∧
      ∀ e ∈ calls.head?, ∀ x ∈ recordedBy tr, ManagerState.passes domains x = true →
        x.revision ≤ e.before.revision → number < x.revision := by
  cases calls with
  | nil =>
    -- Without a call nothing is reached, since every revision is positive.
    constructor
    · exact fun _ => ⟨fun e he => (nomatch he), fun e he => (nomatch he)⟩
    · intro _ x hx _ hle
      have hpos := ((hrec.trace htr).revision_pos hx).1
      rw [reachedRevision] at hle
      omega
  | cons e calls =>
    -- The first call splits the run; the calls after it are a chain from its response.
    obtain ⟨pre, post, result, rfl, hw, hrest⟩ := h.first_call
    obtain ⟨m, hpre, rfl, he, hpost⟩ := Trace.append _ htr
    have he : Happens e := he
    obtain ⟨rfl, hafter⟩ := he.watch hw
    rw [hafter] at hpost
    have hrec' : Recorded e.before (recordedBy pre) := hrec.trace hpre
    have hall : recordedBy (pre ++ e :: post) = recordedBy pre ++ recordedBy post := by
      rw [recordedBy_append, recordedBy_cons, journaled_eq_none_of_watched hw]
      rfl
    have hsync' : ∀ e' ∈ calls, resynced e' = false := fun e' he' =>
      hsync e' (List.mem_cons_of_mem e he')
    have hfirst := delivers_all_iff he hw hrec' (hrec'.trace hpost) (hsync e List.mem_cons_self)
    have hlater := hrest.reaches_iff hpost le_rfl hrec' hsync'
    have hreach := hrest.le_reachedRevision hpost le_rfl
    simp only [List.head?_cons, Option.mem_some_iff, forall_eq', hall, List.forall_mem_cons,
      reachedRevision_cons he hw]
    constructor
    · intro hgets
      -- an event up to the first response is in this response, since the others start after it
      have hhere : ∀ x ∈ recordedBy pre ++ recordedBy post, ManagerState.passes domains x = true →
          x.revision ≤ e.before.revision → delivers x e = true := by
        intro x hx hpass hle
        obtain ⟨e', he', hdel⟩ := hgets x hx hpass (hle.trans hreach)
        rcases List.mem_cons.mp he' with rfl | he'
        · exact hdel
        · have hzero := hrest.countP_delivers_eq_zero hpost le_rfl hle
          exact absurd hdel (List.countP_eq_zero.mp hzero e' he')
      refine ⟨⟨hfirst.mp fun x hx hpass _ hle => hhere x hx hpass hle, hlater.mp ?_⟩, ?_⟩
      · intro x hx hpass hlt hle
        obtain ⟨e', he', hdel⟩ := hgets x hx hpass hle
        rcases List.mem_cons.mp he' with rfl | he'
        · exact absurd (delivers_le he hw hrec' hdel) (not_le.mpr hlt)
        · exact ⟨e', he', hdel⟩
      · intro x hx hpass hle
        have hdel := hhere x hx hpass hle
        simp only [delivers, hw, Option.any_some, ManagerState.watchResult,
          List.contains_iff_mem] at hdel
        have hpending := (List.mem_filter.mp (List.mem_of_mem_take hdel)).2
        rw [Bool.and_eq_true, decide_eq_true_eq] at hpending
        exact hpending.1
    · rintro ⟨⟨hshort, hshorts⟩, hnew⟩ x hx hpass hle
      -- An event up to the first response is in it, a later one in a later response.
      rcases le_or_gt x.revision e.before.revision with hcase | hcase
      · exact ⟨e, List.mem_cons_self, hfirst.mpr hshort x hx hpass (hnew x hx hpass hcase) hcase⟩
      · obtain ⟨e', he', hdel⟩ := hlater.mpr hshorts x hx hpass hcase hle
        exact ⟨e', List.mem_cons_of_mem e he', hdel⟩

/-- What a chain delivers is not newer than its last response. -/
theorem WatchChain.delivers_le_reached {domains : List String} {after : Nat}
    {tr calls : List ManagerEvent} (h : WatchChain domains after tr calls) {s s' : ManagerState}
    (htr : Trace managerMachine s tr s') {history : List JournalEvent} (hrec : Recorded s history)
    {e : ManagerEvent} (he : e ∈ calls) {x : JournalEvent} (hx : delivers x e = true)
    (number : Nat) :
    x.revision ≤ reachedRevision number calls := by
  induction h generalizing s history number with
  | done => exact nomatch he
  | skip e' _ ih =>
    obtain ⟨rfl, he', htr⟩ := htr
    exact ih htr (hrec.step he') he number
  | @call after tr calls e' result hw hchain ih =>
    obtain ⟨rfl, he', htr⟩ := htr
    have he' : Happens e' := he'
    rw [reachedRevision_cons he' hw]
    obtain ⟨rfl, hafter⟩ := he'.watch hw
    rw [hafter] at htr
    rcases List.mem_cons.mp he with rfl | he
    · exact (delivers_le he' hw hrec hx).trans (hchain.le_reachedRevision htr le_rfl)
    · exact ih htr hrec he _

/-! ## When a restart goes unnoticed -/

/-- The instance has recorded nothing for the client at or below the number the
    client came with when it answers first, it has at most 128 events for each
    call, and nothing after its last response when the client goes on with a
    later instance. -/
structure Caught {rt : Runtime} (domains : List String) (number : Nat) (life : Lifetime rt)
    (calls : List ManagerEvent) (later : List (Lifetime rt × List ManagerEvent)) : Prop where
  short : ∀ e ∈ calls, (pendingAt e).length ≤ 128
  fresh : ∀ e ∈ calls.head?, ∀ x ∈ recordedBy life.trace, ManagerState.passes domains x = true →
    x.revision ≤ e.before.revision → number < x.revision
  last : Answered later → ∀ x ∈ recordedBy life.trace, ManagerState.passes domains x = true →
    x.revision ≤ reachedRevision 0 calls

/-- Over any number of instances, a client that goes on with the revision of its
    last response misses no event of an instance, or is told to resync, if and only
    if it is told to resync or the instance has nothing behind its number. -/
theorem restart_noticed (rt : Runtime) (domains : List String) (after : Nat)
    (before later : List (Lifetime rt × List ManagerEvent)) (life : Lifetime rt)
    (calls : List ManagerEvent)
    (h : ClientChain domains after (before ++ (life, calls) :: later)) :
    (Resyncs calls later ∨ ∀ x, ¬Skips domains life calls later x) ↔
      (Resyncs calls later ∨ Caught domains (heldNumber after before) life calls later) := by
  by_cases hsync : Resyncs calls later
  · exact ⟨fun _ => .inl hsync, fun _ => .inl hsync⟩
  · rw [or_iff_right hsync, or_iff_right hsync]
    have hchain := h.split
    have htr := Pool.run_trace _ _ life.run
    have hrec := Recorded.init life.init
    have hiff := hchain.reaches_all_iff htr hrec fun e he =>
      Bool.eq_false_iff.mpr fun hs => hsync (.inl ⟨e, he, hs⟩)
    have hgets : ∀ {x}, ¬(∀ e ∈ calls, delivers x e = false) → ∃ e ∈ calls,
        delivers x e = true := by
      intro x hx
      simpa only [not_forall, Bool.not_eq_false, exists_prop] using hx
    constructor
    · intro hskips
      obtain ⟨hshort, hfresh⟩ := hiff.mp fun x hx hpass hle =>
        hgets fun hnone => hskips x ⟨hx, hpass, .inl hle, hnone⟩
      refine ⟨hshort, hfresh, fun hlater x hx hpass => ?_⟩
      obtain ⟨e, he, hdel⟩ := hgets fun hnone => hskips x ⟨hx, hpass, .inr hlater, hnone⟩
      exact hchain.delivers_le_reached htr hrec he hdel 0
    · rintro hcaught x ⟨hx, hpass, hanswered, hnone⟩
      have hle : x.revision ≤ reachedRevision 0 calls :=
        hanswered.elim id fun hlater => hcaught.last hlater x hx hpass
      obtain ⟨e, he, hdel⟩ := hiff.mpr ⟨hcaught.short, hcaught.fresh⟩ x hx hpass hle
      rw [hnone e he] at hdel
      exact nomatch hdel

/-! ### Two instances -/

/-- The watch calls of a trace. -/
def watchCalls (tr : List ManagerEvent) : List ManagerEvent :=
  tr.filter fun e => (watched e).isSome

/-- Whether all watch calls of a trace are one chain. -/
def chained (domains : List String) : Nat → List ManagerEvent → Bool
  | _, [] => true
  | after, e :: tr =>
    match watched e with
    | none => chained domains after tr
    | some (after', domains', result) =>
      after' == after && domains' == domains && chained domains result.revision tr

theorem WatchChain.of_chained {domains : List String} {after : Nat} {tr : List ManagerEvent}
    (h : chained domains after tr = true) : WatchChain domains after tr (watchCalls tr) := by
  induction tr generalizing after with
  | nil => exact .done _ _
  | cons e tr ih =>
    rw [chained] at h
    rw [watchCalls, List.filter_cons]
    split at h
    · next hw =>
      rw [hw, if_neg (by decide)]
      exact .skip e (ih h)
    · next after' domains' result hw =>
      simp only [Bool.and_eq_true, beq_iff_eq] at h
      obtain ⟨⟨rfl, rfl⟩, h⟩ := h
      rw [hw, if_pos Option.isSome_some]
      exact .call hw (ih h)

namespace Sample

/-- A client watches after a number, as the thread `tid`. -/
def lookSteps (tid after : Nat) : List (Label Job Input) :=
  [.spawn (look after), .step tid {}, .step tid {}]

/-- A client writes a device, as the thread `tid`. -/
def writeSteps (tid : Nat) : List (Label Job Input) := .spawn write :: writeInputs.map (.step tid)

/-- The life of an instance in which every watch is of one client and none answers
    with `resync`. -/
def lived (after : Nat) (labels : List (Label Job Input)) (test : List ManagerEvent → Bool) :
    Bool :=
  (managerRun Runtime.sample ⟨start, []⟩ labels).any fun r =>
    chained [] after r.2 && (watchCalls r.2).all (fun e => !resynced e) && test r.2

theorem lived_elim {after : Nat} {labels : List (Label Job Input)} {test : List ManagerEvent → Bool}
    (h : lived after labels test = true) : ∃ life : Lifetime Runtime.sample,
      WatchChain [] after life.trace (watchCalls life.trace) ∧
      (∀ e ∈ watchCalls life.trace, resynced e = false) ∧ test life.trace = true := by
  obtain ⟨⟨q, tr⟩, hrun, h⟩ := (Option.any_eq_true _ _).mp h
  simp only [Bool.and_eq_true, List.all_eq_true, Bool.not_eq_true'] at h
  exact ⟨⟨none, 30, start, init_start, labels, q, tr, hrun⟩, .of_chained h.1.1, h.1.2, h.2⟩

/-- An instance that records one event and tells the client its revision. -/
theorem first_life : ∃ life : Lifetime Runtime.sample,
    WatchChain [] 0 life.trace (watchCalls life.trace) ∧
    reachedRevision 0 (watchCalls life.trace) = 1 := by
  have heval : lived 0 (writeSteps 0 ++ lookSteps 1 0)
      (fun tr => reachedRevision 0 (watchCalls tr) == 1) = true := by
    decide +kernel
  obtain ⟨life, hchain, -, hreached⟩ := lived_elim heval
  exact ⟨life, hchain, beq_iff_eq.mp hreached⟩

end Sample

set_option maxRecDepth 10000 in
/-- The client calls the new instance before it has recorded anything: it gets the
    number of the new instance, and then its first event. -/
theorem restart_noticed_first_call : ∃ (life life' : Lifetime Runtime.sample) (x : JournalEvent),
    ClientChain [] 0 [(life, watchCalls life.trace), (life', watchCalls life'.trace)] ∧
    x ∈ recordedBy life'.trace ∧ ∃ e ∈ watchCalls life'.trace, delivers x e = true := by
  obtain ⟨life, hchain, hreached⟩ := Sample.first_life
  have heval : Sample.lived 1 (Sample.lookSteps 0 1 ++ Sample.writeSteps 1 ++ Sample.lookSteps 2 0)
      (fun tr => (watchCalls tr).all (fun e => decide ((pendingAt e).length ≤ 128)) &&
        (watchCalls tr).head?.all (fun e => e.before.revision == 0) &&
        (recordedBy tr).any (fun x => ManagerState.passes [] x &&
          decide (x.revision ≤ reachedRevision 0 (watchCalls tr)))) = true := by
    decide +kernel
  obtain ⟨life', hchain', hsync, htest⟩ := Sample.lived_elim heval
  simp only [Bool.and_eq_true, List.all_eq_true, decide_eq_true_eq, List.any_eq_true,
    Option.all_eq_true, beq_iff_eq] at htest
  obtain ⟨⟨hshort, hzero⟩, x, hx, hpass, hle⟩ := htest
  have hclient : ClientChain [] 0
      [(life, watchCalls life.trace), (life', watchCalls life'.trace)] :=
    .next hchain (.next (hreached ▸ hchain') (.done _))
  refine ⟨life, life', x, hclient, hx, ?_⟩
  -- The second manager does not ask for a resync.
  have hnot : ¬Resyncs (watchCalls life'.trace) ([] : List (Lifetime Runtime.sample × _)) := by
    rintro (⟨e, he, hs⟩ | ⟨y, hy, -⟩)
    · rw [hsync e he] at hs
      exact nomatch hs
    · exact nomatch hy
  have hskips := (or_iff_right hnot).mp ((restart_noticed Runtime.sample [] 0 [(life, _)] [] life' _
    hclient).mpr (.inr ⟨hshort, ?_, ?_⟩)) x
  · by_contra hnone
    refine hskips ⟨hx, hpass, .inl hle, fun e he => ?_⟩
    exact Bool.eq_false_iff.mpr fun hdel => hnone ⟨e, he, hdel⟩
  -- Its first call started at 0, so no revision of its journal is skipped.
  · intro e he y hy _ hle'
    have hpos :=
      (((Recorded.init life'.init).trace (Pool.run_trace _ _ life'.run)).revision_pos hy).1
    have := hzero e he
    omega
  · rintro ⟨y, hy, -⟩
    exact nomatch hy

set_option maxRecDepth 10000 in
/-- The new instance has recorded one event when the client calls it with the
    number 1 of the old one: the response leaves this event out. -/
theorem restart_skips_event : ¬∀ (rt : Runtime) (domains : List String) (after : Nat)
    (before later : List (Lifetime rt × List ManagerEvent)) (life : Lifetime rt)
    (calls : List ManagerEvent), before ≠ [] →
    ClientChain domains after (before ++ (life, calls) :: later) →
    Resyncs calls later ∨ ∀ x, ¬Skips domains life calls later x := by
  intro hclaim
  obtain ⟨life, hchain, hreached⟩ := Sample.first_life
  have heval : Sample.lived 1 (Sample.writeSteps 0 ++ Sample.lookSteps 1 1)
      (fun tr => (recordedBy tr).any (fun x => ManagerState.passes [] x &&
        decide (x.revision ≤ reachedRevision 0 (watchCalls tr)) &&
        (watchCalls tr).all (fun e => !delivers x e))) = true := by
    decide +kernel
  obtain ⟨life', hchain', hsync, htest⟩ := Sample.lived_elim heval
  simp only [Bool.and_eq_true, List.all_eq_true, decide_eq_true_eq, List.any_eq_true,
    Bool.not_eq_true'] at htest
  obtain ⟨x, hx, ⟨hpass, hle⟩, hnone⟩ := htest
  rcases hclaim Runtime.sample [] 0 [(life, watchCalls life.trace)] [] life'
    (watchCalls life'.trace) (List.cons_ne_nil _ _)
    (.next hchain (.next (hreached ▸ hchain') (.done _))) with (⟨e, he, hs⟩ | ⟨y, hy, -⟩) | hskips
  · rw [hsync e he] at hs
    exact nomatch hs
  · exact nomatch hy
  · exact hskips x ⟨hx, hpass, .inl hle, hnone⟩

end MsysHal
