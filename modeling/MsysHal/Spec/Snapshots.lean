import MsysHal.Spec.Storage

/-!
# The revision of a storage snapshot

A snapshot shows the cache, whether volumes are mounted automatically, and the error of
the configuration. Each of them changes together with the revision, with one exception:
a configuration that could not be written is recorded without a new revision. The revision
is a number of 64 bits, so two snapshots can also have one revision after as many changes.

## Key results

- `keeps_afterConfig`, `stamps_turns`: what a turn does to the revision
- `identified_served`: the invariant of every run
- `revision_identifies`: snapshots with one revision show the same
-/

namespace MsysHal.Native.Storage

open Interleave (Does Log Keeps Composes Maintains does_pure does_bind does_ask does_ask_bind
  does_get_bind does_modify does_modify_bind)

/-! ## Snapshots -/

/-- What a snapshot shows besides its revision. -/
def Memory.shown (m : Memory) : Bool × Option String × List StorageVolume :=
  (m.autoMount, m.configError, m.cache)

/-- The memory that a step sends as a snapshot. -/
def sentSnapshot : StorageStep → Option Memory
  | ⟨.reply (.snapshot m), _⟩ => some m
  | ⟨.changed m, _⟩ => some m
  | _ => none

/-- The configuration could be written, or it is recorded already that it could not. -/
def Recorded : StorageStep → Prop
  | ⟨.saveConfig m _, false⟩ => m.configError = some "config-write-failed"
  | _ => True

/-- A step that changes the revision: a scan that finds something else than the cache shows,
    or a configuration that is saved and was another one. -/
def revises : StorageStep → Bool
  | ⟨.scan _ m, found⟩ => decide (m.cache ≠ scan m.errors found)
  | ⟨.saveConfig m enabled, saved⟩ =>
    saved && (decide (m.autoMount ≠ enabled) || m.configError.isSome)
  | _ => false

/-- Nothing that is shown has changed, or the revision has changed with a step that may do so. -/
inductive Advances (may : Bool) (m m' : Memory) : Prop
  | same : m'.revision = m.revision → m'.shown = m.shown → Advances may m m'
  | next : may = true → m'.revision = m.revision + 1 → Advances may m m'

theorem advances_observed (purpose : Purpose) (m : Memory) (found : BlockClass) :
    Advances (revises ⟨.scan purpose m, found⟩) m (m.observed (scan m.errors found)) := by
  by_cases hsame : m.cache = scan m.errors found
  · refine .same (by rw [Memory.observed, if_pos hsame]) ?_
    rw [Memory.observed, Memory.shown, Memory.shown, hsame]
  · exact .next (decide_eq_true hsame) (by rw [Memory.observed, if_neg hsame])

theorem advances_withAutoMount (m : Memory) (enabled : Bool) :
    Advances (revises ⟨.saveConfig m enabled, true⟩) m (m.withAutoMount enabled) := by
  by_cases hchanged : m.autoMount ≠ enabled ∨ m.configError.isSome = true
  · refine .next ?_ (by rw [Memory.withAutoMount, if_pos hchanged])
    simpa [revises] using hchanged
  · refine .same (by rw [Memory.withAutoMount, if_neg hchanged]) ?_
    rw [not_or, ne_eq, not_not, Bool.not_eq_true, Option.isSome_eq_false_iff,
      Option.isNone_iff_eq_none] at hchanged
    rw [Memory.shown, Memory.shown, hchanged.1, hchanged.2]
    rfl

/-! ## Runs -/

/-- A memory with the number of changes of the revision up to it, before another one. -/
structure Older (s s' : Nat × Memory) : Prop where
  le : s.1 ≤ s'.1
  same : s.1 = s'.1 → s.2.shown = s'.2.shown

/-- The snapshots sent so far and the memory at the end, each with the number of changes of the
    revision up to it. -/
structure Identified (log : StorageLog) (m : Memory) (stamps : List (Nat × Memory)) (n : Nat) :
    Prop where
  sent : stamps.map Prod.snd = log.filterMap sentSnapshot
  older : (stamps ++ [(n, m)]).Pairwise Older
  revision : ∀ s ∈ stamps ++ [(n, m)], s.2.revision = UInt64.ofNat s.1
  count : n ≤ log.countP revises

section Stamps

variable {log log' : StorageLog} {m m' : Memory} {stamps : List (Nat × Memory)} {n n' : Nat}

theorem Identified.move (h : Identified log m stamps n)
    (hlog : log'.filterMap sentSnapshot = log.filterMap sentSnapshot)
    (holder : ∀ s, Older s (n, m) → Older s (n', m')) (hrevision : m'.revision = UInt64.ofNat n')
    (hcount : n' ≤ log'.countP revises) : Identified log' m' stamps n' where
  sent := h.sent.trans hlog.symm
  older := by
    obtain ⟨hstamps, -, hlast⟩ := List.pairwise_append.mp h.older
    refine List.pairwise_append.mpr ⟨hstamps, List.pairwise_singleton _ _, fun s hs s' hs' => ?_⟩
    rw [List.mem_singleton.mp hs']
    exact holder s (hlast s hs _ (List.mem_singleton_self _))
  revision := by
    obtain ⟨hstamps, -⟩ := List.forall_mem_append.mp h.revision
    exact List.forall_mem_append.mpr ⟨hstamps, List.forall_mem_singleton.mpr hrevision⟩
  count := hcount

/-- A step that sends nothing. -/
theorem Identified.step {x : StorageStep} (h : Identified log m stamps n)
    (hx : sentSnapshot x = none) (hm : Advances (revises x) m m') :
    ∃ n', Identified (log ++ [x]) m' stamps n' := by
  have hlog : (log ++ [x]).filterMap sentSnapshot = log.filterMap sentSnapshot := by
    rw [List.filterMap_append, List.filterMap_cons_none hx, List.filterMap_nil, List.append_nil]
  have hrevision := h.revision (n, m) (List.mem_append_right _ (List.mem_singleton_self _))
  have hcount := h.count
  have happend : (log ++ [x]).countP revises = log.countP revises + [x].countP revises :=
    List.countP_append
  cases hm with
  | same hsame hshown =>
    refine ⟨n, h.move hlog (fun s hs => ⟨hs.le, fun heq => ?_⟩) (hsame.trans hrevision) (by omega)⟩
    exact (hs.same heq).trans hshown.symm
  | next hmay hnext =>
    have hone : [x].countP revises = 1 := by rw [List.countP_singleton, if_pos hmay]
    refine ⟨n + 1, h.move hlog (fun s hs => ?_) ?_ (by omega)⟩
    · have hle : s.1 ≤ n := hs.le
      exact ⟨hle.trans (Nat.le_succ n), fun heq => absurd heq (by simp only; omega)⟩
    · rw [hnext, show m.revision = UInt64.ofNat n from hrevision, UInt64.ofNat_add]
      rfl

/-- A change of what is not shown. -/
theorem Identified.change (h : Identified log m stamps n) (hrevision : m'.revision = m.revision)
    (hshown : m'.shown = m.shown) : Identified log m' stamps n :=
  h.move rfl (fun _ hs => ⟨hs.le, fun heq => (hs.same heq).trans hshown.symm⟩)
    (hrevision.trans (h.revision (n, m) (List.mem_append_right _ (List.mem_singleton_self _))))
      h.count

/-- A step that sends the memory as it is. -/
theorem Identified.send {x : StorageStep} (h : Identified log m stamps n)
    (hx : sentSnapshot x = some m) : Identified (log ++ [x]) m (stamps ++ [(n, m)]) n where
  sent := by
    rw [List.map_append, h.sent, List.filterMap_append, List.filterMap_cons_some hx]
    rfl
  older := by
    obtain ⟨-, -, hlast⟩ := List.pairwise_append.mp h.older
    refine List.pairwise_append.mpr ⟨h.older, List.pairwise_singleton _ _, fun s hs s' hs' => ?_⟩
    rw [List.mem_singleton.mp hs']
    cases List.mem_append.mp hs with
    | inl hs => exact hlast s hs _ (List.mem_singleton_self _)
    | inr hs =>
      rw [List.mem_singleton.mp hs]
      exact ⟨le_rfl, fun _ => rfl⟩
  revision := by
    have hmem := h.revision (n, m) (List.mem_append_right _ (List.mem_singleton_self _))
    exact List.forall_mem_append.mpr ⟨h.revision, List.forall_mem_singleton.mpr hmem⟩
  count := h.count.trans (by rw [List.countP_append]; omega)

/-- Fewer changes than a revision can count: what has one revision shows the same. -/
theorem Identified.same (h : Identified log m stamps n) (hchanges : log.countP revises < 2 ^ 64)
    {s s' : Memory} (hs : s ∈ log.filterMap sentSnapshot) (hs' : s' ∈ log.filterMap sentSnapshot)
    (hrevision : s.revision = s'.revision) : s.shown = s'.shown := by
  rw [← h.sent] at hs hs'
  obtain ⟨⟨a, s⟩, hmem, rfl⟩ := List.mem_map.mp hs
  obtain ⟨⟨b, s'⟩, hmem', rfl⟩ := List.mem_map.mp hs'
  have hstamp := h.revision _ (List.mem_append_left _ hmem)
  have hstamp' := h.revision _ (List.mem_append_left _ hmem')
  obtain ⟨hstamps, -, hlast⟩ := List.pairwise_append.mp h.older
  have hle : a ≤ n := (hlast _ hmem _ (List.mem_singleton_self _)).le
  have hle' : b ≤ n := (hlast _ hmem' _ (List.mem_singleton_self _)).le
  have hcount := h.count
  have heq : a = b := by
    have hwords := congrArg UInt64.toNat ((hstamp.symm.trans hrevision).trans hstamp')
    rwa [UInt64.toNat_ofNat', UInt64.toNat_ofNat', Nat.mod_eq_of_lt (by omega),
      Nat.mod_eq_of_lt (by omega)] at hwords
  -- the relation is symmetric, so the order of the two does not matter
  have : Std.Symm fun s s' : Nat × Memory => s.1 = s'.1 → s.2.shown = s'.2.shown :=
    ⟨fun s s' hss heq => (hss heq.symm).symm⟩
  have hsame := hstamps.imp fun hss => hss.same
  exact hsame.forall_of_forall (fun _ _ _ => rfl) hmem hmem' heq

end Stamps

/-- The same as long as every failure to write the configuration was recorded already. -/
def IdentifiedRecorded (log : StorageLog) (m : Memory) : Prop :=
  (∀ x ∈ log, Recorded x) → ∃ stamps n, Identified log m stamps n

/-- What the parts of a turn keep once the configuration has been read. -/
def Stamps (m : Memory) (log : StorageLog) (m' : Memory) : Prop :=
  m.configLoaded = true → m'.configLoaded = true ∧ Maintains IdentifiedRecorded m log m'

theorem composes_stamps : Composes Stamps where
  nil m hloaded := ⟨hloaded, (Composes.maintains _).nil m⟩
  append h h' hloaded := by
    obtain ⟨hloaded', hkept⟩ := h hloaded
    obtain ⟨hloaded'', hkept'⟩ := h' hloaded'
    exact ⟨hloaded'', (Composes.maintains _).append hkept hkept'⟩

section Parts

variable {m m' : Memory}

/-- A step that sends nothing. -/
theorem stamps_step {x : StorageStep} (hx : sentSnapshot x = none)
    (hm : Recorded x → Advances (revises x) m m') (hloaded : m'.configLoaded = m.configLoaded) :
    Stamps m [x] m' := by
  intro hconfig
  refine ⟨hloaded.trans hconfig, fun history h hrecorded => ?_⟩
  obtain ⟨stamps, n, hbefore⟩ := h fun y hy => hrecorded y (List.mem_append_left _ hy)
  have hlast := hrecorded x (List.mem_append_right _ (List.mem_singleton_self x))
  exact ⟨stamps, hbefore.step hx (hm hlast)⟩

/-- A step that changes nothing. -/
theorem stamps_idle {x : StorageStep} (hx : sentSnapshot x = none) : Stamps m [x] m :=
  stamps_step hx (fun _ => .same rfl rfl) rfl

/-- A change of what is not shown. -/
theorem stamps_change (hrevision : m'.revision = m.revision) (hshown : m'.shown = m.shown)
    (hloaded : m'.configLoaded = m.configLoaded) : Stamps m [] m' := by
  intro hconfig
  refine ⟨hloaded.trans hconfig, fun history h hrecorded => ?_⟩
  rw [List.append_nil] at hrecorded ⊢
  obtain ⟨stamps, n, hbefore⟩ := h hrecorded
  exact ⟨stamps, n, hbefore.change hrevision hshown⟩

/-- A step that sends the memory. -/
theorem stamps_sent {x : StorageStep} (hx : sentSnapshot x = some m) : Stamps m [x] m := by
  intro hconfig
  refine ⟨hconfig, fun history h hrecorded => ?_⟩
  obtain ⟨stamps, n, hbefore⟩ := h fun y hy => hrecorded y (List.mem_append_left _ hy)
  exact ⟨_, n, hbefore.send hx⟩

end Parts

theorem keeps_loadConfig : Keeps Stamps loadConfig := by
  intro m log u m' hdoes hloaded
  unfold loadConfig at hdoes
  have hget := does_get_bind.mp hdoes
  rw [if_pos hloaded] at hget
  obtain ⟨rfl, -, rfl⟩ := does_pure.mp hget
  exact composes_stamps.nil _ hloaded

theorem keeps_setError (name : List Char) (fault : Fault) : Keeps Stamps (setError name fault) :=
  .modify fun _ => stamps_change rfl rfl rfl

theorem keeps_clearError (name : List Char) : Keeps Stamps (clearError name) :=
  .modify fun _ => stamps_change rfl rfl rfl

theorem keeps_call {o : StorageOp} (ho : ∀ r, sentSnapshot ⟨o, r⟩ = none) : Keeps Stamps (call o) :=
  .ask fun _ r => stamps_idle (ho r)

theorem keeps_mountVolume (caller : Caller) (volume : StorageVolume) (readOnly : Bool) :
    Keeps Stamps (mountVolume caller volume readOnly) := by
  have hC := composes_stamps
  unfold mountVolume
  split_ifs
  · exact Keeps.pure hC _
  · refine Keeps.bind hC ?_ fun prepared => ?_
    · unfold prepareMount
      refine Keeps.bind hC (keeps_call fun _ => rfl) fun usable => ?_
      split_ifs
      · exact keeps_call fun _ => rfl
      · exact Keeps.pure hC _
    · cases prepared with
      | false => exact Keeps.bind hC (keeps_setError _ _) fun _ => Keeps.pure hC _
      | true =>
        refine Keeps.bind hC (keeps_call fun _ => rfl) fun result => ?_
        split_ifs
        · exact Keeps.bind hC (keeps_setError _ _) fun _ => Keeps.pure hC _
        · exact Keeps.bind hC (keeps_clearError _) fun _ => Keeps.pure hC _

theorem keeps_mountAll (volumes : List StorageVolume) : Keeps Stamps (mountAll volumes) := by
  have hC := composes_stamps
  induction volumes with
  | nil => exact Keeps.pure hC _
  | cons volume volumes ih =>
    unfold mountAll
    refine .get_bind fun m => ?_
    split_ifs
    · exact ih
    · exact Keeps.bind hC (.modify fun _ => stamps_change rfl rfl rfl) fun _ =>
        Keeps.bind hC (keeps_mountVolume _ _ _) fun _ => ih

/-- A refresh once the configuration has been read. -/
def afterConfig (purpose : Purpose) : StorageM Bool := do
  let volumes ← scanVolumes purpose
  let m ← get
  if purpose = .policy ∧ m.autoMount then
    mountAll volumes
    let volumes ← scanVolumes .cache
    observe volumes
    return decide (m.cache ≠ volumes)
  else
    observe volumes
    return decide (m.cache ≠ volumes)

theorem refresh_eq (purpose : Purpose) :
    refresh purpose = loadConfig >>= fun _ => afterConfig purpose := rfl

theorem keeps_afterConfig (purpose : Purpose) : Keeps Stamps (afterConfig purpose) := by
  intro m log changed m' hdoes
  unfold afterConfig at hdoes
  obtain ⟨volumes, m₁, log₁, log₂, rfl, hscan, hrest⟩ := does_bind.mp hdoes
  obtain ⟨found, rfl, rfl, rfl⟩ := scanVolumes_run hscan
  have hget := does_get_bind.mp hrest
  split_ifs at hget
  · obtain ⟨u, m₂, log₃, log₄, rfl, hmounts, hafter⟩ := does_bind.mp hget
    obtain ⟨volumes', m₃, log₅, log₆, rfl, hscan', hobserve⟩ := does_bind.mp hafter
    obtain ⟨found', rfl, rfl, rfl⟩ := scanVolumes_run hscan'
    have hobserved := does_observe.mp hobserve
    obtain ⟨rfl, -, rfl⟩ := does_pure.mp hobserved
    rw [List.append_nil]
    -- only the last scan is observed
    exact composes_stamps.append (stamps_idle rfl) (composes_stamps.append
      (keeps_mountAll _ _ _ _ _ hmounts)
        (stamps_step rfl (fun _ => advances_observed .cache _ found') rfl))
  · have hobserved := does_observe.mp hget
    obtain ⟨rfl, -, rfl⟩ := does_pure.mp hobserved
    rw [List.append_nil]
    exact stamps_step rfl (fun _ => advances_observed purpose _ found) rfl

theorem keeps_refresh (purpose : Purpose) : Keeps Stamps (refresh purpose) :=
  Keeps.bind composes_stamps keeps_loadConfig fun _ => keeps_afterConfig purpose

theorem stamps_requests : Requests Stamps where
  composes := composes_stamps
  saved m enabled := stamps_step rfl (fun _ => advances_withAutoMount m enabled) rfl
  unsaved m enabled := by
    refine stamps_step rfl (fun hrecorded => ?_) rfl
    have herror : m.configError = some "config-write-failed" := hrecorded
    exact .same rfl (by rw [Memory.shown, Memory.shown, herror])
  refresh _ := keeps_refresh _
  mount volume readOnly := keeps_mountVolume .request volume readOnly
  confirm name := by
    have hC := composes_stamps
    unfold confirmMount
    refine Keeps.bind hC (.modify fun _ => stamps_change rfl rfl rfl) fun _ =>
      Keeps.bind hC (keeps_refresh _) fun _ => .get_bind fun m => ?_
    split
    · exact Keeps.pure hC _
    · exact Keeps.bind hC (keeps_setError _ _) fun _ =>
        Keeps.bind hC (keeps_refresh _) fun _ => Keeps.pure hC _
  unmount volume := by
    have hC := composes_stamps
    unfold unmountVolume
    split_ifs
    · exact Keeps.pure hC _
    · exact Keeps.pure hC _
    · refine Keeps.bind hC (keeps_call fun _ => rfl) fun result => ?_
      split_ifs
      · exact Keeps.bind hC (keeps_setError _ _) fun _ => Keeps.pure hC _
      · exact Keeps.bind hC (keeps_clearError _) fun _ =>
          Keeps.bind hC (.modify fun _ => stamps_change rfl rfl rfl) fun _ =>
            Keeps.pure hC _

/-- Whenever the program ends with a snapshot, it is the memory it leaves. -/
def SendsMemory (p : StorageM StorageReply) : Prop :=
  ∀ m log s m', Does p m log (.snapshot s) m' → s = m'

theorem SendsMemory.bind {α : Type} {p : StorageM α} {f : α → StorageM StorageReply}
    (hf : ∀ a, SendsMemory (f a)) : SendsMemory (p >>= f) := by
  intro m log s m' h
  obtain ⟨a, m₁, log₁, log₂, rfl, -, hrest⟩ := does_bind.mp h
  exact hf a _ _ _ _ hrest

theorem SendsMemory.get_bind {f : Memory → StorageM StorageReply} (hf : ∀ m, SendsMemory (f m)) :
    SendsMemory (get >>= f) := fun m log s m' h => hf m m log s m' h

theorem SendsMemory.pure {reply : StorageReply} (hreply : ∀ s, reply ≠ .snapshot s) :
    SendsMemory (Pure.pure reply) := by
  intro m log s m' h
  obtain ⟨-, heq, -⟩ := does_pure.mp h
  exact absurd heq.symm (hreply s)

theorem SendsMemory.snapshot : SendsMemory (do return .snapshot (← get)) := by
  intro m log s m' h
  have hget := (does_get_bind (f := fun m => Pure.pure (StorageReply.snapshot m))).mp h
  obtain ⟨-, heq, rfl⟩ := does_pure.mp hget
  exact StorageReply.snapshot.inj heq

/-- The snapshot in a reply is the memory at its end. -/
theorem dispatch_snapshot (request : StorageRequest) : SendsMemory (dispatch request) := by
  have hlist (fresh : Bool) : SendsMemory (buildList fresh) := by
    unfold buildList
    cases fresh with
    | false => exact .snapshot
    | true => exact .bind fun _ => .snapshot
  -- A reply that is no snapshot has nothing to show; three requests end in buildList.
  cases request with
  | listVolumes fresh => exact hlist fresh
  | getState => exact hlist false
  | refresh => exact hlist true
  | mount identifier readOnly =>
    change SendsMemory (buildMount identifier readOnly)
    unfold buildMount
    split
    · exact .pure nofun
    · refine .bind fun _ => .get_bind fun m => ?_
      split
      · exact .pure nofun
      · refine .bind fun mounted => ?_
        split_ifs
        · unfold confirmMount
          refine .bind fun _ => .bind fun _ => .get_bind fun m => ?_
          split
          · exact .pure nofun
          · exact .bind fun _ => .bind fun _ => .pure nofun
        · exact .bind fun _ => .pure nofun
  | unmount identifier =>
    change SendsMemory (buildUnmount identifier)
    unfold buildUnmount
    split
    · exact .pure nofun
    · refine .bind fun _ => .get_bind fun m => ?_
      split
      · exact .pure nofun
      · refine .bind fun result => ?_
        cases result with
        | notManaged => exact .pure nofun
        | failed => exact .bind fun _ => .pure nofun
        | done =>
          refine .bind fun _ => .get_bind fun m => ?_
          split
          · exact .pure nofun
          · exact .pure nofun
  | setConfig enabled =>
    change SendsMemory (buildConfig enabled)
    unfold buildConfig
    refine .get_bind fun m => .bind fun saved => ?_
    cases saved with
    | false => exact .bind fun _ => .pure nofun
    | true => exact .bind fun _ => hlist enabled
  | other => exact .pure nofun

theorem keeps_tell (changed : Bool) :
    Keeps Stamps
      (if changed = true then do call (.changed (← get)) else Pure.pure () : StorageM Unit) := by
  split_ifs
  · intro m log u m' hdoes
    obtain ⟨rfl, rfl⟩ := does_ask.mp (does_get_bind.mp hdoes)
    exact stamps_sent rfl
  · exact Keeps.pure composes_stamps _

theorem stamps_turns : Turns Stamps where
  composes := composes_stamps
  timeout _ := stamps_idle rfl
  call _ _ := stamps_idle rfl
  uevent m name := by
    cases name with
    | none => exact stamps_idle rfl
    | some name => exact stamps_step rfl (fun _ => .same rfl rfl) rfl
  refreshAndTell := Keeps.bind composes_stamps (keeps_refresh _) keeps_tell
  processCall request := by
    intro m log sent m' hdoes
    unfold processCall at hdoes
    obtain ⟨reply, m₁, log₁, log₂, rfl, hdispatch, hrest⟩ := does_bind.mp (does_get_bind.mp hdoes)
    obtain ⟨taken, log₃, rfl, hrest'⟩ := does_ask_bind.mp hrest
    have hreply : Stamps m₁ [⟨.reply reply, taken⟩] m₁ := by
      cases reply with
      | snapshot s =>
        obtain rfl := dispatch_snapshot request _ _ _ _ hdispatch
        exact stamps_sent rfl
      | volume revision volume => exact stamps_idle rfl
      | other => exact stamps_idle rfl
      | refused refusal => exact stamps_idle rfl
    refine composes_stamps.append (stamps_requests.dispatch request _ _ _ _ hdispatch)
      (composes_stamps.append hreply ?_)
    have hget := does_get_bind.mp hrest'
    split_ifs at hget
    · obtain ⟨u, log₄, rfl, hpure⟩ := does_ask_bind.mp hget
      obtain ⟨rfl, -, rfl⟩ := does_pure.mp hpure
      exact stamps_sent rfl
    · obtain ⟨rfl, -, rfl⟩ := does_pure.mp hget
      exact composes_stamps.nil _

/-- After the first refresh the configuration has been read, and the snapshots are stamped. -/
theorem identified_served {log : StorageLog} {m : Memory} {go : Bool} (h : Served log m go) :
    m.configLoaded = true ∧ IdentifiedRecorded log m := by
  induction h with
  | @start log u m hdoes =>
    unfold refreshAndTell at hdoes
    obtain ⟨changed, m₁, log₁, log₂, rfl, hrefresh, htell⟩ := does_bind.mp hdoes
    rw [refresh_eq] at hrefresh
    obtain ⟨v, m₂, log₃, log₄, rfl, hconfig, hafter⟩ := does_bind.mp hrefresh
    have hread : m₂.configLoaded = true ∧ m₂.revision = 0 ∧ log₃.filterMap sentSnapshot = [] := by
      unfold loadConfig at hconfig
      obtain ⟨config, log₅, rfl, hmodify⟩ := does_ask_bind.mp (does_get_bind.mp hconfig)
      obtain ⟨rfl, rfl⟩ := does_modify.mp hmodify
      exact ⟨rfl, rfl, rfl⟩
    obtain ⟨hloaded, hrevision, hnone⟩ := hread
    have hfirst : IdentifiedRecorded log₃ m₂ :=
      fun _ => ⟨[], 0, hnone.symm, List.pairwise_singleton _ _, by simp [hrevision], Nat.zero_le _⟩
    obtain ⟨hloaded₁, hkept₁⟩ := keeps_afterConfig .policy _ _ _ _ hafter hloaded
    obtain ⟨hloaded', hkept'⟩ := keeps_tell changed _ _ _ _ htell hloaded₁
    exact ⟨hloaded', hkept' _ (hkept₁ _ hfirst)⟩
  | turn _ hdoes ih =>
    obtain ⟨hloaded, hidentified⟩ := ih
    obtain ⟨hloaded', hkept⟩ := stamps_turns.turn _ _ _ _ hdoes hloaded
    exact ⟨hloaded', hkept _ hidentified⟩

/-- Two snapshots that the service sends with one revision show the same, in every run with
    fewer changes than a revision can count in which no configuration fails to be written
    unless that is recorded already. -/
theorem revision_identifies {log : StorageLog} {m : Memory} {go : Bool} (h : Served log m go)
    (hrecorded : ∀ x ∈ log, Recorded x) (hchanges : log.countP revises < 2 ^ 64) {s s' : Memory}
    {x x' : StorageStep} (hx : x ∈ log) (hx' : x' ∈ log) (hs : sentSnapshot x = some s)
    (hs' : sentSnapshot x' = some s') (hrevision : s.revision = s'.revision) :
    s.shown = s'.shown := by
  obtain ⟨stamps, n, hidentified⟩ := (identified_served h).2 hrecorded
  exact hidentified.same hchanges (List.mem_filterMap.mpr ⟨x, hx, hs⟩)
    (List.mem_filterMap.mpr ⟨x', hx', hs'⟩) hrevision

instance : DecidablePred Recorded
  | ⟨.saveConfig m _, false⟩ =>
    inferInstanceAs (Decidable (m.configError = some "config-write-failed"))
  | ⟨.saveConfig _ _, true⟩ | ⟨.next, _⟩ | ⟨.loadConfig, _⟩ | ⟨.scan _ _, _⟩ | ⟨.usable _ _ _, _⟩
  | ⟨.prepareTarget _ _ _, _⟩ | ⟨.run _ _ _, _⟩ | ⟨.reply _, _⟩ | ⟨.changed _, _⟩ => isTrue trivial

/-- A partition that cannot be mounted, and a client that asks for the state. -/
def asked : (o : StorageOp) → o.Ret
  | .next => .call .getState
  | o => reinserted o

private theorem asked_revisions :
    (match sentSnapshot (serve asked 1).1[6], sentSnapshot (serve asked 1).1[8] with
    | some s, some s' => decide (s.revision = s'.revision)
    | _, _ => false) = true := by
  decide +kernel +revert

/-- The event of the start and a reply show the same. -/
theorem revision_identifies_asked : ∃ s s', sentSnapshot (serve asked 1).1[6] = some s ∧
    sentSnapshot (serve asked 1).1[8] = some s' ∧ s.shown = s'.shown := by
  have heval := asked_revisions
  split at heval
  · next s s' hs hs' =>
    refine ⟨s, s', hs, hs', ?_⟩
    exact revision_identifies (serve_served asked 1) (by decide +kernel) (by decide +kernel)
      (List.getElem_mem _) (List.getElem_mem _) hs hs' (of_decide_eq_true heval)
  · cases heval

end MsysHal.Native.Storage
