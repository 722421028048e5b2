import MsysHal.Native.Storage

/-!
# Runs of the storage service

A run is the refresh at the start and then one turn of the loop after another, with
any answers of the environment. A relation that the commands, the refreshes and the
other steps of a turn keep holds of every run.

## Key results

- `scan_error`, `scan_name`: what a scan says of a volume
- `mountVolume_cases`, `unmountVolume_cases`: what becomes of a command
- `Turns.served`, `Kept.served`: from the turns, or from their steps, to all runs
-/

namespace MsysHal.Native.Storage

open Interleave (Does Log Keeps Composes does_pure does_bind does_ask_bind does_get_bind
  does_modify_bind does_modify does_ask)

/-- A step with its answer. -/
abbrev StorageStep := (o : StorageOp) × o.Ret

/-- The answers of a run of the service. -/
abbrev StorageLog := Log storageSig

/-! ## Scans -/

theorem scan_error {errors : ErrorTable} {found : BlockClass} {volume : StorageVolume}
    (h : volume ∈ scan errors found) : volume.error = faultOf errors.rows volume.name := by
  obtain ⟨entry, -, hvolume⟩ := List.mem_filterMap.mp (List.mem_of_mem_take h)
  unfold volumeOf at hvolume
  split at hvolume
  · split_ifs at hvolume
    cases hvolume
    rfl
  · cases hvolume

/-- A scan keeps to the number of volumes the lists have room for. -/
theorem scan_bounded (errors : ErrorTable) (found : BlockClass) :
    (scan errors found).length ≤ maxStorageVolumes := List.length_take_le _ _

/-! ## Commands -/

section Commands

variable {m m' : Memory} {log : StorageLog}

theorem does_setError {α : Type} {name : List Char} {fault : Fault}
    {f : Unit → StorageM α} {a : α} : Does (setError name fault >>= f) m log a m' ↔
      Does (f ()) { m with errors := m.errors.set name fault } log a m' := Iff.rfl

theorem does_clearError {α : Type} {name : List Char} {f : Unit → StorageM α} {a : α} :
    Does (clearError name >>= f) m log a m' ↔
      Does (f ()) { m with errors := m.errors.clear name } log a m' := Iff.rfl

/-- The command mounts the volume, which is not mounted, from its node to its place. -/
structure StorageVolume.Mounts (volume : StorageVolume) (readOnly : Bool)
    (source target : List Char) (command : Command) : Prop where
  unmounted : volume.mounted = false
  from_source : source = volume.source
  to_target : target = volume.preferredMountPoint
  eq : command = .mount (mountOptions (readOnly || volume.readOnly)) source target

/-- What a mount logs, whether it succeeds and the memory it leaves. -/
inductive MountRun (caller : Caller) (volume : StorageVolume) (readOnly : Bool) (m : Memory) :
    StorageLog → Bool → Memory → Prop
  | mounted : volume.mounted = true → MountRun caller volume readOnly m [] true m
  | unusable (source : List Char) : MountRun caller volume readOnly m
      [⟨.usable caller volume.name source, false⟩] false
      { m with errors := m.errors.set volume.name .mountPath }
  | unprepared (source target : List Char) : MountRun caller volume readOnly m
      [⟨.usable caller volume.name source, true⟩, ⟨.prepareTarget caller volume.name target, false⟩]
      false { m with errors := m.errors.set volume.name .mountPath }
  | failed (source target : List Char) (command : Command) (result : Int) : result ≠ 0 →
      volume.Mounts readOnly source target command →
      MountRun caller volume readOnly m
        [⟨.usable caller volume.name source, true⟩,
          ⟨.prepareTarget caller volume.name target, true⟩,
          ⟨.run caller volume.name command, result⟩]
        false { m with errors := m.errors.set volume.name (.mountReturn result) }
  | done (source target : List Char) (command : Command) :
      volume.Mounts readOnly source target command →
      MountRun caller volume readOnly m
        [⟨.usable caller volume.name source, true⟩,
          ⟨.prepareTarget caller volume.name target, true⟩,
          ⟨.run caller volume.name command, (0 : Int)⟩]
        true { m with errors := m.errors.clear volume.name }

theorem mountVolume_run {caller : Caller} {volume : StorageVolume} {readOnly mounted : Bool}
    (h : Does (mountVolume caller volume readOnly) m log mounted m') :
    MountRun caller volume readOnly m log mounted m' := by
  unfold mountVolume at h
  split_ifs at h with hmounted
  · obtain ⟨rfl, rfl, rfl⟩ := does_pure.mp h
    exact .mounted hmounted
  · obtain ⟨prepared, m₁, log₁, log₂, rfl, hprepare, hrest⟩ := does_bind.mp h
    unfold prepareMount at hprepare
    obtain ⟨usable, log₃, rfl, htarget⟩ := does_ask_bind.mp hprepare
    cases usable with
    | false =>
      obtain ⟨rfl, rfl, rfl⟩ := does_pure.mp htarget
      have hset := does_setError.mp hrest
      obtain ⟨rfl, rfl, rfl⟩ := does_pure.mp hset
      exact .unusable _
    | true =>
      obtain ⟨rfl, rfl⟩ := does_ask.mp htarget
      cases prepared with
      | false =>
        have hset := does_setError.mp hrest
        obtain ⟨rfl, rfl, rfl⟩ := does_pure.mp hset
        exact .unprepared _ _
      | true =>
        obtain ⟨result, log₄, rfl, hresult⟩ := does_ask_bind.mp hrest
        split_ifs at hresult with hzero
        · have hset := does_setError.mp hresult
          obtain ⟨rfl, rfl, rfl⟩ := does_pure.mp hset
          exact .failed _ _ _ _ hzero ⟨Bool.eq_false_iff.mpr hmounted, rfl, rfl, rfl⟩
        · have hclear := does_clearError.mp hresult
          obtain ⟨rfl, rfl, rfl⟩ := does_pure.mp hclear
          rw [not_not] at hzero
          subst hzero
          exact .done _ _ _ ⟨Bool.eq_false_iff.mpr hmounted, rfl, rfl, rfl⟩

/-- The volume is mounted there, and the service may unmount it. -/
structure StorageVolume.Leaves (volume : StorageVolume) (target : List Char) : Prop where
  mounted : volume.mounted = true
  managed : volume.managed = true
  eq : target = volume.mountPoint

/-- What an unmount logs, what it returns and the memory it leaves. -/
inductive UnmountRun (volume : StorageVolume) (m : Memory) :
    StorageLog → UnmountResult → Memory → Prop
  | idle (result : UnmountResult) : UnmountRun volume m [] result m
  | failed (target : List Char) (result : Int) : result ≠ 0 → volume.Leaves target →
      UnmountRun volume m [⟨.run .request volume.name (.umount target), result⟩] .failed
        { m with errors := m.errors.set volume.name (.unmountReturn result) }
  | done (target : List Char) : volume.Leaves target →
      UnmountRun volume m [⟨.run .request volume.name (.umount target), (0 : Int)⟩] .done
        { m with
          errors := m.errors.clear volume.name
          suppressed := m.suppressed.add volume.name }

theorem unmountVolume_run {volume : StorageVolume} {result : UnmountResult}
    (h : Does (unmountVolume volume) m log result m') : UnmountRun volume m log result m' := by
  unfold unmountVolume at h
  split_ifs at h with hmounted hmanaged
  · obtain ⟨rfl, -, rfl⟩ := does_pure.mp h
    exact .idle _
  · obtain ⟨rfl, -, rfl⟩ := does_pure.mp h
    exact .idle _
  · have hleaves : volume.Leaves volume.mountPoint := by
      simp only [Bool.or_eq_true, Bool.not_eq_true', not_or, Bool.not_eq_false,
        decide_eq_true_eq] at hmounted hmanaged
      exact ⟨hmounted, hmanaged.1, rfl⟩
    obtain ⟨code, log₁, rfl, hresult⟩ := does_ask_bind.mp h
    split_ifs at hresult with hzero
    · have hset := does_setError.mp hresult
      obtain ⟨rfl, rfl, rfl⟩ := does_pure.mp hset
      exact .failed _ _ hzero hleaves
    · have hclear := does_modify_bind.mp (does_clearError.mp hresult)
      obtain ⟨rfl, rfl, rfl⟩ := does_pure.mp hclear
      rw [not_not] at hzero
      subst hzero
      exact .done _ hleaves

/-! ## Refreshes -/

/-- What reading the configuration logs and the memory it leaves. -/
inductive ConfigRun (m : Memory) : StorageLog → Memory → Prop
  | loaded : ConfigRun m [] m
  | read (config : Option String × Option (List Char)) :
      ConfigRun m [⟨.loadConfig, config⟩] (m.configured config.1 config.2)

theorem loadConfig_run {u : Unit} (h : Does loadConfig m log u m') : ConfigRun m log m' := by
  unfold loadConfig at h
  have hget := does_get_bind.mp h
  split_ifs at hget
  · obtain ⟨rfl, -, rfl⟩ := does_pure.mp hget
    exact .loaded
  · obtain ⟨config, log₁, rfl, hmodify⟩ := does_ask_bind.mp hget
    obtain ⟨rfl, rfl⟩ := does_modify.mp hmodify
    exact .read config

theorem scanVolumes_run {purpose : Purpose} {volumes : List StorageVolume}
    (h : Does (scanVolumes purpose) m log volumes m') :
    ∃ found, log = [⟨.scan purpose m, found⟩] ∧ volumes = scan m.errors found ∧ m' = m := by
  unfold scanVolumes at h
  obtain ⟨found, log₁, rfl, hscan⟩ := does_ask_bind.mp (does_get_bind.mp h)
  obtain ⟨rfl, rfl, rfl⟩ := does_pure.mp hscan
  exact ⟨found, rfl, rfl, rfl⟩

theorem does_observe {α : Type} {volumes : List StorageVolume} {f : Unit → StorageM α} {a : α} :
    Does (observe volumes >>= f) m log a m' ↔ Does (f ()) (m.observed volumes) log a m' := Iff.rfl

/-- What a refresh logs and the memory it leaves: with one scan, or with a scan before
    and after the mounts of the policy. -/
inductive RefreshRun (purpose : Purpose) (m : Memory) : StorageLog → Memory → Prop
  | single {m₁ : Memory} {log₁ : StorageLog} (found : BlockClass) : ConfigRun m log₁ m₁ →
      ¬(purpose = .policy ∧ m₁.autoMount = true) →
      RefreshRun purpose m (log₁ ++ [⟨.scan purpose m₁, found⟩])
        (m₁.observed (scan m₁.errors found))
  | policy {m₁ m₂ : Memory} {log₁ log₂ : StorageLog} (found found' : BlockClass) :
      ConfigRun m log₁ m₁ → purpose = .policy → m₁.autoMount = true →
      Does (mountAll (scan m₁.errors found)) m₁ log₂ () m₂ →
      RefreshRun purpose m
        (log₁ ++ ([⟨.scan purpose m₁, found⟩] ++ (log₂ ++ [⟨.scan .cache m₂, found'⟩])))
        (m₂.observed (scan m₂.errors found'))

theorem refresh_run {purpose : Purpose} {changed : Bool}
    (h : Does (refresh purpose) m log changed m') : RefreshRun purpose m log m' := by
  unfold refresh at h
  obtain ⟨u, m₁, log₁, log₂, rfl, hconfig, h₂⟩ := does_bind.mp h
  obtain ⟨volumes, m₂, log₃, log₄, rfl, hscan, h₃⟩ := does_bind.mp h₂
  obtain ⟨found, rfl, rfl, rfl⟩ := scanVolumes_run hscan
  have hget := does_get_bind.mp h₃
  split_ifs at hget with hpolicy
  · obtain ⟨v, m₃, log₅, log₆, rfl, hmount, h₄⟩ := does_bind.mp hget
    obtain ⟨volumes', m₄, log₇, log₈, rfl, hscan', h₅⟩ := does_bind.mp h₄
    obtain ⟨found', rfl, rfl, rfl⟩ := scanVolumes_run hscan'
    have hobserve := does_observe.mp h₅
    obtain ⟨rfl, -, rfl⟩ := does_pure.mp hobserve
    rw [List.append_nil]
    exact .policy found found' (loadConfig_run hconfig) hpolicy.1 hpolicy.2 hmount
  · have hobserve := does_observe.mp hget
    obtain ⟨rfl, -, rfl⟩ := does_pure.mp hobserve
    rw [List.append_nil]
    exact .single found (loadConfig_run hconfig) hpolicy

end Commands

/-! ## Runs -/

/-- The memory after an event of the kernel. -/
def Memory.notified (m : Memory) (name : Option (List Char)) : Memory :=
  match name with
  | some name => { m with attempted := m.attempted.remove name }
  | none => m

/-- A relation that the refreshes and the changes of the configuration keep. -/
structure Parts (R : Memory → StorageLog → Memory → Prop) : Prop where
  composes : Composes R
  saved (m : Memory) (enabled : Bool) :
    R m [⟨.saveConfig m enabled, true⟩] (m.withAutoMount enabled)
  unsaved (m : Memory) (enabled : Bool) : R m [⟨.saveConfig m enabled, false⟩]
    { m with configError := some "config-write-failed" }
  refresh {purpose : Purpose} (h : purpose = .policy ∨ purpose = .cache) : Keeps R (refresh purpose)

/-- A relation that the parts of a request keep. -/
structure Requests (R : Memory → StorageLog → Memory → Prop) : Prop extends Parts R where
  mount (volume : StorageVolume) (readOnly : Bool) : Keeps R (mountVolume .request volume readOnly)
  confirm (name : List Char) : Keeps R (confirmMount name)
  unmount (volume : StorageVolume) : Keeps R (unmountVolume volume)

/-- A relation that what is sent keeps. -/
structure Sends (R : Memory → StorageLog → Memory → Prop) : Prop where
  reply (m : Memory) (reply : StorageReply) (sent : Bool) : R m [⟨.reply reply, sent⟩] m
  changed (m m' : Memory) : R m [⟨.changed m', ()⟩] m

/-- A relation that what arrives and what is sent keep. -/
structure Quiet (R : Memory → StorageLog → Memory → Prop) : Prop extends Sends R where
  timeout (m : Memory) : R m [⟨.next, .timeout⟩] m
  call (m : Memory) (request : StorageRequest) : R m [⟨.next, .call request⟩] m
  uevent (m : Memory) (name : Option (List Char)) : R m [⟨.next, .uevent name⟩] (m.notified name)

/-- A relation that the parts of a turn keep. -/
structure Kept (R : Memory → StorageLog → Memory → Prop) : Prop extends Requests R, Quiet R

/-- A relation that the turns of the loop keep: an event, then a refresh or a request. -/
structure Turns (R : Memory → StorageLog → Memory → Prop) : Prop where
  composes : Composes R
  timeout (m : Memory) : R m [⟨.next, .timeout⟩] m
  call (m : Memory) (request : StorageRequest) : R m [⟨.next, .call request⟩] m
  uevent (m : Memory) (name : Option (List Char)) : R m [⟨.next, .uevent name⟩] (m.notified name)
  refreshAndTell : Keeps R refreshAndTell
  processCall (request : StorageRequest) : Keeps R (processCall request)

section Relations

variable {R : Memory → StorageLog → Memory → Prop}

namespace Parts

variable (h : Parts R)

include h

theorem pure {α : Type} (a : α) : Keeps R (Pure.pure a : StorageM α) := Keeps.pure h.composes a

theorem bind {α β : Type} {p : StorageM α} {f : α → StorageM β} (hp : Keeps R p)
    (hf : ∀ a, Keeps R (f a)) : Keeps R (p >>= f) := Keeps.bind h.composes hp hf

theorem buildList (fresh : Bool) : Keeps R (buildList fresh) := by
  unfold Storage.buildList
  cases fresh with
  | false => exact .get_bind fun m => h.pure _
  | true => exact h.bind (h.refresh (.inl rfl)) fun _ => .get_bind fun m => h.pure _

theorem buildMount (identifier : List Char) (readOnly : Bool)
    (hmount : ∀ name volume m log mounted m', requestName identifier = some name →
      find m.cache name = some volume →
        Does (mountVolume .request volume readOnly) m log mounted m' →
      R m log m')
    (hconfirm : ∀ name, Keeps R (confirmMount name)) : Keeps R
      (buildMount identifier readOnly) := by
  unfold Storage.buildMount
  split
  · exact h.pure _
  · next name hname =>
    refine h.bind (h.refresh (.inr rfl)) fun _ => ?_
    intro m log reply m' hdoes
    have hget := does_get_bind.mp hdoes
    split at hget
    · exact h.pure _ _ _ _ _ hget
    · next volume hfind =>
      obtain ⟨mounted, m₁, log₁, log₂, rfl, hvolume, hrest⟩ := does_bind.mp hget
      refine h.composes.append (hmount name volume _ _ _ _ hname hfind hvolume) ?_
      split_ifs at hrest
      · exact hconfirm _ _ _ _ _ hrest
      · exact h.bind (h.refresh (.inr rfl)) (fun _ => h.pure _) _ _ _ _ hrest

theorem buildUnmount (identifier : List Char)
    (hunmount : ∀ name volume m log result m', requestName identifier = some name →
      find m.cache name = some volume → Does (unmountVolume volume) m log result m' → R m log m') :
    Keeps R (buildUnmount identifier) := by
  unfold Storage.buildUnmount
  split
  · exact h.pure _
  · next name hname =>
    refine h.bind (h.refresh (.inr rfl)) fun _ => ?_
    intro m log reply m' hdoes
    have hget := does_get_bind.mp hdoes
    split at hget
    · exact h.pure _ _ _ _ _ hget
    · next volume hfind =>
      obtain ⟨result, m₁, log₁, log₂, rfl, hvolume, hrest⟩ := does_bind.mp hget
      refine h.composes.append (hunmount name volume _ _ _ _ hname hfind hvolume) ?_
      cases result with
      | notManaged => exact h.pure _ _ _ _ _ hrest
      | failed => exact h.bind (h.refresh (.inr rfl)) (fun _ => h.pure _) _ _ _ _ hrest
      | done =>
        refine h.bind (h.refresh (.inr rfl)) (fun _ => .get_bind fun m' => ?_) _ _ _ _ hrest
        split
        · exact h.pure _
        · exact h.pure _

theorem buildConfig (enabled : Bool) : Keeps R (buildConfig enabled) := by
  intro m log reply m' hdoes
  unfold Storage.buildConfig at hdoes
  obtain ⟨saved, log₁, rfl, hrest⟩ := does_ask_bind.mp (does_get_bind.mp hdoes)
  cases saved with
  | true => exact h.composes.append (h.saved m enabled) (h.buildList enabled _ _ _ _ hrest)
  | false =>
    have hrefused : Does (Pure.pure (.refused .persistence) : StorageM StorageReply)
        { m with configError := some "config-write-failed" } log₁ reply m' := hrest
    obtain ⟨rfl, -, rfl⟩ := does_pure.mp hrefused
    exact h.unsaved m enabled

/-- With what becomes of mounts and unmounts, every request keeps the relation. -/
theorem dispatch (hmount : ∀ identifier readOnly, Keeps R (Storage.buildMount identifier readOnly))
    (hunmount : ∀ identifier, Keeps R (Storage.buildUnmount identifier))
    (request : StorageRequest) :
    Keeps R (dispatch request) := by
  cases request with
  | listVolumes fresh => exact h.buildList fresh
  | getState => exact h.buildList false
  | refresh => exact h.buildList true
  | mount identifier readOnly => exact hmount identifier readOnly
  | unmount identifier => exact hunmount identifier
  | setConfig enabled => exact h.buildConfig enabled
  | other => exact h.pure _

theorem refreshAndTell (hsends : Sends R) : Keeps R refreshAndTell := by
  unfold Storage.refreshAndTell
  refine h.bind (h.refresh (.inl rfl)) fun changed => ?_
  split_ifs
  · exact .get_bind fun m => .ask fun m' _ => hsends.changed m' m
  · exact h.pure _

theorem processCall (hsends : Sends R) {request : StorageRequest}
    (hdispatch : Keeps R (Storage.dispatch request)) : Keeps R (processCall request) := by
  unfold Storage.processCall
  refine .get_bind fun m => h.bind hdispatch fun reply =>
    h.bind (.ask fun m sent => hsends.reply m reply sent) fun sent => .get_bind fun m' => ?_
  split_ifs
  · exact h.bind (.ask fun m _ => hsends.changed m m') fun _ => h.pure _
  · exact h.pure _

/-- With what becomes of the requests, every turn keeps the relation. -/
theorem turns (hquiet : Quiet R) (hdispatch : ∀ request, Keeps R (Storage.dispatch request)) :
    Turns R where
  composes := h.composes
  timeout := hquiet.timeout
  call := hquiet.call
  uevent := hquiet.uevent
  refreshAndTell := h.refreshAndTell hquiet.toSends
  processCall request := h.processCall hquiet.toSends (hdispatch request)

end Parts

namespace Requests

variable (h : Requests R)

include h

theorem dispatch (request : StorageRequest) : Keeps R (dispatch request) :=
  h.toParts.dispatch
    (fun identifier readOnly => h.toParts.buildMount identifier readOnly
      (fun _ volume _ _ _ _ _ _ => h.mount volume readOnly _ _ _ _)
      h.confirm)
    (fun identifier => h.toParts.buildUnmount identifier fun _ volume _ _ _ _ _ _ =>
      h.unmount volume _ _ _ _) request

end Requests

theorem Turns.turn (h : Turns R) : Keeps R turn := by
  intro m log go m' hdoes
  unfold Storage.turn at hdoes
  obtain ⟨incoming, log₁, rfl, hrest⟩ := does_ask_bind.mp hdoes
  have hrefresh : Keeps R (Storage.refreshAndTell >>= fun _ => (Pure.pure true : StorageM Bool)) :=
    Keeps.bind h.composes h.refreshAndTell fun _ => Keeps.pure h.composes true
  cases incoming with
  | timeout => exact h.composes.append (h.timeout m) (hrefresh _ _ _ _ hrest)
  | call request => exact h.composes.append (h.call m request) (h.processCall request _ _ _ _ hrest)
  | uevent name =>
    refine h.composes.append (h.uevent m name) ?_
    cases name with
    | none => exact hrefresh _ _ _ _ hrest
    | some name => exact hrefresh _ _ _ _ hrest

end Relations

/-- The runs of the service: their logs, the memory they leave, and whether the loop goes on. -/
inductive Served : StorageLog → Memory → Bool → Prop
  | start {log : StorageLog} {u : Unit} {m : Memory} : Does refreshAndTell {} log u m →
      Served log m true
  | turn {log log' : StorageLog} {m m' : Memory} {go : Bool} : Served log m true →
      Does turn m log' go m' → Served (log ++ log') m' go

/-- What the turns keep holds of every run. -/
theorem Turns.served {R : Memory → StorageLog → Memory → Prop} (h : Turns R) {log : StorageLog}
    {m : Memory} {go : Bool} (hserved : Served log m go) : R {} log m := by
  induction hserved with
  | start hdoes => exact h.refreshAndTell _ _ _ _ hdoes
  | turn _ hdoes ih => exact h.composes.append ih (h.turn _ _ _ _ hdoes)

/-- What the parts of a turn keep holds of every run. -/
theorem Kept.served {R : Memory → StorageLog → Memory → Prop} (h : Kept R) {log : StorageLog}
    {m : Memory} {go : Bool} (hserved : Served log m go) : R {} log m :=
  (h.toParts.turns h.toQuiet h.toRequests.dispatch).served hserved

/-! ### Runs in an environment that does not change -/

/-- The log of a run of `n` turns, the memory it leaves, and whether the loop goes on. -/
def serve (answer : (o : StorageOp) → o.Ret) : Nat → StorageLog × Memory × Bool
  | 0 =>
    let start := refreshAndTell.follow (S := storageSig) answer {}
    (start.2, start.1.2, true)
  | n + 1 =>
    let run := serve answer n
    if run.2.2 then
      let next := turn.follow (S := storageSig) answer run.2.1
      (run.1 ++ next.2, next.1.2, next.1.1)
    else run

theorem serve_served (answer : (o : StorageOp) → o.Ret) (n : Nat) :
    Served (serve answer n).1 (serve answer n).2.1 (serve answer n).2.2 := by
  induction n with
  | zero => exact .start (Does.of_follow (S := storageSig) answer refreshAndTell {})
  | succ n ih =>
    rw [serve]
    split_ifs with hgo
    · rw [hgo] at ih
      exact .turn ih (Does.of_follow (S := storageSig) answer turn (serve answer n).2.1)
    · exact ih

/-- A partition on a disk of its own. -/
def crowdName (i : Nat) : List Char :=
  ['s', 'd', Char.ofNat (97 + i / 26), Char.ofNat (97 + i % 26), '1']

/-- As many removable partitions as a scan keeps, none of them mounted. -/
def crowd (first : Nat) : BlockClass where
  entries := (List.range' first 32).map fun i =>
    { name := crowdName i, first := ⟨false, some ['8', ':', '1'], none⟩
      second := ⟨false, some ['8', ':', '1'], none⟩, transport := some ['u', 's', 'b'] }
  devRoot := ['/', 'd', 'e', 'v']
  mountRoot := some ['/', 'm', 'e', 'd', 'i', 'a']

/-- After the start the first partition is gone and there is another one; no mount succeeds. -/
def swapped : (o : StorageOp) → o.Ret
  | .next => .timeout
  | .loadConfig => (none, none)
  | .saveConfig _ _ => true
  | .scan _ m => crowd (if m.revision = 0 then 0 else 1)
  | .usable _ _ _ => true
  | .prepareTarget _ _ _ => true
  | .run _ _ _ => 32
  | .reply _ => true
  | .changed _ => ()

/-- A partition that is inserted, fails to mount and is inserted again. -/
def reinserted : (o : StorageOp) → o.Ret
  | .next => .uevent (some (crowdName 0))
  | .loadConfig => (none, none)
  | .saveConfig _ _ => true
  | .scan _ _ => { crowd 0 with entries := (crowd 0).entries.take 1 }
  | .usable _ _ _ => true
  | .prepareTarget _ _ _ => true
  | .run _ _ _ => 32
  | .reply _ => true
  | .changed _ => ()

/-- The line of the mount table for a partition that is mounted on `/media/a b`. -/
def stickLine : Bytes := ascii "36 24 8:1 / /media/a\\040b rw - vfat /dev/sdaa1 rw\n"

/-- One partition that is there or not and mounted or not, and commands that succeed. -/
def stick (next : Incoming) (present mounted : Bool) : (o : StorageOp) → o.Ret
  | .next => next
  | .loadConfig => (none, none)
  | .saveConfig _ _ => true
  | .scan _ _ => { crowd 0 with
      entries := if present then ((crowd 0).entries.take 1).map fun entry =>
        { entry with mountinfo := if mounted then some stickLine else none } else [] }
  | .usable _ _ _ => true
  | .prepareTarget _ _ _ => true
  | .run _ _ _ => 0
  | .reply _ => true
  | .changed _ => ()

end MsysHal.Native.Storage
