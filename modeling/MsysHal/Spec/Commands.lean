import MsysHal.ForStd.Since
import MsysHal.Spec.MountTable
import MsysHal.Spec.Storage

/-!
# What mount and umount commands are issued for

Every command of the service is for a volume of the last scan, and the scan offers no volume
of a device that carries a critical mount. A mount goes from the node of the volume to its
place below the mount root, after both were checked; an unmount goes to where the mount table
of the scan shows the volume, below the mount root. What a request causes is for the volume
that it names.

## Key results

- `scan_offered`: what a scan says of the volumes it offers
- `Issued`: what a command may be issued for
- `commands_issued`: every command of every run
-/

namespace MsysHal.Native.Storage

open Interleave (Does Keeps Composes Maintains does_pure does_bind does_ask_bind does_get_bind
  does_modify_bind)

/-! ## Offered volumes -/

/-- What a scan says of a volume that it offers, with the entry that it offers it for. -/
structure Offered (found : BlockClass) (volume : StorageVolume) : Prop where
  base : baseName volume.name = some volume.parent
  source : volume.source = found.devRoot ++ '/' :: volume.name
  target : volume.preferredMountPoint = storageMountRoot found.mountRoot ++ '/' :: volume.name
  entry : ∃ entry ∈ listEntries found.entries, entry.name = volume.name ∧
    entry.second.dev = some volume.majorMinor ∧ entry.usable = true ∧
    criticalMount entry.second.mountinfo volume.majorMinor = false ∧
    (volume.mounted = true → ∃ table path, entry.mountinfo = some table ∧
      shownAt table volume.majorMinor = some path ∧ volume.mountPoint = pointOf path) ∧
    (entry.second.partition = true ∨ ∀ other ∈ listEntries found.entries,
      other.first.partition = true → baseName other.name ≠ some volume.parent)
  free : ∀ other ∈ listEntries found.entries, baseName other.name = some volume.parent →
    ∀ majorMinor, other.first.dev = some majorMinor →
      criticalMount other.first.mountinfo majorMinor = false
  below : volume.managed = true → (storageMountRoot found.mountRoot ++ ['/']) <+: volume.mountPoint

theorem length_storageMountRoot (value : Option (List Char)) :
    (storageMountRoot value).length < storagePathCapacity / 2 := by
  rw [storageMountRoot]
  cases hvalue : value.filter _ with
  | none => decide
  | some root =>
    obtain ⟨-, hroot⟩ := Option.filter_eq_some_iff.mp hvalue
    simp only [Bool.and_eq_true, decide_eq_true_eq] at hroot
    exact hroot.1.1.1.1.2

theorem length_entry_name {entries : List BlockEntry} {entry : BlockEntry}
    (h : entry ∈ listEntries entries) : entry.name.length ≤ 128 := by
  have hmem := List.mem_of_mem_take ((List.mem_insertionSort _).mp h)
  have hvalid := (List.mem_filter.mp hmem).2
  simp only [listEntries.validText, Bool.and_eq_true, decide_eq_true_eq] at hvalid
  exact hvalid.1.2

/-- No place below the mount root is too long for its buffer. -/
theorem take_target (value : Option (List Char)) {name : List Char} (h : name.length ≤ 128) :
    (storageMountRoot value ++ '/' :: name).take (storagePathCapacity - 1) =
      storageMountRoot value ++ '/' :: name := by
  have hroot := length_storageMountRoot value
  apply List.take_of_length_le
  rw [List.length_append, List.length_cons]
  rw [storagePathCapacity] at hroot ⊢
  omega

theorem volumeOf_offered {errors : ErrorTable} {found : BlockClass} {entry : BlockEntry}
    {volume : StorageVolume} (hentry : entry ∈ listEntries found.entries)
    (h : volumeOf errors found (partitionedBases (listEntries found.entries))
      (criticalBases (listEntries found.entries)) entry = some volume) : Offered found volume := by
  unfold volumeOf at h
  split at h
  · next base transport majorMinor hbase htransport hdev =>
    -- No check skipped the entry, so each of them holds of it.
    split_ifs at h with hskip
    simp only [Bool.or_eq_true, Bool.and_eq_true, Bool.not_eq_true', not_or, not_and,
      Bool.not_eq_true, Bool.not_eq_false] at hskip
    obtain ⟨⟨⟨⟨⟨hwhole, hcritical⟩, -⟩, hmounts⟩, -⟩, husable⟩ := hskip
    rw [Option.some.injEq] at h
    subst h
    have hfree : ∀ other ∈ listEntries found.entries, baseName other.name = some base →
        ∀ dev, other.first.dev = some dev → criticalMount other.first.mountinfo dev = false := by
      intro other hother hname dev hdev'
      by_contra hmount
      rw [Bool.not_eq_false] at hmount
      have hmem : base ∈ criticalBases (listEntries found.entries) :=
        List.mem_filterMap.mpr ⟨other, hother, by rw [hdev', Option.any_some, if_pos hmount, hname]⟩
      rw [List.contains_iff_mem.mpr hmem] at hcritical
      cases hcritical
    refine ⟨hbase, rfl, take_target _ (length_entry_name hentry),
      ⟨entry, hentry, rfl, hdev, husable, hmounts, ?_, ?_⟩, hfree, ?_⟩
    -- The mount point is what the table of this entry shows.
    · intro hmounted
      obtain ⟨mount, hmount⟩ := Option.isSome_iff_exists.mp hmounted
      have hpoint :
          (describe errors found entry base transport majorMinor).mountPoint = mount.point := by
        simp only [describe, hmount, Option.map_some, Option.getD_some]
      obtain ⟨table, htable, -⟩ := Option.bind_eq_some_iff.mp hmount
      have hshown := mountFor_shownAt table majorMinor
      rw [← htable, hmount, Option.map_some, eq_comm, Option.map_eq_some_iff] at hshown
      obtain ⟨path, hpath, heq⟩ := hshown
      exact ⟨table, path, htable, hpath, hpoint.trans heq.symm⟩
    -- A whole disk is offered only without partitions.
    · cases hpartition : entry.second.partition with
      | true => exact .inl rfl
      | false =>
        refine .inr fun other hother hpart hname => ?_
        have hmem : base ∈ partitionedBases (listEntries found.entries) :=
          List.mem_filterMap.mpr ⟨other, hother, by rw [if_pos hpart]; exact hname⟩
        have hnone := hwhole hpartition
        rw [List.contains_iff_mem.mpr hmem] at hnone
        cases hnone
    · intro hmanaged
      simp only [describe] at hmanaged ⊢
      obtain ⟨mount, hmount, hprefix⟩ := (Option.any_eq_true _ _).mp hmanaged
      rw [hmount, Option.map_some, Option.getD_some]
      exact List.isPrefixOf_iff_prefix.mp hprefix
  · cases h

/-- A scan offers nothing else. -/
theorem scan_offered {errors : ErrorTable} {found : BlockClass} {volume : StorageVolume}
    (h : volume ∈ scan errors found) : Offered found volume := by
  obtain ⟨entry, hentry, hvolume⟩ := List.mem_filterMap.mp (List.mem_of_mem_take h)
  exact volumeOf_offered hentry hvolume

/-! ## Issued commands -/

/-- What has arrived. -/
def arrived : StorageStep → Option Incoming
  | ⟨.next, incoming⟩ => some incoming
  | _ => none

/-- The memory that a scan starts from, and what it finds. -/
def scanned : StorageStep → Option (Memory × BlockClass)
  | ⟨.scan _ m, found⟩ => some (m, found)
  | _ => none

/-- Why a volume is to be mounted: the policy is on, or a request names it. -/
inductive Wanted (incoming : Option Incoming) (m : Memory) (volume : StorageVolume) :
    Caller → Bool → Prop
  | policy : m.autoMount = true → Wanted incoming m volume .policy volume.readOnly
  | request {identifier : List Char} {readOnly : Bool} :
      incoming = some (.call (.mount identifier readOnly)) →
      requestName identifier = some volume.name → Wanted incoming m volume .request readOnly

/-- What a command may be issued for, after a scan with the memory `m`. -/
inductive Issued (before : StorageLog) (m : Memory) (volume : StorageVolume) :
    Caller → Command → Prop
  | mount {caller : Caller} {readOnly : Bool} : volume.mounted = false →
      Wanted (before.latest arrived) m volume caller readOnly →
      [⟨.usable caller volume.name volume.source, true⟩,
        ⟨.prepareTarget caller volume.name volume.preferredMountPoint, true⟩] <:+ before →
      Issued before m volume caller
        (.mount (mountOptions (readOnly || volume.readOnly)) volume.source
          volume.preferredMountPoint)
  | umount {identifier : List Char} :
      before.latest arrived = some (.call (.unmount identifier)) →
      requestName identifier = some volume.name → volume.mounted = true → volume.managed = true →
      Issued before m volume .request (.umount volume.mountPoint)

/-- A command is for a volume of the last scan. -/
def Justified (before : StorageLog) : StorageStep → Prop
  | ⟨.run caller name command, _⟩ => ∃ m found volume, before.latest scanned = some (m, found) ∧
      volume ∈ scan m.errors found ∧ volume.name = name ∧ Issued before m volume caller command
  | _ => True

/-- Every command was justified; with what has arrived last and what was found last. -/
structure Ready (incoming : Option Incoming) (shown : Option (Memory × BlockClass))
    (log : StorageLog) : Prop where
  justified : log.Each Justified
  incoming : log.latest arrived = incoming
  shown : log.latest scanned = shown

section Steps

variable {incoming : Option Incoming} {shown : Option (Memory × BlockClass)}
    {history log : StorageLog}
  {m m' : Memory} {x : StorageStep}

theorem Ready.step (h : Ready incoming shown history) (hx : Justified history x) :
    Ready ((arrived x).or incoming) ((scanned x).or shown) (history ++ [x]) where
  justified := h.justified.concat hx
  incoming := by rw [List.latest_concat, h.incoming]
  shown := by rw [List.latest_concat, h.shown]

theorem Ready.quiet (h : Ready incoming shown history) (hx : Justified history x)
    (harrived : arrived x = none) (hscanned : scanned x = none) :
    Ready incoming shown (history ++ [x]) := by
  have hstep := h.step hx
  rwa [harrived, hscanned, Option.none_or, Option.none_or] at hstep

/-- Once the node and the place of a volume were checked, its mount command may be issued. -/
theorem MountRun.ready {caller : Caller} {volume : StorageVolume} {readOnly mounted : Bool}
    {m₀ : Memory} {found : BlockClass} (hrun : MountRun caller volume readOnly m log mounted m')
    (h : Ready incoming (some (m₀, found)) history) (hvolume : volume ∈ scan m₀.errors found)
    (hwanted : Wanted incoming m₀ volume caller readOnly) :
    Ready incoming (some (m₀, found)) (history ++ log) := by
  have hcommand : ∀ {source target : List Char} {command : Command} (result : Int),
      volume.Mounts readOnly source target command → Ready incoming (some (m₀, found)) (history ++
        [⟨.usable caller volume.name source, true⟩,
          ⟨.prepareTarget caller volume.name target, true⟩,
          ⟨.run caller volume.name command, result⟩]) := by
    rintro source target command result ⟨hmounted, rfl, rfl, rfl⟩
    have hprepared : Ready incoming (some (m₀, found)) (history ++
        [⟨.usable caller volume.name volume.source, true⟩] ++
          [⟨.prepareTarget caller volume.name volume.preferredMountPoint, true⟩]) :=
      (h.quiet (by exact trivial) rfl rfl).quiet (by exact trivial) rfl rfl
    rw [List.append_cons, List.append_cons]
    refine hprepared.quiet ?_ rfl rfl
    refine ⟨m₀, found, volume, hprepared.shown, hvolume, rfl, .mount hmounted ?_ ⟨history, ?_⟩⟩
    · rw [hprepared.incoming]
      exact hwanted
    · rw [List.append_cons]
  cases hrun with
  | mounted => rwa [List.append_nil]
  | unusable source => exact h.quiet (by exact trivial) rfl rfl
  | unprepared source target =>
    rw [List.append_cons]
    exact (h.quiet (by exact trivial) rfl rfl).quiet (by exact trivial) rfl rfl
  | failed source target command result _ hmounts => exact hcommand result hmounts
  | done source target command hmounts => exact hcommand 0 hmounts

/-- An unmount that a request asks for. -/
theorem UnmountRun.ready {volume : StorageVolume} {result : UnmountResult} {identifier : List Char}
    {m₀ : Memory} {found : BlockClass} (hrun : UnmountRun volume m log result m')
    (h : Ready (some (.call (.unmount identifier))) (some (m₀, found)) history)
    (hvolume : volume ∈ scan m₀.errors found) (hname : requestName identifier = some volume.name) :
    Ready (some (.call (.unmount identifier))) (some (m₀, found)) (history ++ log) := by
  have hcommand : ∀ {target : List Char} (code : Int), volume.Leaves target →
      Justified history ⟨.run .request volume.name (.umount target), code⟩ := by
    rintro target code ⟨hmounted, hmanaged, rfl⟩
    exact ⟨m₀, found, volume, h.shown, hvolume, rfl, .umount h.incoming hname hmounted hmanaged⟩
  cases hrun with
  | idle => rwa [List.append_nil]
  | failed target code _ hleaves => exact h.quiet (hcommand code hleaves) rfl rfl
  | done target hleaves => exact h.quiet (hcommand 0 hleaves) rfl rfl

theorem mountAll_ready {volumes : List StorageVolume} {m₀ : Memory} {found : BlockClass} {u : Unit}
    (hdoes : Does (mountAll volumes) m log u m') (h : Ready incoming (some (m₀, found)) history)
    (hvolumes : volumes ⊆ scan m₀.errors found) (hauto : m₀.autoMount = true) :
    Ready incoming (some (m₀, found)) (history ++ log) := by
  induction volumes generalizing m history log with
  | nil =>
    obtain ⟨rfl, -, rfl⟩ := does_pure.mp hdoes
    rwa [List.append_nil]
  | cons volume volumes ih =>
    obtain ⟨hvolume, hrest⟩ := List.cons_subset.mp hvolumes
    unfold mountAll at hdoes
    have hget := does_get_bind.mp hdoes
    split_ifs at hget
    · exact ih hget h hrest
    · obtain ⟨mounted, m₁, log₁, log₂, rfl, hmount, hafter⟩ :=
        does_bind.mp (does_modify_bind.mp hget)
      rw [← List.append_assoc]
      exact ih hafter ((mountVolume_run hmount).ready h hvolume (.policy hauto)) hrest

/-! ## The cache -/

/-- Every command was justified, and the cache is what the last scan has shown. -/
def Shows (incoming : Option Incoming) (log : StorageLog) (m : Memory) : Prop :=
  ∃ shown, Ready incoming shown log ∧ ∀ volume ∈ m.cache, ∃ m₀ found, shown = some (m₀, found) ∧
    volume ∈ scan m₀.errors found

/-- A step that is no command, with a change of something else than the cache. -/
theorem Shows.step (h : Shows incoming history m) (hx : Justified history x)
    (hscanned : scanned x = none) (hcache : m'.cache = m.cache) :
    Shows ((arrived x).or incoming) (history ++ [x]) m' := by
  obtain ⟨shown, hready, hshown⟩ := h
  have hnext := hready.step hx
  rw [hscanned, Option.none_or] at hnext
  exact ⟨shown, hnext, hcache ▸ hshown⟩

theorem Shows.quiet (h : Shows incoming history m) (hx : Justified history x)
    (harrived : arrived x = none) (hscanned : scanned x = none) (hcache : m'.cache = m.cache) :
    Shows incoming (history ++ [x]) m' := by
  have hstep := h.step hx hscanned hcache
  rwa [harrived, Option.none_or] at hstep

theorem ConfigRun.shows (hrun : ConfigRun m log m') (h : Shows incoming history m) :
    Shows incoming (history ++ log) m' := by
  cases hrun with
  | loaded => rwa [List.append_nil]
  | read config => exact h.quiet (by exact trivial) rfl rfl rfl

theorem RefreshRun.shows {purpose : Purpose} (hrun : RefreshRun purpose m log m')
    (h : Shows incoming history m) : Shows incoming (history ++ log) m' := by
  cases hrun with
  | @single m₁ log₁ found hconfig =>
    obtain ⟨shown, hready, -⟩ := hconfig.shows h
    have hscan := hready.step (x := ⟨.scan purpose m₁, found⟩) trivial
    rw [← List.append_assoc]
    exact ⟨_, hscan, fun volume hvolume => ⟨m₁, found, rfl, hvolume⟩⟩
  | @policy m₁ m₂ log₁ log₂ found found' hconfig _ hauto hmounts =>
    obtain ⟨shown, hready, -⟩ := hconfig.shows h
    have hscan := hready.step (x := ⟨.scan purpose m₁, found⟩) trivial
    have hmounted := mountAll_ready hmounts hscan (List.Subset.refl _) hauto
    have hagain := hmounted.step (x := ⟨.scan .cache m₂, found'⟩) trivial
    rw [← List.append_assoc, ← List.append_assoc, ← List.append_assoc]
    exact ⟨_, hagain, fun volume hvolume => ⟨m₂, found', rfl, hvolume⟩⟩

end Steps

/-! ## Requests -/

section Requests

variable (incoming : Option Incoming)

theorem shows_step {m m' : Memory} {x : StorageStep} (hx : ∀ history, Justified history x)
    (harrived : arrived x = none) (hscanned : scanned x = none) (hcache : m'.cache = m.cache) :
    Maintains (Shows incoming) m [x] m' :=
  fun history h => h.quiet (hx history) harrived hscanned hcache

theorem shows_silent {m m' : Memory} (hcache : m'.cache = m.cache) :
    Maintains (Shows incoming) m [] m' := by
  rintro history ⟨shown, hready, hshown⟩
  rw [List.append_nil]
  exact ⟨shown, hready, hcache ▸ hshown⟩

theorem shows_refresh (purpose : Purpose) : Keeps (Maintains (Shows incoming)) (refresh purpose) :=
  fun _ _ _ _ hdoes _ h => (refresh_run hdoes).shows h

theorem shows_parts : Parts (Maintains (Shows incoming)) where
  composes := .maintains _
  saved _ _ := shows_step incoming (fun _ => trivial) rfl rfl rfl
  unsaved _ _ := shows_step incoming (fun _ => trivial) rfl rfl rfl
  refresh _ := shows_refresh incoming _

theorem shows_sends : Sends (Maintains (Shows incoming)) where
  reply _ _ _ := shows_step incoming (fun _ => trivial) rfl rfl rfl
  changed _ _ := shows_step incoming (fun _ => trivial) rfl rfl rfl

theorem shows_confirm (name : List Char) :
    Keeps (Maintains (Shows incoming)) (confirmMount name) := by
  have hC := Composes.maintains (Shows incoming)
  unfold confirmMount
  refine Keeps.bind hC (.modify fun _ => shows_silent incoming rfl) fun _ =>
    Keeps.bind hC (shows_refresh incoming _) fun _ => .get_bind fun m => ?_
  split
  · exact Keeps.pure hC _
  · exact Keeps.bind hC (.modify fun _ => shows_silent incoming rfl) fun _ =>
      Keeps.bind hC (shows_refresh incoming _) fun _ => Keeps.pure hC _

variable {incoming}

/-- A volume of the cache is a volume of the last scan. -/
theorem Shows.of_find {history : StorageLog} {m : Memory} {name : List Char}
    {volume : StorageVolume}
    (h : Shows incoming history m) (hfind : find m.cache name = some volume) :
    ∃ m₀ found, Ready incoming (some (m₀, found)) history ∧ m.cache ⊆ scan m₀.errors found ∧
      volume ∈ scan m₀.errors found ∧ volume.name = name := by
  obtain ⟨shown, hready, hshown⟩ := h
  have hmem := List.mem_of_find?_eq_some hfind
  have hname : (volume.name == name) = true :=
    List.find?_some (p := fun x : StorageVolume => x.name == name) hfind
  obtain ⟨m₀, found, rfl, hvolume⟩ := hshown volume hmem
  refine ⟨m₀, found, hready, fun other hother => ?_, hvolume, beq_iff_eq.mp hname⟩
  obtain ⟨m₁, found₁, heq, hmem₁⟩ := hshown other hother
  cases heq
  exact hmem₁

theorem Ready.shows {history : StorageLog} {m m' : Memory} {m₀ : Memory} {found : BlockClass}
    (h : Ready incoming (some (m₀, found)) history) (hcache : m'.cache = m.cache)
    (hshown : m.cache ⊆ scan m₀.errors found) : Shows incoming history m' :=
  ⟨_, h, fun _ hvolume => ⟨m₀, found, rfl, hshown (hcache ▸ hvolume)⟩⟩

/-- A request acts on the volume that it names. -/
theorem shows_dispatch (request : StorageRequest) :
    Keeps (Maintains (Shows (some (.call request)))) (dispatch request) := by
  have hparts := shows_parts (some (.call request))
  cases request with
  | listVolumes fresh => exact hparts.buildList fresh
  | getState => exact hparts.buildList false
  | refresh => exact hparts.buildList true
  | mount identifier readOnly =>
    refine hparts.buildMount _ _ ?_ (shows_confirm _)
    intro name volume m log mounted m' hname hfind hdoes history h
    obtain ⟨m₀, found, hready, hshown, hvolume, rfl⟩ := h.of_find hfind
    have hrun := mountVolume_run hdoes
    exact (hrun.ready hready hvolume (.request rfl hname)).shows (by cases hrun <;> rfl) hshown
  | unmount identifier =>
    refine hparts.buildUnmount _ ?_
    intro name volume m log result m' hname hfind hdoes history h
    obtain ⟨m₀, found, hready, hshown, hvolume, rfl⟩ := h.of_find hfind
    have hrun := unmountVolume_run hdoes
    exact (hrun.ready hready hvolume hname).shows (by cases hrun <;> rfl) hshown
  | setConfig enabled => exact hparts.buildConfig enabled
  | other => exact hparts.pure _

end Requests

/-! ## Runs -/

/-- A turn answers what has arrived. -/
theorem turn_shows {incoming : Option Incoming} {m m' : Memory} {log history : StorageLog}
    {go : Bool} (hdoes : Does turn m log go m') (h : Shows incoming history m) :
    ∃ incoming, Shows incoming (history ++ log) m' := by
  unfold turn at hdoes
  obtain ⟨next, log₁, rfl, hrest⟩ := does_ask_bind.mp hdoes
  have hnext : ∀ {m₁ : Memory}, m₁.cache = m.cache →
      Shows (some next) (history ++ [⟨.next, next⟩]) m₁ :=
    fun hcache => h.step (x := ⟨.next, next⟩) trivial rfl hcache
  have hrefresh : Keeps (Maintains (Shows (some next)))
      (refreshAndTell >>= fun _ => (Pure.pure true : StorageM Bool)) :=
    (shows_parts _).bind ((shows_parts _).refreshAndTell (shows_sends _)) fun _ =>
      (shows_parts _).pure _
  refine ⟨some next, ?_⟩
  rw [List.append_cons]
  cases next with
  | timeout => exact hrefresh _ _ _ _ hrest _ (hnext rfl)
  | uevent name =>
    cases name with
    | none => exact hrefresh _ _ _ _ hrest _ (hnext rfl)
    | some name => exact hrefresh _ _ _ _ hrest _ (hnext rfl)
  | call request =>
    exact (shows_parts _).processCall (shows_sends _) (shows_dispatch request) _ _ _ _ hrest
      _ (hnext rfl)

theorem served_shows {log : StorageLog} {m : Memory} {go : Bool} (h : Served log m go) :
    ∃ incoming, Shows incoming log m := by
  induction h with
  | start hdoes =>
    have hstart : Shows none [] {} :=
      ⟨none, ⟨List.Each.nil, rfl, rfl⟩, fun _ hvolume => nomatch hvolume⟩
    exact ⟨none, (shows_parts _).refreshAndTell (shows_sends _) _ _ _ _ hdoes [] hstart⟩
  | turn _ hdoes ih =>
    obtain ⟨incoming, hshows⟩ := ih
    exact turn_shows hdoes hshows

/-- In every run, a command is issued only for a volume that the last scan offers, and only where
    the policy or the request that is answered wants it. -/
theorem commands_issued {log before after : StorageLog} {m : Memory} {go : Bool} {caller : Caller}
    {name : List Char} {command : Command} {code : Int} (h : Served log m go)
    (hlog : log = before ++ ⟨.run caller name command, code⟩ :: after) :
    ∃ m₀ found volume, before.latest scanned = some (m₀, found) ∧ volume ∈ scan m₀.errors found ∧
      volume.name = name ∧ Offered found volume ∧ Issued before m₀ volume caller command := by
  obtain ⟨incoming, shown, hready, -⟩ := served_shows h
  obtain ⟨m₀, found, volume, hshown, hvolume, hname, hissued⟩ := hready.justified.at hlog
  exact ⟨m₀, found, volume, hshown, hvolume, hname, scan_offered hvolume, hissued⟩

/-- The partition, and a request to unmount it. -/
def unmounting : (o : StorageOp) → o.Ret :=
  stick (.call (.unmount ("storage:".toList ++ crowdName 0))) true true

/-- The request unmounts the path that the mount table shows with an escape. -/
theorem commands_issued_unmounting : ∃ m₀ found volume,
    ((serve unmounting 1).1.take 6).latest scanned = some (m₀, found) ∧
      volume ∈ scan m₀.errors found ∧ volume.name = crowdName 0 ∧ Offered found volume ∧
      Issued ((serve unmounting 1).1.take 6) m₀ volume .request (.umount "/media/a b".toList) :=
  have hlog : (serve unmounting 1).1 = (serve unmounting 1).1.take 6 ++
      ⟨.run .request (crowdName 0) (.umount "/media/a b".toList), 0⟩ ::
        (serve unmounting 1).1.drop 7 := by rfl
  commands_issued (serve_served unmounting 1) hlog

end MsysHal.Native.Storage
