import MsysHal.ForStd.List
import MsysHal.Spec.Storage

/-!
# Automatic mounting tries an insertion once

A volume that the policy tried is remembered until a scan does not show it, the
kernel names it, or automatic mounting is turned on again. The list of attempts has
a bound, and an attempt is remembered while there is room for all the volumes that
a refresh is about to try.

## Key results

- `mountAll_remembers`: the mounts of one refresh
- `remembers_kept`, `automount_once`: what is tried twice was released in between
- `automount_repeats`: with 33 volumes one is tried at each refresh
-/

namespace MsysHal.Native.Storage

open Interleave (Does Log Keeps Composes Maintains does_pure does_bind does_get_bind
  does_modify_bind)

/-! ## Attempts -/

/-- An automatic mount command for the volume. -/
def isAttempt (name : List Char) : StorageStep → Bool
  | ⟨.run .policy volume _, _⟩ => volume == name
  | _ => false

/-- What makes the next attempt one of its own: a scan without the volume, an event
    of the kernel that names it, or automatic mounting that is turned on. -/
def releases (name : List Char) : StorageStep → Bool
  | ⟨.scan _ m, found⟩ => !(scan m.errors found).any (·.name == name)
  | ⟨.next, .uevent (some volume)⟩ => volume == name
  | ⟨.saveConfig m true, true⟩ => !m.autoMount
  | _ => false

/-- Whether the volume was tried and nothing has released it since. -/
def pending (name : List Char) (log : StorageLog) : Bool :=
  log.foldl (fun tried x => isAttempt name x || tried && !releases name x) false

theorem pending_concat (name : List Char) (log : StorageLog) (x : StorageStep) :
    pending name (log ++ [x]) = (isAttempt name x || pending name log && !releases name x) := by
  rw [pending, List.foldl_append]
  rfl

theorem pending_of_attempt {name : List Char} {x : StorageStep} (hx : isAttempt name x = true)
    (before : StorageLog) {middle : StorageLog} (h : ∀ z ∈ middle, releases name z = false) :
    pending name (before ++ x :: middle) = true := by
  induction middle using List.reverseRecOn with
  | nil => rw [pending_concat, hx, Bool.true_or]
  | append_singleton middle z ih =>
    rw [← List.cons_append, ← List.append_assoc, pending_concat,
      ih fun z hz => h z (List.mem_append_left _ hz),
      h z (List.mem_append_right _ (List.mem_singleton_self z))]
    exact Bool.or_true _

/-- No attempt of the log was made while one was pending. -/
def TriesOnce (log : StorageLog) : Prop :=
  ∀ before x, before ++ [x] <+: log → ∀ name, isAttempt name x = true → pending name before = false

theorem triesOnce_concat {log : StorageLog} {x : StorageStep} : TriesOnce (log ++ [x]) ↔
    TriesOnce log ∧ ∀ name, isAttempt name x = true → pending name log = false := by
  constructor
  · intro h
    exact ⟨fun before y hbefore => h before y (hbefore.trans (List.prefix_append log [x])),
      h log x (List.prefix_refl _)⟩
  · rintro ⟨h, hx⟩ before y hbefore
    rcases List.prefix_concat_iff.mp hbefore with heq | hbefore
    · obtain ⟨rfl, hyx⟩ := List.append_inj' heq rfl
      cases hyx
      exact hx
    · exact h before y hbefore

/-! ## The memory remembers -/

/-- The attempts that are pending are in the list, and none of them was repeated. -/
structure Remembers (log : StorageLog) (m : Memory) : Prop where
  kept : ∀ name, pending name log = true → name ∈ m.attempted.names
  once : TriesOnce log

theorem Remembers.concat {log : StorageLog} {m m' : Memory} {x : StorageStep} (h : Remembers log m)
    (hx : ∀ name, isAttempt name x = false)
    (hm : ∀ name ∈ m.attempted.names, releases name x = false → name ∈ m'.attempted.names) :
    Remembers (log ++ [x]) m' where
  kept name hpending := by
    rw [pending_concat, hx, Bool.false_or, Bool.and_eq_true, Bool.not_eq_true'] at hpending
    exact hm name (h.kept name hpending.1) hpending.2
  once := triesOnce_concat.mpr ⟨h.once, fun name hname => by rw [hx] at hname; cases hname⟩

/-- A step that is no attempt and leaves the list as it is. -/
theorem Remembers.quiet {log : StorageLog} {m : Memory} {x : StorageStep} (h : Remembers log m)
    (hx : ∀ name, isAttempt name x = false) : Remembers (log ++ [x]) m :=
  h.concat hx fun _ hname _ => hname

/-- A list that keeps its names keeps the attempts. -/
theorem Remembers.mono {log : StorageLog} {m m' : Memory} (h : Remembers log m)
    (hm : ∀ name ∈ m.attempted.names, name ∈ m'.attempted.names) : Remembers log m' :=
  ⟨fun name hname => hm name (h.kept name hname), h.once⟩

/-- An attempt of a volume that was not in the list before and is there now. -/
theorem Remembers.attempt {log : StorageLog} {m m' : Memory} {name : List Char} {command : Command}
    {result : Int} (h : Remembers log m) (hname : name ∉ m.attempted.names)
    (hm : m'.attempted.names = m.attempted.names ++ [name]) :
    Remembers (log ++ [⟨.run .policy name command, result⟩]) m' where
  kept other hpending := by
    rw [pending_concat, Bool.or_eq_true] at hpending
    rw [hm, List.mem_append, List.mem_singleton]
    rcases hpending with hother | hother
    · exact .inr (beq_iff_eq.mp hother).symm
    · exact .inl (h.kept other (Bool.and_eq_true_iff.mp hother).1)
  once := triesOnce_concat.mpr ⟨h.once, fun other hother => by
    rw [← beq_iff_eq.mp hother]
    exact Bool.eq_false_iff.mpr fun hpending => hname (h.kept _ hpending)⟩

/-! ## Refreshes -/

/-- The volumes that the policy is about to try. -/
def Memory.fresh (m : Memory) (volumes : List StorageVolume) : List StorageVolume :=
  volumes.filter fun volume => !m.skips volume

theorem NameList.add_names {list : NameList} {name : List Char}
    (hroom : list.names.length < maxStorageVolumes) (hname : name ∉ list.names) :
    (list.add name).names = list.names ++ [name] := by
  rw [NameList.add, dif_pos ⟨hroom, hname⟩]

theorem Memory.fresh_length_le {m m' : Memory} (hsuppressed : m'.suppressed = m.suppressed)
    (hattempted : ∀ name ∈ m.attempted.names, name ∈ m'.attempted.names)
    (volumes : List StorageVolume) : (m'.fresh volumes).length ≤ (m.fresh volumes).length := by
  refine (List.monotone_filter_right volumes fun volume => ?_).length_le
  simp only [Memory.skips, NameList.contains, Bool.not_or, hsuppressed]
  intro hskips
  simp only [Bool.and_eq_true, Bool.not_eq_true', List.contains_eq_mem,
    decide_eq_false_iff_not] at *
  exact ⟨⟨hskips.1.1, fun hname => hskips.1.2 (hattempted _ hname)⟩, hskips.2⟩

/-- A mount of the policy, for which there was room in the list. -/
theorem MountRun.remembers {volume : StorageVolume} {history log : StorageLog} {m m₁ m' : Memory}
    {readOnly mounted : Bool} (hrun : MountRun .policy volume readOnly m₁ log mounted m')
    (h : Remembers history m)
    (hname : volume.name ∉ m.attempted.names)
    (hm : m₁.attempted.names = m.attempted.names ++ [volume.name]) :
    Remembers (history ++ log) m' := by
  have hmono : ∀ name ∈ m.attempted.names, name ∈ m₁.attempted.names :=
    fun name hmem => by rw [hm]; exact List.mem_append_left _ hmem
  cases hrun with
  | mounted =>
    rw [List.append_nil]
    exact h.mono hmono
  | unusable source => exact (h.quiet fun _ => rfl).mono hmono
  | unprepared source target =>
    rw [List.append_cons]
    exact ((h.quiet fun _ => rfl).quiet fun _ => rfl).mono hmono
  | failed source target command result =>
    rw [List.append_cons, List.append_cons]
    exact ((h.quiet fun _ => rfl).quiet fun _ => rfl).attempt hname hm
  | done source target command =>
    rw [List.append_cons, List.append_cons]
    exact ((h.quiet fun _ => rfl).quiet fun _ => rfl).attempt hname hm

/-- The mounts of a refresh, when there is room for all that it tries. -/
theorem mountAll_remembers {volumes : List StorageVolume} {history log : StorageLog} {m m' : Memory}
    {u : Unit} (hdoes : Does (mountAll volumes) m log u m') (h : Remembers history m)
    (hroom : m.attempted.names.length + (m.fresh volumes).length ≤ maxStorageVolumes) :
    Remembers (history ++ log) m' := by
  -- Induction on the volumes; each attempt takes one free slot.
  induction volumes generalizing m history log with
  | nil =>
    obtain ⟨rfl, -, rfl⟩ := does_pure.mp hdoes
    rwa [List.append_nil]
  | cons volume volumes ih =>
    unfold mountAll at hdoes
    have hget := does_get_bind.mp hdoes
    split_ifs at hget with hskips
    -- A volume that is skipped takes no slot.
    · rw [Memory.fresh, List.filter_cons_of_neg (by rw [hskips]; decide)] at hroom
      exact ih hget h hroom
    · rw [Bool.not_eq_true] at hskips
      rw [Memory.fresh, List.filter_cons_of_pos (by rw [hskips]; decide), List.length_cons] at hroom
      obtain ⟨mounted, m₁, log₁, log₂, rfl, hmount, hrest⟩ :=
        does_bind.mp (does_modify_bind.mp hget)
      -- The name is new, so it is noted behind the others.
      have hname : volume.name ∉ m.attempted.names := by
        simp only [Memory.skips, NameList.contains, Bool.or_eq_false_iff, List.contains_eq_mem,
          decide_eq_false_iff_not] at hskips
        exact hskips.1.2
      have hadd : (m.attempted.add volume.name).names = m.attempted.names ++ [volume.name] :=
        NameList.add_names (by omega) hname
      have hrun := mountVolume_run hmount
      have hmemory : m₁.attempted = m.attempted.add volume.name ∧ m₁.suppressed = m.suppressed := by
        cases hrun <;> exact ⟨rfl, rfl⟩
      have hfresh := Memory.fresh_length_le hmemory.2
        (fun name hmem => by rw [hmemory.1, hadd]; exact List.mem_append_left _ hmem) volumes
      rw [← List.append_assoc]
      refine ih hrest (hrun.remembers h hname hadd) ?_
      rw [hmemory.1, hadd, List.length_append, List.length_singleton]
      rw [Memory.fresh] at hfresh ⊢
      rw [Memory.fresh] at hfresh
      omega

/-- A refresh has room for all that it is about to try. -/
def Roomy : StorageStep → Prop
  | ⟨.scan .policy m, found⟩ => m.autoMount = true →
      m.attempted.names.length + (m.fresh (scan m.errors found)).length ≤ maxStorageVolumes
  | _ => True

/-- The memory remembers, as long as all refreshes have had room. -/
def RemembersRoomy (log : StorageLog) (m : Memory) : Prop := (∀ x ∈ log, Roomy x) → Remembers log m

theorem ConfigRun.remembers {history log : StorageLog} {m m' : Memory} (hrun : ConfigRun m log m')
    (h : Remembers history m) : Remembers (history ++ log) m' := by
  cases hrun with
  | loaded => rwa [List.append_nil]
  | read config => exact (h.quiet fun _ => rfl).mono fun _ hname => hname

/-- The end of a refresh forgets only what its last scan does not show. -/
theorem Remembers.observed {log : StorageLog} {m : Memory} (h : Remembers log m) (purpose : Purpose)
    (found : BlockClass) :
    Remembers (log ++ [⟨.scan purpose m, found⟩]) (m.observed (scan m.errors found)) := by
  refine h.concat (fun _ => rfl) fun name hname hreleases => List.mem_filter.mpr ⟨hname, ?_⟩
  simp only [releases, Bool.not_eq_false', List.any_eq_true, beq_iff_eq] at hreleases
  obtain ⟨volume, hvolume, rfl⟩ := hreleases
  exact List.contains_iff_mem.mpr (List.mem_map_of_mem hvolume)

theorem RefreshRun.remembers {purpose : Purpose} {history log : StorageLog} {m m' : Memory}
    (hrun : RefreshRun purpose m log m') (h : Remembers history m) (hroom : ∀ x ∈ log, Roomy x) :
    Remembers (history ++ log) m' := by
  cases hrun with
  | single found hconfig =>
    rw [← List.append_assoc]
    exact (hconfig.remembers h).observed purpose found
  | @policy m₁ m₂ log₁ log₂ found found' hconfig hpurpose hauto hmounts =>
    subst hpurpose
    have hscan := (hconfig.remembers h).quiet (x := ⟨.scan .policy m₁, found⟩) fun _ => rfl
    have hroom : Roomy ⟨.scan .policy m₁, found⟩ := hroom _ (by simp)
    have hmounted := mountAll_remembers hmounts hscan (hroom hauto)
    have hobserved := hmounted.observed .cache found'
    simpa only [List.append_assoc] using hobserved

theorem remembers_refresh (purpose : Purpose) :
    Keeps (Maintains RemembersRoomy) (refresh purpose) := by
  intro m log changed m' hdoes history h hroom
  exact (refresh_run hdoes).remembers (h fun x hx => hroom x (List.mem_append_left _ hx))
    fun x hx => hroom x (List.mem_append_right _ hx)

/-! ## The other steps -/

/-- One step that is no attempt, with a change of the memory that forgets no more than
    the step releases. -/
theorem remembers_step {m m' : Memory} {x : StorageStep} (hx : ∀ name, isAttempt name x = false)
    (hm : ∀ name ∈ m.attempted.names, releases name x = false → name ∈ m'.attempted.names) :
    Maintains RemembersRoomy m [x] m' := fun _ h hroom =>
  (h fun y hy => hroom y (List.mem_append_left _ hy)).concat hx hm

/-- Steps that are no attempts and leave the list as it is. -/
theorem remembers_steps {m m' : Memory} {log : StorageLog}
    (hlog : ∀ x ∈ log, ∀ name, isAttempt name x = false)
    (hm : m'.attempted = m.attempted) : Maintains RemembersRoomy m log m' := by
  induction log with
  | nil =>
    intro history h hroom
    rw [List.append_nil] at hroom ⊢
    exact (h hroom).mono fun name hname => hm ▸ hname
  | cons x log ih =>
    refine (Composes.maintains RemembersRoomy).append
      (show Maintains RemembersRoomy m [x] m from ?_)
      (ih fun y hy => hlog y (List.mem_cons_of_mem _ hy))
    exact remembers_step (hlog x List.mem_cons_self) fun _ hname _ => hname

theorem remembers_kept : Kept (Maintains RemembersRoomy) where
  composes := .maintains _
  timeout m := remembers_step (fun _ => rfl) fun _ hname _ => hname
  call m request := remembers_step (fun _ => rfl) fun _ hname _ => hname
  uevent m name := by
    cases name with
    | none => exact remembers_step (fun _ => rfl) fun _ hname _ => hname
    -- A uevent releases its own volume and no other.
    | some volume =>
      refine remembers_step (fun _ => rfl) fun name hname hreleases => ?_
      have hne : name ≠ volume := fun heq => by
        rw [releases, heq, beq_self_eq_true] at hreleases
        cases hreleases
      exact (List.mem_erase_of_ne hne).mpr hname
  reply m reply sent := remembers_step (fun _ => rfl) fun _ hname _ => hname
  changed m m' := remembers_step (fun _ => rfl) fun _ hname _ => hname
  saved m enabled := by
    refine remembers_step (fun _ => rfl) fun name hname hreleases => ?_
    cases enabled with
    | false => exact hname
    -- Switching the policy on releases every volume, switching it off none.
    | true =>
      rw [releases, Bool.not_eq_false'] at hreleases
      simpa [Memory.withAutoMount, hreleases] using hname
  unsaved m enabled := remembers_step (fun _ => rfl) fun _ hname _ => hname
  refresh _ := remembers_refresh _
  mount volume readOnly := by
    intro m log mounted m' hdoes
    have hrun := mountVolume_run hdoes
    refine remembers_steps ?_ (by cases hrun <;> rfl)
    cases hrun <;> simp [isAttempt]
  unmount volume := by
    intro m log result m' hdoes
    have hrun := unmountVolume_run hdoes
    refine remembers_steps ?_ (by cases hrun <;> rfl)
    cases hrun <;> simp [isAttempt]
  confirm name := by
    have hR := Composes.maintains RemembersRoomy
    unfold confirmMount
    refine Keeps.bind hR (.modify fun m => remembers_steps (by simp) rfl) fun _ =>
      Keeps.bind hR (remembers_refresh _) fun _ => .get_bind fun m => ?_
    split
    · exact Keeps.pure hR _
    · exact Keeps.bind hR (.modify fun m => remembers_steps (by simp) rfl) fun _ =>
        Keeps.bind hR (remembers_refresh _) fun _ => Keeps.pure hR _

/-- Between two automatic mount commands of one volume there is a scan without it, an
    event of the kernel that names it, or automatic mounting is turned on, in every run
    whose refreshes have room for all that they try. -/
theorem automount_once {log before middle after : StorageLog} {m : Memory} {go : Bool}
    {name : List Char} {x y : StorageStep} (h : Served log m go) (hroom : ∀ z ∈ log, Roomy z)
    (hlog : log = before ++ x :: (middle ++ y :: after)) (hx : isAttempt name x = true)
    (hy : isAttempt name y = true) : ∃ z ∈ middle, releases name z = true := by
  have hnil : RemembersRoomy [] {} := fun _ =>
    ⟨fun _ hname => (by cases hname), fun before x hbefore => by simp at hbefore⟩
  have hremembers := remembers_kept.served h [] hnil hroom
  rw [List.nil_append] at hremembers
  by_contra hnone
  have hpending := pending_of_attempt hx before fun z hz => by
    rw [← Bool.not_eq_true]
    exact fun hz' => hnone ⟨z, hz, hz'⟩
  have hfalse := hremembers.once (before ++ x :: middle) y
    ⟨after, by rw [hlog]; simp only [List.append_assoc, List.cons_append, List.nil_append]⟩ name hy
  rw [hpending] at hfalse
  cases hfalse

instance : DecidablePred Roomy
  | ⟨.scan .policy _, _⟩ => inferInstanceAs (Decidable (_ → _))
  | ⟨.scan .cache _, _⟩ | ⟨.scan (.confirm _) _, _⟩ | ⟨.next, _⟩ | ⟨.loadConfig, _⟩
  | ⟨.saveConfig _ _, _⟩ | ⟨.usable _ _ _, _⟩ | ⟨.prepareTarget _ _ _, _⟩ | ⟨.run _ _ _, _⟩
  | ⟨.reply _, _⟩ | ⟨.changed _, _⟩ => isTrue trivial

theorem automount_once_reinserted :
    let log := (serve reinserted 1).1
    ∃ z ∈ (log.take 11).drop 5, releases (crowdName 0) z = true :=
  automount_once (serve_served reinserted 1) (by decide +kernel)
    (List.split_at_two (i := 4) (j := 11) (by decide) (by decide +kernel)) (by decide +kernel)
    (by decide +kernel)

/-- The 33rd partition is tried at each refresh. -/
theorem automount_repeats : ∃ log m go name before x middle y after, Served log m go ∧
    log = before ++ x :: (middle ++ y :: after) ∧ isAttempt name x = true ∧
      isAttempt name y = true ∧ ∀ z ∈ middle, releases name z = false :=
  ⟨_, _, _, crowdName 32, _, _, _, _, _, serve_served swapped 2,
    List.split_at_two (i := 104) (j := 111) (by decide) (by decide +kernel), by decide +kernel,
    by decide +kernel, by decide +kernel⟩

end MsysHal.Native.Storage
