import MsysHal.ForStd.Since
import MsysHal.Spec.AutoMount

/-!
# A manual unmount is respected

A volume that a request has unmounted is remembered until a refresh does not find it or a
request mounts it again. The list has a bound, and an entry that does not fit is dropped,
but this list always has room: it holds names of the cache only, and the volume that is
unmounted is in the cache.

## Key results

- `Respects`: the list against the cache and against what has happened
- `unmountVolume_respects`: there is room for the volume
- `unmount_respected`: no automatic mount command after a manual unmount
-/

namespace MsysHal.Native.Storage

open Interleave (Does Log Keeps Composes Maintains does_pure does_bind does_ask_bind does_get_bind
  does_modify_bind)

/-! ## Events -/

/-- A umount command for the volume that succeeded. -/
def unmounted (name : List Char) : StorageStep → Bool
  | ⟨.run .request volume (.umount _), code⟩ => volume == name && code == (0 : Int)
  | _ => false

/-- What ends the suppression: the scan at the end of a refresh that does not show the
    volume, or the refresh after a request has mounted it. -/
def lifts (name : List Char) : StorageStep → Bool
  | ⟨.scan .policy m, found⟩ => !m.autoMount && !(scan m.errors found).any (·.name == name)
  | ⟨.scan .cache m, found⟩ => !(scan m.errors found).any (·.name == name)
  | ⟨.scan (.confirm volume) m, found⟩ =>
    volume == name || !(scan m.errors found).any (·.name == name)
  | _ => false

/-- Whether the volume was unmounted by a request and is still to be left alone. -/
def held (name : List Char) (log : StorageLog) : Bool := log.since (unmounted name) (lifts name)

/-! ## The list -/

/-- The list of the memory holds what is to be left alone, but for a volume that is being
    mounted again, and nothing that is not in the cache. -/
structure Respects (excepted : Option (List Char)) (log : StorageLog) (m : Memory) : Prop where
  room : m.cache.length ≤ maxStorageVolumes
  listed : ∀ name ∈ m.suppressed.names, name ∈ m.cache.map (·.name)
  kept : ∀ name, some name ≠ excepted → held name log = true → name ∈ m.suppressed.names
  never : ∀ name, log.Never (unmounted name) (lifts name) (isAttempt name)

section Steps

variable {excepted : Option (List Char)} {log : StorageLog} {m m' : Memory} {x : StorageStep}

/-- A step that keeps the list and the cache. -/
theorem Respects.quiet (h : Respects excepted log m) (hstart : ∀ name, unmounted name x = false)
    (hattempt : ∀ name, isAttempt name x = false) : Respects excepted (log ++ [x]) m where
  room := h.room
  listed := h.listed
  kept name hname hheld := by
    rw [held, List.since_concat, hstart, Bool.false_or, Bool.and_eq_true] at hheld
    exact h.kept name hname hheld.1
  never name := (h.never name).concat fun hbad => by rw [hattempt] at hbad; cases hbad

/-- A change of what is neither the list nor the cache. -/
theorem Respects.move (h : Respects excepted log m) (hsuppressed : m'.suppressed = m.suppressed)
    (hcache : m'.cache = m.cache) : Respects excepted log m' :=
  ⟨hcache ▸ h.room, by rw [hsuppressed, hcache]; exact h.listed, by rw [hsuppressed]; exact h.kept,
    h.never⟩

/-- An automatic mount command for a volume that is not in the list. -/
theorem Respects.attempt {name : List Char} {command : Command} {result : Int}
    (h : Respects none log m) (hname : name ∉ m.suppressed.names) :
    Respects none (log ++ [⟨.run .policy name command, result⟩]) m where
  room := h.room
  listed := h.listed
  kept other hother hheld := by
    rw [held, List.since_concat, show unmounted other ⟨.run .policy name command, result⟩ =
      false from rfl, Bool.false_or, Bool.and_eq_true] at hheld
    exact h.kept other hother hheld.1
  never other := (h.never other).concat fun hbad => by
    obtain rfl := beq_iff_eq.mp hbad
    rw [← Bool.not_eq_true]
    exact fun hheld => hname (h.kept _ nofun hheld)

/-- There is room in the list for a volume of the cache. -/
theorem Respects.mem_add {volume : StorageVolume} (h : Respects none log m)
    (hvolume : volume ∈ m.cache) (name : List Char) : name ∈ (m.suppressed.add volume.name).names ↔
      name ∈ m.suppressed.names ∨ name = volume.name := by
  by_cases hmem : volume.name ∈ m.suppressed.names
  · rw [NameList.add, dif_neg fun hfresh => hfresh.2 hmem]
    exact ⟨.inl, fun hname => hname.elim id fun heq => heq ▸ hmem⟩
  · have hdistinct : (volume.name :: m.suppressed.names).Nodup :=
      List.nodup_cons.mpr ⟨hmem, m.suppressed.distinct⟩
    have hsubset : volume.name :: m.suppressed.names ⊆ m.cache.map (·.name) :=
      List.cons_subset.mpr ⟨List.mem_map_of_mem hvolume, h.listed⟩
    have hlength := (hdistinct.subperm hsubset).length_le
    have hroom := h.room
    rw [List.length_cons, List.length_map] at hlength
    rw [NameList.add_names (by omega) hmem, List.mem_append, List.mem_singleton]

/-- A umount command for a volume of the cache. -/
theorem Respects.unmount {volume : StorageVolume} {target : List Char} (h : Respects none log m)
    (hvolume : volume ∈ m.cache) (hsuppressed : m'.suppressed = m.suppressed.add volume.name)
    (hcache : m'.cache = m.cache) :
    Respects none (log ++ [⟨.run .request volume.name (.umount target), (0 : Int)⟩]) m' where
  room := hcache ▸ h.room
  listed name hname := by
    rw [hsuppressed, h.mem_add hvolume] at hname
    rw [hcache]
    exact hname.elim (h.listed name) fun heq => heq ▸ List.mem_map_of_mem hvolume
  kept name hname hheld := by
    rw [hsuppressed, h.mem_add hvolume]
    rw [held, List.since_concat, Bool.or_eq_true, Bool.and_eq_true] at hheld
    cases hheld with
    | inl hstart =>
      rw [unmounted, Bool.and_eq_true, beq_iff_eq] at hstart
      exact .inr hstart.1.symm
    | inr hbefore => exact .inl (h.kept name hname hbefore.1)
  never name := (h.never name).concat nofun

/-- The end of a refresh: the list loses what the scan does not show, and the volume that
    a request has mounted need not be excepted any more. -/
theorem Respects.observed (purpose : Purpose) (h : Respects excepted log m) (found : BlockClass)
    (hpurpose : ¬(purpose = .policy ∧ m.autoMount = true))
    (hexcepted : ∀ name, excepted = some name → purpose = .confirm name) :
    Respects none (log ++ [⟨.scan purpose m, found⟩]) (m.observed (scan m.errors found)) where
  room := scan_bounded _ _
  listed name hname := List.contains_iff_mem.mp (List.mem_filter.mp hname).2
  kept name _ hheld := by
    rw [held, List.since_concat, show unmounted name ⟨.scan purpose m, found⟩ = false from rfl,
      Bool.false_or, Bool.and_eq_true, Bool.not_eq_true'] at hheld
    obtain ⟨hbefore, hlifts⟩ := hheld
    have hshown : (scan m.errors found).any (·.name == name) = true ∧ some name ≠ excepted := by
      cases purpose with
      | policy =>
        have hauto : m.autoMount = false := by
          rw [← Bool.not_eq_true]
          exact fun hauto => hpurpose ⟨rfl, hauto⟩
        rw [lifts, hauto, Bool.not_false, Bool.true_and, Bool.not_eq_false'] at hlifts
        exact ⟨hlifts, fun heq => nomatch hexcepted name heq.symm⟩
      | cache =>
        rw [lifts, Bool.not_eq_false'] at hlifts
        exact ⟨hlifts, fun heq => nomatch hexcepted name heq.symm⟩
      | confirm other =>
        rw [lifts, Bool.or_eq_false_iff, Bool.not_eq_false', beq_eq_false_iff_ne] at hlifts
        refine ⟨hlifts.2, fun heq => hlifts.1 ?_⟩
        exact Purpose.confirm.inj (hexcepted name heq.symm)
    obtain ⟨volume, hvolume, heq⟩ := List.any_eq_true.mp hshown.1
    refine List.mem_filter.mpr ⟨h.kept name hshown.2 hbefore, ?_⟩
    rw [← beq_iff_eq.mp heq]
    exact List.contains_iff_mem.mpr (List.mem_map_of_mem hvolume)
  never name := (h.never name).concat nofun

end Steps

/-! ## Refreshes -/

section Refreshes

variable {excepted : Option (List Char)} {history log : StorageLog} {m m' : Memory}

theorem ConfigRun.respects (hrun : ConfigRun m log m') (h : Respects excepted history m) :
    Respects excepted (history ++ log) m' := by
  cases hrun with
  | loaded => rwa [List.append_nil]
  | read config => exact (h.quiet (fun _ => rfl) fun _ => rfl).move rfl rfl

/-- A mount, which the policy tries only for a volume that is not in the list. -/
theorem MountRun.respects {caller : Caller} {volume : StorageVolume} {readOnly mounted : Bool}
    (hrun : MountRun caller volume readOnly m log mounted m') (h : Respects none history m)
    (hname : caller = .policy → volume.name ∉ m.suppressed.names) :
    Respects none (history ++ log) m' := by
  have hquiet : ∀ {log : StorageLog} {x : StorageStep}, (∀ name, unmounted name x = false) →
      (∀ name, isAttempt name x = false) → Respects none log m → Respects none (log ++ [x]) m :=
    fun hstart hattempt h => h.quiet hstart hattempt
  have hcommand : ∀ {log : StorageLog} {source target : List Char} {command : Command}
      {result : Int}, volume.Mounts readOnly source target command → Respects none log m →
        Respects none (log ++ [⟨.run caller volume.name command, result⟩]) m := by
    rintro log source target _ result ⟨-, -, -, rfl⟩ h
    cases caller with
    | policy => exact h.attempt (hname rfl)
    | request => exact h.quiet (fun _ => rfl) fun _ => rfl
  cases hrun with
  | mounted => rwa [List.append_nil]
  | unusable source => exact (hquiet (fun _ => rfl) (fun _ => rfl) h).move rfl rfl
  | unprepared source target =>
    rw [List.append_cons]
    exact (hquiet (fun _ => rfl) (fun _ => rfl) (hquiet (fun _ => rfl) (fun _ => rfl) h)).move
      rfl rfl
  | failed source target command result _ hmount =>
    rw [List.append_cons, List.append_cons]
    exact (hcommand hmount (hquiet (fun _ => rfl) (fun _ => rfl)
      (hquiet (fun _ => rfl) (fun _ => rfl) h))).move rfl rfl
  | done source target command hmount =>
    rw [List.append_cons, List.append_cons]
    exact (hcommand hmount (hquiet (fun _ => rfl) (fun _ => rfl)
      (hquiet (fun _ => rfl) (fun _ => rfl) h))).move rfl rfl

theorem mountAll_respects {volumes : List StorageVolume} {u : Unit}
    (hdoes : Does (mountAll volumes) m log u m') (h : Respects none history m) :
    Respects none (history ++ log) m' := by
  induction volumes generalizing m history log with
  | nil =>
    obtain ⟨rfl, -, rfl⟩ := does_pure.mp hdoes
    rwa [List.append_nil]
  | cons volume volumes ih =>
    unfold mountAll at hdoes
    have hget := does_get_bind.mp hdoes
    split_ifs at hget with hskips
    · exact ih hget h
    · obtain ⟨mounted, m₁, log₁, log₂, rfl, hmount, hrest⟩ :=
        does_bind.mp (does_modify_bind.mp hget)
      have hname : volume.name ∉ m.suppressed.names := by
        simp only [Memory.skips, NameList.contains, Bool.or_eq_true, List.contains_eq_mem,
          decide_eq_true_eq, not_or] at hskips
        exact hskips.2
      rw [← List.append_assoc]
      refine ih hrest ((mountVolume_run hmount).respects (h.move rfl rfl) fun _ => hname)

theorem RefreshRun.respects {purpose : Purpose} (hrun : RefreshRun purpose m log m')
    (h : Respects excepted history m)
    (hexcepted : ∀ name, excepted = some name → purpose = .confirm name) :
    Respects none (history ++ log) m' := by
  cases hrun with
  | single found hconfig hpurpose =>
    rw [← List.append_assoc]
    exact (hconfig.respects h).observed purpose found hpurpose hexcepted
  | @policy m₁ m₂ log₁ log₂ found found' hconfig hpurpose hauto hmounts =>
    have hnone : excepted = none := by
      cases excepted with
      | none => rfl
      | some name => exact nomatch hpurpose.symm.trans (hexcepted name rfl)
    subst hnone
    have hscan :=
      (hconfig.respects h).quiet (x := ⟨.scan purpose m₁, found⟩) (fun _ => rfl) fun _ => rfl
    have hobserved := (mountAll_respects hmounts hscan).observed .cache found' nofun nofun
    simpa only [List.append_assoc] using hobserved

end Refreshes

/-! ## Requests -/

/-- The invariant as a relation of a part of a run. -/
abbrev KeepsList : Memory → StorageLog → Memory → Prop := Maintains (Respects none)

theorem keepsList_refresh (purpose : Purpose) : Keeps KeepsList (refresh purpose) :=
  fun _ _ _ _ hdoes _ h => (refresh_run hdoes).respects h nofun

/-- A step that is no command, with a change of what is neither the list nor the cache. -/
theorem keepsList_step {m m' : Memory} {x : StorageStep} (hstart : ∀ name, unmounted name x = false)
    (hattempt : ∀ name, isAttempt name x = false) (hsuppressed : m'.suppressed = m.suppressed)
    (hcache : m'.cache = m.cache) : KeepsList m [x] m' := fun _ h =>
  (h.quiet hstart hattempt).move hsuppressed hcache

/-- The request that mounts a volume excepts it until the refresh that confirms the mount. -/
theorem keepsList_confirm (name : List Char) : Keeps KeepsList (confirmMount name) := by
  have hC : Composes KeepsList := .maintains _
  intro m log reply m' hdoes history h
  unfold confirmMount at hdoes
  obtain ⟨changed, m₁, log₁, log₂, rfl, hrefresh, hafter⟩ :=
    does_bind.mp (does_modify_bind.mp hdoes)
  have hremoved : Respects (some name) history
      { m with suppressed := m.suppressed.remove name } := by
    refine ⟨h.room, fun other hother => h.listed other (List.mem_of_mem_erase hother), ?_, h.never⟩
    intro other hother hheld
    have hne : other ≠ name := fun heq => hother (congrArg some heq)
    exact (List.mem_erase_of_ne hne).mpr (h.kept other (Option.some_ne_none other) hheld)
  have hconfirmed := (refresh_run hrefresh).respects hremoved fun other heq =>
    congrArg Purpose.confirm (Option.some.inj heq)
  rw [← List.append_assoc]
  have hfound := does_get_bind.mp hafter
  split at hfound
  · exact Keeps.pure hC _ _ _ _ _ hfound _ hconfirmed
  · refine Keeps.bind hC (.modify fun m history h => ?_) (fun _ =>
      Keeps.bind hC (keepsList_refresh _) fun _ => Keeps.pure hC _) _ _ _ _ hfound _ hconfirmed
    rw [List.append_nil]
    exact h.move rfl rfl

/-- A umount command for a volume of the cache. -/
theorem UnmountRun.respects {volume : StorageVolume} {history log : StorageLog} {m m' : Memory}
    {result : UnmountResult} (hrun : UnmountRun volume m log result m')
    (h : Respects none history m)
    (hvolume : volume ∈ m.cache) : Respects none (history ++ log) m' := by
  cases hrun with
  | idle => rwa [List.append_nil]
  | failed target code hcode =>
    have hstart : ∀ other, unmounted other
        ⟨.run .request volume.name (.umount target), code⟩ = false := by
      intro other
      rw [unmounted, beq_eq_false_iff_ne.mpr hcode, Bool.and_false]
    exact (h.quiet hstart fun _ => rfl).move rfl rfl
  | done target => exact h.unmount hvolume rfl rfl

/-! ## Runs -/

theorem keepsList_parts : Parts KeepsList where
  composes := .maintains _
  saved _ _ := keepsList_step (fun _ => rfl) (fun _ => rfl) rfl rfl
  unsaved _ _ := keepsList_step (fun _ => rfl) (fun _ => rfl) rfl rfl
  refresh _ := keepsList_refresh _

theorem keepsList_quiet : Quiet KeepsList where
  timeout _ := keepsList_step (fun _ => rfl) (fun _ => rfl) rfl rfl
  call _ _ := keepsList_step (fun _ => rfl) (fun _ => rfl) rfl rfl
  uevent _ name := by
    cases name with
    | none => exact keepsList_step (fun _ => rfl) (fun _ => rfl) rfl rfl
    | some name => exact keepsList_step (fun _ => rfl) (fun _ => rfl) rfl rfl
  reply _ _ _ := keepsList_step (fun _ => rfl) (fun _ => rfl) rfl rfl
  changed _ _ := keepsList_step (fun _ => rfl) (fun _ => rfl) rfl rfl

theorem keepsList_turns : Turns KeepsList := by
  have hmount := fun identifier readOnly => keepsList_parts.buildMount identifier readOnly
    (fun _ _ _ _ _ _ _ _ hdoes _ h => (mountVolume_run hdoes).respects h nofun)
    keepsList_confirm
  have hunmount := fun identifier => keepsList_parts.buildUnmount identifier
    fun _ _ _ _ _ _ _ hfind hdoes _ h =>
      (unmountVolume_run hdoes).respects h (List.mem_of_find?_eq_some hfind)
  exact keepsList_parts.turns keepsList_quiet (keepsList_parts.dispatch hmount hunmount)

/-- After a request has unmounted a volume, the policy issues no mount command for it until a
    refresh has ended with a scan that does not show it, or a request has mounted it. -/
theorem unmount_respected {log before middle after : StorageLog} {m : Memory} {go : Bool}
    {name : List Char} {x y : StorageStep} (h : Served log m go)
    (hlog : log = before ++ x :: (middle ++ y :: after)) (hx : unmounted name x = true)
    (hy : isAttempt name y = true) : ∃ z ∈ middle, lifts name z = true := by
  have hstart : Respects none [] {} := by
    refine ⟨Nat.zero_le _, fun _ hname => (nomatch hname), fun _ _ hheld => (nomatch hheld), ?_⟩
    exact fun name => List.Each.nil
  have hrespects := keepsList_turns.served h [] hstart
  rw [List.nil_append] at hrespects
  exact (hrespects.never name).exists_stop hlog hx hy

/-! ### A volume that is unmounted, pulled out and put back -/

/-- A run with an environment for the start and one for each turn, the last one first. -/
def serveEach (first : (o : StorageOp) → o.Ret) :
    List ((o : StorageOp) → o.Ret) → StorageLog × Memory × Bool
  | [] => serve first 0
  | answer :: earlier =>
    let run := serveEach first earlier
    if run.2.2 then
      let next := turn.follow (S := storageSig) answer run.2.1
      (run.1 ++ next.2, next.1.2, next.1.1)
    else run

theorem serveEach_served (first : (o : StorageOp) → o.Ret)
    (answers : List ((o : StorageOp) → o.Ret)) :
    Served (serveEach first answers).1 (serveEach first answers).2.1
      (serveEach first answers).2.2 := by
  induction answers with
  | nil => exact serve_served first 0
  | cons answer earlier ih =>
    rw [serveEach]
    split_ifs with hgo
    · rw [hgo] at ih
      exact .turn ih (Does.of_follow (S := storageSig) answer turn (serveEach first earlier).2.1)
    · exact ih

/-- Mounted at the start, unmounted by a request, pulled out, and put back. -/
def putBack : StorageLog × Memory × Bool :=
  serveEach (stick .timeout true false) [stick .timeout true false, stick .timeout false false,
    stick (.call (.unmount ("storage:".toList ++ crowdName 0))) true true]

/-- The scan that does not show the volume comes between its unmount and the next mount. -/
theorem unmount_respected_putBack :
    ∃ z ∈ (putBack.1.take 21).drop 10, lifts (crowdName 0) z = true :=
  unmount_respected (serveEach_served _ _)
    (List.split_at_two (i := 9) (j := 21) (by decide) (by decide +kernel)) (by decide +kernel)
    (by decide +kernel)

end MsysHal.Native.Storage
