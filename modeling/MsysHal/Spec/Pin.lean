import MsysHal.Spec.Routing

/-!
# A manual pin and the requests that start after it

Once a preference for a domain is committed, an inventory that looks the domain up
picks the preferred component and nothing else, so the routes it commits lead
there. What is left is an inventory that looked the domain up before the commit
and commits its routes after it.

The ghost state of a thread counts the events of the run. It records whether all
of the thread's own steps, and whether all lookups of its running inventory, came
after the commit.

## Key results

- `inventory_pinned`, `route_pinned`: what an inventory and a route lookup guarantee
- `Pinned.step`: the routes of the domain lead to the pinned component, step by step
- `pin_governs_routing`: the state calls of later requests go to the pinned component
-/

namespace MsysHal

open Python (Value Runtime)
open Interleave (Prog Issues Path Sat Trail Discipline Pool Label Trace requests)

/-! ## What a thread may rely on -/

/-- The catalog names the component for the domain. -/
def Names (d c : String) (candidates : List Candidate) : Prop :=
  ∃ candidate ∈ candidates, candidate.component = c ∧ candidate.domains.contains d = true

/-- Whether the catalog names the component for the domain. -/
def named (d c : String) (candidates : List Candidate) : Bool :=
  candidates.any fun candidate => candidate.component == c && candidate.domains.contains d

theorem names_of_named {d c : String} {candidates : List Candidate}
    (h : named d c candidates = true) : Names d c candidates := by
  obtain ⟨candidate, hmem, htest⟩ := List.any_eq_true.mp h
  rw [Bool.and_eq_true, beq_iff_eq] at htest
  exact ⟨candidate, hmem, htest⟩

/-- The routes of the domain lead to the component. -/
def LeadTo (d c : String) (routes : Dict String Candidate) : Prop :=
  ∀ x candidate, routes.get? x = some candidate → domainOf x = d → candidate.component = c

/-- What a step tells of the domain is in line with the pin. -/
structure InLine (d c : String) (y : (o : managerSig.Op) × managerSig.Ret o) : Prop where
  catalog : ∀ candidates, catalogStep (some d) y = some candidates → Names d c candidates
  preference : ∀ preferred, preferenceStep d y = some preferred → preferred = some c
  route : ∀ x candidate, y = ⟨.readRoute x, some candidate⟩ → domainOf x = d →
    candidate.component = c

/-- The ghost state of a thread: the number of events of the run, whether all steps
    of the thread came after the commit, and whether all lookups of the domain in
    its running inventory did. -/
structure PinGhost where
  count : Nat
  clean : Bool
  fresh : Bool

/-- Whether a step looks the domain up. -/
def looksUp (d : String) (y : (o : managerSig.Op) × managerSig.Ret o) : Bool :=
  (catalogStep (some d) y).isSome || (preferenceStep d y).isSome

/-- Whether a step is the first of an inventory or a listing. -/
def begins : ManagerOp → Bool
  | .readCatalog _ none => true
  | _ => false

/-- The ghost state after a step of the thread; the commit is event number `n`. -/
def PinGhost.next (d : String) (n : Nat) (t : PinGhost)
    (y : (o : managerSig.Op) × managerSig.Ret o) : PinGhost where
  count := t.count + 1
  clean := t.clean && decide (n < t.count)
  fresh := begins y.1 || (t.fresh && (!looksUp d y || decide (n < t.count)))

/-- The target and the device of a state call. -/
def stateCall : ManagerOp → Option (String × String)
  | .call target method payload _ _ =>
    if method = "get_state" ∨ method = "set_state" then
      match payload.get? "id" with
      | some (.str x) => some (target, x)
      | _ => none
    else none
  | _ => none

/-- The discipline of the threads around the commit of a pin, event number `n`: an
    inventory that looked the domain up after it commits routes to the pinned
    component, and a thread that started after it sends its state calls there. -/
def pinDiscipline (d c : String) (n : Nat) : Discipline managerSig PinGhost where
  adv t t' := t.count ≤ t'.count ∧ t'.clean = t.clean ∧ t'.fresh = t.fresh
  guar t o :=
    (∀ routes active, o = .commitRoutes routes active → t.fresh = true → LeadTo d c routes) ∧
    ∀ target x, stateCall o = some (target, x) → domainOf x = d → t.clean = true →
      target = "component:" ++ c
  rely t o r := n < t.count → InLine d c ⟨o, r⟩
  next t o r := t.next d n ⟨o, r⟩

section Keeps

variable {d c : String} {n : Nat}

theorem pin_quiet (t : PinGhost) (o : ManagerOp) (ho : Unrouted o) :
    (pinDiscipline d c n).guar t o := by
  refine ⟨fun routes active heq => absurd heq (ho.ne_commitRoutes routes active), ?_⟩
  intro target x hcall
  cases o with
  | call target' method payload timeoutMs idempotent =>
    have hmethod : ¬(method = "get_state" ∨ method = "set_state") := not_or.mpr ho
    rw [stateCall, if_neg hmethod] at hcall
    exact nomatch hcall
  | _ => exact nomatch hcall

/-- The lookups of a stretch of an inventory that is fresh at its end are in line
    with the pin. -/
theorem inLine_of_trail {t t' : PinGhost} {log : ManagerLog}
    (h : Trail (pinDiscipline d c n) t log t') (hfresh : t'.fresh = true)
    (hlog : ∀ y ∈ log, begins y.1 = false) :
    t.fresh = true ∧ ∀ y ∈ log, looksUp d y = true → InLine d c y := by
  induction h with
  | nil t => exact ⟨hfresh, fun y hy => nomatch hy⟩
  | @cons t t₁ t₂ o r log hadv hrely _ ih =>
    rw [List.forall_mem_cons] at hlog
    obtain ⟨hnext, hrest⟩ := ih hfresh hlog.2
    have hstep : (t₁.fresh && (!looksUp d ⟨o, r⟩ || decide (n < t₁.count))) = true := by
      have hnext' : (begins o || (t₁.fresh && (!looksUp d ⟨o, r⟩ || decide (n < t₁.count)))) =
          true := hnext
      rwa [hlog.1, Bool.false_or] at hnext'
    rw [Bool.and_eq_true] at hstep
    refine ⟨hadv.2.2 ▸ hstep.1, List.forall_mem_cons.mpr ⟨fun hlooks => ?_, hrest⟩⟩
    rw [hlooks, Bool.not_true, Bool.false_or, decide_eq_true_eq] at hstep
    exact hrely hstep.2

theorem orderCandidates_pinned {candidates : List Candidate} (h : Names d c candidates) :
    ∃ candidate, candidate.component = c ∧
      orderCandidates (candidates.filter (·.domains.contains d)) (some c) =
        ([candidate], .manual) := by
  obtain ⟨candidate, hmem, rfl, hd⟩ := h
  unfold orderCandidates
  cases hfind : (candidates.filter (·.domains.contains d)).find?
      (·.component == candidate.component) with
  | none =>
    have hnone := List.find?_eq_none.mp hfind candidate (List.mem_filter.mpr ⟨hmem, hd⟩)
    exact absurd (beq_self_eq_true _) hnone
  | some found =>
    have hfound := List.find?_some hfind
    exact ⟨found, beq_iff_eq.mp hfound, by simp only [hfind]⟩

/-- A round for the domain that is in line with the pin takes the pinned component. -/
theorem pickDomain_pinned (rt : Runtime) {log : ManagerLog} {mode : SelectionMode}
    {candidate : Candidate} {answer : Answer}
    (h : Path (S := managerSig) (pickDomain rt d) log (.ok (.active mode candidate answer)))
    (hlog : ∀ y ∈ log, looksUp d y = true → InLine d c y) : candidate.component = c := by
  obtain ⟨candidates, preferred, ⟨y, hy, hcatalog⟩, hpreference, htries⟩ := pickDomain_tries rt h
  have hread : preferenceStep d ⟨.readSelection d, preferred⟩ = some preferred := if_pos rfl
  have hnames := (hlog y hy (by rw [looksUp, hcatalog]; rfl)).catalog candidates hcatalog
  have hpreferred := (hlog _ hpreference (by rw [looksUp, hread, Option.isSome_some, Bool.or_true])
    ).preference preferred hread
  obtain ⟨pinned, hpinned, horder⟩ := orderCandidates_pinned hnames
  rw [hpreferred, horder] at htries
  rcases htries with ⟨mode', heq, -⟩ | ⟨first, rest, mode', log', heq, -, htry⟩
  · exact nomatch heq
  · cases heq
    refine (tryCandidates_active rt htry (P := fun k => k.component = c) ?_ fun _ _ h =>
      nomatch h).1
    intro k hk
    rw [List.mem_singleton.mp hk]
    exact hpinned

theorem inventory_pinned (rt : Runtime) (domains : Option (List String)) (refresh : Bool) :
    Keeps (pinDiscipline d c n) (inventory rt domains refresh) := by
  intro t
  refine (Keeps.of_issues pin_quiet ((refreshCatalog_issues rt refresh none).mono
    fun _ => QuietFor.unrouted) t).bind fun t₁ candidates _ => ?_
  refine (Sat.of_trail (fun t o ho => pin_quiet t o (Looks.unrouted ho))
    (pickDomains_looks rt (domains.getD (availableDomains candidates))) t₁).bind ?_
  rintro t₂ picks ⟨log, hpath, htrail⟩
  have hbegins : ∀ y ∈ log, begins y.1 = false := by
    intro y hy
    have hnone : Issues (S := managerSig) (Silent none)
        (pickDomains rt (domains.getD (availableDomains candidates))) :=
      pickDomains_silent rt fun _ _ h => by cases h
    have hsilent := Path.issues hnone hpath y hy
    obtain ⟨o, r⟩ := y
    cases o with
    | readCatalog force lookup =>
      cases lookup with
      | none => exact absurd rfl hsilent
      | some d => rfl
    | _ => rfl
  refine .step (fun t' hadv => ⟨fun routes active heq hfresh => ?_, ?_⟩) fun t' _ r _ =>
    .pure trivial
  · cases heq
    have hlog := (inLine_of_trail htrail (hadv.2.2 ▸ hfresh) hbegins).2
    intro x candidate hroute hx
    obtain ⟨d', mode, answer, hmem, device, hdevice, rfl⟩ := ofPicks_routes hroute
    obtain ⟨log', hsub, hpick⟩ := (pickDomains_mem rt hpath).2 d' _ hmem
    obtain rfl : d' = d := ((pickDomain_answer rt hpick).devices device hdevice).owner.symm.trans hx
    exact pickDomain_pinned rt hpick fun y hy => hlog y (hsub hy)
  · intro target x hcall
    cases hcall

/-- What `_route` returns to a thread that started after the commit. -/
def RoutedTo (d c x : String) (t : PinGhost) (candidate : Candidate) : Prop :=
  domainOf x = d → t.clean = true → candidate.component = c

/-- The reading of a route. -/
theorem readRoute_pinned (x : String) (t : PinGhost) :
    Sat (pinDiscipline d c n) (fun t' found => ∀ candidate, found = some candidate →
      RoutedTo d c x t' candidate) (fun _ _ => True) (op (.readRoute x)) t := by
  refine Sat.perform (fun t' _ => pin_quiet t' (.readRoute x) trivial) ?_
  rintro t' - found hrely candidate rfl hx hclean
  have hnow : (t'.clean && decide (n < t'.count)) = true := hclean
  rw [Bool.and_eq_true, decide_eq_true_eq] at hnow
  exact (hrely hnow.2).route x candidate rfl hx

theorem route_pinned (rt : Runtime) (x : String) (refresh : Bool) (t : PinGhost) :
    Sat (pinDiscipline d c n) (fun t' candidate => RoutedTo d c x t' candidate) (fun _ _ => True)
      (route rt x refresh) t := by
  have hknown : Sat (pinDiscipline d c n) (fun t' found => ∀ candidate, found = some candidate →
      RoutedTo d c x t' candidate) (fun _ _ => True) (knownRoute x refresh) t := by
    rw [knownRoute]
    split
    · exact .pure fun _ h => by cases h
    · exact readRoute_pinned x t
  refine hknown.bind fun t₁ known hread => ?_
  cases known with
  | some candidate => exact .pure (hread candidate rfl)
  | none =>
    refine (inventory_pinned rt _ refresh t₁).bind fun t₂ _ _ => ?_
    refine (readRoute_pinned x t₂).bind fun t₃ found hfound => ?_
    cases found with
    | some candidate => exact .pure (hfound candidate rfl)
    | none => exact .raise trivial

/-- A state call to the component of the route. -/
private theorem stateCall_pinned {x : String} {o : Candidate → ManagerOp}
    (ho : ∀ candidate, stateCall (o candidate) = some (candidate.target, x)) {t t' : PinGhost}
    {candidate : Candidate} (hrouted : RoutedTo d c x t candidate)
    (hadv : (pinDiscipline d c n).adv t t') :
    (pinDiscipline d c n).guar t' (o candidate) := by
  refine ⟨fun routes active heq => ?_, fun target x' hcall hx hclean => ?_⟩
  · have hcall := ho candidate
    rw [heq] at hcall
    exact nomatch hcall
  · rw [ho, Option.some.injEq, Prod.mk.injEq] at hcall
    obtain ⟨rfl, rfl⟩ := hcall
    rw [candidate.target_eq, hrouted hx (hadv.2.1 ▸ hclean)]

/-- Every thread keeps the discipline. -/
theorem program_pinned (rt : Runtime) (job : Job) : Keeps (pinDiscipline d c n) (job.program rt) :=
  program_keeps pin_quiet (inventory_pinned rt) (route_pinned rt)
    (fun _ _ _ _ hrouted hadv => stateCall_pinned (o := fun k => .call k.target _ _ _ _)
      (fun _ => rfl) hrouted hadv)
    (fun _ _ _ _ _ hrouted hadv => stateCall_pinned (o := fun k => .call k.target _ _ _ _)
      (fun _ => rfl) hrouted hadv) job

end Keeps

/-! ## The state after the commit -/

/-- The preference of the domain is the component, the catalog names it, and the
    routes of the domain lead to it. -/
structure Pinned (d c : String) (s : ManagerState) : Prop where
  preference : s.selections.get? d = some c
  catalog : Names d c s.candidates
  routes : LeadTo d c s.deviceRoutes

/-- What a step does to the routes: it commits others, or drops some. -/
theorem Happens.routes {e : ManagerEvent} (h : Happens e) :
    (∃ routes active, e.op = .commitRoutes routes active ∧ e.after.deviceRoutes = routes) ∨
    ∀ x candidate, e.after.deviceRoutes.get? x = some candidate →
      e.before.deviceRoutes.get? x = some candidate := by
  obtain ⟨tid, o, r, s, s'⟩ := e
  obtain ⟨i, h⟩ := h
  simp only [managerMachine] at h
  cases o <;> simp only [managerExec, Option.some.injEq, Prod.mk.injEq] at h
  -- The routes are replaced.
  case commitRoutes routes active =>
    obtain ⟨_, rfl⟩ := h
    exact .inl ⟨routes, active, rfl, rfl⟩
  case recordEvent notice =>
    simp only [ManagerState.appendEvent, Prod.mk.injEq] at h
    obtain ⟨_, rfl⟩ := h
    exact .inr fun _ _ h => h
  -- The routes of the domain are dropped, if the commit succeeds.
  case commitSelection choice expected =>
    rcases commitSelection_cases s choice expected i.saveError with
      ⟨e, he⟩ | he | ⟨e, he⟩ | ⟨data, _, _, _, he⟩ <;>
      rw [he, Prod.mk.injEq] at h <;> obtain ⟨rfl, rfl⟩ := h
    · exact .inr fun _ _ h => h
    · exact .inr fun _ _ h => h
    · exact .inr fun _ _ h => h
    · exact .inr fun x candidate h => ((Dict.get?_filter _ _ x candidate).mp h).1
  case lockCatalog =>
    split at h
    · cases h
    · simp only [Option.some.injEq, Prod.mk.injEq] at h
      obtain ⟨_, rfl⟩ := h
      exact .inr fun _ _ h => h
  case watch after timeoutMs deadline domains =>
    split at h
    · cases h
    · simp only [Option.some.injEq, Prod.mk.injEq] at h
      obtain ⟨_, rfl⟩ := h
      exact .inr fun _ _ h => h
  case electActive d candidates =>
    obtain ⟨_, rfl⟩ := h
    rw [(electActive_unchanged s d candidates).deviceRoutes]
    exact .inr fun _ _ h => h
  -- All other operations leave the routes as they are.
  all_goals
    obtain ⟨_, rfl⟩ := h
    exact .inr fun _ _ h => h

/-- The commit of the pin. -/
theorem Pinned.of_commit {e : ManagerEvent} (h : Happens e) {choice : Choice}
    {expected : Option Nat} {c : String} (hc : committed e = some (choice, expected))
    (hchoice : choice.component = some c) (hcatalog : Names choice.domain c e.after.candidates) :
    Pinned choice.domain c e.after := by
  obtain ⟨-, -, -, data, -, hafter⟩ := h.commit hc
  refine ⟨?_, hcatalog, ?_⟩
  · rw [hafter]
    change (e.before.selections.apply choice).get? choice.domain = some c
    rw [Selections.get?_apply, if_pos rfl, hchoice]
  · rw [hafter]
    intro x candidate hroute hx
    have hkeep := ((Dict.get?_filter _ _ x candidate).mp hroute).2
    rw [hx, bne_self_eq_false] at hkeep
    exact nomatch hkeep

/-- A step that commits no other preference for the domain, leaves the component in
    the catalog, and commits routes, if at all, that lead to it. -/
theorem Pinned.step {d c : String} {e : ManagerEvent} (hs : Pinned d c e.before) (h : Happens e)
    (hother : ∀ choice expected, committed e = some (choice, expected) → choice.domain ≠ d)
    (hcatalog : Names d c e.after.candidates)
    (hroutes : ∀ routes active, e.op = .commitRoutes routes active → LeadTo d c routes) :
    Pinned d c e.after := by
  refine ⟨?_, hcatalog, ?_⟩
  · cases hc : committed e with
    | none => rw [(h.no_commit hc).1 d, hs.preference]
    | some commit =>
      obtain ⟨choice, expected⟩ := commit
      obtain ⟨-, -, -, data, -, hafter⟩ := h.commit hc
      rw [hafter]
      change (e.before.selections.apply choice).get? d = some c
      rw [Selections.get?_apply, if_neg (hother choice expected hc).symm, hs.preference]
  · rcases h.routes with ⟨routes, active, hop, hafter⟩ | hkept
    · rw [hafter]
      exact hroutes routes active hop
    · exact fun x candidate hroute hx => hs.routes x candidate (hkept x candidate hroute) hx

/-- What a step tells in a pinned state. -/
theorem Pinned.inLine {d c : String} {e : ManagerEvent} (hs : Pinned d c e.before) (h : Happens e)
    (hcatalog : Names d c e.after.candidates) : InLine d c ⟨e.op, e.ret⟩ := by
  obtain ⟨tid, o, r, s, s'⟩ := e
  obtain ⟨i, h⟩ := h
  simp only [managerMachine] at h
  refine ⟨fun candidates hstep => ?_, fun preferred hstep => ?_, fun x candidate heq hx => ?_⟩
  -- A catalog: the one of the state, or the one that is committed here.
  · cases o with
    | readCatalog force lookup =>
      cases r with
      | none => cases hstep
      | some found =>
        have hfound : found = candidates := by
          simp only [catalogStep] at hstep
          split at hstep
          · exact Option.some.inj hstep
          · cases hstep
        simp only [managerExec, Option.some.injEq, Prod.mk.injEq] at h
        obtain ⟨h, -⟩ := h
        split at h
        · rw [← hfound, ← Option.some.inj h]
          exact hs.catalog
        · cases h
    | commitCatalog committed lookup =>
      have hfound : r = candidates := by
        simp only [catalogStep] at hstep
        split at hstep
        · exact Option.some.inj hstep
        · cases hstep
      simp only [managerExec, Option.some.injEq, Prod.mk.injEq] at h
      rw [← hfound, ← h.1]
      rw [← h.2] at hcatalog
      exact hcatalog
    | _ => cases hstep
  -- A preference: the pinned one.
  · cases o with
    | readSelection d' =>
      simp only [preferenceStep] at hstep
      split at hstep
      · next heq =>
        subst heq
        simp only [managerExec, Option.some.injEq, Prod.mk.injEq] at h
        rw [← Option.some.inj hstep, ← h.1]
        exact hs.preference
      · cases hstep
    | _ => cases hstep
  -- A route.
  · cases heq
    simp only [managerExec, Option.some.injEq, Prod.mk.injEq] at h
    exact hs.routes x candidate h.1 hx

/-! ## The pin in a run -/

/-- The ghost state of a thread after a history. -/
def pinGhost (d : String) (n : Nat) (hist : List ManagerEvent) (tid : Nat) : PinGhost :=
  hist.foldl (fun t e =>
    if e.tid = tid then t.next d n ⟨e.op, e.ret⟩ else { t with count := t.count + 1 })
      ⟨0, true, true⟩

theorem pinGhost_append (d : String) (n : Nat) (hist : List ManagerEvent) (e : ManagerEvent)
    (tid : Nat) : pinGhost d n (hist ++ [e]) tid =
      if e.tid = tid then (pinGhost d n hist tid).next d n ⟨e.op, e.ret⟩
      else { pinGhost d n hist tid with count := (pinGhost d n hist tid).count + 1 } := by
  rw [pinGhost, List.foldl_append]
  rfl

theorem pinGhost_count (d : String) (n : Nat) (hist : List ManagerEvent) (tid : Nat) :
    (pinGhost d n hist tid).count = hist.length := by
  induction hist using List.reverseRecOn with
  | nil => rfl
  | append_singleton hist e ih =>
    rw [pinGhost_append, List.length_append, List.length_singleton, ← ih]
    split <;> rfl

/-- A thread all of whose steps came after the commit. -/
theorem pinGhost_clean (d : String) (n : Nat) (hist : List ManagerEvent) (tid : Nat)
    (h : ∀ pre e post, hist = pre ++ e :: post → e.tid = tid → n < pre.length) :
    (pinGhost d n hist tid).clean = true := by
  induction hist using List.reverseRecOn with
  | nil => rfl
  | append_singleton hist e ih =>
    have hclean := ih fun pre e' post heq => h pre e' (post ++ [e]) (by rw [heq]; simp)
    rw [pinGhost_append]
    split
    · next htid =>
      have hlt := h hist e [] rfl htid
      rw [← pinGhost_count d n hist tid] at hlt
      simp only [PinGhost.next, hclean, hlt, decide_true, Bool.and_true]
    · exact hclean

/-- What is asked of the events of a run around event number `n`, the commit of the
    pin: afterwards no other preference for the domain is committed, the component
    stays in the catalog, and no inventory that looked the domain up before commits
    routes for it. -/
def PinRun (d c : String) (n : Nat) (hist : List ManagerEvent) (e : ManagerEvent) : Prop :=
  (hist.length = n → ∃ choice expected, committed e = some (choice, expected) ∧
    choice.domain = d ∧ choice.component = some c) ∧
  (n ≤ hist.length → Names d c e.after.candidates) ∧
  (n < hist.length →
    (∀ choice expected, committed e = some (choice, expected) → choice.domain ≠ d) ∧
    ∀ routes active, e.op = .commitRoutes routes active →
      (pinGhost d n hist e.tid).fresh = true ∨ ∀ x, domainOf x = d → routes.get? x = none)

/-- After the commit the state is pinned. -/
def PinnedAfter (d c : String) (n : Nat) (hist : List ManagerEvent) (s : ManagerState) : Prop :=
  n < hist.length → Pinned d c s

theorem PinnedAfter.step {d c : String} {n : Nat} {hist : List ManagerEvent} {e : ManagerEvent}
    (hs : PinnedAfter d c n hist e.before) (hrun : PinRun d c n hist e)
    (hguar : (pinDiscipline d c n).guar (pinGhost d n hist e.tid) e.op) (h : Happens e) :
    PinnedAfter d c n (hist ++ [e]) e.after := by
  intro hlt
  rw [List.length_append, List.length_singleton] at hlt
  obtain ⟨hcommit, hcatalog, hafter⟩ := hrun
  rcases Nat.eq_or_lt_of_le (Nat.lt_succ_iff.mp hlt) with heq | hlt
  · obtain ⟨choice, expected, hc, rfl, hchoice⟩ := hcommit heq.symm
    exact .of_commit h hc hchoice (hcatalog heq.le)
  · obtain ⟨hother, hroutes⟩ := hafter hlt
    refine (hs hlt).step h hother (hcatalog hlt.le) fun routes active hop => ?_
    rcases hroutes routes active hop with hfresh | hnone
    · exact hguar.1 routes active hop hfresh
    · intro x candidate hroute hx
      rw [hnone x hx] at hroute
      exact nomatch hroute

/-- In a run around the commit of a pin, every thread keeps its guarantees. -/
theorem pin_guarantee {rt : Runtime} {s₀ : ManagerState} {labels : List (Label Job Input)}
    {q : Pool managerSig ManagerState PyError Value} {tr : List ManagerEvent}
    (hrun : managerRun rt ⟨s₀, []⟩ labels = some (q, tr)) {d c : String} {n : Nat}
    (hpin : ∀ pre e post, tr = pre ++ e :: post → PinRun d c n pre e) :
    ∀ pre e post, tr = pre ++ e :: post →
      (pinDiscipline d c n).guar (pinGhost d n pre e.tid) e.op := by
  have hstart : Pool.Keeps (pinDiscipline d c n) (PinnedAfter d c n) (pinGhost d n) []
      (⟨s₀, []⟩ : Pool managerSig ManagerState PyError Value) :=
    ⟨fun h => absurd h (Nat.not_lt_zero n), fun _ _ h => nomatch h⟩
  have hdiscipline := Pool.run_discipline managerMachine (Job.program rt)
    (D := pinDiscipline d c n) (J := PinnedAfter d c n) (g := pinGhost d n) (A := PinRun d c n)
    (fun t => ⟨le_rfl, rfl, rfl⟩)
    (fun t t' t'' h h' => ⟨h.1.trans h'.1, h'.2.1.trans h.2.1, h'.2.2.trans h.2.2⟩)
    (fun hist e tid hne => by
      rw [pinGhost_append, if_neg (Ne.symm hne)]
      exact ⟨Nat.le_succ _, rfl, rfl⟩)
    (fun hist e => by
      rw [pinGhost_append, if_pos rfl]
      rfl)
    (fun hist e i hJ hA he hlt => by
      have hlt' : n < hist.length := pinGhost_count d n hist e.tid ▸ hlt
      exact (hJ hlt').inLine ⟨i, he⟩ (hA.2.1 hlt'.le))
    (fun hist e i hJ hA hguar he => hJ.step hA hguar ⟨i, he⟩)
    (fun hist tid job _ => program_pinned rt job _) hstart (Nat.zero_le _) hrun hpin
  exact fun pre e post htr => (hdiscipline.2.2 pre e post htr).1

/-- Where an event of a run lies relative to another one. -/
private theorem split_around {α : Type} {before after pre post : List α} {y z : α}
    (h : before ++ y :: after = pre ++ z :: post) :
    (∃ rest, before = pre ++ z :: rest) ∨ (pre = before ∧ z = y) ∨
      ∃ pre', pre = before ++ y :: pre' ∧ after = pre' ++ z :: post := by
  rcases List.append_eq_append_iff.mp h with ⟨rest, rfl, hrest⟩ | ⟨rest, rfl, hrest⟩
  · cases rest with
    | nil =>
      cases hrest
      exact .inr (.inl ⟨List.append_nil _, rfl⟩)
    | cons y' pre' =>
      cases hrest
      exact .inr (.inr ⟨pre', rfl, rfl⟩)
  · cases rest with
    | nil =>
      cases hrest
      exact .inr (.inl ⟨(List.append_nil _).symm, rfl⟩)
    | cons z' rest =>
      cases hrest
      exact .inl ⟨rest, rfl⟩

/-- No inventory that looked the domain up before the commit commits routes for the
    domain after it. -/
def NoStaleRoutes (d : String) (before : List ManagerEvent) (commit : ManagerEvent)
    (after : List ManagerEvent) : Prop :=
  ∀ pre e post, after = pre ++ e :: post → ∀ routes active, e.op = .commitRoutes routes active →
    (∃ x, domainOf x = d ∧ routes.get? x ≠ none) →
    (pinGhost d before.length (before ++ commit :: pre) e.tid).fresh = true

/-- In every interleaving, once a pin of a domain has been committed: as long as no
    other preference for the domain is committed and the component stays in the
    catalog with the domain, and no inventory that looked the domain up before the
    commit commits routes for it afterwards, every state call for a device of the
    domain by a request that started after the commit goes to the component. -/
theorem pin_governs_routing (rt : Runtime) (s₀ : ManagerState) (labels : List (Label Job Input))
    (q : Pool managerSig ManagerState PyError Value) (before : List ManagerEvent)
    (commit : ManagerEvent) (after : List ManagerEvent)
    (hrun : managerRun rt ⟨s₀, []⟩ labels = some (q, before ++ commit :: after))
    (choice : Choice) (expected : Option Nat) (c : String)
    (hcommit : committed commit = some (choice, expected)) (hchoice : choice.component = some c)
    (hstays : ∀ e ∈ commit :: after, Names choice.domain c e.after.candidates)
    (hother : ∀ e ∈ after, ∀ choice' expected', committed e = some (choice', expected') →
      choice'.domain ≠ choice.domain)
    (hstale : NoStaleRoutes choice.domain before commit after)
    (e : ManagerEvent) (he : e ∈ after) (hlater : ∀ e' ∈ before ++ [commit], e'.tid ≠ e.tid)
    (target x : String) (hcall : stateCall e.op = some (target, x))
    (hx : domainOf x = choice.domain) : target = "component:" ++ c := by
  have hpin : ∀ pre e post, before ++ commit :: after = pre ++ e :: post →
      PinRun choice.domain c before.length pre e := by
    intro pre e post htr
    -- An event stands before the commit, is the commit, or stands behind it.
    rcases split_around htr with ⟨rest, rfl⟩ | ⟨rfl, rfl⟩ | ⟨pre', rfl, rfl⟩
    · have hlt : pre.length < (pre ++ e :: rest).length := by
        rw [List.length_append, List.length_cons]
        omega
      exact ⟨fun h => by omega, fun h => by omega, fun h => by omega⟩
    · exact ⟨fun _ => ⟨choice, expected, hcommit, rfl, hchoice⟩,
        fun _ => hstays _ List.mem_cons_self, fun h => absurd h (lt_irrefl _)⟩
    · have hmem : e ∈ pre' ++ e :: post := List.mem_append_right _ List.mem_cons_self
      refine ⟨fun h => ?_, fun _ => hstays e (List.mem_cons_of_mem _ hmem), fun _ =>
        ⟨hother e hmem, fun routes active hop => ?_⟩⟩
      · rw [List.length_append, List.length_cons] at h
        omega
      · by_cases hroutes : ∃ x, domainOf x = choice.domain ∧ routes.get? x ≠ none
        · exact .inl (hstale pre' e post rfl routes active hop hroutes)
        · push Not at hroutes
          exact .inr hroutes
  obtain ⟨pre, post, rfl⟩ := List.append_of_mem he
  have hguar := pin_guarantee hrun hpin (before ++ commit :: pre) e post (by
    rw [List.append_assoc, List.cons_append])
  refine hguar.2 target x hcall hx ?_
  -- the thread has done nothing before the commit
  refine pinGhost_clean _ _ _ _ fun pre' e' post' heq htid => ?_
  rcases split_around heq with ⟨rest, rfl⟩ | ⟨rfl, rfl⟩ | ⟨pre'', rfl, rfl⟩
  · have hmem : e' ∈ pre' ++ e' :: rest := List.mem_append_right _ List.mem_cons_self
    exact absurd htid (hlater e' (List.mem_append_left _ hmem))
  · exact absurd htid (hlater e' (List.mem_append_right _ (List.mem_singleton_self _)))
  · rw [List.length_append, List.length_cons]
    omega

namespace Sample

/-- A test for `NoStaleRoutes`, event by event. -/
def fresh (d : String) (n : Nat) : List ManagerEvent → List ManagerEvent → Bool
  | _, [] => true
  | hist, e :: after =>
    (match e.op with
      | .commitRoutes _ _ => (pinGhost d n hist e.tid).fresh
      | _ => true) && fresh d n (hist ++ [e]) after

theorem fresh_elim {d : String} {n : Nat} {hist after : List ManagerEvent}
    (h : fresh d n hist after = true) : ∀ pre e post, after = pre ++ e :: post →
      ∀ routes active, e.op = .commitRoutes routes active →
        (pinGhost d n (hist ++ pre) e.tid).fresh = true := by
  induction after generalizing hist with
  | nil =>
    intro pre e post heq
    simp only [List.nil_eq, List.append_eq_nil_iff, reduceCtorEq, and_false] at heq
  | cons e' after ih =>
    rw [fresh, Bool.and_eq_true] at h
    intro pre e post heq routes active hop
    cases pre with
    | nil =>
      cases heq
      rw [List.append_nil]
      have htest := h.1
      rw [hop] at htest
      exact htest
    | cons e'' pre =>
      cases heq
      have hrest := ih h.2 pre e post rfl routes active hop
      rwa [List.append_assoc] at hrest

/-- What is tested of the events around the commit of the preference of `power`. -/
def pins (c : String) (commit : ManagerEvent) (after : List ManagerEvent) : Bool :=
  ((committed commit).any fun x => x.1.domain == "power" && x.1.component == some c) &&
  ((commit :: after).all fun e => named "power" c e.after.candidates) &&
  (after.all fun e => (committed e).isNone)

theorem pins_elim {c : String} {commit : ManagerEvent} {after : List ManagerEvent}
    (h : pins c commit after = true) : ∃ choice expected,
      committed commit = some (choice, expected) ∧ choice.domain = "power" ∧
      choice.component = some c ∧ (∀ e ∈ commit :: after, Names "power" c e.after.candidates) ∧
      ∀ e ∈ after, ∀ choice' expected', committed e = some (choice', expected') →
        choice'.domain ≠ "power" := by
  simp only [pins, Bool.and_eq_true, List.all_eq_true, Option.isNone_iff_eq_none] at h
  obtain ⟨⟨hcommit, hnames⟩, hnone⟩ := h
  obtain ⟨⟨choice, expected⟩, hc, htest⟩ := (Option.any_eq_true _ _).mp hcommit
  simp only [Bool.and_eq_true, beq_iff_eq] at htest
  refine ⟨choice, expected, hc, htest.1, htest.2, fun e he => names_of_named (hnames e he), ?_⟩
  intro e he choice' expected' hc'
  rw [hnone e he] at hc'
  exact nomatch hc'

/-- Whether the event is a state call for the device by a thread that was not there before. -/
def laterCall (x target : String) (before : List ManagerEvent) (e : ManagerEvent) : Bool :=
  (before.all fun e' => e'.tid != e.tid) && stateCall e.op == some (target, x)

/-- The first client pins the provider, then the second asks for the device. -/
def pinned : List (Label Job Input) :=
  let last : List Input := [{}, { reply := state "a.b:c" "power:main" "power" }]
  .spawn (select "a.b:c" none) :: (selectInputs "a.b:c").map (.step 0) ++
    .spawn read :: (readInputs ++ last).map (.step 1)

/-- An inventory has asked the first provider; a client pins the second; then the
    inventory commits its routes, and another client asks for the device. -/
def overtaken : List (Label Job Input) :=
  let quiet : Input := {}
  let answer (reply : Reply) : Input := { reply := reply }
  let discovered : List Input := [quiet, quiet, quiet, answer (discovery ["a.b:c", "a.b:e"]),
    answer (description "a.b:c" ["power"]), answer (description "a.b:e" ["power"]), quiet, quiet]
  let main : List Value := [device "power:main" "power" []]
  .spawn (.request (.inventory (some ["power"]) false)) ::
    (discovered ++ [quiet, quiet, quiet, answer (inventory "a.b:c" "power" main), quiet, quiet]).map
      (.step 0) ++
  .spawn (select "a.b:e" none) ::
    (discovered ++ [quiet, quiet, answer (inventory "a.b:e" "power" main), quiet, quiet, quiet]).map
      (.step 1) ++
  [.step 0 quiet, .spawn (.request (.getState "power:main" false)), .step 2 quiet, .step 2 quiet]

/-- A run, split at an event. -/
def splitRun (n : Nat) (labels : List (Label Job Input))
    (test : List ManagerEvent → ManagerEvent → List ManagerEvent → Bool) : Bool :=
  (managerRun Runtime.sample ⟨start, []⟩ labels).any fun r =>
    match r.2.drop n with
    | [] => false
    | commit :: after => test (r.2.take n) commit after

theorem splitRun_elim {n : Nat} {labels : List (Label Job Input)}
    {test : List ManagerEvent → ManagerEvent → List ManagerEvent → Bool}
    (h : splitRun n labels test = true) : ∃ q before commit after,
      managerRun Runtime.sample ⟨start, []⟩ labels = some (q, before ++ commit :: after) ∧
      test before commit after = true := by
  obtain ⟨⟨q, tr⟩, hrun, htest⟩ := (Option.any_eq_true _ _).mp h
  dsimp only at htest
  split at htest
  · exact nomatch htest
  · next commit after hdrop =>
    refine ⟨q, tr.take n, commit, after, ?_, htest⟩
    rw [hrun, ← hdrop, List.take_append_drop]

end Sample

set_option maxRecDepth 10000 in
/-- A request that starts after the pin asks the pinned provider. -/
theorem pin_governs_routing_next_request : ∃ q before commit after e target,
    managerRun Runtime.sample ⟨Sample.start, []⟩ Sample.pinned =
      some (q, before ++ commit :: after) ∧ e ∈ after ∧
    stateCall e.op = some (target, "power:main") ∧ target = "component:" ++ "a.b:c" := by
  have heval : Sample.splitRun 12 Sample.pinned (fun before commit after =>
      Sample.pins "a.b:c" commit after &&
      Sample.fresh "power" before.length (before ++ [commit]) after &&
      after.any (Sample.laterCall "power:main" "component:a.b:c" (before ++ [commit]))) = true := by
    decide +kernel
  obtain ⟨q, before, commit, after, hrun, htest⟩ := Sample.splitRun_elim heval
  simp only [Bool.and_eq_true] at htest
  obtain ⟨⟨hpins, hfresh⟩, hcall⟩ := htest
  obtain ⟨choice, expected, hc, hdomain, hchoice, hnames, hother⟩ := Sample.pins_elim hpins
  obtain ⟨e, he, hlater⟩ := List.any_eq_true.mp hcall
  rw [Sample.laterCall, Bool.and_eq_true, List.all_eq_true, beq_iff_eq] at hlater
  refine ⟨q, before, commit, after, e, _, hrun, he, hlater.2, ?_⟩
  refine pin_governs_routing Runtime.sample Sample.start _ q before commit after hrun
    choice expected
    "a.b:c" hc hchoice (hdomain ▸ hnames) (hdomain ▸ hother) ?_ e he
    (fun e' he' => bne_iff_ne.mp (hlater.1 e' he')) _ "power:main" hlater.2 ?_
  · intro pre e' post heq routes active hop _
    have htest := Sample.fresh_elim hfresh pre e' post heq routes active hop
    rw [List.append_assoc] at htest
    exact hdomain ▸ htest
  · rw [hdomain]
    decide

set_option maxRecDepth 10000 in
/-- An inventory that asked the first provider commits its routes after the second
    one has been pinned: the next request is sent to the first one. -/
theorem pin_overtaken : ¬∀ (rt : Runtime) (file : Option ByteArray) (ttl : ℚ) (s₀ : ManagerState),
    ManagerState.init rt file ttl = .ok s₀ →
    ∀ (labels : List (Label Job Input)) (q : Pool managerSig ManagerState PyError Value)
      (before : List ManagerEvent) (commit : ManagerEvent) (after : List ManagerEvent),
      managerRun rt ⟨s₀, []⟩ labels = some (q, before ++ commit :: after) →
    ∀ (choice : Choice) (expected : Option Nat) (c : String),
      committed commit = some (choice, expected) → choice.component = some c →
      (∀ e ∈ commit :: after, Names choice.domain c e.after.candidates) →
      (∀ e ∈ after, ∀ choice' expected', committed e = some (choice', expected') →
        choice'.domain ≠ choice.domain) →
    ∀ e ∈ after, (∀ e' ∈ before ++ [commit], e'.tid ≠ e.tid) →
    ∀ target x, stateCall e.op = some (target, x) → domainOf x = choice.domain →
      target = "component:" ++ c := by
  intro hclaim
  have heval : Sample.splitRun 27 Sample.overtaken (fun before commit after =>
      Sample.pins "a.b:e" commit after &&
      after.any (Sample.laterCall "power:main" "component:a.b:c" (before ++ [commit]))) = true := by
    decide +kernel
  obtain ⟨q, before, commit, after, hrun, htest⟩ := Sample.splitRun_elim heval
  rw [Bool.and_eq_true] at htest
  obtain ⟨hpins, hcall⟩ := htest
  obtain ⟨choice, expected, hc, hdomain, hchoice, hnames, hother⟩ := Sample.pins_elim hpins
  obtain ⟨e, he, hlater⟩ := List.any_eq_true.mp hcall
  rw [Sample.laterCall, Bool.and_eq_true, List.all_eq_true, beq_iff_eq] at hlater
  have htarget := hclaim Runtime.sample none 30 Sample.start Sample.init_start _ q before commit
    after hrun choice expected "a.b:e" hc hchoice (hdomain ▸ hnames) (hdomain ▸ hother) e he
    (fun e' he' => bne_iff_ne.mp (hlater.1 e' he')) _ "power:main" hlater.2
    (by rw [hdomain]; decide)
  exact absurd htarget (by decide)

end MsysHal
