import MsysHal.Spec.Inventory
import MsysHal.Spec.Selection

/-!
# Where the requests for a device go

An inventory asks the providers outside the lock and replaces the whole route
table at its end. The routes it commits follow from the answers it was given: a
device that the provider of its domain lists is routed, and the routes of a
domain lead to the provider that was picked for it.

Other requests run in between. What a request does with a device after it has
committed its own routes is therefore only as good as the commits of the others,
and a commit may be older than the preference that is in force.

## Key results

- `ofPicks_routes`, `ofPicks_isSome`: the routes of an inventory
- `present_device_found`: a device that is always listed is found, unless another
  inventory replaces the routes in between
-/

namespace MsysHal

open Python (Value Runtime)
open Interleave (Prog Issues Path Sat Trail Discipline Pool Label Trace Resumes requests logOf)

/-! ## The routes of an inventory -/

private theorem addDevices_routes {candidate : Candidate} {devices : List Device}
    {listing : Listing} {x : String} {c : Candidate}
    (h : (Listing.addDevices candidate devices listing).routes.get? x = some c) :
    listing.routes.get? x = some c ∨ c = candidate ∧ ∃ device ∈ devices, device.id = x := by
  induction devices generalizing listing with
  | nil => exact .inl h
  | cons device rest ih =>
    rw [Listing.addDevices] at h
    split at h
    · rcases ih h with h | ⟨hc, device', hmem, hid⟩
      · exact .inl h
      · exact .inr ⟨hc, device', List.mem_cons_of_mem _ hmem, hid⟩
    · rcases ih h with h | ⟨hc, device', hmem, hid⟩
      · rw [Dict.get?_set] at h
        split at h
        · next heq =>
          rw [Option.some.injEq] at h
          exact .inr ⟨h.symm, device, List.mem_cons_self, heq.symm⟩
        · exact .inl h
      · exact .inr ⟨hc, device', List.mem_cons_of_mem _ hmem, hid⟩

private theorem ofPicks_routes_from {picks : List (String × Pick)} {listing : Listing} {x : String}
    {c : Candidate} (h : (Listing.ofPicks picks listing).routes.get? x = some c) :
    listing.routes.get? x = some c ∨ ∃ d mode answer, (d, .active mode c answer) ∈ picks ∧
      ∃ device ∈ answer.devices, device.id = x := by
  induction picks generalizing listing with
  | nil => exact .inl h
  | cons pick rest ih =>
    obtain ⟨d, pick⟩ := pick
    have hrest : ∀ {listing' : Listing},
        (Listing.ofPicks rest listing').routes.get? x = some c →
        listing'.routes.get? x = some c ∨ ∃ d' mode answer, (d', .active mode c answer) ∈
          (d, pick) :: rest ∧ ∃ device ∈ answer.devices, device.id = x := by
      intro listing' h
      rcases ih h with h | ⟨d', mode, answer, hmem, hdevice⟩
      · exact .inl h
      · exact .inr ⟨d', mode, answer, List.mem_cons_of_mem _ hmem, hdevice⟩
    cases pick with
    | noProvider mode => exact hrest h
    | failed mode component error => exact hrest h
    | active mode candidate answer =>
      rcases hrest h with h | h
      · rcases addDevices_routes h with h | ⟨rfl, hdevice⟩
        · exact .inl h
        · exact .inr ⟨d, mode, answer, List.mem_cons_self, hdevice⟩
      · exact .inr h

/-- A route leads to a provider that was picked and lists the device. -/
theorem ofPicks_routes {picks : List (String × Pick)} {x : String} {c : Candidate}
    (h : (Listing.ofPicks picks ⟨[], Dict.empty⟩).routes.get? x = some c) :
    ∃ d mode answer, (d, .active mode c answer) ∈ picks ∧
      ∃ device ∈ answer.devices, device.id = x :=
  (ofPicks_routes_from h).resolve_left fun h => nomatch h

private theorem addDevices_isSome {candidate : Candidate} {devices : List Device}
    {listing : Listing} {x : String}
    (h : (listing.routes.get? x).isSome = true ∨ ∃ device ∈ devices, device.id = x) :
    ((Listing.addDevices candidate devices listing).routes.get? x).isSome = true := by
  induction devices generalizing listing with
  | nil => exact h.resolve_right fun ⟨device, hmem, _⟩ => nomatch hmem
  | cons device rest ih =>
    have hsplit : (listing.routes.get? x).isSome = true ∨ device.id = x ∨
        ∃ device ∈ rest, device.id = x := by
      rcases h with h | ⟨device', hmem, hid⟩
      · exact .inl h
      · rcases List.mem_cons.mp hmem with rfl | hmem
        · exact .inr (.inl hid)
        · exact .inr (.inr ⟨device', hmem, hid⟩)
    rw [Listing.addDevices]
    split
    · next hknown =>
      rcases hsplit with h | rfl | h
      · exact ih (.inl h)
      · exact ih (.inl hknown)
      · exact ih (.inr h)
    · refine ih ?_
      rw [Dict.get?_set]
      split
      · exact .inl rfl
      · next hne =>
        rcases hsplit with h | rfl | h
        · exact .inl h
        · exact absurd rfl hne
        · exact .inr h

private theorem ofPicks_isSome_from {picks : List (String × Pick)} {listing : Listing} {x : String}
    (h : (listing.routes.get? x).isSome = true ∨ ∃ d mode c answer,
      (d, .active mode c answer) ∈ picks ∧ ∃ device ∈ answer.devices, device.id = x) :
    ((Listing.ofPicks picks listing).routes.get? x).isSome = true := by
  induction picks generalizing listing with
  | nil => exact h.resolve_right fun ⟨_, _, _, _, hmem, _⟩ => nomatch hmem
  | cons pick rest ih =>
    obtain ⟨d, pick⟩ := pick
    rcases h with h | ⟨d', mode, c, answer, hmem, hdevice⟩
    · cases pick with
      | noProvider mode => exact ih (.inl h)
      | failed mode component error => exact ih (.inl h)
      | active mode candidate answer => exact ih (.inl (addDevices_isSome (.inl h)))
    · rcases List.mem_cons.mp hmem with heq | hrest
      · cases heq
        exact ih (.inl (addDevices_isSome (.inr hdevice)))
      · cases pick <;> exact ih (.inr ⟨d', mode, c, answer, hrest, hdevice⟩)

/-- A device that a picked provider lists is routed. -/
theorem ofPicks_isSome {picks : List (String × Pick)} {x d : String} {mode : SelectionMode}
    {c : Candidate} {answer : Answer} (h : (d, .active mode c answer) ∈ picks)
    (hx : ∃ device ∈ answer.devices, device.id = x) :
    ((Listing.ofPicks picks ⟨[], Dict.empty⟩).routes.get? x).isSome = true :=
  ofPicks_isSome_from (.inr ⟨d, mode, c, answer, h, hx⟩)

/-! ### The answers behind a pick -/

/-- A probe asks the candidate once and returns what its answer is worth. -/
theorem probeCandidate_call (rt : Runtime) {candidate : Candidate} {d : String} {timeoutMs : Nat}
    {log : ManagerLog} {result : Except PyError Answer}
    (h : Path (S := managerSig) (probeCandidate rt candidate d timeoutMs) log result) :
    ∃ reply, ⟨.call candidate.target "inventory" (.object [("domains", strings [d])])
      timeoutMs true, reply⟩ ∈ log ∧ result = acceptedAnswer rt candidate d reply := by
  obtain ⟨started, log₁, rfl, hcall⟩ := op_bind_path h
  obtain ⟨reply, log₂, rfl, hfinish⟩ := op_bind_path hcall
  obtain ⟨finished, log₃, rfl, hrecord⟩ := op_bind_path hfinish
  refine ⟨reply, List.mem_cons_of_mem _ List.mem_cons_self, ?_⟩
  split at hrecord
  all_goals
    obtain ⟨_, log₄, rfl, hend⟩ := op_bind_path hrecord
    cases hend
    simp only [*]

/-- The provider that the failover loop takes is one of the candidates and has given
    an accepted answer. -/
theorem tryCandidates_active (rt : Runtime) {d : String} {mode mode' : SelectionMode}
    {first c : Candidate} {answer : Answer} {P : Candidate → Prop} {candidates : List Candidate}
    {error : Option String} {unavailable : Option (Candidate × Answer)} {log : ManagerLog}
    (h : Path (S := managerSig) (tryCandidates rt d mode first candidates error unavailable) log
      (.ok (.active mode' c answer)))
    (hcandidates : ∀ c ∈ candidates, P c)
    (hunavailable : ∀ c answer, unavailable = some (c, answer) → P c ∧ AnswerOk d answer) :
    P c ∧ AnswerOk d answer := by
  have hlast : ∀ {error : Option String} {unavailable : Option (Candidate × Answer)},
      (.ok (.active mode' c answer) : Except PyError Pick) =
        .ok (lastResort mode first error unavailable) → unavailable = some (c, answer) := by
    intro error unavailable heq
    unfold lastResort at heq
    split at heq
    · cases heq
      rfl
    · exact nomatch heq
  -- Induction on the candidates that are left.
  induction candidates generalizing error unavailable log with
  | nil => exact hunavailable c answer (hlast (Path.of_pure h).2)
  | cons candidate rest ih =>
    rw [List.forall_mem_cons] at hcandidates
    obtain ⟨r, log₁, log₂, rfl, hprobe, hnext⟩ := Path.of_attempt_bind h
    obtain ⟨reply, -, hr⟩ := probeCandidate_call rt hprobe
    cases r with
    | error e =>
      -- An error: a pinned provider ends the loop, else the next candidate is tried.
      dsimp only at hnext
      split at hnext
      · exact hunavailable c answer (hlast (Path.of_pure hnext).2)
      · exact ih hnext hcandidates.2 hunavailable
    | ok answer' =>
      have hok := acceptedAnswer_ok hr.symm
      dsimp only at hnext
      split at hnext
      -- The first answer that is not usable is kept for the end.
      · refine ih hnext hcandidates.2 fun c' answer'' hc' => ?_
        rcases Option.or_eq_some_iff.mp hc' with hc' | ⟨-, hc'⟩
        · exact hunavailable c' answer'' hc'
        · cases hc'
          exact ⟨hcandidates.1, hok⟩
      -- A usable answer is the pick.
      · cases (Path.of_pure hnext).2
        exact ⟨hcandidates.1, hok⟩

/-- The rounds of an inventory, each on its own part of the log. -/
theorem pickDomains_mem (rt : Runtime) {requested : List String} {log : ManagerLog}
    {picks : List (String × Pick)}
    (h : Path (S := managerSig) (pickDomains rt requested) log (.ok picks)) :
    picks.map Prod.fst = requested ∧ ∀ d pick, (d, pick) ∈ picks →
      ∃ log', log' ⊆ log ∧ Path (S := managerSig) (pickDomain rt d) log' (.ok pick) := by
  induction requested generalizing log picks with
  | nil =>
    cases (Path.of_pure h).2
    exact ⟨rfl, fun d pick hmem => nomatch hmem⟩
  | cons d rest ih =>
    rcases Path.of_bind h with ⟨e, he, -⟩ | ⟨pick, log₁, log₂, rfl, hpick, hnext⟩
    · exact nomatch he
    rcases Path.of_bind hnext with ⟨e, he, -⟩ | ⟨picks', log₃, log₄, rfl, hpicks, hreturn⟩
    · exact nomatch he
    obtain ⟨rfl, hresult⟩ := Path.of_pure hreturn
    cases hresult
    obtain ⟨hfst, hmem⟩ := ih hpicks
    refine ⟨by rw [List.map_cons, hfst], fun d' pick' hpick' => ?_⟩
    rcases List.mem_cons.mp hpick' with heq | hpick'
    · cases heq
      exact ⟨log₁, List.subset_append_left _ _, hpick⟩
    · obtain ⟨log', hsub, hpath⟩ := hmem d' pick' hpick'
      refine ⟨log', fun x hx => List.mem_append_right _ ?_, hpath⟩
      rw [List.append_nil]
      exact hsub hx

/-- What a round does: it has read a catalog and a preference for the domain, and
    tries the candidates in the order that follows. -/
theorem pickDomain_tries (rt : Runtime) {d : String} {log : ManagerLog} {pick : Pick}
    (h : Path (S := managerSig) (pickDomain rt d) log (.ok pick)) :
    ∃ candidates preferred, (∃ y ∈ log, catalogStep (some d) y = some candidates) ∧
      ⟨.readSelection d, preferred⟩ ∈ log ∧
      ((∃ mode, orderCandidates (candidates.filter (·.domains.contains d)) preferred = ([], mode) ∧
        pick = .noProvider mode) ∨
      ∃ first rest mode log', orderCandidates (candidates.filter (·.domains.contains d)) preferred =
        (first :: rest, mode) ∧ log' ⊆ log ∧
        Path (S := managerSig) (tryCandidates rt d mode first (first :: rest) none none) log'
          (.ok pick)) := by
  rcases Path.of_bind h with ⟨e, he, -⟩ | ⟨⟨ordered, mode⟩, log₁, log₂, rfl, hordered, htry⟩
  · exact nomatch he
  rcases Path.of_bind hordered with ⟨e, he, -⟩ | ⟨matched, log₃, log₄, rfl, hfor, hread⟩
  · exact nomatch he
  rcases Path.of_bind hfor with ⟨e, he, -⟩ | ⟨candidates, log₅, log₆, rfl, hrefresh, hfilter⟩
  · exact nomatch he
  obtain ⟨rfl, hmatched⟩ := Path.of_pure hfilter
  cases hmatched
  obtain ⟨preferred, log₇, rfl, hreturn⟩ := op_bind_path hread
  obtain ⟨rfl, horder⟩ := Path.of_pure hreturn
  rw [Except.ok.injEq] at horder
  obtain ⟨-, y, hy, hstep⟩ := refreshCatalog_ok rt hrefresh
  refine ⟨candidates, preferred, ⟨y, ?_, hstep⟩, ?_, ?_⟩
  · exact List.mem_append_left _ (List.mem_append_left _ (List.mem_append_left _ hy))
  · exact List.mem_append_left _ (List.mem_append_right _ List.mem_cons_self)
  · cases ordered with
    | nil => exact .inl ⟨mode, horder.symm, (Except.ok.inj (Path.of_pure htry).2)⟩
    | cons first rest =>
      exact .inr ⟨first, rest, mode, log₂, horder.symm, List.subset_append_right _ _, htry⟩

/-- The provider that a round takes has given an accepted answer. -/
theorem pickDomain_answer (rt : Runtime) {d : String} {log : ManagerLog} {mode : SelectionMode}
    {c : Candidate} {answer : Answer}
    (h : Path (S := managerSig) (pickDomain rt d) log (.ok (.active mode c answer))) :
    AnswerOk d answer := by
  obtain ⟨candidates, preferred, -, -, htries⟩ := pickDomain_tries rt h
  rcases htries with ⟨mode', -, heq⟩ | ⟨first, rest, mode', log', -, -, htry⟩
  · exact nomatch heq
  · exact (tryCandidates_active rt htry (P := fun _ => True) (fun _ _ => trivial)
      fun _ _ h => nomatch h).2

/-! ## Disciplines of the requests

A discipline that speaks about the commits of routes and about the state calls is
kept by every request once the inventory and the route lookup keep it. -/

/-- Neither a commit of routes nor a state call. -/
def Unrouted : ManagerOp → Prop
  | .commitRoutes _ _ => False
  | .call _ method _ _ _ => method ≠ "get_state" ∧ method ≠ "set_state"
  | _ => True

theorem QuietFor.unrouted {lookup : Option String} {o : ManagerOp} (h : QuietFor lookup o) :
    Unrouted o := by
  cases o <;> first | exact trivial | exact h

theorem Looks.unrouted {o : ManagerOp} (h : Looks o) : Unrouted o := by
  rcases h with ⟨lookup, h⟩ | ⟨d, rfl⟩
  · exact h.unrouted
  · trivial

theorem Switches.unrouted {choice : String × Option String} {expected : Option Nat} {o : ManagerOp}
    (h : Switches choice expected o) : Unrouted o := by
  rcases h with h | ⟨c, rfl, -⟩
  · exact h.unrouted
  · trivial

theorem recordEvent_issues (notice : Notice) :
    Issues (S := managerSig) Unrouted (recordEvent notice) :=
  (op_issues (o := .recordEvent notice) trivial).bind fun event =>
    (op_issues (o := .emit event) trivial).bind fun _ => pure_issues _

section Jobs

variable {τ : Type} {D : Discipline managerSig τ} {rt : Runtime}

/-- The program keeps the discipline. -/
abbrev Keeps {τ α : Type} (D : Discipline managerSig τ) (p : ManagerProg α) : Prop :=
  ∀ t, Sat D (fun _ _ => True) (fun _ _ => True) p t

theorem Keeps.of_issues (hquiet : ∀ t o, Unrouted o → D.guar t o) {α : Type} {p : ManagerProg α}
    (h : Issues (S := managerSig) Unrouted p) : Keeps D p := fun _ =>
  Sat.of_issues (I := fun _ => True) (fun _ _ _ _ => trivial) (fun t o ho _ => hquiet t o ho)
    (fun _ _ _ _ _ _ => trivial) h trivial

theorem Keeps.bind {α β : Type} {p : ManagerProg α} {f : α → ManagerProg β} (h : Keeps D p)
    (hf : ∀ a, Keeps D (f a)) : Keeps D (p >>= f) :=
  fun t => (h t).bind fun t' a _ => hf a t'

theorem Keeps.attempt {α : Type} {p : ManagerProg α} (h : Keeps D p) : Keeps D p.attempt :=
  fun t => (h t).attempt (fun _ _ _ => trivial) fun _ _ _ => trivial

variable (hquiet : ∀ t o, Unrouted o → D.guar t o) {R : String → τ → Candidate → Prop}
  (hinventory : ∀ domains refresh, Keeps D (inventory rt domains refresh))
  (hroute : ∀ identifier refresh t,
    Sat D (fun t' c => R identifier t' c) (fun _ _ => True) (route rt identifier refresh) t)
  (hget : ∀ identifier t t' c, R identifier t c → D.adv t t' →
    D.guar t' (.call c.target "get_state" (.object [("id", .str identifier)]) 5000 true))
  (hset : ∀ identifier requested t t' c, R identifier t c → D.adv t t' →
    D.guar t' (.call c.target "set_state"
      (.object [("id", .str identifier), ("changes", .dict requested)]) 30000 false))

include hquiet hroute

/-- A state call to the provider of the route, and what follows it. -/
private theorem state_keeps {α : Type} {identifier : String} {refresh : Bool}
    {o : Candidate → ManagerOp} {k : (c : Candidate) → (o c).Ret → ManagerProg α}
    (ho : ∀ t t' c, R identifier t c → D.adv t t' → D.guar t' (o c))
    (hk : ∀ c r, Issues (S := managerSig) Unrouted (k c r)) :
    Keeps D (route rt identifier refresh >>= fun c => op (o c) >>= k c) := by
  intro t
  refine (hroute identifier refresh t).bind fun t' c hc => ?_
  exact .step (fun t'' hadv => ho t' t'' c hc hadv) fun t'' _ r _ =>
    Keeps.of_issues hquiet (hk c r) _

include hget in
theorem getState_keeps (identifier : String) (refresh : Bool) :
    Keeps D (getState rt identifier refresh) := by
  refine state_keeps hquiet hroute (hget identifier) fun c reply => ?_
  refine (check_issues _).bind fun raw => (check_issues _).bind fun state => ?_
  exact (op_issues (o := .readRevision) trivial).bind fun _ => pure_issues _

include hset in
theorem setState_keeps (identifier : String) (requested : List (Value × Value)) :
    Keeps D (setState rt identifier requested) := by
  refine state_keeps hquiet hroute (hset identifier requested) fun c reply => ?_
  refine (check_issues _).bind fun raw => (check_issues _).bind fun state => ?_
  exact (recordEvent_issues _).bind fun _ => pure_issues _

include hget in
theorem polledStates_keeps (devices : List (Device × String)) :
    Keeps D (polledStates rt devices) := by
  induction devices with
  | nil => exact .of_issues hquiet (pure_issues _)
  | cons device rest ih =>
    refine Keeps.bind ?_ fun _ => ih.bind fun _ => .of_issues hquiet (pure_issues _)
    refine (getState_keeps hquiet hroute hget device.1.id false).attempt.bind fun result => ?_
    cases result <;> exact .of_issues hquiet (pure_issues _)

include hinventory hget in
theorem pollOnce_keeps : Keeps D (pollOnce rt) := by
  refine (hinventory none true).bind fun result => ?_
  refine (polledStates_keeps hquiet hroute hget _).bind fun states => .of_issues hquiet ?_
  refine (op_issues (o := .swapFingerprint _) trivial).bind fun previous => ?_
  cases previous with
  | none => exact pure_issues _
  | some previous =>
    dsimp only
    split
    · exact pure_issues _
    · exact (recordEvent_issues _).bind fun _ => pure_issues _

include hinventory hget hset in
/-- Every thread of the manager keeps the discipline. -/
theorem program_keeps (job : Job) : Keeps D (job.program rt) := by
  have hpure : ∀ {α : Type} (a : α), Keeps D (pure a : ManagerProg α) :=
    fun a => .of_issues hquiet (pure_issues a)
  have hquietFor : ∀ {α : Type} {p : ManagerProg α},
      Issues (S := managerSig) (QuietFor none) p → Keeps D p :=
    fun h => .of_issues hquiet (h.mono fun _ => QuietFor.unrouted)
  cases job with
  | stop =>
    exact .of_issues hquiet ((op_issues (o := .stop) trivial).bind fun _ => pure_issues _)
  | poll => exact (pollOnce_keeps hquiet hinventory hroute hget).bind fun _ => hpure _
  | request r =>
    cases r with
    | inventory domains refresh => exact (hinventory domains refresh).bind fun _ => hpure _
    | getState identifier refresh =>
      exact (getState_keeps hquiet hroute hget identifier refresh).bind fun _ => hpure _
    | setState identifier requested =>
      exact (setState_keeps hquiet hroute hset identifier requested).bind fun _ => hpure _
    | listProviders requested refresh probe =>
      exact hquietFor (listProviders_issues rt requested refresh probe)
    | getProvider requested component refresh probe =>
      exact hquietFor (getProvider_issues rt requested component refresh probe)
    | watch after timeoutMs domains =>
      refine Keeps.bind (.of_issues hquiet ?_) fun _ => hpure _
      exact (op_issues (o := .clock) trivial).bind fun _ => op_issues (o := .watch _ _ _ _) trivial
    | selectProvider requested component expected allow =>
      refine Keeps.bind (.of_issues hquiet ?_) fun _ =>
        hquietFor (listProviders_issues rt (some requested) false false)
      exact (switchProvider_issues rt requested component expected allow).mono
        fun _ => Switches.unrouted

end Jobs

/-! ## A device that is always listed -/

/-- An inventory of the domain is accepted, does not say that the domain is
    unavailable, and lists the device. -/
def Lists (rt : Runtime) (d x target : String) (reply : Reply) : Prop :=
  ∀ candidate : Candidate, candidate.target = target → ∃ answer,
    acceptedAnswer rt candidate d reply = .ok answer ∧ answer.status ≠ .unavailable ∧
      ∃ device ∈ answer.devices, device.id = x

/-- A catalog that is looked up for the domain names a provider of it, and a
    provider that is asked for the domain lists the device. -/
def Present (rt : Runtime) (d x : String) (y : (o : managerSig.Op) × managerSig.Ret o) : Prop :=
  (∀ candidates, catalogStep (some d) y = some candidates →
    ∃ c ∈ candidates, c.domains.contains d = true) ∧
  ∀ target timeoutMs idempotent reply,
    y = ⟨.call target "inventory" (.object [("domains", strings [d])]) timeoutMs idempotent,
      reply⟩ →
      Lists rt d x target reply

theorem orderCandidates_ne_nil {candidates : List Candidate} (h : candidates ≠ [])
    (preferred : Option String) : (orderCandidates candidates preferred).1 ≠ [] := by
  unfold orderCandidates
  split
  · exact h
  · split
    · exact List.cons_ne_nil _ _
    · exact h

/-- The round for the domain takes a provider that lists the device. -/
theorem pickDomain_present (rt : Runtime) {d x : String} {log : ManagerLog} {pick : Pick}
    (h : Path (S := managerSig) (pickDomain rt d) log (.ok pick))
    (hlog : ∀ y ∈ log, Present rt d x y) :
    ∃ mode c answer, pick = .active mode c answer ∧ ∃ device ∈ answer.devices, device.id = x := by
  obtain ⟨candidates, preferred, ⟨y, hy, hstep⟩, -, htries⟩ := pickDomain_tries rt h
  obtain ⟨c, hc, hdomain⟩ := (hlog y hy).1 candidates hstep
  have hne : candidates.filter (·.domains.contains d) ≠ [] :=
    List.ne_nil_of_mem (List.mem_filter.mpr ⟨hc, hdomain⟩)
  rcases htries with ⟨mode, horder, -⟩ | ⟨first, rest, mode, log', -, hsub, htry⟩
  · exact absurd (by rw [horder]) (orderCandidates_ne_nil hne preferred)
  · -- the first candidate answers with the device, and is taken
    obtain ⟨r, log₁, log₂, rfl, hprobe, hnext⟩ := Path.of_attempt_bind htry
    obtain ⟨reply, hreply, hr⟩ := probeCandidate_call rt hprobe
    have hpresent := hlog _ (hsub (List.mem_append_left _ hreply))
    obtain ⟨answer, haccepted, hstatus, hdevice⟩ := hpresent.2 _ _ _ _ rfl first rfl
    rw [haccepted] at hr
    subst hr
    dsimp only at hnext
    rw [if_neg fun h => hstatus h.1] at hnext
    exact ⟨mode, first, answer, Except.ok.inj (Path.of_pure hnext).2, hdevice⟩

/-- Who commits routes for the domain routes the device. -/
def presentDiscipline (rt : Runtime) (d x : String) : Discipline managerSig Unit where
  adv _ _ := True
  guar _ o := ∀ routes active, o = .commitRoutes routes active → d ∈ active.map Prod.fst →
    (routes.get? x).isSome = true
  rely _ o r := Present rt d x ⟨o, r⟩
  next _ _ _ := ()

theorem Unrouted.ne_commitRoutes {o : ManagerOp} (h : Unrouted o) (routes : Dict String Candidate)
    (active : List (String × Option String)) : o ≠ .commitRoutes routes active := by
  rintro rfl
  exact h

theorem inventory_present (rt : Runtime) (d x : String) (domains : Option (List String))
    (refresh : Bool) : Keeps (presentDiscipline rt d x) (inventory rt domains refresh) := by
  have hquiet : ∀ t o, Unrouted o → (presentDiscipline rt d x).guar t o :=
    fun t o ho routes active heq => absurd heq (ho.ne_commitRoutes routes active)
  intro t
  refine (Keeps.of_issues hquiet ((refreshCatalog_issues rt refresh none).mono
    fun _ => QuietFor.unrouted) t).bind fun t₁ candidates _ => ?_
  refine (Sat.of_trail (fun t o ho => hquiet t o (Looks.unrouted ho))
    (pickDomains_looks rt (domains.getD (availableDomains candidates))) t₁).bind ?_
  rintro t₂ picks ⟨log, hpath, htrail⟩
  have hlog : ∀ y ∈ log, Present rt d x y := by
    clear hpath
    induction htrail with
    | nil t => exact fun y hy => nomatch hy
    | cons _ hrely _ ih => exact List.forall_mem_cons.mpr ⟨hrely, ih⟩
  refine .step (fun t' _ routes active heq hd => ?_) fun t' _ r _ => .pure trivial
  cases heq
  rw [List.map_map, List.mem_map] at hd
  obtain ⟨⟨d', pick⟩, hmem, rfl⟩ := hd
  obtain ⟨log', hsub, hpick⟩ := (pickDomains_mem rt hpath).2 d' pick hmem
  obtain ⟨mode, c, answer, rfl, hdevice⟩ := pickDomain_present rt hpick fun y hy => hlog y (hsub hy)
  exact ofPicks_isSome hmem hdevice

/-! ### The route of a request -/

/-- The error of `_route` for a device without a route. -/
def deviceUnavailable (x : String) : PyError :=
  .hal (.unavailable "HAL device is unavailable" [("id", .str x)])

/-- The end of a log in which the routes are committed and the route of the device
    is then read in vain. -/
def ReadsInVain (x : String) (log : ManagerLog) : Prop :=
  ∃ log₁ routes active revision log₂, domainOf x ∈ active.map Prod.fst ∧
    log = log₁ ++ ⟨.commitRoutes routes active, revision⟩ :: (log₂ ++ [⟨.readRoute x, none⟩])

theorem inventory_commits (rt : Runtime) {domains : List String} {refresh : Bool}
    {log : ManagerLog} {report : Inventory}
    (h : Path (S := managerSig) (inventory rt (some domains) refresh) log (.ok report)) :
    ∃ log' routes active revision, active.map Prod.fst = domains ∧
      log = log' ++ [⟨.commitRoutes routes active, revision⟩] := by
  rcases Path.of_bind h with ⟨e, he, -⟩ | ⟨candidates, log₁, log₂, rfl, -, hrest⟩
  · exact nomatch he
  rcases Path.of_bind hrest with ⟨e, he, -⟩ | ⟨picks, log₃, log₄, rfl, hpicks, hcommit⟩
  · exact nomatch he
  obtain ⟨revision, log₅, rfl, hreturn⟩ := op_bind_path hcommit
  obtain ⟨rfl, -⟩ := Path.of_pure hreturn
  refine ⟨log₁ ++ log₃, _, _, revision, ?_, (List.append_assoc _ _ _).symm⟩
  rw [List.map_map]
  exact (pickDomains_mem rt hpicks).1

/-- An operation that is not the reading of a route. -/
def NoRead (o : ManagerOp) : Prop := ∀ x, o ≠ .readRoute x

theorem inventory_noRead (rt : Runtime) (domains : Option (List String)) (refresh : Bool) :
    Issues (S := managerSig) NoRead (inventory rt domains refresh) := by
  have hlooks : ∀ o, Looks o → NoRead o := by
    rintro o (⟨lookup, h⟩ | ⟨d, rfl⟩) x heq
    · subst heq
      exact h
    · exact nomatch heq
  refine ((refreshCatalog_issues rt refresh none).mono fun o h => hlooks o (.inl ⟨none, h⟩)).bind
    fun candidates => ?_
  refine ((pickDomains_looks rt _).mono hlooks).bind fun picks => ?_
  exact (op_issues fun _ h => nomatch h).bind fun _ => pure_issues _

/-- A log that ends with an operation of its last part. -/
private theorem last_noRead {α : Type} {p : ManagerProg α} (hp : Issues (S := managerSig) NoRead p)
    {log log' : ManagerLog} {result : Except PyError α} (h : Path (S := managerSig) p log' result)
    (hne : log' ≠ []) {x : String} {y : (o : managerSig.Op) × managerSig.Ret o}
    (hy : (log ++ log').getLast? = some y) : y.1 ≠ .readRoute x := by
  rw [List.getLast?_append_of_ne_nil _ hne] at hy
  exact Path.issues hp h y (List.mem_of_getLast? hy) x

/-- `_route` raises its own error only when it reads the route in vain after its
    inventory. -/
theorem route_fails (rt : Runtime) {x : String} {refresh : Bool} {log : ManagerLog} {e : PyError}
    (h : Path (S := managerSig) (route rt x refresh) log (.error e))
    {y : (o : managerSig.Op) × managerSig.Ret o} (hlast : log.getLast? = some y)
    (hy : y.1 = .readRoute x) : ReadsInVain x log := by
  -- The first reading of the route cannot fail.
  have hknown : ∀ {log result}, Path (S := managerSig) (knownRoute x refresh) log result →
      ∃ known, result = .ok known := by
    intro log result h
    unfold knownRoute at h
    split at h
    · exact ⟨none, (Path.of_pure h).2⟩
    · obtain ⟨r, -, hr⟩ := op_path h
      exact ⟨r, hr⟩
  rcases Path.of_bind h with ⟨e', -, hp⟩ | ⟨known, log₁, log₂, rfl, -, hrest⟩
  · obtain ⟨known, hr⟩ := hknown hp
    exact nomatch hr
  cases known with
  | some c => exact nomatch (Path.of_pure hrest).2
  | none =>
    rcases Path.of_bind hrest with ⟨e', -, hinv⟩ | ⟨report, log₃, log₄, rfl, hinv, hread⟩
    -- The inventory failed, but then the last event is no reading.
    · have hne : log₂ ≠ [] := by
        rintro rfl
        rcases Path.of_bind hinv with ⟨e', -, hp⟩ | ⟨_, log₃, log₄, hnil, hp, -⟩
        · obtain ⟨_, _, hnil, -⟩ := op_bind_path hp
          exact nomatch hnil
        · obtain ⟨_, _, rfl, -⟩ := op_bind_path hp
          exact nomatch hnil
      exact absurd hy (last_noRead (inventory_noRead rt _ _) hinv hne hlast)
    -- The inventory committed its routes, and the route was still not there.
    · obtain ⟨log', routes, active, revision, hactive, rfl⟩ := inventory_commits rt hinv
      obtain ⟨r, log₅, rfl, hend⟩ := op_bind_path hread
      cases r with
      | some c => exact nomatch (Path.of_pure hend).2
      | none =>
        cases hend
        refine ⟨log₁ ++ log', routes, active, revision, [], ?_, ?_⟩
        · rw [hactive]
          exact List.mem_singleton_self _
        · simp only [List.append_assoc, List.singleton_append, List.nil_append]

/-- A request that goes on after `_route` without reading routes fails at a reading
    only in `_route`. -/
private theorem state_fails (rt : Runtime) {α : Type} {x : String} {refresh : Bool}
    {o : Candidate → ManagerOp} {k : (c : Candidate) → (o c).Ret → ManagerProg α}
    (hk : ∀ c, Issues (S := managerSig) NoRead (op (o c) >>= k c)) {log : ManagerLog} {e : PyError}
    (h : Path (S := managerSig) (route rt x refresh >>= fun c => op (o c) >>= k c) log (.error e))
    {y : (o : managerSig.Op) × managerSig.Ret o} (hlast : log.getLast? = some y)
    (hy : y.1 = .readRoute x) : ReadsInVain x log := by
  rcases Path.of_bind h with ⟨e', -, hroute⟩ | ⟨c, log₁, log₂, rfl, -, hcall⟩
  · exact route_fails rt hroute hlast hy
  · obtain ⟨r, log', rfl, -⟩ := op_bind_path hcall
    exact absurd hy (last_noRead (hk c) hcall (List.cons_ne_nil _ _) hlast)

/-- A request for the state of the device. -/
def AsksFor (x : String) : Job → Prop
  | .request (.getState y _) => y = x
  | .request (.setState y _) => y = x
  | _ => False

theorem asksFor_fails (rt : Runtime) {x : String} {job : Job} (hjob : AsksFor x job)
    {log : ManagerLog} {e : PyError}
    (h : Path (S := managerSig) (job.program rt) log (.error e))
    {y : (o : managerSig.Op) × managerSig.Ret o} (hlast : log.getLast? = some y)
    (hy : y.1 = .readRoute x) : ReadsInVain x log := by
  have hreturn : ∀ {p : ManagerProg StateResult},
      Path (S := managerSig) (p >>= fun result => pure result.payload) log (.error e) →
      Path (S := managerSig) p log (.error e) := by
    intro p h
    rcases Path.of_bind h with ⟨e', he, hp⟩ | ⟨result, log₁, log₂, rfl, hp, hpure⟩
    · cases he
      exact hp
    · exact nomatch (Path.of_pure hpure).2
  cases job with
  | stop => exact nomatch hjob
  | poll => exact nomatch hjob
  | request r =>
    cases r with
    | getState z refresh =>
      obtain rfl : z = x := hjob
      refine state_fails rt (fun c => ?_) (hreturn h) hlast hy
      refine (op_issues fun _ h => nomatch h).bind fun reply => (check_issues _).bind fun raw => ?_
      refine (check_issues _).bind fun state => ?_
      exact (op_issues (o := .readRevision) fun _ h => nomatch h).bind fun _ => pure_issues _
    | setState z requested =>
      obtain rfl : z = x := hjob
      refine state_fails rt (fun c => ?_) (hreturn h) hlast hy
      refine (op_issues fun _ h => nomatch h).bind fun reply => (check_issues _).bind fun raw => ?_
      refine (check_issues _).bind fun state => Issues.bind ?_ fun _ => pure_issues _
      refine (op_issues fun _ h => nomatch h).bind fun event => ?_
      exact (op_issues fun _ h => nomatch h).bind fun _ => pure_issues _
    | _ => exact nomatch hjob

/-! ### The route table in between -/

/-- A commit of routes without the device. -/
def DropsRoute (x : String) (e : ManagerEvent) : Prop :=
  ∃ routes active, e.op = .commitRoutes routes active ∧ routes.get? x = none

/-- A step that neither commits a preference nor routes without the device keeps the
    route of the device. -/
theorem Happens.route_kept {e : ManagerEvent} (h : Happens e) {x : String}
    (hcommit : ∀ choice expected, e.op ≠ .commitSelection choice expected)
    (hdrops : ¬DropsRoute x e) (hbefore : (e.before.deviceRoutes.get? x).isSome = true) :
    (e.after.deviceRoutes.get? x).isSome = true := by
  obtain ⟨tid, o, r, s, s'⟩ := e
  obtain ⟨i, h⟩ := h
  simp only [managerMachine] at h
  cases o <;> simp only [managerExec, Option.some.injEq, Prod.mk.injEq] at h
  case commitSelection choice expected => exact absurd rfl (hcommit choice expected)
  -- The routes are replaced, and by the hypothesis the new ones have the device.
  case commitRoutes routes active =>
    obtain ⟨_, rfl⟩ := h
    by_contra hnone
    exact hdrops ⟨routes, active, rfl, Option.not_isSome_iff_eq_none.mp hnone⟩
  case recordEvent notice =>
    simp only [ManagerState.appendEvent, Prod.mk.injEq] at h
    obtain ⟨_, rfl⟩ := h
    exact hbefore
  case lockCatalog =>
    split at h
    · cases h
    · simp only [Option.some.injEq, Prod.mk.injEq] at h
      obtain ⟨_, rfl⟩ := h
      exact hbefore
  case watch after timeoutMs deadline domains =>
    split at h
    · cases h
    · simp only [Option.some.injEq, Prod.mk.injEq] at h
      obtain ⟨_, rfl⟩ := h
      exact hbefore
  case electActive d candidates =>
    obtain ⟨_, rfl⟩ := h
    rw [(electActive_unchanged s d candidates).deviceRoutes]
    exact hbefore
  -- All other operations leave the routes as they are.
  all_goals
    obtain ⟨_, rfl⟩ := h
    exact hbefore

theorem trace_route_kept {x : String} {s s' : ManagerState} {tr : List ManagerEvent}
    (h : Trace managerMachine s tr s')
    (hcommit : ∀ e ∈ tr, ∀ choice expected, e.op ≠ .commitSelection choice expected)
    (hdrops : ∀ e ∈ tr, ¬DropsRoute x e) (hs : (s.deviceRoutes.get? x).isSome = true) :
    (s'.deviceRoutes.get? x).isSome = true := by
  induction tr generalizing s with
  | nil => exact h ▸ hs
  | cons e tr ih =>
    obtain ⟨rfl, he, htr⟩ := h
    have he : Happens e := he
    rw [List.forall_mem_cons] at hcommit hdrops
    exact ih htr hcommit.2 hdrops.2 (he.route_kept hcommit.1 hdrops.1 hs)

/-- The request of the thread has failed with the error of `_route`, which is raised
    when the route is read in vain. -/
def FailsUnavailable (x : String) (q : Pool managerSig ManagerState PyError Value)
    (tr : List ManagerEvent) (tid : Nat) : Prop :=
  q.threads[tid]? = some (.raise (deviceUnavailable x)) ∧
    ∃ e, (tr.filter fun e => e.tid == tid).getLast? = some e ∧ e.op = .readRoute x

/-- Between the commit of its routes and its reading of the route of the device, no
    thread that serves a request for the device sees a commit of routes without it. -/
def Undisturbed (x : String) (jobs : List Job) (tr : List ManagerEvent) : Prop :=
  ∀ pre commit mid read post, tr = pre ++ commit :: (mid ++ read :: post) →
    read.tid = commit.tid → (∃ job, jobs[commit.tid]? = some job ∧ AsksFor x job) →
    (∃ routes active, commit.op = .commitRoutes routes active) → read.op = .readRoute x →
    ∀ e ∈ mid, ¬DropsRoute x e

/-- Events of one thread, found again in the run. -/
private theorem of_logOf {tid : Nat} {tr : List ManagerEvent}
    {log₁ log₂ : ManagerLog} {y z : (o : managerSig.Op) × managerSig.Ret o}
    (h : logOf tid tr = log₁ ++ y :: (log₂ ++ [z])) :
    ∃ pre e mid e' post, tr = pre ++ e :: (mid ++ e' :: post) ∧ e.tid = tid ∧ e'.tid = tid ∧
      ⟨e.op, e.ret⟩ = y ∧ ⟨e'.op, e'.ret⟩ = z := by
  obtain ⟨es₁, es₂, hes, -, hmap₂⟩ := List.map_eq_append_iff.mp h
  obtain ⟨e, es₃, rfl, hy, hmap₃⟩ := List.map_eq_cons_iff.mp hmap₂
  obtain ⟨es₄, es₅, rfl, -, hmap₅⟩ := List.map_eq_append_iff.mp hmap₃
  obtain ⟨e', es₆, rfl, hz, -⟩ := List.map_eq_cons_iff.mp hmap₅
  obtain ⟨tr₁, tr₂, rfl, -, htr₂⟩ := List.filter_eq_append_iff.mp hes
  obtain ⟨tr₃, tr₄, rfl, -, he, htr₄⟩ := List.filter_eq_cons_iff.mp htr₂
  obtain ⟨tr₅, tr₆, rfl, -, htr₆⟩ := List.filter_eq_append_iff.mp htr₄
  obtain ⟨tr₇, tr₈, rfl, -, he', -⟩ := List.filter_eq_cons_iff.mp htr₆
  refine ⟨tr₁ ++ tr₃, e, tr₅ ++ tr₇, e', tr₈, by simp only [List.append_assoc],
    beq_iff_eq.mp he, beq_iff_eq.mp he', hy, hz⟩

/-- In a run that always lists the device, a commit of routes for its domain routes it. -/
theorem present_routed {rt : Runtime} {s₀ : ManagerState} {labels : List (Label Job Input)}
    {q : Pool managerSig ManagerState PyError Value} {tr : List ManagerEvent}
    (hrun : managerRun rt ⟨s₀, []⟩ labels = some (q, tr)) {d x : String}
    (hpresent : ∀ e ∈ tr, Present rt d x ⟨e.op, e.ret⟩) :
    ∀ e ∈ tr, ∀ routes active, e.op = .commitRoutes routes active → d ∈ active.map Prod.fst →
      (routes.get? x).isSome = true := by
  -- Only the commit of an inventory has something to guarantee.
  have hquiet : ∀ t o, Unrouted o → (presentDiscipline rt d x).guar t o :=
    fun t o ho routes active heq => absurd heq (ho.ne_commitRoutes routes active)
  have hcall : ∀ t o, (∀ routes active, o ≠ .commitRoutes routes active) →
      (presentDiscipline rt d x).guar t o :=
    fun t o ho routes active heq => absurd heq (ho routes active)
  have hroute : ∀ identifier refresh t, Sat (presentDiscipline rt d x)
      (fun t' c => (fun _ _ _ => True) identifier t' c) (fun _ _ => True)
      (route rt identifier refresh) t := by
    intro identifier refresh
    refine Keeps.bind (.of_issues hquiet ?_) fun known => ?_
    · rw [knownRoute]
      split
      · exact pure_issues _
      · exact op_issues trivial
    · cases known with
      | some c => exact .of_issues hquiet (pure_issues _)
      | none =>
        refine (inventory_present rt d x _ refresh).bind fun _ => .of_issues hquiet ?_
        refine (op_issues (o := .readRoute identifier) trivial).bind fun found => ?_
        cases found with
        | some c => exact pure_issues _
        | none => exact fail_issues _
  have hkeeps := program_keeps hquiet (inventory_present rt d x) hroute
    (fun _ t t' _ _ _ => hcall t' _ fun _ _ h => by cases h)
    (fun _ _ t t' _ _ _ => hcall t' _ fun _ _ h => by cases h)
  intro e he
  obtain ⟨pre, post, rfl⟩ := List.append_of_mem he
  have hstart : Pool.Keeps (presentDiscipline rt d x) (fun _ _ => True) (fun _ _ => ()) []
      (⟨s₀, []⟩ : Pool managerSig ManagerState PyError Value) :=
    ⟨trivial, fun _ _ h => by cases h⟩
  have hdiscipline := Pool.run_discipline managerMachine (Job.program rt)
    (A := fun _ e => Present rt d x ⟨e.op, e.ret⟩) (fun _ => trivial) (fun _ _ _ _ _ => trivial)
    (fun _ _ _ _ => trivial) (fun _ _ => rfl) (fun _ _ _ _ hA _ => hA)
    (fun _ _ _ _ _ _ _ => trivial) (fun _ _ job _ => hkeeps job ()) hstart (Nat.zero_le _) hrun
    (fun pre e post heq =>
      hpresent e (by rw [heq]; exact List.mem_append_right _ List.mem_cons_self))
  exact (hdiscipline.2.2 pre e post rfl).1

/-- In every interleaving of requests that select no provider: a device that the
    providers of its domain always list is found by every request for its state,
    unless routes without it are committed while the request is between the
    commit of its own routes and the reading of the route. -/
theorem present_device_found (rt : Runtime) (s₀ : ManagerState) (labels : List (Label Job Input))
    (q : Pool managerSig ManagerState PyError Value) (tr : List ManagerEvent)
    (hrun : managerRun rt ⟨s₀, []⟩ labels = some (q, tr))
    (hjobs : ∀ d component expected allow,
      .request (.selectProvider d component expected allow) ∉ requests labels)
    (x : String) (hpresent : ∀ e ∈ tr, Present rt (domainOf x) x ⟨e.op, e.ret⟩)
    (hundisturbed : Undisturbed x (requests labels) tr) (tid : Nat) (job : Job)
    (hjob : (requests labels)[tid]? = some job) (hasks : AsksFor x job) :
    ¬FailsUnavailable x q tr tid := by
  rintro ⟨hraise, e, hlast, he⟩
  have hrouted := present_routed hrun hpresent
  have hcommit : ∀ e ∈ tr, ∀ choice expected, e.op ≠ .commitSelection choice expected := by
    intro e he choice expected hop
    obtain ⟨job', hjob', hissues⟩ := Pool.run_issues managerMachine (Job.program rt)
      (program_issues_commit rt) hrun e he
    obtain ⟨allow, rfl⟩ := hissues choice expected hop
    exact hjobs _ _ _ _ (List.mem_of_getElem? hjob')
  -- the thread has committed routes and then read in vain
  obtain ⟨job', hjob', hresumes⟩ := Pool.run_follows managerMachine (Job.program rt) hrun hraise
  cases hjob.symm.trans hjob'
  have hlogLast : (logOf tid tr).getLast? = some ⟨e.op, e.ret⟩ := by
    rw [logOf, List.getLast?_map, hlast]
    rfl
  obtain ⟨log₁, routes, active, revision, log₂, hactive, hlog⟩ :=
    asksFor_fails rt hasks hresumes.path hlogLast he
  obtain ⟨pre, commit, mid, read, post, rfl, htid, htid', hop, hop'⟩ := of_logOf hlog
  -- its own commit routes the device, and nobody has dropped the route since
  have htrace := Pool.run_trace _ _ hrun
  obtain ⟨s₁, -, htrace₁⟩ := Trace.append managerMachine htrace
  obtain ⟨rfl, hcommits, htrace₂⟩ := htrace₁
  obtain ⟨s₂, hmid, htrace₃⟩ := Trace.append managerMachine htrace₂
  obtain ⟨rfl, ⟨i, hread⟩, -⟩ := htrace₃
  have hmemCommit : commit ∈ pre ++ commit :: (mid ++ read :: post) :=
    List.mem_append_right _ List.mem_cons_self
  have hmemMid : ∀ e ∈ mid, e ∈ pre ++ commit :: (mid ++ read :: post) := fun e he =>
    List.mem_append_right _ (List.mem_cons_of_mem _ (List.mem_append_left _ he))
  obtain ⟨tid₁, o₁, r₁, b₁, a₁⟩ := commit
  cases hop
  obtain ⟨tid₂, o₂, r₂, b₂, a₂⟩ := read
  cases hop'
  have hafter : (a₁.deviceRoutes.get? x).isSome = true := by
    have hisSome := hrouted _ hmemCommit routes active rfl hactive
    obtain ⟨i', hexec⟩ := hcommits
    simp only [managerMachine, managerExec, Option.some.injEq, Prod.mk.injEq] at hexec
    rw [← hexec.2]
    exact hisSome
  have hdrops := hundisturbed pre _ mid _ post rfl (htid'.trans htid.symm)
    ⟨job, by rw [htid]; exact hjob, hasks⟩ ⟨routes, active, rfl⟩ rfl
  have hbefore := trace_route_kept hmid (fun e he => hcommit e (hmemMid e he)) hdrops hafter
  simp only [managerMachine, managerExec, Option.some.injEq, Prod.mk.injEq] at hread
  rw [hread.1] at hbefore
  cases hbefore

namespace Sample

/-- The provider of these runs. -/
def provider : Candidate where
  component := "a.b:c"
  target := "component:a.b:c"
  priority := 0
  domains := ["power", "thermal"]
  name := "sample"
  version := "1.0.0"
  capabilities := []
  target_eq := by decide
  component_valid := by decide
  component_plain := by decide
  domains_valid := by decide

/-- Whether the answer of the provider lists the device. -/
def lists (d x : String) (reply : Reply) : Bool :=
  match acceptedAnswer Runtime.sample provider d reply with
  | .ok answer => answer.status != .unavailable && answer.devices.any (·.id == x)
  | .error _ => false

/-- The target of a gateway call. -/
def calledTarget : ManagerOp → String
  | .call target _ _ _ _ => target
  | _ => ""

/-- A test for `Present` in runs with this provider. -/
def listed (d x : String) (y : (o : managerSig.Op) × managerSig.Ret o) : Bool :=
  (catalogStep (some d) y).all (·.any (·.domains.contains d)) &&
    (replyStep d y).all fun reply => calledTarget y.1 == provider.target && lists d x reply

theorem lists_elim {d x : String} {reply : Reply} (h : lists d x reply = true) :
    Lists Runtime.sample d x provider.target reply := by
  unfold lists at h
  split at h
  · next answer hanswer =>
    rw [Bool.and_eq_true, bne_iff_ne, List.any_eq_true] at h
    obtain ⟨hstatus, device, hdevice, hid⟩ := h
    intro candidate htarget
    have hcomponent : candidate.component = provider.component := by
      have heq := candidate.target_eq.symm.trans (htarget.trans provider.target_eq)
      exact (String.append_right_inj _).mp heq
    refine ⟨answer, ?_, hstatus, device, hdevice, beq_iff_eq.mp hid⟩
    -- of the candidate only the component is looked at
    rw [← hanswer]
    simp only [acceptedAnswer, normalizeInventory, hcomponent]
  · exact nomatch h

theorem present_of_listed {d x : String} {y : (o : managerSig.Op) × managerSig.Ret o}
    (h : listed d x y = true) : Present Runtime.sample d x y := by
  rw [listed, Bool.and_eq_true] at h
  refine ⟨fun candidates hcandidates => ?_, fun target timeoutMs idempotent reply hy => ?_⟩
  · rw [hcandidates, Option.all_some, List.any_eq_true] at h
    exact h.1
  · subst hy
    have hreply : replyStep d
        ⟨.call target "inventory" (.object [("domains", strings [d])]) timeoutMs
        idempotent, reply⟩ = some reply := if_pos rfl
    rw [hreply, Option.all_some, Bool.and_eq_true, beq_iff_eq] at h
    obtain ⟨-, rfl, hlists⟩ := h
    exact lists_elim hlists

/-- A client asks for the state of the device `power:main` and has it looked up again. -/
def read : Job := .request (.getState "power:main" true)

/-- The environment of such a request up to the commit of its routes: discovery of
    the provider, and its inventory. -/
def readInputs : List Input :=
  let quiet : Input := {}
  let answer (reply : Reply) : Input := { reply := reply }
  [quiet, quiet, quiet, answer (discovery ["a.b:c"]),
    answer (description "a.b:c" ["power", "thermal"]), quiet, quiet, quiet, quiet, quiet,
    answer (inventory "a.b:c" "power" [device "power:main" "power" []]), quiet, quiet, quiet]

/-- A client asks for the inventory of the domain `thermal`. -/
def other : Job := .request (.inventory (some ["thermal"]) false)

/-- The environment of that request while the catalog is fresh. -/
def otherInputs : List Input :=
  let quiet : Input := {}
  [quiet, quiet, quiet, quiet, { reply := inventory "a.b:c" "thermal" [] }, quiet, quiet, quiet]

/-- The other inventory runs between the commit and the reading of the first request. -/
def disturbed : List (Label Job Input) :=
  [.spawn read, .spawn other] ++ readInputs.map (.step 0) ++ otherInputs.map (.step 1) ++
    [.step 0 ({} : Input)]

/-- The other inventory replaces the routes before the first request commits its own. -/
def undisturbed : List (Label Job Input) :=
  let last : List Input := [{}, { reply := state "a.b:c" "power:main" "power" }, {}]
  [.spawn read, .spawn other] ++ (readInputs.take 13).map (.step 0) ++ otherInputs.map (.step 1) ++
    (readInputs.drop 13 ++ last).map (.step 0)

/-- A test for the error of `_route` for a device. -/
def isUnavailable (x : String) : Prog managerSig PyError Value → Bool
  | .raise (.hal error) =>
    error.code == "HAL_UNAVAILABLE" && error.message == "HAL device is unavailable" &&
      match error.details with
      | [(name, .str y)] => name == "id" && y == x
      | _ => false
  | _ => false

theorem isUnavailable_elim {x : String} {p : Prog managerSig PyError Value}
    (h : isUnavailable x p = true) : p = .raise (deviceUnavailable x) := by
  unfold isUnavailable at h
  split at h
  · next error =>
    obtain ⟨code, message, details⟩ := error
    simp only [Bool.and_eq_true, beq_iff_eq] at h
    obtain ⟨⟨rfl, rfl⟩, h⟩ := h
    split at h
    · rw [Bool.and_eq_true, beq_iff_eq, beq_iff_eq] at h
      obtain ⟨rfl, rfl⟩ := h
      rfl
    · exact nomatch h
  · exact nomatch h

/-- A test for the reading of the route of a device. -/
def isRead (x : String) : ManagerOp → Bool
  | .readRoute y => y == x
  | _ => false

theorem isRead_elim {x : String} {o : ManagerOp} (h : isRead x o = true) : o = .readRoute x := by
  unfold isRead at h
  split at h
  · rw [beq_iff_eq] at h
    rw [h]
  · exact nomatch h

/-- A test for a commit of routes. -/
def isCommit : ManagerOp → Bool
  | .commitRoutes _ _ => true
  | _ => false

/-- A test for a commit of routes without the device. -/
def dropsRoute (x : String) : ManagerOp → Bool
  | .commitRoutes routes _ => (routes.get? x).isNone
  | _ => false

theorem dropsRoute_iff {x : String} {e : ManagerEvent} :
    dropsRoute x e.op = true ↔ DropsRoute x e := by
  constructor
  · intro h
    unfold dropsRoute at h
    split at h
    · next routes active hop => exact ⟨routes, active, hop, Option.isNone_iff_eq_none.mp h⟩
    · cases h
  · rintro ⟨routes, active, hop, hnone⟩
    rw [hop]
    exact Option.isNone_iff_eq_none.mpr hnone

/-- The requests for the device commit their routes only after the last commit of routes
    without it. -/
theorem undisturbed_of {x : String} {jobs : List Job} {tr : List ManagerEvent} (n : Nat)
    (hbefore : ∀ e ∈ tr.take n, (∃ job, jobs[e.tid]? = some job ∧ AsksFor x job) →
      isCommit e.op = false)
    (hafter : ∀ e ∈ tr.drop n, dropsRoute x e.op = false) : Undisturbed x jobs tr := by
  rintro pre commit mid read post rfl htid hjob ⟨routes, active, hop⟩ _ e he
  have hlength : n ≤ pre.length := by
    by_contra hlt
    have hmem : commit ∈ (pre ++ commit :: (mid ++ read :: post)).take n := by
      rw [List.take_append, List.take_of_length_le (by omega), List.mem_append]
      refine .inr ?_
      obtain ⟨k, hk⟩ := Nat.exists_eq_add_of_lt (by omega : pre.length < n)
      rw [hk, show pre.length + k + 1 - pre.length = k + 1 by omega, List.take_succ_cons]
      exact List.mem_cons_self
    have hcommit := hbefore commit hmem hjob
    rw [hop] at hcommit
    cases hcommit
  have hmem : e ∈ (pre ++ commit :: (mid ++ read :: post)).drop n := by
    rw [List.drop_append_of_le_length hlength]
    exact List.mem_append_right _ (List.mem_cons_of_mem _ (List.mem_append_left _ he))
  rw [← dropsRoute_iff, hafter e hmem]
  exact Bool.false_ne_true

end Sample

set_option maxRecDepth 10000 in
/-- An inventory of another domain replaces the routes while the request is under way, but
    before the request commits its own: the device is found. -/
theorem present_device_found_two : ∃ q tr,
    managerRun Runtime.sample ⟨Sample.start, []⟩ Sample.undisturbed = some (q, tr) ∧
    (∃ e ∈ tr, e.tid = 1 ∧ DropsRoute "power:main" e) ∧ ¬FailsUnavailable "power:main" q tr 0 := by
  have heval : (managerRun Runtime.sample ⟨Sample.start, []⟩ Sample.undisturbed).any (fun r =>
      (r.2.all fun e => Sample.listed "power" "power:main" ⟨e.op, e.ret⟩) &&
      ((r.2.take 21).all fun e => !(e.tid == 0 && Sample.isCommit e.op)) &&
      ((r.2.drop 21).all fun e => !Sample.dropsRoute "power:main" e.op) &&
      (r.2.any fun e => e.tid == 1 && Sample.dropsRoute "power:main" e.op)) = true := by
    decide +kernel
  -- The whole run is evaluated once; what it shows is read off below.
  obtain ⟨⟨q, tr⟩, hrun, htest⟩ := (Option.any_eq_true _ _).mp heval
  simp only [Bool.and_eq_true, List.all_eq_true, List.any_eq_true, Bool.not_eq_true',
    beq_iff_eq] at htest
  obtain ⟨⟨⟨hlisted, hbefore⟩, hafter⟩, e, he, htid, hdrops⟩ := htest
  refine ⟨q, tr, hrun, ⟨e, he, htid, Sample.dropsRoute_iff.mp hdrops⟩, ?_⟩
  have hrequests : requests Sample.undisturbed = [Sample.read, Sample.other] := rfl
  refine present_device_found Runtime.sample Sample.start _ q tr hrun ?_ "power:main" ?_ ?_
    0 Sample.read rfl rfl
  · intro d component expected allow hmem
    rw [hrequests, List.mem_cons, List.mem_singleton] at hmem
    rcases hmem with hmem | hmem
    · cases hmem
    · cases hmem
  · intro e he
    have hdomain : domainOf "power:main" = "power" := by decide
    rw [hdomain]
    exact Sample.present_of_listed (hlisted e he)
  -- The other request commits only after the request has read its route.
  · refine Sample.undisturbed_of 21 (fun e he hjob => ?_) hafter
    obtain ⟨job, hjob, hasks⟩ := hjob
    rw [hrequests] at hjob
    have hfirst : e.tid = 0 := by
      rcases htid : e.tid with _ | _ | n
      · rfl
      · rw [htid] at hjob
        cases hjob
        exact hasks.elim
      · rw [htid] at hjob
        cases hjob
    have hcommit := hbefore e he
    rw [hfirst] at hcommit
    exact hcommit

set_option maxRecDepth 10000 in
/-- An inventory of another domain replaces the routes between the commit and the
    reading of the request: the device that is always listed is reported as
    unavailable. -/
theorem present_device_missed : ¬∀ (rt : Runtime) (file : Option ByteArray) (ttl : ℚ)
    (s₀ : ManagerState), ManagerState.init rt file ttl = .ok s₀ →
    ∀ (labels : List (Label Job Input)) (q : Pool managerSig ManagerState PyError Value)
      (tr : List ManagerEvent), managerRun rt ⟨s₀, []⟩ labels = some (q, tr) →
      (∀ d component expected allow,
        .request (.selectProvider d component expected allow) ∉ requests labels) →
      ∀ x, (∀ e ∈ tr, Present rt (domainOf x) x ⟨e.op, e.ret⟩) →
      ∀ tid job, (requests labels)[tid]? = some job → AsksFor x job →
        ¬FailsUnavailable x q tr tid := by
  intro hclaim
  have heval : (managerRun Runtime.sample ⟨Sample.start, []⟩ Sample.disturbed).any (fun r =>
      (r.2.all fun e => Sample.listed "power" "power:main" ⟨e.op, e.ret⟩) &&
      r.1.threads[0]?.any (Sample.isUnavailable "power:main") &&
      (r.2.filter fun e => e.tid == 0).getLast?.any fun e => Sample.isRead "power:main" e.op) =
      true := by
    decide +kernel
  obtain ⟨⟨q, tr⟩, hrun, htest⟩ := (Option.any_eq_true _ _).mp heval
  simp only [Bool.and_eq_true, List.all_eq_true] at htest
  obtain ⟨⟨hlisted, hraised⟩, hread⟩ := htest
  obtain ⟨p, hp, hunavailable⟩ := (Option.any_eq_true _ _).mp hraised
  obtain ⟨e, he, hop⟩ := (Option.any_eq_true _ _).mp hread
  have hrequests : requests Sample.disturbed = [Sample.read, Sample.other] := rfl
  refine hclaim Runtime.sample none 30 Sample.start Sample.init_start Sample.disturbed q tr hrun
    (fun d component expected allow hmem => ?_) "power:main" (fun e he => ?_) 0 Sample.read rfl rfl
    ⟨?_, e, he, ?_⟩
  · rw [hrequests, List.mem_cons, List.mem_singleton] at hmem
    rcases hmem with hmem | hmem
    · exact nomatch hmem
    · exact nomatch hmem
  · have hdomain : domainOf "power:main" = "power" := by decide
    rw [hdomain]
    exact Sample.present_of_listed (hlisted e he)
  · rw [hp, Sample.isUnavailable_elim hunavailable]
  · exact Sample.isRead_elim hop

end MsysHal
