import MsysHal.Spec.Pin
import MsysHal.Spec.Switch

/-!
# The reported provider and the routes

`list_providers` and `get_provider` report one active provider for a domain: the
preferred one when the catalog has it, else the one that was last seen to answer,
else the first candidate. The cached routes of the domain lead to the provider of
the inventory that committed them.

The two agree as long as no step moves one without the other. A probe elects an
active provider and leaves the routes, and a discovery may take the owner of the
routes out of the catalog or bring a missing preference back.

## Key results

- `inventory_paired`: an inventory commits its routes together with their owners
- `Owned.step`: one step, unless it moves the active provider away from the routes
- `active_owns_routes`: over every sequence of calls
-/

namespace MsysHal

open Python (Value Runtime)
open Interleave (Prog Issues Path)

/-! ## Owners -/

/-- Whether the component is active for the domain over a catalog once it is the one
    seen last: the catalog names it, and names no other preferred component. -/
def ManagerState.owner (s : ManagerState) (d c : String) (candidates : List Candidate) : Bool :=
  named d c candidates &&
    match s.selections.get? d with
    | none => true
    | some preferred => preferred == c || !named d preferred candidates

/-- The active provider of a domain, as it is reported in this state. -/
def ManagerState.activeFor (s : ManagerState) (d : String) : Option String :=
  (selectionOf (s.selections.get? d) (s.activeProviders.get? d).join
    (s.candidates.filter (·.domains.contains d))).2.1

/-- Each route leads to the provider seen last for its domain, which is still its owner. -/
def Owned (s : ManagerState) : Prop :=
  ∀ x c, s.deviceRoutes.get? x = some c →
    s.activeProviders.get? (domainOf x) = some (some c.component) ∧
    s.owner (domainOf x) c.component s.candidates = true

theorem named_eq (d c : String) (candidates : List Candidate) :
    ((candidates.filter (·.domains.contains d)).any fun candidate =>
      some candidate.component == some c) = named d c candidates := by
  rw [named, List.any_filter]
  congr 1
  funext candidate
  rw [Bool.and_comm]
  rfl

/-- An owner is what is reported. -/
theorem activeFor_of_owner {s : ManagerState} {d c : String}
    (hactive : s.activeProviders.get? d = some (some c)) (h : s.owner d c s.candidates = true) :
    s.activeFor d = some c := by
  rw [ManagerState.owner, Bool.and_eq_true] at h
  simp only [ManagerState.activeFor, selectionOf, hactive, Option.join_some, named_eq]
  cases hp : s.selections.get? d with
  | none =>
    have hnone : ((s.candidates.filter (·.domains.contains d)).any fun candidate =>
        some candidate.component == none) = false := by
      rw [List.any_eq_false]
      exact fun candidate _ h => nomatch h
    rw [hnone, if_neg Bool.false_ne_true, if_pos h.1]
  | some preferred =>
    rw [hp] at h
    simp only [Bool.or_eq_true, beq_iff_eq, Bool.not_eq_true'] at h
    rw [named_eq]
    rcases h.2 with rfl | hmissing
    · rw [if_pos h.1]
    · rw [hmissing, if_neg Bool.false_ne_true, if_pos h.1]

theorem Owned.activeFor {s : ManagerState} (h : Owned s) {x : String} {c : Candidate}
    (hroute : s.deviceRoutes.get? x = some c) : s.activeFor (domainOf x) = some c.component :=
  activeFor_of_owner (h x c hroute).1 (h x c hroute).2

/-! ## One step -/

/-- The component a probe of the domain elects. -/
def ManagerState.elected (s : ManagerState) (d : String) (candidates : List Candidate) :
    Option String :=
  (s.firstWithHealth d (fun h => h.status != .unavailable) candidates).or
    (s.firstWithHealth d (fun h => h.status == .unavailable && h.errorCode.isNone) candidates)

/-- A step that does not move the active provider of a domain away from its routes: a
    new catalog keeps the owners of the routes, the picks of an inventory are owners
    when their routes are committed, and a probe elects the owner of the routes or
    leaves the choice to the preference. -/
def keepsOwners (o : ManagerOp) (s : ManagerState) : Bool :=
  match o with
  | .commitCatalog candidates _ => s.deviceRoutes.items.all fun route =>
      s.owner (domainOf route.1) route.2.component candidates
  | .commitRoutes routes _ => routes.items.all fun route =>
      s.owner (domainOf route.1) route.2.component s.candidates
  | .electActive d candidates => s.deviceRoutes.items.all fun route => domainOf route.1 != d ||
      (candidates.any fun c => some c.component == s.selections.get? d) ||
      s.elected d candidates == some route.2.component
  | _ => true

/-- The routes that are committed and their owners belong together. -/
def Paired (o : ManagerOp) : Prop :=
  ∀ routes active, o = .commitRoutes routes active → ∀ x c, routes.get? x = some c →
    ∀ before : Dict String (Option String),
      (before.update active).get? (domainOf x) = some (some c.component)

theorem owner_congr {s s' : ManagerState} (h : ∀ d, s'.selections.get? d = s.selections.get? d)
    (d c : String) (candidates : List Candidate) :
    s'.owner d c candidates = s.owner d c candidates := by
  rw [ManagerState.owner, ManagerState.owner, h d]

/-- What changes neither the routes, nor the providers seen last, nor the catalog, nor
    the preferences. -/
theorem Owned.congr {s s' : ManagerState} (hs : Owned s)
    (hroutes : s'.deviceRoutes = s.deviceRoutes)
    (hactive : s'.activeProviders = s.activeProviders) (hcatalog : s'.candidates = s.candidates)
    (hselections : ∀ d, s'.selections.get? d = s.selections.get? d) : Owned s' := by
  intro x c hroute
  rw [hroutes] at hroute
  rw [hactive, hcatalog, owner_congr hselections]
  exact hs x c hroute

theorem owned_commitCatalog {s : ManagerState} (hs : Owned s) {candidates : List Candidate}
    {lookup : Option String} {now : ℚ}
    (h : keepsOwners (.commitCatalog candidates lookup) s = true) :
    Owned (s.commitCatalog candidates now) := by
  rw [keepsOwners, List.all_eq_true] at h
  intro x c hroute
  have hkeeps := h (x, c) ((Dict.get?_eq_some_iff _ x c).mp hroute)
  exact ⟨(hs x c hroute).1, hkeeps⟩

theorem owned_electActive {s : ManagerState} (hs : Owned s) {d : String}
    {candidates : List Candidate} (h : keepsOwners (.electActive d candidates) s = true) :
    Owned (s.electActive d candidates) := by
  rw [keepsOwners, List.all_eq_true] at h
  rw [ManagerState.electActive]
  split
  · exact hs
  · next hpreferred =>
    intro x c hroute
    refine ⟨?_, (hs x c hroute).2⟩
    change (s.activeProviders.set d (s.elected d candidates)).get? (domainOf x) = _
    rw [Dict.get?_set]
    split
    · next hd =>
      have hkeeps := h (x, c) ((Dict.get?_eq_some_iff _ x c).mp hroute)
      simp only [hd, bne_self_eq_false, Bool.false_or, Bool.or_eq_true, beq_iff_eq] at hkeeps
      rw [hkeeps.resolve_left hpreferred]
    · exact (hs x c hroute).1

theorem owned_commitRoutes {s : ManagerState} {routes : Dict String Candidate}
    {active : List (String × Option String)}
    (h : keepsOwners (.commitRoutes routes active) s = true)
    (hpaired : Paired (.commitRoutes routes active)) :
    Owned
      { s with deviceRoutes := routes, activeProviders := s.activeProviders.update active } := by
  rw [keepsOwners, List.all_eq_true] at h
  intro x c hroute
  exact ⟨hpaired routes active rfl x c hroute _, h (x, c) ((Dict.get?_eq_some_iff _ x c).mp hroute)⟩

theorem owned_afterCommit {s : ManagerState} (hs : Owned s) (choice : Choice) (data : ByteArray) :
    Owned (s.afterCommit choice data) := by
  intro x c hroute
  obtain ⟨hroute, hdomain⟩ := (Dict.get?_filter _ _ x c).mp hroute
  rw [bne_iff_ne] at hdomain
  obtain ⟨hactive, howner⟩ := hs x c hroute
  refine ⟨?_, ?_⟩
  · change (s.activeProviders.erase choice.domain).get? (domainOf x) = _
    rw [Dict.get?_erase, if_neg hdomain, hactive]
  · rw [ManagerState.owner] at howner ⊢
    change (named _ _ s.candidates && match (s.selections.apply choice).get? (domainOf x) with
      | none => true
      | some preferred =>
        preferred == c.component || !named (domainOf x) preferred s.candidates) = true
    rw [Selections.get?_apply, if_neg hdomain]
    exact howner

/-- One step. -/
theorem Owned.step {o : ManagerOp} {i : Input} {s s' : ManagerState} {r : o.Ret} (hs : Owned s)
    (h : managerExec o i s = some (r, s')) (hkeeps : keepsOwners o s = true) (hpaired : Paired o) :
    Owned s' := by
  cases o <;> simp only [managerExec, Option.some.injEq, Prod.mk.injEq] at h
  -- Three operations change the owners; the guard keeps each of them in order.
  case commitCatalog candidates lookup =>
    obtain ⟨_, rfl⟩ := h
    exact owned_commitCatalog hs hkeeps
  case commitRoutes routes active =>
    obtain ⟨_, rfl⟩ := h
    exact owned_commitRoutes hkeeps hpaired
  case electActive d candidates =>
    obtain ⟨_, rfl⟩ := h
    exact owned_electActive hs hkeeps
  case recordEvent notice =>
    simp only [ManagerState.appendEvent, Prod.mk.injEq] at h
    obtain ⟨_, rfl⟩ := h
    exact hs.congr rfl rfl rfl fun _ => rfl
  -- A choice changes the map, and an active provider only where it changed the routes.
  case commitSelection choice expected =>
    rcases commitSelection_cases s choice expected i.saveError with
      ⟨e, he⟩ | he | ⟨e, he⟩ | ⟨data, _, _, _, he⟩ <;>
      rw [he, Prod.mk.injEq] at h <;> obtain ⟨rfl, rfl⟩ := h
    · exact hs
    · exact hs
    · exact hs.congr rfl rfl rfl fun d => Selections.get?_restore s.selections choice d
    · exact owned_afterCommit hs choice data
  case lockCatalog =>
    split at h
    · cases h
    · simp only [Option.some.injEq, Prod.mk.injEq] at h
      obtain ⟨_, rfl⟩ := h
      exact hs.congr rfl rfl rfl fun _ => rfl
  case watch after timeoutMs deadline domains =>
    split at h
    · cases h
    · simp only [Option.some.injEq, Prod.mk.injEq] at h
      obtain ⟨_, rfl⟩ := h
      exact hs
  -- The other operations leave the owners as they are.
  all_goals
    obtain ⟨_, rfl⟩ := h
    exact hs.congr rfl rfl rfl fun _ => rfl

/-! ## The routes an inventory commits -/

theorem Unrouted.paired {o : ManagerOp} (h : Unrouted o) : Paired o :=
  fun routes active heq => absurd heq (h.ne_commitRoutes routes active)

theorem inventory_paired (rt : Runtime) {domains : Option (List String)}
    (hdomains : ∀ ds, domains = some ds → ds.Nodup) (refresh : Bool) :
    Issues (S := managerSig) Paired (inventory rt domains refresh) := by
  refine ((refreshCatalog_issues rt refresh none).mono fun _ h => h.unrouted.paired).bind
    fun candidates => ?_
  have hnodup : (domains.getD (availableDomains candidates)).Nodup := by
    cases domains with
    | none => exact (availableDomains_ok candidates).1
    | some ds => exact hdomains ds rfl
  refine Path.issues_bind ((pickDomains_looks rt _).mono fun _ h => h.unrouted.paired)
    fun picks log hpath => ?_
  refine (op_issues ?_).bind fun _ => pure_issues _
  rintro routes active heq x c hroute before
  cases heq
  obtain ⟨hfst, hpicks⟩ := pickDomains_mem rt hpath
  -- the route of a device comes from the round for its domain, and there is one such round
  obtain ⟨d, mode, answer, hmem, device, hdevice, rfl⟩ := ofPicks_routes hroute
  obtain ⟨log', -, hpick⟩ := hpicks d _ hmem
  rw [((pickDomain_answer rt hpick).devices device hdevice).owner]
  refine Dict.get?_update ?_ before (List.mem_map.mpr ⟨_, hmem, rfl⟩)
  rw [List.map_map]
  exact hfst ▸ hnodup

/-- An operation that commits no routes. -/
def NoRoutes (o : ManagerOp) : Prop := ∀ routes active, o ≠ .commitRoutes routes active

theorem NoRoutes.paired {o : ManagerOp} (h : NoRoutes o) : Paired o :=
  fun routes active heq => absurd heq (h routes active)

theorem route_paired (rt : Runtime) (x : String) (refresh : Bool) :
    Issues (S := managerSig) Paired (route rt x refresh) := by
  have hread : Issues (S := managerSig) Paired (op (.readRoute x)) :=
    op_issues (NoRoutes.paired fun _ _ h => nomatch h)
  refine Issues.bind ?_ fun known => ?_
  · rw [knownRoute]
    split
    · exact pure_issues _
    · exact hread
  · cases known with
    | some c => exact pure_issues _
    | none =>
      have hone : ∀ ds, some [domainOf x] = some ds → ds.Nodup := by
        rintro ds heq
        cases heq
        exact List.nodup_singleton _
      refine (inventory_paired rt hone refresh).bind fun _ => hread.bind fun found => ?_
      cases found with
      | some c => exact pure_issues _
      | none => exact fail_issues _

theorem serve_paired (rt : Runtime) {request : Request}
    (hdomains : ∀ ds refresh, request = .inventory (some ds) refresh → ds.Nodup) :
    Issues (S := managerSig) Paired (serve rt request) := by
  have hquiet : ∀ {α : Type} {p : ManagerProg α}, Issues (S := managerSig) Unrouted p →
      Issues (S := managerSig) Paired p := fun h => h.mono fun _ => Unrouted.paired
  cases request with
  | inventory domains refresh =>
    refine (inventory_paired rt ?_ refresh).bind fun _ => pure_issues _
    rintro ds rfl
    exact hdomains ds refresh rfl
  | getState x refresh =>
    refine Issues.bind ((route_paired rt x refresh).bind fun c => ?_) fun _ => pure_issues _
    refine (invoke_issues rt (NoRoutes.paired fun _ _ h => nomatch h)).bind fun raw => ?_
    refine (check_issues _).bind fun state => ?_
    exact (op_issues (o := .readRevision) (NoRoutes.paired fun _ _ h => nomatch h)).bind
      fun _ => pure_issues _
  | setState x requested =>
    refine Issues.bind ((route_paired rt x true).bind fun c => ?_) fun _ => pure_issues _
    refine (invoke_issues rt (NoRoutes.paired fun _ _ h => nomatch h)).bind fun raw => ?_
    refine (check_issues _).bind fun state => ?_
    exact (hquiet (recordEvent_issues _)).bind fun _ => pure_issues _
  | listProviders requested refresh probe =>
    exact hquiet ((listProviders_issues rt requested refresh probe).mono fun _ => QuietFor.unrouted)
  | getProvider requested component refresh probe =>
    exact hquiet ((getProvider_issues rt requested component refresh probe).mono
      fun _ => QuietFor.unrouted)
  | selectProvider requested component expected allow =>
    exact hquiet ((selectProvider_issues rt requested component expected allow).mono
      fun _ => Switches.unrouted)
  | watch after timeoutMs domains =>
    refine hquiet (Issues.bind ?_ fun _ => pure_issues _)
    exact (op_issues (o := .clock) trivial).bind fun _ => op_issues (o := .watch _ _ _ _) trivial

/-- The methods that make a request. -/
def Request.methods : Request → List String
  | .inventory _ _ => ["inventory"]
  | .getState _ _ => ["get_state"]
  | .setState _ _ => ["set_state"]
  | .listProviders _ _ _ => ["list_providers"]
  | .getProvider _ _ _ _ => ["get_provider"]
  | .selectProvider _ _ _ _ => ["select_provider", "reset_provider"]
  | .watch _ _ _ => ["watch"]

theorem parseRequest_method {rt : Runtime} {method : String} {payload : Value} {request : Request}
    (h : parseRequest rt method payload = .ok request) : method ∈ request.methods := by
  -- whatever the checks of a method answer, what they end with is a request of that method
  have hstep : ∀ {α : Type} {x : Except HalError α} {f : α → Except HalError Request},
      (x >>= f) = .ok request → ∃ a, f a = .ok request := by
    intro α x f h
    obtain ⟨a, -, h⟩ := Except.bind_eq_ok_iff.mp h
    exact ⟨a, h⟩
  unfold parseRequest at h
  split at h
  · obtain ⟨_, h⟩ := hstep h
    obtain ⟨_, h⟩ := hstep h
    obtain ⟨_, h⟩ := hstep h
    cases h
    exact List.mem_singleton_self _
  · obtain ⟨_, h⟩ := hstep h
    obtain ⟨_, h⟩ := hstep h
    obtain ⟨_, h⟩ := hstep h
    cases h
    exact List.mem_singleton_self _
  · obtain ⟨_, h⟩ := hstep h
    obtain ⟨_, h⟩ := hstep h
    obtain ⟨_, h⟩ := hstep h
    cases h
    exact List.mem_singleton_self _
  · obtain ⟨_, h⟩ := hstep h
    dsimp only at h
    split at h <;>
    · obtain ⟨_, h⟩ := hstep h
      obtain ⟨_, h⟩ := hstep h
      obtain ⟨_, h⟩ := hstep h
      split at h
      · exact nomatch h
      · cases h
        exact List.mem_singleton_self _
  · obtain ⟨_, h⟩ := hstep h
    obtain ⟨_, h⟩ := hstep h
    dsimp only at h
    split at h <;>
    · obtain ⟨_, h⟩ := hstep h
      obtain ⟨_, h⟩ := hstep h
      obtain ⟨_, h⟩ := hstep h
      cases h
      exact List.mem_singleton_self _
  · obtain ⟨_, h⟩ := hstep h
    obtain ⟨_, h⟩ := hstep h
    dsimp only at h
    split at h <;>
    · obtain ⟨_, h⟩ := hstep h
      obtain ⟨_, h⟩ := hstep h
      obtain ⟨_, h⟩ := hstep h
      split at h
      · exact nomatch h
      · cases h
        exact List.mem_cons_self
  · obtain ⟨_, h⟩ := hstep h
    obtain ⟨_, h⟩ := hstep h
    obtain ⟨_, h⟩ := hstep h
    cases h
    exact List.mem_cons_of_mem _ List.mem_cons_self
  · obtain ⟨_, h⟩ := hstep h
    obtain ⟨_, h⟩ := hstep h
    obtain ⟨_, h⟩ := hstep h
    obtain ⟨_, h⟩ := hstep h
    cases h
    exact List.mem_singleton_self _
  · exact nomatch h

theorem handle_paired (rt : Runtime) (method : String) (payload : Value) :
    Issues (S := managerSig) Paired (handle rt method payload) := by
  refine Path.issues_bind (check_issues _) fun request log hpath => ?_
  obtain ⟨-, hparse⟩ := check_path hpath
  have hparse := Except.mapError_eq_ok_iff.mp hparse.symm
  refine serve_paired rt ?_
  rintro ds refresh rfl
  obtain rfl := List.mem_singleton.mp (parseRequest_method hparse)
  exact (inventory_request_ok hparse ds rfl).1

/-! ## What is reported -/

/-- The active provider that a reply reports for a domain: in a row of its listing, or
    for the domain it is about. -/
def reported (reply : Value) (d : String) : Option Value :=
  let rows := match reply.get? "providers" with
    | some (.list rows) => rows
    | _ => [reply]
  (rows.find? fun row => (row.get? "domain").any (·.isKey d)).bind (·.get? "active")

/-- Whatever a reply reports is the active provider of the domain in this state. -/
def ReportsActive (s : ManagerState) (reply : Value) : Prop :=
  ∀ d active, reported reply d = some active → active = optionalString (s.activeFor d)

/-- The row of a domain with the active provider of this state. -/
def ActiveRow (s : ManagerState) (row : Value) : Prop :=
  ∃ d, row.get? "domain" = some (.str d) ∧ row.get? "active" = some (optionalString (s.activeFor d))

theorem ActiveRow.find {s : ManagerState} (rows : List Value) (h : ∀ row ∈ rows, ActiveRow s row)
    {d : String} {active : Value}
    (hfind : (rows.find? fun row => (row.get? "domain").any (·.isKey d)).bind (·.get? "active") =
      some active) : active = optionalString (s.activeFor d) := by
  obtain ⟨row, hrow, hactive⟩ := Option.bind_eq_some_iff.mp hfind
  obtain ⟨d', hdomain, hactive'⟩ := h row (List.mem_of_find?_eq_some hrow)
  have hkey := List.find?_some hrow
  rw [hdomain, Option.any_some, Value.isKey, beq_iff_eq] at hkey
  rw [hactive', Option.some.injEq] at hactive
  rw [← hactive, hkey]

theorem catalogPayload_reports {s : ManagerState} {revision : Nat} {rows : List Value}
    {reply : Value}
    (h : catalogPayload revision rows = .ok reply) (hrows : ∀ row ∈ rows, ActiveRow s row) :
    ReportsActive s reply := by
  obtain ⟨_, -, h⟩ := Except.bind_eq_ok_iff.mp h
  cases h
  exact fun d active hreport => ActiveRow.find rows hrows hreport

theorem providerPayload_reports {s : ManagerState} {revision : Nat} {d : String}
    {preferred : Option String} {mode : SelectionMode} {detail reply : Value}
    (h : providerPayload revision d preferred (s.activeFor d) mode detail = .ok reply) :
    ReportsActive s reply := by
  obtain ⟨_, -, h⟩ := Except.bind_eq_ok_iff.mp h
  cases h
  intro d' active hreport
  refine ActiveRow.find [_] (fun row hrow => ?_) hreport
  rw [List.mem_singleton.mp hrow]
  exact ⟨d, rfl, rfl⟩

/-! ### The catalog of a report -/

/-- A catalog that is read is the one of the state. -/
private theorem readCatalog_current {force : Bool} {lookup : Option String} {i : Input}
    {s s' : ManagerState} {candidates : List Candidate}
    (h : managerExec (.readCatalog force lookup) i s = some (some candidates, s')) :
    s'.candidates = candidates := by
  simp only [managerExec, Option.some.injEq, Prod.mk.injEq] at h
  obtain ⟨hread, rfl⟩ := h
  split at hread
  · exact Option.some.inj hread
  · cases hread

theorem rediscover_current (rt : Runtime) (force : Bool) (lookup : Option String)
    (s : ManagerState) : (rediscover rt force lookup).wp managerMachine
      (fun x _ s' => ∀ candidates, x = .ok candidates → s'.candidates = candidates) s := by
  refine Interleave.wp_perform_bind fun i known s' hread => ?_
  cases known with
  | some candidates =>
    refine Interleave.wp_pure fun candidates' h => ?_
    cases h
    exact readCatalog_current hread
  | none =>
    -- the discovery ends with the commit of what it returns
    have htrue : ∀ {α : Type} (p : ManagerProg α) s, p.wp managerMachine (fun _ _ _ => True) s :=
      fun p s => Interleave.wp_mono (Interleave.wp_path p s) fun _ _ _ _ => trivial
    refine Interleave.wp_bind (htrue _ _) (fun found _ s₁ _ => ?_) fun e _ _ _ _ h => nomatch h
    refine Interleave.wp_bind (htrue _ _) (fun specs _ s₂ _ => ?_) fun e _ _ _ _ h => nomatch h
    refine Interleave.wp_bind (htrue _ _) (fun candidates _ s₃ _ => ?_) fun e _ _ _ _ h => nomatch h
    refine Interleave.wp_perform fun i r s₄ hcommit candidates' h => ?_
    cases h
    obtain ⟨rfl, rfl⟩ := hcommit
    rfl

/-- What `refresh_catalog` returns is the catalog from then on. -/
theorem refreshCatalog_current (rt : Runtime) (force : Bool) (lookup : Option String)
    (s : ManagerState) : (refreshCatalog rt force lookup).wp managerMachine
      (fun x _ s' => ∀ candidates, x = .ok candidates → s'.candidates = candidates) s := by
  refine Interleave.wp_perform_bind fun i known s' hread => ?_
  cases known with
  | some candidates =>
    refine Interleave.wp_pure fun candidates' h => ?_
    cases h
    exact readCatalog_current hread
  | none =>
    refine Interleave.wp_perform_bind fun i _ s₁ _ => ?_
    refine Interleave.wp_attempt_bind (rediscover_current rt force lookup s₁) fun x _ s₂ hx => ?_
    refine Interleave.wp_perform_bind fun i _ s₃ hunlock => ?_
    refine Interleave.wp_ofExcept fun candidates hok => ?_
    obtain ⟨-, rfl⟩ := hunlock
    exact hx candidates hok

/-! ### The listings -/

theorem shownRow_active {s : ManagerState} {detailed : Bool} {d : String} :
    ActiveRow s (s.shownRow detailed s.candidates d) :=
  ⟨d, rfl, rfl⟩

/-- The operations of a listing between its catalog and its rows. -/
def Elects (d : String) (o : ManagerOp) : Prop :=
  Probes d o ∨ ∃ candidates, o = .electActive d candidates

theorem probeDomain_elects (rt : Runtime) (probe : Bool) (d : String)
    (candidates : List Candidate) :
    Issues (S := managerSig) (Elects d) (probeDomain rt probe d candidates) := by
  have hall : ∀ matched, Issues (S := managerSig) (Elects d) (probeAll rt d matched) := by
    intro matched
    induction matched with
    | nil => exact pure_issues _
    | cons candidate rest ih =>
      exact ((probeCandidate_probes rt candidate d 2000).mono fun _ => .inl).attempt.bind fun _ =>
        ih
  rw [probeDomain]
  split
  · exact (hall _).bind fun _ => op_issues (.inr ⟨_, rfl⟩)
  · exact pure_issues _

theorem Elects.exec {d : String} {o : ManagerOp} {i : Input} {s s' : ManagerState} {r : o.Ret}
    (ho : Elects d o) (h : managerExec o i s = some (r, s')) : s'.candidates = s.candidates := by
  rcases ho with ho | ⟨candidates, rfl⟩
  · cases o <;> simp only [Probes] at ho <;>
      simp only [managerExec, Option.some.injEq, Prod.mk.injEq] at h <;> obtain ⟨_, rfl⟩ :=
        h <;> rfl
  · simp only [managerExec, Option.some.injEq, Prod.mk.injEq] at h
    obtain ⟨_, rfl⟩ := h
    rw [ManagerState.electActive]
    split <;> rfl

/-- A probe does not move the active provider. -/
theorem Probes.activeFor {d : String} {o : ManagerOp} {i : Input} {s s' : ManagerState} {r : o.Ret}
    (ho : Probes d o) (h : managerExec o i s = some (r, s')) : s'.activeFor = s.activeFor := by
  cases o <;> simp only [Probes] at ho <;>
    simp only [managerExec, Option.some.injEq, Prod.mk.injEq] at h <;> obtain ⟨_, rfl⟩ := h <;> rfl

/-- A listing from its rows on. -/
private theorem rows_report (s : ManagerState) (detailed : Bool) (ds : List String) :
    (providerRows detailed s.candidates ds >>= fun rows => op .readRevision >>= fun revision =>
      check (catalogPayload revision rows)).wp managerMachine
      (fun x _ s' => ∀ reply, x = .ok reply → ReportsActive s' reply) s := by
  have hrevision : Reading (op .readRevision) s s.revision := .op .readRevision trivial fun i => rfl
  refine Interleave.wp_bind (providerRows_shown s detailed s.candidates ds) ?_
    fun e _ _ h => nomatch h.1
  rintro rows log₁ s₁ ⟨hrows, rfl, -⟩
  cases hrows
  refine Interleave.wp_bind hrevision ?_ fun e _ _ h => nomatch h.1
  rintro revision log₂ s₂ ⟨-, rfl, -⟩
  refine Interleave.wp_ofExcept fun reply hreply => ?_
  refine catalogPayload_reports (Except.mapError_eq_ok_iff.mp hreply) fun row hrow => ?_
  obtain ⟨d, -, rfl⟩ := List.mem_map.mp hrow
  exact shownRow_active

theorem listProviders_reports (rt : Runtime) (requested : Option String) (refresh probe : Bool)
    (s : ManagerState) : (listProviders rt requested refresh probe).wp managerMachine
      (fun x _ s' => ∀ reply, x = .ok reply → ReportsActive s' reply) s := by
  refine Interleave.wp_bind (refreshCatalog_current rt refresh none s) ?_ fun e _ _ _ _ h =>
    nomatch h
  intro candidates log s' hcurrent
  cases hcurrent candidates rfl
  cases requested with
  | none => exact rows_report s' false _
  | some d =>
    have hprobe : (probeDomain rt probe d s'.candidates).wp managerMachine
        (fun _ _ s'' => s''.candidates = s'.candidates) s' := by
      refine Interleave.wp_issues (M := managerMachine) (P := Elects d)
        (R := fun s s' => s'.candidates = s.candidates)
        (fun _ => rfl) ?_ (fun _ _ _ _ _ => Elects.exec) (probeDomain_elects rt probe d _) s'
      intro s₁ s₂ s₃ h₁ h₂
      exact h₂.trans h₁
    refine Interleave.wp_bind hprobe ?_ fun e _ _ _ _ h => nomatch h
    intro _ _ s'' hkept
    rw [← hkept]
    exact rows_report s'' true [d]

theorem getProvider_reports (rt : Runtime) (d : String) (component : Option String)
    (refresh probe : Bool) (s : ManagerState) :
    (getProvider rt d component refresh probe).wp managerMachine
      (fun x _ s' => ∀ reply, x = .ok reply → ReportsActive s' reply) s := by
  -- The candidates are those of the state that the catalog leaves.
  have hmatched : (candidatesFor rt d refresh none).wp managerMachine (fun x _ s' =>
      ∀ matched, x = .ok matched → s'.candidates.filter (·.domains.contains d) = matched) s := by
    refine Interleave.wp_bind (refreshCatalog_current rt refresh none s) ?_
      fun e _ _ _ _ h => by cases h
    intro candidates _ s' hcurrent
    refine Interleave.wp_pure fun matched h => ?_
    cases h
    rw [hcurrent candidates rfl]
  refine Interleave.wp_bind hmatched ?_ fun e _ _ _ _ h => by cases h
  intro matched _ s' hs'
  cases hs' matched rfl
  -- The preferred and the active provider are read of this state.
  have hselection : Reading (selectionFor d (s'.candidates.filter (·.domains.contains d))) s'
      (selectionOf (s'.selections.get? d) (s'.activeProviders.get? d).join
        (s'.candidates.filter (·.domains.contains d))) :=
    (Reading.op (.readSelectionActive d) trivial fun i => rfl).bind (.pure _ s')
  refine Interleave.wp_bind hselection ?_ fun e _ _ h => by cases h.1
  rintro ⟨preferred, active, mode⟩ _ s₁ ⟨hsel, rfl, -⟩
  rw [Except.ok.injEq] at hsel
  have hactive : active = s₁.activeFor d := congrArg (fun x => x.2.1) hsel
  subst hactive
  -- Each way out reports the active provider that was read.
  have hreply : ∀ s₂ detail revision, s₂.activeFor d = s₁.activeFor d →
      (check (providerPayload revision d preferred (s₁.activeFor d) mode detail)).wp managerMachine
        (fun x _ s' => ∀ reply, x = .ok reply → ReportsActive s' reply) s₂ := by
    intro s₂ detail revision hkept
    refine Interleave.wp_ofExcept fun reply h => ?_
    rw [← hkept] at h
    exact providerPayload_reports (Except.mapError_eq_ok_iff.mp h)
  dsimp only
  split
  · exact Interleave.wp_raise fun _ h => by cases h
  · refine Interleave.wp_bind (Reading.op .readRevision trivial fun i => rfl) ?_
      fun e _ _ h => by cases h.1
    rintro revision _ s₂ ⟨-, rfl, -⟩
    exact hreply s₂ _ revision rfl
  · next candidate _ =>
    -- The probe of a provider leaves the active ones as they are.
    have hprobe : (probeOne rt probe candidate d).wp managerMachine
        (fun _ _ s₂ => s₂.activeFor = s₁.activeFor) s₁ := by
      have hissues : Issues (S := managerSig) (Probes d) (probeOne rt probe candidate d) := by
        rw [probeOne]
        split
        · exact (probeCandidate_probes rt candidate d 2000).attempt.bind fun _ => pure_issues _
        · exact pure_issues _
      refine Interleave.wp_issues (M := managerMachine) (P := Probes d)
        (R := fun s s' => s'.activeFor = s.activeFor)
        (fun _ => rfl) ?_ (fun _ _ _ _ _ => Probes.activeFor) hissues s₁
      intro s₁ s₂ s₃ h₁ h₂
      exact h₂.trans h₁
    refine Interleave.wp_bind hprobe ?_ fun e _ _ _ _ h => by cases h
    intro _ _ s₂ hkept
    refine Interleave.wp_bind (Reading.op .readRevision trivial fun i => rfl) ?_
      fun e _ _ h => by cases h.1
    rintro revision _ s₃ ⟨-, rfl, -⟩
    refine Interleave.wp_bind (Reading.bind (Reading.op (.readHealth candidate.component d) trivial
      fun i => rfl) (.pure _ _)) ?_ fun e _ _ h => by cases h.1
    rintro detail _ s₄ ⟨-, rfl, -⟩
    exact hreply s₄ detail revision (congrFun hkept d)

/-- `list_providers` and `get_provider` report the active providers of the state they leave. -/
theorem handle_reports (rt : Runtime) {method : String}
    (hmethod : method = "list_providers" ∨ method = "get_provider") (payload : Value)
    (s : ManagerState) : (handle rt method payload).wp managerMachine
      (fun x _ s' => ∀ reply, x = .ok reply → ReportsActive s' reply) s := by
  refine Interleave.wp_bind (Interleave.wp_path _ s) ?_ fun e _ _ _ _ h => nomatch h
  intro request _ s' hpath
  obtain ⟨-, hparse⟩ := check_path hpath
  have hrequest := parseRequest_method (Except.mapError_eq_ok_iff.mp hparse.symm)
  cases request with
  | listProviders requested refresh probe =>
    exact listProviders_reports rt requested refresh probe s'
  | getProvider d component refresh probe =>
    exact getProvider_reports rt d component refresh probe s'
  | inventory _ _ =>
    rcases hmethod with rfl | rfl <;> exact absurd hrequest (by simp [Request.methods])
  | getState _ _ =>
    rcases hmethod with rfl | rfl <;> exact absurd hrequest (by simp [Request.methods])
  | setState _ _ =>
    rcases hmethod with rfl | rfl <;> exact absurd hrequest (by simp [Request.methods])
  | selectProvider _ _ _ _ =>
    rcases hmethod with rfl | rfl <;> exact absurd hrequest (by simp [Request.methods])
  | watch _ _ _ =>
    rcases hmethod with rfl | rfl <;> exact absurd hrequest (by simp [Request.methods])

/-! ## Sequences of calls -/

/-- A call of a client: the method, its payload and what the environment supplies. -/
structure ManagerCall where
  method : String
  payload : Value
  inputs : Nat → Input

/-- What a call leaves and replies, one call alone. -/
def ManagerCall.run (rt : Runtime) (call : ManagerCall) (s : ManagerState) :
    Option (Interleave.Outcome ManagerState Input PyError Value) :=
  (handle rt call.method call.payload).run managerMachine call.inputs s

/-- The states and replies of a sequence of calls, each after the one before it. -/
inductive Sequential (rt : Runtime) : ManagerState →
    List (ManagerCall × Interleave.Outcome ManagerState Input PyError Value) → Prop where
  | nil (s : ManagerState) : Sequential rt s []
  | cons {s : ManagerState} {call : ManagerCall}
    {out : Interleave.Outcome ManagerState Input PyError Value}
    {calls : List (ManagerCall × Interleave.Outcome ManagerState Input PyError Value)}
    (h : call.run rt s = some out) (hrest : Sequential rt out.state calls) :
    Sequential rt s ((call, out) :: calls)

/-- Whether no step of a call moves an active provider away from its routes. -/
def ManagerCall.keepsOwners (rt : Runtime) (call : ManagerCall) (s : ManagerState) : Bool :=
  (handle rt call.method call.payload).along managerMachine (fun o _ s => MsysHal.keepsOwners o s)
    call.inputs s

/-- `keepsOwners` for each call of a sequence, in the state before it. -/
def KeepsOwners (rt : Runtime) : ManagerState →
    List (ManagerCall × Interleave.Outcome ManagerState Input PyError Value) → Prop
  | _, [] => True
  | s, (call, out) :: calls => call.keepsOwners rt s = true ∧ KeepsOwners rt out.state calls

/-- One call. -/
theorem Owned.call {rt : Runtime} {call : ManagerCall} {s : ManagerState}
    {out : Interleave.Outcome ManagerState Input PyError Value} (hs : Owned s)
    (h : call.run rt s = some out) (hkeeps : call.keepsOwners rt s = true) : Owned out.state := by
  have hrun := Interleave.run_restrict h hkeeps
  refine (handle_paired rt call.method call.payload).run (R := fun s s' => Owned s → Owned s')
    (fun _ h => h) (fun _ _ _ h h' hs => h' (h hs)) ?_ hrun hs
  intro o i s r s' hpaired hexec hs
  obtain ⟨hexec, htest⟩ := Interleave.Machine.of_restrict hexec
  exact hs.step hexec htest hpaired

/-- For every sequence of calls from the start of the manager, with any replies of the
    providers and any change of the catalog, in which no step moves an active
    provider away from its routes: after each call each route leads to the active
    provider of its domain, and a listing or a provider detail reports that one. -/
theorem active_owns_routes (rt : Runtime) (file : Option ByteArray) (ttl : ℚ) (s₀ : ManagerState)
    (hinit : ManagerState.init rt file ttl = .ok s₀)
    (calls : List (ManagerCall × Interleave.Outcome ManagerState Input PyError Value))
    (hcalls : Sequential rt s₀ calls) (hkeeps : KeepsOwners rt s₀ calls) :
    ∀ x ∈ calls, ∀ id c, x.2.state.deviceRoutes.get? id = some c →
      x.2.state.activeFor (domainOf id) = some c.component ∧
      (x.1.method = "list_providers" ∨ x.1.method = "get_provider" →
        ∀ reply active, x.2.result = .ok reply → reported reply (domainOf id) = some active →
          active = .str c.component) := by
  have hstart : Owned s₀ := by
    simp only [ManagerState.init, bind, Except.bind] at hinit
    split at hinit
    · exact nomatch hinit
    · cases hinit
      exact fun x c hroute => nomatch hroute
  clear hinit
  induction hcalls with
  | nil s => exact fun x hx => nomatch hx
  | @cons s call out calls h _ ih =>
    have howned := hstart.call h hkeeps.1
    intro x hx
    rcases List.mem_cons.mp hx with rfl | hx
    · intro id c hroute
      have hactive := howned.activeFor hroute
      refine ⟨hactive, fun hmethod reply active hresult hreport => ?_⟩
      have hreports :=
        Interleave.wp_of_run (handle_reports rt hmethod call.payload s) h reply hresult
      rw [hreports _ active hreport, hactive]
      rfl
    · exact ih hkeeps.2 howned x hx

namespace Sample

/-- A client asks for the inventory of `power`; both providers are discovered, and the
    second one answers when the first does not. -/
def inventoryCall (first second : Reply) : ManagerCall where
  method := "inventory"
  payload := .object [("domains", strings ["power"])]
  inputs :=
    let quiet : Input := {}
    let answer (reply : Reply) : Input := { reply := reply }
    supply [quiet, quiet, quiet, answer (discovery ["a.b:c", "a.b:e"]),
      answer (description "a.b:c" ["power"]), answer (description "a.b:e" ["power"]), quiet, quiet,
      quiet, quiet, quiet, answer first, quiet, quiet, quiet, answer second]

/-- The inventory of a provider with the one device `power:main`. -/
def mainOf (component : String) : Reply :=
  inventory component "power" [device "power:main" "power" []]

/-- A client lists the providers of `power`, with a probe or without. -/
def listCall (probe : Bool) : ManagerCall where
  method := "list_providers"
  payload := .object [("domain", .str "power"), ("probe", .bool probe)]
  inputs :=
    let quiet : Input := {}
    let answer (reply : Reply) : Input := { reply := reply }
    supply [quiet, quiet, answer (mainOf "a.b:c"), quiet, quiet, quiet, answer (mainOf "a.b:e")]

/-- Two calls, one after the other, and a test of what they leave and reply. -/
def inTurn (first second : ManagerCall)
    (test : Interleave.Outcome ManagerState Input PyError Value →
      Interleave.Outcome ManagerState Input PyError Value → Bool) : Bool :=
  (first.run Runtime.sample start).any fun out =>
    (second.run Runtime.sample out.state).any fun out' => test out out'

theorem inTurn_elim {first second : ManagerCall}
    {test : Interleave.Outcome ManagerState Input PyError Value →
      Interleave.Outcome ManagerState Input PyError Value → Bool}
    (h : inTurn first second test = true) : ∃ out out',
      Sequential Runtime.sample start [(first, out), (second, out')] ∧ test out out' = true := by
  obtain ⟨out, hfirst, h⟩ := (Option.any_eq_true _ _).mp h
  obtain ⟨out', hsecond, htest⟩ := (Option.any_eq_true _ _).mp h
  exact ⟨out, out', .cons hfirst (.cons hsecond (.nil _)), htest⟩

/-- Whether `power:main` leads to the component and the reply reports the other one. -/
def leadsAndReports (route active : String)
    (out : Interleave.Outcome ManagerState Input PyError Value) : Bool :=
  ((out.state.deviceRoutes.get? "power:main").any (·.component == route)) &&
    match out.result with
    | .ok reply => (reported reply "power").any (·.isKey active)
    | .error _ => false

theorem leadsAndReports_elim {route active : String}
    {out : Interleave.Outcome ManagerState Input PyError Value}
    (h : leadsAndReports route active out = true) : ∃ c reply,
      out.state.deviceRoutes.get? "power:main" = some c ∧ c.component = route ∧
      out.result = .ok reply ∧ reported reply "power" = some (.str active) := by
  rw [leadsAndReports, Bool.and_eq_true] at h
  obtain ⟨c, hroute, hc⟩ := (Option.any_eq_true _ _).mp h.1
  have hresult := h.2
  split at hresult
  · next reply hreply =>
    obtain ⟨v, hreport, hkey⟩ := (Option.any_eq_true _ _).mp hresult
    refine ⟨c, reply, hroute, beq_iff_eq.mp hc, hreply, ?_⟩
    cases v <;> simp only [Value.isKey, Bool.false_eq_true] at hkey
    rw [hreport, beq_iff_eq.mp hkey]
  · cases hresult

end Sample

/-- A listing after an inventory reports the provider of the routes. -/
theorem active_owns_routes_listed : ∃ out out',
    Sequential Runtime.sample Sample.start [(Sample.inventoryCall (Sample.mainOf "a.b:c")
      (.unreachable "TimeoutError"), out), (Sample.listCall false, out')] ∧
    out'.state.activeFor "power" = some "a.b:c" := by
  have heval : Sample.inTurn (Sample.inventoryCall (Sample.mainOf "a.b:c")
      (.unreachable "TimeoutError")) (Sample.listCall false) (fun out out' =>
        (Sample.inventoryCall (Sample.mainOf "a.b:c") (.unreachable "TimeoutError")).keepsOwners
          Runtime.sample Sample.start && (Sample.listCall false).keepsOwners
            Runtime.sample out.state &&
        Sample.leadsAndReports "a.b:c" "a.b:c" out') = true := by
    decide +kernel
  obtain ⟨out, out', hcalls, htest⟩ := Sample.inTurn_elim heval
  simp only [Bool.and_eq_true] at htest
  obtain ⟨c, reply, hroute, hc, -⟩ := Sample.leadsAndReports_elim htest.2
  refine ⟨out, out', hcalls, ?_⟩
  have howns := (active_owns_routes Runtime.sample none 30 Sample.start Sample.init_start _ hcalls
    ⟨htest.1.1, htest.1.2, trivial⟩ _ (List.mem_cons_of_mem _ List.mem_cons_self) _ c hroute).1
  exact hc ▸ howns

/-- A probe elects the first provider again while the routes still lead to the second. -/
theorem active_leaves_routes : ¬∀ (rt : Runtime) (file : Option ByteArray) (ttl : ℚ)
    (s₀ : ManagerState), ManagerState.init rt file ttl = .ok s₀ →
    ∀ calls : List (ManagerCall × Interleave.Outcome ManagerState Input PyError Value),
      Sequential rt s₀ calls →
    ∀ x ∈ calls, ∀ id c, x.2.state.deviceRoutes.get? id = some c →
      x.1.method = "list_providers" ∨ x.1.method = "get_provider" →
      ∀ reply active, x.2.result = .ok reply → reported reply (domainOf id) = some active →
        active = .str c.component := by
  intro hclaim
  have heval : Sample.inTurn (Sample.inventoryCall (.unreachable "TimeoutError")
      (Sample.mainOf "a.b:e")) (Sample.listCall true)
      (fun _ out' => Sample.leadsAndReports "a.b:e" "a.b:c" out') = true := by
    decide +kernel
  obtain ⟨out, out', hcalls, htest⟩ := Sample.inTurn_elim heval
  obtain ⟨c, reply, hroute, hc, hreply, hreport⟩ := Sample.leadsAndReports_elim htest
  have heq := hclaim Runtime.sample none 30 Sample.start Sample.init_start _ hcalls _
    (List.mem_cons_of_mem _ List.mem_cons_self) _ c hroute (.inl rfl) reply _ hreply hreport
  rw [hc] at heq
  exact absurd heq (by simp)

end MsysHal
