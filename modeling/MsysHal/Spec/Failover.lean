import MsysHal.Spec.Active
import MsysHal.Spec.Catalog

/-!
# Failover and health probing

An inventory asks the candidates of a domain one after the other until one gives
a usable answer. A listing with probes asks all of them and chooses from the
health table. When every candidate has one answer, both come to the provider
that the reference choice names.

## Key results

- `tryCandidates_choice`: the failover loop, by the answers of the candidates
- `probeAll_health`: the health table after the probes
- `selection_of_health`: the choice of a listing from the health table
- `failover_agrees`: both reports, from every reachable state
-/

namespace MsysHal

open Python (Value Runtime)
open Interleave (Prog Issues Path Pool Label)

/-! ## The reference choice -/

/-- An answer that is available or degraded. -/
def Answer.isUsable : Except PyError Answer → Bool
  | .ok answer => answer.status != .unavailable
  | .error _ => false

/-- An answer that says, in the form of an inventory, that the domain is unavailable. -/
def Answer.isUnavailable : Except PyError Answer → Bool
  | .ok answer => answer.status == .unavailable
  | .error _ => false

/-- The provider of a domain and the mode: the pinned candidate where the catalog has
    it for the domain, else the first candidate by falling priority and then by name
    that is available or degraded, else the first that says it is unavailable, else
    the first one. -/
def referenceChoice (catalog : List Candidate) (d : String) (pinned : Option String)
    (outcome : Candidate → Except PyError Answer) : Option String × SelectionMode :=
  let candidates := sortCandidates (catalog.filter (·.domains.contains d))
  if candidates.any (fun c => some c.component == pinned) then (pinned, .manual)
  else
    ((((candidates.find? fun c => Answer.isUsable (outcome c)).or
        (candidates.find? fun c => Answer.isUnavailable (outcome c))).or
        candidates.head?).map (·.component),
      if pinned.isSome then .stale else .automatic)

/-! ## One world -/

/-- The answer of a provider to an inventory call, with the address of the provider. -/
def queryReply : ((o : managerSig.Op) × managerSig.Ret o) → Option (String × Reply)
  | ⟨.call target "inventory" _ _ _, reply⟩ => some (target, reply)
  | _ => none

/-- Throughout a log the catalog is this one and each provider has this answer. -/
structure OneWorld (catalog : List Candidate) (reply : String → Reply) (log : ManagerLog) :
    Prop where
  catalog : ∀ x ∈ log, ∀ lookup found, catalogStep lookup x = some found → found = catalog
  replies : ∀ x ∈ log, ∀ target answer, queryReply x = some (target, answer) →
    answer = reply target

namespace OneWorld

variable {catalog : List Candidate} {reply : String → Reply} {log log' : ManagerLog}

theorem append (h : OneWorld catalog reply (log ++ log')) :
    OneWorld catalog reply log ∧ OneWorld catalog reply log' :=
  ⟨⟨fun x hx => h.catalog x (List.mem_append_left _ hx),
      fun x hx => h.replies x (List.mem_append_left _ hx)⟩,
    ⟨fun x hx => h.catalog x (List.mem_append_right _ hx),
      fun x hx => h.replies x (List.mem_append_right _ hx)⟩⟩

theorem tail {x : (o : managerSig.Op) × managerSig.Ret o} (h : OneWorld catalog reply (x :: log)) :
    OneWorld catalog reply log :=
  (show OneWorld catalog reply ([x] ++ log) from h).append.2

end OneWorld

section World

variable {rt : Runtime} {catalog : List Candidate} {reply : String → Reply} {d : String}

/-- A probe returns what the answer of the candidate is worth. -/
theorem probeCandidate_outcome {candidate : Candidate} {timeoutMs : Nat} {log : ManagerLog}
    {result : Except PyError Answer}
    (h : Path (S := managerSig) (probeCandidate rt candidate d timeoutMs) log result)
    (hworld : OneWorld catalog reply log) :
    result = acceptedAnswer rt candidate d (reply candidate.target) := by
  obtain ⟨started, log₁, rfl, hcall⟩ := op_bind_path h
  obtain ⟨answer, log₂, rfl, hfinish⟩ := op_bind_path hcall
  obtain ⟨finished, log₃, rfl, hrecord⟩ := op_bind_path hfinish
  have hanswer : answer = reply candidate.target :=
    hworld.tail.replies _ List.mem_cons_self _ _ rfl
  subst hanswer
  split at hrecord
  all_goals
    next houtcome =>
    obtain ⟨_, log₄, rfl, hend⟩ := op_bind_path hrecord
    cases hend
    exact houtcome.symm

/-! ## The failover loop -/

/-- The provider an inventory reports for a domain. -/
def Pick.provider : Pick → Option String
  | .noProvider _ => none
  | .failed _ component _ => some component
  | .active _ candidate _ => some candidate.component

/-- The mode an inventory reports for a domain. -/
def Pick.mode : Pick → SelectionMode
  | .noProvider mode => mode
  | .failed mode _ _ => mode
  | .active mode _ _ => mode

/-- The failover loop without a pinned candidate. -/
theorem tryCandidates_choice {mode : SelectionMode} (hmode : mode ≠ .manual) {first : Candidate}
    {candidates : List Candidate} {error : Option String}
    {unavailable : Option (Candidate × Answer)} {log : ManagerLog} {result : Except PyError Pick}
    (h : Path (S := managerSig) (tryCandidates rt d mode first candidates error unavailable) log
      result) (hworld : OneWorld catalog reply log) :
    ∃ pick, result = .ok pick ∧ pick.mode = mode ∧ pick.provider = some
      ((((candidates.find? fun c => Answer.isUsable (acceptedAnswer rt c d (reply c.target))).or
        (unavailable.map Prod.fst)).or
        (candidates.find? fun c =>
          Answer.isUnavailable (acceptedAnswer rt c d (reply c.target)))).getD
        first).component := by
  -- Induction on the candidates; an answer that is kept stands before the later ones.
  induction candidates generalizing error unavailable log with
  | nil =>
    obtain ⟨-, rfl⟩ := Path.of_pure h
    refine ⟨_, rfl, ?_⟩
    cases unavailable with
    | none => exact ⟨rfl, rfl⟩
    | some kept => exact ⟨rfl, rfl⟩
  | cons candidate rest ih =>
    obtain ⟨outcome, log₁, log₂, rfl, hprobe, hrest⟩ := Path.of_attempt_bind h
    obtain ⟨hworld₁, hworld₂⟩ := hworld.append
    have houtcome := probeCandidate_outcome hprobe hworld₁
    rw [List.find?_cons, List.find?_cons, ← houtcome]
    cases outcome with
    | error e =>
      -- An error is passed over, since no candidate is pinned.
      dsimp only at hrest
      rw [if_neg hmode] at hrest
      exact ih hrest hworld₂
    | ok answer =>
      dsimp only at hrest
      by_cases hstatus : answer.status = .unavailable
      · -- the first answer of this kind is kept for the end of the loop
        rw [if_pos ⟨hstatus, hmode⟩] at hrest
        obtain ⟨pick, hpick, hpickMode, hprovider⟩ := ih hrest hworld₂
        refine ⟨pick, hpick, hpickMode, ?_⟩
        have hnot : Answer.isUsable (.ok answer) = false := by
          simp only [Answer.isUsable, hstatus, bne_self_eq_false]
        have hun : Answer.isUnavailable (.ok answer) = true := by
          simp only [Answer.isUnavailable, hstatus, beq_self_eq_true]
        rw [hprovider, hnot, hun]
        cases unavailable <;>
          simp only [Option.none_or, Option.some_or, Option.map_some, Option.map_none,
            Option.or_assoc, Option.or_none]
      -- A usable answer ends the loop.
      · rw [if_neg fun hboth => hstatus hboth.1] at hrest
        obtain ⟨-, rfl⟩ := Path.of_pure hrest
        have husable : Answer.isUsable (.ok answer) = true := bne_iff_ne.mpr hstatus
        rw [husable]
        exact ⟨_, rfl, rfl, rfl⟩

/-- A pinned candidate is reported whatever it answers. -/
theorem tryCandidates_pinned {candidate : Candidate} {log : ManagerLog}
    {result : Except PyError Pick}
    (h : Path (S := managerSig) (tryCandidates rt d .manual candidate [candidate] none none) log
      result) :
    ∃ pick, result = .ok pick ∧ pick.mode = .manual ∧ pick.provider = some candidate.component := by
  obtain ⟨outcome, log₁, log₂, rfl, -, hrest⟩ := Path.of_attempt_bind h
  cases outcome with
  | error e =>
    dsimp only at hrest
    rw [if_pos rfl] at hrest
    obtain ⟨-, rfl⟩ := Path.of_pure hrest
    exact ⟨_, rfl, rfl, rfl⟩
  | ok answer =>
    dsimp only at hrest
    rw [if_neg fun hboth => hboth.2 rfl] at hrest
    obtain ⟨-, rfl⟩ := Path.of_pure hrest
    exact ⟨_, rfl, rfl, rfl⟩

/-- A round of an inventory without a pinned candidate. -/
theorem round_choice {mode : SelectionMode} (hmode : mode ≠ .manual) {ordered : List Candidate}
    {log : ManagerLog} {result : Except PyError Pick}
    (h : Path (S := managerSig) (match ordered with
      | [] => return .noProvider mode
      | first :: rest => tryCandidates rt d mode first (first :: rest) none none) log result)
    (hworld : OneWorld catalog reply log) :
    ∃ pick, result = .ok pick ∧ pick.mode = mode ∧ pick.provider =
      (((ordered.find? fun c => Answer.isUsable (acceptedAnswer rt c d (reply c.target))).or
        (ordered.find? fun c => Answer.isUnavailable (acceptedAnswer rt c d (reply c.target)))).or
        ordered.head?).map (·.component) := by
  cases ordered with
  | nil =>
    obtain ⟨-, rfl⟩ := Path.of_pure h
    exact ⟨_, rfl, rfl, rfl⟩
  | cons first rest =>
    obtain ⟨pick, hpick, hpickMode, hprovider⟩ := tryCandidates_choice hmode h hworld
    refine ⟨pick, hpick, hpickMode, ?_⟩
    rw [hprovider, Option.map_none, Option.or_none, List.head?_cons, Option.or_some,
      Option.map_some]

/-- A round of an inventory comes to the reference choice. -/
theorem ordered_choice (hcatalog : OrderedCatalog catalog) {pinned : Option String}
    {ordered : List Candidate} {mode : SelectionMode}
    (hordered : orderCandidates (catalog.filter (·.domains.contains d)) pinned = (ordered, mode))
    {log : ManagerLog} {result : Except PyError Pick}
    (h : Path (S := managerSig) (match ordered with
      | [] => return .noProvider mode
      | first :: rest => tryCandidates rt d mode first (first :: rest) none none) log result)
    (hworld : OneWorld catalog reply log) :
    ∃ pick, result = .ok pick ∧ (pick.provider, pick.mode) =
      referenceChoice catalog d pinned fun c => acceptedAnswer rt c d (reply c.target) := by
  rw [referenceChoice, hcatalog.sort_filter]
  cases pinned with
  -- Nothing is pinned: all candidates are tried in their order.
  | none =>
    cases hordered
    obtain ⟨pick, hpick, hmode, hprovider⟩ := round_choice (by decide) h hworld
    refine ⟨pick, hpick, ?_⟩
    rw [if_neg, ← hprovider, hmode]
    · rfl
    · simp only [List.any_eq_true, beq_iff_eq, reduceCtorEq, and_false, exists_false, not_false_iff]
  | some component =>
    rw [orderCandidates] at hordered
    split at hordered
    -- The pinned provider serves the domain, and only it is tried.
    · next candidate hfind =>
      cases hordered
      obtain ⟨pick, hpick, hmode, hprovider⟩ := tryCandidates_pinned h
      have hcomponent : candidate.component = component := by
        simpa only [beq_iff_eq] using List.find?_some hfind
      refine ⟨pick, hpick, ?_⟩
      rw [if_pos, hmode, hprovider, hcomponent]
      exact List.any_eq_true.mpr ⟨candidate, List.mem_of_find?_eq_some hfind,
        beq_iff_eq.mpr (congrArg some hcomponent)⟩
    -- The pinned provider is gone, so the choice is automatic.
    · next hfind =>
      cases hordered
      obtain ⟨pick, hpick, hmode, hprovider⟩ := round_choice (by decide) h hworld
      refine ⟨pick, hpick, ?_⟩
      rw [if_neg, ← hprovider, hmode]
      · rfl
      · simp only [List.any_eq_true, beq_iff_eq, Option.some.injEq, not_exists, not_and]
        intro c hc hcomponent
        exact List.find?_eq_none.mp hfind c hc (beq_iff_eq.mpr hcomponent)

/-! ## The report of an inventory -/

/-- A row reports a choice: its provider under the field and its mode. -/
def Reports (field : String) (row : Value) (choice : Option String × SelectionMode) : Prop :=
  row.get? field = some (optionalString choice.1) ∧
    row.get? "selection" = some (.str choice.2.text)

theorem Pick.row_reports (d : String) (pick : Pick) :
    Reports "provider" (pick.row d) (pick.provider, pick.mode) := by
  cases pick with
  | noProvider mode => exact ⟨rfl, rfl⟩
  | failed mode component error => exact ⟨rfl, rfl⟩
  | active mode candidate answer =>
    rw [Reports, Pick.row]
    cases answer.reason with
    | none => exact ⟨rfl, rfl⟩
    | some reason => exact ⟨rfl, rfl⟩

/-- In one world, a method returns such a value, or a discovery it needs has failed. -/
def Finds {α : Type} (rt : Runtime) (catalog : List Candidate) (reply : String → Reply)
    (Q : α → Prop) (x : Except PyError α) (log : ManagerLog) : Prop :=
  OneWorld catalog reply log → ((∃ e, x = .error e) ∧ ¬Discovered rt log) ∨ ∃ a, x = .ok a ∧ Q a

section Finds

variable {α β : Type} {Q : α → Prop} {Q' : β → Prop}

theorem Finds.ok {a : α} {log : ManagerLog} (h : OneWorld catalog reply log → Q a) :
    Finds rt catalog reply Q (.ok a) log :=
  fun hworld => .inr ⟨a, rfl, h hworld⟩

theorem Finds.of_ok {a : α} {log : ManagerLog} (h : Finds rt catalog reply Q (.ok a) log)
    (hworld : OneWorld catalog reply log) : Q a := by
  obtain ⟨⟨_, he⟩, -⟩ | ⟨_, ha, hQ⟩ := h hworld
  · exact nomatch he
  · cases ha
    exact hQ

theorem Finds.error {e : PyError} {log : ManagerLog} (h : Finds rt catalog reply Q (.error e) log) :
    Finds rt catalog reply Q' (.error e) log := by
  intro hworld
  obtain hfailed | ⟨_, ha, -⟩ := h hworld
  · exact .inl ⟨⟨e, rfl⟩, hfailed.2⟩
  · exact nomatch ha

theorem Finds.after {x : Except PyError β} {log log' : ManagerLog}
    (h : Finds rt catalog reply Q' x log') : Finds rt catalog reply Q' x (log ++ log') := by
  intro hworld
  obtain hfailed | hok := h hworld.append.2
  · exact .inl ⟨hfailed.1, fun hd => hfailed.2 hd.append.2⟩
  · exact .inr hok

/-- Two methods, one after the other. -/
theorem wp_finds_bind {p : ManagerProg α} {f : α → ManagerProg β} {I : ManagerState → Prop}
    {s : ManagerState}
    (h : p.wp managerMachine (fun x log s' => I s' ∧ Finds rt catalog reply Q x log) s)
    (hf : ∀ a s', I s' → Q a →
      (f a).wp managerMachine (fun x log _ => Finds rt catalog reply Q' x log) s') :
    (p >>= f).wp managerMachine (fun x log _ => Finds rt catalog reply Q' x log) s := by
  refine Interleave.wp_bind h ?_ fun e log s' hx => hx.2.error
  rintro a log s' ⟨hI, hfinds⟩
  by_cases hworld : OneWorld catalog reply log
  · exact Interleave.wp_mono (hf a s' hI (hfinds.of_ok hworld)) fun x log' s'' => Finds.after
  · -- the answers so far are not of this world, and nothing is promised
    refine Interleave.wp_mono (Interleave.wp_path _ s') ?_
    exact fun x log' s'' _ hworld' => absurd hworld'.append.1 hworld

end Finds

/-- What `refresh_catalog` leaves and returns. -/
theorem refreshCatalog_world (rt : Runtime) (catalog : List Candidate) (reply : String → Reply)
    (force : Bool) (lookup : Option String) (s : ManagerState)
    (hs : OrderedCatalog s.candidates) :
    (refreshCatalog rt force lookup).wp managerMachine (fun x log s' =>
      (OrderedCatalog s'.candidates ∧ ∀ d, s'.selections.get? d = s.selections.get? d) ∧
      Finds rt catalog reply (fun found => found = catalog ∧ OrderedCatalog catalog) x log) s := by
  have hordered : (refreshCatalog rt force lookup).wp managerMachine
      (fun _ _ s' => OrderedCatalog s.candidates → OrderedCatalog s'.candidates) s :=
    Interleave.wp_issues (M := managerMachine) (P := Orders)
      (R := fun s s' => OrderedCatalog s.candidates → OrderedCatalog s'.candidates)
      (fun _ h => h) (fun _ _ _ h h' hs => h' (h hs)) (fun _ _ _ _ _ ho he => ho.exec he)
      (refreshCatalog_orders rt force lookup) s
  have hframe : (refreshCatalog rt force lookup).wp managerMachine
      (fun _ _ s' => Unchanged s s') s :=
    Interleave.wp_issues (M := managerMachine) (P := QuietFor lookup) (R := Unchanged) .refl .trans
      (fun _ _ _ _ _ => quietFor_frame) (refreshCatalog_issues rt force lookup) s
  have hboth := Interleave.wp_and (Interleave.wp_and hordered hframe)
    (Interleave.wp_and (refreshCatalog_current rt force lookup s) (Interleave.wp_path _ s))
  refine Interleave.wp_mono hboth ?_
  rintro x log s' ⟨⟨hs', hunchanged⟩, hcurrent, hpath⟩
  refine ⟨⟨hs' hs, hunchanged.selections⟩, fun hworld => ?_⟩
  cases x with
  | error e => exact .inl ⟨⟨e, rfl⟩, fun hd => nomatch refreshCatalog_path rt hpath hd⟩
  | ok found =>
    obtain ⟨-, y, hy, hstep⟩ := refreshCatalog_ok rt hpath
    obtain rfl := hworld.catalog y hy lookup found hstep
    exact .inr ⟨found, rfl, rfl, hcurrent found rfl ▸ hs' hs⟩

/-- The reference choice in a state, when each candidate has its answer. -/
abbrev choiceIn (rt : Runtime) (catalog : List Candidate) (reply : String → Reply) (d : String)
    (s : ManagerState) : Option String × SelectionMode :=
  referenceChoice catalog d (s.selections.get? d) fun c => acceptedAnswer rt c d (reply c.target)

/-- A round of an inventory comes to the reference choice. -/
theorem pickDomain_reference (rt : Runtime) (catalog : List Candidate) (reply : String → Reply)
    (d : String) (s : ManagerState) (hs : OrderedCatalog s.candidates) :
    (pickDomain rt d).wp managerMachine (fun x log _ => Finds rt catalog reply
      (fun pick => (pick.provider, pick.mode) = choiceIn rt catalog reply d s) x log) s := by
  have hfor : (candidatesFor rt d false (some d)).wp managerMachine (fun x log s' =>
      (∀ d, s'.selections.get? d = s.selections.get? d) ∧ Finds rt catalog reply (fun matched =>
        matched = catalog.filter (·.domains.contains d) ∧ OrderedCatalog catalog) x log) s := by
    refine Interleave.wp_and ?_ ?_
    · refine Interleave.wp_mono (Interleave.wp_issues (M := managerMachine) (P := QuietFor (some d))
        (R := Unchanged) .refl .trans (fun _ _ _ _ _ => quietFor_frame)
        (candidatesFor_issues rt d false (some d)) s) fun _ _ _ h => h.selections
    · refine wp_finds_bind (refreshCatalog_world rt catalog reply false (some d) s hs) ?_
      rintro found s' - ⟨rfl, hfound⟩
      exact Interleave.wp_pure (.ok fun _ => ⟨rfl, hfound⟩)
  have hordered : (orderedFor rt d).wp managerMachine (fun x log s' => True ∧
      Finds rt catalog reply (fun ordered => ordered = orderCandidates
        (catalog.filter (·.domains.contains d)) (s.selections.get? d) ∧ OrderedCatalog catalog)
        x log) s := by
    refine Interleave.wp_mono ?_ fun _ _ _ h => ⟨trivial, h⟩
    refine wp_finds_bind hfor ?_
    rintro matched s' hkept ⟨rfl, hcatalog⟩
    refine Interleave.wp_perform_bind fun i preferred s'' hread => Interleave.wp_pure ?_
    obtain ⟨rfl, rfl⟩ := hread
    exact .ok fun _ => ⟨by rw [hkept d], hcatalog⟩
  refine wp_finds_bind hordered ?_
  rintro ⟨ordered, mode⟩ s' - ⟨hordered, hcatalog⟩
  refine Interleave.wp_mono (Interleave.wp_path _ s') ?_
  intro x log s'' hpath hworld
  exact .inr (ordered_choice hcatalog hordered.symm hpath hworld)

/-- The inventory of one domain reports the reference choice. -/
theorem inventory_reports (rt : Runtime) (catalog : List Candidate) (reply : String → Reply)
    (d : String) (refresh : Bool) (s : ManagerState) (hs : OrderedCatalog s.candidates) :
    ((Job.request (.inventory (some [d]) refresh)).program rt).wp managerMachine (fun x log _ =>
      Finds rt catalog reply (fun payload => ∃ row,
        payload.get? "domains" = some (.list [row]) ∧
        Reports "provider" row (choiceIn rt catalog reply d s)) x log) s := by
  have hpicks : ∀ s', (OrderedCatalog s'.candidates ∧
      ∀ d, s'.selections.get? d = s.selections.get? d) →
      (pickDomains rt [d]).wp managerMachine (fun x log _ => True ∧ Finds rt catalog reply
        (fun picks => ∃ pick : Pick, picks = [(d, pick)] ∧
          (pick.provider, pick.mode) = choiceIn rt catalog reply d s) x log) s' := by
    rintro s' ⟨hs', hkept⟩
    refine Interleave.wp_mono ?_ fun _ _ _ h => ⟨trivial, h⟩
    refine wp_finds_bind (I := fun _ => True) (Interleave.wp_mono
      (pickDomain_reference rt catalog reply d s' hs') fun _ _ _ h => ⟨trivial, h⟩) ?_
    intro pick s'' _ hpick
    rw [choiceIn, hkept d] at hpick
    exact Interleave.wp_pure (.ok fun _ => ⟨pick, rfl, hpick⟩)
  have hinventory : (inventory rt (some [d]) refresh).wp managerMachine (fun x log _ => True ∧
      Finds rt catalog reply (fun found => ∃ pick : Pick, found.rows = [pick.row d] ∧
        (pick.provider, pick.mode) = choiceIn rt catalog reply d s) x log) s := by
    refine Interleave.wp_mono ?_ fun _ _ _ h => ⟨trivial, h⟩
    refine wp_finds_bind (refreshCatalog_world rt catalog reply refresh none s hs) ?_
    intro found s' hkept _
    refine wp_finds_bind (hpicks s' hkept) ?_
    rintro picks s'' - ⟨pick, rfl, hchoice⟩
    exact Interleave.wp_perform_bind fun i revision s₃ _ =>
      Interleave.wp_pure (.ok fun _ => ⟨pick, rfl, hchoice⟩)
  refine wp_finds_bind hinventory ?_
  rintro found s' - ⟨pick, hrows, hchoice⟩
  refine Interleave.wp_pure (.ok fun _ => ⟨pick.row d, ?_, hchoice ▸ pick.row_reports d⟩)
  rw [Inventory.payload, hrows]
  rfl

/-! ## The health table -/

/-- A health record says of an answer what the choice of a listing asks for. -/
def Records (outcome : Except PyError Answer) (health : ProviderHealth) : Prop :=
  (health.status != .unavailable) = Answer.isUsable outcome ∧
    (health.status == .unavailable && health.errorCode.isNone) = Answer.isUnavailable outcome

/-- A probe writes the health of its candidate. -/
theorem probeCandidate_health (rt : Runtime) (catalog : List Candidate) (reply : String → Reply)
    (candidate : Candidate) (d : String) (timeoutMs : Nat) (s : ManagerState) :
    (probeCandidate rt candidate d timeoutMs).wp managerMachine (fun _ log s' =>
      s'.selections = s.selections ∧ ∃ health,
        s'.providerHealth = s.providerHealth.set (candidate.component, d) health ∧
        (OneWorld catalog reply log →
          Records (acceptedAnswer rt candidate d (reply candidate.target)) health)) s := by
  refine Interleave.wp_perform_bind fun i started s₁ h₁ => ?_
  refine Interleave.wp_perform_bind fun supply answer s₂ h₂ => ?_
  refine Interleave.wp_perform_bind fun i finished s₃ h₃ => ?_
  obtain ⟨-, rfl⟩ := h₁
  obtain ⟨rfl, rfl⟩ := h₂
  obtain ⟨-, rfl⟩ := h₃
  have hanswer : ∀ log₁ log : ManagerLog, OneWorld catalog reply (log₁ ++
      ⟨.call candidate.target "inventory" (.object [("domains", strings [d])]) timeoutMs true,
        supply.reply⟩ :: log) → supply.reply = reply candidate.target :=
    fun log₁ log hworld => hworld.append.2.replies _ List.mem_cons_self _ _ rfl
  split
  · next e houtcome =>
    refine Interleave.wp_perform_bind fun i _ s₄ h₄ => Interleave.wp_raise ?_
    obtain ⟨-, rfl⟩ := h₄
    refine ⟨rfl, _, rfl, fun hworld => ?_⟩
    rw [← hanswer [_] _ hworld, houtcome]
    exact ⟨rfl, rfl⟩
  · next found houtcome =>
    refine Interleave.wp_perform_bind fun i _ s₄ h₄ => Interleave.wp_pure ?_
    obtain ⟨-, rfl⟩ := h₄
    refine ⟨rfl, _, rfl, fun hworld => ?_⟩
    rw [← hanswer [_] _ hworld, houtcome]
    exact ⟨rfl, Bool.and_true _⟩

/-- The probes write the health of every candidate and of no other one. -/
theorem probeAll_health (rt : Runtime) (catalog : List Candidate) (reply : String → Reply)
    (d : String) (candidates : List Candidate) (hdistinct : (candidates.map (·.component)).Nodup)
    (s : ManagerState) :
    (probeAll rt d candidates).wp managerMachine (fun x log s' =>
      x = .ok () ∧ s'.selections = s.selections ∧
      (∀ component ∉ candidates.map (·.component),
        s'.providerHealth.get? (component, d) = s.providerHealth.get? (component, d)) ∧
      (OneWorld catalog reply log → ∀ c ∈ candidates, ∃ health,
        s'.providerHealth.get? (c.component, d) = some health ∧
        Records (acceptedAnswer rt c d (reply c.target)) health)) s := by
  induction candidates generalizing s with
  | nil => exact Interleave.wp_pure ⟨rfl, rfl, fun _ _ => rfl, fun _ _ h => nomatch h⟩
  | cons candidate rest ih =>
    rw [List.map_cons, List.nodup_cons] at hdistinct
    refine Interleave.wp_attempt_bind
      (probeCandidate_health rt catalog reply candidate d 2000 s) ?_
    rintro _ log₁ s₁ ⟨hsel₁, health, hhealth₁, hrecords⟩
    refine Interleave.wp_mono (ih hdistinct.2 s₁) ?_
    rintro x log₂ s₂ ⟨rfl, hsel₂, hother, hrest⟩
    refine ⟨rfl, hsel₂.trans hsel₁, fun component hnot => ?_, fun hworld => ?_⟩
    · rw [List.map_cons, List.mem_cons, not_or] at hnot
      rw [hother component hnot.2, hhealth₁, Dict.get?_set, if_neg]
      exact fun heq => hnot.1 (congrArg Prod.fst heq)
    · obtain ⟨hworld₁, hworld₂⟩ := hworld.append
      refine List.forall_mem_cons.mpr ⟨⟨health, ?_, hrecords hworld₁⟩, hrest hworld₂⟩
      rw [hother _ hdistinct.1, hhealth₁, Dict.get?_set, if_pos rfl]

/-- The choice of a listing from the health of the candidates. -/
theorem selection_of_health {s : ManagerState} {d : String} {matched : List Candidate}
    {outcome : Candidate → Except PyError Answer}
    (hhealth : ∀ c ∈ matched, ∃ health, s.providerHealth.get? (c.component, d) = some health ∧
      Records (outcome c) health) :
    ∃ active mode, selectionOf (s.selections.get? d)
      ((s.electActive d matched).activeProviders.get? d).join matched =
        (s.selections.get? d, active, mode) ∧
      (active, mode) = if matched.any (fun c => some c.component == s.selections.get? d) then
          (s.selections.get? d, .manual)
        else ((((matched.find? fun c => Answer.isUsable (outcome c)).or
            (matched.find? fun c => Answer.isUnavailable (outcome c))).or matched.head?).map
            (·.component),
          if (s.selections.get? d).isSome then .stale else .automatic) := by
  refine ⟨_, _, rfl, ?_⟩
  by_cases hpinned : matched.any (fun c => some c.component == s.selections.get? d) = true
  -- A pinned candidate that matched is the choice, whatever its health.
  · have hsome : (s.selections.get? d).isSome := by
      obtain ⟨c, -, hc⟩ := List.any_eq_true.mp hpinned
      rw [← beq_iff_eq.mp hc]
      rfl
    simp only [hpinned, if_true, hsome, and_self]
  · have husable : s.firstWithHealth d (fun h => h.status != .unavailable) matched =
        (matched.find? fun c => Answer.isUsable (outcome c)).map (·.component) := by
      rw [ManagerState.firstWithHealth]
      refine congrArg _ (List.find?_congr fun c hc => ?_)
      obtain ⟨health, hget, hrecords⟩ := hhealth c hc
      rw [hget, Option.any_some, hrecords.1]
    have hunavailable : s.firstWithHealth d
        (fun h => h.status == .unavailable && h.errorCode.isNone) matched =
        (matched.find? fun c => Answer.isUnavailable (outcome c)).map (·.component) := by
      rw [ManagerState.firstWithHealth]
      refine congrArg _ (List.find?_congr fun c hc => ?_)
      obtain ⟨health, hget, hrecords⟩ := hhealth c hc
      rw [hget, Option.any_some, hrecords.2]
    have hobserved : ((s.electActive d matched).activeProviders.get? d).join =
        ((matched.find? fun c => Answer.isUsable (outcome c)).or
          (matched.find? fun c => Answer.isUnavailable (outcome c))).map (·.component) := by
      rw [ManagerState.electActive, if_neg hpinned]
      dsimp only
      rw [Dict.get?_set, if_pos rfl, Option.join_some, husable, hunavailable, Option.map_or]
    have hfalse := Bool.eq_false_iff.mpr hpinned
    -- the provider that was elected, or the first candidate, is a candidate and so not the pinned
    -- one
    have hne : ∀ c ∈ matched, s.selections.get? d ≠ some c.component := by
      intro c hc heq
      exact hpinned (List.any_eq_true.mpr ⟨c, hc, beq_iff_eq.mpr heq.symm⟩)
    rw [hobserved]
    simp only [hfalse, Bool.false_eq_true, if_false]
    cases helected : (matched.find? fun c => Answer.isUsable (outcome c)).or
        (matched.find? fun c => Answer.isUnavailable (outcome c)) with
    | some c =>
      have hc : c ∈ matched := by
        rcases Option.or_eq_some_iff.mp helected with h | ⟨-, h⟩
        · exact List.mem_of_find?_eq_some h
        · exact List.mem_of_find?_eq_some h
      have hknown : matched.any (fun c' => some c'.component == some c.component) = true :=
        List.any_eq_true.mpr ⟨c, hc, beq_self_eq_true _⟩
      simp only [Option.map_some, hknown, if_true, Option.some_or, hne c hc, false_and, if_false]
    | none =>
      have hunknown : matched.any (fun c' => some c'.component == none) = false := by
        simp only [List.any_eq_false, beq_iff_eq, reduceCtorEq, not_false_iff, implies_true]
      simp only [Option.map_none, hunknown, Bool.false_eq_true, if_false, Option.none_or]
      -- No candidate answered: the first of them is shown, if there is one.
      cases matched with
      | nil =>
        simp only [List.head?_nil, Option.map_none]
        cases s.selections.get? d <;> rfl
      | cons first rest =>
        simp only [List.head?_cons, Option.map_some, hne first List.mem_cons_self, false_and,
          if_false]

/-! ## The report of a listing -/

/-- After the probes of a listing the selection of the domain is the reference choice. -/
theorem probeDomain_choice (rt : Runtime) {catalog : List Candidate} (reply : String → Reply)
    (d : String) (hcatalog : OrderedCatalog catalog) (s : ManagerState) :
    (probeDomain rt true d catalog).wp managerMachine (fun x log s' => x = .ok () ∧
      (OneWorld catalog reply log → ∃ active mode, selectionOf (s'.selections.get? d)
        (s'.activeProviders.get? d).join (catalog.filter (·.domains.contains d)) =
          (s.selections.get? d, active, mode) ∧ (active, mode) = choiceIn rt catalog reply d s))
            s := by
  rw [choiceIn, referenceChoice, hcatalog.sort_filter, probeDomain]
  have hdistinct := hcatalog.distinct_filter (·.domains.contains d)
  generalize catalog.filter (·.domains.contains d) = matched at hdistinct ⊢
  split
  · refine Interleave.wp_bind (probeAll_health rt catalog reply d matched hdistinct s) ?_
      fun e _ _ h => by cases h.1
    rintro _ log s' ⟨-, hselections, -, hhealth⟩
    refine Interleave.wp_perform fun i _ s'' helect => ⟨rfl, fun hworld => ?_⟩
    obtain ⟨-, rfl⟩ := helect
    have hkept : (s'.electActive d matched).selections.get? d = s.selections.get? d := by
      rw [(electActive_unchanged s' d matched).selections d, hselections]
    have hchoice := selection_of_health (hhealth hworld.append.1)
    rw [hselections] at hchoice
    rw [hkept]
    exact hchoice
  · next hnone =>
    rw [Bool.true_and, Bool.not_eq_true, Bool.not_eq_false', List.isEmpty_iff] at hnone
    subst hnone
    refine Interleave.wp_pure ⟨rfl, fun _ => ?_⟩
    cases s.selections.get? d with
    | none => exact ⟨_, _, rfl, rfl⟩
    | some pinned => exact ⟨_, _, rfl, rfl⟩

/-- A listing of one domain with probes reports the reference choice, unless a
    discovery fails; the reply is subject to the bounds check of every listing. -/
theorem listing_reports (rt : Runtime) (catalog : List Candidate) (reply : String → Reply)
    (d : String) (refresh : Bool) (s : ManagerState) (hs : OrderedCatalog s.candidates) :
    ((Job.request (.listProviders (some d) refresh true)).program rt).wp managerMachine
      (fun x log _ => OneWorld catalog reply log →
        ((∃ e, x = .error e) ∧ ¬Discovered rt log) ∨ ∃ revision row,
          x = (catalogPayload revision [row]).mapError .hal ∧
          Reports "active" row (choiceIn rt catalog reply d s)) s := by
  refine Interleave.wp_bind (refreshCatalog_world rt catalog reply refresh none s hs) ?_ ?_
  · rintro found log s₁ ⟨⟨-, hkept⟩, hfound⟩
    by_cases hworld : OneWorld catalog reply log
    · obtain ⟨rfl, hcatalog⟩ := hfound.of_ok hworld
      refine Interleave.wp_bind (probeDomain_choice rt reply d hcatalog s₁) ?_
        fun e _ _ h => nomatch h.1
      rintro _ log' s₂ ⟨-, hchoice⟩
      refine Interleave.wp_bind (providerRows_shown s₂ true found [d]) ?_ fun e _ _ h => nomatch h.1
      rintro rows log₃ s₃ ⟨hrows, rfl, -⟩
      cases hrows
      refine Interleave.wp_perform_bind fun i revision s₄ _ => Interleave.wp_ofExcept fun hall => ?_
      obtain ⟨active, mode, hselection, hreference⟩ := hchoice hall.append.2.append.1
      refine .inr ⟨revision, s₃.shownRow true found d, rfl, ?_⟩
      rw [choiceIn, hkept d] at hreference
      rw [choiceIn, ← hreference, ManagerState.shownRow, hselection]
      exact ⟨rfl, rfl⟩
    · refine Interleave.wp_mono (Interleave.wp_path _ s₁) ?_
      exact fun x log' s' _ hworld' => absurd hworld'.append.1 hworld
  · rintro e log s' ⟨-, hfound⟩ hworld
    obtain hfailed | ⟨_, ha, -⟩ := hfound hworld
    · exact .inl ⟨⟨e, rfl⟩, hfailed.2⟩
    · exact nomatch ha

end World

/-- From every state a run of the manager reaches, for every catalog, preference and
    assignment of answers to the providers: an inventory of one domain and a listing of
    it with probes report the reference choice, provider and mode. Each of them fails
    instead when a discovery it needs fails, and the listing when its reply is out of
    bounds. -/
theorem failover_agrees (rt : Runtime) (file : Option ByteArray) (ttl : ℚ) (s₀ : ManagerState)
    (hinit : ManagerState.init rt file ttl = .ok s₀) (labels : List (Label Job Input))
    (p : Pool managerSig ManagerState PyError Value) (tr : List ManagerEvent)
    (hrun : managerRun rt ⟨s₀, []⟩ labels = some (p, tr)) (catalog : List Candidate)
    (reply : String → Reply) (d : String) (refresh refresh' : Bool) (ω ω' : Nat → Input)
    (out out' : Interleave.Outcome ManagerState Input PyError Value)
    (hinventory : ((Job.request (.inventory (some [d]) refresh)).program rt).run managerMachine ω
      p.shared = some out)
    (hlisting : ((Job.request (.listProviders (some d) refresh' true)).program rt).run
      managerMachine ω' p.shared = some out')
    (hworld : OneWorld catalog reply (((Job.request (.inventory (some [d]) refresh)).program rt).log
      managerMachine ω p.shared))
    (hworld' : OneWorld catalog reply
      (((Job.request (.listProviders (some d) refresh' true)).program
      rt).log managerMachine ω' p.shared)) :
    (((∃ e, out.result = .error e) ∧ ¬Discovered rt
        (((Job.request (.inventory (some [d]) refresh)).program rt).log managerMachine
          ω p.shared)) ∨
      ∃ payload row, out.result = .ok payload ∧ payload.get? "domains" = some (.list [row]) ∧
        Reports "provider" row (choiceIn rt catalog reply d p.shared)) ∧
    (((∃ e, out'.result = .error e) ∧ ¬Discovered rt
      (((Job.request (.listProviders (some d) refresh'
        true)).program rt).log managerMachine ω' p.shared)) ∨
      ∃ revision row, out'.result = (catalogPayload revision [row]).mapError .hal ∧
        Reports "active" row (choiceIn rt catalog reply d p.shared)) := by
  have hordered := run_ordered hinit hrun
  constructor
  · have hfinds := Interleave.wp_of_run
      (inventory_reports rt catalog reply d refresh p.shared hordered) hinventory hworld
    rcases hfinds with hfailed | ⟨payload, hok, row, hrow⟩
    · exact .inl hfailed
    · exact .inr ⟨payload, row, hok, hrow⟩
  · exact Interleave.wp_of_run (listing_reports rt catalog reply d refresh' p.shared hordered)
      hlisting hworld'

/-! ### Two providers, one of them broken -/

namespace Sample

/-- Whether an operation neither commits a catalog nor is a failed discovery. -/
def settled (x : (o : managerSig.Op) × managerSig.Ret o) : Bool :=
  !discoveryFails Runtime.sample x && match x with
    | ⟨.commitCatalog _ _, _⟩ => false
    | _ => true

/-- A method that commits no catalog reads the one of its state. -/
theorem settled_catalog {α : Type} {p : ManagerProg α} {ω : Nat → Input} {s : ManagerState}
    (h : ∀ x ∈ p.log managerMachine ω s, settled x = true) :
    ∀ x ∈ p.log managerMachine ω s, ∀ lookup found, catalogStep lookup x = some found →
      found = s.candidates := by
  -- Induction on the program; each of its events keeps the catalog.
  induction p generalizing ω s with
  | pure a => exact fun x hx => by cases hx
  | raise e => exact fun x hx => by cases hx
  | step o k ih =>
    rw [Prog.log] at h ⊢
    split at h
    · next r s' he =>
      simp only at h
      rw [List.forall_mem_cons] at h
      have hkept : s'.candidates = s.candidates := by
        rcases exec_candidates he with hsame | ⟨lookup, rfl⟩
        · exact hsame
        · cases (Bool.and_eq_true_iff.mp h.1).2
      rw [List.forall_mem_cons]
      refine ⟨fun lookup found hstep => ?_, hkept ▸ ih r h.2⟩
      -- A catalog is read or committed, and a settled run commits none.
      unfold catalogStep at hstep
      split at hstep
      · next known heq =>
        cases heq
        rw [Option.ite_none_right_eq_some, Option.some.injEq] at hstep
        rw [← hstep.2, ← hkept]
        simp only [managerMachine, managerExec, Option.some.injEq, Prod.mk.injEq] at he
        obtain ⟨hread, rfl⟩ := he
        split at hread
        · exact (Option.some.inj hread).symm
        · cases hread
      · next heq =>
        cases heq
        cases (Bool.and_eq_true_iff.mp h.1).2
      · cases hstep
    · exact fun x hx => by cases hx

/-- Where the environment gives every call the same answer and no catalog is committed,
    the world is one. -/
theorem settled_world {α : Type} {p : ManagerProg α} {answer : Reply} {s : ManagerState}
    (h : ∀ x ∈ p.log managerMachine (fun _ => { reply := answer }) s, settled x = true) :
    OneWorld s.candidates (fun _ => answer)
      (p.log managerMachine (fun _ => { reply := answer }) s) where
  catalog := settled_catalog h
  replies x hx target found hreply := by
    obtain ⟨n, s₁, s₂, he⟩ := Prog.of_mem_log hx
    obtain ⟨o, r⟩ := x
    unfold queryReply at hreply
    split at hreply
    · next heq =>
      cases heq
      cases hreply
      simp only [managerMachine, managerExec, Option.some.injEq, Prod.mk.injEq] at he
      exact he.1.symm
    · cases hreply

/-- A client asks for an inventory of `power`, for which there are two providers. -/
def surveyed : List (Label Job Input) :=
  let quiet : Input := {}
  let answer (reply : Reply) : Input := { reply := reply }
  .spawn (.request (.inventory (some ["power"]) true)) ::
    ([quiet, quiet, quiet, answer (discovery ["a.b:c", "a.b:e"]),
      answer (description "a.b:c" ["power"]), answer (description "a.b:e" ["power"]), quiet, quiet,
      quiet, quiet, quiet, answer (inventory "a.b:c" "power" []), quiet, quiet, quiet].map
        (.step 0))

/-- The answer of the provider `a.b:e`; of another provider it is an error. -/
def fromSecond : Reply := inventory "a.b:e" "power" []

end Sample

set_option maxRecDepth 10000 in
/-- The first candidate fails and the second one answers: both reports name the second one. -/
theorem failover_agrees_second : ∃ p tr out out' payload row revision row',
    managerRun Runtime.sample ⟨Sample.start, []⟩ Sample.surveyed = some (p, tr) ∧
    ((Job.request (.inventory (some ["power"]) false)).program Runtime.sample).run managerMachine
      (fun _ => { reply := Sample.fromSecond }) p.shared = some out ∧
    ((Job.request (.listProviders (some "power") false true)).program Runtime.sample).run
      managerMachine (fun _ => { reply := Sample.fromSecond }) p.shared = some out' ∧
    out.result = .ok payload ∧ payload.get? "domains" = some (.list [row]) ∧
    Reports "provider" row (some "a.b:e", .automatic) ∧
    out'.result = (catalogPayload revision [row']).mapError .hal ∧
    Reports "active" row' (some "a.b:e", .automatic) := by
  have heval : (managerRun Runtime.sample ⟨Sample.start, []⟩ Sample.surveyed).any (fun r =>
      let ω : Nat → Input := fun _ => { reply := Sample.fromSecond }
      let first := (Job.request (.inventory (some ["power"]) false)).program Runtime.sample
      let second := (Job.request (.listProviders (some "power") false true)).program Runtime.sample
      (first.run managerMachine ω r.1.shared).isSome &&
      (second.run managerMachine ω r.1.shared).isSome &&
      (first.log managerMachine ω r.1.shared).all Sample.settled &&
      (second.log managerMachine ω r.1.shared).all Sample.settled &&
      choiceIn Runtime.sample r.1.shared.candidates (fun _ => Sample.fromSecond) "power"
        r.1.shared ==
        (some "a.b:e", .automatic)) = true := by
    decide +kernel
  -- Both calls and the reference choice are evaluated at the state that the run reaches.
  obtain ⟨⟨p, tr⟩, hrun, htest⟩ := (Option.any_eq_true _ _).mp heval
  simp only [Bool.and_eq_true, Option.isSome_iff_exists, List.all_eq_true, beq_iff_eq] at htest
  obtain ⟨⟨⟨⟨⟨out, hout⟩, out', hout'⟩, hsettled⟩, hsettled'⟩, hchoice⟩ := htest
  have hdiscovered : ∀ {log : ManagerLog}, (∀ x ∈ log, Sample.settled x = true) →
      Discovered Runtime.sample log := by
    intro log h x hx
    simpa only [Bool.not_eq_true'] using (Bool.and_eq_true_iff.mp (h x hx)).1
  have hagrees := failover_agrees Runtime.sample none 30 Sample.start Sample.init_start _ p tr hrun
    p.shared.candidates (fun _ => Sample.fromSecond) "power" false false _ _ out out' hout hout'
    (Sample.settled_world hsettled) (Sample.settled_world hsettled')
  rw [hchoice] at hagrees
  obtain ⟨⟨-, hnot⟩ | ⟨payload, row, hok, hrow, hreports⟩, hlisting⟩ := hagrees
  · exact absurd (hdiscovered hsettled) hnot
  · obtain ⟨-, hnot⟩ | ⟨revision, row', hok', hreports'⟩ := hlisting
    · exact absurd (hdiscovered hsettled') hnot
    · exact ⟨p, tr, out, out', payload, row, revision, row', hrun, hout, hout', hok, hrow, hreports,
        hok', hreports'⟩

end MsysHal
