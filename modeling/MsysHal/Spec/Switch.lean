import MsysHal.ForStd.Hoare
import MsysHal.Spec.Inventory
import MsysHal.Spec.Selection

/-!
# A failed switch of the provider

`select_provider` discovers, probes, commits and then lists the domain again for
its reply. What fails before the commit changes nothing. What fails after it
leaves the new preference behind although the client is told that the switch
failed: the discovery of a catalog that is stale again, or a listing that is too
large for a reply.

## Key results

- `switchProvider_path`: nothing of `select_provider` fails in the commit or
  between the commit and the listing
- `listProviders_spec`: the listing of a domain, from the state and the catalog
- `failed_switch_changes_nothing`: exactly when a failure means that nothing changed
-/

namespace MsysHal

open Python (Value Runtime)
open Interleave (Prog Issues Path Log)

/-! ## The commit in a log -/

/-- Whether a step commits a preference. -/
def commits : ((o : managerSig.Op) × managerSig.Ret o) → Bool
  | ⟨.commitSelection _ _, .ok (some _)⟩ => true
  | _ => false

/-- What follows the first commit of a log. -/
def afterCommit : ManagerLog → Option ManagerLog
  | [] => none
  | x :: log => if commits x then some log else afterCommit log

theorem NoCommit.commits_eq {x : (o : managerSig.Op) × managerSig.Ret o} (h : NoCommit x.1) :
    commits x = false := by
  obtain ⟨o, r⟩ := x
  cases o <;> try rfl
  case commitSelection choice expected => exact absurd rfl (h choice expected)

theorem afterCommit_append {log log' : ManagerLog} (h : ∀ x ∈ log, commits x = false) :
    afterCommit (log ++ log') = afterCommit log' := by
  induction log with
  | nil => rfl
  | cons x log ih =>
    rw [List.forall_mem_cons] at h
    simp only [List.cons_append, afterCommit, h.1, Bool.false_eq_true, if_false]
    exact ih h.2

theorem afterCommit_eq_none_iff {log : ManagerLog} :
    afterCommit log = none ↔ ∀ x ∈ log, commits x = false := by
  induction log with
  | nil => exact ⟨fun _ x hx => (nomatch hx), fun _ => rfl⟩
  | cons x log ih =>
    rw [afterCommit, List.forall_mem_cons, ← ih]
    cases commits x with
    | true => exact ⟨fun h => (nomatch h), fun h => (nomatch h.1)⟩
    | false => exact ⟨fun h => ⟨rfl, h⟩, fun h => h.2⟩

/-- What a stretch of a run does to the state: nothing without a commit, and with
    one the revision is higher. -/
structure Switched (s : ManagerState) (log : ManagerLog) (s' : ManagerState) : Prop where
  kept : (∀ x ∈ log, commits x = false) → Unchanged s s'
  le : s.revision ≤ s'.revision
  lt : (∃ x ∈ log, commits x = true) → s.revision < s'.revision

/-- One operation of `select_provider`. -/
theorem Switches.exec {choice : String × Option String} {expected : Option Nat} {o : ManagerOp}
    {i : Input} {s s' : ManagerState} {r : o.Ret} (ho : Switches choice expected o)
    (h : managerExec o i s = some (r, s')) :
    (commits ⟨o, r⟩ = false ∧ Unchanged s s') ∨
      (commits ⟨o, r⟩ = true ∧ s'.revision = s.revision + 1) := by
  rcases ho with ho | ⟨c, rfl, -⟩
  · exact .inl ⟨NoCommit.commits_eq (x := ⟨o, r⟩) ho.noCommit, quietFor_frame ho h⟩
  · simp only [managerExec, Option.some.injEq] at h
    rcases commitSelection_cases s c expected i.saveError with
      ⟨e, he⟩ | he | ⟨e, he⟩ | ⟨data, -, -, -, he⟩ <;>
      rw [he, Prod.mk.injEq] at h <;> obtain ⟨rfl, rfl⟩ := h
    · exact .inl ⟨rfl, .refl s⟩
    · exact .inl ⟨rfl, .refl s⟩
    · exact .inl ⟨rfl, fun d => Selections.get?_restore s.selections c d, rfl, rfl, rfl, rfl⟩
    · exact .inr ⟨rfl, rfl⟩

theorem Switched.cons {s s' s'' : ManagerState} {x : (o : managerSig.Op) × managerSig.Ret o}
    {log : ManagerLog} (h : (commits x = false ∧ Unchanged s s') ∨
      (commits x = true ∧ s'.revision = s.revision + 1)) (hrest : Switched s' log s'') :
    Switched s (x :: log) s'' := by
  rcases h with ⟨hx, hkept⟩ | ⟨hx, hbump⟩
  · refine ⟨fun hall => ?_, ?_, fun ⟨y, hy, hc⟩ => ?_⟩
    · exact hkept.trans _ _ _ (hrest.kept fun y hy => hall y (List.mem_cons_of_mem x hy))
    · exact hkept.revision ▸ hrest.le
    · rcases List.mem_cons.mp hy with rfl | hy
      · exact absurd hc (by rw [hx]; exact Bool.false_ne_true)
      · exact hkept.revision ▸ hrest.lt ⟨y, hy, hc⟩
  · have hlt : s.revision < s''.revision := by
      have := hrest.le
      omega
    refine ⟨fun hall => ?_, hlt.le, fun _ => hlt⟩
    have hfalse := hall x List.mem_cons_self
    exact absurd hx (by rw [hfalse]; exact Bool.false_ne_true)

theorem switched_wp {α : Type} {choice : String × Option String} {expected : Option Nat}
    {p : ManagerProg α} (h : Issues (S := managerSig) (Switches choice expected) p)
    (s : ManagerState) : p.wp managerMachine (fun _ log s' => Switched s log s') s := by
  have hnil : ∀ s, Switched s [] s :=
    fun s => ⟨fun _ => .refl s, le_rfl, fun ⟨x, hx, _⟩ => nomatch hx⟩
  refine Interleave.wp_issues_log hnil ?_ h s
  intro o i s r s' log s'' ho he hrest
  exact .cons (ho.exec he) hrest

/-! ## Up to the commit -/

theorem QuietFor.commits_eq {lookup : Option String} {x : (o : managerSig.Op) × managerSig.Ret o}
    (h : QuietFor lookup x.1) : commits x = false :=
  NoCommit.commits_eq h.noCommit

/-- A log without a commit, or one that ends with it and its delivery. -/
def CommitsLast (log : ManagerLog) (result : Except PyError Unit) : Prop :=
  (∀ x ∈ log, commits x = false) ∨
  ∃ before choice expected event, (∀ x ∈ before, commits x = false) ∧ result = .ok () ∧
    log = before ++ [⟨.commitSelection choice expected, .ok (some event)⟩, ⟨.emit event, ()⟩]

theorem CommitsLast.append {log log' : ManagerLog} {result : Except PyError Unit}
    (h : CommitsLast log' result) (hlog : ∀ x ∈ log, commits x = false) :
    CommitsLast (log ++ log') result := by
  rcases h with h | ⟨before, choice, expected, event, hbefore, hresult, rfl⟩
  · left
    intro x hx
    rcases List.mem_append.mp hx with hx | hx
    · exact hlog x hx
    · exact h x hx
  · refine .inr ⟨log ++ before, choice, expected, event, ?_, hresult, by rw [List.append_assoc]⟩
    intro x hx
    rcases List.mem_append.mp hx with hx | hx
    · exact hlog x hx
    · exact hbefore x hx

theorem commitChoice_path {choice : Choice} {expected : Option Nat} {log : ManagerLog}
    {result : Except PyError Unit}
    (h : Path (S := managerSig) (commitChoice choice expected) log result) :
    CommitsLast log result := by
  obtain ⟨r, log', rfl, hrest⟩ := op_bind_path h
  rcases r with e | (_ | event)
  · cases hrest
    exact .inl fun x hx => by rw [List.mem_singleton.mp hx]; rfl
  · cases hrest
    exact .inl fun x hx => by rw [List.mem_singleton.mp hx]; rfl
  · obtain ⟨u, rfl, rfl⟩ := op_path hrest
    exact .inr ⟨[], choice, expected, event, fun x hx => (nomatch hx), rfl, rfl⟩

/-- A quiet part before the commit. -/
private theorem commitsLast_bind {α : Type} {p : ManagerProg α} {f : α → ManagerProg Unit}
    (hp : Issues (S := managerSig) (QuietFor none) p)
    (hf : ∀ a log result, Path (S := managerSig) (f a) log result → CommitsLast log result)
    {log : ManagerLog} {result : Except PyError Unit}
    (h : Path (S := managerSig) (p >>= f) log result) : CommitsLast log result := by
  rcases Path.of_bind h with ⟨e, -, herr⟩ | ⟨a, log₁, log₂, rfl, hok, hrest⟩
  · exact .inl fun x hx => (Path.issues hp herr x hx).commits_eq
  · exact (hf a log₂ result hrest).append fun x hx => (Path.issues hp hok x hx).commits_eq

/-- Nothing fails in the commit or between the commit and the listing. -/
theorem switchProvider_path (rt : Runtime) {d : String} {component : Option String}
    {expected : Option Nat} {allow : Bool} {log : ManagerLog} {result : Except PyError Unit}
    (h : Path (S := managerSig) (switchProvider rt d component expected allow) log result) :
    CommitsLast log result := by
  refine commitsLast_bind (refreshCatalog_issues rt true none) (fun candidates log result h => ?_) h
  have hreturn : ∀ {log result}, Path (S := managerSig) (pure () : ManagerProg Unit) log result →
      CommitsLast log result := by
    intro log result h
    exact .inl fun x hx => by rw [(Path.of_pure h).1] at hx; exact nomatch hx
  cases component with
  | none =>
    refine commitsLast_bind (unchanged_issues d none expected) (fun same log result h => ?_) h
    split at h
    · exact hreturn h
    · exact commitChoice_path h
  | some c =>
    dsimp only at h
    split at h
    · cases h
      exact .inl fun x hx => nomatch hx
    · next selected _ =>
      refine commitsLast_bind (unchanged_issues d (some c) expected) (fun same log result h => ?_) h
      split at h
      · exact hreturn h
      · refine commitsLast_bind (preflight_issues rt selected.1 d allow)
          (fun _ log result h => ?_) h
        exact commitChoice_path h

/-! ## The listing of the reply -/

/-- The row of a domain over a catalog, as `list_providers` reports it in this state. -/
def ManagerState.row (s : ManagerState) (d : String) (candidates : List Candidate) : Value :=
  let matched := candidates.filter (·.domains.contains d)
  let (preferred, active, mode) :=
    selectionOf (s.selections.get? d) (s.activeProviders.get? d).join matched
  providerRow d preferred active mode (matched.map fun candidate =>
    candidateDetail candidate d preferred active
      (s.providerHealth.get? (candidate.component, d)))

/-- The listing of a domain over a catalog, in this state. -/
def ManagerState.listing (s : ManagerState) (d : String) (candidates : List Candidate) : Value :=
  .object [("schema", .str managerInterface), ("revision", .int s.revision),
    ("providers", .list [s.row d candidates])]

theorem catalogPayload_row (s : ManagerState) (d : String) (candidates : List Candidate) :
    (∃ a, catalogPayload s.revision [s.row d candidates] = .ok a) ↔
      Bounded 8 2048 (s.listing d candidates) := by
  rw [← ensureBoundedJson_ok_iff _ "provider catalog"]
  simp only [catalogPayload, Except.bind_eq_ok_iff]
  constructor
  · rintro ⟨a, u, hu, -⟩
    exact hu
  · exact fun h => ⟨_, (), h, rfl⟩

/-- An operation that only reads, and no catalog. -/
def Reads : ManagerOp → Prop
  | .readSelectionActive _ | .readHealth _ _ | .readRevision => True
  | _ => False

theorem Reads.silent {o : ManagerOp} (h : Reads o) : Silent none o := by
  cases o <;> first | exact trivial | exact nomatch h

theorem Reads.discovery {rt : Runtime} {x : (o : managerSig.Op) × managerSig.Ret o}
    (h : Reads x.1) : discoveryFails rt x = false := by
  refine discoveryFails_eq_false fun target payload timeoutMs idempotent heq => ?_
  rw [heq] at h
  exact h

/-- A program that only reads and returns this value. -/
def Reading {α : Type} (p : ManagerProg α) (s : ManagerState) (a : α) : Prop :=
  p.wp managerMachine (fun x log s' => x = .ok a ∧ s' = s ∧ ∀ y ∈ log, Reads y.1) s

theorem Reading.pure {α : Type} (a : α) (s : ManagerState) :
    Reading (Pure.pure a : ManagerProg α) s a :=
  Interleave.wp_pure ⟨rfl, rfl, fun _ h => nomatch h⟩

theorem Reading.bind {α β : Type} {p : ManagerProg α} {f : α → ManagerProg β} {s : ManagerState}
    {a : α} {b : β} (h : Reading p s a) (hf : Reading (f a) s b) : Reading (p >>= f) s b := by
  refine Interleave.wp_bind h ?_ ?_
  · rintro a' log s' ⟨ha, rfl, hlog⟩
    cases ha
    refine Interleave.wp_mono hf ?_
    rintro x log' s'' ⟨rfl, rfl, hlog'⟩
    refine ⟨rfl, rfl, fun y hy => ?_⟩
    rcases List.mem_append.mp hy with hy | hy
    · exact hlog y hy
    · exact hlog' y hy
  · rintro e log s' ⟨he, -⟩
    exact nomatch he

theorem Reading.op (o : ManagerOp) (ho : Reads o) {s : ManagerState} {r : o.Ret}
    (h : ∀ i, managerExec o i s = some (r, s)) : Reading (op o) s r := by
  refine Interleave.wp_perform fun i r' s' he => ?_
  have heq := (h i).symm.trans he
  rw [Option.some.injEq, Prod.mk.injEq] at heq
  obtain ⟨rfl, rfl⟩ := heq
  exact ⟨rfl, rfl, fun y hy => by rw [List.mem_singleton.mp hy]; exact ho⟩

theorem candidatePayloads_reading (s : ManagerState) (d : String) (preferred active : Option String)
    (candidates : List Candidate) :
    Reading (candidatePayloads d preferred active candidates) s (candidates.map fun candidate =>
      candidateDetail candidate d preferred active
        (s.providerHealth.get? (candidate.component, d))) := by
  induction candidates with
  | nil => exact .pure _ s
  | cons candidate rest ih =>
    have hhealth : Reading (op (.readHealth candidate.component d)) s
        (s.providerHealth.get? (candidate.component, d)) :=
          .op (.readHealth _ d) trivial fun i => rfl
    exact (hhealth.bind (.pure _ s)).bind (ih.bind (.pure _ s))

/-- The row of a domain as a listing shows it. -/
def ManagerState.shownRow (s : ManagerState) (detailed : Bool) (candidates : List Candidate)
    (d : String) : Value :=
  let matched := candidates.filter (·.domains.contains d)
  let (preferred, active, mode) :=
    selectionOf (s.selections.get? d) (s.activeProviders.get? d).join matched
  providerRow d preferred active mode (if detailed then matched.map fun candidate =>
    candidateDetail candidate d preferred active (s.providerHealth.get? (candidate.component, d))
    else matched.map candidateSummary)

theorem providerRows_shown (s : ManagerState) (detailed : Bool) (candidates : List Candidate)
    (ds : List String) :
    Reading (providerRows detailed candidates ds) s (ds.map (s.shownRow detailed candidates)) := by
  induction ds with
  | nil => exact .pure _ s
  | cons d ds ih =>
    have hselection : Reading (op (.readSelectionActive d)) s
        (s.selections.get? d, (s.activeProviders.get? d).join) :=
      .op (.readSelectionActive d) trivial fun i => rfl
    have hcandidates : ∀ preferred active matched, Reading
        (rowCandidates detailed d preferred active matched) s
        (if detailed then matched.map fun candidate => candidateDetail candidate d preferred active
          (s.providerHealth.get? (candidate.component, d)) else matched.map candidateSummary) := by
      intro preferred active matched
      cases detailed with
      | true => exact candidatePayloads_reading s d preferred active matched
      | false => exact .pure _ s
    exact (hselection.bind (.pure _ s)).bind ((hcandidates _ _ _).bind (ih.bind (.pure _ s)))

theorem providerRows_reading (s : ManagerState) (d : String) (candidates : List Candidate) :
    Reading (providerRows true candidates [d]) s [s.row d candidates] :=
  providerRows_shown s true candidates [d]

/-- The reply of `select_provider`: the listing in the state reached, over the
    catalog that was read or discovered for it; an error where the discovery
    fails or the listing is out of bounds. -/
theorem listProviders_spec (rt : Runtime) (d : String) (s : ManagerState) :
    (listProviders rt (some d) false false).wp managerMachine (fun x log s' =>
      ((∃ a, x = .ok a) ↔ Discovered rt log ∧ Bounded 8 2048 (s'.listing d (catalogOf log none))))
        s := by
  refine Interleave.wp_bind (Interleave.wp_path _ s) ?_ ?_
  · intro candidates log s' hpath
    have hdiscovered := (refreshCatalog_ok rt hpath).1
    cases refreshCatalog_path rt hpath hdiscovered
    have hrevision : Reading (op .readRevision) s' s'.revision :=
      .op .readRevision trivial fun i => rfl
    change ((pure () : ManagerProg Unit) >>= fun _ => providerRows true (catalogOf log none) [d] >>=
      fun rows => op .readRevision >>= fun revision => check (catalogPayload revision rows)).wp
        managerMachine _ s'
    refine Interleave.wp_bind (Reading.pure () s') ?_ fun e _ _ h => nomatch h.1
    rintro _ log₁ s₁ ⟨-, rfl, hlog₁⟩
    refine Interleave.wp_bind (providerRows_reading _ d _) ?_ fun e _ _ h => nomatch h.1
    rintro rows log₂ s₂ ⟨hrows, rfl, hlog₂⟩
    cases hrows
    refine Interleave.wp_bind hrevision ?_ fun e _ _ h => nomatch h.1
    rintro revision log₃ s₃ ⟨hrev, rfl, hlog₃⟩
    cases hrev
    refine Interleave.wp_ofExcept ?_
    -- the reads tell nothing of the catalog
    have hreads : ∀ y ∈ log₁ ++ (log₂ ++ (log₃ ++ [])), Reads y.1 := by
      simp only [List.mem_append, List.append_nil]
      rintro y (hy | hy | hy)
      · exact hlog₁ y hy
      · exact hlog₂ y hy
      · exact hlog₃ y hy
    have hdiscovered' : Discovered rt (log ++ (log₁ ++ (log₂ ++ (log₃ ++ [])))) := by
      intro y hy
      rcases List.mem_append.mp hy with hy | hy
      · exact hdiscovered y hy
      · exact (hreads y hy).discovery
    rw [catalogOf_append_right fun y hy => (hreads y hy).silent, and_iff_right hdiscovered']
    simp only [Except.mapError_eq_ok_iff]
    exact catalogPayload_row _ d _
  · intro e log s' hpath
    have hnot : ¬Discovered rt log := fun h => nomatch refreshCatalog_path rt hpath h
    exact ⟨fun ⟨a, ha⟩ => (nomatch ha), fun h => absurd h.1 hnot⟩

/-! ## A failure means that nothing changed -/

theorem selectProvider_issues (rt : Runtime) (d : String) (component : Option String)
    (expected : Option Nat) (allow : Bool) :
    Issues (S := managerSig) (Switches (d, component) expected)
      (selectProvider rt d component expected allow) :=
  (switchProvider_issues rt d component expected allow).bind fun _ =>
    (listProviders_issues rt (some d) false false).mono fun _ => .inl

/-- A call that has committed fails exactly when its listing does. -/
theorem selectProvider_spec (rt : Runtime) (d : String) (component : Option String)
    (expected : Option Nat) (allow : Bool) (s : ManagerState) :
    (selectProvider rt d component expected allow).wp managerMachine (fun x log s' =>
      ∀ log', afterCommit log = some log' →
        ((∃ a, x = .ok a) ↔
          Discovered rt log' ∧ Bounded 8 2048 (s'.listing d (catalogOf log' none)))) s := by
  refine Interleave.wp_bind (Interleave.wp_path _ s) ?_ ?_
  · intro u log s' hpath
    refine Interleave.wp_mono (Interleave.wp_and (listProviders_spec rt d s')
      (Interleave.wp_path _ s')) ?_
    rintro x log₁ s'' ⟨hspec, hlisting⟩ log' hafter
    have hquiet : ∀ y ∈ log₁, commits y = false := fun y hy =>
      (Path.issues (listProviders_issues rt (some d) false false) hlisting y hy).commits_eq
    rcases switchProvider_path rt hpath with hnone | ⟨before, c, e, event, hbefore, -, rfl⟩
    · rw [afterCommit_append hnone, afterCommit_eq_none_iff.mpr hquiet] at hafter
      exact nomatch hafter
    · rw [List.append_assoc, afterCommit_append hbefore] at hafter
      simp only [List.cons_append, List.nil_append, afterCommit, commits, if_true,
        Option.some.injEq] at hafter
      subst hafter
      -- the delivery of the event tells nothing of the catalog
      have hdiscovered : Discovered rt (⟨.emit event, ()⟩ :: log₁) ↔ Discovered rt log₁ := by
        refine ⟨Discovered.tail, fun h y hy => ?_⟩
        rcases List.mem_cons.mp hy with rfl | hy
        · rfl
        · exact h y hy
      rw [hdiscovered]
      exact hspec
  · intro e log s' hpath log' hafter
    rcases switchProvider_path rt hpath with hnone | ⟨before, c, e', event, -, hok, -⟩
    · rw [afterCommit_eq_none_iff.mpr hnone] at hafter
      exact nomatch hafter
    · exact nomatch hok

/-- For every state, every request to select or reset a provider and every behaviour
    of the gateway, the clock and the selection file: an error means that nothing
    changed if and only if the call did not commit, or the catalog for its reply
    was there and the listing is within the bounds of a reply. -/
theorem failed_switch_changes_nothing (rt : Runtime) (d : String) (component : Option String)
    (expected : Option Nat) (allow : Bool) (s : ManagerState) (ω : Nat → Input)
    (out : Interleave.Outcome ManagerState Input PyError Value)
    (hrun : (selectProvider rt d component expected allow).run managerMachine ω s = some out) :
    (∀ e, out.result = .error e → Unchanged s out.state) ↔
    ∀ log', afterCommit ((selectProvider rt d component expected allow).log managerMachine ω s) =
        some log' →
      Discovered rt log' ∧ Bounded 8 2048 (out.state.listing d (catalogOf log' none)) := by
  have hspec := Interleave.wp_of_run (selectProvider_spec rt d component expected allow s) hrun
  have hswitched := Interleave.wp_of_run
    (switched_wp (selectProvider_issues rt d component expected allow) s) hrun
  generalize (selectProvider rt d component expected allow).log managerMachine ω s = log at *
  constructor
  · intro hclaim log' hafter
    rw [← hspec log' hafter]
    cases hresult : out.result with
    | ok a => exact ⟨a, rfl⟩
    | error e =>
      have hcommits : ∃ x ∈ log, commits x = true := by
        by_contra hnone
        push Not at hnone
        rw [afterCommit_eq_none_iff.mpr fun x hx => Bool.eq_false_iff.mpr (hnone x hx)] at hafter
        exact nomatch hafter
      have hlt := hswitched.lt hcommits
      rw [(hclaim e hresult).revision] at hlt
      exact absurd hlt (lt_irrefl _)
  · intro hcond e herror
    cases hafter : afterCommit log with
    | none => exact hswitched.kept (afterCommit_eq_none_iff.mp hafter)
    | some log' =>
      obtain ⟨a, ha⟩ := (hspec log' hafter).mpr (hcond log' hafter)
      rw [herror] at ha
      exact nomatch ha

namespace Sample

/-- `select_provider` for the component `a.b:c` and the domain `power`. -/
def switch : ManagerProg Value := selectProvider Runtime.sample "power" (some "a.b:c") none false

/-- A manager that never takes its catalog for fresh. -/
def startUncached : ManagerState := { start with catalogTtl := 0 }

theorem init_startUncached : ManagerState.init Runtime.sample none 0 = .ok startUncached := by
  have httl : max 0 (min (0 : ℚ) 60) = 0 := by norm_num
  rw [ManagerState.init, httl]
  rfl

/-- Discovery and description answer, and then the provider does not. -/
def silentProvider : Nat → Input := supply ((selectInputs "a.b:c").take 9)

end Sample

/-- A provider that does not answer the preflight: the call fails and nothing has changed. -/
theorem failed_switch_changes_nothing_preflight : ∃ out,
    Sample.switch.run managerMachine Sample.silentProvider Sample.start = some out ∧
    (∃ e, out.result = .error e) ∧ Unchanged Sample.start out.state := by
  have heval : (Sample.switch.run managerMachine Sample.silentProvider Sample.start).any
      (fun out => !out.result.isOk) = true ∧
      (afterCommit (Sample.switch.log managerMachine Sample.silentProvider Sample.start)).isNone =
        true := by
    decide +kernel
  obtain ⟨out, hrun, hfail⟩ := (Option.any_eq_true _ _).mp heval.1
  have hnone := Option.isNone_iff_eq_none.mp heval.2
  cases hresult : out.result with
  | ok a => rw [hresult] at hfail; exact nomatch hfail
  | error e =>
    refine ⟨out, hrun, ⟨e, hresult⟩, ?_⟩
    refine (failed_switch_changes_nothing Runtime.sample "power" (some "a.b:c") none false _ _ out
      hrun).mpr (fun log' hlog' => ?_) e hresult
    exact absurd (hnone.symm.trans hlog') (fun h => nomatch h)

/-- Without a fresh catalog the reply needs a second discovery; when that fails, the
    client gets an error although the preference has been committed. -/
theorem failed_switch_changes_preference : ¬∀ (rt : Runtime) (file : Option ByteArray) (ttl : ℚ)
    (s : ManagerState), ManagerState.init rt file ttl = .ok s →
    ∀ (d : String) (component : Option String) (expected : Option Nat) (allow : Bool)
      (ω : Nat → Input) (out : Interleave.Outcome ManagerState Input PyError Value),
      (selectProvider rt d component expected allow).run managerMachine ω s = some out →
      ∀ e, out.result = .error e → Unchanged s out.state := by
  intro hclaim
  have heval : (Sample.switch.run managerMachine (Sample.supply (Sample.selectInputs "a.b:c"))
      Sample.startUncached).any (fun out => !out.result.isOk && out.state.revision == 1) =
        true := by
    decide +kernel
  obtain ⟨out, hrun, htest⟩ := (Option.any_eq_true _ _).mp heval
  rw [Bool.and_eq_true, beq_iff_eq] at htest
  cases hresult : out.result with
  | ok a => rw [hresult] at htest; exact nomatch htest.1
  | error e =>
    have hkept := hclaim Runtime.sample none 0 _ Sample.init_startUncached "power" (some "a.b:c")
      none false _ out hrun e hresult
    have hrevision := hkept.revision
    rw [htest.2] at hrevision
    exact nomatch hrevision

end MsysHal
