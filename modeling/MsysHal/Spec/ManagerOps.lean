import MsysHal.Python.Manager

/-!
# Which operations the methods of the manager issue

Discovery, probing and listing only touch the catalog, the health table and the
active providers. The lemmas say so method by method, in terms of the operations
a program can issue, and what such operations leave as it was.

## Key results

- `listProviders_issues`, `switchProvider_issues`: the operations of the methods
  that make up `select_provider`
- `quietFor_frame`: quiet operations keep the preferences, their file, the
  revision, the journal and the routes
- `program_of_calm`: what every operation of a job satisfies
- `program_issues_commit`: only `select_provider` commits a preference, its own
-/

namespace MsysHal

open Python (Value Runtime)
open Interleave (Prog Issues Event)

/-- An event of a run of the manager. -/
abbrev ManagerEvent : Type := Event managerSig ManagerState

/-- The operations of discovery, probing and listing, where the catalog is read
    for the lookup given. -/
def QuietFor (lookup : Option String) : ManagerOp → Prop
  | .readCatalog _ l => l = lookup
  | .commitCatalog _ l => l = lookup
  | .call _ method _ _ _ => method ≠ "get_state" ∧ method ≠ "set_state"
  | .lockCatalog | .unlockCatalog | .clock | .setHealth _ _ _ | .electActive _ _
  | .readSelectionActive _ | .readHealth _ _ | .readRevision | .emit _ | .checkUnchanged _ _ _ =>
    True
  | .readSelection _ | .commitRoutes _ _ | .readRoute _ | .recordEvent _ | .commitSelection _ _
  | .swapFingerprint _ | .watch _ _ _ _ | .stop => False

section Issues

variable {P : ManagerOp → Prop} {α : Type}

theorem op_issues {o : ManagerOp} (h : P o) : Issues (S := managerSig) P (op o) := .perform h

theorem check_issues (x : Except HalError α) : Issues (S := managerSig) P (check x) := .ofExcept _

theorem fail_issues (e : HalError) : Issues (S := managerSig) P (fail e : ManagerProg α) := .raise _

theorem pure_issues (a : α) : Issues (S := managerSig) P (pure a : ManagerProg α) := .pure a

end Issues

/-! ## Discovery -/

theorem invoke_issues {P : ManagerOp → Prop} (rt : Runtime) {target method : String}
    {payload : Value} {operation : String} {timeoutMs : Nat} {idempotent : Bool}
    (h : P (.call target method payload timeoutMs idempotent)) :
    Issues (S := managerSig) P (invoke rt target method payload operation timeoutMs idempotent) :=
  (op_issues h).bind fun _ => check_issues _

section Describe

variable {P : ManagerOp → Prop} (hP : ∀ target payload timeoutMs idempotent,
  P (.call target "describe" payload timeoutMs idempotent)) (rt : Runtime)

include hP

theorem describeCandidate_issues (spec : ProviderSpec) :
    Issues (S := managerSig) P (describeCandidate rt spec) :=
  (invoke_issues rt (hP _ _ _ _)).bind fun _ => check_issues _

theorem describeBatch_issues (specs : List ProviderSpec) (candidates : List Candidate) :
    Issues (S := managerSig) P (describeBatch rt specs candidates) := by
  induction specs generalizing candidates with
  | nil => exact pure_issues _
  | cons spec rest ih =>
    refine (describeCandidate_issues hP rt spec).attempt.bind fun result => ?_
    cases result with
    | error e => exact ih _
    | ok candidate => dsimp only; split <;> exact ih _

theorem describeBatches_issues (batches : List (List ProviderSpec)) (candidates : List Candidate) :
    Issues (S := managerSig) P (describeBatches rt batches candidates) := by
  induction batches generalizing candidates with
  | nil => exact pure_issues _
  | cons batch rest ih =>
    refine (describeBatch_issues hP rt batch candidates).bind fun described => ?_
    split
    · exact pure_issues _
    · exact ih _

end Describe

/-- The operations of discovery for a lookup. -/
def Discovers (lookup : Option String) : ManagerOp → Prop
  | .readCatalog _ l => l = lookup
  | .commitCatalog _ l => l = lookup
  | .call _ method _ _ _ => method = "discover" ∨ method = "describe"
  | .lockCatalog | .unlockCatalog => True
  | _ => False

theorem Discovers.quietFor {lookup : Option String} {o : ManagerOp} (h : Discovers lookup o) :
    QuietFor lookup o := by
  cases o <;> simp only [Discovers] at h <;> try exact trivial
  case readCatalog => exact h
  case commitCatalog => exact h
  case call target method payload timeoutMs idempotent =>
    rcases h with rfl | rfl <;> exact ⟨by decide, by decide⟩

theorem discover_discovers (rt : Runtime) (lookup : Option String) :
    Issues (S := managerSig) (Discovers lookup) (discover rt lookup) := by
  refine (invoke_issues rt (.inl rfl)).bind fun discovery => ?_
  refine (check_issues _).bind fun specs => ?_
  exact (describeBatches_issues (fun _ _ _ _ => .inr rfl) rt _ _).bind fun _ => op_issues rfl

theorem rediscover_discovers (rt : Runtime) (force : Bool) (lookup : Option String) :
    Issues (S := managerSig) (Discovers lookup) (rediscover rt force lookup) := by
  refine (op_issues (by exact rfl)).bind fun known => ?_
  cases known with
  | some candidates => exact pure_issues _
  | none => exact discover_discovers rt lookup

theorem refreshCatalog_discovers (rt : Runtime) (force : Bool) (lookup : Option String) :
    Issues (S := managerSig) (Discovers lookup) (refreshCatalog rt force lookup) := by
  refine (op_issues (by exact rfl)).bind fun known => ?_
  cases known with
  | some candidates => exact pure_issues _
  | none =>
    refine (op_issues trivial).bind fun _ => ?_
    exact (rediscover_discovers rt force lookup).withCleanup (op_issues trivial)

theorem refreshCatalog_issues (rt : Runtime) (force : Bool) (lookup : Option String) :
    Issues (S := managerSig) (QuietFor lookup) (refreshCatalog rt force lookup) :=
  (refreshCatalog_discovers rt force lookup).mono fun _ => Discovers.quietFor

theorem candidatesFor_issues (rt : Runtime) (d : String) (force : Bool) (lookup : Option String) :
    Issues (S := managerSig) (QuietFor lookup) (candidatesFor rt d force lookup) :=
  (refreshCatalog_issues rt force lookup).bind fun _ => pure_issues _

/-! ## Probing and listing -/

theorem probeCandidate_issues (rt : Runtime) (lookup : Option String) (candidate : Candidate)
    (requested : String) (timeoutMs : Nat) :
    Issues (S := managerSig) (QuietFor lookup)
      (probeCandidate rt candidate requested timeoutMs) := by
  refine (op_issues trivial).bind fun started => ?_
  refine (op_issues ⟨by decide, by decide⟩).bind fun reply => ?_
  refine (op_issues trivial).bind fun finished => ?_
  split
  · exact (op_issues trivial).bind fun _ => .raise _
  · exact (op_issues trivial).bind fun _ => pure_issues _

theorem probeAll_issues (rt : Runtime) (lookup : Option String) (d : String)
    (candidates : List Candidate) :
    Issues (S := managerSig) (QuietFor lookup) (probeAll rt d candidates) := by
  induction candidates with
  | nil => exact pure_issues _
  | cons candidate rest ih =>
    exact (probeCandidate_issues rt lookup candidate d 2000).attempt.bind fun _ => ih

theorem probeDomain_issues (rt : Runtime) (lookup : Option String) (probe : Bool) (d : String)
    (candidates : List Candidate) :
    Issues (S := managerSig) (QuietFor lookup) (probeDomain rt probe d candidates) := by
  rw [probeDomain]
  split
  · refine (probeAll_issues rt lookup d _).bind fun _ => ?_
    exact op_issues (o := .electActive d _) trivial
  · exact pure_issues _

theorem candidatePayload_issues (lookup : Option String) (candidate : Candidate) (d : String)
    (preferred active : Option String) :
    Issues (S := managerSig) (QuietFor lookup) (candidatePayload candidate d preferred active) :=
  (op_issues trivial).bind fun _ => pure_issues _

theorem candidatePayloads_issues (lookup : Option String) (d : String)
    (preferred active : Option String) (candidates : List Candidate) :
    Issues (S := managerSig) (QuietFor lookup)
      (candidatePayloads d preferred active candidates) := by
  induction candidates with
  | nil => exact pure_issues _
  | cons candidate rest ih =>
    refine (candidatePayload_issues lookup candidate d preferred active).bind fun _ => ?_
    exact ih.bind fun _ => pure_issues _

theorem selectionFor_issues (lookup : Option String) (d : String) (candidates : List Candidate) :
    Issues (S := managerSig) (QuietFor lookup) (selectionFor d candidates) :=
  (op_issues trivial).bind fun _ => pure_issues _

theorem rowCandidates_issues (lookup : Option String) (detailed : Bool) (d : String)
    (preferred active : Option String) (candidates : List Candidate) :
    Issues (S := managerSig) (QuietFor lookup)
      (rowCandidates detailed d preferred active candidates) := by
  rw [rowCandidates]
  split
  · exact candidatePayloads_issues lookup d preferred active candidates
  · exact pure_issues _

theorem providerRows_issues (lookup : Option String) (detailed : Bool) (candidates : List Candidate)
    (domains : List String) :
    Issues (S := managerSig) (QuietFor lookup) (providerRows detailed candidates domains) := by
  induction domains with
  | nil => exact pure_issues _
  | cons d rest ih =>
    refine (selectionFor_issues lookup d _).bind fun ⟨preferred, active, mode⟩ => ?_
    refine (rowCandidates_issues lookup detailed d preferred active _).bind fun _ => ?_
    exact ih.bind fun _ => pure_issues _

theorem listProviders_issues (rt : Runtime) (requested : Option String) (refresh probe : Bool) :
    Issues (S := managerSig) (QuietFor none) (listProviders rt requested refresh probe) := by
  rw [listProviders]
  refine (refreshCatalog_issues rt refresh none).bind fun candidates => ?_
  cases requested with
  | none =>
    dsimp only
    refine (providerRows_issues none false candidates (availableDomains candidates)).bind
      fun rows => ?_
    exact (op_issues (o := .readRevision) trivial).bind fun _ => check_issues _
  | some d =>
    dsimp only
    refine (probeDomain_issues rt none probe d candidates).bind fun _ => ?_
    refine (providerRows_issues none true candidates [d]).bind fun rows => ?_
    exact (op_issues (o := .readRevision) trivial).bind fun _ => check_issues _

theorem probeOne_issues (rt : Runtime) (lookup : Option String) (probe : Bool)
    (candidate : Candidate) (d : String) :
    Issues (S := managerSig) (QuietFor lookup) (probeOne rt probe candidate d) := by
  rw [probeOne]
  split
  · exact (probeCandidate_issues rt lookup candidate d 2000).attempt.bind fun _ => pure_issues _
  · exact pure_issues _

theorem getProvider_issues (rt : Runtime) (d : String) (component : Option String)
    (refresh probe : Bool) :
    Issues (S := managerSig) (QuietFor none) (getProvider rt d component refresh probe) := by
  refine (candidatesFor_issues rt d refresh none).bind fun matched => ?_
  refine (selectionFor_issues none d matched).bind fun ⟨preferred, active, mode⟩ => ?_
  dsimp only
  split
  · exact fail_issues _
  · exact (op_issues (o := .readRevision) trivial).bind fun _ => check_issues _
  · next candidate _ =>
    refine (probeOne_issues rt none probe candidate d).bind fun _ => ?_
    refine (op_issues (o := .readRevision) trivial).bind fun _ => ?_
    exact (candidatePayload_issues none candidate d preferred active).bind fun _ => check_issues _

/-! ## Inventory, state and selection -/

/-- Not the commit of a preference. -/
def NoCommit (o : ManagerOp) : Prop := ∀ choice expected, o ≠ .commitSelection choice expected

theorem QuietFor.noCommit {lookup : Option String} {o : ManagerOp} (h : QuietFor lookup o) :
    NoCommit o := by
  rintro choice expected rfl
  exact h

/-- The operations of an inventory up to the commit of its routes: quiet ones, and
    the preference of a domain. -/
def Looks (o : ManagerOp) : Prop := (∃ lookup, QuietFor lookup o) ∨ ∃ d, o = .readSelection d

theorem Looks.noCommit {o : ManagerOp} (h : Looks o) : NoCommit o := by
  rcases h with ⟨lookup, h⟩ | ⟨d, rfl⟩
  · exact h.noCommit
  · exact fun _ _ heq => nomatch heq

theorem orderedFor_looks (rt : Runtime) (d : String) :
    Issues (S := managerSig) Looks (orderedFor rt d) := by
  refine ((candidatesFor_issues rt d false (some d)).mono fun _ h => .inl ⟨_, h⟩).bind fun _ => ?_
  exact (op_issues (.inr ⟨d, rfl⟩)).bind fun _ => pure_issues _

theorem tryCandidates_looks (rt : Runtime) (requested : String) (mode : SelectionMode)
    (first : Candidate) (candidates : List Candidate) (error : Option String)
    (unavailable : Option (Candidate × Answer)) :
    Issues (S := managerSig) Looks
      (tryCandidates rt requested mode first candidates error unavailable) := by
  induction candidates generalizing error unavailable with
  | nil => exact pure_issues _
  | cons candidate rest ih =>
    have hprobe : Issues (S := managerSig) Looks (probeCandidate rt candidate requested 5000) :=
      (probeCandidate_issues rt none candidate requested 5000).mono fun _ h => .inl ⟨none, h⟩
    refine hprobe.attempt.bind fun result => ?_
    cases result with
    | ok answer =>
      dsimp only
      split
      · exact ih _ _
      · exact pure_issues _
    | error e =>
      dsimp only
      split
      · exact pure_issues _
      · exact ih _ _

theorem pickDomain_looks (rt : Runtime) (d : String) :
    Issues (S := managerSig) Looks (pickDomain rt d) := by
  refine (orderedFor_looks rt d).bind fun ⟨ordered, mode⟩ => ?_
  cases ordered with
  | nil => exact pure_issues _
  | cons first rest => exact tryCandidates_looks rt d mode first _ none none

theorem pickDomains_looks (rt : Runtime) (requested : List String) :
    Issues (S := managerSig) Looks (pickDomains rt requested) := by
  induction requested with
  | nil => exact pure_issues _
  | cons d rest ih =>
    exact (pickDomain_looks rt d).bind fun _ => ih.bind fun _ => pure_issues _

/-- An operation that is not about the catalog and neither records, delivers nor
    commits. -/
def Calm : ManagerOp → Prop
  | .readCatalog _ _ | .lockCatalog | .unlockCatalog | .commitCatalog _ _ => False
  | .recordEvent _ | .emit _ | .commitSelection _ _ => False
  | _ => True

theorem probeCandidate_calm (rt : Runtime) (candidate : Candidate) (d : String) (timeoutMs : Nat) :
    Issues (S := managerSig) Calm (probeCandidate rt candidate d timeoutMs) := by
  refine (op_issues trivial).bind fun started => ?_
  refine (op_issues trivial).bind fun reply => ?_
  refine (op_issues trivial).bind fun finished => ?_
  split
  · exact (op_issues trivial).bind fun _ => .raise _
  · exact (op_issues trivial).bind fun _ => pure_issues _

theorem tryCandidates_calm (rt : Runtime) (d : String) (mode : SelectionMode) (first : Candidate)
    (candidates : List Candidate) (error : Option String)
    (unavailable : Option (Candidate × Answer)) :
    Issues (S := managerSig) Calm (tryCandidates rt d mode first candidates error unavailable) := by
  induction candidates generalizing error unavailable with
  | nil => exact pure_issues _
  | cons candidate rest ih =>
    refine (probeCandidate_calm rt candidate d 5000).attempt.bind fun result => ?_
    cases result with
    | ok answer =>
      dsimp only
      split
      · exact ih _ _
      · exact pure_issues _
    | error e =>
      dsimp only
      split
      · exact pure_issues _
      · exact ih _ _

theorem candidatePayload_calm (candidate : Candidate) (d : String)
    (preferred active : Option String) :
    Issues (S := managerSig) Calm (candidatePayload candidate d preferred active) :=
  (op_issues trivial).bind fun _ => pure_issues _

theorem providerRows_calm (detailed : Bool) (candidates : List Candidate) (ds : List String) :
    Issues (S := managerSig) Calm (providerRows detailed candidates ds) := by
  have hpayloads : ∀ d preferred active matched,
      Issues (S := managerSig) Calm (candidatePayloads d preferred active matched) := by
    intro d preferred active matched
    induction matched with
    | nil => exact pure_issues _
    | cons candidate rest ih =>
      exact (candidatePayload_calm candidate d preferred active).bind fun _ =>
        ih.bind fun _ => pure_issues _
  induction ds with
  | nil => exact pure_issues _
  | cons d ds ih =>
    refine Issues.bind ((op_issues (o := .readSelectionActive d) trivial).bind fun _ =>
      pure_issues _)
      fun ⟨preferred, active, mode⟩ => ?_
    refine Issues.bind ?_ fun _ => ih.bind fun _ => pure_issues _
    rw [rowCandidates]
    split
    · exact hpayloads d preferred active _
    · exact pure_issues _

theorem probeDomain_calm (rt : Runtime) (probe : Bool) (d : String) (candidates : List Candidate) :
    Issues (S := managerSig) Calm (probeDomain rt probe d candidates) := by
  have hall : ∀ matched, Issues (S := managerSig) Calm (probeAll rt d matched) := by
    intro matched
    induction matched with
    | nil => exact pure_issues _
    | cons candidate rest ih =>
      exact (probeCandidate_calm rt candidate d 2000).attempt.bind fun _ => ih
  rw [probeDomain]
  split
  · exact (hall _).bind fun _ => op_issues (o := .electActive d _) trivial
  · exact pure_issues _

theorem preflight_calm (rt : Runtime) (candidate : Candidate) (d : String) (allow : Bool) :
    Issues (S := managerSig) Calm (preflight rt candidate d allow) := by
  refine (probeCandidate_calm rt candidate d 3000).attempt.bind fun result => ?_
  cases result with
  | error e => exact fail_issues _
  | ok answer =>
    dsimp only
    split
    · exact fail_issues _
    · exact pure_issues _

theorem unchanged_calm (d : String) (component : Option String) (expected : Option Nat) :
    Issues (S := managerSig) Calm (unchanged d component expected) :=
  (op_issues (o := .checkUnchanged d component expected) trivial).bind fun _ => check_issues _

/-! The methods are discovery and calm operations; some record an event. -/

section Methods

variable {rt : Runtime} {P : ManagerOp → Prop}
  (hrefresh : ∀ force lookup, Issues (S := managerSig) P (refreshCatalog rt force lookup))
  (hcalm : ∀ o, Calm o → P o)

include hrefresh hcalm

theorem pickDomains_of_calm (requested : List String) :
    Issues (S := managerSig) P (pickDomains rt requested) := by
  induction requested with
  | nil => exact pure_issues _
  | cons d rest ih =>
    refine Issues.bind ?_ fun _ => ih.bind fun _ => pure_issues _
    have hordered : Issues (S := managerSig) P (orderedFor rt d) :=
      ((hrefresh false (some d)).bind fun _ => pure_issues _).bind fun _ =>
        (op_issues (o := .readSelection d) (hcalm _ trivial)).bind fun _ => pure_issues _
    refine hordered.bind fun ⟨ordered, mode⟩ => ?_
    cases ordered with
    | nil => exact pure_issues _
    | cons first rest => exact (tryCandidates_calm rt d mode first _ none none).mono hcalm

theorem inventory_of_calm (domains : Option (List String)) (refresh : Bool) :
    Issues (S := managerSig) P (inventory rt domains refresh) := by
  refine (hrefresh refresh none).bind fun candidates => ?_
  refine (pickDomains_of_calm hrefresh hcalm _).bind fun picks => ?_
  exact (op_issues (o := .commitRoutes _ _) (hcalm _ trivial)).bind fun _ => pure_issues _

theorem route_of_calm (identifier : String) (refresh : Bool) :
    Issues (S := managerSig) P (route rt identifier refresh) := by
  have hread : Issues (S := managerSig) P (op (.readRoute identifier)) :=
    op_issues (hcalm _ trivial)
  refine Issues.bind ?_ fun known => ?_
  · rw [knownRoute]
    split
    · exact pure_issues _
    · exact hread
  · cases known with
    | some candidate => exact pure_issues _
    | none =>
      refine (inventory_of_calm hrefresh hcalm _ refresh).bind fun _ => hread.bind fun found => ?_
      cases found with
      | some candidate => exact pure_issues _
      | none => exact fail_issues _

theorem getState_of_calm (identifier : String) (refresh : Bool) :
    Issues (S := managerSig) P (getState rt identifier refresh) := by
  refine (route_of_calm hrefresh hcalm identifier refresh).bind fun candidate => ?_
  refine (invoke_issues rt (hcalm _ trivial)).bind fun raw => ?_
  refine (check_issues _).bind fun state => ?_
  exact (op_issues (o := .readRevision) (hcalm _ trivial)).bind fun _ => pure_issues _

theorem polledStates_of_calm (devices : List (Device × String)) :
    Issues (S := managerSig) P (polledStates rt devices) := by
  induction devices with
  | nil => exact pure_issues _
  | cons device rest ih =>
    refine Issues.bind ?_ fun _ => ih.bind fun _ => pure_issues _
    refine (getState_of_calm hrefresh hcalm device.1.id false).attempt.bind fun result => ?_
    cases result <;> exact pure_issues _

theorem listProviders_of_calm (requested : Option String) (refresh probe : Bool) :
    Issues (S := managerSig) P (listProviders rt requested refresh probe) := by
  have hend : ∀ rows, Issues (S := managerSig) P
      (op .readRevision >>= fun revision => check (catalogPayload revision rows)) :=
    fun rows => (op_issues (o := .readRevision) (hcalm _ trivial)).bind fun _ => check_issues _
  refine (hrefresh refresh none).bind fun candidates => ?_
  cases requested with
  | none => exact ((providerRows_calm false candidates _).mono hcalm).bind hend
  | some d =>
    refine ((probeDomain_calm rt probe d candidates).mono hcalm).bind fun _ => ?_
    exact ((providerRows_calm true candidates [d]).mono hcalm).bind hend

theorem getProvider_of_calm (d : String) (component : Option String) (refresh probe : Bool) :
    Issues (S := managerSig) P (getProvider rt d component refresh probe) := by
  have hrevision : Issues (S := managerSig) P (op .readRevision) := op_issues (hcalm _ trivial)
  refine ((hrefresh refresh none).bind fun _ => pure_issues _).bind fun matched => ?_
  refine Issues.bind ((op_issues (o := .readSelectionActive d) (hcalm _ trivial)).bind
    fun _ => pure_issues _) fun ⟨preferred, active, mode⟩ => ?_
  dsimp only
  split
  · exact fail_issues _
  · exact hrevision.bind fun _ => check_issues _
  · next candidate _ =>
    refine Issues.bind ?_ fun _ => hrevision.bind fun _ => ?_
    · rw [probeOne]
      split
      · exact ((probeCandidate_calm rt candidate d 2000).mono hcalm).attempt.bind
          fun _ => pure_issues _
      · exact pure_issues _
    · exact ((candidatePayload_calm candidate d preferred active).mono hcalm).bind
        fun _ => check_issues _

variable (hrecord : ∀ notice, P (.recordEvent notice)) (hemit : ∀ event, P (.emit event))

include hrecord hemit

omit hrefresh hcalm in
theorem recordEvent_of_calm (notice : Notice) :
    Issues (S := managerSig) P (recordEvent notice) :=
  (op_issues (hrecord notice)).bind fun event => (op_issues (hemit event)).bind fun _ =>
    pure_issues _

theorem setState_of_calm (identifier : String) (requested : List (Value × Value)) :
    Issues (S := managerSig) P (setState rt identifier requested) := by
  refine (route_of_calm hrefresh hcalm identifier true).bind fun candidate => ?_
  refine (invoke_issues rt (hcalm _ trivial)).bind fun raw => ?_
  refine (check_issues _).bind fun state => ?_
  exact (recordEvent_of_calm hrecord hemit _).bind fun _ => pure_issues _

theorem pollOnce_of_calm : Issues (S := managerSig) P (pollOnce rt) := by
  refine (inventory_of_calm hrefresh hcalm none true).bind fun result => ?_
  refine (polledStates_of_calm hrefresh hcalm _).bind fun states => ?_
  refine (op_issues (o := .swapFingerprint _) (hcalm _ trivial)).bind fun previous => ?_
  cases previous with
  | none => exact pure_issues _
  | some previous =>
    dsimp only
    split
    · exact pure_issues _
    · exact (recordEvent_of_calm hrecord hemit _).bind fun _ => pure_issues _

variable (hcommit : ∀ choice expected, P (.commitSelection choice expected))

include hcommit

omit hrecord in
theorem switchProvider_of_calm (d : String) (component : Option String) (expected : Option Nat)
    (allow : Bool) : Issues (S := managerSig) P (switchProvider rt d component expected allow) := by
  have hchoice : ∀ choice, Issues (S := managerSig) P (commitChoice choice expected) := by
    intro choice
    refine (op_issues (hcommit choice expected)).bind fun result => ?_
    rcases result with e | (_ | event)
    · exact fail_issues _
    · exact pure_issues _
    · exact op_issues (hemit event)
  refine (hrefresh true none).bind fun candidates => ?_
  cases component with
  | none =>
    refine ((unchanged_calm d none expected).mono hcalm).bind fun same => ?_
    split
    · exact pure_issues _
    · exact hchoice _
  | some c =>
    dsimp only
    split
    · exact fail_issues _
    · next selected _ =>
      refine ((unchanged_calm d (some c) expected).mono hcalm).bind fun same => ?_
      split
      · exact pure_issues _
      · exact ((preflight_calm rt selected.1 d allow).mono hcalm).bind fun _ => hchoice _

/-- What discovery, calm operations, records, deliveries and commits satisfy, every
    operation of a job satisfies. -/
theorem program_of_calm (job : Job) : Issues (S := managerSig) P (job.program rt) := by
  cases job with
  | stop => exact (op_issues (o := .stop) (hcalm _ trivial)).bind fun _ => pure_issues _
  | poll => exact (pollOnce_of_calm hrefresh hcalm hrecord hemit).bind fun _ => pure_issues _
  | request r =>
    cases r with
    | inventory domains refresh =>
      exact (inventory_of_calm hrefresh hcalm domains refresh).bind fun _ => pure_issues _
    | getState x refresh =>
      exact (getState_of_calm hrefresh hcalm x refresh).bind fun _ => pure_issues _
    | setState x requested =>
      exact (setState_of_calm hrefresh hcalm hrecord hemit x requested).bind fun _ => pure_issues _
    | listProviders requested refresh probe =>
      exact listProviders_of_calm hrefresh hcalm requested refresh probe
    | getProvider d component refresh probe =>
      exact getProvider_of_calm hrefresh hcalm d component refresh probe
    | selectProvider d component expected allow =>
      exact (switchProvider_of_calm hrefresh hcalm hemit hcommit d component expected allow).bind
        fun _ => listProviders_of_calm hrefresh hcalm (some d) false false
    | watch after timeoutMs domains =>
      refine Issues.bind ?_ fun _ => pure_issues _
      exact (op_issues (o := .clock) (hcalm _ trivial)).bind fun _ =>
        op_issues (o := .watch _ _ _ _) (hcalm _ trivial)

end Methods

theorem Calm.noCommit {o : ManagerOp} (h : Calm o) : NoCommit o := by
  rintro choice expected rfl
  exact h

theorem refreshCatalog_noCommit (rt : Runtime) (force : Bool) (lookup : Option String) :
    Issues (S := managerSig) NoCommit (refreshCatalog rt force lookup) :=
  (refreshCatalog_issues rt force lookup).mono fun _ => QuietFor.noCommit

/-- A commit, if at all, of this choice against this revision. -/
def CommitsOnly (choice : String × Option String) (expected : Option Nat) (o : ManagerOp) : Prop :=
  ∀ c e, o = .commitSelection c e → (c.domain, c.component) = choice ∧ e = expected

theorem NoCommit.commitsOnly {choice : String × Option String} {expected : Option Nat}
    {o : ManagerOp} (h : NoCommit o) : CommitsOnly choice expected o :=
  fun c e heq => absurd heq (h c e)

/-- An operation of `select_provider` for this choice and revision: a quiet one, or
    the commit. -/
def Switches (choice : String × Option String) (expected : Option Nat) (o : ManagerOp) : Prop :=
  QuietFor none o ∨
    ∃ c : Choice, o = .commitSelection c expected ∧ (c.domain, c.component) = choice

theorem Switches.commitsOnly {choice : String × Option String} {expected : Option Nat}
    {o : ManagerOp} (h : Switches choice expected o) : CommitsOnly choice expected o := by
  rcases h with h | ⟨c, rfl, hc⟩
  · exact h.noCommit.commitsOnly
  · intro c' e heq
    cases heq
    exact ⟨hc, rfl⟩

theorem commitChoice_issues (choice : Choice) (expected : Option Nat) :
    Issues (S := managerSig) (Switches (choice.domain, choice.component) expected)
      (commitChoice choice expected) := by
  refine (op_issues (.inr ⟨choice, rfl, rfl⟩)).bind fun result => ?_
  cases result with
  | error e => exact fail_issues _
  | ok event =>
    cases event with
    | none => exact pure_issues _
    | some event => exact op_issues (.inl trivial)

theorem preflight_issues (rt : Runtime) (candidate : Candidate) (d : String)
    (allowUnavailable : Bool) :
    Issues (S := managerSig) (QuietFor none) (preflight rt candidate d allowUnavailable) := by
  refine (probeCandidate_issues rt none candidate d 3000).attempt.bind fun result => ?_
  cases result with
  | error e => exact fail_issues _
  | ok answer =>
    dsimp only
    split
    · exact fail_issues _
    · exact pure_issues _

theorem unchanged_issues (d : String) (component : Option String) (expected : Option Nat) :
    Issues (S := managerSig) (QuietFor none) (unchanged d component expected) :=
  (op_issues trivial).bind fun _ => check_issues _

theorem switchProvider_issues (rt : Runtime) (d : String) (component : Option String)
    (expected : Option Nat) (allowUnavailable : Bool) :
    Issues (S := managerSig) (Switches (d, component) expected)
      (switchProvider rt d component expected allowUnavailable) := by
  have hquiet : ∀ {o : ManagerOp}, QuietFor none o → Switches (d, component) expected o := .inl
  refine ((refreshCatalog_issues rt true none).mono fun _ => hquiet).bind fun candidates => ?_
  cases component with
  | none =>
    refine ((unchanged_issues d none expected).mono fun _ => hquiet).bind fun same => ?_
    split
    · exact pure_issues _
    · exact commitChoice_issues (resetChoice d) expected
  | some c =>
    dsimp only
    split
    · exact fail_issues _
    · next selected _ =>
      refine ((unchanged_issues d (some c) expected).mono fun _ => hquiet).bind fun same => ?_
      split
      · exact pure_issues _
      · refine ((preflight_issues rt selected.1 d allowUnavailable).mono fun _ => hquiet).bind
          fun _ => ?_
        exact commitChoice_issues (choiceOf selected) expected

/-- Only `select_provider` commits a preference, and only the one it was asked for. -/
theorem program_issues_commit (rt : Runtime) (job : Job) :
    Issues (S := managerSig) (fun o => ∀ choice expected, o = .commitSelection choice expected →
      ∃ allow, job = .request (.selectProvider choice.domain choice.component expected allow))
      (job.program rt) := by
  -- What is free of commits satisfies the statement trivially.
  have hnone : ∀ {o : ManagerOp}, NoCommit o → ∀ choice expected,
      o = .commitSelection choice expected → ∃ allow,
        job = .request (.selectProvider choice.domain choice.component expected allow) :=
    fun h choice expected heq => absurd heq (h choice expected)
  have hrefresh := refreshCatalog_noCommit rt
  have hcalm : ∀ o, Calm o → NoCommit o := fun _ => Calm.noCommit
  have hrecord : ∀ notice, NoCommit (.recordEvent notice) := fun _ _ _ h => nomatch h
  have hemit : ∀ event, NoCommit (.emit event) := fun _ _ _ h => nomatch h
  cases job with
  | stop =>
    refine Issues.mono ?_ fun _ => hnone
    exact (op_issues fun _ _ h => nomatch h).bind fun _ => pure_issues _
  | poll =>
    refine Issues.mono ?_ fun _ => hnone
    exact (pollOnce_of_calm hrefresh hcalm hrecord hemit).bind fun _ => pure_issues _
  | request r =>
    cases r with
    | inventory domains refresh =>
      exact ((inventory_of_calm hrefresh hcalm domains refresh).bind fun _ => pure_issues _).mono
        fun _ => hnone
    | getState identifier refresh =>
      exact ((getState_of_calm hrefresh hcalm identifier refresh).bind fun _ => pure_issues _).mono
        fun _ => hnone
    | setState identifier requested =>
      exact ((setState_of_calm hrefresh hcalm hrecord hemit identifier requested).bind
        fun _ => pure_issues _).mono fun _ => hnone
    | listProviders requested refresh probe =>
      exact (listProviders_issues rt requested refresh probe).mono fun _ h => hnone h.noCommit
    | getProvider requested component refresh probe =>
      exact (getProvider_issues rt requested component refresh probe).mono
        fun _ h => hnone h.noCommit
    | watch after timeoutMs domains =>
      refine Issues.mono ?_ fun _ => hnone
      refine Issues.bind ?_ fun _ => pure_issues _
      exact (op_issues (o := .clock) fun _ _ h => nomatch h).bind fun _ =>
        op_issues fun _ _ h => nomatch h
    | selectProvider requested component expected allow =>
      -- The listing that follows the switch commits nothing.
      refine Issues.bind ?_ fun _ =>
        (listProviders_issues rt (some requested) false false).mono fun _ h => hnone h.noCommit
      refine (switchProvider_issues rt requested component expected allow).mono ?_
      intro o h choice expected' heq
      obtain ⟨hc, rfl⟩ := h.commitsOnly choice expected' heq
      cases hc
      exact ⟨allow, rfl⟩

/-! ## What quiet operations leave as it was -/

/-- The preferences, their file, the revision, the journal and the routes are the same. -/
structure Unchanged (s s' : ManagerState) : Prop where
  selections : ∀ d, s'.selections.get? d = s.selections.get? d
  file : s'.file = s.file
  revision : s'.revision = s.revision
  journal : s'.journal = s.journal
  deviceRoutes : s'.deviceRoutes = s.deviceRoutes

theorem Unchanged.refl (s : ManagerState) : Unchanged s s := ⟨fun _ => rfl, rfl, rfl, rfl, rfl⟩

theorem Unchanged.trans (s s' s'' : ManagerState) (h : Unchanged s s') (h' : Unchanged s' s'') :
    Unchanged s s'' :=
  ⟨fun d => (h'.selections d).trans (h.selections d), h'.file.trans h.file,
    h'.revision.trans h.revision, h'.journal.trans h.journal,
    h'.deviceRoutes.trans h.deviceRoutes⟩

theorem electActive_unchanged (s : ManagerState) (d : String) (candidates : List Candidate) :
    Unchanged s (s.electActive d candidates) := by
  simp only [ManagerState.electActive]
  split
  · exact .refl s
  · exact ⟨fun _ => rfl, rfl, rfl, rfl, rfl⟩

/-- Quiet operations change nothing but the catalog, its lock, the health table
    and the active providers. -/
theorem quietFor_frame {lookup : Option String} {o : ManagerOp} {i : Input} {s s' : ManagerState}
    {r : o.Ret} (ho : QuietFor lookup o) (h : managerExec o i s = some (r, s')) :
    Unchanged s s' := by
  cases o <;> simp only [QuietFor] at ho <;>
    simp only [managerExec, Option.some.injEq, Prod.mk.injEq] at h
  case lockCatalog =>
    split at h
    · exact nomatch h
    · simp only [Option.some.injEq, Prod.mk.injEq] at h
      exact h.2 ▸ ⟨fun _ => rfl, rfl, rfl, rfl, rfl⟩
  case electActive d candidates => exact h.2 ▸ electActive_unchanged s d candidates
  all_goals exact h.2 ▸ ⟨fun _ => rfl, rfl, rfl, rfl, rfl⟩

end MsysHal
