import MsysHal.Spec.ManagerOps

/-!
# What an inventory makes of what it is told

An inventory asks the catalog, the preferences and the providers, and everything
it reports follows from their answers. For each domain the provider taken is the
first, in the order of the candidates, whose answer is accepted and does not say
that the domain is unavailable, else the first whose answer is accepted at all.

`Pick.of` says so without the failover loop, and `inventory_path` connects the
two for every sequence of answers, whoever else changes the state in between.

## Key results

- `refreshCatalog_path`, `refreshCatalog_ok`: discovery raises exactly when
  the discovery call fails
- `tryCandidates_path`: the failover loop
- `inventory_path`: the report of an inventory as a function of the answers
-/

namespace MsysHal

open Python (Value Runtime)
open Interleave (Prog Issues Path)

/-- The operations of a method and their answers. -/
abbrev ManagerLog : Type := List ((o : managerSig.Op) × managerSig.Ret o)

/-! ## Reading the log -/

/-- A catalog that was read for the lookup. -/
def catalogStep (lookup : Option String) :
    ((o : managerSig.Op) × managerSig.Ret o) → Option (List Candidate)
  | ⟨.readCatalog _ l, some candidates⟩ => if l = lookup then some candidates else none
  | ⟨.commitCatalog _ l, candidates⟩ => if l = lookup then some candidates else none
  | _ => none

/-- A preference that was read for the domain. -/
def preferenceStep (d : String) :
    ((o : managerSig.Op) × managerSig.Ret o) → Option (Option String)
  | ⟨.readSelection d', preferred⟩ => if d' = d then some preferred else none
  | _ => none

/-- The answer of a provider to an inventory call for the domain. -/
def replyStep (d : String) : ((o : managerSig.Op) × managerSig.Ret o) → Option Reply
  | ⟨.call _ "inventory" (.dict [(_, .list [.str d'])]) _ _, reply⟩ =>
    if d' = d then some reply else none
  | _ => none

/-- The revision that was current when routes were committed. -/
def revisionStep : ((o : managerSig.Op) × managerSig.Ret o) → Option Nat
  | ⟨.commitRoutes _ _, revision⟩ => some revision
  | _ => none

/-- A discovery call whose answer cannot be used. -/
def discoveryFails (rt : Runtime) : ((o : managerSig.Op) × managerSig.Ret o) → Bool
  | ⟨.call _ "discover" _ _ _, reply⟩ =>
    !(replyPayload rt "provider discovery" reply >>= providerSpecs rt).isOk
  | _ => false

/-- The candidates that were found for a lookup. -/
def catalogOf (log : ManagerLog) (lookup : Option String) : List Candidate :=
  (log.findSome? (catalogStep lookup)).getD []

/-- The preference that was found for a domain. -/
def preferenceOf (log : ManagerLog) (d : String) : Option String :=
  (log.findSome? (preferenceStep d)).join

/-- The answers of the providers that were asked for a domain, in order. -/
def repliesOf (log : ManagerLog) (d : String) : List Reply := log.filterMap (replyStep d)

/-- The revision when routes were committed last. -/
def revisionOf (log : ManagerLog) : Nat := (log.reverse.findSome? revisionStep).getD 0

/-! ## The provider taken for a domain -/

/-- The answers that are accepted, with the candidates that gave them. -/
def accepted (rt : Runtime) (d : String) (ordered : List Candidate) (replies : List Reply) :
    List (Candidate × Answer) :=
  (ordered.zip replies).filterMap fun asked =>
    (acceptedAnswer rt asked.1 d asked.2).toOption.map fun answer => (asked.1, answer)

/-- The text of the first error. -/
def firstError (rt : Runtime) (d : String) (ordered : List Candidate) (replies : List Reply) :
    Option String :=
  (ordered.zip replies).findSome? fun asked =>
    match acceptedAnswer rt asked.1 d asked.2 with
    | .ok _ => none
    | .error e => some (clip 160 (errorText e))

/-- An answer that does not say that the domain is unavailable. -/
def usable (answer : Candidate × Answer) : Bool := answer.2.status != .unavailable

/-- What is known of a domain from the candidates, the preference and the answers. -/
def Pick.of (rt : Runtime) (d : String) (candidates : List Candidate) (preferred : Option String)
    (replies : List Reply) : Pick :=
  match orderCandidates (candidates.filter (·.domains.contains d)) preferred with
  | ([], mode) => .noProvider mode
  | (first :: rest, mode) =>
    let answers := accepted rt d (first :: rest) replies
    match (answers.find? usable).or answers.head? with
    | some (candidate, answer) => .active mode candidate answer
    | none => .failed mode first.component
        ((firstError rt d (first :: rest) replies).getD "provider failed")

/-! ## Logs without a domain -/

/-- An operation that tells nothing of the lookup or the domain. -/
def Silent (lookup : Option String) : ManagerOp → Prop
  | .readCatalog _ l => l ≠ lookup
  | .commitCatalog _ l => l ≠ lookup
  | .readSelection d => lookup ≠ some d
  | .call _ method payload _ _ =>
    method ≠ "inventory" ∨ ∃ d, payload = .object [("domains", strings [d])] ∧ lookup ≠ some d
  | _ => True

theorem Discovers.silent {lookup lookup' : Option String} {o : ManagerOp} (h : Discovers lookup o)
    (hne : lookup ≠ lookup') : Silent lookup' o := by
  cases o <;> simp only [Discovers] at h <;> try exact trivial
  case readCatalog => exact h ▸ hne
  case commitCatalog => exact h ▸ hne
  case call =>
    rcases h with rfl | rfl
    · exact .inl (by decide)
    · exact .inl (by decide)

section Silent

variable {lookup : Option String} {log log' : ManagerLog}

theorem Silent.catalogStep_eq {x : (o : managerSig.Op) × managerSig.Ret o}
    (h : Silent lookup x.1) : catalogStep lookup x = none := by
  obtain ⟨o, r⟩ := x
  cases o <;> try rfl
  case readCatalog force l =>
    cases r with
    | none => rfl
    | some candidates => exact if_neg h
  case commitCatalog candidates l => exact if_neg h

theorem Silent.preferenceStep_eq {d : String} {x : (o : managerSig.Op) × managerSig.Ret o}
    (h : Silent (some d) x.1) : preferenceStep d x = none := by
  obtain ⟨o, r⟩ := x
  cases o <;> try rfl
  case readSelection d' =>
    have hne : d' ≠ d := fun heq => h (by rw [heq])
    exact if_neg hne

theorem Silent.replyStep_eq {d : String} {x : (o : managerSig.Op) × managerSig.Ret o}
    (h : Silent (some d) x.1) : replyStep d x = none := by
  obtain ⟨o, r⟩ := x
  cases o <;> try rfl
  case call target method payload timeoutMs idempotent =>
    rcases h with h | ⟨d', rfl, h⟩
    · unfold replyStep
      split
      · next heq =>
        cases heq
        exact absurd rfl h
      · rfl
    · by_cases hm : method = "inventory"
      · subst hm
        have hne : d' ≠ d := fun heq => h (by rw [heq])
        exact if_neg hne
      · unfold replyStep
        split
        · next heq =>
          cases heq
          exact absurd rfl hm
        · rfl

private theorem findSome?_silent {β : Type} {f : (o : managerSig.Op) × managerSig.Ret o → Option β}
    (hf : ∀ x ∈ log, f x = none) : log.findSome? f = none :=
  List.findSome?_eq_none_iff.mpr hf

theorem catalogOf_append_left (h : ∀ x ∈ log, Silent lookup x.1) :
    catalogOf (log ++ log') lookup = catalogOf log' lookup := by
  rw [catalogOf, List.findSome?_append, findSome?_silent fun x hx => (h x hx).catalogStep_eq]
  rfl

theorem catalogOf_append_right (h : ∀ x ∈ log', Silent lookup x.1) :
    catalogOf (log ++ log') lookup = catalogOf log lookup := by
  rw [catalogOf, List.findSome?_append, findSome?_silent fun x hx => (h x hx).catalogStep_eq,
    Option.or_none]
  rfl

/-- The pick of a domain, from the log of the method. -/
def pickFrom (rt : Runtime) (log : ManagerLog) (d : String) : Pick :=
  Pick.of rt d (catalogOf log (some d)) (preferenceOf log d) (repliesOf log d)

theorem pickFrom_append_left (rt : Runtime) {d : String} (h : ∀ x ∈ log, Silent (some d) x.1) :
    pickFrom rt (log ++ log') d = pickFrom rt log' d := by
  have hpreference : preferenceOf (log ++ log') d = preferenceOf log' d := by
    rw [preferenceOf, List.findSome?_append,
      findSome?_silent fun x hx => (h x hx).preferenceStep_eq]
    rfl
  have hreplies : repliesOf (log ++ log') d = repliesOf log' d := by
    rw [repliesOf, List.filterMap_append,
      List.filterMap_eq_nil_iff.mpr fun x hx => (h x hx).replyStep_eq]
    rfl
  rw [pickFrom, catalogOf_append_left h, hpreference, hreplies]
  rfl

theorem pickFrom_append_right (rt : Runtime) {d : String} (h : ∀ x ∈ log', Silent (some d) x.1) :
    pickFrom rt (log ++ log') d = pickFrom rt log d := by
  have hpreference : preferenceOf (log ++ log') d = preferenceOf log d := by
    rw [preferenceOf, List.findSome?_append,
      findSome?_silent fun x hx => (h x hx).preferenceStep_eq, Option.or_none]
    rfl
  have hreplies : repliesOf (log ++ log') d = repliesOf log d := by
    rw [repliesOf, List.filterMap_append,
      List.filterMap_eq_nil_iff.mpr fun x hx => (h x hx).replyStep_eq, List.append_nil]
    rfl
  rw [pickFrom, catalogOf_append_right h, hpreference, hreplies]
  rfl

end Silent

/-! ## Discovery -/

/-- No discovery call of the log has failed. -/
def Discovered (rt : Runtime) (log : ManagerLog) : Prop := ∀ x ∈ log, discoveryFails rt x = false

theorem Discovered.append {rt : Runtime} {log log' : ManagerLog} (h : Discovered rt (log ++ log')) :
    Discovered rt log ∧ Discovered rt log' :=
  ⟨fun x hx => h x (List.mem_append_left _ hx), fun x hx => h x (List.mem_append_right _ hx)⟩

theorem Discovered.tail {rt : Runtime} {x : (o : managerSig.Op) × managerSig.Ret o}
    {log : ManagerLog} (h : Discovered rt (x :: log)) : Discovered rt log :=
  fun y hy => h y (List.mem_cons_of_mem x hy)

theorem op_path {o : ManagerOp} {log : ManagerLog} {result : Except PyError o.Ret}
    (h : Path (op o) log result) : ∃ r, log = [⟨o, r⟩] ∧ result = .ok r :=
  Path.of_perform h

theorem op_bind_path {α : Type} {o : ManagerOp} {f : o.Ret → ManagerProg α} {log : ManagerLog}
    {result : Except PyError α} (h : Path (op o >>= f) log result) :
    ∃ r log', log = ⟨o, r⟩ :: log' ∧ Path (f r) log' result :=
  Path.of_perform_bind h

theorem check_path {α : Type} {x : Except HalError α} {log : ManagerLog}
    {result : Except PyError α} (h : Path (S := managerSig) (check x) log result) :
    log = [] ∧ result = x.mapError .hal :=
  Path.of_ofExcept h

theorem invoke_path (rt : Runtime) {target method : String} {payload : Value} {operation : String}
    {timeoutMs : Nat} {idempotent : Bool} {log : ManagerLog}
    {result : Except PyError (List (Value × Value))}
    (h : Path (S := managerSig) (invoke rt target method payload operation timeoutMs idempotent)
      log result) :
    ∃ reply, log = [⟨.call target method payload timeoutMs idempotent, reply⟩] ∧
      result = (replyPayload rt operation reply).mapError .hal := by
  obtain ⟨reply, log', rfl, hcheck⟩ := op_bind_path h
  obtain ⟨rfl, rfl⟩ := check_path hcheck
  exact ⟨reply, rfl, rfl⟩

/-- A provider that cannot be described is left out; the batch goes on. -/
theorem describeBatch_path (rt : Runtime) {specs : List ProviderSpec} {candidates : List Candidate}
    {log : ManagerLog} {result : Except PyError (List Candidate)}
    (h : Path (S := managerSig) (describeBatch rt specs candidates) log result) :
    ∃ described, result = .ok described := by
  induction specs generalizing candidates log with
  | nil => exact ⟨_, (Path.of_pure h).2⟩
  | cons spec rest ih =>
    obtain ⟨described, log₁, log₂, -, -, hrest⟩ := Path.of_attempt_bind h
    cases described with
    | error e => exact ih hrest
    | ok candidate =>
      dsimp only at hrest
      split at hrest <;> exact ih hrest

theorem describeBatches_path (rt : Runtime) {batches : List (List ProviderSpec)}
    {candidates : List Candidate} {log : ManagerLog} {result : Except PyError (List Candidate)}
    (h : Path (S := managerSig) (describeBatches rt batches candidates) log result) :
    ∃ described, result = .ok described := by
  induction batches generalizing candidates log with
  | nil => exact ⟨_, (Path.of_pure h).2⟩
  | cons batch rest ih =>
    rcases Path.of_bind h with ⟨e, -, hp⟩ | ⟨described, log₁, log₂, -, -, hrest⟩
    · obtain ⟨described, hr⟩ := describeBatch_path rt hp
      exact nomatch hr
    · split at hrest
      · exact ⟨_, (Path.of_pure hrest).2⟩
      · exact ih hrest

/-- A discovery call that has not failed names providers. -/
private theorem discovery_usable {rt : Runtime} {log : ManagerLog} (hd : Discovered rt log)
    {target : String} {payload : Value} {timeoutMs : Nat} {idempotent : Bool} {reply : Reply}
    (h : ⟨.call target "discover" payload timeoutMs idempotent, reply⟩ ∈ log) :
    ∃ discovery specs, replyPayload rt "provider discovery" reply = .ok discovery ∧
      providerSpecs rt discovery = .ok specs := by
  have husable := hd _ h
  simp only [discoveryFails, Bool.not_eq_false'] at husable
  cases hbind : replyPayload rt "provider discovery" reply >>= providerSpecs rt with
  | error e => rw [hbind] at husable; exact nomatch husable
  | ok specs =>
    obtain ⟨discovery, hdiscovery, hspecs⟩ := Except.bind_eq_ok_iff.mp hbind
    exact ⟨discovery, specs, hdiscovery, hspecs⟩

/-- Discovery that does not fail returns the catalog it has committed. -/
theorem discover_path (rt : Runtime) {lookup : Option String} {log : ManagerLog}
    {result : Except PyError (List Candidate)}
    (h : Path (S := managerSig) (discover rt lookup) log result) (hd : Discovered rt log) :
    result = .ok (catalogOf log lookup) := by
  rcases Path.of_bind h with ⟨e, -, hp⟩ | ⟨discovery, log₁, log₂, rfl, hp, hrest⟩
  · obtain ⟨reply, rfl, hr⟩ := invoke_path rt hp
    obtain ⟨payload, specs, hpayload, -⟩ := discovery_usable hd (List.mem_singleton_self _)
    rw [hpayload] at hr
    exact nomatch hr
  · obtain ⟨reply, rfl, hr⟩ := invoke_path rt hp
    obtain ⟨payload, specs, hpayload, hspecs⟩ := discovery_usable hd List.mem_cons_self
    rw [hpayload] at hr
    cases hr
    rcases Path.of_bind hrest with ⟨e, -, hcheck⟩ | ⟨specs', log₃, log₄, rfl, hcheck, hrest₁⟩
    · obtain ⟨-, hr⟩ := check_path hcheck
      rw [hspecs] at hr
      exact nomatch hr
    · obtain ⟨rfl, -⟩ := check_path hcheck
      rcases Path.of_bind hrest₁ with ⟨e, -, hp₂⟩ | ⟨described, log₅, log₆, rfl, hp₂, hrest₂⟩
      · obtain ⟨described, hr⟩ := describeBatches_path rt hp₂
        exact nomatch hr
      · obtain ⟨r, rfl, rfl⟩ := op_path hrest₂
        -- of all these operations only the last one tells of the catalog
        have hdescribe : ∀ x ∈ log₅, Silent lookup x.1 :=
          Path.issues (describeBatches_issues (fun _ _ _ _ => .inl (by decide)) rt _ _) hp₂
        have hlast : catalogOf [⟨.commitCatalog (sortCandidates described) lookup, r⟩] lookup =
            r := by
          simp only [catalogOf, List.findSome?_cons, catalogStep, if_true, Option.getD_some]
        rw [catalogOf_append_left, List.nil_append, catalogOf_append_left hdescribe, hlast]
        intro x hx
        rw [List.mem_singleton] at hx
        subst hx
        exact .inl (by decide)

/-- A catalog that is fresh enough is the one that is returned. -/
private theorem catalogOf_known (force : Bool) (lookup : Option String)
    (candidates : List Candidate) (log : ManagerLog) :
    catalogOf (⟨.readCatalog force lookup, some candidates⟩ :: log) lookup = candidates := by
  simp only [catalogOf, List.findSome?_cons, catalogStep, if_true, Option.getD_some]

private theorem catalogOf_stale (force : Bool) (lookup : Option String) (log : ManagerLog) :
    catalogOf (⟨.readCatalog force lookup, none⟩ :: log) lookup = catalogOf log lookup := rfl

theorem rediscover_path (rt : Runtime) {force : Bool} {lookup : Option String} {log : ManagerLog}
    {result : Except PyError (List Candidate)}
    (h : Path (S := managerSig) (rediscover rt force lookup) log result)
    (hd : Discovered rt log) : result = .ok (catalogOf log lookup) := by
  obtain ⟨known, log', rfl, hrest⟩ := op_bind_path h
  cases known with
  | some candidates =>
    obtain ⟨rfl, rfl⟩ := Path.of_pure hrest
    rw [catalogOf_known]
  | none =>
    rw [catalogOf_stale]
    exact discover_path rt hrest hd.tail

/-- `refresh_catalog` returns the catalog it has read or committed. -/
theorem refreshCatalog_path (rt : Runtime) {force : Bool} {lookup : Option String}
    {log : ManagerLog} {result : Except PyError (List Candidate)}
    (h : Path (S := managerSig) (refreshCatalog rt force lookup) log result)
    (hd : Discovered rt log) : result = .ok (catalogOf log lookup) := by
  obtain ⟨known, log', rfl, hrest⟩ := op_bind_path h
  cases known with
  | some candidates =>
    obtain ⟨rfl, rfl⟩ := Path.of_pure hrest
    rw [catalogOf_known]
  | none =>
    obtain ⟨_, log₁, rfl, hlocked⟩ := op_bind_path hrest
    obtain ⟨r, log₂, log₃, done, rfl, hp, hdone, hresult⟩ := Path.of_withCleanup hlocked
    obtain ⟨_, rfl, rfl⟩ := op_path hdone
    have hr := rediscover_path rt hp hd.tail.tail.append.1
    have hunlock : ∀ x ∈ ([⟨.unlockCatalog, ()⟩] : ManagerLog), Silent lookup x.1 := by
      intro x hx
      rw [List.mem_singleton] at hx
      exact hx ▸ trivial
    rw [catalogOf_stale]
    change result = .ok (catalogOf (log₂ ++ _) lookup)
    rw [catalogOf_append_right hunlock, ← hr]
    rcases hresult with rfl | ⟨e, he⟩
    · rfl
    · exact nomatch he

/-! ### Discovery that returns -/

/-- Only a discovery call can fail. -/
theorem discoveryFails_eq_false {rt : Runtime} {x : (o : managerSig.Op) × managerSig.Ret o}
    (h : ∀ target payload timeoutMs idempotent,
      x.1 ≠ .call target "discover" payload timeoutMs idempotent) : discoveryFails rt
        x = false := by
  obtain ⟨o, r⟩ := x
  cases o <;> try rfl
  case call target method payload timeoutMs idempotent =>
    unfold discoveryFails
    split
    · next heq =>
      cases heq
      exact absurd rfl (h target payload timeoutMs idempotent)
    · rfl

/-- A discovery that returns a catalog has not failed, and has committed it. -/
theorem discover_ok (rt : Runtime) {lookup : Option String} {log : ManagerLog}
    {candidates : List Candidate}
    (h : Path (S := managerSig) (discover rt lookup) log (.ok candidates)) :
    Discovered rt log ∧ ∃ y ∈ log, catalogStep lookup y = some candidates := by
  -- The discovery is the first call; its answer is checked before a provider is asked.
  rcases Path.of_bind h with ⟨e, he, -⟩ | ⟨discovery, log₁, log₂, rfl, hp, hrest⟩
  · exact nomatch he
  obtain ⟨reply, rfl, hr⟩ := invoke_path rt hp
  have hpayload := Except.mapError_eq_ok_iff.mp hr.symm
  rcases Path.of_bind hrest with ⟨e, he, -⟩ | ⟨specs, log₃, log₄, rfl, hcheck, hrest₁⟩
  · exact nomatch he
  obtain ⟨rfl, hr₁⟩ := check_path hcheck
  have hspecs := Except.mapError_eq_ok_iff.mp hr₁.symm
  -- The descriptions are collected, and what they give is committed.
  rcases Path.of_bind hrest₁ with ⟨e, he, -⟩ | ⟨described, log₅, log₆, rfl, hp₂, hcommit⟩
  · exact nomatch he
  obtain ⟨r, rfl, hr₂⟩ := op_path hcommit
  cases hr₂
  refine ⟨fun x hx => ?_, ⟨.commitCatalog (sortCandidates described) lookup, candidates⟩, ?_, ?_⟩
  · simp only [List.singleton_append, List.nil_append, List.mem_cons, List.mem_append,
      List.not_mem_nil, or_false] at hx
    rcases hx with rfl | hx | rfl
    · simp only [discoveryFails, Bool.not_eq_false']
      rw [Except.bind_eq_ok_iff.mpr ⟨discovery, hpayload, hspecs⟩]
      rfl
    · -- a description is not a discovery
      have hdescribe : Issues (S := managerSig) (fun o => ∀ target payload timeoutMs idempotent,
          o ≠ .call target "discover" payload timeoutMs idempotent)
          (describeBatches rt (specs.toChunks (min 2 specs.length)) []) := by
        refine describeBatches_issues (fun target payload timeoutMs idempotent => ?_) rt _ _
        intro target' payload' timeoutMs' idempotent' heq
        injection heq with _ hmethod
        exact absurd hmethod (by decide)
      exact discoveryFails_eq_false (Path.issues hdescribe hp₂ x hx)
    · rfl
  · simp only [List.singleton_append, List.nil_append, List.mem_cons, List.mem_append, or_true,
      true_or]
  · exact if_pos rfl

theorem rediscover_ok (rt : Runtime) {force : Bool} {lookup : Option String}
    {log : ManagerLog} {candidates : List Candidate}
    (h : Path (S := managerSig) (rediscover rt force lookup) log (.ok candidates)) :
    Discovered rt log ∧ ∃ y ∈ log, catalogStep lookup y = some candidates := by
  obtain ⟨known, log', rfl, hrest⟩ := op_bind_path h
  cases known with
  | some known =>
    obtain ⟨rfl, hknown⟩ := Path.of_pure hrest
    cases hknown
    refine ⟨fun x hx => ?_, _, List.mem_cons_self, if_pos rfl⟩
    rw [List.mem_singleton.mp hx]
    rfl
  | none =>
    obtain ⟨hdiscovered, y, hy, hstep⟩ := discover_ok rt hrest
    exact ⟨List.forall_mem_cons.mpr ⟨rfl, hdiscovered⟩, y, List.mem_cons_of_mem _ hy, hstep⟩

/-- `refresh_catalog` that returns has not failed, and has read or committed the catalog. -/
theorem refreshCatalog_ok (rt : Runtime) {force : Bool} {lookup : Option String}
    {log : ManagerLog} {candidates : List Candidate}
    (h : Path (S := managerSig) (refreshCatalog rt force lookup) log (.ok candidates)) :
    Discovered rt log ∧ ∃ y ∈ log, catalogStep lookup y = some candidates := by
  obtain ⟨known, log', rfl, hrest⟩ := op_bind_path h
  cases known with
  | some known =>
    obtain ⟨rfl, hknown⟩ := Path.of_pure hrest
    cases hknown
    refine ⟨fun x hx => ?_, _, List.mem_cons_self, if_pos rfl⟩
    rw [List.mem_singleton.mp hx]
    rfl
  | none =>
    obtain ⟨_, log₁, rfl, hlocked⟩ := op_bind_path hrest
    obtain ⟨r, log₂, log₃, done, rfl, hp, hdone, hresult⟩ := Path.of_withCleanup hlocked
    obtain ⟨_, rfl, rfl⟩ := op_path hdone
    rcases hresult with rfl | ⟨e, he⟩
    · obtain ⟨hdiscovered, y, hy, hstep⟩ := rediscover_ok rt hp
      refine ⟨fun x hx => ?_, y, ?_, hstep⟩
      · simp only [List.mem_cons, List.mem_append, List.not_mem_nil, or_false] at hx
        rcases hx with rfl | rfl | hx | rfl
        · rfl
        · rfl
        · exact hdiscovered x hx
        · rfl
      · exact List.mem_cons_of_mem _ (List.mem_cons_of_mem _ (List.mem_append_left _ hy))
    · cases he

/-! ## The failover loop -/

/-- A probe asks the candidate once and returns what its answer is worth. -/
theorem probeCandidate_path (rt : Runtime) {candidate : Candidate} {d : String} {timeoutMs : Nat}
    {log : ManagerLog} {result : Except PyError Answer}
    (h : Path (S := managerSig) (probeCandidate rt candidate d timeoutMs) log result) :
    ∃ reply, repliesOf log d = [reply] ∧ result = acceptedAnswer rt candidate d reply := by
  obtain ⟨started, log₁, rfl, hcall⟩ := op_bind_path h
  obtain ⟨reply, log₂, rfl, hfinish⟩ := op_bind_path hcall
  obtain ⟨finished, log₃, rfl, hrecord⟩ := op_bind_path hfinish
  have hreply : ∀ log', repliesOf (⟨.call candidate.target "inventory"
      (.object [("domains", strings [d])]) timeoutMs true, reply⟩ :: log') d =
      reply :: repliesOf log' d := by
    intro log'
    exact List.filterMap_cons_some (if_pos rfl)
  refine ⟨reply, ?_, ?_⟩
  · -- the clock and the record of the health say nothing of the domain
    change repliesOf (⟨.call candidate.target "inventory" _ timeoutMs true, reply⟩ :: log₃) d = _
    rw [hreply]
    split at hrecord
    all_goals
      obtain ⟨_, log₄, rfl, hend⟩ := op_bind_path hrecord
      cases hend
      rfl
  · split at hrecord
    all_goals
      obtain ⟨_, log₄, rfl, hend⟩ := op_bind_path hrecord
      cases hend
      simp only [*]

/-- The outcome of the failover loop from the answers, given the first error and
    the first answer of an unavailable domain so far. -/
def failover (rt : Runtime) (d : String) (mode : SelectionMode) (first : Candidate)
    (ordered : List Candidate) (replies : List Reply) (error : Option String)
    (unavailable : Option (Candidate × Answer)) : Pick :=
  match (accepted rt d ordered replies).find? usable with
  | some (candidate, answer) => .active mode candidate answer
  | none => lastResort mode first (error.or (firstError rt d ordered replies))
      (unavailable.or (accepted rt d ordered replies).head?)

section Failover

variable (rt : Runtime) (d : String) (mode : SelectionMode) (first candidate : Candidate)
  (rest : List Candidate) (reply : Reply) (replies : List Reply) (error : Option String)
  (unavailable : Option (Candidate × Answer))

theorem failover_error {e : PyError} (h : acceptedAnswer rt candidate d reply = .error e) :
    failover rt d mode first (candidate :: rest) (reply :: replies) error unavailable =
      failover rt d mode first rest replies (error.or (some (clip 160 (errorText e))))
        unavailable := by
  have haccepted : accepted rt d (candidate :: rest) (reply :: replies) =
      accepted rt d rest replies := by
    simp only [accepted, List.zip_cons_cons, List.filterMap_cons, h, Except.toOption,
      Option.map_none]
  have herror : firstError rt d (candidate :: rest) (reply :: replies) =
      some (clip 160 (errorText e)) := by
    simp only [firstError, List.zip_cons_cons, List.findSome?_cons, h]
  simp only [failover, haccepted, herror, Option.or_assoc, Option.some_or]

theorem failover_unavailable {answer : Answer}
    (h : acceptedAnswer rt candidate d reply = .ok answer)
    (hstatus : answer.status = .unavailable) :
    failover rt d mode first (candidate :: rest) (reply :: replies) error unavailable =
      failover rt d mode first rest replies error
        (unavailable.or (some (candidate, answer))) := by
  have haccepted : accepted rt d (candidate :: rest) (reply :: replies) =
      (candidate, answer) :: accepted rt d rest replies := by
    simp only [accepted, List.zip_cons_cons, List.filterMap_cons, h, Except.toOption,
      Option.map_some]
  have herror : firstError rt d (candidate :: rest) (reply :: replies) =
      firstError rt d rest replies := by
    simp only [firstError, List.zip_cons_cons, List.findSome?_cons, h]
  have hfind : usable (candidate, answer) = false := by
    simp only [usable, hstatus, bne_self_eq_false]
  simp only [failover, haccepted, herror, List.find?_cons, hfind, List.head?_cons, Option.or_assoc,
    Option.some_or]

theorem failover_usable {answer : Answer} (h : acceptedAnswer rt candidate d reply = .ok answer)
    (hstatus : answer.status ≠ .unavailable) :
    failover rt d mode first (candidate :: rest) (reply :: replies) error unavailable =
      .active mode candidate answer := by
  have haccepted : accepted rt d (candidate :: rest) (reply :: replies) =
      (candidate, answer) :: accepted rt d rest replies := by
    simp only [accepted, List.zip_cons_cons, List.filterMap_cons, h, Except.toOption,
      Option.map_some]
  have hfind : usable (candidate, answer) = true := by
    simpa only [usable, bne_iff_ne] using hstatus
  simp only [failover, haccepted, List.find?_cons, hfind]

theorem failover_nil_right (ordered : List Candidate) :
    failover rt d mode first ordered [] error unavailable =
      lastResort mode first error unavailable := by
  simp only [failover, accepted, firstError, List.zip_nil_right, List.filterMap_nil, List.find?_nil,
    List.findSome?_nil, List.head?_nil, Option.or_none]

end Failover

/-- The failover loop. With a manual provider the loop ends after its first round,
    and no earlier answer is kept. -/
theorem tryCandidates_path (rt : Runtime) {d : String} {mode : SelectionMode} {first : Candidate}
    {candidates : List Candidate} {error : Option String}
    {unavailable : Option (Candidate × Answer)} {log : ManagerLog} {result : Except PyError Pick}
    (h : Path (S := managerSig) (tryCandidates rt d mode first candidates error unavailable)
      log result)
    (hmanual : mode = .manual → unavailable = none) :
    result = .ok (failover rt d mode first candidates (repliesOf log d) error unavailable) := by
  -- Induction on the candidates that are left; each takes one reply from the log.
  induction candidates generalizing error unavailable log with
  | nil =>
    obtain ⟨rfl, rfl⟩ := Path.of_pure h
    change _ = Except.ok (failover rt d mode first [] [] error unavailable)
    rw [failover_nil_right]
  | cons candidate rest ih =>
    obtain ⟨r, log₁, log₂, rfl, hprobe, hrest⟩ := Path.of_attempt_bind h
    obtain ⟨reply, hreply, hr⟩ := probeCandidate_path rt hprobe
    have hreplies : repliesOf (log₁ ++ log₂) d = reply :: repliesOf log₂ d := by
      rw [repliesOf, List.filterMap_append]
      change repliesOf log₁ d ++ repliesOf log₂ d = _
      rw [hreply, List.singleton_append]
    rw [hreplies]
    cases r with
    | error e =>
      dsimp only at hrest
      rw [failover_error rt d mode first candidate rest reply _ error unavailable hr.symm]
      -- An error: a manual provider ends the loop, else the next candidate is tried.
      split at hrest
      · obtain ⟨rfl, rfl⟩ := Path.of_pure hrest
        change _ = Except.ok (failover rt d mode first rest [] _ unavailable)
        rw [failover_nil_right]
      · exact ih hrest hmanual
    | ok answer =>
      dsimp only at hrest
      split at hrest
      · next hstatus =>
        rw [failover_unavailable rt d mode first candidate rest reply _ error unavailable hr.symm
          hstatus.1]
        exact ih hrest fun hm => absurd hm hstatus.2
      · next hstatus =>
        obtain ⟨rfl, rfl⟩ := Path.of_pure hrest
        by_cases hs : answer.status = .unavailable
        · -- a manual provider is taken although the domain is unavailable
          have hm : mode = .manual := by
            by_contra hne
            exact hstatus ⟨hs, hne⟩
          rw [failover_unavailable rt d mode first candidate rest reply _ error
            unavailable hr.symm hs, hmanual hm]
          change _ = Except.ok (failover rt d mode first rest [] error (some (candidate, answer)))
          rw [failover_nil_right]
          rfl
        · rw [failover_usable rt d mode first candidate rest reply _ error unavailable hr.symm hs]

/-! ## Inventory -/

theorem failover_eq_of (rt : Runtime) (d : String) (candidates : List Candidate)
    (preferred : Option String) (replies : List Reply) {first : Candidate} {rest : List Candidate}
    {mode : SelectionMode}
    (h : orderCandidates (candidates.filter (·.domains.contains d)) preferred =
      (first :: rest, mode)) :
    failover rt d mode first (first :: rest) replies none none =
      Pick.of rt d candidates preferred replies := by
  simp only [Pick.of, h, failover, Option.none_or]
  cases (accepted rt d (first :: rest) replies).find? usable with
  | some answer => rfl
  | none =>
    rw [Option.none_or]
    cases (accepted rt d (first :: rest) replies).head? <;> rfl

/-- Discovery asks no provider for an inventory and reads no preference. -/
theorem Discovers.steps {lookup : Option String} {x : (o : managerSig.Op) × managerSig.Ret o}
    (h : Discovers lookup x.1) (d : String) : preferenceStep d x = none ∧ replyStep d x = none := by
  obtain ⟨o, r⟩ := x
  cases o <;> simp only [Discovers] at h <;> try exact ⟨rfl, rfl⟩
  case call target method payload timeoutMs idempotent =>
    rcases h with rfl | rfl
    · exact ⟨rfl, by simp [replyStep]⟩
    · exact ⟨rfl, by simp [replyStep]⟩

theorem candidatesFor_path (rt : Runtime) {d : String} {lookup : Option String} {force : Bool}
    {log : ManagerLog} {result : Except PyError (List Candidate)}
    (h : Path (S := managerSig) (candidatesFor rt d force lookup) log result)
    (hd : Discovered rt log) :
    result = .ok ((catalogOf log lookup).filter (·.domains.contains d)) := by
  rcases Path.of_bind h with ⟨e, -, hrefresh⟩ | ⟨candidates, log₁, log₂, rfl, hrefresh, hreturn⟩
  · exact nomatch refreshCatalog_path rt hrefresh hd
  · obtain ⟨rfl, rfl⟩ := Path.of_pure hreturn
    rw [List.append_nil] at hd ⊢
    cases refreshCatalog_path rt hrefresh hd
    rfl

theorem orderedFor_path (rt : Runtime) {d : String} {log : ManagerLog}
    {result : Except PyError (List Candidate × SelectionMode)}
    (h : Path (S := managerSig) (orderedFor rt d) log result) (hd : Discovered rt log) :
    result = .ok (orderCandidates ((catalogOf log (some d)).filter (·.domains.contains d))
      (preferenceOf log d)) ∧ repliesOf log d = [] := by
  rcases Path.of_bind h with ⟨e, -, hfor⟩ | ⟨candidates, log₁, log₂, rfl, hfor, hread⟩
  · exact nomatch candidatesFor_path rt hfor hd
  · have hdiscovers : ∀ x ∈ log₁, Discovers (some d) x.1 :=
      Path.issues ((refreshCatalog_discovers rt false (some d)).bind fun _ => pure_issues _) hfor
    cases candidatesFor_path rt hfor hd.append.1
    obtain ⟨preferred, log₃, rfl, hreturn⟩ := op_bind_path hread
    obtain ⟨rfl, rfl⟩ := Path.of_pure hreturn
    have hpreference : preferenceOf (log₁ ++ [⟨.readSelection d, preferred⟩]) d = preferred := by
      rw [preferenceOf, List.findSome?_append,
        findSome?_silent fun x hx => ((hdiscovers x hx).steps d).1, List.findSome?_cons]
      simp only [preferenceStep, if_true, Option.none_or, Option.join_some]
    have hcatalog : catalogOf (log₁ ++ [⟨.readSelection d, preferred⟩]) (some d) =
        catalogOf log₁ (some d) := by
      rw [catalogOf, List.findSome?_append]
      simp only [List.findSome?_cons, catalogStep, List.findSome?_nil, Option.or_none]
      rfl
    refine ⟨by rw [hpreference, hcatalog], ?_⟩
    rw [repliesOf, List.filterMap_append,
      List.filterMap_eq_nil_iff.mpr fun x hx => ((hdiscovers x hx).steps d).2]
    rfl

/-- The operations of a probe for a domain. -/
def Probes (d : String) : ManagerOp → Prop
  | .clock | .setHealth _ _ _ => True
  | .call _ method payload _ _ =>
    method = "inventory" ∧ payload = .object [("domains", strings [d])]
  | _ => False

theorem Probes.silent {d : String} {o : ManagerOp} (h : Probes d o) {lookup : Option String}
    (hne : lookup ≠ some d) : Silent lookup o := by
  cases o <;> simp only [Probes] at h <;> try exact trivial
  case call => exact .inr ⟨d, h.2, hne⟩

theorem Probes.steps {d : String} {x : (o : managerSig.Op) × managerSig.Ret o} (h : Probes d x.1)
    (lookup : Option String) : catalogStep lookup x = none ∧ preferenceStep d x = none := by
  obtain ⟨o, r⟩ := x
  cases o <;> simp only [Probes] at h <;> exact ⟨rfl, rfl⟩

theorem probeCandidate_probes (rt : Runtime) (candidate : Candidate) (d : String)
    (timeoutMs : Nat) :
    Issues (S := managerSig) (Probes d) (probeCandidate rt candidate d timeoutMs) := by
  refine (op_issues trivial).bind fun started => ?_
  refine (op_issues ⟨rfl, rfl⟩).bind fun reply => ?_
  refine (op_issues trivial).bind fun finished => ?_
  split
  · exact (op_issues trivial).bind fun _ => .raise _
  · exact (op_issues trivial).bind fun _ => pure_issues _

theorem tryCandidates_probes (rt : Runtime) (d : String) (mode : SelectionMode) (first : Candidate)
    (candidates : List Candidate) (error : Option String)
    (unavailable : Option (Candidate × Answer)) :
    Issues (S := managerSig) (Probes d)
      (tryCandidates rt d mode first candidates error unavailable) := by
  induction candidates generalizing error unavailable with
  | nil => exact pure_issues _
  | cons candidate rest ih =>
    refine (probeCandidate_probes rt candidate d 5000).attempt.bind fun result => ?_
    cases result with
    | ok answer =>
      dsimp only
      split
      · exact ih _ _
      · exact pure_issues _
    | error e =>
      dsimp only
      split
      · exact pure_issues _
      · exact ih _ _

/-- One round of the inventory. -/
theorem pickDomain_path (rt : Runtime) {d : String} {log : ManagerLog}
    {result : Except PyError Pick} (h : Path (S := managerSig) (pickDomain rt d) log result)
    (hd : Discovered rt log) : result = .ok (pickFrom rt log d) := by
  rcases Path.of_bind h with ⟨e, -, hordered⟩ | ⟨⟨ordered, mode⟩, log₁, log₂, rfl, hordered, htry⟩
  · exact nomatch (orderedFor_path rt hordered hd).1
  · obtain ⟨horder, hreplies₁⟩ := orderedFor_path rt hordered hd.append.1
    have horder := (Except.ok.inj horder).symm
    cases ordered with
    | nil =>
      obtain ⟨rfl, rfl⟩ := Path.of_pure htry
      rw [List.append_nil, pickFrom, Pick.of, horder]
    | cons first rest =>
      have hprobes : ∀ x ∈ log₂, Probes d x.1 :=
        Path.issues (tryCandidates_probes rt d mode first _ none none) htry
      have hcatalog : catalogOf (log₁ ++ log₂) (some d) = catalogOf log₁ (some d) := by
        rw [catalogOf, List.findSome?_append,
          findSome?_silent fun x hx => ((hprobes x hx).steps (some d)).1, Option.or_none]
        rfl
      have hpreference : preferenceOf (log₁ ++ log₂) d = preferenceOf log₁ d := by
        rw [preferenceOf, List.findSome?_append,
          findSome?_silent fun x hx => ((hprobes x hx).steps (some d)).2, Option.or_none]
        rfl
      have hreplies : repliesOf (log₁ ++ log₂) d = repliesOf log₂ d := by
        rw [repliesOf, List.filterMap_append]
        change repliesOf log₁ d ++ _ = _
        rw [hreplies₁]
        rfl
      rw [pickFrom, hcatalog, hpreference, hreplies, ← failover_eq_of rt d _ _ _ horder]
      exact tryCandidates_path rt htry fun _ => rfl

/-- A round for a domain tells nothing of other lookups. -/
theorem pickDomain_silent (rt : Runtime) {d : String} {lookup : Option String}
    (hne : lookup ≠ some d) : Issues (S := managerSig) (Silent lookup) (pickDomain rt d) := by
  have hdiscover : Issues (S := managerSig) (Silent lookup) (candidatesFor rt d false (some d)) :=
    ((refreshCatalog_discovers rt false (some d)).mono fun _ h => h.silent hne.symm).bind
      fun _ => pure_issues _
  have hordered : Issues (S := managerSig) (Silent lookup) (orderedFor rt d) :=
    hdiscover.bind fun _ => (op_issues hne).bind fun _ => pure_issues _
  refine hordered.bind fun ⟨ordered, mode⟩ => ?_
  cases ordered with
  | nil => exact pure_issues _
  | cons first rest =>
    exact (tryCandidates_probes rt d mode first _ none none).mono fun _ h => h.silent hne

theorem pickDomains_silent (rt : Runtime) {requested : List String} {lookup : Option String}
    (hne : ∀ d ∈ requested, lookup ≠ some d) :
    Issues (S := managerSig) (Silent lookup) (pickDomains rt requested) := by
  induction requested with
  | nil => exact pure_issues _
  | cons d rest ih =>
    refine (pickDomain_silent rt (hne d List.mem_cons_self)).bind fun _ => ?_
    exact (ih fun d' hd' => hne d' (List.mem_cons_of_mem d hd')).bind fun _ => pure_issues _

/-- The rounds of the inventory. -/
theorem pickDomains_path (rt : Runtime) {requested : List String} (hnodup : requested.Nodup)
    {log : ManagerLog} {result : Except PyError (List (String × Pick))}
    (h : Path (S := managerSig) (pickDomains rt requested) log result) (hd : Discovered rt log) :
    result = .ok (requested.map fun d => (d, pickFrom rt log d)) := by
  induction requested generalizing log result with
  | nil => exact (Path.of_pure h).2
  | cons d rest ih =>
    rw [List.nodup_cons] at hnodup
    rcases Path.of_bind h with ⟨e, -, hpick⟩ | ⟨pick, log₁, log₂, rfl, hpick, hrest⟩
    · exact nomatch pickDomain_path rt hpick hd
    cases pickDomain_path rt hpick hd.append.1
    rcases Path.of_bind hrest with ⟨e, -, hpicks⟩ | ⟨picks, log₃, log₄, rfl, hpicks, hreturn⟩
    · exact nomatch ih hnodup.2 hpicks hd.append.2
    obtain ⟨rfl, rfl⟩ := Path.of_pure hreturn
    rw [List.append_nil] at hd ⊢
    cases ih hnodup.2 hpicks hd.append.2
    -- each round is silent about the domains of the others
    have hhead : ∀ x ∈ log₃, Silent (some d) x.1 :=
      Path.issues (pickDomains_silent rt fun d' hd' heq =>
        hnodup.1 (Option.some.inj heq ▸ hd')) hpicks
    have htail : ∀ d' ∈ rest, pickFrom rt (log₁ ++ log₃) d' = pickFrom rt log₃ d' := by
      intro d' hd'
      have hne : some d' ≠ some d := fun heq => hnodup.1 (Option.some.inj heq ▸ hd')
      exact pickFrom_append_left rt (Path.issues (pickDomain_silent rt hne) hpick)
    rw [List.map_cons, pickFrom_append_right rt hhead]
    congr 2
    exact List.map_congr_left fun d' hd' => by rw [htail d' hd']

/-- The domains an inventory reports. -/
def requestedOf (domains : Option (List String)) (log : ManagerLog) : List String :=
  domains.getD (availableDomains (catalogOf log none))

/-- What an inventory knows of the domains it reports. -/
def picksOf (rt : Runtime) (domains : Option (List String)) (log : ManagerLog) :
    List (String × Pick) :=
  (requestedOf domains log).map fun d => (d, pickFrom rt log d)

/-- The report of an inventory that knows this of its domains. -/
def reportOf (revision : Nat) (picks : List (String × Pick)) : Inventory :=
  ⟨revision, picks.map fun pick => pick.2.row pick.1,
    (Listing.ofPicks picks ⟨[], Dict.empty⟩).devices⟩

/-- An inventory reports what follows from the answers it was given. -/
theorem inventory_path (rt : Runtime) {domains : Option (List String)} {refresh : Bool}
    {log : ManagerLog} {result : Except PyError Inventory}
    (h : Path (S := managerSig) (inventory rt domains refresh) log result)
    (hd : Discovered rt log) (hnodup : (requestedOf domains log).Nodup) :
    result = .ok (reportOf (revisionOf log) (picksOf rt domains log)) := by
  rcases Path.of_bind h with ⟨e, -, hrefresh⟩ | ⟨candidates, log₁, log₂, rfl, hrefresh, hrest⟩
  · cases refreshCatalog_path rt hrefresh hd
  cases refreshCatalog_path rt hrefresh hd.append.1
  -- The steps before and after the rounds say nothing of an answer.
  have hpicksSilent : ∀ requested, Issues (S := managerSig) (Silent none)
    (pickDomains rt requested) :=
    fun requested => pickDomains_silent rt fun d _ => (Option.some_ne_none d).symm
  have hrefreshSilent : ∀ d, ∀ x ∈ log₁, Silent (some d) x.1 := fun d => Path.issues
    ((refreshCatalog_discovers rt refresh none).mono fun _ h =>
      h.silent (Option.some_ne_none d).symm) hrefresh
  rcases Path.of_bind hrest with ⟨e, -, hpicks⟩ | ⟨picks, log₃, log₄, rfl, hpicks, hcommit⟩
  · have hcatalog : catalogOf (log₁ ++ log₂) none = catalogOf log₁ none :=
      catalogOf_append_right (Path.issues (hpicksSilent _) hpicks)
    rw [requestedOf, hcatalog] at hnodup
    cases pickDomains_path rt hnodup hpicks hd.append.2
  obtain ⟨revision, log₅, rfl, hreturn⟩ := op_bind_path hcommit
  obtain ⟨rfl, rfl⟩ := Path.of_pure hreturn
  have hlast : ∀ lookup, ∀ x ∈ ([⟨.commitRoutes (Listing.ofPicks picks ⟨[], Dict.empty⟩).routes
      (picks.map fun pick => (pick.1, pick.2.activeProvider)), revision⟩] : ManagerLog),
      Silent lookup x.1 := by
    intro lookup x hx
    rw [List.mem_singleton] at hx
    exact hx ▸ trivial
  -- So the catalog, the picks and the revision of the log are those of its parts.
  have hcatalog : catalogOf (log₁ ++ (log₃ ++ [⟨.commitRoutes _ _, revision⟩])) none =
      catalogOf log₁ none := by
    rw [← List.append_assoc, catalogOf_append_right (hlast none),
      catalogOf_append_right (Path.issues (hpicksSilent _) hpicks)]
  rw [requestedOf, hcatalog] at hnodup
  have hpick := pickDomains_path rt hnodup hpicks hd.append.2.append.1
  have hrevision : revisionOf (log₁ ++ (log₃ ++ [⟨.commitRoutes
      (Listing.ofPicks picks ⟨[], Dict.empty⟩).routes
      (picks.map fun pick => (pick.1, pick.2.activeProvider)), revision⟩])) = revision := by
    rw [revisionOf, ← List.append_assoc, List.reverse_append]
    rfl
  have hpicksOf : picksOf rt domains (log₁ ++ (log₃ ++ [⟨.commitRoutes
      (Listing.ofPicks picks ⟨[], Dict.empty⟩).routes
      (picks.map fun pick => (pick.1, pick.2.activeProvider)), revision⟩])) = picks := by
    rw [picksOf, requestedOf, hcatalog]
    refine Eq.trans (List.map_congr_left fun d _ => ?_) (Except.ok.inj hpick).symm
    rw [pickFrom_append_left rt (hrefreshSilent d), pickFrom_append_right rt (hlast (some d))]
  rw [hrevision, hpicksOf]
  rfl

end MsysHal
