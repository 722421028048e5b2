import MsysHal.Spec.Journal
import MsysHal.Spec.Rounds

/-!
# The order of the catalog

Every catalog the manager holds was committed by a discovery: its candidates are
sorted by falling priority and then by name, and no component stands in it twice.

## Key results

- `specsFrom_distinct`, `describeBatches_components`: a component is described once
- `discover_orders`: what a discovery commits
- `run_ordered`: the catalog of every state of a run
-/

namespace MsysHal

open Python (Value Runtime)
open Interleave (Prog Issues Path Pool Label Trace)

/-! ## Candidates in order -/

/-- The order of the candidates in a catalog: falling priority, then the name. -/
def Before (a b : Candidate) : Prop :=
  keyLe (-a.priority, a.component) (-b.priority, b.component) = true

instance : DecidableRel Before := fun _ _ => inferInstanceAs (Decidable (_ = true))

/-- The candidates stand in their order and no component stands there twice. -/
structure OrderedCatalog (candidates : List Candidate) : Prop where
  distinct : (candidates.map (·.component)).Nodup
  ordered : candidates.Pairwise Before

theorem keyLe_iff (a b : Int × String) : keyLe a b = true ↔ a.1 < b.1 ∨ a.1 = b.1 ∧ a.2 ≤ b.2 := by
  simp only [keyLe, Bool.or_eq_true, decide_eq_true_eq, Bool.and_eq_true, beq_iff_eq]

theorem keyLe_total (a b : Int × String) : keyLe a b = true ∨ keyLe b a = true := by
  rw [keyLe_iff, keyLe_iff]
  rcases lt_trichotomy a.1 b.1 with h | h | h
  · exact .inl (.inl h)
  · rcases le_total a.2 b.2 with h' | h'
    · exact .inl (.inr ⟨h, h'⟩)
    · exact .inr (.inr ⟨h.symm, h'⟩)
  · exact .inr (.inl h)

theorem keyLe_trans {a b c : Int × String} (hab : keyLe a b = true) (hbc : keyLe b c = true) :
    keyLe a c = true := by
  rw [keyLe_iff] at hab hbc ⊢
  rcases hab with hab | ⟨hab, hab'⟩
  · rcases hbc with hbc | ⟨hbc, -⟩
    · exact .inl (hab.trans hbc)
    · exact .inl (hbc ▸ hab)
  · rcases hbc with hbc | ⟨hbc, hbc'⟩
    · exact .inl (hab ▸ hbc)
    · exact .inr ⟨hab.trans hbc, hab'.trans hbc'⟩

instance : Std.Total Before := ⟨fun _ _ => keyLe_total _ _⟩

instance : IsTrans Candidate Before := ⟨fun _ _ _ => keyLe_trans⟩

theorem sortCandidates_ordered {candidates : List Candidate}
    (h : (candidates.map (·.component)).Nodup) : OrderedCatalog (sortCandidates candidates) where
  distinct := ((List.perm_insertionSort _ candidates).map _).nodup_iff.mpr h
  ordered := List.pairwise_insertionSort Before candidates

/-- Sorting the candidates of a domain again changes nothing. -/
theorem OrderedCatalog.sort_filter {candidates : List Candidate} (h : OrderedCatalog candidates)
    (test : Candidate → Bool) :
    sortCandidates (candidates.filter test) = candidates.filter test :=
  (h.ordered.filter test).insertionSort_eq

theorem OrderedCatalog.distinct_filter {candidates : List Candidate} (h : OrderedCatalog candidates)
    (test : Candidate → Bool) : ((candidates.filter test).map (·.component)).Nodup :=
  h.distinct.sublist ((List.filter_sublist).map _)

/-! ## What a discovery commits -/

/-- A component is taken from the rows once, and not when it was seen before. -/
theorem specsFrom_distinct (rows : List Row) (seen : List String) :
    ((specsFrom rows seen).map (·.component)).Nodup ∧
      ∀ spec ∈ specsFrom rows seen, spec.component ∉ seen := by
  induction rows generalizing seen with
  | nil => exact ⟨List.nodup_nil, fun _ h => nomatch h⟩
  | cons row rest ih =>
    rw [specsFrom]
    split
    · next component _ =>
      split
      · split
        · exact ih seen
        · next hseen =>
          obtain ⟨hnodup, hnew⟩ := ih (component :: seen)
          have hrest : ∀ spec ∈ specsFrom rest (component :: seen), spec.component ∉ seen :=
            fun spec hspec h => hnew spec hspec (List.mem_cons_of_mem _ h)
          split
          · exact ⟨hnodup, hrest⟩
          · refine ⟨?_, List.forall_mem_cons.mpr
              ⟨fun h => hseen (List.contains_iff_mem.mpr h), hrest⟩⟩
            rw [List.map_cons, List.nodup_cons]
            refine ⟨fun hmem => ?_, hnodup⟩
            obtain ⟨spec, hspec, heq⟩ := List.mem_map.mp hmem
            exact hnew spec hspec (heq ▸ List.mem_cons_self)
      · exact ih seen
    · exact ih seen

theorem providerSpecs_distinct {rt : Runtime} {discovery : List (Value × Value)}
    {specs : List ProviderSpec} (h : providerSpecs rt discovery = .ok specs) :
    (specs.map (·.component)).Nodup := by
  rw [providerSpecs] at h
  split at h
  · split at h
    · exact nomatch h
    · rw [Except.ok.injEq] at h
      exact h ▸ (specsFrom_distinct _ []).1
  · exact nomatch h

theorem candidateOf_component {spec : ProviderSpec} {description : List (Value × Value)}
    {candidate : Candidate} (h : candidateOf spec description = .ok candidate) :
    candidate.component = spec.component := by
  obtain ⟨_, -, h⟩ := Except.bind_eq_ok_iff.mp h
  obtain ⟨-, h⟩ := Except.ite_error_eq_ok_iff.mp h
  obtain ⟨_, -, h⟩ := Except.bind_eq_ok_iff.mp h
  obtain ⟨_, -, h⟩ := Except.bind_eq_ok_iff.mp h
  obtain ⟨-, h⟩ := Except.ite_error_eq_ok_iff.mp h
  obtain ⟨_, -, h⟩ := Except.bind_eq_ok_iff.mp h
  obtain ⟨_, -, h⟩ := Except.bind_eq_ok_iff.mp h
  obtain ⟨_, -, h⟩ := Except.bind_eq_ok_iff.mp h
  obtain ⟨_, -, h⟩ := Except.bind_eq_ok_iff.mp h
  cases h
  rfl

/-- A description is of the component that was asked. -/
theorem describeCandidate_component {rt : Runtime} {spec : ProviderSpec} {log : ManagerLog}
    {candidate : Candidate}
    (h : Path (S := managerSig) (describeCandidate rt spec) log (.ok candidate)) :
    candidate.component = spec.component := by
  rcases Path.of_bind h with ⟨e, he, -⟩ | ⟨description, log₁, log₂, rfl, -, hcheck⟩
  · exact nomatch he
  · obtain ⟨-, hcheck⟩ := check_path hcheck
    exact candidateOf_component (Except.mapError_eq_ok_iff.mp hcheck.symm)

theorem describeBatch_components {rt : Runtime} {specs : List ProviderSpec}
    {candidates described : List Candidate} {log : ManagerLog}
    (h : Path (S := managerSig) (describeBatch rt specs candidates) log (.ok described)) :
    (described.map (·.component)).Sublist
      (candidates.map (·.component) ++ specs.map (·.component)) := by
  induction specs generalizing candidates log with
  | nil =>
    obtain ⟨-, h⟩ := Path.of_pure h
    cases h
    rw [List.map_nil, List.append_nil]
  | cons spec rest ih =>
    obtain ⟨result, log₁, log₂, rfl, hdescribe, hrest⟩ := Path.of_attempt_bind h
    -- the batch goes on with the candidates so far, with or without this one
    have hskip : (candidates.map (·.component) ++ rest.map (·.component)).Sublist
        (candidates.map (·.component) ++ (spec :: rest).map (·.component)) :=
      (List.sublist_cons_self _ _).append_left _
    cases result with
    | error e => exact (ih hrest).trans hskip
    | ok candidate =>
      dsimp only at hrest
      split at hrest
      · have hnext := ih hrest
        rw [List.map_append, List.append_assoc, List.map_singleton,
          describeCandidate_component hdescribe] at hnext
        exact hnext
      · exact (ih hrest).trans hskip

theorem describeBatches_components {rt : Runtime} {batches : List (List ProviderSpec)}
    {candidates described : List Candidate} {log : ManagerLog}
    (h : Path (S := managerSig) (describeBatches rt batches candidates) log (.ok described)) :
    (described.map (·.component)).Sublist
      (candidates.map (·.component) ++ batches.flatten.map (·.component)) := by
  induction batches generalizing candidates log with
  | nil =>
    obtain ⟨-, h⟩ := Path.of_pure h
    cases h
    exact List.sublist_append_left _ _
  | cons batch rest ih =>
    rcases Path.of_bind h with ⟨e, he, -⟩ | ⟨found, log₁, log₂, rfl, hbatch, hrest⟩
    · exact nomatch he
    · rw [List.flatten_cons, List.map_append, ← List.append_assoc]
      have hfound := describeBatch_components hbatch
      split at hrest
      · obtain ⟨-, h⟩ := Path.of_pure hrest
        cases h
        exact hfound.trans (List.sublist_append_left _ _)
      · exact (ih hrest).trans (hfound.append_right _)

/-- Cutting a list into batches loses nothing. -/
private theorem flatten_toChunks {α : Type} (n : Nat) (xs : List α) :
    (xs.toChunks n).flatten = xs := by
  have hgo : ∀ (xs : List α) (chunk : Array α) (chunks : Array (List α)),
      (List.toChunks.go n xs chunk chunks).flatten =
        chunks.toList.flatten ++ (chunk.toList ++ xs) := by
    intro xs
    induction xs with
    | nil =>
      intro chunk chunks
      simp [List.toChunks.go]
    | cons x xs ih =>
      intro chunk chunks
      rw [List.toChunks.go]
      split
      · rw [ih]
        simp
      · rw [ih]
        simp
  cases xs with
  | nil => simp [List.toChunks]
  | cons x xs =>
    cases n with
    | zero => simp [List.toChunks]
    | succ n =>
      simp only [List.toChunks, hgo]
      rfl

/-- An operation that commits no catalog but an ordered one. -/
def Orders (o : ManagerOp) : Prop :=
  ∀ candidates lookup, o = .commitCatalog candidates lookup → OrderedCatalog candidates

theorem Calm.orders (o : ManagerOp) (h : Calm o) : Orders o := by
  rintro candidates lookup rfl
  exact absurd h id

theorem discover_orders (rt : Runtime) (lookup : Option String) :
    Issues (S := managerSig) Orders (discover rt lookup) := by
  refine (invoke_issues rt fun _ _ h => nomatch h).bind fun discovery => ?_
  refine Path.issues_bind (check_issues _) fun specs _ hspecs => ?_
  obtain ⟨-, hspecs⟩ := check_path hspecs
  have hdistinct := providerSpecs_distinct (Except.mapError_eq_ok_iff.mp hspecs.symm)
  refine Path.issues_bind (describeBatches_issues (fun _ _ _ _ _ _ h => nomatch h) rt _ _)
    fun described _ hdescribed => op_issues fun candidates lookup' heq => ?_
  cases heq
  have hsublist := describeBatches_components hdescribed
  rw [flatten_toChunks, List.map_nil, List.nil_append] at hsublist
  exact sortCandidates_ordered (hdistinct.sublist hsublist)

theorem refreshCatalog_orders (rt : Runtime) (force : Bool) (lookup : Option String) :
    Issues (S := managerSig) Orders (refreshCatalog rt force lookup) := by
  have hread : Issues (S := managerSig) Orders (op (.readCatalog force lookup)) :=
    op_issues fun _ _ h => nomatch h
  refine hread.bind fun known => ?_
  cases known with
  | some candidates => exact pure_issues _
  | none =>
    refine (op_issues fun _ _ h => nomatch h).bind fun _ => ?_
    refine Issues.withCleanup (hread.bind fun known => ?_) (op_issues fun _ _ h => nomatch h)
    cases known with
    | some candidates => exact pure_issues _
    | none => exact discover_orders rt lookup

theorem program_orders (rt : Runtime) (job : Job) :
    Issues (S := managerSig) Orders (job.program rt) :=
  program_of_calm (refreshCatalog_orders rt) Calm.orders (fun _ _ _ h => nomatch h)
    (fun _ _ _ h => nomatch h) (fun _ _ _ _ h => nomatch h) job

/-! ## The catalog of a run -/

/-- An operation leaves the catalog as it is, or replaces it. -/
theorem exec_candidates {o : ManagerOp} {i : Input} {s s' : ManagerState} {r : o.Ret}
    (h : managerExec o i s = some (r, s')) : s'.candidates = s.candidates ∨
      ∃ lookup, o = .commitCatalog s'.candidates lookup := by
  cases o <;> simp only [managerExec, Option.some.injEq, Prod.mk.injEq] at h
  case commitCatalog candidates lookup =>
    obtain ⟨-, rfl⟩ := h
    exact .inr ⟨lookup, rfl⟩
  case commitSelection choice expected =>
    rcases commitSelection_cases s choice expected i.saveError with
      ⟨e, he⟩ | he | ⟨e, he⟩ | ⟨data, _, _, _, he⟩ <;>
      rw [he, Prod.mk.injEq] at h <;> obtain ⟨-, rfl⟩ := h <;> exact .inl rfl
  case electActive d candidates =>
    obtain ⟨-, rfl⟩ := h
    rw [ManagerState.electActive]
    split <;> exact .inl rfl
  case lockCatalog =>
    split at h
    · cases h
    · cases h
      exact .inl rfl
  case watch after timeoutMs deadline domains =>
    split at h
    · cases h
    · cases h
      exact .inl rfl
  case recordEvent notice =>
    cases h
    exact .inl rfl
  all_goals
    obtain ⟨-, rfl⟩ := h
    exact .inl rfl

/-- One operation. -/
theorem Orders.exec {o : ManagerOp} (ho : Orders o) {i : Input} {s s' : ManagerState} {r : o.Ret}
    (h : managerExec o i s = some (r, s')) (hs : OrderedCatalog s.candidates) :
    OrderedCatalog s'.candidates := by
  rcases exec_candidates h with hsame | ⟨lookup, hcommit⟩
  · exact hsame ▸ hs
  · exact ho _ lookup hcommit

/-- In every state a run reaches the catalog is in its order. -/
theorem run_ordered {rt : Runtime} {file : Option ByteArray} {ttl : ℚ} {s₀ : ManagerState}
    (hinit : ManagerState.init rt file ttl = .ok s₀) {labels : List (Label Job Input)}
    {p : Pool managerSig ManagerState PyError Value} {tr : List ManagerEvent}
    (hrun : managerRun rt ⟨s₀, []⟩ labels = some (p, tr)) : OrderedCatalog p.shared.candidates := by
  have hstart : OrderedCatalog s₀.candidates := by
    simp only [ManagerState.init, bind, Except.bind] at hinit
    split at hinit
    · exact nomatch hinit
    · cases hinit
      exact ⟨List.nodup_nil, List.Pairwise.nil⟩
  have horders : ∀ e ∈ tr, Orders e.op := fun e he =>
    let ⟨_, _, h⟩ := Pool.run_issues _ _ (program_orders rt) hrun e he
    h
  have htrace := Pool.run_trace _ _ hrun
  clear hrun hinit
  generalize s₀ = s at htrace hstart
  induction tr generalizing s with
  | nil => exact (show s = p.shared from htrace) ▸ hstart
  | cons e tr ih =>
    obtain ⟨rfl, ⟨i, he⟩, htrace⟩ := htrace
    have hafter := (horders e List.mem_cons_self).exec he hstart
    exact ih (fun e' he' => horders e' (List.mem_cons_of_mem e he')) e.after htrace hafter

end MsysHal
