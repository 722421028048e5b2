import MsysHal.ForStd.Hoare
import MsysHal.Python.Reload
import MsysHal.Spec.Affine

/-!
# Which generation confirms a hot reload

`_reload_runtime` reads the owner token once to find the process it signals, and
each receipt is then checked against the owner token that is read next to it. The
provider may restart in between, so what these checks give is that each receipt
belongs to the generation of its own token.

## Key results

- `compareReceipts_matched`: the receipts that confirm a round, each beside its token
- `reload_confirmed_by_generation`: the receipts belong to the generation that was
  signalled if and only if the tokens read beside them do
- `reload_confirmed_by_successor`: a restart after the signal
-/

namespace MsysHal.Ch347.Reload

open Python (Value)
open Interleave (Prog Path Issues Log)

/-- The steps a reload has made, with their answers. -/
abbrev ReloadLog := Log reloadSig

/-! ## Generations -/

/-- The generation in the assignments of a receipt. -/
def assignedGeneration (keys : List (String × String)) (receipt : Receipt) (text : List Char) :
    Option Nat :=
  (assignments text (appliedKeys keys) (.applied receipt)).toOption.bind
    (·.lookup "provider_generation")

/-- The generation a receipt says it belongs to. -/
def Receipt.generationOf : Receipt → List Char → Option Nat
  | .display, text => assignedGeneration fpsKeys .display text
  | .overlay, text => assignedGeneration debugOverlayKeys .overlay text
  | .cursor, text => assignedGeneration cursorKeys .cursor text
  | .rotation, text => (matchAppliedRotation text).map Prod.fst
  | .affine, text => (splitlines text).head?.bind matchGeneration

/-- The receipts that were read, oldest first. -/
def receiptsIn (log : ReloadLog) : List (Receipt × List Char) :=
  log.filterMap fun
    | ⟨.read (.applied receipt), .ok (some text)⟩ => some (receipt, text)
    | _ => none

/-- The owner tokens that were read, oldest first. -/
def tokensIn (log : ReloadLog) : List (List Char) :=
  log.filterMap fun
    | ⟨.read .owner, .ok (some token)⟩ => some token
    | _ => none

/-- A receipt and a token of one generation. -/
def SameGeneration (receipt : Receipt × List Char) (token : List Char) : Prop :=
  ∃ generation, receipt.1.generationOf receipt.2 = some generation ∧
    ownerGeneration token = some generation

/-- Each receipt of the log was read beside a token of its generation. -/
def Matched (log : ReloadLog) : Prop := List.Forall₂ SameGeneration (receiptsIn log) (tokensIn log)

theorem receiptsIn_append (log log' : ReloadLog) :
    receiptsIn (log ++ log') = receiptsIn log ++ receiptsIn log' := List.filterMap_append

theorem tokensIn_append (log log' : ReloadLog) :
    tokensIn (log ++ log') = tokensIn log ++ tokensIn log' := List.filterMap_append

theorem Matched.append {log log' : ReloadLog} (h : Matched log) (h' : Matched log') :
    Matched (log ++ log') := by
  rw [Matched, receiptsIn_append, tokensIn_append]
  exact List.rel_append h h'

/-- The receipts belong to a generation exactly when their tokens do. -/
theorem Matched.iff {log : ReloadLog} (h : Matched log) (generation : Nat) :
    (∀ receipt ∈ receiptsIn log, receipt.1.generationOf receipt.2 = some generation) ↔
      ∀ token ∈ tokensIn log, ownerGeneration token = some generation := by
  have hall : ∀ {receipts tokens}, List.Forall₂ SameGeneration receipts tokens →
      ((∀ receipt ∈ receipts, receipt.1.generationOf receipt.2 = some generation) ↔
        ∀ token ∈ tokens, ownerGeneration token = some generation) := by
    intro receipts tokens h
    induction h with
    | nil => simp
    | cons hsame _ ih =>
      obtain ⟨g, hreceipt, htoken⟩ := hsame
      rw [List.forall_mem_cons, List.forall_mem_cons, ih, hreceipt, htoken]
  exact hall h

/-! ## Receipts -/

section Receipts

variable {text owner : List Char}

theorem integer_ok {n : Int} {label : String} {minimum maximum m : Int}
    (h : integer (.int n) label minimum maximum = .ok m) : m = n := by
  simp only [integer] at h
  split at h
  · exact nomatch h
  · cases h
    rfl

theorem checkOwner_ok {generation : Int} {complaint : String}
    (h : checkOwner owner generation complaint = .ok ()) :
    ∃ n : Nat, ownerGeneration owner = some n ∧ generation = n := by
  unfold checkOwner at h
  split at h
  · next heq =>
    obtain ⟨n, hn, rfl⟩ := Option.map_eq_some_iff.mp heq
    exact ⟨n, hn, rfl⟩
  · exact nomatch h

theorem requireFields_ok {fields : List String} {raw : List (String × Nat)} {complaint : String}
    (h : requireFields fields raw complaint = .ok ()) {name : String} (hname : name ∈ fields) :
    raw.lookup name = some (field raw name) := by
  simp only [requireFields] at h
  split at h
  · next hempty =>
    have hnone := List.isEmpty_iff.mp hempty
    cases hlookup : raw.lookup name with
    | some n => rw [field, hlookup, Option.getD_some]
    | none =>
      have hmem : name ∈ missingFields fields raw := by
        rw [missingFields, sortStrings, List.mem_insertionSort]
        exact List.mem_filter.mpr ⟨hname, by rw [hlookup]; rfl⟩
      rw [hnone] at hmem
      cases hmem
  · cases h

/-- A receipt whose generation field is its owner's. -/
theorem sameGeneration_of_assigned {keys : List (String × String)} {receipt : Receipt}
    {raw : List (String × Nat)} {generation : Int} {complaint : String}
    (hraw : assignments text (appliedKeys keys) (.applied receipt) = .ok raw)
    (hfield : raw.lookup "provider_generation" = some (field raw "provider_generation"))
    (hgeneration : receiptGeneration raw = .ok generation)
    (hcheck : checkOwner owner generation complaint = .ok ()) :
    ∃ n, assignedGeneration keys receipt text = some n ∧ ownerGeneration owner = some n := by
  obtain ⟨n, hn, rfl⟩ := checkOwner_ok hcheck
  refine ⟨n, ?_, hn⟩
  rw [assignedGeneration, hraw]
  change raw.lookup "provider_generation" = some n
  rw [hfield, Int.ofNat_inj.mp (integer_ok hgeneration)]

theorem parseAppliedDisplay_sameGeneration {applied : Applied Fps}
    (h : parseAppliedDisplay text owner = .ok applied) :
    SameGeneration (.display, text) owner := by
  obtain ⟨raw, hraw, h⟩ := Except.bind_eq_ok_iff.mp h
  obtain ⟨⟨⟩, hfields, h⟩ := Except.bind_eq_ok_iff.mp h
  split at h
  · exact nomatch h
  · obtain ⟨fps, -, h⟩ := Except.bind_eq_ok_iff.mp h
    obtain ⟨maximum, -, h⟩ := Except.bind_eq_ok_iff.mp h
    obtain ⟨idle, -, h⟩ := Except.bind_eq_ok_iff.mp h
    obtain ⟨generation, hgeneration, h⟩ := Except.bind_eq_ok_iff.mp h
    split at h
    · exact nomatch h
    · obtain ⟨⟨⟩, hcheck, -⟩ := Except.bind_eq_ok_iff.mp h
      exact sameGeneration_of_assigned hraw (requireFields_ok hfields (by decide))
        hgeneration hcheck

theorem parseAppliedOverlay_sameGeneration {applied : Applied Overlay}
    (h : parseAppliedOverlay text owner = .ok applied) :
    SameGeneration (.overlay, text) owner := by
  obtain ⟨raw, hraw, h⟩ := Except.bind_eq_ok_iff.mp h
  obtain ⟨⟨⟩, hfields, h⟩ := Except.bind_eq_ok_iff.mp h
  split at h
  · exact nomatch h
  · obtain ⟨generation, hgeneration, h⟩ := Except.bind_eq_ok_iff.mp h
    obtain ⟨⟨⟩, hcheck, -⟩ := Except.bind_eq_ok_iff.mp h
    exact sameGeneration_of_assigned hraw (requireFields_ok hfields (by decide)) hgeneration hcheck

theorem parseAppliedCursor_sameGeneration {applied : Applied Bool}
    (h : parseAppliedCursor text owner = .ok applied) :
    SameGeneration (.cursor, text) owner := by
  obtain ⟨raw, hraw, h⟩ := Except.bind_eq_ok_iff.mp h
  dsimp only at h
  split at h
  · exact nomatch h
  · next hpresent =>
    split at h
    · exact nomatch h
    · obtain ⟨generation, hgeneration, h⟩ := Except.bind_eq_ok_iff.mp h
      obtain ⟨⟨⟩, hcheck, -⟩ := Except.bind_eq_ok_iff.mp h
      refine sameGeneration_of_assigned hraw ?_ hgeneration hcheck
      cases hlookup : raw.lookup "provider_generation" with
      | none => simp only [hlookup, Option.isNone_none, Bool.or_true, not_true_eq_false] at hpresent
      | some n => rw [field, hlookup, Option.getD_some]

theorem parseAppliedRotation_generation {active : Nat} {applied : Applied Rotation}
    (h : parseAppliedRotation text active = .ok applied) :
    (matchAppliedRotation text).map Prod.fst = some active := by
  unfold parseAppliedRotation at h
  split at h
  · exact nomatch h
  · next generation rotation hmatch =>
    obtain ⟨n, hn, h⟩ := Except.bind_eq_ok_iff.mp h
    split at h
    · exact nomatch h
    · next hsame =>
      rw [not_not, integer_ok hn] at hsame
      rw [hmatch, Option.map_some, Int.ofNat_inj.mp hsame]

end Receipts

/-! ## Loaders -/

section Loaders

variable {log : ReloadLog}

/-- A provider that is found was read from its token. -/
theorem activeProvider_path {component : String} {generation pid : Nat}
    (hpath : Path (activeProvider component) log (.ok (generation, pid))) :
    ∃ token, log = [⟨.read .owner, .ok (some token)⟩, ⟨.pidAlive pid, true⟩] ∧
      matchOwner token = some (generation, pid) := by
  obtain ⟨answer, rest, rfl, h⟩ := Path.of_perform_bind hpath
  split at h
  · exact nomatch h
  · exact nomatch h
  · next token =>
    split at h
    · exact nomatch h
    · next generation' pid' hmatch =>
      rcases Path.of_bind h with ⟨e, he, -⟩ | ⟨_, log₁, log₂, rfl, h₁, h₃⟩
      · exact nomatch he
      rcases Path.of_bind h₃ with ⟨e, he, -⟩ | ⟨_, log₃, log₄, rfl, h₂, h₄⟩
      · exact nomatch he
      obtain ⟨alive, rest, rfl, h'⟩ := Path.of_perform_bind h₄
      obtain rfl := (Path.of_ofExcept h₁).1
      obtain rfl := (Path.of_ofExcept h₂).1
      split at h'
      · next halive =>
        cases h'
        exact ⟨token, by rw [← halive]; rfl, hmatch⟩
      · exact nomatch h'

/-- A receipt that is loaded was read beside a token that its reader accepts. -/
theorem loadApplied_path {α : Type} {receipt : Receipt} {missing : String}
    {parse : List Char → List Char → Except HalError (Applied α)} {applied : Applied α}
    {error : Option String}
    (hpath : Path (loadApplied receipt missing parse) log (.ok (some applied, error))) :
    ∃ text token, log = [⟨.read (.applied receipt), .ok (some text)⟩,
      ⟨.read .owner, .ok (some token)⟩] ∧ parse text token = .ok applied := by
  obtain ⟨text, rest, rfl, h₁⟩ := Path.of_perform_bind hpath
  split at h₁
  · exact nomatch h₁
  · obtain ⟨owner, rest, rfl, h₂⟩ := Path.of_perform_bind h₁
    split at h₂
    · exact nomatch h₂
    · split at h₂
      · next text token =>
        split at h₂
        · next hparse =>
          cases h₂
          exact ⟨text, token, rfl, hparse⟩
        · exact nomatch h₂
      · exact nomatch h₂

theorem loadAppliedRotation_path {component : String} {applied : Applied Rotation}
    {error : Option String}
    (hpath : Path (loadAppliedRotation component) log (.ok (some applied, error))) :
    ∃ text token pid, log = [⟨.read (.applied .rotation), .ok (some text)⟩,
      ⟨.read .owner, .ok (some token)⟩, ⟨.pidAlive pid, true⟩] ∧
      SameGeneration (.rotation, text) token := by
  obtain ⟨text, rest, rfl, h₁⟩ := Path.of_perform_bind hpath
  split at h₁
  · exact nomatch h₁
  · obtain ⟨found, log₁, log₂, rfl, hfound, h₂⟩ := Path.of_attempt_bind h₁
    split at h₂
    · exact nomatch h₂
    · exact nomatch h₂
    · next active pid =>
      obtain ⟨token, rfl, hmatch⟩ := activeProvider_path hfound
      split at h₂
      · exact nomatch h₂
      · next text =>
        split at h₂
        · next hparse =>
          cases h₂
          refine ⟨text, token, pid, rfl, active, parseAppliedRotation_generation hparse, ?_⟩
          rw [ownerGeneration, hmatch, Option.map_some]
        · exact nomatch h₂

theorem loadAppliedAffine_path {C : Config} {applied : AffineDocument}
    (hpath : Path (loadAppliedAffine C) log (.ok (some applied))) :
    ∃ text token pid, log = [⟨.read (.applied .affine), .ok (some text)⟩,
      ⟨.read .owner, .ok (some token)⟩, ⟨.pidAlive pid, true⟩] ∧
      SameGeneration (.affine, text) token := by
  obtain ⟨answer, rest, rfl, h₁⟩ := Path.of_perform_bind hpath
  rcases Path.of_bind h₁ with ⟨e, he, -⟩ | ⟨found, log₁, log₂, rfl, hread, h₂⟩
  · exact nomatch he
  obtain ⟨rfl, hfound⟩ := Path.of_ofExcept hread
  have hfound := Except.mapError_eq_ok_iff.mp hfound.symm
  subst hfound
  split at h₂
  · exact nomatch h₂
  · next text =>
    dsimp only at h₂
    split at h₂
    · exact nomatch h₂
    · next generation hgeneration =>
      rcases Path.of_bind h₂ with ⟨e, he, -⟩ | ⟨⟨active, pid⟩, log₃, log₄, rfl, hactive, h₃⟩
      · exact nomatch he
      obtain ⟨token, rfl, hmatch⟩ := activeProvider_path hactive
      dsimp only at h₃
      split at h₃
      · exact nomatch h₃
      · next hsame =>
        rw [not_not] at hsame
        rcases Path.of_bind h₃ with ⟨e, he, -⟩ | ⟨doc, log₅, log₆, rfl, hdoc, h₄⟩
        · exact nomatch he
        obtain ⟨rfl, -⟩ := Path.of_ofExcept hdoc
        cases h₄
        refine ⟨text, token, pid, rfl, generation, hgeneration, ?_⟩
        rw [ownerGeneration, hmatch, Option.map_some, hsame]

end Loaders

/-! ## Rounds -/

/-- The step that begins a round. -/
def startsRound : ReloadOp → Bool
  | .read (.setting .fps) => true
  | _ => false

/-- The effective document was there when the log read it. -/
def effectiveFound (log : ReloadLog) : Bool :=
  log.any fun
    | ⟨.read (.setting .affine), .ok (some _)⟩ => true
    | _ => false

theorem effectiveFound_append (log log' : ReloadLog) :
    effectiveFound (log ++ log') = (effectiveFound log || effectiveFound log') := List.any_append

/-- The steps of a round after its first: they read these receipts, each beside a
    token of its generation, and `found` tells whether they found the effective
    document. -/
structure Compares (log : ReloadLog) (receipts : List Receipt) (found : Bool) : Prop where
  matched : Matched log
  receipts : (receiptsIn log).map Prod.fst = receipts
  effective : effectiveFound log = found
  inside : ∀ x ∈ log, startsRound x.1 = false

section Rounds

variable {log log' : ReloadLog} {C : Config}

theorem Compares.append {receipts receipts' : List Receipt} {found found' : Bool}
    (h : Compares log receipts found) (h' : Compares log' receipts' found') :
    Compares (log ++ log') (receipts ++ receipts') (found || found') := by
  refine ⟨h.matched.append h'.matched, ?_, ?_, fun x hx => ?_⟩
  · rw [receiptsIn_append, List.map_append, h.receipts, h'.receipts]
  · rw [effectiveFound_append, h.effective, h'.effective]
  · rcases List.mem_append.mp hx with hx | hx
    · exact h.inside x hx
    · exact h'.inside x hx

theorem compares_pair {receipt : Receipt} {text token : List Char}
    (h : SameGeneration (receipt, text) token) :
    Compares [⟨.read (.applied receipt), .ok (some text)⟩, ⟨.read .owner, .ok (some token)⟩]
      [receipt] false :=
  ⟨.cons h .nil, rfl, rfl, by simp [startsRound]⟩

theorem compares_triple {receipt : Receipt} {text token : List Char}
    (h : SameGeneration (receipt, text) token) (pid : Nat) :
    Compares [⟨.read (.applied receipt), .ok (some text)⟩, ⟨.read .owner, .ok (some token)⟩,
      ⟨.pidAlive pid, true⟩] [receipt] false :=
  ⟨.cons h .nil, rfl, rfl, by simp [startsRound]⟩

/-- A receipt that carries a setting is there. -/
theorem of_carries {α : Type} [DecidableEq α] {applied : Option (Applied α)} {value : α}
    (h : carries applied value = true) : ∃ receipt, applied = some receipt := by
  cases applied with
  | none => exact nomatch h
  | some receipt => exact ⟨receipt, rfl⟩

theorem of_receiptMatches {applied : Option AffineDocument} {revision : Nat} {m : Affine}
    (h : receiptMatches C applied revision m = true) : ∃ receipt, applied = some receipt := by
  cases applied with
  | none => exact nomatch h
  | some receipt => exact ⟨receipt, rfl⟩

/-- The receipts of a configuration. -/
def Configured.receipts (configured : Configured) : List Receipt :=
  [.display, .overlay, .cursor, .rotation] ++ if configured.affine.isSome then [.affine] else []

/-- A comparison that succeeds has read every receipt, each beside a token of its
    generation. -/
theorem compareReceipts_matched {configured : Configured}
    (hpath : Path (compareReceipts C configured) log (.ok true)) :
    Compares log configured.receipts false := by
  rcases Path.of_bind hpath with ⟨e, he, -⟩ | ⟨⟨fps, _⟩, log₁, rest₁, rfl, hfps, h₁⟩
  · exact nomatch he
  rcases Path.of_bind h₁ with ⟨e, he, -⟩ | ⟨⟨overlay, _⟩, log₂, rest₂, rfl, hoverlay, h₂⟩
  · exact nomatch he
  rcases Path.of_bind h₂ with ⟨e, he, -⟩ | ⟨⟨cursor, _⟩, log₃, rest₃, rfl, hcursor, h₃⟩
  · exact nomatch he
  rcases Path.of_bind h₃ with ⟨e, he, -⟩ | ⟨⟨rotation, _⟩, log₄, rest₄, rfl, hrotation, h₄⟩
  · exact nomatch he
  dsimp only at h₄
  -- the four receipts that are always compared
  have hothers : carries fps configured.fps = true → carries overlay configured.overlay = true →
      carries cursor configured.cursor = true → carries rotation configured.rotation = true →
      Compares (log₁ ++ (log₂ ++ (log₃ ++ log₄))) [.display, .overlay, .cursor, .rotation]
        false := by
    intro hf ho hc hr
    obtain ⟨_, rfl⟩ := of_carries hf
    obtain ⟨_, rfl⟩ := of_carries ho
    obtain ⟨_, rfl⟩ := of_carries hc
    obtain ⟨_, rfl⟩ := of_carries hr
    obtain ⟨_, _, rfl, hdisplay⟩ := loadApplied_path hfps
    obtain ⟨_, _, rfl, hparsed⟩ := loadApplied_path hoverlay
    obtain ⟨_, _, rfl, hparsed'⟩ := loadApplied_path hcursor
    obtain ⟨_, _, pid, rfl, hsame⟩ := loadAppliedRotation_path hrotation
    exact (compares_pair (parseAppliedDisplay_sameGeneration hdisplay)).append <|
      (compares_pair (parseAppliedOverlay_sameGeneration hparsed)).append <|
      (compares_pair (parseAppliedCursor_sameGeneration hparsed')).append
        (compares_triple hsame pid)
  split at h₄
  · next hnone =>
    obtain ⟨rfl, hresult⟩ := Path.of_pure h₄
    simp only [Except.ok.injEq, Bool.true_eq, Bool.and_eq_true] at hresult
    obtain ⟨⟨⟨hf, ho⟩, hc⟩, hr⟩ := hresult
    rw [Configured.receipts, hnone, List.append_nil]
    simpa using hothers hf ho hc hr
  · next affine hsome =>
    rcases Path.of_bind h₄ with ⟨e, he, -⟩ | ⟨applied, log₅, rest₅, rfl, happlied, h₅⟩
    · exact nomatch he
    obtain ⟨rfl, hresult⟩ := Path.of_pure h₅
    simp only [Except.ok.injEq, Bool.true_eq, Bool.and_eq_true] at hresult
    obtain ⟨⟨⟨⟨hf, ho⟩, hc⟩, hr⟩, ha⟩ := hresult
    obtain ⟨_, rfl⟩ := of_receiptMatches ha
    obtain ⟨_, _, pid, rfl, haffine⟩ := loadAppliedAffine_path happlied
    rw [Configured.receipts, hsome, List.append_nil, Option.isSome_some, if_pos rfl]
    have := (hothers hf ho hc hr).append (compares_triple haffine pid)
    simpa only [List.append_assoc, Bool.or_self] using this

/-- The steps that read a setting after the first. -/
def ReadsSetting (o : ReloadOp) : Prop := ∃ setting, o = .read (.setting setting) ∧ setting ≠ .fps

/-- The steps that read the overlay, the cursor or the rotation. -/
def ReadsPlain (o : ReloadOp) : Prop :=
  ∃ setting, o = .read (.setting setting) ∧ setting ≠ .fps ∧ setting ≠ .affine

/-- Reading settings compares no receipt. -/
theorem compares_settings (h : ∀ x ∈ log, ReadsSetting x.1) :
    Compares log [] (effectiveFound log) := by
  have hreceipts : receiptsIn log = [] := by
    refine List.filterMap_eq_nil_iff.mpr fun x hx => ?_
    obtain ⟨o, answer⟩ := x
    obtain ⟨setting, rfl, -⟩ := h _ hx
    rfl
  have htokens : tokensIn log = [] := by
    refine List.filterMap_eq_nil_iff.mpr fun x hx => ?_
    obtain ⟨o, answer⟩ := x
    obtain ⟨setting, rfl, -⟩ := h _ hx
    rfl
  refine ⟨?_, by rw [hreceipts, List.map_nil], rfl, fun x hx => ?_⟩
  · rw [Matched, hreceipts, htokens]
    exact .nil
  · obtain ⟨setting, ho, hne⟩ := h x hx
    rw [ho]
    cases setting with
    | fps => exact absurd rfl hne
    | _ => rfl

theorem loadOptional_issues {α : Type} {setting : Setting} (h : setting ≠ .fps ∧ setting ≠ .affine)
    (parse : List Char → Except HalError α) :
    Issues (S := reloadSig) ReadsPlain (loadOptional setting parse) := by
  refine (Issues.perform ⟨setting, rfl, h⟩).bind fun answer => ?_
  split
  · exact .pure _
  · exact .pure _
  · split
    · exact .pure _
    · exact .pure _

theorem loadRotation_issues : Issues (S := reloadSig) ReadsPlain loadRotation := by
  refine (Issues.perform ⟨.rotation, rfl, by decide, by decide⟩).bind fun answer => ?_
  split
  · exact .pure _
  · exact .pure _
  · split
    · exact .pure _
    · exact .pure _

/-- The effective document is found exactly when its file is there. -/
theorem loadAffineFile_path {F : Floats} {affine : Option AffineDocument}
    (hpath : Path (loadAffineFile F) log (.ok affine)) :
    ∃ text, log = [⟨.read (.setting .affine), .ok text⟩] ∧ affine.isSome = text.isSome := by
  obtain ⟨answer, rest, rfl, h₁⟩ := Path.of_perform_bind hpath
  rcases Path.of_bind h₁ with ⟨e, he, -⟩ | ⟨found, log₁, log₂, rfl, hread, h₂⟩
  · exact nomatch he
  obtain ⟨rfl, hfound⟩ := Path.of_ofExcept hread
  have hfound := Except.mapError_eq_ok_iff.mp hfound.symm
  subst hfound
  split at h₂
  · obtain ⟨rfl, hresult⟩ := Path.of_pure h₂
    cases hresult
    exact ⟨none, rfl, rfl⟩
  · next text =>
    rcases Path.of_bind h₂ with ⟨e, he, -⟩ | ⟨doc, log₃, log₄, rfl, hdoc, h₃⟩
    · exact nomatch he
    obtain ⟨rfl, -⟩ := Path.of_ofExcept hdoc
    obtain ⟨rfl, hresult⟩ := Path.of_pure h₃
    cases hresult
    exact ⟨some text, rfl, rfl⟩

theorem effectiveFound_plain (h : ∀ x ∈ log, ReadsPlain x.1) : effectiveFound log = false := by
  refine List.any_eq_false.mpr fun x hx => ?_
  obtain ⟨o, answer⟩ := x
  obtain ⟨setting, rfl, -, hne⟩ := h _ hx
  cases setting with
  | affine => exact absurd rfl hne
  | _ => exact Bool.false_ne_true

/-- A configuration that is found was read from the first setting on. -/
theorem loadConfigured_path {F : Floats} {configured : Configured}
    (hpath : Path (loadConfigured F) log (.ok (some configured))) :
    ∃ answer rest, log = ⟨.read (.setting .fps), answer⟩ :: rest ∧
      Compares rest [] configured.affine.isSome := by
  -- Loading goes on only after a setting that could be read.
  rcases Path.of_bind hpath with ⟨e, he, -⟩ | ⟨⟨fps, _⟩, log₁, rest₁, rfl, hfps, h₁⟩
  · exact nomatch he
  rcases Path.of_bind h₁ with ⟨e, he, -⟩ | ⟨⟨overlay, _⟩, log₂, rest₂, rfl, hoverlay, h₂⟩
  · exact nomatch he
  rcases Path.of_bind h₂ with ⟨e, he, -⟩ | ⟨⟨cursor, _⟩, log₃, rest₃, rfl, hcursor, h₃⟩
  · exact nomatch he
  rcases Path.of_bind h₃ with ⟨e, he, -⟩ | ⟨⟨rotation, _, _⟩, log₄, rest₄, rfl, hrotation, h₄⟩
  · exact nomatch he
  rcases Path.of_bind h₄ with ⟨e, he, -⟩ | ⟨affine, log₅, rest₅, rfl, haffine, h₅⟩
  · exact nomatch he
  obtain ⟨text, rfl, hfound⟩ := loadAffineFile_path haffine
  obtain ⟨answer, rest, rfl, hrest⟩ := Path.of_perform_bind hfps
  have hempty : rest = [] := by
    split at hrest
    · exact (Path.of_pure hrest).1
    · exact (Path.of_pure hrest).1
    · split at hrest
      · exact (Path.of_pure hrest).1
      · exact (Path.of_pure hrest).1
  subst hempty
  -- Between the first setting and the affine file only plain settings are read.
  have hplain : ∀ x ∈ log₂ ++ (log₃ ++ log₄), ReadsPlain x.1 := by
    intro x hx
    rcases List.mem_append.mp hx with hx | hx
    · exact Path.issues (loadOptional_issues ⟨by decide, by decide⟩ _) hoverlay x hx
    · rcases List.mem_append.mp hx with hx | hx
      · exact Path.issues (loadOptional_issues ⟨by decide, by decide⟩ _) hcursor x hx
      · exact Path.issues loadRotation_issues hrotation x hx
  have hconfigured : rest₅ = [] ∧ configured.affine = affine := by
    split at h₅
    · exact nomatch h₅
    · split at h₅
      · split at h₅
        · obtain ⟨rfl, hresult⟩ := Path.of_pure h₅
          cases hresult
          exact ⟨rfl, rfl⟩
        · exact nomatch h₅
      · exact nomatch h₅
  obtain ⟨rfl, rfl⟩ := hconfigured
  have hsome : effectiveFound ((log₂ ++ (log₃ ++ log₄)) ++ [⟨.read (.setting .affine), .ok text⟩]) =
      configured.affine.isSome := by
    rw [effectiveFound_append, effectiveFound_plain hplain, hfound, Bool.false_or]
    cases text <;> rfl
  refine ⟨answer, (log₂ ++ (log₃ ++ log₄)) ++ [⟨.read (.setting .affine), .ok text⟩], ?_, ?_⟩
  · simp only [List.append_assoc, List.append_nil, List.cons_append, List.nil_append]
  · rw [← hsome]
    refine compares_settings fun x hx => ?_
    rcases List.mem_append.mp hx with hx | hx
    · obtain ⟨setting, ho, hne, -⟩ := hplain x hx
      exact ⟨setting, ho, hne⟩
    · exact ⟨.affine, by rw [List.mem_singleton.mp hx], by decide⟩

/-- The steps since the last round began. -/
def lastRound (log : ReloadLog) : ReloadLog := log.rtakeWhile fun x => !startsRound x.1

theorem lastRound_eq {answer : ReloadOp.Ret (.read (.setting .fps))}
    (h : ∀ x ∈ log', startsRound x.1 = false) :
    lastRound (log ++ ⟨.read (.setting .fps), answer⟩ :: log') = log' := by
  have hall : ∀ x ∈ log'.reverse, (!startsRound x.1) = true := by
    intro x hx
    rw [h x (List.mem_reverse.mp hx), Bool.not_false]
  rw [lastRound, List.rtakeWhile, List.reverse_append, List.reverse_cons, List.append_assoc,
    List.takeWhile_append_of_pos hall, List.singleton_append, List.takeWhile_cons_of_neg
      (by simp [startsRound]),
    List.append_nil, List.reverse_reverse]

/-- A round that confirms the reload, at the end of the steps before it. -/
theorem runtimeReceiptsMatch_lastRound (hpath : Path (runtimeReceiptsMatch C) log' (.ok true))
    (earlier : ReloadLog) :
    ∃ found, Compares (lastRound (earlier ++ log')) ([.display, .overlay, .cursor, .rotation] ++
      if found then [.affine] else []) found := by
  rcases Path.of_bind hpath with ⟨e, he, -⟩ | ⟨found, log₁, log₂, rfl, hfound, h⟩
  · exact nomatch he
  split at h
  · exact nomatch h
  · next configured =>
    obtain ⟨answer, rest, rfl, hsettings⟩ := loadConfigured_path hfound
    have hcompares := hsettings.append (compareReceipts_matched h)
    have hlast : lastRound (earlier ++ (⟨.read (.setting .fps), answer⟩ :: rest ++ log₂)) =
        rest ++ log₂ := lastRound_eq hcompares.inside
    rw [Bool.or_false] at hcompares
    rw [hlast]
    exact ⟨configured.affine.isSome, hcompares⟩

theorem awaitReceipts_path {details : List (String × Value)} {rounds : Nat}
    (hpath : Path (awaitReceipts C details rounds) log (.ok ())) :
    ∃ earlier round, log = earlier ++ round ∧ Path (runtimeReceiptsMatch C) round (.ok true) := by
  induction rounds generalizing log with
  | zero => exact nomatch hpath
  | succ rounds ih =>
    rcases Path.of_bind hpath with ⟨e, he, -⟩ | ⟨done, log₁, log₂, rfl, hround, h⟩
    · exact nomatch he
    split at h
    · next hdone =>
      obtain ⟨rfl, -⟩ := Path.of_pure h
      rw [hdone] at hround
      exact ⟨[], log₁, by rw [List.nil_append, List.append_nil], hround⟩
    · obtain ⟨earlier, round, rfl, hround'⟩ := ih h
      exact ⟨log₁ ++ earlier, round, by rw [List.append_assoc], hround'⟩

end Rounds

/-! ## One generation -/

/-- The generation and the process that were read first and signalled. -/
def signalled : ReloadLog → Option (Nat × Nat)
  | ⟨.read .owner, .ok (some token)⟩ :: ⟨.pidAlive _, _⟩ :: ⟨.signal pid, true⟩ :: _ =>
    (matchOwner token).filter fun provider => provider.2 == pid
  | _ => none

/-- The receipts that confirmed the reload. -/
def comparedReceipts (log : ReloadLog) : List (Receipt × List Char) := receiptsIn (lastRound log)

/-- The receipts that confirmed the reload all belong to the generation. -/
def ConfirmedBy (generation : Nat) (log : ReloadLog) : Prop :=
  ∀ receipt ∈ comparedReceipts log, receipt.1.generationOf receipt.2 = some generation

/-- The owner tokens of the last round are all of the generation. -/
def OwnedBy (generation : Nat) (log : ReloadLog) : Prop :=
  ∀ token ∈ tokensIn (lastRound log), ownerGeneration token = some generation

/-- A reload that returns has signalled a provider, and its last round has compared
    every receipt. -/
theorem reloadRuntime_path {C : Config} {log : ReloadLog}
    (hpath : Path (reloadRuntime C) log (.ok ())) :
    (∃ generation pid, signalled log = some (generation, pid)) ∧
      ∃ found, Compares (lastRound log) ([.display, .overlay, .cursor, .rotation] ++
        if found then [.affine] else []) found := by
  rcases Path.of_bind hpath with ⟨e, he, -⟩ | ⟨⟨generation, pid⟩, log₁, log₂, rfl, hactive, h₁⟩
  · exact nomatch he
  obtain ⟨token, rfl, hmatch⟩ := activeProvider_path hactive
  obtain ⟨delivered, rest, rfl, h₂⟩ := Path.of_perform_bind h₁
  split at h₂
  · next hdelivered =>
    subst hdelivered
    obtain ⟨rounds, rest, rfl, h₃⟩ := Path.of_perform_bind h₂
    obtain ⟨earlier, round, rfl, hround⟩ := awaitReceipts_path h₃
    refine ⟨⟨generation, pid, ?_⟩, ?_⟩
    · change (matchOwner token).filter (fun provider => provider.2 == pid) = _
      rw [hmatch]
      simp only [Option.filter, beq_self_eq_true, if_true]
    · exact runtimeReceiptsMatch_lastRound hround
        (⟨.read .owner, .ok (some token)⟩ :: ⟨.pidAlive pid, true⟩ :: ⟨.signal pid, true⟩ ::
          ⟨.polls, rounds⟩ :: earlier)
  · exact nomatch h₂

/-- Whatever the provider does between the steps of a reload that returns: the
    receipts that confirmed it belong to the generation that was read and signalled at
    its start if and only if the owner tokens read beside them are of that generation. -/
theorem reload_confirmed_by_generation (C : Config) (turns : Nat → Turn) (files files' : Files)
    (turns' : Nat → Turn)
    (hrun : (reloadRuntime C).run reloadMachine turns files = some ⟨.ok (), files', turns'⟩) :
    let log := (reloadRuntime C).log reloadMachine turns files
    ∃ generation pid, signalled log = some (generation, pid) ∧
      (comparedReceipts log).map Prod.fst = [.display, .overlay, .cursor, .rotation] ++
        (if effectiveFound (lastRound log) then [.affine] else []) ∧
      (ConfirmedBy generation log ↔ OwnedBy generation log) := by
  intro log
  obtain ⟨⟨generation, pid, hsignalled⟩, found, hcompares⟩ := reloadRuntime_path (Path.of_run hrun)
  refine ⟨generation, pid, hsignalled, ?_, hcompares.matched.iff generation⟩
  rw [hcompares.effective]
  exact hcompares.receipts

namespace Sample

def config : Config := ⟨Ch347.Sample.floats, "org.msys.openstick.ch347:x11-spi-touch-output"⟩

/-- The assignments of the display configuration. -/
def displayText : List Char := "DEBUG=0\nFPS=60\nXCAP_MAX_FPS=60\nXCAP_IDLE_FPS=0\n".toList

/-- The assignments of the debug overlay. -/
def overlayText : List Char :=
  ("CH347_DEBUG_OVERLAY=0\nCH347_DEBUG_OVERLAY_ALPHA=176\nCH347_DEBUG_OVERLAY_SCALE=1\n" ++
    "CH347_DEBUG_OVERLAY_ITEMS=1\nCH347_DEBUG_OVERLAY_INTERVAL_MS=1000\n").toList

/-- The assignment of the cursor. -/
def cursorText : List Char := "CH347_CURSOR=1\n".toList

/-- The assignment of the rotation. -/
def rotationText : List Char := "CH347_DISPLAY_ROTATION=normal\n".toList

/-- The line of a generation. -/
def generationLine (digit : Char) : List Char := "MSYS_GENERATION=".toList ++ [digit, '\n']

/-- The receipts of a generation that has applied the configuration. -/
def appliedText (digit : Char) : Receipt → List Char
  | .display => displayText ++ generationLine digit
  | .overlay => overlayText ++ generationLine digit
  | .cursor => cursorText ++ generationLine digit
  | .rotation => generationLine digit ++ rotationText
  | .affine => generationLine digit

/-- The files while generation 1 runs as process 100. -/
def files : Files
  | .owner => some "1:100:5\n".toList
  | .setting .fps => some displayText
  | .setting .overlay => some overlayText
  | .setting .cursor => some cursorText
  | .setting .rotation => some rotationText
  | .setting .affine => none
  | .applied receipt => some (appliedText '1' receipt)

/-- The provider restarts as generation 2 after it has been signalled, which is the
    third step. -/
def restarts (n : Nat) : Turn :=
  if n = 3 then
    { steps := .own (some "2:200:6\n".toList) ::
        [.display, .overlay, .cursor, .rotation].map fun receipt =>
          .rewrite receipt (some (appliedText '2' receipt)) }
  else {}

/-- The provider goes on. -/
def goesOn (_ : Nat) : Turn := {}

/-- The reload returns, after it has signalled generation 1 as process 100. -/
def returns (turns : Nat → Turn) : Bool :=
  ((reloadRuntime config).run reloadMachine turns files).any (·.result.toBool) &&
    signalled ((reloadRuntime config).log reloadMachine turns files) == some (1, 100)

theorem of_returns {turns : Nat → Turn} (h : returns turns = true) :
    (∃ files' turns', (reloadRuntime config).run reloadMachine turns files =
      some ⟨.ok (), files', turns'⟩) ∧
    signalled ((reloadRuntime config).log reloadMachine turns files) = some (1, 100) := by
  rw [returns, Bool.and_eq_true, beq_iff_eq] at h
  refine ⟨?_, h.2⟩
  obtain ⟨⟨result, files', turns'⟩, hrun, hok⟩ := (Option.any_eq_true _ _).mp h.1
  cases result with
  | error e => exact nomatch hok
  | ok _ => exact ⟨files', turns', hrun⟩

end Sample

/-- A provider that restarts after the signal confirms the reload with the receipts of
    its successor. -/
theorem reload_confirmed_by_successor : ∃ C turns files files' turns',
    (reloadRuntime C).run reloadMachine turns files = some ⟨.ok (), files', turns'⟩ ∧
    ∃ generation pid,
      signalled ((reloadRuntime C).log reloadMachine turns files) = some (generation, pid) ∧
      ¬ConfirmedBy generation ((reloadRuntime C).log reloadMachine turns files) := by
  have htest : (Sample.returns Sample.restarts && (comparedReceipts
      ((reloadRuntime Sample.config).log reloadMachine Sample.restarts Sample.files)).any
        fun receipt =>
        receipt.1.generationOf receipt.2 != some 1) = true := by decide +kernel
  rw [Bool.and_eq_true, List.any_eq_true] at htest
  obtain ⟨hreturns, receipt, hmem, hother⟩ := htest
  obtain ⟨⟨files', turns', hrun⟩, hsignalled⟩ := Sample.of_returns hreturns
  exact ⟨_, _, _, files', turns', hrun, 1, 100, hsignalled,
    fun h => bne_iff_ne.mp hother (h receipt hmem)⟩

/-- A reload beside a provider that goes on. -/
theorem reload_confirmed_by_generation_once : ∃ files' turns',
    (reloadRuntime Sample.config).run reloadMachine Sample.goesOn Sample.files =
      some ⟨.ok (), files', turns'⟩ ∧
    ConfirmedBy 1 ((reloadRuntime Sample.config).log reloadMachine Sample.goesOn Sample.files) := by
  have htest : (Sample.returns Sample.goesOn && (tokensIn (lastRound
      ((reloadRuntime Sample.config).log reloadMachine Sample.goesOn Sample.files))).all
        fun token =>
        ownerGeneration token == some 1) = true := by decide +kernel
  rw [Bool.and_eq_true, List.all_eq_true] at htest
  obtain ⟨⟨files', turns', hrun⟩, hsignalled⟩ := Sample.of_returns htest.1
  obtain ⟨generation, pid, hsignalled', -, hiff⟩ :=
    reload_confirmed_by_generation Sample.config Sample.goesOn Sample.files files' turns' hrun
  rw [hsignalled, Option.some.injEq, Prod.mk.injEq] at hsignalled'
  obtain ⟨rfl, -⟩ := hsignalled'
  exact ⟨files', turns', hrun, hiff.mpr fun token hmem => beq_iff_eq.mp (htest.2 token hmem)⟩

end MsysHal.Ch347.Reload
