import MsysHal.Spec.Power

/-!
# The radio that a power request writes

`radio_power` takes the first Bluetooth radio in the order of the names, whichever
controller is addressed. Over a population of rfkill nodes whose listing, types and
hard blocks do not change, every `soft` attribute that a power request writes is that
of one node, the target of the population.

## Key results

- `radioPower_explained`: the radio that is found is the target
- `setPowered_writes_target`: a power request writes to the target, and only for power on
- `power_writes_addressed`: the populations on which a request for a controller
  writes to its own radio only
-/

namespace MsysHal.Native

open Interleave (Log Does Composes Keeps does_pure does_bind does_get_bind exists_does)

/-! ## Populations -/

/-- The rfkill nodes of a system: the class directory, the attributes of each node, and
    whether its `soft` attribute holds a 0 or a 1. -/
structure Population where
  entries : List (String × Bool)
  type : String → Option Bytes
  hard : String → Option Bytes
  name : String → Option Bytes
  soft : String → Bool

namespace Population

variable (p : Population)

/-- An answer about rfkill is what the population says. -/
def Agrees : Answer → Prop
  | ⟨.list .rfkill, entries⟩ => entries = some p.entries
  | ⟨.read ⟨.rfkill, node, file⟩, data⟩ =>
    (file = "type" → data = p.type node) ∧ (file = "hard" → data = p.hard node) ∧
      (file = "soft" → (fileI64 0 1 data).isSome = p.soft node)
  | _ => True

/-- The answers of a log are those of the population. -/
def Explains (log : Log nativeSig) : Prop := ∀ x ∈ log, p.Agrees x

/-- A node that is a Bluetooth radio, with a block state that can be read. -/
def usable (node : String) : Bool :=
  (fileText 32 (p.type node)).any (fun type => RadioDomain.bluetooth.matches type) &&
    (fileI64 0 1 (p.hard node)).isSome && p.soft node

/-- Whether a node is hard blocked. -/
def hardBlocked (node : String) : Bool := fileI64 0 1 (p.hard node) != some 0

/-- The first radio in the order of the names. -/
def target : Option String := (entryNames "rfkill" (some p.entries)).find? p.usable

/-- The node is a Bluetooth radio whose `name` attribute is the interface. -/
def BelongsTo (node interface : String) : Prop :=
  fileText 32 (p.type node) = some "bluetooth".toList ∧
    fileText 129 (p.name node) = some interface.toList

variable {p}

theorem Explains.append {log log' : Log nativeSig} (h : p.Explains (log ++ log')) :
    p.Explains log ∧ p.Explains log' :=
  ⟨fun x hx => h x (List.mem_append_left _ hx), fun x hx => h x (List.mem_append_right _ hx)⟩

theorem Explains.cons {x : Answer} {log : Log nativeSig} (h : p.Explains (x :: log)) :
    p.Agrees x ∧ p.Explains log := List.forall_mem_cons.mp h

end Population

variable {p : Population}

/-! ## Reads -/

/-- One radio as it is read. -/
theorem readRadio_explained {node : String} {g g' : Globals} {log : Log nativeSig}
    {radio : Option RadioPower} (h : Does (readRadio .bluetooth node) g log radio g')
    (hp : p.Explains log) : g' = g ∧
    match radio with
    | none => p.usable node = false
    | some radio => p.usable node = true ∧ radio.name = node ∧
        radio.hardBlocked = p.hardBlocked node ∧
        (radio.hardBlocked = false → ⟨.writable (softFile node), radio.writable⟩ ∈ log) := by
  -- The type is read first; a radio of another type is left out.
  obtain ⟨type, g₁, log₁, log₂, rfl, htype, hrest⟩ := does_bind.mp h
  obtain ⟨data, log₃, rfl, hend⟩ := does_call_bind.mp htype
  obtain ⟨rfl, rfl, rfl⟩ := does_pure.mp hend
  obtain ⟨hread₁, hp₁⟩ := hp.append
  have hdata : data = p.type node := (hread₁.cons.1).1 rfl
  subst hdata
  split at hrest
  · next hno =>
    obtain ⟨rfl, rfl, rfl⟩ := does_pure.mp hrest
    refine ⟨rfl, ?_⟩
    rw [Bool.not_eq_true'] at hno
    rw [Population.usable, hno]
    rfl
  · next hmatch =>
    rw [Bool.not_eq_true', Bool.not_eq_false] at hmatch
    -- Then the hard block.
    obtain ⟨hard, g₂, log₄, log₅, rfl, hhard, hrest₁⟩ := does_bind.mp hrest
    obtain ⟨data, log₆, rfl, hend⟩ := does_call_bind.mp hhard
    obtain ⟨rfl, rfl, rfl⟩ := does_pure.mp hend
    obtain ⟨hread₂, hp₂⟩ := hp₁.append
    have hdata : data = p.hard node := (hread₂.cons.1).2.1 rfl
    subst hdata
    cases hblock : fileI64 0 1 (p.hard node) with
    | none =>
      rw [hblock] at hrest₁
      obtain ⟨rfl, rfl, rfl⟩ := does_pure.mp hrest₁
      refine ⟨rfl, ?_⟩
      rw [Population.usable, hblock, Option.isSome_none, Bool.and_false, Bool.false_and]
    | some hard =>
      rw [hblock] at hrest₁
      -- Then the soft block.
      obtain ⟨soft, g₃, log₇, log₈, rfl, hsoft, hrest₂⟩ := does_bind.mp hrest₁
      obtain ⟨data, log₉, rfl, hend⟩ := does_call_bind.mp hsoft
      obtain ⟨rfl, rfl, rfl⟩ := does_pure.mp hend
      obtain ⟨hread₃, hp₃⟩ := hp₂.append
      have hdata : (fileI64 0 1 data).isSome = p.soft node := (hread₃.cons.1).2.2 rfl
      have husable : p.usable node = (fileI64 0 1 data).isSome := by
        rw [Population.usable, hmatch, hblock, hdata]
        rfl
      have hblocked : p.hardBlocked node = decide (hard ≠ 0) := by
        rw [Population.hardBlocked, hblock]
        by_cases hzero : hard = 0 <;> simp [hzero]
      cases hvalue : fileI64 0 1 data with
      | none =>
        rw [hvalue] at hrest₂ husable
        obtain ⟨rfl, rfl, rfl⟩ := does_pure.mp hrest₂
        exact ⟨rfl, husable⟩
      | some soft =>
        rw [hvalue] at hrest₂ husable
        dsimp only at hrest₂
        -- Only a radio without a hard block is asked whether it is writable.
        split at hrest₂
        · next hzero =>
          obtain ⟨rfl, rfl, rfl⟩ := does_pure.mp hrest₂
          exact ⟨rfl, husable, rfl, by rw [hblocked, decide_eq_true hzero], nofun⟩
        · next hzero =>
          obtain ⟨writable, log₁₀, rfl, hend⟩ := does_call_bind.mp hrest₂
          obtain ⟨rfl, rfl, rfl⟩ := does_pure.mp hend
          exact ⟨rfl, husable, rfl, by rw [hblocked, decide_eq_false hzero],
            fun _ => by simp only [List.mem_append, List.mem_singleton, or_true]⟩

/-- The radio that is found is the target of the population. -/
theorem radioPower_explained {g g' : Globals} {log : Log nativeSig} {radio : Option RadioPower}
    (h : Does (radioPower .bluetooth) g log radio g') (hp : p.Explains log) :
    g' = g ∧ radio.map (·.name) = p.target ∧
      ∀ r, radio = some r → r.hardBlocked = p.hardBlocked r.name ∧
        (r.hardBlocked = false → ⟨.writable (softFile r.name), r.writable⟩ ∈ log) := by
  -- The listing comes first, and every radio of it is read in its order.
  obtain ⟨names, g₁, log₁, log₂, rfl, hlist, hfirst⟩ := does_bind.mp h
  obtain ⟨entries, log₃, rfl, hend⟩ := does_call_bind.mp hlist
  obtain ⟨rfl, rfl, rfl⟩ := does_pure.mp hend
  obtain ⟨hread, hrest⟩ := hp.append
  have hentries : entries = some p.entries := hread.cons.1
  subst hentries
  rw [Population.target]
  generalize entryNames "rfkill" (some p.entries) = names at hfirst ⊢
  clear hread hlist h hp
  -- Induction on the names that are left.
  induction names generalizing log₂ with
  | nil =>
    obtain ⟨rfl, rfl, rfl⟩ := does_pure.mp hfirst
    exact ⟨rfl, rfl, fun r hr => nomatch hr⟩
  | cons node names ih =>
    obtain ⟨found, g₂, log₄, log₅, rfl, hradio, hnext⟩ := does_bind.mp hfirst
    obtain ⟨hp₁, hp₂⟩ := hrest.append
    obtain ⟨rfl, hfound⟩ := readRadio_explained hradio hp₁
    cases found with
    -- A radio that is left out is passed over here and in the population.
    | none =>
      rw [List.find?_cons_of_neg (Bool.eq_false_iff.mp hfound)]
      obtain ⟨rfl, hname, hr⟩ := ih log₅ hp₂ hnext
      refine ⟨rfl, hname, fun r hr' => ⟨(hr r hr').1, fun hhard => ?_⟩⟩
      rw [← List.append_assoc]
      have hmem := List.mem_append.mp ((hr r hr').2 hhard)
      simp only [List.mem_append] at hmem ⊢
      tauto
    | some r =>
      -- The first usable radio ends the loop.
      obtain ⟨rfl, rfl, rfl⟩ := does_pure.mp hnext
      obtain ⟨husable, rfl, hhard, hwritable⟩ := hfound
      rw [List.find?_cons_of_pos husable]
      refine ⟨rfl, rfl, fun r' hr' => ?_⟩
      rw [Option.some.injEq] at hr'
      subst hr'
      refine ⟨hhard, fun hfree => ?_⟩
      simp only [List.mem_append]
      exact .inr (.inl (hwritable hfree))

/-! ## Writes -/

variable (p) in
/-- What the rfkill writes of a log go to, where its answers are those of the population: the
    target, which is not hard blocked, and only for power on. -/
def WritesTarget (powered : Bool) (_ : Globals) (log : Log nativeSig) (_ : Globals) : Prop :=
  p.Explains log → ∀ x ∈ log, ∀ file value, x.1 = .write file value →
    powered = true ∧ ∃ node, p.target = some node ∧ p.hardBlocked node = false ∧ file =
      softFile node

theorem WritesTarget.composes (powered : Bool) : Composes (WritesTarget p powered) where
  nil g _ x hx := nomatch hx
  append h h' hp x hx := by
    obtain ⟨hp₁, hp₂⟩ := hp.append
    exact (List.mem_append.mp hx).elim (h hp₁ x) (h' hp₂ x)

/-- Everything but an rfkill write. -/
def NotWrite (o : NativeOp) : Prop := ∀ file value, o ≠ .write file value

private theorem allows_notWrite : Allows NotWrite where
  probe h := by cases h <;> exact nofun
  set h := by cases h <;> exact nofun
  wait _ := nofun
  list _ := nofun
  read _ := nofun
  writable _ := nofun
  realpath _ := nofun
  slots := nofun

/-- A run that writes nothing. -/
private theorem WritesTarget.of_issued {powered : Bool} {g g' : Globals} {log : Log nativeSig}
    (h : Issued NotWrite g log g') : WritesTarget p powered g log g' :=
  fun _ x hx file value hop => absurd hop (h x hx file value)

private theorem WritesTarget.respects (powered : Bool) :
    Respects NotWrite (WritesTarget p powered) where
  composes := WritesTarget.composes powered
  call h g r := .of_issued ((Issued.respects NotWrite).call h g r)
  quiet h hrevision := .of_issued ((Issued.respects NotWrite).quiet h hrevision)
  receive h g log result g' hdoes :=
    .of_issued ((Issued.respects NotWrite).receive h g log result g' hdoes)

theorem setRadioPower_writes (unblocked : Bool) :
    Keeps (WritesTarget p true) (setRadioPower .bluetooth unblocked) := by
  intro g log ok g' h hp
  obtain ⟨state, g₁, log₁, log₂, rfl, hstate, hrest⟩ := does_bind.mp h
  obtain ⟨hp₁, hp₂⟩ := hp.append
  have hquiet :=
    radioPower_keeps (Issued.respects NotWrite) allows_notWrite .bluetooth _ _ _ _ hstate
  -- The radio that was found is the target, so its file is the one that is written.
  obtain ⟨rfl, hname, hblocked⟩ := radioPower_explained hstate hp₁
  intro x hx file value hop
  rcases List.mem_append.mp hx with hx | hx
  -- Before the write there are reads only.
  · exact absurd hop (hquiet x hx file value)
  cases state with
  | none =>
    obtain ⟨rfl, -, -⟩ := does_pure.mp hrest
    exact nomatch hx
  | some state =>
    dsimp only at hrest
    split at hrest
    · obtain ⟨rfl, -, -⟩ := does_pure.mp hrest
      exact nomatch hx
    · next hcan =>
      simp only [Bool.or_eq_true, Bool.not_eq_true', not_or, Bool.not_eq_true,
        Bool.not_eq_false] at hcan
      obtain ⟨written, log₃, rfl, hwritten⟩ := does_call_bind.mp hrest
      rcases List.mem_cons.mp hx with rfl | hmem
      -- The first event is the write itself.
      · cases hop
        exact ⟨rfl, state.name, hname.symm, (hblocked state rfl).1 ▸ hcan.1, rfl⟩
      -- What follows a write that succeeded reads it back.
      · cases hanswer : written with
        | false =>
          rw [hanswer] at hwritten
          obtain ⟨rfl, -, -⟩ := does_pure.mp hwritten
          exact nomatch hmem
        | true =>
          rw [hanswer] at hwritten
          obtain ⟨observed, g₂, log₄, log₅, rfl, hread, hend⟩ := does_bind.mp hwritten
          obtain ⟨rfl, -, -⟩ := does_pure.mp hend
          rw [List.append_nil] at hmem
          exact absurd hop (readI64File_keeps (Issued.respects NotWrite) allows_notWrite _ _ _
            _ _ _ _ hread x hmem file value)

/-- A power request for a controller writes to the target of the population, and only for
    power on. -/
theorem setPowered_writes_target (interface : String) (powered : Bool) :
    Keeps (WritesTarget p powered) (BluetoothRequest.setPowered interface powered).handle := by
  have hset (hpowered : powered = true) (unblocked : Bool) :
      Keeps (WritesTarget p powered) (setRadioPower .bluetooth unblocked) := by
    subst hpowered
    exact setRadioPower_writes unblocked
  exact buildSetState_keeps (WritesTarget.respects powered) allows_notWrite
    (fun _ => .of_issued fun _ hx => nomatch hx) (fun device =>
    changePowered_keeps (WritesTarget.respects powered) (requestBluetoothPower_keeps
      (WritesTarget.respects powered) allows_notWrite (fun _ => nofun) hset device.name)) interface

/-! ## A system with no Management index -/

variable (p) in
/-- The answers of a system with one controller that is not registered, whose radios are those
    of the population, not soft blocked where they can be. -/
def Population.answer (interface : String) : (o : NativeOp) → o.Ret
  | .list .rfkill => some p.entries
  | .list .bluetooth => some [(interface, true)]
  | .read ⟨.rfkill, node, file⟩ =>
    if file = "type" then p.type node
    else if file = "hard" then p.hard node
    else if file = "soft" ∧ p.soft node then some [0x31, 0x0a]
    else none
  | o => Sample.delivers Sample.emptyIndexList o

/-- The log of a run in which the system answers. -/
def Population.Answers (p : Population) (interface : String) (log : Log nativeSig) : Prop :=
  ∀ x ∈ log, x.2 = p.answer interface x.1

theorem Population.Answers.append {interface : String} {log log' : Log nativeSig}
    (h : p.Answers interface (log ++ log')) : p.Answers interface log ∧ p.Answers interface log' :=
  ⟨fun x hx => h x (List.mem_append_left _ hx), fun x hx => h x (List.mem_append_right _ hx)⟩

theorem Population.Answers.cons {interface : String} {x : Answer} {log : Log nativeSig}
    (h : p.Answers interface (x :: log)) :
    x.2 = p.answer interface x.1 ∧ p.Answers interface log := List.forall_mem_cons.mp h

theorem Population.Answers.explains {interface : String} {log : Log nativeSig}
    (h : p.Answers interface log) : p.Explains log := by
  intro x hx
  have hanswer := h x hx
  obtain ⟨o, r⟩ := x
  cases o with
  | list root =>
    cases root with
    | rfkill => exact hanswer
    | bluetooth => trivial
  | read file =>
    obtain ⟨root, node, file⟩ := file
    cases root with
    | bluetooth => trivial
    | rfkill =>
      rw [Population.answer] at hanswer
      dsimp only at hanswer
      refine ⟨fun htype => ?_, fun hhard => ?_, fun hsoft => ?_⟩
      · rw [hanswer, if_pos htype]
      · rw [hanswer, if_neg (by rw [hhard]; decide), if_pos hhard]
      · rw [hanswer, if_neg (by rw [hsoft]; decide), if_neg (by rw [hsoft]; decide)]
        cases p.soft node with
        | true =>
          rw [if_pos ⟨hsoft, rfl⟩]
          decide
        | false =>
          rw [if_neg (by simp)]
          rfl
  | _ => trivial

/-- A call for the controller finds an empty index list. -/
theorem bluetoothInfo_unregistered {interface : String} {index : Nat}
    (hindex : bluetoothIndex interface = some index) {g g' : Globals} {log : Log nativeSig}
    {r : Option BluetoothInfo} (h : Does (bluetoothInfo interface) g log r g')
    (hlog : p.Answers interface log) : r = none ∧ g'.error.isIndexListEmpty = true := by
  rw [bluetoothInfo, hindex] at h
  obtain ⟨ok, g₁, log₁, log₂, rfl, hsocket, hrest⟩ := does_bind.mp h
  obtain ⟨hlog₁, hlog₂⟩ := hlog.append
  -- The socket is opened and bound.
  obtain ⟨opened, log₃, rfl, hopened⟩ := does_call_bind.mp hsocket
  obtain ⟨rfl, hlog₃⟩ : opened = none ∧ _ := hlog₁.cons
  obtain ⟨bound, log₄, rfl, hbound⟩ := does_call_bind.mp hopened
  obtain ⟨rfl, -⟩ : bound = none ∧ _ := hlog₃.cons
  obtain ⟨rfl, rfl, rfl⟩ := does_pure.mp hbound
  obtain ⟨selected, g₂, log₅, log₆, rfl, hlist, hend⟩ := does_bind.mp hrest
  obtain ⟨hlog₅, -⟩ := hlog₂.append
  obtain ⟨reply, g₃, log₇, log₈, rfl, hcommand, hreply⟩ := does_bind.mp hlist
  obtain ⟨hlog₇, -⟩ := hlog₅.append
  -- The index list is asked for, and the answer holds no index.
  rw [mgmtCommand, if_neg (by simp)] at hcommand
  obtain ⟨sent, log₉, rfl, hsent⟩ := does_call_bind.mp hcommand
  obtain ⟨rfl, hlog₉⟩ : sent = none ∧ _ := hlog₇.cons
  replace hsent : Does (awaitReply mgmtOpReadIndexList hciDevNone (some (2 + maxEntries * 2))
    (11 + 1)) g₁ log₉ reply g₃ := hsent
  rw [awaitReply] at hsent
  obtain ⟨result, g₄, log₁₀, log₁₁, rfl, hreceive, hresult⟩ := does_bind.mp hsent
  obtain ⟨hlog₁₀, -⟩ := hlog₉.append
  obtain ⟨received, log₁₂, rfl, hreceived⟩ := does_call_bind.mp hreceive
  obtain ⟨rfl, -⟩ : received = .packet Sample.emptyIndexList ∧ _ := hlog₁₀.cons
  have hclass : classify mgmtOpReadIndexList hciDevNone (some (2 + maxEntries * 2))
      Sample.emptyIndexList = .reply [0, 0] := by decide
  dsimp only at hreceived
  rw [hclass] at hreceived
  obtain ⟨rfl, rfl, rfl⟩ := does_pure.mp hreceived
  obtain ⟨rfl, rfl, rfl⟩ := does_pure.mp hresult
  have hselect : selectIndex index [0, 0] = .rejected .indexList 0 := rfl
  dsimp only at hreply
  rw [hselect] at hreply
  obtain ⟨rfl, rfl, rfl⟩ := does_error.mp hreply
  -- So the probe fails, and the text that is left says so.
  replace hend := does_get_bind.mp hend
  rw [if_neg (by rw [text_eq_notProbed_iff]; rintro ⟨⟩)] at hend
  obtain ⟨-, rfl, rfl⟩ := does_pure.mp hend
  exact ⟨rfl, isIndexListEmpty_iff.mpr rfl⟩

/-- A write to the target, which is not hard blocked. -/
def WritesTo (node : String) (log : Log nativeSig) : Prop :=
  ∃ x ∈ log, ∃ value, x.1 = .write (softFile node) value

theorem WritesTo.left {node : String} {log : Log nativeSig} (h : WritesTo node log)
    (log' : Log nativeSig) : WritesTo node (log ++ log') := by
  obtain ⟨x, hx, hop⟩ := h
  exact ⟨x, List.mem_append_left log' hx, hop⟩

theorem WritesTo.right {node : String} {log : Log nativeSig} (h : WritesTo node log)
    (log' : Log nativeSig) : WritesTo node (log' ++ log) := by
  obtain ⟨x, hx, hop⟩ := h
  exact ⟨x, List.mem_append_right log' hx, hop⟩

section Answered

variable {interface node : String} (htarget : p.target = some node)
  (hfree : p.hardBlocked node = false)

include htarget hfree

theorem radioPower_answered {g g' : Globals} {log : Log nativeSig} {radio : Option RadioPower}
    (h : Does (radioPower .bluetooth) g log radio g') (hlog : p.Answers interface log) :
    ∃ r, radio = some r ∧ r.name = node ∧ r.hardBlocked = false ∧ r.writable = true := by
  obtain ⟨-, hname, hradio⟩ := radioPower_explained h hlog.explains
  rw [htarget, Option.map_eq_some_iff] at hname
  obtain ⟨r, rfl, rfl⟩ := hname
  obtain ⟨hhard, hwritable⟩ := hradio r rfl
  rw [hfree] at hhard
  exact ⟨r, rfl, rfl, hhard, hlog _ (hwritable hhard)⟩

theorem setRadioPower_answered {g g' : Globals} {log : Log nativeSig} {unblocked ok : Bool}
    (h : Does (setRadioPower .bluetooth unblocked) g log ok g') (hlog : p.Answers interface log) :
    WritesTo node log := by
  obtain ⟨state, g₁, log₁, log₂, rfl, hstate, hrest⟩ := does_bind.mp h
  obtain ⟨hlog₁, -⟩ := hlog.append
  obtain ⟨r, rfl, rfl, hhard, hwritable⟩ := radioPower_answered htarget hfree hstate hlog₁
  dsimp only at hrest
  rw [hhard, hwritable, if_neg (by decide)] at hrest
  obtain ⟨written, log₃, rfl, -⟩ := does_call_bind.mp hrest
  exact ⟨_, List.mem_append_right _ List.mem_cons_self, _, rfl⟩

theorem rfkillRecovery_answered {g g' : Globals} {log : Log nativeSig} {ok : Bool}
    (h : Does (rfkillRecovery operations interface) g log ok g') (hlog : p.Answers interface log) :
    WritesTo node log := by
  obtain ⟨radio, g₁, log₁, log₂, rfl, hradio, hrest⟩ := does_bind.mp h
  obtain ⟨hlog₁, hlog₂⟩ := hlog.append
  obtain ⟨r, rfl, rfl, hhard, hwritable⟩ := radioPower_answered htarget hfree hradio hlog₁
  dsimp only at hrest
  rw [hhard, hwritable, if_neg (by decide)] at hrest
  obtain ⟨blocked, g₂, log₃, log₄, rfl, hedge, hblocked⟩ := does_bind.mp hrest
  obtain ⟨hlog₃, hlog₄⟩ := hlog₂.append
  -- the first write is the block of a radio that is not blocked, or else the unblock
  rw [blockEdge] at hedge
  split at hedge
  · obtain ⟨written, g₃, log₅, log₆, rfl, hset, -⟩ := does_bind.mp hedge
    obtain ⟨hlog₅, -⟩ := hlog₃.append
    exact (((setRadioPower_answered htarget hfree hset hlog₅).left _).left _).right _
  · obtain ⟨rfl, rfl, rfl⟩ := does_pure.mp hedge
    obtain ⟨written, g₃, log₅, log₆, rfl, hset, -⟩ := does_bind.mp hblocked
    obtain ⟨hlog₅, -⟩ := hlog₄.append
    exact (((setRadioPower_answered htarget hfree hset hlog₅).left _).right _).right _

theorem requestBluetoothPower_answered {index : Nat}
    (hindex : bluetoothIndex interface = some index)
    {g g' : Globals} {log : Log nativeSig} {ok : Bool}
    (h : Does (requestBluetoothPower interface true) g log ok g') (hlog : p.Answers interface log) :
    WritesTo node log := by
  obtain ⟨done, g₁, log₁, log₂, rfl, hwith, -⟩ := does_bind.mp h
  obtain ⟨hlog₁, -⟩ := hlog.append
  obtain ⟨r, g₂, log₃, log₄, rfl, hinfo, hrest⟩ := does_bind.mp hwith
  obtain ⟨hlog₃, hlog₄⟩ := hlog₁.append
  obtain ⟨rfl, hempty⟩ := bluetoothInfo_unregistered hindex hinfo hlog₃
  replace hrest := does_indexMissing_bind.mp hrest
  rw [hempty] at hrest
  exact ((rfkillRecovery_answered htarget hfree hrest hlog₄).right _).left _

theorem scanDevices_answered {index : Nat} (hindex : bluetoothIndex interface = some index)
    (hname : validName interface = true) {g g' : Globals} {log : Log nativeSig}
    {devices : List NativeDevice} (h : Does scanDevices g log devices g')
    (hlog : p.Answers interface log) :
    findDevice devices interface = some ⟨interface, true, false⟩ := by
  obtain ⟨slots, log₁, rfl, hrest⟩ := does_call_bind.mp h
  obtain ⟨rfl, hlog₁⟩ : slots = 256 ∧ _ := hlog.cons
  obtain ⟨found, g₁, log₂, log₃, rfl, hscan, hend⟩ := does_bind.mp hrest
  obtain ⟨hlog₂, -⟩ := hlog₁.append
  obtain ⟨rfl, rfl, rfl⟩ := does_pure.mp hend
  obtain ⟨names, g₂, log₄, log₅, rfl, hlist, hpower⟩ := does_bind.mp hscan
  obtain ⟨hlog₄, hlog₅⟩ := hlog₂.append
  obtain ⟨entries, log₆, rfl, hentries⟩ := does_call_bind.mp hlist
  obtain ⟨rfl, -⟩ : entries = some [(interface, true)] ∧ _ := hlog₄.cons
  obtain ⟨rfl, rfl, rfl⟩ := does_pure.mp hentries
  have hstart : "hci".toList.isPrefixOf interface.toList = true := by
    by_contra hne
    rw [bluetoothIndex, if_neg hne] at hindex
    exact nomatch hindex
  have hnames : entryNames "hci" (some [(interface, true)]) = [interface] := by
    rw [entryNames, List.filter_cons_of_pos (by rw [hname, hstart]; rfl)]
    rfl
  rw [hnames] at hpower
  obtain ⟨power, g₃, log₇, log₈, rfl, hradio, hcontrollers⟩ := does_bind.mp hpower
  obtain ⟨hlog₇, hlog₈⟩ := hlog₅.append
  obtain ⟨r, rfl, -, -, hwritable⟩ := radioPower_answered htarget hfree hradio hlog₇
  obtain ⟨info, g₄, log₉, log₁₀, rfl, hinfo, hothers⟩ := does_bind.mp hcontrollers
  obtain ⟨hlog₉, -⟩ := hlog₈.append
  obtain ⟨rfl, -⟩ := bluetoothInfo_unregistered hindex hinfo hlog₉
  obtain ⟨others, g₅, log₁₁, log₁₂, rfl, hnil, hdevices⟩ := does_bind.mp hothers
  obtain ⟨rfl, rfl, rfl⟩ := does_pure.mp hnil
  obtain ⟨rfl, rfl, rfl⟩ := does_pure.mp hdevices
  simp [findDevice, hname, hwritable]

theorem setPowered_answered {index : Nat} (hindex : bluetoothIndex interface = some index)
    (hname : validName interface = true) {g g' : Globals} {log : Log nativeSig}
    {reply : Except Refusal BluetoothState}
    (h : Does (BluetoothRequest.setPowered interface true).handle g log reply g')
    (hlog : p.Answers interface log) : WritesTo node log := by
  obtain ⟨devices, g₁, log₁, log₂, rfl, hscan, hrest⟩ := does_bind.mp h
  obtain ⟨hlog₁, hlog₂⟩ := hlog.append
  rw [scanDevices_answered htarget hfree hindex hname hscan hlog₁] at hrest
  obtain ⟨refusal, g₂, log₃, log₄, rfl, hchange, -⟩ := does_bind.mp hrest
  obtain ⟨hlog₃, -⟩ := hlog₂.append
  obtain ⟨done, g₃, log₅, log₆, rfl, hrequest, -⟩ := does_bind.mp hchange
  obtain ⟨hlog₅, -⟩ := hlog₃.append
  exact (((requestBluetoothPower_answered htarget hfree hindex hrequest hlog₅).left _).left _).right
    _

end Answered

/-! ## The addressed radio -/

/-- A request writes only to Bluetooth radios of the controller it addresses. -/
def WritesOwn (p : Population) (interface : String) (log : Log nativeSig) : Prop :=
  ∀ x ∈ log, ∀ file value, x.1 = .write file value →
    ∃ node, file = softFile node ∧ p.BelongsTo node interface

private theorem target_is_bluetooth {node : String} (h : p.target = some node) :
    fileText 32 (p.type node) = some "bluetooth".toList := by
  have husable := List.find?_some h
  rw [Population.usable, Bool.and_eq_true, Bool.and_eq_true] at husable
  obtain ⟨type, htype, hmatch⟩ := (Option.any_eq_true _ _).mp husable.1.1
  rw [htype, beq_iff_eq.mp hmatch]

/-- On a population, power requests for a controller write to its own radio only, exactly if
    they ask for power off, or the first Bluetooth radio in the order of the names is hard
    blocked or bears the name of the controller. -/
theorem power_writes_addressed {interface : String} {index : Nat} (powered : Bool)
    (hname : validName interface = true) (hindex : bluetoothIndex interface = some index) :
    (∀ g log reply g', Does (BluetoothRequest.setPowered interface powered).handle g log reply g' →
      p.Explains log → WritesOwn p interface log) ↔
    (powered = true → ∀ node, p.target = some node → p.hardBlocked node = false →
      fileText 129 (p.name node) = some interface.toList) := by
  constructor
  · rintro hall rfl node htarget hfree
    obtain ⟨log, reply, g', hdoes, hlog⟩ := exists_does (p.answer interface)
      (BluetoothRequest.setPowered interface true).handle {}
    obtain ⟨x, hx, value, hop⟩ := setPowered_answered htarget hfree hindex hname hdoes hlog
    obtain ⟨node', hfile, -, hown⟩ :=
      hall _ log reply g' hdoes (Population.Answers.explains hlog) x hx _ value hop
    rw [softFile, softFile, SysFile.mk.injEq] at hfile
    rw [hfile.2.1]
    exact hown
  · intro hcond g log reply g' hdoes hp x hx file value hop
    obtain ⟨hpowered, node, htarget, hfree, rfl⟩ :=
      setPowered_writes_target interface powered g log reply g' hdoes hp x hx file value hop
    exact ⟨node, rfl, target_is_bluetooth htarget, hcond hpowered node htarget hfree⟩

namespace Sample

/-- Two Bluetooth radios that are not hard blocked, `rfkill0` of `hci0` and `rfkill1` of `hci1`. -/
def twoRadios : Population where
  entries := [("rfkill0", true), ("rfkill1", true)]
  type _ := some "bluetooth\n".toUTF8.data.toList
  hard _ := some "0\n".toUTF8.data.toList
  name node := some (if node = "rfkill0" then "hci0\n" else "hci1\n").toUTF8.data.toList
  soft _ := true

end Sample

/-- With two controllers, power on of the second one cycles the radio of the first one. -/
theorem power_writes_other : ¬ ∀ (p : Population) (interface : String) (powered : Bool),
    validName interface = true → (bluetoothIndex interface).isSome = true →
    ∀ g log reply g', Does (BluetoothRequest.setPowered interface powered).handle g log reply g' →
      p.Explains log → WritesOwn p interface log := by
  intro hall
  have htarget : Sample.twoRadios.target = some "rfkill0" := by decide
  have hfree : Sample.twoRadios.hardBlocked "rfkill0" = false := by decide
  obtain ⟨log, reply, g', hdoes, hlog⟩ := exists_does (Sample.twoRadios.answer "hci1")
    (BluetoothRequest.setPowered "hci1" true).handle {}
  obtain ⟨x, hx, value, hop⟩ := setPowered_answered htarget hfree
    (show bluetoothIndex "hci1" = some 1 by decide)
    (by decide) hdoes hlog
  obtain ⟨node, hfile, -, hown⟩ := hall Sample.twoRadios "hci1" true (by decide)
    (by decide) _ log reply g' hdoes (Population.Answers.explains hlog) x hx _ value hop
  rw [softFile, softFile, SysFile.mk.injEq] at hfile
  rw [← hfile.2.1] at hown
  exact absurd hown (by decide)

/-- Power on of the first controller writes to its own radio. -/
theorem power_writes_addressed_first : ∃ g log reply g',
    Does (BluetoothRequest.setPowered "hci0" true).handle g log reply g' ∧
      Sample.twoRadios.Explains log ∧ WritesOwn Sample.twoRadios "hci0" log := by
  have hwrites := (power_writes_addressed true (by decide)
    (show bluetoothIndex "hci0" = some 0 by decide)).mpr (by
      intro _ node htarget _
      have hfirst : Sample.twoRadios.target = some "rfkill0" := by decide
      rw [hfirst, Option.some.injEq] at htarget
      subst htarget
      decide)
  obtain ⟨log, reply, g', hdoes, hlog⟩ := exists_does (Sample.twoRadios.answer "hci0")
    (BluetoothRequest.setPowered "hci0" true).handle {}
  have hexplains := Population.Answers.explains hlog
  exact ⟨_, log, reply, g', hdoes, hexplains, hwrites _ log reply g' hdoes hexplains⟩

end MsysHal.Native
