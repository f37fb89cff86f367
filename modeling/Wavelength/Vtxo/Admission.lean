import Wavelength.Vtxo.Lifecycle
import Wavelength.Vtxo.Manager

/-! # What a granted reservation says

The manager takes the absence of an error for a grant. A state that absorbs the event
answers without an error and stays where it is, so a grant is truthful exactly when no
actor is in such a state.
-/

namespace Wavelength.Vtxo

open List

def isSpendingState : State → Bool
  | .spending _ => true
  | _ => false

def State.absorbsForfeit : State → Bool
  | .unilateralExit _ _ | .spent | .forfeited _ | .failed => true
  | _ => false

def State.absorbsSpend : State → Bool
  | .unilateralExit _ _ | .expired _ | .spent | .forfeited _ | .failed => true
  | _ => false

/-- The states that must never be granted to a forfeit. -/
def State.barredFromForfeit : State → Bool
  | .unilateralExit _ _ | .spent | .forfeited _ => true
  | _ => false

def State.barredFromSpend : State → Bool
  | .unilateralExit _ _ | .expired _ | .spent | .forfeited _ => true
  | _ => false

def State.acceptsForfeit : State → Bool
  | .live _ | .expired _ => true
  | _ => false

/-- The actor moves: an accepting state, no asset root, a write that succeeds. -/
def TakesForfeit (a : Actor) (ans : Answers) : Prop :=
  a.state.acceptsForfeit = true ∧ a.desc.taprootAssetRoot = false ∧ ans.writeOk = true

def TakesSpend (a : Actor) (ans : Answers) : Prop :=
  a.state.isLive = true ∧ a.desc.taprootAssetRoot = false ∧ ans.writeOk = true

section Reply

theorem processOutbox_update (a : Actor) (row : Row) (ans : Answers) (e : Event)
    (before next : State) (status : Status) :
    let r := processOutbox a row ans e ⟨before, next, [.statusUpdate status]⟩
    r.ok = ans.writeOk ∧ r.actor.state = if ans.writeOk then next else before := by
  cases hw : ans.writeOk <;>
    simp [processOutbox, hw, OutMsg.status?, OutMsg.isForfeitRequest, settle]

/-- A reply without an error: the actor has moved, or has absorbed the event. -/
structure Answered (takes : Prop) (absorbs target : State → Bool) (before : State) (r : Receipt) :
    Prop where
  ok : r.ok = true ↔ takes ∨ absorbs before = true
  moved : (target before = false ∧ target r.actor.state = true) ↔ takes
  stayed : absorbs before = true → ¬ takes

variable {takes : Prop}

theorem answered_refused (hstate : a.state = before) (htakes : ¬ takes)
    (habsorbs : absorbs before = false) :
    Answered takes absorbs target before { actor := a, row := row, ok := false } := by
  refine ⟨by simp [htakes, habsorbs], ?_, by simp [habsorbs]⟩
  simp [hstate, htakes]

theorem answered_absorbed (htakes : ¬ takes) (habsorbs : absorbs before = true) :
    Answered takes absorbs target before (processOutbox a row ans e (stay before)) := by
  refine ⟨by simp [habsorbs, processOutbox, stay], ?_, fun _ => htakes⟩
  simp [processOutbox, stay, settle, htakes]

theorem answered_update {next : State} (htakes : takes ↔ ans.writeOk = true)
    (habsorbs : absorbs before = false) (hbefore : target before = false)
    (hnext : target next = true) :
    Answered takes absorbs target before
      (processOutbox a row ans e ⟨before, next, [.statusUpdate status]⟩) := by
  obtain ⟨hok, hstate⟩ := processOutbox_update a row ans e before next status
  refine ⟨?_, ?_, by simp [habsorbs]⟩
  · rw [hok, htakes, habsorbs]
    simp
  · rw [hstate, htakes]
    cases ans.writeOk <;> simp [hbefore, hnext]

theorem answered_pendingForfeit (cfg : Config) (a : Actor) (row : Row) (ans : Answers) :
    Answered (TakesForfeit a ans) State.absorbsForfeit isPendingForfeitState a.state
      (receive a row ans cfg (.event .pendingForfeit)) := by
  rw [receive_event rfl]
  unfold TakesForfeit
  cases hs : a.state with
  | live last | expired observed =>
    simp only [processEvent, processLive, processExpired]
    cases a.desc.taprootAssetRoot with
    | true => exact answered_refused hs (by simp) rfl
    | false => exact answered_update (by simp [State.acceptsForfeit]) rfl rfl rfl
  | pendingForfeit requested | spending last | forfeiting _ _ _ _ =>
    simp only [processEvent, processPendingForfeit, processSpending, processForfeiting]
    exact answered_refused hs nofun rfl
  | unilateralExit reason last | spent | forfeited round | failed =>
    simp only [processEvent, processUnilateralExit]
    exact answered_absorbed nofun rfl

theorem answered_spendReserve (cfg : Config) (a : Actor) (row : Row) (ans : Answers) :
    Answered (TakesSpend a ans) State.absorbsSpend isSpendingState a.state
      (receive a row ans cfg (.event .spendReserve)) := by
  rw [receive_event rfl]
  unfold TakesSpend
  cases hs : a.state with
  | live last =>
    simp only [processEvent, processLive]
    cases a.desc.taprootAssetRoot with
    | true => exact answered_refused hs (by simp) rfl
    | false => exact answered_update (by simp [State.isLive]) rfl rfl rfl
  | pendingForfeit requested | spending last | forfeiting _ _ _ _ =>
    simp only [processEvent, processPendingForfeit, processSpending, processForfeiting]
    exact answered_refused hs nofun rfl
  | unilateralExit reason last | expired observed | spent | forfeited round | failed =>
    simp only [processEvent, processUnilateralExit, processExpired]
    exact answered_absorbed nofun rfl

end Reply

section Loop

variable {m m' : Manager}

def Manager.childOf (m : Manager) (spawn : Outpoint → Option Child) (op : Outpoint) :
    Option Child :=
  (m.actors op).or (spawn op)

theorem resident_eq_none (h : m.childOf spawn op = none) : m.resident op spawn = none := by
  unfold Manager.childOf at h
  unfold Manager.resident
  cases hact : m.actors op with
  | some c => simp [hact] at h
  | none => simpa [hact] using h

theorem resident_eq_some (h : m.childOf spawn op = some child) :
    m.resident op spawn = some { m with actors := Function.update m.actors op (some child) } := by
  unfold Manager.childOf at h
  unfold Manager.resident
  cases hact : m.actors op with
  | some c =>
    obtain rfl : c = child := by simpa [hact] using h
    rw [← hact, Function.update_eq_self, hact]
  | none =>
    have h : spawn op = some child := by simpa [hact] using h
    simp [h]

def Granted (cfg : Config) (c : Option Child) (row : Row) (reply : Reply) : Prop :=
  ∃ child ∈ c, reply.answered = true ∧
    (receive child.actor row reply.ans cfg (.event .pendingForfeit)).ok = true

@[simp] theorem put_actors_self : (m.put op child row).actors op = some child := by
  simp [Manager.put]

theorem put_actors_ne (h : op' ≠ op) : (m.put op child row).actors op' = m.actors op' := by
  simp [Manager.put, h]

theorem reserveForfeits_cons_denied (h : ¬ Granted cfg (m.childOf spawn op) (m.row op) (replies op))
    :
    (reserveForfeits cfg spawn replies rollback (op :: ops) reserved m).2 ≠ .ok () := by
  cases hc : m.childOf spawn op with
  | none => simp [reserveForfeits, resident_eq_none hc]
  | some child =>
    rw [hc] at h
    simp only [reserveForfeits, resident_eq_some hc, ask, Function.update_self]
    cases hans : (replies op).answered with
    | false => simp
    | true =>
      have hok : (receive child.actor (m.row op) (replies op).ans cfg
          (.event .pendingForfeit)).ok = false := by
        refine Bool.eq_false_iff.2 fun hok => h ⟨child, rfl, hans, hok⟩
      have hrow : ∀ f, ({ m with actors := f } : Manager).row op = m.row op := fun _ => rfl
      simp [hrow, hok]

theorem reserveForfeits_cons_granted (hc : m.childOf spawn op = some child)
    (hans : (replies op).answered = true)
    (hr : receive child.actor (m.row op) (replies op).ans cfg (.event .pendingForfeit) = r)
    (hok : r.ok = true) :
    reserveForfeits cfg spawn replies rollback (op :: ops) reserved m =
      reserveForfeits cfg spawn replies rollback ops (reserved ++ [op])
        (m.put op { child with actor := r.actor } r.row) := by
  have hrow : ∀ f, ({ m with actors := f } : Manager).row op = m.row op := fun _ => rfl
  simp only [reserveForfeits, resident_eq_some hc, ask, Function.update_self, hans, Bool.not_true,
    Bool.false_eq_true, if_false, hrow, hr, hok]
  simp [Manager.put]

/-- The loop succeeds when every actor grants, and then every actor has made its turn. -/
theorem reserveForfeits_spec (cfg : Config) (m : Manager) (spawn : Outpoint → Option Child)
    (replies rollback : Outpoint → Reply) (reserved : List Outpoint) (hnodup : ops.Nodup) :
    let r := reserveForfeits cfg spawn replies rollback ops reserved m
    (r.2 = .ok () ↔ ∀ op ∈ ops, Granted cfg (m.childOf spawn op) (m.row op) (replies op)) ∧
      (r.2 = .ok () → (∀ op, op ∉ ops → r.1.actors op = m.actors op) ∧
        ∀ op ∈ ops, ∀ child ∈ m.childOf spawn op, (r.1.actors op).map Child.actor =
          some (receive child.actor (m.row op) (replies op).ans cfg
            (.event .pendingForfeit)).actor) := by
  induction ops generalizing m reserved with
  | nil => simp [reserveForfeits]
  | cons op ops ih =>
    obtain ⟨hfresh, hnodup⟩ := nodup_cons.1 hnodup
    by_cases hgr : Granted cfg (m.childOf spawn op) (m.row op) (replies op)
    · obtain ⟨child, hc, hans, hok⟩ := hgr
      have hc : m.childOf spawn op = some child := hc
      generalize hr : receive child.actor (m.row op) (replies op).ans cfg (.event .pendingForfeit) = r
        at hok
      rw [reserveForfeits_cons_granted hc hans hr hok]
      have hne : ∀ op' ∈ ops, op' ≠ op := by
        rintro op' hin rfl
        exact hfresh hin
      -- the turn of one actor leaves the others as they were
      have hchild : ∀ op' ∈ ops, (m.put op { child with actor := r.actor } r.row).childOf spawn op' =
          m.childOf spawn op' := by
        intro op' hin
        rw [Manager.childOf, put_actors_ne (hne op' hin)]
        rfl
      have hrow : ∀ op' ∈ ops, (m.put op { child with actor := r.actor } r.row).row op' =
          m.row op' := fun op' hin => by simp [Manager.put, Manager.row, hne op' hin]
      obtain ⟨hiff, hpost⟩ := ih (m.put op { child with actor := r.actor } r.row) (reserved ++ [op])
        hnodup
      refine ⟨?_, fun hdone => ?_⟩
      · rw [hiff, forall_mem_cons]
        refine ⟨fun h => ⟨⟨child, hc, hans, hr ▸ hok⟩, fun op' hin => ?_⟩, fun h op' hin => ?_⟩
        · rw [← hchild op' hin, ← hrow op' hin]
          exact h op' hin
        · rw [hchild op' hin, hrow op' hin]
          exact h.2 op' hin
      · obtain ⟨hframe, hturn⟩ := hpost hdone
        refine ⟨fun op' hnot => ?_, forall_mem_cons.2 ⟨fun c hc' => ?_, fun op' hin c hc' => ?_⟩⟩
        · obtain ⟨hop, hops⟩ := not_or.1 (mem_cons.not.1 hnot)
          rw [hframe op' hops, put_actors_ne hop]
        · cases hc'.symm.trans hc
          rw [hframe op hfresh, put_actors_self, hr]
          rfl
        · rw [hturn op' hin c (by rw [hchild op' hin]; exact hc'), hrow op' hin]
    · refine ⟨⟨fun h => absurd h (reserveForfeits_cons_denied hgr), fun h => ?_⟩, fun h => ?_⟩
      · exact absurd (h op mem_cons_self) hgr
      · exact absurd h (reserveForfeits_cons_denied hgr)

end Loop

section Forfeit

/-- The VTXO has moved to the target state, from a state that is not barred. -/
def Moved (target barred : State → Bool) (before after : Option Child) : Prop :=
  ∃ a a', before.map Child.actor = some a ∧ after.map Child.actor = some a' ∧
    target a.state = false ∧ target a'.state = true ∧ barred a.state = false

/-- No grant comes back: there is no actor, no reply in time, or a state that neither
takes nor absorbs the event. -/
def RefusesForfeit (c : Option Child) (reply : Reply) : Prop :=
  ∀ child ∈ c, reply.answered = true →
    ¬ TakesForfeit child.actor reply.ans ∧ child.actor.state.absorbsForfeit = false

/-- The actor is not in a state that absorbs a pending forfeit. -/
def Responsive (c : Option Child) : Prop :=
  ∀ child ∈ c, child.actor.state.absorbsForfeit = false

/-- Each VTXO named by a forfeit reservation that succeeds has moved in that call. -/
def ReserveForfeitTruthful (cfg : Config) (m : Manager) (ops : List Outpoint)
    (replies rollback : Outpoint → Reply) : Prop :=
  let r := handleReserveForfeit cfg m ops replies rollback
  r.2 = .ok () → ∀ op ∈ ops,
    Moved isPendingForfeitState State.barredFromForfeit (m.actors op) (r.1.actors op)

def SelectForfeitTruthful (cfg : Config) (m : Manager) (reads : Reads) (spawnOk : Outpoint → Bool)
    (target : Amount) (replies rollback : Outpoint → Reply) : Prop :=
  let r := handleSelectAndReserveForfeit cfg reads spawnOk m target replies rollback
  ∀ vtxos, r.2 = .ok vtxos → ∀ v ∈ vtxos, Moved isPendingForfeitState State.barredFromForfeit
    (m.childOf (respawnActorFromStore reads spawnOk) v.outpoint) (r.1.actors v.outpoint)

/-- Somebody refuses, or nobody absorbs. -/
def ForfeitSound (m : Manager) (spawn : Outpoint → Option Child) (replies : Outpoint → Reply)
    (ops : List Outpoint) : Prop :=
  (∃ op ∈ ops, RefusesForfeit (m.childOf spawn op) (replies op)) ∨
    ∀ op ∈ ops, Responsive (m.childOf spawn op)

theorem not_granted_iff : ¬ Granted cfg c row reply ↔ RefusesForfeit c reply := by
  unfold Granted RefusesForfeit
  simp only [(answered_pendingForfeit ..).ok]
  push Not
  simp

theorem barredFromForfeit_of_absorbs {state : State} (h : state.absorbsForfeit = false) :
    state.barredFromForfeit = false := by
  cases state <;> first | rfl | cases h

theorem moved_iff_responsive (hgr : Granted cfg c row reply)
    (hafter : ∀ child ∈ c, c'.map Child.actor =
      some (receive child.actor row reply.ans cfg (.event .pendingForfeit)).actor) :
    Moved isPendingForfeitState State.barredFromForfeit c c' ↔ Responsive c := by
  obtain ⟨child, hc, -, hok⟩ := hgr
  obtain rfl : c = some child := hc
  have hans := answered_pendingForfeit cfg child.actor row reply.ans
  have hafter := hafter child rfl
  constructor
  · rintro ⟨a, a', ha, ha', hbefore, htarget, -⟩ child' hc'
    cases hc'
    cases ha
    cases ha'.symm.trans hafter
    exact Bool.eq_false_iff.2 fun habs => hans.stayed habs (hans.moved.1 ⟨hbefore, htarget⟩)
  · intro h
    have habs := h child rfl
    have htakes : TakesForfeit child.actor reply.ans := by
      rcases hans.ok.1 hok with h | h
      · exact h
      · rw [habs] at h
        cases h
    obtain ⟨hbefore, htarget⟩ := hans.moved.2 htakes
    exact ⟨_, _, rfl, hafter, hbefore, htarget, barredFromForfeit_of_absorbs habs⟩

theorem reserveForfeits_truthful_iff (cfg : Config) (m : Manager)
    (spawn : Outpoint → Option Child) (replies rollback : Outpoint → Reply) (hnodup : ops.Nodup) :
    let r := reserveForfeits cfg spawn replies rollback ops [] m
    (r.2 = .ok () → ∀ op ∈ ops,
        Moved isPendingForfeitState State.barredFromForfeit (m.childOf spawn op) (r.1.actors op)) ↔
      ForfeitSound m spawn replies ops := by
  intro r
  unfold ForfeitSound
  obtain ⟨hok, hpost⟩ := reserveForfeits_spec cfg m spawn replies rollback [] hnodup
  by_cases hr : r.2 = .ok ()
  · have hgr := hok.1 hr
    have hnone : ¬ ∃ op ∈ ops, RefusesForfeit (m.childOf spawn op) (replies op) := by
      rintro ⟨op, hin, href⟩
      exact not_granted_iff.2 href (hgr op hin)
    rw [or_iff_right hnone, forall_prop_of_true hr]
    refine forall₂_congr fun op hin => ?_
    exact moved_iff_responsive (hgr op hin) ((hpost hr).2 op hin)
  · refine ⟨fun _ => .inl ?_, fun _ h => absurd h hr⟩
    by_contra hnone
    refine hr (hok.2 fun op hin => ?_)
    by_contra hgr
    exact hnone ⟨op, hin, not_granted_iff.1 hgr⟩

theorem admissible_eq_ok :
    admissible m ops = .ok () ↔ ∀ op ∈ ops, (m.actors op).isSome = true ∧ m.isReserved op = false := by
  induction ops with
  | nil => simp [admissible]
  | cons op ops ih =>
    unfold admissible
    rw [forall_mem_cons, ← ih]
    cases m.actors op <;> cases m.isReserved op <;> simp

theorem reserveForfeit_truthful_iff (cfg : Config) (m : Manager) (ops : List Outpoint)
    (replies rollback : Outpoint → Reply) :
    ReserveForfeitTruthful cfg m ops replies rollback ↔
      (∃ op ∈ ops, m.isReserved op = true) ∨ ForfeitSound m (fun _ => none) replies ops := by
  have hchild : ∀ op, m.childOf (fun _ => none) op = m.actors op := fun op => by
    simp [Manager.childOf]
  have hloop := reserveForfeits_truthful_iff cfg m (fun _ => none) replies rollback
    (dedupOutpoints_spec ops []).1
  simp only [ForfeitSound, hchild, mem_dedupOutpoints] at hloop
  simp only [ReserveForfeitTruthful, handleReserveForfeit, ForfeitSound, hchild]
  cases hadm : admissible m (dedupOutpoints ops []) with
  | ok u =>
    -- every outpoint has an actor and no mark
    have hfree : ¬ ∃ op ∈ ops, m.isReserved op = true := by
      rintro ⟨op, hin, hres⟩
      rw [(admissible_eq_ok.1 hadm op (mem_dedupOutpoints.2 hin)).2] at hres
      cases hres
    rw [or_iff_right hfree, ← hloop]
  | error e =>
    have hnot : ¬ ∀ op ∈ ops, (m.actors op).isSome = true ∧ m.isReserved op = false := fun h => by
      rw [admissible_eq_ok.2 fun op hin => h op (mem_dedupOutpoints.1 hin)] at hadm
      cases hadm
    push Not at hnot
    obtain ⟨op, hin, hop⟩ := hnot
    refine ⟨fun _ => ?_, fun _ h => nomatch h⟩
    cases hact : m.actors op with
    | none =>
      refine .inr (.inl ⟨op, hin, ?_⟩)
      rw [hact]
      exact fun _ h => nomatch h
    | some child =>
      rw [hact] at hop
      exact .inl ⟨op, hin, by simpa using hop rfl⟩

theorem selectForfeit_truthful_iff (cfg : Config) (m : Manager) (reads : Reads)
    (spawnOk : Outpoint → Bool) (target : Amount) (replies rollback : Outpoint → Reply) :
    SelectForfeitTruthful cfg m reads spawnOk target replies rollback ↔
      ∀ selected, selectVTXOs m reads { targetAmount := target } = .ok selected →
        ForfeitSound m (respawnActorFromStore reads spawnOk) replies
          (selected.map Candidate.outpoint) := by
  simp only [SelectForfeitTruthful, handleSelectAndReserveForfeit]
  cases hsel : selectVTXOs m reads { targetAmount := target } with
  | error e => simp
  | ok selected =>
    obtain ⟨-, -, hnodup, -⟩ := selectVTXOs_ok hsel
    have hloop := reserveForfeits_truthful_iff cfg m (respawnActorFromStore reads spawnOk) replies
      rollback hnodup
    simp only [forall_mem_map] at hloop
    simp only [Except.ok.injEq, forall_eq']
    rw [← hloop]
    cases (reserveForfeits cfg (respawnActorFromStore reads spawnOk) replies rollback
        (selected.map Candidate.outpoint) [] m).2 with
    | error e => simp [Except.map]
    | ok u => simp [Except.map]

end Forfeit

section Spend

/-- The way of a detached reserve: the actor as the event finds it, whether the reply comes in time,
whether the event is handled although the watch has given up, and the row that the watch reads then.
-/
structure Fate where
  actor : Actor
  row : Row := {}
  ans : Answers := {}
  inTime : Bool := true
  handled : Bool := true
  lookup : Lookup := .notFound

namespace Fate

variable (cfg : Config) (f : Fate)

def receipt : Receipt := receive f.actor f.row f.ans cfg (.event .spendReserve)

def reported : Bool :=
  detachedReserveFails (if f.inTime then some (f.receipt cfg).ok else none) f.lookup

def Moved : Prop :=
  (f.inTime = true ∨ f.handled = true) ∧ isSpendingState f.actor.state = false ∧
    isSpendingState (f.receipt cfg).actor.state = true ∧ f.actor.state.barredFromSpend = false

/-- In time, the event does not find a state that absorbs it; after the deadline, the row
is unreadable or still live, or the actor takes the event. -/
def Sound : Prop :=
  if f.inTime then f.actor.state.absorbsSpend = false
  else detachedReserveFails none f.lookup = true ∨ (f.handled = true ∧ TakesSpend f.actor f.ans)

end Fate

variable {f : Fate}

theorem barredFromSpend_of_absorbs {state : State} (h : state.absorbsSpend = false) :
    state.barredFromSpend = false := by
  cases state <;> first | rfl | cases h

theorem Fate.moved_iff : f.Moved cfg ↔ (f.inTime = true ∨ f.handled = true) ∧
    TakesSpend f.actor f.ans := by
  have hans := answered_spendReserve cfg f.actor f.row f.ans
  refine and_congr_right fun _ => ⟨fun h => hans.moved.1 ⟨h.1, h.2.1⟩, fun htakes => ?_⟩
  obtain ⟨hbefore, htarget⟩ := hans.moved.2 htakes
  have habs : f.actor.state.absorbsSpend = false :=
    Bool.eq_false_iff.2 fun habs => hans.stayed habs htakes
  exact ⟨hbefore, htarget, barredFromSpend_of_absorbs habs⟩

/-- One reserve is reported as failed or true exactly when it is sound. -/
theorem Fate.truthful_iff : (f.reported cfg = false → f.Moved cfg) ↔ f.Sound := by
  have hans := answered_spendReserve cfg f.actor f.row f.ans
  rw [Fate.moved_iff]
  unfold Fate.reported Fate.Sound
  cases f.inTime with
  | false =>
    simp only [Bool.false_eq_true, if_false, false_or]
    cases detachedReserveFails none f.lookup <;> simp
  | true =>
    simp only [if_true, detachedReserveFails, Bool.not_eq_false', true_or, true_and]
    refine ⟨fun h => Bool.eq_false_iff.2 fun habs => ?_, fun habs hok => ?_⟩
    · exact hans.stayed habs (h (hans.ok.2 (.inr habs)))
    rcases hans.ok.1 hok with htakes | h
    · exact htakes
    · rw [habs] at h
      cases h

/-- The loop hands out every selected row if each has an actor. -/
theorem reserveDetached_outpoints
    (h : (reserveDetached reads spawnOk selected reserved m).2 = .ok vtxos) :
    vtxos.map SelectedVTXO.outpoint =
      reserved.map SelectedVTXO.outpoint ++ selected.map Candidate.outpoint := by
  induction selected generalizing reserved m with
  | nil =>
    cases h
    simp
  | cons c selected ih =>
    simp only [reserveDetached] at h
    split at h
    · cases h
    · rw [ih h]
      simp

theorem reserveDetached_ok_iff :
    (∃ vtxos, (reserveDetached reads spawnOk selected reserved m).2 = .ok vtxos) ↔
      ∀ c ∈ selected, m.childOf (respawnActorFromStore reads spawnOk) c.outpoint ≠ none := by
  induction selected generalizing reserved m with
  | nil => simp [reserveDetached]
  | cons c selected ih =>
    rw [forall_mem_cons]
    cases hc : m.childOf (respawnActorFromStore reads spawnOk) c.outpoint with
    | none => simp [reserveDetached, resident_eq_none hc]
    | some child =>
      simp only [reserveDetached, resident_eq_some hc, ih, ne_eq, reduceCtorEq, not_false_eq_true,
        true_and]
      refine forall₂_congr fun c' _ => not_congr ?_
      -- only the actor just reserved changes, and it is there before and after
      by_cases heq : c'.outpoint = c.outpoint
      · rw [heq, hc]
        simp [Manager.childOf, Manager.enqueue, Manager.markReserved]
      · simp [heq, Manager.childOf, Manager.enqueue, Manager.markReserved]

/-- Each VTXO of a spend reservation that is granted has moved, or its reserve is
reported as failed. -/
def SpendTruthful (cfg : Config) (m : Manager) (reads : Reads) (spawnOk : Outpoint → Bool)
    (p : ReserveParams) (fates : Outpoint → Fate) : Prop :=
  ∀ vtxos, (handleSelectAndReserveSpend reads spawnOk m p).2 = .ok vtxos → ∀ v ∈ vtxos,
    (fates v.outpoint).reported cfg = false → (fates v.outpoint).Moved cfg

theorem spend_truthful_iff (cfg : Config) (m : Manager) (reads : Reads)
    (spawnOk : Outpoint → Bool) (p : ReserveParams) (fates : Outpoint → Fate) :
    SpendTruthful cfg m reads spawnOk p fates ↔
      ∀ selected, selectVTXOs m reads p = .ok selected →
        (∃ v ∈ selected, m.childOf (respawnActorFromStore reads spawnOk) v.outpoint = none) ∨
          ∀ v ∈ selected, (fates v.outpoint).Sound := by
  simp only [SpendTruthful, handleSelectAndReserveSpend, Fate.truthful_iff]
  cases hsel : selectVTXOs m reads p with
  | error e => simp
  | ok selected =>
    simp only [Except.ok.injEq, forall_eq']
    by_cases hok : ∃ vtxos, (reserveDetached reads spawnOk selected [] m).2 = .ok vtxos
    · have hnone : ¬ ∃ v ∈ selected,
          m.childOf (respawnActorFromStore reads spawnOk) v.outpoint = none := by
        rintro ⟨v, hv, h⟩
        exact reserveDetached_ok_iff.1 hok v hv h
      obtain ⟨vtxos, hvtxos⟩ := hok
      have hops : vtxos.map SelectedVTXO.outpoint = selected.map Candidate.outpoint := by
        simpa using reserveDetached_outpoints hvtxos
      have hforall : (∀ v ∈ vtxos, (fates v.outpoint).Sound) ↔
          ∀ v ∈ selected, (fates v.outpoint).Sound := by
        rw [← forall_mem_map (P := fun op => (fates op).Sound), hops, forall_mem_map]
      simp [hvtxos, or_iff_right hnone, hforall]
    · have hno : ∃ v ∈ selected,
          m.childOf (respawnActorFromStore reads spawnOk) v.outpoint = none := by
        by_contra h
        exact hok (reserveDetached_ok_iff.2 fun v hv hnone => h ⟨v, hv, hnone⟩)
      exact ⟨fun _ => .inl hno, fun _ vtxos h => absurd ⟨vtxos, h⟩ hok⟩

end Spend

/-- Admission is truthful exactly when the request is denied anyway or no actor absorbs the event:
for named and for selected forfeits, and for selected spends, whose watch may also give up. -/
theorem admission_truthful_iff (cfg : Config) (m : Manager) (replies rollback : Outpoint → Reply)
    (reads : Reads) (spawnOk : Outpoint → Bool) :
    (∀ ops, ReserveForfeitTruthful cfg m ops replies rollback ↔
      (∃ op ∈ ops, m.isReserved op = true) ∨ ForfeitSound m (fun _ => none) replies ops) ∧
    (∀ target, SelectForfeitTruthful cfg m reads spawnOk target replies rollback ↔
      ∀ selected, selectVTXOs m reads { targetAmount := target } = .ok selected →
        ForfeitSound m (respawnActorFromStore reads spawnOk) replies
          (selected.map Candidate.outpoint)) ∧
    (∀ p fates, SpendTruthful cfg m reads spawnOk p fates ↔
      ∀ selected, selectVTXOs m reads p = .ok selected →
        (∃ v ∈ selected, m.childOf (respawnActorFromStore reads spawnOk) v.outpoint = none) ∨
          ∀ v ∈ selected, (fates v.outpoint).Sound) :=
  ⟨fun ops => reserveForfeit_truthful_iff cfg m ops replies rollback,
    fun target => selectForfeit_truthful_iff cfg m reads spawnOk target replies rollback,
    fun p fates => spend_truthful_iff cfg m reads spawnOk p fates⟩

def actorIn (state : State) : Actor where
  desc := { batchExpiry := 110, createdHeight := 10 }
  state := state

def exitingManager : Manager where
  actors := fun op => if op = 1 then some { actor := actorIn (.unilateralExit .manualUnroll 20) } else none

/-- The listing still has the row of outpoint 1, whose actor has expired since. -/
def staleListing : Reads where
  candidates := some ⟨[⟨1, 500⟩], by decide⟩

def expiredSince : Fate where
  actor := actorIn (.expired 110)

/-- An exiting VTXO is granted to a forfeit and stays where it is; an expired one is
granted to a spend, nothing is reported, and it stays where it is. -/
theorem exiting_and_expired_granted :
    (handleReserveForfeit {} exitingManager [1] (fun _ => {}) (fun _ => {})).2 = .ok () ∧
      ((handleReserveForfeit {} exitingManager [1] (fun _ => {}) (fun _ => {})).1.actors 1).map
        (·.actor.state) = some (.unilateralExit .manualUnroll 20) ∧
      (handleSelectAndReserveSpend staleListing (fun _ => true)
        { actors := fun _ => some { actor := actorIn (.live 10) } } { targetAmount := 400 }).2 =
        .ok [⟨1, 500, 1⟩] ∧
      expiredSince.reported {} = false ∧
      (expiredSince.receipt {}).actor.state = .expired 110 := by
  refine ⟨rfl, rfl, rfl, rfl, rfl⟩

end Wavelength.Vtxo
