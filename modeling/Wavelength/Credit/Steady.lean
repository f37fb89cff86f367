import Mathlib.Data.List.Basic
import Wavelength.Credit.OpActor

/-! # A credit operation never changes what it asked for

A destination is written to the row before the first call that names it, and every delivery begins
with what the row says. So the row only moves on along the path of the operation, and the memory of
the actor is never behind it.
-/

namespace Wavelength.Credit

open List

/-- The place of a state on the path of its operation. -/
def CreditState.pos : CreditState → ℕ
  | .quoting | .receiveCreating | .redeemReserving => 0
  | .topupCreating | .awaitingSettlement | .redeemSubmitting => 1
  | .topupFunding | .awaitingOOR => 2
  | .topupAwaitingCredit => 3
  | .paying => 4
  | .payAwaitingSettlement => 5
  | .completed | .failed => 6

/-- The state that a call with an effect belongs to. -/
def Event.madeIn : Event → Option CreditState
  | .createCredit _ _ .arkTopUp _ _ => some .topupCreating
  | .createCredit _ _ .lightningReceive _ _ => some .receiveCreating
  | .sendOOR _ _ _ _ => some .topupFunding
  | .startPay _ _ _ => some .paying
  | .allocateReceiveScript _ => some .redeemReserving
  | .redeemCredit _ _ _ _ => some .redeemSubmitting
  | _ => none

/-- No state after that of the later call had been written before it. -/
def InOrder (later earlier : Event) : Prop :=
  ∀ s c, earlier = .persisted (.of s) → later.madeIn = some c → s.pos ≤ c.pos

/-- A state in which a delivery may end. -/
def CreditState.rests : CreditState → Bool
  | .topupAwaitingCredit | .payAwaitingSettlement | .awaitingSettlement | .awaitingOOR
  | .completed | .failed => true
  | _ => false

/-- A state that checkpoints and commits may write. -/
def CreditState.written : CreditState → Bool
  | .topupFunding | .redeemSubmitting => true
  | s => s.rests

/-- A state that waits for the output at the script of the operation. -/
def CreditState.redeeming : CreditState → Bool
  | .redeemSubmitting | .awaitingOOR => true
  | _ => false

/-- The states that the actor can be in while its row says `r`. -/
def CreditState.ahead (r : CreditState) : CreditState → Bool
  | .completed | .failed => true
  | .topupCreating => r = .quoting
  | .paying => r = .quoting ∨ r = .topupAwaitingCredit
  | s => r = s

variable {s r : CreditState}

theorem pos_le_of_ahead (h : r.ahead s) : r.pos ≤ s.pos := by
  revert h
  cases r <;> cases s <;> decide

theorem eq_of_ahead (h : r.ahead s) (ht : s.isTerminal = false) (hc : s ≠ .topupCreating)
    (hp : s ≠ .paying) : r = s := by
  revert h ht hc hp
  cases r <;> cases s <;> decide

theorem ahead_self (h : s.written) : s.ahead s := by
  revert h
  cases s <;> decide

theorem written_of_rests (h : s.rests) : s.written := by
  cases s <;> first | rfl | cases h

/-- What the row and the history of an operation admitted as `o` say, where `r` is the state in
the row. -/
structure Durable (o : CreditOperationRecord) (r : CreditState) (row : Row) (log : List Event) :
    Prop where
  state : row.record.state = .of r
  held : r.pos = 0 ∨ r.written
  opKey : row.record.opKey = o.opKey
  topupSat : row.record.topupSat = o.topupSat
  amountSat : r ≠ .completed → row.record.amountSat = o.amountSat
  unallocated : r = .redeemReserving → row.record.destinationPubkey = []
  allocated : r.redeeming →
    .allocated row.record.destinationPubkey row.snapshot.redeemPkScript ∈ log
  sends : ∀ d a k x, .sendOOR d a k x ∈ log →
    r.pos ≠ 0 ∧ d = row.record.destinationPubkey ∧ a = o.topupSat.toUInt64 ∧ k = o.opKey
  redeems : ∀ i k a d, .redeemCredit i k a d ∈ log →
    r.pos ≠ 0 ∧ d = row.record.destinationPubkey ∧ a = o.amountSat.toUInt64
  finds : ∀ p, .findLiveVTXOByPkScript p ∈ log → r.pos ≠ 0 ∧ p = row.snapshot.redeemPkScript ∧
    .allocated row.record.destinationPubkey row.snapshot.redeemPkScript ∈ log
  persisted : ∀ x, .persisted x ∈ log → ∃ s : CreditState, x = .of s ∧ s.pos ≤ r.pos
  order : log.Pairwise InOrder

/-- The memory of the actor agrees with the row that it may be ahead of. -/
structure Ready (o : CreditOperationRecord) (r : CreditState) (op : Resumed) (row : Row)
    (log : List Event) : Prop where
  durable : Durable o r row log
  ahead : r.ahead op.curState
  state : op.record.state = .of op.curState
  known : op.corruptState = false
  opKey : op.record.opKey = o.opKey
  topupSat : op.record.topupSat = o.topupSat
  amountSat : op.curState ≠ .completed → op.record.amountSat = o.amountSat
  destination : op.record.destinationPubkey = row.record.destinationPubkey
  script : op.redeemPkScript = row.snapshot.redeemPkScript

variable {P : Turn → Prop}

section

def Fits (o : CreditOperationRecord) (r : CreditState) (row : Row) : Event → Prop
  | .sendOOR d a k _ => r = .topupFunding ∧ d = row.record.destinationPubkey ∧
    a = o.topupSat.toUInt64 ∧ k = o.opKey
  | .redeemCredit _ _ a d => r = .redeemSubmitting ∧ d = row.record.destinationPubkey ∧
    a = o.amountSat.toUInt64
  | .findLiveVTXOByPkScript p => r = .awaitingOOR ∧ p = row.snapshot.redeemPkScript
  | .persisted _ => False
  | e => ∀ c, e.madeIn = some c → r.pos ≤ c.pos

theorem Fits.pos_le (h : Fits o r row e) (hc : e.madeIn = some c) : r.pos ≤ c.pos := by
  unfold Fits at h
  split at h
  · cases hc
    exact Nat.le_of_eq (congrArg _ h.1)
  · cases hc
    exact Nat.le_of_eq (congrArg _ h.1)
  · cases hc
  · exact h.elim
  · exact h c hc

theorem Durable.note (h : Durable o r row log) (he : Fits o r row e) :
    Durable o r row (e :: log) where
  state := h.state
  held := h.held
  opKey := h.opKey
  topupSat := h.topupSat
  amountSat := h.amountSat
  unallocated := h.unallocated
  allocated hr := mem_cons_of_mem _ (h.allocated hr)
  sends d a k x hx := by
    rcases mem_cons.1 hx with rfl | hx
    · obtain ⟨rfl, hd, ha, hk⟩ := he
      exact ⟨by decide, hd, ha, hk⟩
    · exact h.sends d a k x hx
  redeems i k a d hx := by
    rcases mem_cons.1 hx with rfl | hx
    · obtain ⟨rfl, hd, ha⟩ := he
      exact ⟨by decide, hd, ha⟩
    · exact h.redeems i k a d hx
  finds p hx := by
    rcases mem_cons.1 hx with rfl | hx
    · obtain ⟨rfl, hp⟩ := he
      exact ⟨by decide, hp, mem_cons_of_mem _ (h.allocated rfl)⟩
    · obtain ⟨hr, hp, ha⟩ := h.finds p hx
      exact ⟨hr, hp, mem_cons_of_mem _ ha⟩
  persisted x hx := by
    rcases mem_cons.1 hx with rfl | hx
    · exact he.elim
    · exact h.persisted x hx
  order := by
    refine pairwise_cons.2 ⟨?_, h.order⟩
    rintro x hx t c rfl hc
    obtain ⟨t', ht', hle⟩ := h.persisted _ hx
    cases ht'
    exact Nat.le_trans hle (he.pos_le hc)

theorem Durable.write (h : Durable o r row log) (hs : row'.record.state = .of s)
    (hk : row'.record.opKey = o.opKey) (ht : row'.record.topupSat = o.topupSat)
    (ha : s ≠ .completed → row'.record.amountSat = o.amountSat) (hw : s.written)
    (hpos : r.pos ≤ s.pos)
    (hd : r.pos ≠ 0 → row'.record.destinationPubkey = row.record.destinationPubkey ∧
      row'.snapshot.redeemPkScript = row.snapshot.redeemPkScript)
    (hall : s.redeeming →
      .allocated row'.record.destinationPubkey row'.snapshot.redeemPkScript ∈ log) :
    Durable o s row' (.persisted (.of s) :: log) := by
  have hs₀ : s.pos ≠ 0 := by
    revert hw
    cases s <;> decide
  have hmem : ∀ {x : Event}, x ∈ .persisted (.of s) :: log → x ≠ .persisted (.of s) → x ∈ log :=
    fun hx hne => (mem_cons.1 hx).resolve_left hne
  refine ⟨hs, .inr hw, hk, ht, ha, ?_, ?_, ?_, ?_, ?_, ?_, ?_⟩
  · rintro rfl
    cases hw
  · exact fun hr => mem_cons_of_mem _ (hall hr)
  · intro d a k x hx
    obtain ⟨hr, hd', ha', hk'⟩ := h.sends d a k x (hmem hx nofun)
    exact ⟨hs₀, hd'.trans (hd hr).1.symm, ha', hk'⟩
  · intro i k a d hx
    obtain ⟨hr, hd', ha'⟩ := h.redeems i k a d (hmem hx nofun)
    exact ⟨hs₀, hd'.trans (hd hr).1.symm, ha'⟩
  · intro p hx
    obtain ⟨hr, hp, hall'⟩ := h.finds p (hmem hx nofun)
    rw [← (hd hr).1, ← (hd hr).2] at hall'
    exact ⟨hs₀, hp.trans (hd hr).2.symm, mem_cons_of_mem _ hall'⟩
  · intro x hx
    rcases mem_cons.1 hx with hx | hx
    · cases hx
      exact ⟨s, rfl, Nat.le_refl _⟩
    · obtain ⟨t, rfl, hle⟩ := h.persisted x hx
      exact ⟨t, rfl, Nat.le_trans hle hpos⟩
  · exact pairwise_cons.2 ⟨fun _ _ _ _ _ hc => (nomatch hc), h.order⟩

theorem Ready.note (h : Ready o r op row log) (he : Fits o r row e) : Ready o r op row (e :: log) :=
  { h with durable := h.durable.note he }

theorem Durable.restore (h : Durable o r row log) : Ready o r (restore row) row log := by
  have hst := h.state
  refine ⟨h, ?_, ?_, ?_, h.opKey, h.topupSat, ?_, rfl, rfl⟩
  · have hheld := h.held
    simp only [Credit.restore, hst, decodeCreditState]
    revert hheld
    cases r <;> decide
  · simp only [Credit.restore, hst, decodeCreditState]
  · simp [Credit.restore, hst, decodeCreditState]
  · simp only [Credit.restore, hst, decodeCreditState]
    exact h.amountSat

/-! ## One transition -/

def Fit (o : CreditOperationRecord) (r s : CreditState) (t : Turn) : Prop :=
  Ready o r t.op t.row t.log ∧ t.op.curState = s

def Kept (o : CreditOperationRecord) (r : CreditState) (t : Turn) : Prop := Durable o r t.row t.log

/-- What a transition out of `s` leaves for the driver: it goes on or waits with the row as it is,
or has the operation written. -/
structure Stepped (o : CreditOperationRecord) (r s : CreditState) (tr : Transition) (t : Turn) :
    Prop where
  durable : Durable o r t.row t.log
  known : t.op.corruptState = false
  opKey : t.op.record.opKey = o.opKey
  topupSat : t.op.record.topupSat = o.topupSat
  amountSat : tr.next ≠ .completed → t.op.record.amountSat = o.amountSat
  kept : r.pos = 0 ∨ t.op.record.destinationPubkey = t.row.record.destinationPubkey ∧
    t.op.redeemPkScript = t.row.snapshot.redeemPkScript
  out : (tr.outbox = [] ∨ ∃ a, tr.outbox = [.triggerRedeem a]) ∧ r.ahead tr.next ∧
      s.pos < tr.next.pos ∧ t.op.record.destinationPubkey = t.row.record.destinationPubkey ∧
      t.op.redeemPkScript = t.row.snapshot.redeemPkScript ∨
    tr.outbox = [.parkOp] ∧ r = tr.next ∧ tr.next.rests ∧
      t.op.record.destinationPubkey = t.row.record.destinationPubkey ∧
      t.op.redeemPkScript = t.row.snapshot.redeemPkScript ∨
    tr.outbox = [.stageRecord] ∧ tr.next.written ∧ r.pos ≤ tr.next.pos ∧ s.pos < tr.next.pos ∧
      (tr.next.redeeming → .allocated t.op.record.destinationPubkey t.op.redeemPkScript ∈ t.log)

variable {α : Type}

abbrev Steps (o : CreditOperationRecord) (r s : CreditState) (m : Op Transition) : Prop :=
  Ensures (Fit o r s) m (Stepped o r s) fun _ => Kept o r

theorem Fit.kept (h : Fit o r s t) : Kept o r t := h.1.durable

theorem Fit.amountSat (h : Fit o r s t) (hs : s ≠ .completed) :
    t.op.record.amountSat = o.amountSat :=
  h.1.amountSat (h.2 ▸ hs)

theorem Ready.pos_le (h : Ready o r op row log) (hs : op.curState = s) : r.pos ≤ s.pos :=
  pos_le_of_ahead (hs ▸ h.ahead)

/-- The row is in the state of the actor, except where the actor went on without a checkpoint. -/
theorem Ready.row_eq (h : Ready o r op row log) (hs : op.curState = s) (ht : s.isTerminal = false)
    (hc : s ≠ .topupCreating) (hp : s ≠ .paying) : r = s :=
  eq_of_ahead (hs ▸ h.ahead) ht hc hp

theorem Fit.stepped_of (h : Fit o r s t) (hs : s ≠ .completed)
    (hout : (tr.outbox = [] ∨ ∃ a, tr.outbox = [.triggerRedeem a]) ∧ r.ahead tr.next ∧
        s.pos < tr.next.pos ∨
      tr.outbox = [.parkOp] ∧ r = tr.next ∧ tr.next.rests ∨
      tr.outbox = [.stageRecord] ∧ tr.next.written ∧ r.pos ≤ tr.next.pos ∧ s.pos < tr.next.pos ∧
        (tr.next.redeeming →
          .allocated t.op.record.destinationPubkey t.op.redeemPkScript ∈ t.log)) :
    Stepped o r s tr t := by
  have hamount := h.amountSat hs
  obtain ⟨h, -⟩ := h
  refine ⟨h.durable, h.known, h.opKey, h.topupSat, fun _ => hamount,
    .inr ⟨h.destination, h.script⟩, ?_⟩
  rcases hout with ⟨ho, ha, hp⟩ | ⟨ho, hr, hn⟩ | hout
  · exact .inl ⟨ho, ha, hp, h.destination, h.script⟩
  · exact .inr (.inl ⟨ho, hr, hn, h.destination, h.script⟩)
  · exact .inr (.inr hout)

theorem Fit.goesOn (h : Fit o r s t) (hs : s ≠ .completed) (ha : r.ahead s') (hp : s.pos < s'.pos) : Stepped o r s { next := s' } t :=
  h.stepped_of hs (.inl ⟨.inl rfl, ha, hp⟩)

theorem Fit.parks (h : Fit o r s t) (hs : s.rests) (ht : s.isTerminal = false) :
    Stepped o r s { next := s, outbox := [.parkOp] } t := by
  have hne : s ≠ .completed := by
    rintro rfl
    cases ht
  have hr : r = s := by
    have ha := h.1.ahead
    rw [h.2] at ha
    revert ha hs ht
    cases r <;> cases s <;> decide
  exact h.stepped_of hne (.inr (.inl ⟨rfl, hr, hs⟩))

theorem getOp_bind {Q : α → Turn → Prop} {E : OpError → Turn → Prop}
    (h : ∀ op, Ensures (fun t => P t ∧ t.op = op) (k op) Q E) : Ensures P (getOp >>= k) Q E :=
  fun t ht => h t.op t ⟨ht, rfl⟩

theorem call_spec (he : ∀ row log, Ready o r op row log → op.curState = s → Fits o r row e) :
    Ensures (fun t => Fit o r s t ∧ t.op = op) (call e reply) (fun _ t => Fit o r s t ∧ t.op = op)
      fun _ => Kept o r := by
  have hnote : Ensures (fun t => Fit o r s t ∧ t.op = op) (note e)
      (fun _ t => Fit o r s t ∧ t.op = op) fun _ => Kept o r := by
    refine .modify ?_
    rintro t ⟨⟨ht, hs⟩, rfl⟩
    exact ⟨⟨ht.note (he _ _ ht hs), hs⟩, rfl⟩
  cases reply with
  | ok a | error err => exact hnote.bind fun _ => .ret
  | crash sent =>
    cases sent with
    | true => exact hnote.bind fun _ => .throw fun _ h => h.1.kept
    | false => exact .throw fun _ h => h.1.kept

theorem ask_keeps : Keeps P (ask reply) := by
  cases reply with
  | ok a | error err => exact .pure
  | crash sent => exact .throw

theorem accountKey_keeps : Keeps (Fit o r s) (accountKey ans) := by
  refine .bind .get fun t => .ite (fun _ => .pure) fun _ => ?_
  refine ask_keeps.bind fun x => ?_
  cases x with
  | error e => exact .pure
  | ok key => exact .bind (.modify fun _ h => h) fun _ => .pure

theorem orFail_spec : Keeps P (orFail x) := by
  cases x with
  | error e => exact .throw
  | ok a => exact .pure

theorem acctKey_bind {Q : Transition → Turn → Prop}
    (h : ∀ key, Ensures (Fit o r s) (k key) Q fun _ => Kept o r) :
    Ensures (Fit o r s) (accountKey ans >>= fun x => orFail x >>= k) Q fun _ => Kept o r :=
  .bind (accountKey_keeps.onError fun _ _ h => h.kept) fun _ =>
    .bind (orFail_spec.onError fun _ _ h => h.kept) h

theorem listCredits_keeps : Keeps (Fit o r s) (listCredits ans s') := by
  refine accountKey_keeps.bind fun x => ?_
  cases x with
  | error e => exact .throw
  | ok key =>
    refine ask_keeps.bind fun y => ?_
    cases y with
    | error e => exact .throw
    | ok snapshot => exact .pure

theorem listCredits_bind {Q : Transition → Turn → Prop}
    (h : ∀ x, Ensures (Fit o r s) (k x) Q fun _ => Kept o r) :
    Ensures (Fit o r s) (listCredits ans s' >>= k) Q fun _ => Kept o r :=
  .bind (listCredits_keeps.onError fun _ _ h => h.kept) h

theorem redeemWatermarkCleared_keeps :
    Keeps (Fit o r s) (redeemWatermarkCleared cfg ans snapshot) := by
  cases snapshot with
  | none => exact .pure
  | some c =>
    refine .ite (fun _ => .pure) fun _ => .bind ?_ fun x => ?_
    · unfold earmarked
      cases ans.earmark with
      | none => exact .pure
      | some reply => exact ask_keeps
    cases x with
    | error e => exact .pure
    | ok v =>
      refine .ite (fun _ => .pure) fun _ => ask_keeps.bind fun y => ?_
      cases y with
      | error e => exact .pure
      | ok floor => exact .ite (fun _ => .pure) fun _ => .pure

theorem fail_spec (hs : s.isTerminal = false) : Steps o r s (fail reason) := by
  refine .bind (Q := fun _ => Fit o r s) (.modify ?_) fun _ => .pure ?_
  · rintro t ⟨h, ht⟩
    exact ⟨{ h with }, ht⟩
  intro t h
  refine h.goesOn ?_ rfl ?_
  · rintro rfl
    cases hs
  · revert hs
    cases s <;> decide

theorem fails (hs : s.isTerminal = false) : Ensures (fun t => Fit o r s t ∧ P t) (fail reason)
    (Stepped o r s) fun _ => Kept o r :=
  (fail_spec hs).pre fun _ h => h.1

theorem awaitMore_spec (hs : s.rests) (ht : s.isTerminal = false) :
    Steps o r s (awaitExhausted cfg >>= fun x => if x then fail reason
        else pure { next := s, outbox := [.parkOp] }) := by
  refine .bind (Q := fun _ => Fit o r s) ?_ fun x =>
    .ite (fun _ => fail_spec ht) fun _ => .pure fun _ h => h.parks hs ht
  refine .bind (Q := fun _ => Fit o r s) (.modify ?_) fun _ => ?_
  · rintro t ⟨h, ht⟩
    exact ⟨{ h with }, ht⟩
  · exact getOp_bind fun _ => .pure fun _ h => h.1

theorem Fit.row_eq (h : Fit o r s t) (ht : s.isTerminal = false) (hc : s ≠ .topupCreating)
    (hp : s ≠ .paying) : r = s :=
  h.1.row_eq h.2 ht hc hp

theorem quoting_spec : Steps o r .quoting quoting := by
  refine getOp_bind fun op => .pure ?_
  rintro t ⟨h, -⟩
  obtain rfl := h.row_eq rfl nofun nofun
  split <;> exact h.goesOn nofun rfl (by decide)

theorem topupCreating_spec : Steps o r .topupCreating (topupCreating ans) := by
  refine acctKey_bind fun key => getOp_bind fun op =>
    .bind (call_spec fun row log h hs => ?_) fun x => ?_
  · rintro _ ⟨⟩
    exact h.pos_le hs
  cases x with
  | error err =>
    exact .ite (fun _ => fails rfl) fun _ => .throw fun _ h => h.1.kept
  | ok res =>
    refine .ite (fun _ => fails rfl) fun _ => .ite (fun _ => fails rfl) fun _ => ?_
    -- The first destination of the operation: its row is still where it was admitted.
    rintro t ⟨h, -⟩
    have ha := h.1.ahead
    rw [h.2] at ha
    obtain rfl : r = .quoting := by simpa [CreditState.ahead] using ha
    exact ⟨h.kept, h.1.known, h.1.opKey, h.1.topupSat, fun _ => h.amountSat nofun, .inl rfl,
      .inr (.inr ⟨rfl, rfl, by decide, by decide, nofun⟩)⟩

theorem topupFunding_spec : Steps o r .topupFunding (topupFunding ans) := by
  refine getOp_bind fun op => ?_
  have hsend : ∀ (x : Bool) (reply : Reply String),
      Ensures (fun t => Fit o r .topupFunding t ∧ t.op = op)
        (call (.sendOOR op.record.destinationPubkey op.record.topupSat.toUInt64 op.record.opKey x)
          reply) (fun _ t => Fit o r .topupFunding t ∧ t.op = op) fun _ => Kept o r := by
    intro x reply
    refine call_spec fun row log h hs => ?_
    exact ⟨h.row_eq hs rfl nofun nofun, h.destination, by rw [h.topupSat], h.opKey⟩
  have hfunded : ∀ sessionID : String, Ensures (fun t => Fit o r .topupFunding t ∧ t.op = op)
      (do
        modifyRecord fun r => { r with oorSessionID := sessionID }
        pure { next := .topupAwaitingCredit, outbox := [.stageRecord] })
      (Stepped o r .topupFunding) fun _ => Kept o r := by
    rintro sessionID t ⟨h, -⟩
    have hr := h.row_eq rfl nofun nofun
    have h' : Fit o r .topupFunding { t with op := { t.op with record :=
        { t.op.record with oorSessionID := sessionID } } } :=
      ⟨{ h.1 with }, h.2⟩
    refine h'.stepped_of nofun (.inr (.inr ⟨rfl, rfl, ?_, by decide, nofun⟩))
    rw [hr]
    decide
  refine .bind (hsend _ _) fun x => ?_
  cases x with
  | ok sessionID => exact hfunded sessionID
  | error rejection =>
    refine .ite (fun _ => .bind (hsend _ _) fun y => ?_) fun _ => .throw fun _ h => h.1.kept
    cases y with
    | ok sessionID => exact hfunded sessionID
    | error err =>
      exact .ite (fun _ => fails rfl) fun _ => .throw fun _ h => h.1.kept

theorem topupAwaitingCredit_spec :
    Steps o r .topupAwaitingCredit (topupAwaitingCredit cfg ans) := by
  refine listCredits_bind fun snapshot => getOp_bind fun op => .pre ?_ fun _ h => h.1
  have hmore : Steps o r .topupAwaitingCredit (topupAwaitingCredit.awaitMore cfg) := awaitMore_spec rfl rfl
  cases serverOpState snapshot op.record.serverOpID with
  | none => exact hmore
  | some state =>
    refine .ite (fun _ => fail_spec rfl) fun _ => .ite (fun _ => ?_) fun _ => hmore
    refine .pure fun t h => ?_
    obtain rfl := h.row_eq rfl nofun nofun
    exact h.goesOn nofun rfl (by decide)

theorem paying_spec : Steps o r .paying (paying ans) := by
  refine getOp_bind fun op => .bind (call_spec fun row log h hs => ?_) fun x => ?_
  · rintro _ ⟨⟩
    exact h.pos_le hs
  cases x with
  | error err =>
    exact .ite (fun _ => fails rfl) fun _ => .throw fun _ h => h.1.kept
  | ok u =>
    refine .ite (fun _ => .pure ?_) fun _ => .pure ?_
    · rintro t ⟨h, -⟩
      refine h.stepped_of nofun (.inr (.inr ⟨rfl, rfl, ?_, by decide, nofun⟩))
      exact Nat.le_succ_of_le (h.1.pos_le h.2)
    · rintro t ⟨h, -⟩
      exact h.goesOn nofun rfl (by decide)

theorem payAwaitingSettlement_spec :
    Steps o r .payAwaitingSettlement (payAwaitingSettlement cfg ans) := by
  refine listCredits_bind fun snapshot => getOp_bind fun op => .pre ?_ fun _ h => h.1
  have hmore : Steps o r .payAwaitingSettlement (payAwaitingSettlement.awaitMore cfg
        { next := .payAwaitingSettlement, outbox := [.parkOp] }) := awaitMore_spec rfl rfl
  have hnote : ∀ text : String, Ensures (Fit o r .payAwaitingSettlement)
      (modifyRecord fun r => { r with lastError := text })
      (fun _ => Fit o r .payAwaitingSettlement) fun _ => Kept o r := by
    refine fun text => .modify ?_
    rintro t ⟨h, ht⟩
    exact ⟨{ h with }, ht⟩
  cases authorizedPayState snapshot op.record.paymentHash op.record.maxCreditSat.toUInt64 with
  | error e => exact .bind (hnote _) fun _ => .pure fun _ h => h.parks rfl rfl
  | ok found =>
    refine .ite (fun _ => .pure fun _ h => h.parks rfl rfl) fun _ => .bind (hnote _) fun _ => ?_
    cases found with
    | none => exact hmore
    | some state =>
      exact .ite (fun _ => .pure fun _ h => h.goesOn nofun rfl (by decide)) fun _ =>
        .ite (fun _ => fail_spec rfl) fun _ => hmore

theorem receiveCreating_spec : Steps o r .receiveCreating (receiveCreating ans) := by
  refine acctKey_bind fun key => getOp_bind fun op =>
    .bind (call_spec fun row log h hs => ?_) fun x => ?_
  · rintro _ ⟨⟩
    exact h.pos_le hs
  cases x with
  | error err => exact .throw fun _ h => h.1.kept
  | ok res =>
    refine .ite (fun _ => fails rfl) fun _ => .ite (fun _ => fails rfl) fun _ => ?_
    rintro t ⟨h, -⟩
    obtain rfl := h.row_eq rfl nofun nofun
    exact ⟨h.kept, h.1.known, h.1.opKey, h.1.topupSat, fun _ => h.amountSat nofun, .inl rfl,
      .inr (.inr ⟨rfl, rfl, by decide, by decide, nofun⟩)⟩

theorem awaitingSettlement_spec : Steps o r .awaitingSettlement (awaitingSettlement cfg ans) := by
  refine listCredits_bind fun snapshot => getOp_bind fun op => .pre ?_ fun _ h => h.1
  cases serverOpState snapshot op.record.serverOpID with
  | none => exact .pure fun _ h => h.parks rfl rfl
  | some state =>
    refine .ite (fun _ => fail_spec rfl) fun _ => .ite (fun _ => ?_)
      fun _ => .pure fun _ h => h.parks rfl rfl
    refine .bind (redeemWatermarkCleared_keeps.onError fun _ _ h => h.kept) fun x => ?_
    cases x with
    | none => exact .pure fun _ h => h.goesOn nofun rfl (by decide)
    | some available =>
      have hpos : CreditState.awaitingSettlement.pos < CreditState.completed.pos := by decide
      exact .pure fun _ h => h.stepped_of nofun (.inl ⟨.inr ⟨_, rfl⟩, rfl, hpos⟩)

theorem redeemReserving_spec : Steps o r .redeemReserving (redeemReserving ans) := by
  refine getOp_bind fun op => .ite (fun hd => .pure ?_) fun _ => ?_
  · -- A row in this state has no destination yet.
    rintro t ⟨h, rfl⟩
    obtain rfl := h.row_eq rfl nofun nofun
    exact (hd.1 (h.1.destination.trans (h.1.durable.unallocated rfl))).elim
  refine .bind (call_spec fun row log h hs => ?_) fun x => ?_
  · rintro _ ⟨⟩
    exact h.pos_le hs
  cases x with
  | error err => exact .throw fun _ h => h.1.kept
  | ok out =>
    obtain ⟨pubKey, pkScript⟩ := out
    refine .bind (Q := fun _ t => Fit o r .redeemReserving t ∧
      .allocated pubKey pkScript ∈ t.log) (.modify ?_) fun _ => .ite (fun _ => fails rfl) fun _ => ?_
    · rintro t ⟨h, -⟩
      exact ⟨⟨h.1.note nofun, h.2⟩, mem_cons_self⟩
    rintro t ⟨h, hall⟩
    obtain rfl := h.row_eq rfl nofun nofun
    exact ⟨h.kept, h.1.known, h.1.opKey, h.1.topupSat, fun _ => h.amountSat nofun, .inl rfl,
      .inr (.inr ⟨rfl, rfl, by decide, by decide, fun _ => hall⟩)⟩

theorem redeemSubmitting_spec : Steps o r .redeemSubmitting (redeemSubmitting ans) := by
  refine acctKey_bind fun key => getOp_bind fun op =>
    .bind (call_spec fun row log h hs => ?_) fun x => ?_
  · refine ⟨h.row_eq hs rfl nofun nofun, h.destination, ?_⟩
    rw [h.amountSat]
    rw [hs]
    nofun
  cases x with
  | error err =>
    exact .ite (fun _ => fails rfl) fun _ => .throw fun _ h => h.1.kept
  | ok res =>
    refine .ite (fun _ => fails rfl) fun _ => ?_
    rintro t ⟨h, -⟩
    obtain rfl := h.row_eq rfl nofun nofun
    have hall := h.1.durable.allocated rfl
    rw [← h.1.destination, ← h.1.script] at hall
    have h' : Fit o .redeemSubmitting .redeemSubmitting { t with op := { t.op with record :=
        { t.op.record with serverOpID := res.operationID } } } :=
      ⟨{ h.1 with }, h.2⟩
    exact h'.stepped_of nofun (.inr (.inr ⟨rfl, rfl, by decide, by decide, fun _ => hall⟩))

theorem awaitingOOR_spec : Steps o r .awaitingOOR (awaitingOOR cfg ans) := by
  refine listCredits_bind fun snapshot => getOp_bind fun op => ?_
  cases (serverOpState snapshot op.record.serverOpID).filter (·.isTerminalFailure) with
  | some state => exact fails rfl
  | none =>
    refine .bind (call_spec fun row log h hs => ?_) fun x => ?_
    · exact ⟨h.row_eq hs rfl nofun nofun, h.script⟩
    cases x with
    | error err => exact .throw fun _ h => h.1.kept
    | ok out =>
      obtain ⟨found, amountSat⟩ := out
      refine .ite (fun _ => ?_) fun _ => (awaitMore_spec rfl rfl).pre fun _ h => h.1
      -- The amount that landed replaces the reserved one, and only a completed row holds it.
      rintro t ⟨h, -⟩
      exact ⟨h.1.durable, h.1.known, h.1.opKey, h.1.topupSat, fun hne => (hne rfl).elim,
        .inr ⟨h.1.destination, h.1.script⟩,
        .inl ⟨.inl rfl, rfl, by decide, h.1.destination, h.1.script⟩⟩

theorem processEvent_spec (hs : s.isTerminal = false) : Steps o r s (processEvent cfg ans s) := by
  cases s with
  | quoting => exact quoting_spec
  | topupCreating => exact topupCreating_spec
  | topupFunding => exact topupFunding_spec
  | topupAwaitingCredit => exact topupAwaitingCredit_spec
  | paying => exact paying_spec
  | payAwaitingSettlement => exact payAwaitingSettlement_spec
  | receiveCreating => exact receiveCreating_spec
  | awaitingSettlement => exact awaitingSettlement_spec
  | redeemReserving => exact redeemReserving_spec
  | redeemSubmitting => exact redeemSubmitting_spec
  | awaitingOOR => exact awaitingOOR_spec
  | completed | failed => cases hs

/-! ## One delivery -/

def Going (o : CreditOperationRecord) (s : CreditState) (t : Turn) : Prop := ∃ r, Fit o r s t

def Saved (o : CreditOperationRecord) (t : Turn) : Prop := ∃ r, Kept o r t

theorem Going.saved (h : Going o s t) : Saved o t := by
  obtain ⟨r, h⟩ := h
  exact ⟨r, h.kept⟩

/-- A write of the record, whatever becomes of it, where the row that it leaves is sound. -/
theorem persist_spec {Q : Turn → Prop} (hP : ∀ t, P t → Saved o t) (hQ : ∀ t, P t → Q { t with
      row := t.op.toRow
      log := .persisted t.op.record.state :: t.log }) (hQs : ∀ t, Q t → Saved o t) :
    Ensures P (persist w) (fun _ => Q) fun _ => Saved o := by
  have hwrite : Ensures P writeRow (fun _ => Q) fun _ => Saved o := .modify hQ
  have hmaybe : ∀ c, Ensures P (writeRowIf c) (fun _ => Saved o) fun _ => Saved o := by
    intro c
    cases c with
    | true => exact hwrite.post fun _ => hQs
    | false => exact .pure hP
  cases w with
  | ok => exact hwrite
  | failed written | crash written => exact (hmaybe written).bind fun _ => .throw fun _ h => h

theorem Stepped.enter (h : Stepped o r s tr t) (ha : r.ahead tr.next)
    (hd : t.op.record.destinationPubkey = t.row.record.destinationPubkey)
    (hp : t.op.redeemPkScript = t.row.snapshot.redeemPkScript) :
    Ready o r (t.op.applyState tr.next) t.row t.log :=
  ⟨h.durable, ha, rfl, h.known, h.opKey, h.topupSat, h.amountSat, hd, hp⟩

theorem Stepped.save (h : Stepped o r s tr t) (hw : tr.next.written) (hpos : r.pos ≤ tr.next.pos)
    (hall : tr.next.redeeming →
      .allocated t.op.record.destinationPubkey t.op.redeemPkScript ∈ t.log) :
    Durable o tr.next (t.op.applyState tr.next).toRow (.persisted (.of tr.next) :: t.log) :=
  h.durable.write rfl h.opKey h.topupSat h.amountSat hw hpos (fun hr => h.kept.resolve_left hr) hall

/-- A transition and its outbox: the delivery ends in a state of rest, or goes on further along
the path. -/
theorem flush_spec (tr : Transition) :
    Ensures (Stepped o r s tr) (modifyOp (·.applyState tr.next) >>= fun _ => flush ans tr.outbox)
      (fun park t => Going o tr.next t ∧ (park = true → tr.next.rests) ∧
        (park = false → s.pos < tr.next.pos))
      fun _ => Saved o := by
  intro t h
  rcases h.out with ⟨ho, ha, hp, hd, hk⟩ | ⟨ho, hr, hn, hd, hk⟩ | ⟨ho, hw, hle, hp, hall⟩
  · have hgo : Going o tr.next { t with op := t.op.applyState tr.next } := ⟨r, h.enter ha hd hk, rfl⟩
    rcases ho with ho | ⟨a, ho⟩
    · rw [ho]
      exact ⟨hgo, nofun, fun _ => hp⟩
    · rw [ho]
      exact ⟨hgo, nofun, fun _ => hp⟩
  · have ha : r.ahead tr.next := by
      rw [hr]
      exact ahead_self (written_of_rests hn)
    rw [ho]
    exact ⟨⟨r, h.enter ha hd hk, rfl⟩, fun _ => hn, nofun⟩
  · rw [ho]
    have hsaved := h.save hw hle hall
    refine Ensures.bind (P := fun t' => t' = t) (Q := fun _ t' =>
      t' = { t with op := t.op.applyState tr.next }) (.modify ?_) (fun _ => ?_) t rfl
    · rintro _ rfl
      rfl
    refine getOp_bind fun op => .bind (Q := fun _ t => Going o tr.next t)
      (persist_spec ?_ ?_ fun _ h => h.saved) fun _ => .pure fun _ h => ⟨h, nofun, fun _ => hp⟩
    · rintro _ ⟨rfl, -⟩
      exact ⟨r, h.durable⟩
    · rintro _ ⟨rfl, -⟩
      exact ⟨tr.next, ⟨hsaved, ahead_self hw, rfl, h.known, h.opKey, h.topupSat, h.amountSat, rfl,
        rfl⟩, rfl⟩

theorem runFSM_spec (fuel : ℕ) :
    ∀ s : CreditState, maxSteps ≤ s.pos + fuel →
      Ensures (Going o s) (runFSM cfg ans fuel)
        (fun done t => done = true ∧ ∃ s', Going o s' t ∧ s'.rests) fun _ => Saved o := by
  induction fuel with
  | zero =>
    intro s hs
    have hlt : s.pos < maxSteps := by cases s <;> decide
    exact absurd hs (Nat.not_le.2 hlt)
  | succ fuel ih =>
    intro s hs
    refine getOp_bind fun op => ?_
    rintro t ⟨⟨r, h⟩, rfl⟩
    obtain rfl := h.2
    refine Ensures.ite (P := Fit o r t.op.curState) (fun ht => Ensures.pure fun t' h' => ?_)
      (fun ht => ?_) t h
    · refine ⟨rfl, _, ⟨r, h'⟩, ?_⟩
      revert ht
      cases t.op.curState <;> decide
    refine .bind ((processEvent_spec (Bool.eq_false_iff.2 ht)).imp (fun _ h => h)
      (fun _ _ h => h) fun _ t h => ⟨r, h⟩) fun tr => ?_
    rw [← bind_assoc]
    refine .bind (flush_spec tr) fun park => ?_
    cases park with
    | true =>
      exact .bind (Q := fun _ t => Going o tr.next t ∧ tr.next.rests)
        (.modify fun t h => ⟨h.1, h.2.1 rfl⟩) fun _ => .pure fun t h => ⟨rfl, tr.next, h⟩
    | false =>
      rintro t' ⟨h', -, hpos⟩
      have hlt := hpos rfl
      exact ih tr.next (by omega) t' h'

theorem dispatch_spec :
    Ensures (Going o s) (dispatch cfg ans) (fun _ t => ∃ s', Going o s' t ∧ s'.rests)
      fun _ => Saved o := by
  refine .bind (Q := fun _ => Going o s) (.modify fun _ h => h) fun _ => getOp_bind fun op => ?_
  rintro t ⟨⟨r, h⟩, rfl⟩
  have hrun : Ensures (Going o s) (runFSM cfg ans maxSteps >>= fun _ => pure ())
      (fun _ t => ∃ s', Going o s' t ∧ s'.rests) fun _ => Saved o :=
    (runFSM_spec maxSteps s (Nat.le_add_left _ _)).bind fun _ => .pure fun _ h => h.2
  rw [h.1.known]
  refine Ensures.ite (P := Fit o r s) (fun ht => Ensures.pure fun t' h' => ⟨s, ⟨r, h'⟩, ?_⟩)
    (fun _ => hrun.pre fun t h => ⟨r, h⟩) t h
  rw [h.2] at ht
  revert ht
  cases s <;> decide

theorem commitAck_spec :
    Ensures (fun t => ∃ s, Going o s t ∧ s.rests) (commitAck ans)
      (fun _ t => ∃ s, Going o s t) fun _ => Saved o := by
  refine getOp_bind fun op => .bind (Q := fun _ t => ∃ s, Going o s t)
    (persist_spec ?_ ?_ ?_) fun _ => .ret
  · rintro t ⟨⟨s, h, -⟩, -⟩
    exact h.saved
  · rintro t ⟨⟨s, ⟨r, h, hs⟩, hrest⟩, -⟩
    -- A state of rest is terminal, or the row has it already.
    have ha := h.ahead
    rw [hs] at ha
    have hall : s.redeeming →
        .allocated t.op.record.destinationPubkey t.op.redeemPkScript ∈ t.log := by
      intro hr
      rw [h.destination, h.script]
      refine h.durable.allocated ?_
      revert ha hrest hr
      cases r <;> cases s <;> decide
    have hst : t.op.record.state = .of s := by
      rw [h.state, hs]
    have hd : Durable o s t.op.toRow (.persisted (.of s) :: t.log) :=
      h.durable.write hst h.opKey h.topupSat (fun hne => h.amountSat (by rwa [hs]))
        (written_of_rests hrest) (pos_le_of_ahead ha) (fun _ => ⟨h.destination, h.script⟩) hall
    refine ⟨s, s, ⟨?_, ?_, h.state, h.known, h.opKey, h.topupSat, h.amountSat, rfl, rfl⟩, hs⟩
    · rw [hst]
      exact hd
    · change s.ahead t.op.curState = true
      rw [hs]
      exact ahead_self (written_of_rests hrest)
  · rintro t ⟨s, h⟩
    exact h.saved

theorem Ready.notes (h : Ready o r op row log) (hes : ∀ e ∈ es, Fits o r row e) :
    Ready o r op row (es ++ log) := by
  induction es with
  | nil => exact h
  | cons e es ih => exact (ih fun e he => hes e (mem_cons_of_mem _ he)).note (hes e mem_cons_self)

theorem afterCommit_fits : ∀ e ∈ afterCommit terminal t, Fits o r row e := by
  intro e he
  rcases mem_append.1 he with he | he
  · have hcases : e = .terminalNotification ∨ e = .armPollTimer := by
      split at he
      · exact .inl (mem_singleton.1 he)
      · split at he
        · exact .inr (mem_singleton.1 he)
        · cases he
    rcases hcases with rfl | rfl <;> exact nofun
  · obtain ⟨a, -, rfl⟩ := mem_map.1 he
    exact nofun

end

/-! ## Every run -/

/-- The row is sound, and the memory of an actor that has nothing to reload agrees with it. -/
structure Sound (o : CreditOperationRecord) (r : CreditState) (child : Option OpBehavior) (row : Row)
    (log : List Event) : Prop where
  durable : Durable o r row log
  ready : ∀ b op, child = some b → b.commitFailed = false → b.op = some op → Ready o r op row log

theorem Durable.idle (h : Durable o r row log) : Sound o r none row log :=
  ⟨h, fun _ _ hb => (nomatch hb)⟩

def Node.Steady (n : Node) : Prop :=
  match n.row with
  | none => n.child = none ∧ n.log = []
  | some row => ∃ o r, Sound o r n.child row n.log

section

variable {n : Node}

theorem admission_durable (h : admission opID msg acctKey reply = some (row, calls)) :
    ∃ r, Durable row.record r row (.persisted row.record.state :: calls) := by
  have hfirst : ∀ {r : CreditState} {row : Row} {calls : List Event}, row.record.state = .of r →
      r.pos = 0 ∨ r.written → r.redeeming = false →
      (r = .redeemReserving → row.record.destinationPubkey = []) →
      (calls = [] ∨ ∃ k p t a m, calls = [.createCredit k p t a m]) →
      Durable row.record r row (.persisted row.record.state :: calls) := by
    intro r row calls hs hr hd ha hcalls
    refine ⟨hs, hr, rfl, rfl, fun _ => rfl, ha, by simp [hd], ?_, ?_, ?_, ?_, ?_⟩ <;>
      rcases hcalls with rfl | ⟨k, p, t, a, m, rfl⟩ <;> simp [hs, InOrder, Event.madeIn]
  cases msg with
  | startCreditPay opKey paymentHash invoice amountSat topupSat maxCreditSat maxFeeSat creditOnly =>
    cases h
    exact ⟨.quoting, hfirst rfl (.inl rfl) rfl nofun (.inl rfl)⟩
  | redeem opKey amountSat =>
    cases h
    exact ⟨.redeemReserving, hfirst rfl (.inl rfl) rfl (fun _ => rfl) (.inl rfl)⟩
  | startCreditReceive opKey amountSat memo =>
    obtain ⟨res, -, h⟩ := Option.bind_eq_some_iff.1 h
    obtain ⟨row', hrow, h⟩ := Option.bind_eq_some_iff.1 h
    cases h
    obtain ⟨-, hrow⟩ := Option.ite_none_left_eq_some.1 hrow
    cases hrow
    exact ⟨.awaitingSettlement, hfirst rfl (.inr rfl) rfl nofun (.inr ⟨_, _, _, _, _, rfl⟩)⟩

theorem turn_sound {b : OpBehavior} {n : Node} (h : Ready o r op row log)
    (hn : n = b.finish ((turn cfg ans).run (b.start op row log))) :
    ∃ row' r', n.row = some row' ∧ Sound o r' n.child row' n.log := by
  have hturn : Ensures (Going o op.curState) (turn cfg ans) (fun _ t => ∃ s, Going o s t)
      fun _ => Saved o := .bind dispatch_spec fun _ => commitAck_spec
  have hrun := hturn (b.start op row log) ⟨r, h, rfl⟩
  subst hn
  generalize (turn cfg ans).run (b.start op row log) = res at hrun ⊢
  cases res with
  | ok terminal t =>
    obtain ⟨s, r', hr, -⟩ := hrun
    have hr' : Ready o r' t.op t.row (afterCommit terminal t ++ t.log) := hr.notes afterCommit_fits
    refine ⟨t.row, r', rfl, hr'.durable, ?_⟩
    rintro b' op' hb' - hop
    cases hb'
    cases hop
    exact hr'
  | error e t =>
    obtain ⟨r', hr⟩ := hrun
    have hfailed : ∀ b' op', some { b with
          op := some t.op
          acctKey := t.acctKey
          armRetry := t.armRetry
          commitFailed := true
          pendingRedeem := t.pendingRedeem } = some b' →
        b'.commitFailed = false → b'.op = some op' → Ready o r' op' t.row t.log := by
      rintro b' op' hb' hc -
      cases hb'
      cases hc
    cases e with
    | crash => exact ⟨t.row, r', rfl, hr.idle⟩
    | failed | postponed => exact ⟨t.row, r', rfl, hr, hfailed⟩

theorem Node.Steady.of_row {row : Row} (hrow : n.row = some row)
    (h : ∃ o r, Sound o r n.child row n.log) : n.Steady := by
  unfold Node.Steady
  rw [hrow]
  exact h

theorem Node.Steady.drop (h : n.Steady) : ({ n with child := none } : Node).Steady := by
  unfold Node.Steady at h ⊢
  split at h
  · next hrow =>
    dsimp only
    rw [hrow]
    exact ⟨rfl, h.2⟩
  next row hrow =>
  obtain ⟨o, r, hs⟩ := h
  dsimp only
  rw [hrow]
  exact ⟨o, r, hs.durable.idle⟩

theorem receive_steady (h : n.Steady) : (n.receive cfg ans).Steady := by
  unfold Node.receive
  cases hc : n.child with
  | none => exact h
  | some b =>
    rcases Option.eq_none_or_eq_some n.row with hrow | ⟨row, hrow⟩
    · unfold Node.Steady at h
      rw [hrow] at h
      cases hc.symm.trans h.1
    unfold Node.Steady at h
    rw [hrow] at h
    obtain ⟨o, r, hs⟩ := h
    dsimp only
    split
    · exact .of_row hrow ⟨o, r, hs.durable.idle⟩
    · exact .of_row hrow ⟨o, r, hs⟩
    next b' hb' =>
    -- What the delivery starts from agrees with the row, reloaded or not.
    have hready : ∀ op, b'.op = some op → Ready o r op row n.log := by
      unfold OpBehavior.reload at hb'
      split at hb'
      · split at hb'
        · cases Option.some.inj hb'
          intro op hop
          rw [hrow] at hop
          cases hop
          exact hs.durable.restore
        · cases hb'
        · cases hb'
      · next hcf =>
        cases Option.some.inj hb'
        have hcf' : b.commitFailed = false := by simpa using hcf
        exact fun op hop => hs.ready b op hc hcf' hop
    split
    · next op row' hop hrow' =>
      cases hrow.symm.trans hrow'
      obtain ⟨row'', r', hr, hsound⟩ := turn_sound (hready op hop) rfl
      exact .of_row hr ⟨o, r', hsound⟩
    refine .of_row hrow ⟨o, r, hs.durable, ?_⟩
    rintro b'' op hb'' - hop
    cases hb''
    exact hready op hop

theorem step_steady (h : n.Steady) (a : Action) : (n.step cfg a).Steady := by
  cases a with
  | admitOp opID msg acctKey reply =>
    change (n.admitted (admission opID msg acctKey reply)).Steady
    unfold Node.admitted
    split
    · next row calls hrow hadmit =>
      obtain ⟨r, hr⟩ := admission_durable hadmit
      exact ⟨row.record, r, hr.idle⟩
    · exact h
  | spawn =>
    change n.spawn.Steady
    unfold Node.spawn
    split
    · next row hc hrow =>
      split
      · exact h
      unfold Node.Steady at h
      rw [hrow] at h
      obtain ⟨o, r, hs⟩ := h
      refine .of_row hrow ⟨o, r, hs.durable, ?_⟩
      rintro b op hb - hop
      cases hb
      cases hop
      exact hs.durable.restore
    · exact h
  | deliver ans => exact receive_steady h
  | reap =>
    change n.reap.Steady
    unfold Node.reap
    split
    · split
      · exact h.drop
      · exact h
    · exact h.drop
  | crash => exact h.drop

theorem run_steady (as : List Action) : ∀ n : Node, n.Steady → (Node.run cfg as n).Steady := by
  induction as with
  | nil => exact fun _ h => h
  | cons a as ih => exact fun n h => ih _ (step_steady h a)

end

/-- Along the whole history of one operation its sends agree, its redemptions agree, it looks for
outputs at the script of their destination, and no call of a state follows a later state in the row.
-/
structure Unchanging (log : List Event) : Prop where
  sends : ∀ d a k x d' a' k' x', .sendOOR d a k x ∈ log → .sendOOR d' a' k' x' ∈ log →
    d = d' ∧ a = a' ∧ k = k'
  redeems : ∀ i k a d i' k' a' d', .redeemCredit i k a d ∈ log →
    .redeemCredit i' k' a' d' ∈ log → d = d' ∧ a = a'
  script : ∀ p, .findLiveVTXOByPkScript p ∈ log → ∃ d, .allocated d p ∈ log ∧
    ∀ i k a d', .redeemCredit i k a d' ∈ log → d' = d
  order : log.Pairwise InOrder

theorem requests_unchanging (cfg : OpActorConfig) (as : List Action) :
    Unchanging (Node.run cfg as {}).log := by
  have h : (Node.run cfg as {}).Steady := run_steady as {} ⟨rfl, rfl⟩
  unfold Node.Steady at h
  split at h
  · rw [h.2]
    exact ⟨nofun, nofun, nofun, .nil⟩
  obtain ⟨o, r, hs, -⟩ := h
  refine ⟨?_, ?_, ?_, hs.order⟩
  · intro d a k x d' a' k' x' h h'
    obtain ⟨-, rfl, rfl, rfl⟩ := hs.sends d a k x h
    obtain ⟨-, rfl, rfl, rfl⟩ := hs.sends d' a' k' x' h'
    exact ⟨rfl, rfl, rfl⟩
  · intro i k a d i' k' a' d' h h'
    obtain ⟨-, rfl, rfl⟩ := hs.redeems i k a d h
    obtain ⟨-, rfl, rfl⟩ := hs.redeems i' k' a' d' h'
    exact ⟨rfl, rfl⟩
  · intro p hp
    obtain ⟨-, rfl, hall⟩ := hs.finds p hp
    exact ⟨_, hall, fun i k a d' h => (hs.redeems i k a d' h).2.1⟩

end Wavelength.Credit
