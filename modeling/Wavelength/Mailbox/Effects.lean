import Wavelength.Mailbox.Worker

/-! # What the operations of a delivery do to the mailbox

Every store operation that a worker makes for its delivery touches at most the
row of that delivery. `RowAct` lists what can become of the row, and each
operation and each transaction is shown to act in one of these ways.
-/

namespace Wavelength.Mailbox

variable {d : Delivery} {st st' : Store} {id : MessageId} {pending : Prop}

/-- The token does not stand in the way of an operation on the row: it is the
row's, or the delivery was peeked and operates by id. -/
def Owns (token : Option LeaseToken) (m : Row) : Prop := token = none ∨ m.leaseToken = token

instance (token : Option LeaseToken) (m : Row) : Decidable (Owns token m) :=
  inferInstanceAs (Decidable (_ ∨ _))

theorem owns_some_iff {token : LeaseToken} : Owns (some token) m ↔ m.leaseToken = some token := by
  simp [Owns]

section RequireRows

theorem requireRows_updateWhere :
    requireRows (st.updateWhere id p f hf) = some st' ↔
      ∃ m, st.messages.get? id = some m ∧ p m ∧ st' = st.modifyMessage id f hf := by
  unfold Store.updateWhere
  cases st.messages.get? id with
  | none => simp [requireRows]
  | some m =>
    by_cases hp : p m <;> simp [hp, requireRows, eq_comm (a := st')]

theorem requireRows_deleteWhere :
    requireRows (st.deleteWhere id p) = some st' ↔
      ∃ m, st.messages.get? id = some m ∧ p m ∧ st' = st.deleteMailboxMessage id := by
  unfold Store.deleteWhere
  cases st.messages.get? id with
  | none => simp [requireRows]
  | some m =>
    by_cases hp : p m <;> simp [hp, requireRows, eq_comm (a := st')]

theorem requireRows_ackMessage :
    requireRows (ackMessage st id token) = some st' ↔
      ∃ m, st.messages.get? id = some m ∧ Owns token m ∧ st' = st.deleteMailboxMessage id := by
  cases token with
  | none => simp [ackMessage, Store.ackMailboxMessageById, requireRows_deleteWhere, Owns]
  | some token =>
    simp [ackMessage, Store.ackMailboxMessage, requireRows_deleteWhere, owns_some_iff, Store.heldBy]

/-- The attempts a nack leaves: a peeked delivery counts its attempt only here. -/
def nackAttempts (token : Option LeaseToken) (m : Row) : ℤ :=
  if token = none then m.attempts + 1 else m.attempts

/-- The attempts a postpone leaves: those of before the delivery. -/
def postponeAttempts (token : Option LeaseToken) (m : Row) : ℤ :=
  if token = none then m.attempts else if 0 < m.attempts then m.attempts - 1 else 0

theorem requireRows_nackMessage :
    requireRows (nackMessage st id now retryAfter token) = some st' ↔
      ∃ m, st.messages.get? id = some m ∧ Owns token m ∧
        st' = st.modifyMessage id (fun m => m.release (now + retryAfter) (nackAttempts token m))
          fun m => m.release_id := by
  cases token with
  | none => exact requireRows_updateWhere.trans (by simp [Owns, nackAttempts])
  | some token =>
    exact requireRows_updateWhere.trans (by simp [owns_some_iff, Store.heldBy, nackAttempts])

theorem requireRows_postponeMessage :
    requireRows (postponeMessage st id now retryAfter token) = some st' ↔
      ∃ m, st.messages.get? id = some m ∧ Owns token m ∧
        st' = st.modifyMessage id (fun m => m.release (now + retryAfter) (postponeAttempts token m))
          fun m => m.release_id := by
  cases token with
  | none => exact requireRows_updateWhere.trans (by simp [Owns, postponeAttempts])
  | some token =>
    exact requireRows_updateWhere.trans (by simp [owns_some_iff, Store.heldBy, postponeAttempts])

theorem requireRows_extendMailboxLease {token : LeaseToken} {leaseUntil : ℤ} :
    requireRows (st.extendMailboxLease id token leaseUntil) = some st' ↔
      ∃ m, st.messages.get? id = some m ∧ m.leaseToken = some token ∧
        st' = st.modifyMessage id (Row.extend leaseUntil) Row.extend_id := by
  exact requireRows_updateWhere.trans (by simp [Store.heldBy])

end RequireRows

/-- What can become of a row through its delivery. A release needs that the delivery is `pending`;
an extension sets `leaseUntil`. -/
inductive RowAct (pending : Prop) (leaseUntil : ℤ) (d : Delivery) (m : Row) : Option Row → Prop
  | same : RowAct pending leaseUntil d m (some m)
  | removed : RowAct pending leaseUntil d m none
  | nacked (availableAt : ℤ) : pending → Owns d.leaseToken m → d.shouldDeadLetter = false →
      RowAct pending leaseUntil d m (some (m.release availableAt (nackAttempts d.leaseToken m)))
  | postponed (availableAt : ℤ) : pending → Owns d.leaseToken m →
      RowAct pending leaseUntil d m (some (m.release availableAt (postponeAttempts d.leaseToken m)))
  | extended (token : LeaseToken) : d.leaseToken = some token → m.leaseToken = some token →
      RowAct pending leaseUntil d m (some (m.extend leaseUntil))

/-- The store changes in the delivery's row only, and there as `RowAct` allows. -/
structure Acts (pending : Prop) (leaseUntil : ℤ) (d : Delivery) (st st' : Store) : Prop where
  other : ∀ i, i ≠ d.id → st'.messages.get? i = st.messages.get? i
  absent : st.messages.get? d.id = none → st'.messages.get? d.id = none
  own : ∀ m, st.messages.get? d.id = some m → RowAct pending leaseUntil d m (st'.messages.get? d.id)
  marks : ∀ i ∈ st.processed, i ∈ st'.processed

namespace Acts

theorem refl (d : Delivery) (st : Store) : Acts pending leaseUntil d st st :=
  ⟨fun _ _ => rfl, id, fun _ hm => by rw [hm]; exact .same, fun _ h => h⟩

theorem of_messages_eq (h : Acts pending leaseUntil d st st₁) (hm : st₂.messages = st₁.messages)
    (hp : ∀ i ∈ st₁.processed, i ∈ st₂.processed) : Acts pending leaseUntil d st st₂ :=
  ⟨by rw [hm]; exact h.other, by rw [hm]; exact h.absent, by rw [hm]; exact h.own,
    fun i hi => hp i (h.marks i hi)⟩

theorem of_eq_messages (h : Acts pending leaseUntil d st st') (hm : st.messages = st₀.messages)
    (hp : ∀ i ∈ st₀.processed, i ∈ st.processed) : Acts pending leaseUntil d st₀ st' :=
  ⟨by rw [← hm]; exact h.other, by rw [← hm]; exact h.absent, by rw [← hm]; exact h.own,
    fun i hi => h.marks i (hp i hi)⟩

theorem delete (d : Delivery) (st : Store) : Acts pending leaseUntil d st (st.deleteMailboxMessage d.id) where
  other i hi := by simp [Store.deleteMailboxMessage, hi]
  absent _ := by simp [Store.deleteMailboxMessage]
  own m _ := by
    simp only [Store.deleteMailboxMessage, Table.get?_delete, if_true]
    exact .removed
  marks _ h := h

theorem modify
    (h : ∀ m, st.messages.get? d.id = some m → RowAct pending leaseUntil d m (some (f m))) :
    Acts pending leaseUntil d st (st.modifyMessage d.id f hf) where
  other i hi := by simp [Store.modifyMessage, Table.get?_modify, hi]
  absent hn := by simp [Store.modifyMessage, Table.get?_modify, hn]
  own m hm := by
    simp only [Store.modifyMessage, Table.get?_modify, if_true, hm, Option.map_some]
    exact h m hm
  marks _ h := h

end Acts

theorem acts_markMessageProcessed : Acts pending leaseUntil d st (st.markMessageProcessed id) :=
  (Acts.refl d st).of_messages_eq rfl fun i hi => by simp [hi]

theorem acts_ack (h : requireRows (ackMessage st d.id d.leaseToken) = some st') :
    Acts pending leaseUntil d st st' := by
  obtain ⟨m, hm, -, rfl⟩ := requireRows_ackMessage.1 h
  exact .delete d st

theorem acts_nack (hp : pending) (hd : d.shouldDeadLetter = false)
    (h : requireRows (nackMessage st d.id now retryAfter d.leaseToken) = some st') :
    Acts pending leaseUntil d st st' := by
  obtain ⟨m, hm, hown, rfl⟩ := requireRows_nackMessage.1 h
  refine .modify fun m' hm' => ?_
  cases hm.symm.trans hm'
  exact .nacked _ hp hown hd

theorem acts_postpone (hp : pending)
    (h : requireRows (postponeMessage st d.id now retryAfter d.leaseToken) = some st') :
    Acts pending leaseUntil d st st' := by
  obtain ⟨m, hm, hown, rfl⟩ := requireRows_postponeMessage.1 h
  refine .modify fun m' hm' => ?_
  cases hm.symm.trans hm'
  exact .postponed _ hp hown

theorem acts_extend {token : LeaseToken} (ht : d.leaseToken = some token)
    (h : requireRows (st.extendMailboxLease d.id token leaseUntil) = some st') :
    Acts pending leaseUntil d st st' := by
  obtain ⟨m, hm, hown, rfl⟩ := requireRows_extendMailboxLease.1 h
  refine .modify fun m' hm' => ?_
  cases hm.symm.trans hm'
  exact .extended token ht hown

theorem acts_moveToDeadLetter (h : st.moveToDeadLetter d.id reason now = some st') :
    Acts pending leaseUntil d st st' := by
  unfold Store.moveToDeadLetter at h
  split at h
  · cases h
    exact .refl d st
  · obtain ⟨t, -, rfl⟩ := Option.map_eq_some_iff.1 h
    exact (Acts.delete d st).of_messages_eq rfl fun _ h => h

/-- The plan releases the row only while the delivery is unsettled, and nacks only
within its attempts. -/
def Plan.Sound (d : Delivery) : Bool → Plan → Prop
  | _, done => True
  | settled, op o onOk onErr =>
    (match o with
      | .nack _ => settled = false ∧ d.shouldDeadLetter = false
      | .postpone _ => settled = false
      | _ => True) ∧
      onOk.Sound d (settled || o.settles) ∧ onErr.Sound d settled

section Plans

open Plan

theorem sound_ack (hk : k.Sound d true) : (d.ack k).Sound d false := by
  unfold Delivery.ack
  split <;> simp [thenOnOk, Sound, StoreOp.settles, hk]

theorem sound_nack : Plan.Sound d false (if d.shouldDeadLetter then
    thenOnOk (.moveToDeadLetter reason) (thenOnOk .deleteMessage done)
    else thenOnOk (.nack retryAfter) done) := by
  split
  · simp [thenOnOk, Sound]
  · simp_all [thenOnOk, Sound]

theorem sound_handleResult : (handleResult cfg d o outboxErr).Sound d false := by
  have hack : (d.ack done).Sound d false := sound_ack trivial
  unfold handleResult
  split
  · simp [thenAlways, Sound, StoreOp.settles, hack, Delivery.nack, sound_nack]
  split
  · exact hack
  cases o with
  | ok => exact hack
  | postponed delay => simp [thenOnOk, Sound]
  | failed err =>
    dsimp only
    split
    · exact sound_nack
    · simp [thenAlways, thenOnOk, Sound]

theorem sound_finishNonTx : (finishNonTx cfg d o outboxErr).Sound d false := by
  have h : (handleResult cfg d o outboxErr).Sound d false := sound_handleResult
  unfold finishNonTx
  split
  · exact sound_ack (by simp [thenOnOk, Sound])
  · split
    · simp [thenAlways, Sound, StoreOp.settles, h]
    · exact h

end Plans

section Transactions

theorem StoreOp.exec_acts {o : StoreOp}
    (hn : ∀ r, o = .nack r → pending ∧ d.shouldDeadLetter = false)
    (hp : ∀ r, o = .postpone r → pending) (h : o.exec d now st = some st') :
    Acts pending leaseUntil d st st' := by
  cases o with
  | writeAskResponse | saveAskResult =>
    cases h
    exact (Acts.refl d st).of_messages_eq rfl fun _ h => h
  | markProcessed =>
    cases h
    exact acts_markMessageProcessed
  | ack => exact acts_ack h
  | nack r => exact acts_nack (hn r rfl).1 (hn r rfl).2 h
  | postpone r => exact acts_postpone (hp r rfl) h
  | moveToDeadLetter reason => exact acts_moveToDeadLetter h
  | deleteMessage =>
    cases h
    exact .delete d st

theorem acts_ackInTx (h : ackInTx d st = .ok st') : Acts pending leaseUntil d st st' := by
  unfold ackInTx at h
  split at h
  · cases h
  next st₁ hst₁ =>
  cases h
  split
  · exact (acts_ack hst₁).of_messages_eq rfl fun _ h => h
  · exact acts_ack hst₁

theorem releasedRowsInTx_eq_ok (h : releasedRowsInTx d r = .ok st') : r.1 = st' := by
  obtain ⟨st₁, n⟩ := r
  cases n with
  | zero =>
    simp only [releasedRowsInTx] at h
    split at h
    · exact Except.ok.inj h
    · cases h
  | succ n => exact Except.ok.inj h

theorem fst_updateWhere :
    (st.updateWhere id p f hf).1 = (requireRows (st.updateWhere id p f hf)).getD st := by
  unfold Store.updateWhere
  cases st.messages.get? id with
  | none => rfl
  | some m => by_cases hp : p m <;> simp [hp, requireRows]

theorem acts_of_rows (hr : r.1 = (requireRows r).getD st)
    (h : ∀ st', requireRows r = some st' → Acts pending leaseUntil d st st') :
    Acts pending leaseUntil d st r.1 := by
  rw [hr]
  cases hrows : requireRows r with
  | none => exact .refl d st
  | some st' => exact h st' hrows

theorem handleResultInTx_acts (hp : pending) (h : handleResultInTx cfg d o now st = .ok st') :
    Acts pending leaseUntil d st st' := by
  have hmark : ∀ i ∈ st.processed, i ∈ (st.markMessageProcessed d.id).processed :=
    fun i hi => by simp [hi]
  unfold handleResultInTx at h
  split at h
  · exact (acts_ackInTx h).of_eq_messages rfl fun i hi => by simp [hi]
  split at h
  · exact (acts_ackInTx h).of_eq_messages rfl hmark
  cases o with
  | ok => exact (acts_ackInTx h).of_eq_messages rfl hmark
  | postponed delay =>
    obtain rfl := releasedRowsInTx_eq_ok h
    exact acts_of_rows (by cases d.leaseToken <;> exact fst_updateWhere) fun _ => acts_postpone hp
  | failed err =>
    dsimp only at h
    split at h
    · next hretry =>
      obtain rfl := releasedRowsInTx_eq_ok h
      exact acts_of_rows (by cases d.leaseToken <;> exact fst_updateWhere)
        fun _ => acts_nack hp (by simp_all)
    · split at h
      · cases h
      · next st₁ hst₁ =>
        cases h
        exact (acts_moveToDeadLetter hst₁).of_eq_messages rfl hmark

theorem rejectDurableAsk_acts (h : rejectDurableAsk d st = .ok st') : Acts pending leaseUntil d st st' := by
  unfold rejectDurableAsk at h
  split at h
  · cases h
  · next st₁ hst₁ =>
    cases h
    exact (acts_ack hst₁).of_eq_messages rfl fun i hi => by simp [hi]

theorem execStage_acts {fnOk : Bool}
    (h : execStage d st leaseUntil fnOk = some st') : Acts pending leaseUntil d st st' := by
  unfold execStage at h
  split at h
  · split at h
    · cases h
      exact .refl d st
    · cases h
  next token ht =>
  obtain ⟨st₁, hst₁, h⟩ := Option.bind_eq_some_iff.1 h
  split at h
  · cases h
    exact acts_extend ht hst₁
  · cases h

/-- A commit takes effect exactly when the write function succeeds and the row is
there under the delivery's token; it then removes the row and marks its id. -/
theorem execCommit_eq_some_iff :
    execCommit d st fnOk = some st' ↔
      fnOk = true ∧ ∃ m, st.messages.get? d.id = some m ∧ Owns d.leaseToken m ∧
        st' = (st.deleteMailboxMessage d.id).markMessageProcessed d.id := by
  unfold execCommit
  simp only [Option.bind_eq_some_iff, requireRows_ackMessage]
  constructor
  · rintro ⟨st₁, ⟨m, hm, hown, rfl⟩, h⟩
    split at h
    · next hfn => exact ⟨hfn, m, hm, hown, (Option.some.inj h).symm⟩
    · cases h
  · rintro ⟨rfl, m, hm, hown, rfl⟩
    exact ⟨_, ⟨m, hm, hown, rfl⟩, rfl⟩

theorem execCommit_acts (h : execCommit d st fnOk = some st') :
    Acts pending leaseUntil d st st' := by
  obtain ⟨-, m, -, -, rfl⟩ := execCommit_eq_some_iff.1 h
  exact (Acts.delete d st).of_messages_eq rfl fun i hi => by simp [hi]

end Transactions

end Wavelength.Mailbox
