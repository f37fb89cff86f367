import Wavelength.Mailbox.Delivery

/-! # The retry budget on the two claim paths

A leased claim counts as an attempt, which a postpone gives back. A peeked claim counts
nothing, and the nack by id does. Here one delivery after the other is claimed and settled
on either path, next to the account of the budget that both of them keep.
-/

namespace Wavelength.Mailbox

/-- The inner select of the claim queries; rows that tie come in the order of the table. -/
def nextMailboxMessage (rows : List Row) (mailboxId : MailboxId) (now : ℤ) : Option Row :=
  rows.find? (·.IsNext rows mailboxId now)

/-- How a delivery ends: the payload does not decode, or the behavior returns. -/
inductive Ending
  | poison (reason : String)
  | returned (o : Outcome)

/-- One delivery. `promise` says that the promise of an ask is still registered. -/
structure Attempt where
  claimedAt : ℤ
  handledAt : ℤ
  token : LeaseToken := 0
  promise : Bool := false
  ending : Ending

def Attempt.promiseOf (a : Attempt) (m : Row) : Bool := a.promise && m.promiseId.isSome

section Paths

variable (cfg : Config) (st : Store) (a : Attempt)

def leaseNextMessage : Option (Delivery × Store) :=
  (nextMailboxMessage st.messages.rows cfg.mailboxId a.claimedAt).map fun m =>
    let leaseUntil := a.claimedAt + cfg.leaseDuration
    (.ofRow (m.lease a.token leaseUntil) (a.promiseOf m),
      st.leaseMailboxMessage m.id a.token leaseUntil)

def peekNextMessage : Option (Delivery × Store) :=
  (nextMailboxMessage st.messages.rows cfg.mailboxId a.claimedAt).map fun m =>
    (.ofPeekedRow m (a.promiseOf m), st)

def claimNext : Option (Delivery × Store) :=
  if cfg.leaseless then peekNextMessage cfg st a else leaseNextMessage cfg st a

end Paths

def Plan.run (d : Delivery) (now : ℤ) : Plan → Store → Store
  | .done, st => st
  | .op o onOk onErr, st =>
    match o.exec d now st with
    | some st' => onOk.run d now st'
    | none => onErr.run d now st

section Settle

variable (cfg : Config) (d : Delivery) (now : ℤ) (st : Store)

/-- What the actor does with the outcome, on the path that its behavior takes. -/
def finish (o : Outcome) : Store :=
  match cfg.path with
  | .inTx =>
    match handleResultInTx cfg d o now st with
    | .ok st' => st'
    | .error .lostLeaseMidTurn => st
    | .error (.failed err) => (d.nack err 10).run d now st
  | .exec =>
    if d.isDurableAsk then
      match rejectDurableAsk d st with
      | .ok st' => st'
      | .error err => (d.nack err 10).run d now st
    else (finishNonTx cfg d o "").run d now st
  | .nonTx => (finishNonTx cfg d o "").run d now st

def settle : Ending → Store
  | .poison reason => (handlePoisonMessage d reason).run d now st
  | .returned o =>
    if d.id ∈ st.processed then (Plan.thenOnOk .ack .done).run d now st
    else finish cfg d now st o

end Settle

def deliver (cfg : Config) (st : Store) (a : Attempt) : Store :=
  match claimNext cfg st a with
  | none => st
  | some (d, st') => settle cfg d a.handledAt st' a.ending

def deliveries (cfg : Config) (st : Store) (as : List Attempt) : Store := as.foldl (deliver cfg) st

section Account

inductive Verdict
  | retried (availableAt attempts : ℤ)
  | deadLettered
  | done
  deriving DecidableEq

def Verdict.update (v : Verdict) (id : MessageId) (t : Table Row Row.id) : Table Row Row.id :=
  match v with
  | .retried availableAt attempts => t.modify id (Row.release availableAt attempts) Row.release_id
  | .deadLettered | .done => t.delete id

def Row.isTell (m : Row) (promise : Bool) : Bool :=
  !(m.callbackActorId.isSome && m.correlationId.isSome) && !promise

/-- The outcome of a tell: a failure counts as an attempt and the row goes once the budget or the
retry policy ends; a postpone counts nothing. -/
def outcomeVerdict (policy : String → ℤ → Bool × ℤ) (m : Row) (now : ℤ) : Outcome → Verdict
  | .ok => .done
  | .postponed delay => .retried (now + delay) m.attempts
  | .failed err =>
    if (policy err (m.attempts + 1)).1 && m.attempts + 1 < m.maxAttempts then
      .retried (now + (policy err (m.attempts + 1)).2) (m.attempts + 1)
    else .deadLettered

/-- The account on the end of a delivery. Asks and messages processed before are done with
their first return. -/
def verdict (policy : String → ℤ → Bool × ℤ) (m : Row) (tell processed : Bool) (now : ℤ) :
    Ending → Verdict
  | .poison _ =>
    if m.maxAttempts ≤ m.attempts + 1 then .deadLettered else .retried (now + 60) (m.attempts + 1)
  | .returned o => if processed || !tell then .done else outcomeVerdict policy m now o

/-- No attempt is counted below zero, and no message in the mailbox has a dead letter. -/
structure Store.Sound (st : Store) : Prop where
  nonneg : ∀ m ∈ st.messages.rows, 0 ≤ m.attempts
  unburied : ∀ m ∈ st.messages.rows, st.deadLetters.get? m.id = none

def Store.buried (st : Store) : List MessageId := st.deadLetters.rows.map DeadLetter.id

structure Applied (m : Row) (v : Verdict) (st st' : Store) : Prop where
  messages : st'.messages = v.update m.id st.messages
  buried : st'.buried = st.buried ++ if v = .deadLettered then [m.id] else []
  others : ∀ i, i ≠ m.id → (i ∈ st'.processed ↔ i ∈ st.processed)
  processed : ∀ availableAt attempts, v = .retried availableAt attempts →
    st'.processed = st.processed

end Account

variable {id : MessageId}

section Claimed

variable {cfg : Config} {st st₁ st₂ : Store} {m : Row} {d : Delivery} {promise : Bool} {now r : ℤ}

/-- A delivery of the row `m` and the store that its claim has left, as the operations on it
see them. -/
structure Claimed (m : Row) (st : Store) (promise : Bool) (d : Delivery) (st₁ : Store) : Prop where
  id : d.id = m.id
  attempts : d.effectiveAttempts = m.attempts + 1
  maxAttempts : d.maxAttempts = m.maxAttempts
  ask : d.isAsk = promise
  durable : d.isDurableAsk = (m.callbackActorId.isSome && m.correlationId.isSome)
  others : st₁ = { st with messages := st₁.messages }
  row : ∃ m', st₁.messages.get? m.id = some m' ∧ m'.id = m.id
  deleted : st₁.messages.delete m.id = st.messages.delete m.id
  ack : ∀ {st₂}, st₂.messages = st₁.messages → ackMessage st₂ m.id d.leaseToken =
    ({ st₂ with messages := st.messages.delete m.id }, 1)
  nack : ∀ {st₂ now r}, st₂.messages = st₁.messages → nackMessage st₂ m.id now r d.leaseToken =
    ({ st₂ with messages :=
      (Verdict.retried (now + r) (m.attempts + 1)).update m.id st.messages }, 1)
  postpone : ∀ {st₂ now r}, st₂.messages = st₁.messages →
    postponeMessage st₂ m.id now r d.leaseToken =
      ({ st₂ with messages := (Verdict.retried (now + r) m.attempts).update m.id st.messages }, 1)

theorem updateWhere_of_get? (h : st.messages = t) (hm : t.get? id = some m) (hp : p m = true)
    (ht : t.modify id f hf = t') : st.updateWhere id p f hf = ({ st with messages := t' }, 1) := by
  simp [Store.updateWhere, Store.modifyMessage, h, hm, hp, ht]

theorem deleteWhere_of_get? (h : st.messages = t) (hm : t.get? id = some m) (hp : p m = true)
    (ht : t.delete id = t') : st.deleteWhere id p = ({ st with messages := t' }, 1) := by
  simp [Store.deleteWhere, Store.deleteMailboxMessage, h, hm, hp, ht]

theorem claimed_of_peek (hm : st.messages.get? m.id = some m) :
    Claimed m st promise (.ofPeekedRow m promise) st where
  id := rfl
  attempts := rfl
  maxAttempts := rfl
  ask := rfl
  durable := rfl
  others := rfl
  row := ⟨m, hm, rfl⟩
  deleted := rfl
  ack h := deleteWhere_of_get? h hm rfl rfl
  nack {_ now r} h := by
    apply updateWhere_of_get? h hm rfl
    exact Table.modify_congr (fun m => m.release_id) Row.release_id hm rfl
  postpone {_ now r} h := by
    apply updateWhere_of_get? h hm rfl
    exact Table.modify_congr (fun m => m.release_id) Row.release_id hm rfl

theorem claimed_of_lease (hm : st.messages.get? m.id = some m) (hnonneg : 0 ≤ m.attempts) :
    Claimed m st promise (.ofRow (m.lease token leaseUntil) promise)
      (st.leaseMailboxMessage m.id token leaseUntil) := by
  have hget : (st.leaseMailboxMessage m.id token leaseUntil).messages.get? m.id =
      some (m.lease token leaseUntil) := by
    simp [Store.leaseMailboxMessage, Store.modifyMessage, Table.get?_modify, hm]
  have hheld : Store.heldBy token (m.lease token leaseUntil) = true := by
    simp [Store.heldBy, Row.lease]
  have hdel : (st.leaseMailboxMessage m.id token leaseUntil).messages.delete m.id =
      st.messages.delete m.id := by
    exact Table.delete_modify Row.lease_id
  refine ⟨rfl, rfl, rfl, rfl, rfl, rfl, ⟨_, hget, rfl⟩, hdel, ?_, ?_, ?_⟩
  · intro st₂ h
    exact deleteWhere_of_get? h hget hheld hdel
  · intro st₂ now r h
    apply updateWhere_of_get? h hget hheld
    exact Table.modify_modify Row.lease_id (fun m => m.release_id) Row.release_id hm rfl
  intro st₂ now r h
  apply updateWhere_of_get? h hget hheld
  refine Table.modify_modify Row.lease_id (fun m => m.release_id) Row.release_id hm ?_
  -- the attempt of the claim is given back
  have hpos : 0 < m.attempts + 1 := by omega
  simp [Row.release, Row.lease, hpos]

theorem Claimed.bury (now : ℤ) (reason : String) (h : Claimed m st promise d st₁)
    (hst : st₂.messages = st₁.messages) (hdead : st₂.deadLetters.get? m.id = none) :
    ∃ letters, st₂.moveToDeadLetter m.id reason now =
        some { st₂ with messages := st.messages.delete m.id, deadLetters := letters } ∧
      letters.rows.map DeadLetter.id = st₂.buried ++ [m.id] := by
  obtain ⟨m', hm', hid⟩ := h.row
  refine ⟨st₂.deadLetters.insertIgnore ⟨m'.id, m'.mailboxId, m'.messageType, m'.payload, reason,
    m'.attempts, now⟩, ?_, ?_⟩
  · simp [Store.moveToDeadLetter, hst, hm', Table.insert?, hid, hdead, Store.deleteMailboxMessage, h.deleted]
  · have hnone : st₂.deadLetters.get? m'.id = none := by rw [hid, hdead]
    rw [Table.rows_insertIgnore hnone, List.map_append, List.map_singleton, hid, Store.buried]

/-- A store that differs from the claimed one in marks on the claimed row only. -/
structure Pending (m : Row) (st st₁ st₂ : Store) : Prop where
  messages : st₂.messages = st₁.messages
  letters : st₂.deadLetters = st.deadLetters
  others : ∀ i, i ≠ m.id → (i ∈ st₂.processed ↔ i ∈ st.processed)

theorem Claimed.pending (h : Claimed m st promise d st₁) : Pending m st st₁ st₁ := by
  have hst := h.others
  refine ⟨rfl, ?_, fun i _ => ?_⟩
  · rw [hst]
  · rw [hst]

theorem Pending.mark (h : Pending m st st₁ st₂) : Pending m st st₁ (st₂.markMessageProcessed m.id) := by
  refine ⟨h.messages, h.letters, fun i hi => ?_⟩
  rw [mem_markMessageProcessed, h.others i hi, or_iff_left hi]

namespace Claimed

variable (h : Claimed m st promise d st₁)
include h

theorem applied_nack :
    Applied m (.retried (now + r) (m.attempts + 1)) st
      (nackMessage st₁ m.id now r d.leaseToken).1 := by
  rw [h.nack rfl, h.others]
  exact ⟨rfl, by simp [Store.buried], fun _ _ => Iff.rfl, fun _ _ _ => rfl⟩

theorem applied_postpone :
    Applied m (.retried (now + r) m.attempts) st (postponeMessage st₁ m.id now r d.leaseToken).1 := by
  rw [h.postpone rfl, h.others]
  exact ⟨rfl, by simp [Store.buried], fun _ _ => Iff.rfl, fun _ _ _ => rfl⟩

theorem applied_ack (hp : Pending m st st₁ st₂) :
    Applied m .done st (ackMessage st₂ m.id d.leaseToken).1 := by
  rw [h.ack hp.messages]
  exact ⟨rfl, by simp [Store.buried, hp.letters], hp.others, nofun⟩

omit h

theorem applied_bury (now : ℤ) (reason : String) (h : Claimed m st promise d st₁)
    (hp : Pending m st st₁ st₂) (hdead : st.deadLetters.get? m.id = none) :
    ∃ st', st₂.moveToDeadLetter m.id reason now = some st' ∧ Applied m .deadLettered st st' ∧
      Applied m .deadLettered st (st'.deleteMailboxMessage m.id) := by
  obtain ⟨letters, hmove, hletters⟩ := h.bury now reason hp.messages
    (by rw [hp.letters]; exact hdead)
  have hburied : letters.rows.map DeadLetter.id = st.buried ++ [m.id] := by
    rw [hletters, Store.buried, hp.letters, Store.buried]
  refine ⟨_, hmove, ⟨rfl, ?_, hp.others, nofun⟩, ⟨Table.delete_delete, ?_, hp.others, nofun⟩⟩
  · simpa [Store.buried] using hburied
  · simpa [Store.buried, Store.deleteMailboxMessage] using hburied

theorem run_bury (h : Claimed m st promise d st₁) (hp : Pending m st st₁ st₂)
    (hdead : st.deadLetters.get? m.id = none) :
    Applied m .deadLettered st
      ((Plan.op (.moveToDeadLetter reason) (.thenOnOk .deleteMessage .done) onErr).run d now st₂) := by
  obtain ⟨st', hmove, -, happlied⟩ := h.applied_bury now reason hp hdead
  simp only [Plan.run, StoreOp.exec, h.id, hmove, Plan.thenOnOk]
  exact happlied

theorem run_release (st' : Store) (ho : o.exec d now st₁ = requireRows (st', n + 1))
    (hv : Applied m v st st') : Applied m v st ((Plan.thenOnOk o .done).run d now st₁) := by
  simp only [Plan.thenOnOk, Plan.run, ho, requireRows]
  exact hv

theorem run_nack (now r : ℤ) (reason : String) (h : Claimed m st promise d st₁)
    (hdead : st.deadLetters.get? m.id = none) :
    Applied m (if m.maxAttempts ≤ m.attempts + 1 then .deadLettered
      else .retried (now + r) (m.attempts + 1)) st
      (Plan.run d now (if d.shouldDeadLetter then
        .thenOnOk (.moveToDeadLetter reason) (.thenOnOk .deleteMessage .done)
      else .thenOnOk (.nack r) .done) st₁) := by
  simp only [Delivery.shouldDeadLetter, h.attempts, h.maxAttempts, decide_eq_true_eq]
  split
  · exact h.run_bury h.pending hdead
  · apply run_release (nackMessage st₁ m.id now r d.leaseToken).1
    · rw [StoreOp.exec, h.id, h.nack rfl]
    · exact h.applied_nack

theorem run_ack (now : ℤ) (k : Plan) (h : Claimed m st promise d st₁) (hp : Pending m st st₁ st₂) :
    ∃ st', Applied m .done st st' ∧ (d.ack k).run d now st₂ = k.run d now st' := by
  have happlied := h.applied_ack hp
  rw [h.ack hp.messages] at happlied
  by_cases hask : d.isAsk = true
  · refine ⟨({ st₂ with messages := st.messages.delete m.id }.insertAskResult m.id), ?_, ?_⟩
    · exact ⟨happlied.messages, happlied.buried, happlied.others, happlied.processed⟩
    · simp [Delivery.ack, hask, Plan.thenOnOk, Plan.run, StoreOp.exec, h.id, h.ack hp.messages, requireRows]
  · refine ⟨_, happlied, ?_⟩
    simp only [Delivery.ack, if_neg hask, Plan.thenOnOk, Plan.run, StoreOp.exec, h.id,
      h.ack hp.messages, requireRows]

theorem applied_mark (h : Applied m .done st st') :
    Applied m .done st (st'.markMessageProcessed m.id) := by
  refine ⟨h.messages, h.buried, fun i hi => ?_, nofun⟩
  rw [mem_markMessageProcessed, h.others i hi, or_iff_left hi]

end Claimed

theorem Pending.respond (h : Pending m st st₁ st₂) (ids : List MessageId) :
    Pending m st st₁ { st₂ with askResponses := ids } :=
  ⟨h.messages, h.letters, h.others⟩

section Finish

variable {o : Outcome}

variable (h : Claimed m st promise d st₁)
include h

theorem Claimed.finishNonTx_tell
    (hdead : st.deadLetters.get? m.id = none) (hask : d.isAsk = false)
    (hdurable : d.isDurableAsk = false) :
    Applied m (outcomeVerdict cfg.tellRetryPolicy m now o) st
      ((finishNonTx cfg d o "").run d now st₁) := by
  have hmark := h.pending.mark
  simp only [finishNonTx, hask, shouldMarkProcessed, hdurable, handleResult, h.attempts,
    Bool.false_eq_true, if_false]
  cases o with
  | ok =>
    obtain ⟨st', happlied, hrun⟩ := h.run_ack now .done hmark
    simp only [if_true, Plan.thenAlways, Plan.run, StoreOp.exec, h.id]
    rw [hrun]
    exact happlied
  | postponed delay =>
    simp only [Bool.false_eq_true, if_false]
    apply Claimed.run_release (postponeMessage st₁ m.id now delay d.leaseToken).1
    · rw [StoreOp.exec, h.id, h.postpone rfl]
    · exact h.applied_postpone
  | failed err =>
    rcases hpolicy : cfg.tellRetryPolicy err (m.attempts + 1) with ⟨retry, delay⟩
    cases retry with
    | false =>
      simp only [outcomeVerdict, hpolicy, Bool.not_false, if_true, Plan.thenAlways, Plan.run,
        StoreOp.exec, h.id, Bool.false_and, Bool.false_eq_true, if_false]
      have hbury : Applied m .deadLettered st ((Plan.thenAlways (.moveToDeadLetter
          ("retry policy exhausted: " ++ err)) (.thenOnOk .deleteMessage .done)).run d now
          (st₁.markMessageProcessed m.id)) := h.run_bury hmark hdead
      simpa only [Plan.thenAlways, Plan.run, StoreOp.exec, h.id] using hbury
    | true =>
      have hnack : Applied m _ st ((d.nack err delay).run d now st₁) := h.run_nack now delay _ hdead
      simp only [outcomeVerdict, hpolicy, Bool.not_true, Bool.false_eq_true, if_false, if_true,
        Bool.true_and, decide_eq_true_eq]
      by_cases hlt : m.attempts + 1 < m.maxAttempts
      · rw [if_neg (by omega)] at hnack
        rwa [if_pos hlt]
      · rw [if_pos (by omega)] at hnack
        rwa [if_neg hlt]

theorem Claimed.finishNonTx_ask (hask : d.isAsk = true) :
    Applied m .done st ((finishNonTx cfg d o "").run d now st₁) := by
  obtain ⟨st', happlied, hrun⟩ := h.run_ack now (.thenOnOk .markProcessed .done) h.pending
  simp only [finishNonTx, hask, if_true]
  rw [hrun]
  simp only [Plan.thenOnOk, Plan.run, StoreOp.exec, h.id]
  exact Claimed.applied_mark happlied

theorem Claimed.finishNonTx_durable (hask : d.isAsk = false)
    (hdurable : d.isDurableAsk = true) :
    Applied m .done st ((finishNonTx cfg d o "").run d now st₁) := by
  have hpending := (h.pending.respond (st₁.askResponses ++ [m.id])).mark
  obtain ⟨st', happlied, hrun⟩ := h.run_ack now .done hpending
  simp only [finishNonTx, hask, shouldMarkProcessed, handleResult, hdurable, if_true,
    Bool.false_eq_true, if_false, Plan.thenAlways, Plan.run, StoreOp.exec, h.id]
  rw [hrun]
  exact happlied

theorem Claimed.ackInTx (hp : Pending m st st₁ st₂) :
    ∃ st', Mailbox.ackInTx d st₂ = .ok st' ∧ Applied m .done st st' := by
  have happlied := h.applied_ack hp
  rw [h.ack hp.messages] at happlied
  simp only [Mailbox.ackInTx, h.id, h.ack hp.messages, requireRows]
  refine ⟨_, rfl, ?_⟩
  split
  · exact ⟨happlied.messages, happlied.buried, happlied.others, happlied.processed⟩
  · exact happlied

theorem Claimed.handleResultInTx_tell
    (hdead : st.deadLetters.get? m.id = none) (hask : d.isAsk = false)
    (hdurable : d.isDurableAsk = false) :
    ∃ st', handleResultInTx cfg d o now st₁ = .ok st' ∧
      Applied m (outcomeVerdict cfg.tellRetryPolicy m now o) st st' := by
  simp only [handleResultInTx, hask, hdurable, h.id, h.attempts, Bool.false_eq_true, if_false]
  cases o with
  | ok => exact h.ackInTx h.pending.mark
  | postponed delay =>
    have happlied : Applied m (.retried (now + delay) m.attempts) st
      (postponeMessage st₁ m.id now delay d.leaseToken).1 := h.applied_postpone
    dsimp only
    rw [h.postpone rfl] at happlied ⊢
    exact ⟨_, rfl, happlied⟩
  | failed err =>
    rcases hpolicy : cfg.tellRetryPolicy err (m.attempts + 1) with ⟨retry, delay⟩
    simp only [Delivery.shouldDeadLetter, h.attempts, h.maxAttempts, outcomeVerdict, hpolicy]
    have hbudget : (!decide (m.maxAttempts ≤ m.attempts + 1)) =
        decide (m.attempts + 1 < m.maxAttempts) := by
      rw [← decide_not, decide_eq_decide]
      omega
    rw [hbudget]
    split
    · have happlied : Applied m (.retried (now + delay) (m.attempts + 1)) st
        (nackMessage st₁ m.id now delay d.leaseToken).1 := h.applied_nack
      rw [h.nack rfl] at happlied ⊢
      exact ⟨_, rfl, happlied⟩
    obtain ⟨st', hmove, happlied, -⟩ := h.applied_bury now
      (if decide (m.maxAttempts ≤ m.attempts + 1) = true then "max attempts reached: " ++ err
        else err) h.pending.mark hdead
    rw [hmove]
    exact ⟨st', rfl, happlied⟩

theorem Claimed.isTell : m.isTell promise = (!d.isDurableAsk && !d.isAsk) := by
  rw [Row.isTell, h.durable, h.ask]

theorem Claimed.finish (hdead : st.deadLetters.get? m.id = none) :
    Applied m (if m.isTell promise then outcomeVerdict cfg.tellRetryPolicy m now o else .done) st
      (Mailbox.finish cfg d now st₁ o) := by
  rw [h.isTell]
  have hnonTx : Applied m (if (!d.isDurableAsk && !d.isAsk) = true then
      outcomeVerdict cfg.tellRetryPolicy m now o else .done) st
      ((finishNonTx cfg d o "").run d now st₁) := by
    cases hask : d.isAsk with
    | true => simpa using h.finishNonTx_ask hask
    | false =>
      cases hdurable : d.isDurableAsk with
      | true => simpa using h.finishNonTx_durable hask hdurable
      | false => simpa using h.finishNonTx_tell hdead hask hdurable
  unfold Mailbox.finish
  cases cfg.path with
  | nonTx => exact hnonTx
  | exec =>
    cases hdurable : d.isDurableAsk with
    | false => simpa [hdurable] using hnonTx
    | true =>
      have hpending := (h.pending.respond (st₁.askResponses ++ [m.id])).mark
      have happlied := h.applied_ack hpending
      rw [h.ack hpending.messages] at happlied
      simp only [if_true, rejectDurableAsk, h.id, h.ack hpending.messages, requireRows]
      exact happlied
  | inTx =>
    cases hdurable : d.isDurableAsk with
    | true =>
      obtain ⟨st', hst', happlied⟩ := h.ackInTx (h.pending.respond (st₁.askResponses ++ [m.id])).mark
      simp only [handleResultInTx, hdurable, if_true, h.id, hst']
      exact happlied
    | false =>
      cases hask : d.isAsk with
      | true =>
        obtain ⟨st', hst', happlied⟩ := h.ackInTx h.pending.mark
        simp only [handleResultInTx, hdurable, hask, if_true, h.id, hst', Bool.false_eq_true, if_false]
        exact happlied
      | false =>
        obtain ⟨st', hst', happlied⟩ := @Claimed.handleResultInTx_tell cfg _ _ _ _ _ now o h hdead hask hdurable
        simp only [hst']
        exact happlied

omit h

end Finish

end Claimed

section Deliveries

variable {cfg : Config} {st st' : Store}

theorem mem_of_next (h : nextMailboxMessage rows mailboxId now = some m) : m ∈ rows :=
  List.mem_of_find?_eq_some h

theorem deliver_of_none (h : nextMailboxMessage st.messages.rows cfg.mailboxId a.claimedAt = none) :
    deliver cfg st a = st := by
  have hclaim : claimNext cfg st a = none := by
    simp [claimNext, peekNextMessage, leaseNextMessage, h]
  simp only [deliver, hclaim]

theorem deliver_applied (hst : st.Sound)
    (hm : nextMailboxMessage st.messages.rows cfg.mailboxId a.claimedAt = some m) :
    Applied m (verdict cfg.tellRetryPolicy m (m.isTell (a.promiseOf m)) (m.id ∈ st.processed)
      a.handledAt a.ending) st (deliver cfg st a) := by
  have hrow := mem_of_next hm
  have hget := Table.mem_rows_iff.1 hrow
  have hdead := hst.unburied m hrow
  obtain ⟨d, st₁, hclaim, h⟩ : ∃ d st₁, claimNext cfg st a = some (d, st₁) ∧
      Claimed m st (a.promiseOf m) d st₁ := by
    unfold claimNext
    split
    · exact ⟨_, _, by simp [peekNextMessage, hm], claimed_of_peek hget⟩
    have hlease : leaseNextMessage cfg st a =
        some (.ofRow (m.lease a.token (a.claimedAt + cfg.leaseDuration)) (a.promiseOf m),
          st.leaseMailboxMessage m.id a.token (a.claimedAt + cfg.leaseDuration)) := by
      simp [leaseNextMessage, hm]
    exact ⟨_, _, hlease, claimed_of_lease hget (hst.nonneg m hrow)⟩
  simp only [deliver, hclaim]
  cases a.ending with
  | poison reason => exact h.run_nack _ _ _ hdead
  | returned o =>
    have hprocessed : st₁.processed = st.processed := by rw [h.others]
    simp only [settle, verdict, h.id, hprocessed]
    by_cases hin : m.id ∈ st.processed
    · simp only [hin, if_true, decide_true, Bool.true_or]
      apply Claimed.run_release (ackMessage st₁ m.id d.leaseToken).1
      · rw [StoreOp.exec, h.id, h.ack rfl]
      · exact h.applied_ack h.pending
    have hfinish := @Claimed.finish cfg _ _ _ _ _ a.handledAt o h hdead
    simp only [hin, if_false, decide_false, Bool.false_or]
    cases htell : m.isTell (a.promiseOf m) with
    | true | false => simpa [htell] using hfinish

theorem verdict_nonneg {tell : Bool} {availableAt attempts : ℤ} (hm : 0 ≤ m.attempts)
    (hv : verdict policy m tell processed now e = .retried availableAt attempts) :
    0 ≤ attempts := by
  cases e with
  | poison reason =>
    simp only [verdict] at hv
    split at hv
    · cases hv
    · cases hv
      omega
  | returned o =>
    simp only [verdict] at hv
    split at hv
    · cases hv
    cases o with
    | ok => cases hv
    | postponed delay =>
      cases hv
      exact hm
    | failed err =>
      simp only [outcomeVerdict] at hv
      split at hv
      · cases hv
        omega
      · cases hv

theorem mem_buried_iff : st.deadLetters.get? id = none ↔ id ∉ st.buried := Table.get?_eq_none_iff

theorem Applied.mem_rows (h : Applied m v st st') (hm : st.messages.get? m.id = some m)
    (hm' : m' ∈ st'.messages.rows) :
    (∃ availableAt attempts, v = .retried availableAt attempts ∧
      m' = m.release availableAt attempts) ∨ m'.id ≠ m.id ∧ m' ∈ st.messages.rows := by
  rw [Table.mem_rows_iff, h.messages] at hm'
  cases v with
  | retried availableAt attempts =>
    simp only [Verdict.update, Table.get?_modify] at hm'
    split at hm'
    · next hid =>
      rw [hid, hm] at hm'
      exact .inl ⟨_, _, rfl, (Option.some.inj hm').symm⟩
    · next hid => exact .inr ⟨hid, Table.mem_rows_iff.2 hm'⟩
  | deadLettered | done =>
    simp only [Verdict.update, Table.get?_delete] at hm'
    split at hm'
    · cases hm'
    · next hid => exact .inr ⟨hid, Table.mem_rows_iff.2 hm'⟩

theorem Applied.sound (h : Applied m v st st') (hst : st.Sound) (hm : st.messages.get? m.id = some m)
    (hv : ∀ availableAt attempts, v = .retried availableAt attempts → 0 ≤ attempts) : st'.Sound := by
  refine ⟨fun m' hm' => ?_, fun m' hm' => ?_⟩
  · obtain ⟨availableAt, attempts, hretried, rfl⟩ | ⟨-, hm'⟩ := h.mem_rows hm hm'
    · exact hv availableAt attempts hretried
    · exact hst.nonneg m' hm'
  rw [mem_buried_iff, h.buried]
  obtain ⟨availableAt, attempts, rfl, rfl⟩ | ⟨hne, hm'⟩ := h.mem_rows hm hm'
  · simpa using mem_buried_iff.1 (hst.unburied m (Table.mem_of_get? hm))
  · have hold := mem_buried_iff.1 (hst.unburied m' hm')
    split <;> simp [hold, hne]

theorem Sound.deliver (hst : st.Sound) : (Mailbox.deliver cfg st a).Sound := by
  cases hm : nextMailboxMessage st.messages.rows cfg.mailboxId a.claimedAt with
  | none =>
    rw [deliver_of_none hm]
    exact hst
  | some m =>
    have hrow := mem_of_next hm
    exact (deliver_applied hst hm).sound hst (Table.mem_rows_iff.1 hrow)
      fun _ _ hv => verdict_nonneg (hst.nonneg m hrow) hv

structure Agree (st st' : Store) : Prop where
  messages : st'.messages = st.messages
  buried : st'.buried = st.buried
  processed : ∀ m ∈ st.messages.rows, (m.id ∈ st'.processed ↔ m.id ∈ st.processed)

theorem Agree.refl : Agree st st := ⟨rfl, rfl, fun _ _ => Iff.rfl⟩

variable (h : Agree st st') (hst : st.Sound)
include h hst

theorem Agree.sound : st'.Sound := by
  refine ⟨fun m hm => hst.nonneg m (h.messages ▸ hm), fun m hm => ?_⟩
  rw [mem_buried_iff, h.buried, ← mem_buried_iff]
  exact hst.unburied m (h.messages ▸ hm)

/-- The simulation: equal mailboxes stay equal through a delivery, however it is claimed. -/
theorem Agree.deliver
    (hpolicy : cfg'.tellRetryPolicy = cfg.tellRetryPolicy) (hbox : cfg'.mailboxId = cfg.mailboxId) :
    Agree (Mailbox.deliver cfg st a) (Mailbox.deliver cfg' st' a) := by
  have hsame : nextMailboxMessage st'.messages.rows cfg'.mailboxId a.claimedAt =
      nextMailboxMessage st.messages.rows cfg.mailboxId a.claimedAt := by
    rw [h.messages, hbox]
  cases hm : nextMailboxMessage st.messages.rows cfg.mailboxId a.claimedAt with
  | none =>
    rw [deliver_of_none hm, deliver_of_none (hsame.trans hm)]
    exact h
  | some m =>
    have hrow := mem_of_next hm
    have hget := Table.mem_rows_iff.1 hrow
    have happ := deliver_applied hst hm
    have happ' := deliver_applied (h.sound hst) (hsame.trans hm)
    have hmark : decide (m.id ∈ st'.processed) = decide (m.id ∈ st.processed) :=
      decide_eq_decide.2 (h.processed m hrow)
    rw [hpolicy, hmark] at happ'
    refine ⟨?_, ?_, fun m' hm' => ?_⟩
    · rw [happ'.messages, happ.messages, h.messages]
    · rw [happ'.buried, happ.buried, h.buried]
    obtain ⟨availableAt, attempts, hv, rfl⟩ | ⟨hne, hm'⟩ := happ.mem_rows hget hm'
    · rw [happ'.processed _ _ hv, happ.processed _ _ hv]
      exact h.processed m hrow
    · rw [happ'.others _ hne, happ.others _ hne]
      exact h.processed m' hm'

theorem Agree.deliveries (hpolicy : cfg'.tellRetryPolicy = cfg.tellRetryPolicy)
    (hbox : cfg'.mailboxId = cfg.mailboxId) :
    Agree (Mailbox.deliveries cfg st as) (Mailbox.deliveries cfg' st' as) := by
  induction as generalizing st st' with
  | nil => exact h
  | cons a as ih => exact ih (h.deliver hst hpolicy hbox) (Sound.deliver hst)

omit h hst

/-- The same actor with a single worker on the read/commit path, which peeks. -/
def Config.single (cfg : Config) : Config := { cfg with numWorkers := 1, path := .exec }

/-- The actor that leases and the one that peeks hold the same rows, have dead-lettered the same
messages and claim the same row, and a postponed tell keeps its count of attempts on both. -/
theorem leased_and_peeked_same_budget (hst : st.Sound) (as : List Attempt) :
    ((deliveries cfg.single st as).messages = (deliveries cfg st as).messages ∧
      (deliveries cfg.single st as).buried = (deliveries cfg st as).buried) ∧
    (∀ a, (peekNextMessage cfg.single st a).map (·.1.id) =
      (leaseNextMessage cfg st a).map (·.1.id)) ∧
    ∀ c ∈ [cfg, cfg.single], ∀ a m delay, a.ending = .returned (.postponed delay) →
      nextMailboxMessage st.messages.rows cfg.mailboxId a.claimedAt = some m →
      m.isTell (a.promiseOf m) = true → m.id ∉ st.processed →
      (deliver c st a).messages.get? m.id = some (m.release (a.handledAt + delay) m.attempts) := by
  have hagree : Agree (deliveries cfg st as) (deliveries cfg.single st as) :=
    Agree.refl.deliveries hst rfl rfl
  refine ⟨⟨hagree.messages, hagree.buried⟩, fun a => ?_, fun c hc a m delay hending hm htell hnew => ?_⟩
  · simp only [peekNextMessage, leaseNextMessage, Option.map_map]
    rfl
  have hm' : nextMailboxMessage st.messages.rows c.mailboxId a.claimedAt = some m := by
    rcases List.mem_pair.1 hc with rfl | rfl
    · exact hm
    · exact hm
  have happ := (deliver_applied hst hm').messages
  simp only [hending, verdict, htell, hnew, decide_false, Bool.not_true, Bool.or_self,
    Bool.false_eq_true, if_false, outcomeVerdict, Verdict.update] at happ
  rw [happ, Table.get?_modify, if_pos rfl, Table.mem_rows_iff.1 (mem_of_next hm)]
  rfl

def leasingPool : Config where
  mailboxId := 1
  path := .exec
  numWorkers := 2

def oneTell : Store := Store.empty.enqueueMailboxMessage { id := 7, mailboxId := 1, maxAttempts := 3 }

def failAt (t : ℤ) : Attempt :=
  { claimedAt := t, handledAt := t + 1, ending := .returned (.failed "unavailable") }

def failedThrice : List Attempt :=
  [failAt 0, failAt 10, { failAt 20 with ending := .returned (.postponed 5) }, failAt 30]

theorem failedThrice_same_budget :
    ((deliveries leasingPool oneTell failedThrice).buried = [7] ∧
      (deliveries leasingPool oneTell (failedThrice.take 3)).buried = []) ∧
    (deliveries leasingPool.single oneTell failedThrice).buried =
      (deliveries leasingPool oneTell failedThrice).buried :=
  ⟨by decide, (leased_and_peeked_same_budget ⟨by decide, by decide⟩ failedThrice).1.2⟩

end Deliveries

end Wavelength.Mailbox
