import Wavelength.Vtxo.Lifecycle
import Wavelength.Vtxo.Transitions

/-! # A forfeited coin stays committed

Once a forfeit signature for a round has gone out, the VTXO is forfeiting, forfeited
or failed until that round releases it or somebody asks for the exit. The row says
the same, so a restart that can read it keeps the commitment.
-/

namespace Wavelength.Vtxo

def State.isForfeiting : State → Bool
  | .forfeiting _ _ _ _ => true
  | _ => false

def State.isUnilateralExit : State → Bool
  | .unilateralExit _ _ => true
  | _ => false

/-- The events that end the commitment to round `R`: its release, and an unroll that is
not driven by expiry. -/
def Event.EndsCommitment (R : RoundId) : Event → Prop
  | .forfeitReleased round => round = R
  | .forceUnroll _ trigger _ => trigger ≠ .criticalExpiry
  | _ => False

instance (R : RoundId) (e : Event) : Decidable (e.EndsCommitment R) := by
  unfold Event.EndsCommitment
  split <;> infer_instance

/-- The forfeiting VTXO processes no event that ends the commitment, and a restart
reads the stored forfeit transaction back. -/
def Holds (R : RoundId) (s : System) : Action → System → Prop
  | .deliver msg _, s' => s.actor.state.isForfeiting = true → s'.ok = true →
      ∀ e ∈ msg.event? s.actor, ¬ e.EndsCommitment R
  | .restart read, _ => s.row.status = .forfeiting → read = true

instance (R : RoundId) (s : System) (a : Action) (s' : System) : Decidable (Holds R s a s') := by
  unfold Holds
  split <;> infer_instance

section Signature

theorem processEvent_signature (h : processEvent c terms d state e = .ok t)
    (hsig : .forfeitSignature R tx ∈ t.outbox) :
    ∃ height, t.next = .forfeiting height R tx.txid (some tx) ∧
      t.outbox = [.forfeitSignature R tx, .statusUpdate .forfeiting R (some tx)] := by
  cases (processEvent_spec h).2 with
  | @sign _ height round _ tx' _ _ _ =>
    obtain ⟨rfl, rfl⟩ : R = round ∧ tx = tx' := by simpa using hsig
    exact ⟨height, rfl, rfl⟩
  | _ => simp at hsig

end Signature

structure Committed (R : RoundId) (s : System) : Prop where
  state : (∃ height txid tx, s.actor.state = .forfeiting height R txid (some tx)) ∨
    (∃ round, s.actor.state = .forfeited round) ∨ s.actor.state = .failed
  row : (s.row.status = .forfeiting ∧ s.row.forfeitRoundId = R ∧ s.row.forfeitTx.isSome = true) ∨
    s.row.status = .forfeited

namespace Committed

theorem isLive_eq_false (h : Committed R s) : s.actor.state.isLive = false := by
  obtain ⟨height, txid, tx, hs⟩ | ⟨round, hs⟩ | hs := h.state <;> rw [hs] <;> rfl

theorem isUnilateralExit_eq_false (h : Committed R s) : s.actor.state.isUnilateralExit = false := by
  obtain ⟨height, txid, tx, hs⟩ | ⟨round, hs⟩ | hs := h.state <;> rw [hs] <;> rfl

theorem restart {read : Bool} (h : Committed R s) (hread : s.row.status = .forfeiting → read = true) :
    Committed R (Vtxo.restart s read) := by
  refine ⟨?_, h.row⟩
  simp only [Vtxo.restart, newActor, statusToState]
  obtain ⟨hstatus, hround, htx⟩ | hstatus := h.row
  · obtain ⟨tx, htx⟩ := Option.isSome_iff_exists.1 htx
    rw [hread hstatus, hstatus, hround, htx]
    exact .inl ⟨0, 0, tx, rfl⟩
  · rw [hstatus]
    exact .inr (.inl ⟨_, rfl⟩)

/-- What a forfeiting VTXO with an issued signature does with an event that does not
end its commitment. -/
theorem forfeiting_transition (he : ¬ e.EndsCommitment R)
    (h : processForfeiting c terms d height R txid (some tx) e = .ok t) :
    (∃ txid', t.next = .forfeiting height R txid' (some tx) ∧ t.outbox = []) ∨
      (t.next = .forfeited R ∧ t.outbox = [.statusUpdate .forfeited none (some tx),
        .terminated .forfeited (.forfeitedInRound R)]) ∨
      (t.next = .failed ∧ t.outbox = []) := by
  have hissued : forfeitSignatureIssued txid (some tx) = true := by simp [forfeitSignatureIssued]
  cases e with
  | forfeitSigned txid' =>
    cases h
    exact .inl ⟨txid', rfl, rfl⟩
  | forfeitConfirmed =>
    cases h
    exact .inr (.inl ⟨rfl, rfl⟩)
  | vtxoFailed =>
    cases h
    exact .inr (.inr ⟨rfl, rfl⟩)
  | resume =>
    cases h
    exact .inl ⟨txid, rfl, rfl⟩
  | blockEpoch h' =>
    -- the guard on the signature keeps a critical block from starting an exit
    simp only [processForfeiting, hissued, Bool.true_eq_false, and_false, if_false] at h
    cases h
    exact .inl ⟨txid, rfl, rfl⟩
  | forceUnroll reason trigger policy =>
    have htrigger : trigger = .criticalExpiry := by
      simpa [Event.EndsCommitment] using he
    simp only [processForfeiting, hissued, htrigger, and_self, if_true] at h
    cases h
    exact .inl ⟨txid, rfl, rfl⟩
  | forfeitReleased round =>
    have hround : round ≠ R := he
    simp only [processForfeiting, hround, ne_eq, not_false_eq_true, or_true, if_true] at h
    cases h
  | _ => cases h

/-- A forfeiting VTXO requests nothing and writes nothing into its state before the
outbox has gone out. -/
theorem forfeiting_current {round : RoundId}
    (h : processForfeiting c terms d height round txid tx e = .ok t) :
    t.current = .forfeiting height round txid tx ∧
      t.outbox.any OutMsg.isForfeitRequest = false := by
  cases e with
  | blockEpoch h' | forceUnroll reason trigger policy =>
    simp only [processForfeiting] at h
    split at h <;> cases h <;> exact ⟨rfl, rfl⟩
  | forfeitReleased round' =>
    simp only [processForfeiting] at h
    split at h <;> cases h
    exact ⟨rfl, rfl⟩
  | forfeitSigned _ | forfeitConfirmed | resume | vtxoFailed =>
    cases h
    exact ⟨rfl, rfl⟩
  | _ => cases h

theorem processOutbox_stay {a : Actor} {row : Row} {state : State} {r : Receipt}
    (hr : r = processOutbox a row ans e t)
    (ht : Except.ok (stay state) = (.ok t : Except Refusal Transition)) :
    r.actor.state = state ∧ r.row = row := by
  cases ht
  obtain ⟨-, ⟨-, hstate, -, ⟨hrow, -⟩ | hreq⟩ | ⟨-, hstate, -, hrow, -⟩⟩ := processOutbox_cases hr
  · exact ⟨hstate, hrow⟩
  · cases hreq
  · exact ⟨hstate, hrow⟩

theorem deliver (h : Committed R s) (hG : Holds R s (.deliver msg ans) (Vtxo.deliver cfg s msg ans))
    :
    Committed R (Vtxo.deliver cfg s msg ans) := by
  obtain hq | ⟨event, a', e, t, hev, hran⟩ := receive_cases cfg s.actor s.row ans msg
  · have hstate := hq.state.eq_of_not_live h.isLive_eq_false
    exact ⟨by simpa only [Vtxo.deliver, hstate] using h.state,
      by simpa only [Vtxo.deliver, hq.row] using h.row⟩
  -- the event runs as it came: the checks divert only live and pending VTXOs
  obtain ⟨-, he⟩ := hran.admitted.process e rfl
  have ht := hran.transition
  have hout := processOutbox_cases hran.receipt
  obtain ⟨height, txid, tx, hs⟩ | ⟨round, hs⟩ | hs := h.state
  · obtain rfl : e = event := by
      obtain he | ⟨_, -, -, ⟨_, hl⟩ | ⟨_, hp⟩⟩ := he
      · exact he
      · rw [hs] at hl
        cases hl
      · rw [hs] at hp
        cases hp
    rw [hs] at ht
    obtain ⟨hcurrent, hreq⟩ := forfeiting_current ht
    obtain ⟨-, ⟨hok, hstate, -, hrow⟩ | ⟨hok, hstate, -, hrow, -, -⟩⟩ := hout
    · -- the write has failed
      have hrow : (receive s.actor s.row ans cfg msg).row = s.row := by
        rcases hrow with hrow | hreq'
        · exact hrow.1
        · rw [hreq] at hreq'
          cases hreq'
      rw [hcurrent] at hstate
      exact ⟨.inl ⟨_, _, _, hstate⟩, by simpa only [Vtxo.deliver, hrow] using h.row⟩
    · have hends := hG (by rw [hs]; rfl) hok e (by rw [hev]; rfl)
      obtain ⟨txid', hnext, hbox⟩ | ⟨hnext, hbox⟩ | ⟨hnext, hbox⟩ := forfeiting_transition hends ht
      · rw [hnext] at hstate
        rw [hbox, List.foldl_nil] at hrow
        exact ⟨.inl ⟨_, _, _, hstate⟩, by simpa only [Vtxo.deliver, hrow] using h.row⟩
      · rw [hnext] at hstate
        rw [hbox] at hrow
        exact ⟨.inr (.inl ⟨_, hstate⟩), .inr (by simp only [Vtxo.deliver, hrow]; rfl)⟩
      · rw [hnext] at hstate
        rw [hbox, List.foldl_nil] at hrow
        exact ⟨.inr (.inr hstate), by simpa only [Vtxo.deliver, hrow] using h.row⟩
  · rw [hs] at ht
    obtain ⟨hstate, hrow⟩ := processOutbox_stay hran.receipt ht
    exact ⟨.inr (.inl ⟨_, hstate⟩), by simpa only [Vtxo.deliver, hrow] using h.row⟩
  · rw [hs] at ht
    obtain ⟨hstate, hrow⟩ := processOutbox_stay hran.receipt ht
    exact ⟨.inr (.inr hstate), by simpa only [Vtxo.deliver, hrow] using h.row⟩

theorem step (h : Committed R s) (hG : Holds R s a s') (hstep : (lifecycle cfg).step s a = some s') :
    Committed R s' := by
  cases a with
  | deliver msg ans =>
    cases hstep
    exact h.deliver hG
  | restart read =>
    cases hstep
    exact h.restart hG

/-- A signature goes out together with the commitment in the row. -/
theorem of_signature (hstep : (lifecycle cfg).step s a = some s')
    (hsig : .forfeitSignature R tx ∈ s'.outbox) : Committed R s' := by
  cases a with
  | restart read =>
    cases hstep
    cases hsig
  | deliver msg ans =>
    cases hstep
    have hsig : .forfeitSignature R tx ∈ (receive s.actor s.row ans cfg msg).outbox := hsig
    obtain hq | ⟨event, a', e, t, -, hran⟩ := receive_cases cfg s.actor s.row ans msg
    · rw [hq.outbox] at hsig
      cases hsig
    have hout := processOutbox_cases hran.receipt
    obtain ⟨-, ⟨-, -, hbox, -⟩ | ⟨-, hstate, hbox, hrow, -⟩⟩ := hout
    · rw [hbox] at hsig
      cases hsig
    rw [hbox] at hsig
    obtain ⟨height, hnext, hbox'⟩ := processEvent_signature hran.transition hsig
    rw [hnext] at hstate
    rw [hbox'] at hrow
    exact ⟨.inl ⟨_, _, _, hstate⟩, .inl (by simp only [Vtxo.deliver, hrow]; exact ⟨rfl, rfl, rfl⟩)⟩

end Committed

variable {cfg : Config} {R : RoundId} {s s' : System}

/-- After a forfeit signature for round `R` the VTXO neither becomes live again nor
exits, until round `R` releases it or somebody asks for the exit. -/
theorem committed_until_released {a : Action} {tx : Tx} {mid : List Action}
    (hstep : (lifecycle cfg).step s a = some s') (hsig : .forfeitSignature R tx ∈ s'.outbox)
    (hmid : (lifecycle cfg).Along (Holds R) s' mid) :
    (lifecycle cfg).Along (fun _ _ t =>
      t.actor.state.isLive = false ∧ t.actor.state.isUnilateralExit = false) s' mid := by
  have hinv := Machine.along_invariant (Committed R) (fun _ _ _ h hG hstep => h.step hG hstep)
    (Committed.of_signature hstep hsig) hmid
  refine hinv.imp fun _ _ t _ ⟨_, _, _, h⟩ => ?_
  exact ⟨h.isLive_eq_false, h.isUnilateralExit_eq_false⟩

/-- Live at height 10, with the expiry 100 blocks ahead. -/
def liveAtTen : System where
  actor := newActor { batchExpiry := 110, createdHeight := 10 } {} true
  row := {}

def signFor (R : ℕ) : Action := .deliver (.event (.forfeitRequest (some R) (some ⟨7⟩))) {}

/-- A stale release, a critical block, an exit on expiry and a restart, then the
confirmation. -/
def pressed : List Action :=
  [.deliver (.event (.forfeitReleased (some 3))) {}, .deliver (.event (.blockEpoch 80)) {},
    .restart true, .deliver (.event (.forceUnroll none .criticalExpiry none)) {},
    .deliver (.event (.blockEpoch 90)) {}, .deliver (.event .forfeitConfirmed) {}]

theorem pressed_committed :
    ((lifecycle {}).run liveAtTen (signFor 4 :: pressed)).map (·.actor.state) =
      some (.forfeited (some 4)) ∧
    (lifecycle {}).Along (fun _ _ t =>
      t.actor.state.isLive = false ∧ t.actor.state.isUnilateralExit = false)
      (deliver {} liveAtTen (.event (.forfeitRequest (some 4) (some ⟨7⟩))) {}) pressed := by
  refine ⟨by decide, ?_⟩
  exact committed_until_released (a := signFor 4) (R := some 4) rfl (List.mem_cons_self ..) (by decide)

/-- The exit is asked for, and the chain resolver gives it up. -/
def askedAndGivenUp : List Action :=
  [signFor 4, .deliver (.event (.forceUnroll none .manual none)) {},
    .deliver (.event .exitFailed) {}]

/-- The stored forfeit transaction cannot be read at a restart; then a critical block
comes. -/
def readBackFails : List Action :=
  [signFor 4, .restart false, .deliver (.event (.blockEpoch 80)) {}]

/-- Without any release the VTXO is live again after an exit on request, and starts an
exit because of expiry after a restart that has lost the transaction. -/
theorem askedAndGivenUp_live_and_readBackFails_exits :
    ((lifecycle {}).run liveAtTen (askedAndGivenUp.take 1)).map (·.outbox.take 1) =
      some [.forfeitSignature (some 4) ⟨7⟩] ∧
    ((lifecycle {}).run liveAtTen askedAndGivenUp).map (fun s => (s.actor.state, s.row.status)) =
      some (.live 0, .live) ∧
    ((lifecycle {}).run liveAtTen readBackFails).map (fun s => (s.actor.state, s.outbox.take 1)) =
      some (.unilateralExit .criticalExpiry 80, [.expiring 30 .roundStalled .criticalExpiry none]) := by
  decide

end Wavelength.Vtxo
