import Wavelength.Vtxo.Actor

/-! # The shapes of a transition

What the state machine can do with an event, said once. Everything that is proved
about transitions is read off these shapes.
-/

namespace Wavelength.Vtxo

/-- The stored status that goes with a state. -/
@[grind] def State.status : State → Status
  | .live _ => .live
  | .pendingForfeit _ => .pendingForfeit
  | .forfeiting _ _ _ _ => .forfeiting
  | .spending _ => .spending
  | .unilateralExit _ _ => .unilateralExit
  | .expired _ => .expired
  | .spent => .spent
  | .forfeited _ => .forfeited
  | .failed => .failed

/-- The height by which a reserved state decides its release. -/
@[grind] def State.reservedAt : State → Option Height
  | .pendingForfeit height | .spending height | .forfeiting height _ _ _ => some height
  | _ => none

/-- The height of a reserved state that does not record block epochs. -/
def State.fixedAt : State → Option Height
  | .pendingForfeit height | .forfeiting height _ _ _ => some height
  | _ => none

/-- The height that a reservation on request starts from. A manual forfeit of a live
VTXO starts from zero. -/
@[grind] def State.reserves : State → Event → Option Height
  | .live last, .spendReserve | .live last, .forfeitRequest _ (some _) => some last
  | .live _, .pendingForfeit => some 0
  | .expired observed, .pendingForfeit
  | .expired observed, .forfeitRequest _ (some _) => some observed
  | _, _ => none

/-- The states that a failure event ends; the others absorb it. -/
@[grind] def State.canFail : State → Bool
  | .unilateralExit _ _ | .spent | .forfeited _ | .failed => false
  | _ => true

/-- The height written in place, in the states that record it. -/
@[grind] def State.note (height : Height) : State → State
  | .live _ => .live height
  | .spending _ => .spending height
  | .expired _ => .expired height
  | s => s

@[grind] def Event.isEpoch : Event → Bool
  | .blockEpoch _ => true
  | _ => false

/-- The state in which the outbox of a transition is processed. -/
@[grind intro] inductive Notes : State → Event → State → Prop
  | same {s e} : e.isEpoch = false → Notes s e s
  | fixed {s height} : s.note height = s → Notes s (.blockEpoch height) s
  | live {last e height} : automaticRefreshHeight e = some height →
      Notes (.live last) e (.live height)
  | spending {last e height} : automaticRefreshHeight e = some height →
      Notes (.spending last) e (.spending height)
  | expired {last e height} : automaticRefreshHeight e = some height →
      Notes (.expired last) e (.expired height)

/-- What becomes of an event in the state `s`. -/
@[grind intro] inductive Outcome (d : Descriptor) (s : State) (e : Event) : Transition → Prop
  | stay {current} : Outcome d s e ⟨current, current, []⟩
  | again {current blocks reason trigger policy} :
      Outcome d s e ⟨current, current, [.expiring blocks reason trigger policy]⟩
  | adopt {height} : Outcome d s e ⟨.pendingForfeit height, .pendingForfeit height,
      [.forfeitRequest height false true]⟩
  | signed {height round txid txid' tx} :
      Outcome d s e ⟨.forfeiting height round txid tx, .forfeiting height round txid' tx, []⟩
  | exit {current blocks notified trigger policy reason height release} :
      Outcome d s e ⟨current, .unilateralExit reason height,
        [.expiring blocks notified trigger policy, .statusUpdate .unilateralExit none none release]⟩
  | refresh {current height expand member} : automaticRefreshHeight e = some height →
      current = .live height ∨ current = .expired height →
      Outcome d s e ⟨current, .pendingForfeit height,
        [.forfeitRequest height expand member, .statusUpdate .pendingForfeit]⟩
  | reserve {current next height status} : s.reserves e = some height →
      d.taprootAssetRoot = false → next = .spending height ∨ next = .pendingForfeit height →
      next.status = status → Outcome d s e ⟨current, next, [.statusUpdate status]⟩
  | sign {current height round signed tx} : e = .forfeitRequest round signed →
      s.reservedAt = some height ∨ s.reserves e = some height → d.taprootAssetRoot = false →
      Outcome d s e ⟨current, .forfeiting height round tx.txid (some tx),
        [.forfeitSignature round tx, .statusUpdate .forfeiting round (some tx)]⟩
  | free {current next status release} : next.reservedAt = none → next.status = status →
      Outcome d s e ⟨current, next, [.statusUpdate status none none release]⟩
  | finish {current next tx release status reason} : next.reservedAt = none →
      next.status = status → Outcome d s e ⟨current, next,
        [.statusUpdate status none tx release, .terminated status reason]⟩
  | fail {current} : e = .vtxoFailed → s.canFail = true → Outcome d s e ⟨current, .failed, []⟩

@[grind =] theorem stateAfterForfeitRelease_reservedAt :
    (stateAfterForfeitRelease c terms d r).reservedAt = none := by
  unfold stateAfterForfeitRelease
  split <;> rfl

@[grind =] theorem stateAfterForfeitRelease_status :
    releaseStatus (stateAfterForfeitRelease c terms d r) =
      (stateAfterForfeitRelease c terms d r).status := by
  unfold stateAfterForfeitRelease
  split <;> rfl

theorem Notes.reservedAt (h : Notes s e current) (hr : current.reservedAt = some r) :
    automaticRefreshHeight e = some r ∨
      (s.reservedAt = some r ∧ ∀ height, e = .blockEpoch height → s.fixedAt = some r) := by
  cases h with
  | same he =>
    refine .inr ⟨hr, ?_⟩
    rintro height rfl
    cases he
  | fixed hs =>
    cases s with
    | pendingForfeit | forfeiting => exact .inr ⟨hr, fun _ _ => hr⟩
    | spending last =>
      cases hs
      exact .inl hr
    | _ => cases hr
  | live | expired => cases hr
  | spending he =>
    cases hr
    exact .inl he

theorem processForfeiting_spec
    (h : processForfeiting c terms d height newRound txid tx e = .ok t) :
    Notes (.forfeiting height newRound txid tx) e t.current ∧
      Outcome d (.forfeiting height newRound txid tx) e t := by
  cases e <;> simp only [processForfeiting, criticalExit, forcedExit, exitTransition] at h <;>
    grind [stay, forfeitReleaseTransition]

theorem processSpending_spec (h : processSpending c terms d height e = .ok t) :
    Notes (.spending height) e t.current ∧ Outcome d (.spending height) e t := by
  cases e <;> simp only [processSpending, criticalExit, forcedExit, exitTransition] at h <;>
    grind [stay, automaticRefreshHeight]

theorem processLive_spec (h : processLive c terms d height e = .ok t) :
    Notes (.live height) e t.current ∧ Outcome d (.live height) e t := by
  cases e with
  | forfeitRequest round signed =>
    obtain ⟨hroot, tx, rfl, rfl⟩ := handleForfeitRequest_eq_ok h
    exact ⟨.same rfl, .sign rfl (.inr rfl) hroot⟩
  | _ =>
    simp only [processLive, criticalExit, forcedExit, exitTransition] at h
    grind [stay, autoRefreshTransition, automaticRefreshHeight]

theorem processPendingForfeit_spec (h : processPendingForfeit c terms d height e = .ok t) :
    Notes (.pendingForfeit height) e t.current ∧ Outcome d (.pendingForfeit height) e t := by
  cases e with
  | forfeitRequest round signed =>
    obtain ⟨hroot, tx, rfl, rfl⟩ := handleForfeitRequest_eq_ok h
    exact ⟨.same rfl, .sign rfl (.inl rfl) hroot⟩
  | _ =>
    simp only [processPendingForfeit, criticalExit, forcedExit, exitTransition] at h
    grind [stay, forfeitReleaseTransition]

theorem processExpired_spec (h : processExpired c terms d height e = .ok t) :
    Notes (.expired height) e t.current ∧ Outcome d (.expired height) e t := by
  cases e with
  | forfeitRequest round signed =>
    obtain ⟨hroot, tx, rfl, rfl⟩ := handleForfeitRequest_eq_ok h
    exact ⟨.same rfl, .sign rfl (.inr rfl) hroot⟩
  | _ =>
    simp only [processExpired, forfeitReleaseTransition] at h
    grind [stay, automaticRefreshHeight, releaseStatus]

/-- The height is noted before anything else happens. -/
theorem processEvent_spec (h : processEvent c terms d s e = .ok t) :
    Notes s e t.current ∧ Outcome d s e t := by
  cases s with
  | live => exact processLive_spec h
  | pendingForfeit => exact processPendingForfeit_spec h
  | forfeiting => exact processForfeiting_spec h
  | spending => exact processSpending_spec h
  | unilateralExit reason last =>
    cases e <;> simp only [processEvent, processUnilateralExit] at h <;> grind [stay]
  | expired => exact processExpired_spec h
  | spent | forfeited _ | failed =>
    cases h
    cases e with
    | blockEpoch height => exact ⟨.fixed rfl, .stay⟩
    | _ => exact ⟨.same rfl, .stay⟩

end Wavelength.Vtxo
