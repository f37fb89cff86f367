import Wavelength.Vtxo.Lifecycle
import Wavelength.Vtxo.Transitions

/-! # Expired value is not offered again

A release decides by the height that the reserved state remembers. That is enough as
long as no height gets lost on the way: every block at or past the expiry is recorded,
and every reservation made later starts from a recorded height.
-/

namespace Wavelength.Vtxo

def Event.isRelease : Event → Bool
  | .spendReleased | .forfeitReleased _ => true
  | _ => false

/-- Heights do not go back. -/
def Ordered (s : System) (m : Msg × Answers) : Prop :=
  ∀ height ∈ m.1.height? s.actor, ∀ last ∈ s.lastHeight, last ≤ height

/-- A block at or past the expiry reaches a state that records it or has recorded such a height
before, and a reservation granted after it starts from a height past the expiry. -/
def Remembers (s : System) (m : Msg × Answers) : Prop :=
  (∀ height ∈ m.1.epoch? s.actor, ∀ r ∈ s.actor.state.fixedAt,
    let d := (noteEpoch s.actor m.2 (.blockEpoch height)).desc
    d.Past height → d.Past r) ∧
  (s.expirySeen = true → s.actor.desc.taprootAssetRoot = false → m.2.writeOk = true →
    ∀ e ∈ m.1.event? s.actor, ∀ r ∈ s.actor.state.reserves e, s.actor.desc.Past r)

-- Heights are a finite type: without this instance in front, deciding a statement on
-- the height of an option may go through every height.
instance {p : Height → Prop} [DecidablePred p] (o : Option Height) :
    Decidable (∀ height ∈ o, p height) :=
  Option.decidableForallMem o

instance (s : System) (m : Msg × Answers) : Decidable (Ordered s m) := by
  unfold Ordered
  infer_instance

instance (s : System) (m : Msg × Answers) : Decidable (Remembers s m) := by
  unfold Remembers
  infer_instance

/-- After a block at or past the expiry a release neither makes the VTXO live nor
persists the live status. -/
def NotOffered (s : System) (m : Msg × Answers) (s' : System) : Prop :=
  s.expirySeen = true → ∀ e ∈ m.1.event? s.actor, e.isRelease = true →
    (s'.actor.state.isLive = true → s.actor.state.isLive = true) ∧ .live ∉ s'.writes

instance (s : System) (m : Msg × Answers) (s' : System) : Decidable (NotOffered s m s') := by
  unfold NotOffered
  infer_instance

variable {cfg : Config} {s s' : System}

section Heights

/-- Where the height of a reserved state comes from: the event, the state before, or
the reservation that the event asks for. -/
theorem processEvent_reservedAt (h : processEvent c terms d state e = .ok t)
    (hr : t.next.reservedAt = some r) :
    automaticRefreshHeight e = some r ∨
      (state.reservedAt = some r ∧ ∀ height, e = .blockEpoch height → state.fixedAt = some r) ∨
      (state.reserves e = some r ∧ d.taprootAssetRoot = false ∧
        t.outbox.filterMap OutMsg.status? ≠ []) := by
  obtain ⟨hnotes, hout⟩ := processEvent_spec h
  cases hout with
  | stay | again | adopt | signed => exact (hnotes.reservedAt hr).imp_right .inl
  | refresh he _ =>
    cases hr
    exact .inl he
  | reserve hres hroot hnext _ =>
    refine .inr (.inr ⟨?_, hroot, nofun⟩)
    rcases hnext with rfl | rfl <;> cases hr <;> exact hres
  | sign he hres hroot =>
    cases hr
    rcases hres with hres | hres
    · exact .inr (.inl ⟨hres, by rw [he]; nofun⟩)
    · exact .inr (.inr ⟨hres, hroot, nofun⟩)
  | free hnone _ | finish hnone _ =>
    rw [hnone] at hr
    cases hr
  | exit | fail => cases hr

theorem stateAfterForfeitRelease_of_past (hp : d.Past r) :
    stateAfterForfeitRelease c terms d r = .expired r := by
  unfold stateAfterForfeitRelease
  rw [if_pos ⟨hp.pos, hp.checkExpiry⟩]

/-- The transition of a release that neither leads to nor writes the live status. -/
structure Transition.Quarantined (t : Transition) : Prop where
  current : t.current.isLive = false
  next : t.next.isLive = false
  requests : t.outbox.any OutMsg.isForfeitRequest = false
  writes : .live ∉ t.outbox.filterMap OutMsg.status?

/-- The release of a state that remembers a height past the expiry. -/
theorem processEvent_release (h : processEvent c terms d state e = .ok t)
    (he : e.isRelease = true) (hp : ∀ r ∈ state.reservedAt, d.Past r) : t.Quarantined := by
  have hexpired : Status.live ∉ [Status.expired] := by decide
  cases state with
  | live last =>
    cases e with
    | spendReleased | forfeitReleased _ => cases h
    | _ => cases he
  | pendingForfeit requested =>
    cases e with
    | forfeitReleased round =>
      cases h
      rw [stateAfterForfeitRelease_of_past (hp _ rfl)]
      exact ⟨rfl, rfl, rfl, hexpired⟩
    | spendReleased => cases h
    | _ => cases he
  | forfeiting height round txid tx =>
    cases e with
    | forfeitReleased round' =>
      simp only [processEvent, processForfeiting, stateAfterForfeitRelease_of_past (hp _ rfl)] at h
      split at h
      · cases h
      · cases h
        exact ⟨rfl, rfl, rfl, hexpired⟩
    | spendReleased => cases h
    | _ => cases he
  | spending last =>
    cases e with
    | spendReleased =>
      simp only [processEvent, processSpending, stateAfterForfeitRelease_of_past (hp _ rfl)] at h
      cases h
      exact ⟨rfl, rfl, rfl, hexpired⟩
    | forfeitReleased round => cases h
    | _ => cases he
  | unilateralExit reason last | expired observed =>
    cases e with
    | spendReleased | forfeitReleased _ =>
      cases h
      exact ⟨rfl, rfl, rfl, List.not_mem_nil⟩
    | _ => cases he
  | spent | forfeited _ | failed =>
    cases h
    exact ⟨rfl, rfl, rfl, List.not_mem_nil⟩

end Heights

/-- The last height is past the expiry once a block has been, and so is the height of
every reserved state. -/
structure Aware (s : System) : Prop where
  last : s.expirySeen = true → ∃ last, s.lastHeight = some last ∧ s.actor.desc.Past last
  reserved : s.expirySeen = true → ∀ r, s.actor.state.reservedAt = some r → s.actor.desc.Past r

namespace Aware

variable {msg : Msg}

/-- A height that a message brings after the expiry is past it. -/
theorem past_of_ordered (h : Aware s) (hseen : s.expirySeen = true) (ho : Ordered s (msg, ans))
    (hheight : msg.height? s.actor = some height) : s.actor.desc.Past height := by
  obtain ⟨last, hlast, hpast⟩ := h.last hseen
  exact hpast.mono (ho height hheight last hlast)

theorem epoch?_eq_some : msg.epoch? a = some height ↔ msg.event? a = some (.blockEpoch height) := by
  unfold Msg.epoch?
  split <;> simp_all

theorem deliver_expirySeen (h : (deliver cfg s msg ans).expirySeen = true) :
    s.expirySeen = true ∨ ∃ height, msg.event? s.actor = some (.blockEpoch height) ∧
      (deliver cfg s msg ans).ok = true ∧ (deliver cfg s msg ans).actor.desc.Past height := by
  simp only [deliver, Bool.or_eq_true, Bool.and_eq_true, Option.any_eq_true, decide_eq_true_eq] at h
  obtain h | ⟨hok, height, he, hp⟩ := h
  · exact .inl h
  · exact .inr ⟨height, epoch?_eq_some.1 he, hok, hp⟩

theorem deliver_desc (hu : s.actor.desc.hasUsableBatchExpiry = true) :
    (deliver cfg s msg ans).actor.desc = s.actor.desc := by
  obtain hq | ⟨event, a', e, t, -, hran⟩ := receive_cases cfg s.actor s.row ans msg
  · exact hq.desc hu
  · have hout := processOutbox_cases hran.receipt
    exact hout.1.trans (hran.admitted.desc_eq hu)

theorem deliver_last (h : Aware s) (ho : Ordered s (msg, ans))
    (hseen : (deliver cfg s msg ans).expirySeen = true) :
    ∃ last, (deliver cfg s msg ans).lastHeight = some last ∧
      (deliver cfg s msg ans).actor.desc.Past last := by
  have hlast : (deliver cfg s msg ans).lastHeight = (msg.height? s.actor).or s.lastHeight := rfl
  rw [hlast]
  obtain hold | ⟨height, hev, -, hpast⟩ := deliver_expirySeen hseen
  · obtain ⟨last, hlast, hpast⟩ := h.last hold
    rw [deliver_desc hpast.1]
    cases hheight : msg.height? s.actor with
    | none => exact ⟨last, hlast, hpast⟩
    | some height => exact ⟨height, rfl, h.past_of_ordered hold ho hheight⟩
  · have hheight : msg.height? s.actor = some height := by
      rw [Msg.height?, hev]
      rfl
    exact ⟨height, by rw [hheight]; rfl, hpast⟩

theorem eq_of_past (hran : Ran cfg s.actor row ans (.blockEpoch height) a' e t rc)
    (hpast : a'.desc.Past height) : e = .blockEpoch height := by
  rcases hran.admitted.past height rfl hpast with h | h
  · cases h
    rfl
  · cases h

/-- The expiry has been seen before: the descriptor is settled. -/
theorem reserved_of_seen (h : Aware s) (ho : Ordered s (msg, ans)) (hm : Remembers s (msg, ans))
    (hseen : s.expirySeen = true)
    (hr : (deliver cfg s msg ans).actor.state.reservedAt = some r) :
    (deliver cfg s msg ans).actor.desc.Past r := by
  have hr : (receive s.actor s.row ans cfg msg).actor.state.reservedAt = some r := hr
  obtain ⟨last, -, hlast⟩ := h.last hseen
  rw [deliver_desc hlast.1]
  obtain hq | ⟨event, a', e, t, hev, hran⟩ := receive_cases cfg s.actor s.row ans msg
  · rcases hq.state with heq | ⟨h₀, h₁, -, hlive⟩
    · rw [heq] at hr
      exact h.reserved hseen r hr
    · rw [hlive] at hr
      cases hr
  have hout := processOutbox_cases hran.receipt
  obtain ⟨-, ⟨-, hstate, -, -⟩ | ⟨-, hstate, -, -, hwrites, hwrite⟩⟩ := hout
  · rw [hstate] at hr
    obtain hauto | ⟨hres, -⟩ := (processEvent_spec hran.transition).1.reservedAt hr
    · exact h.past_of_ordered hseen ho (hran.height? hev hauto)
    · exact h.reserved hseen r hres
  rw [hstate] at hr
  obtain hauto | ⟨hres, -⟩ | ⟨hres, hroot, hne⟩ := processEvent_reservedAt hran.transition hr
  · exact h.past_of_ordered hseen ho (hran.height? hev hauto)
  · exact h.reserved hseen r hres
  obtain rfl | ⟨height, -, rfl, -⟩ := (hran.admitted.process e rfl).2
  · rw [hran.admitted.desc_eq hlast.1] at hroot
    exact hm.2 hseen hroot (hwrite (hwrites ▸ hne)) e hev r hres
  · cases hst : s.actor.state <;> rw [hst] at hres <;> cases hres

/-- The block delivered is the first one at or past the expiry. -/
theorem reserved_of_epoch (hm : Remembers s (msg, ans))
    (hev : msg.event? s.actor = some (.blockEpoch height))
    (hok : (deliver cfg s msg ans).ok = true)
    (hpast : (deliver cfg s msg ans).actor.desc.Past height)
    (hr : (deliver cfg s msg ans).actor.state.reservedAt = some r) :
    (deliver cfg s msg ans).actor.desc.Past r := by
  have hok : (receive s.actor s.row ans cfg msg).ok = true := hok
  have hr : (receive s.actor s.row ans cfg msg).actor.state.reservedAt = some r := hr
  obtain hq | ⟨event, a', e, t, hev', hran⟩ := receive_cases cfg s.actor s.row ans msg
  · rw [hq.past height hev hpast] at hok
    cases hok
  rw [hev] at hev'
  cases hev'
  have hout := processOutbox_cases hran.receipt
  have hdesc : (deliver cfg s msg ans).actor.desc = a'.desc := hout.1
  obtain ⟨-, ⟨hfail, -⟩ | ⟨-, hstate, -⟩⟩ := hout
  · rw [hok] at hfail
    cases hfail
  rw [hdesc] at hpast ⊢
  obtain rfl := eq_of_past hran hpast
  rw [hstate] at hr
  obtain hauto | ⟨-, hfixed⟩ | ⟨hres, -⟩ := processEvent_reservedAt hran.transition hr
  · cases hauto
    exact hpast
  · rw [hran.admitted.desc] at hpast ⊢
    exact hm.1 height (epoch?_eq_some.2 hev) r (hfixed height rfl) hpast
  · cases hst : s.actor.state <;> rw [hst] at hres <;> cases hres

theorem deliver (h : Aware s) (ho : Ordered s (msg, ans)) (hm : Remembers s (msg, ans)) :
    Aware (Vtxo.deliver cfg s msg ans) := by
  refine ⟨h.deliver_last ho, fun hseen r hr => ?_⟩
  obtain hold | ⟨height, hev, hok, hpast⟩ := deliver_expirySeen hseen
  · exact h.reserved_of_seen ho hm hold hr
  · exact reserved_of_epoch hm hev hok hpast hr

theorem notOffered (h : Aware s) : NotOffered s (msg, ans) (Vtxo.deliver cfg s msg ans) := by
  intro hseen event hev hrelease
  have hepoch : ∀ height, event ≠ .blockEpoch height := by
    rintro height rfl
    cases hrelease
  obtain ⟨last, -, hlast⟩ := h.last hseen
  obtain hq | ⟨event', a', e, t, hev', hran⟩ := receive_cases cfg s.actor s.row ans msg
  · refine ⟨fun hlive => ?_, ?_⟩
    · rw [← hq.state.isLive_eq]
      exact hlive
    · have hwrites : (Vtxo.deliver cfg s msg ans).writes = [] := hq.writes
      rw [hwrites]
      exact List.not_mem_nil
  obtain rfl : event' = event := Option.some.inj (hev'.symm.trans hev)
  obtain rfl : e = event' := by
    obtain he | ⟨height, he, -⟩ := (hran.admitted.process e rfl).2
    · exact he
    · exact absurd he (hepoch height)
  have hq : t.Quarantined := by
    refine processEvent_release hran.transition hrelease fun r hr => ?_
    rw [hran.admitted.desc_eq hlast.1]
    exact h.reserved hseen r hr
  have hout := processOutbox_cases hran.receipt
  simp only [Vtxo.deliver]
  obtain ⟨-, ⟨-, hstate, -, ⟨-, hwrites⟩ | hreq⟩ | ⟨-, hstate, -, -, hwrites, -⟩⟩ := hout
  · rw [hstate, hwrites, hq.current]
    exact ⟨nofun, List.not_mem_nil⟩
  · rw [hq.requests] at hreq
    cases hreq
  · rw [hstate, hwrites, hq.next]
    exact ⟨nofun, hq.writes⟩

end Aware

/-- In every run of events with heights in order in which no height gets lost, no
release after the expiry offers the VTXO again. -/
theorem expired_not_offered_again {as : List (Msg × Answers)} (h₀ : (events cfg).init s)
    (hG : (events cfg).Along (fun s m _ => Ordered s m ∧ Remembers s m) s as) :
    (events cfg).Along NotOffered s as := by
  have hinit : Aware s := by
    obtain ⟨d, row, read, rfl⟩ := h₀
    constructor <;> simp
  have hinv := Machine.along_invariant Aware (G := fun s m _ => Ordered s m ∧ Remembers s m)
    (fun s m s' h hG hstep => by
      cases hstep
      exact h.deliver hG.1 hG.2) hinit hG
  refine hinv.imp fun s m s' hstep ⟨h, _⟩ => ?_
  cases hstep
  exact h.notOffered

def liveUntil110 : System where
  actor := newActor { batchExpiry := 110, createdHeight := 10 } {} true
  row := {}

/-- A reclaim: the block at the expiry reserves the VTXO by itself, and the round lets
go of it. -/
def reclaimReleased : List (Msg × Answers) :=
  [(.event (.blockEpoch 110), {}), (.event (.blockEpoch 111), {}),
    (.event (.forfeitReleased none), {})]

theorem reclaimReleased_not_offered :
    ((events {}).run liveUntil110 reclaimReleased).map (fun s => (s.actor.state, s.writes)) =
      some (.expired 111, [.expired]) ∧
    (events {}).Along NotOffered liveUntil110 reclaimReleased :=
  ⟨by decide, expired_not_offered_again ⟨_, _, _, rfl⟩ (by decide)⟩

/-- A manual forfeit, a block past the expiry, the release. -/
def manualReleased : List (Msg × Answers) :=
  [(.event .pendingForfeit, {}), (.event (.blockEpoch 120), {}),
    (.event (.forfeitReleased none), {})]

/-- The same after an automatic reservation before the expiry. -/
def automaticReleased : List (Msg × Answers) :=
  [(.event (.blockEpoch 20), {}), (.event (.blockEpoch 120), {}),
    (.event (.forfeitReleased none), {})]

/-- With heights in order the release makes the expired VTXO live again, in memory and
in the row. -/
theorem released_after_expiry_live :
    (events {}).Along (fun s m _ => Ordered s m) liveUntil110 manualReleased ∧
      ¬ (events {}).Along NotOffered liveUntil110 manualReleased ∧
      ((events {}).run liveUntil110 manualReleased).map
        (fun s => (s.expirySeen, s.actor.state, s.writes)) = some (true, .live 0, [.live]) ∧
      (events {}).Along (fun s m _ => Ordered s m) liveUntil110 automaticReleased ∧
      ¬ (events {}).Along NotOffered liveUntil110 automaticReleased := by
  decide

end Wavelength.Vtxo
