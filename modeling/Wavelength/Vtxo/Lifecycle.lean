import Wavelength.Vtxo.Actor

/-! # The lifecycle of a VTXO as a machine

Messages delivered to the actor, and restarts that rebuild it from its row. The
lemmas say once what a delivery can do; the invariants are derived from them.
-/

namespace Wavelength.Vtxo

def Msg.height? (a : Actor) (msg : Msg) : Option Height :=
  (msg.event? a).bind automaticRefreshHeight

def Msg.epoch? (a : Actor) (msg : Msg) : Option Height :=
  match msg.event? a with
  | some (.blockEpoch height) => some height
  | _ => none

/-- The actor with its row, and what the last delivery has done. `lastHeight` is the last height
delivered, and `expirySeen` says that a block epoch at or past a usable expiry was processed. -/
structure System where
  actor : Actor
  row : Row
  ok : Bool := true
  outbox : List OutMsg := []
  writes : List Status := []
  lastHeight : Option Height := none
  expirySeen : Bool := false

variable (cfg : Config)

def deliver (s : System) (msg : Msg) (ans : Answers) : System :=
  let r := receive s.actor s.row ans cfg msg
  { actor := r.actor
    row := r.row
    ok := r.ok
    outbox := r.outbox
    writes := r.writes
    lastHeight := (msg.height? s.actor).or s.lastHeight
    expirySeen := s.expirySeen ||
      (r.ok && (msg.epoch? s.actor).any fun h => decide (r.actor.desc.Past h)) }

def restart (s : System) (read : Bool) : System where
  actor := newActor s.actor.desc s.row read
  row := s.row

inductive Action
  | deliver (msg : Msg) (ans : Answers)
  | restart (read : Bool)

/-- Deliveries only. -/
def events : Machine System (Msg × Answers) where
  init s := ∃ d row read, s = { actor := newActor d row read, row := row }
  step s e := some (deliver cfg s e.1 e.2)

def lifecycle : Machine System Action where
  init s := ∃ d row read, s = { actor := newActor d row read, row := row }
  step s
    | .deliver msg ans => some (deliver cfg s msg ans)
    | .restart read => some (restart s read)

variable {cfg} {msg : Msg}

section Admit

theorem noteEpoch_state : (noteEpoch a ans e).state = a.state := by
  unfold noteEpoch
  split
  · simp only [repairLegacyCreatedHeight]
    split
    · rfl
    · split <;> rfl
  · rfl

/-- The descriptor changes only by the repair of an unusable creation height. -/
theorem noteEpoch_desc (hu : a.desc.hasUsableBatchExpiry = true) :
    (noteEpoch a ans e).desc = a.desc := by
  have hle : a.desc.batchExpiry ≤ 0 ∨ a.desc.createdHeight ≤ a.desc.batchExpiry := by
    simp only [Descriptor.hasUsableBatchExpiry, Bool.and_eq_true, decide_eq_true_eq,
      Bool.or_eq_true] at hu
    obtain ⟨hpos, hle | hle⟩ := hu
    · exact .inr (Int32.le_trans hle (Int32.le_of_lt hpos))
    · exact .inr hle
  unfold noteEpoch
  split
  · simp only [repairLegacyCreatedHeight]
    rw [if_pos hle]
  · rfl

/-- The states between which the checks of `receive` move: none but the height noted
in the live state. -/
def Noted (s s' : State) : Prop := s' = s ∨ ∃ h₀ h, s = .live h₀ ∧ s' = .live h

theorem Noted.isLive_eq (h : Noted s s') : s'.isLive = s.isLive := by
  rcases h with rfl | ⟨h₀, height, rfl, rfl⟩ <;> rfl

theorem Noted.eq_of_not_live (h : Noted s s') (hlive : s.isLive = false) : s' = s := by
  rcases h with h | ⟨h₀, height, rfl, -⟩
  · exact h
  · cases hlive

theorem deferAutomaticRefresh_spec (h : deferAutomaticRefresh cfg a terms height = (a', cooling)) :
    a'.desc = a.desc ∧ Noted a.state a'.state ∧ (cooling = false → a'.state = a.state) ∧
      (cooling = true → ¬ a.desc.Past height) := by
  unfold deferAutomaticRefresh at h
  split at h
  · cases h
    exact ⟨rfl, .inl rfl, fun _ => rfl, nofun⟩
  split at h
  · cases h
    exact ⟨rfl, .inl rfl, fun _ => rfl, nofun⟩
  split at h
  · next h₀ hlive =>
    split at h
    · cases h
      exact ⟨rfl, .inl rfl, fun _ => rfl, nofun⟩
    · cases h
      exact ⟨rfl, .inl rfl, fun _ => rfl, nofun⟩
    all_goals
      next hstatus =>
      cases h
      refine ⟨rfl, .inr ⟨h₀, height, hlive, rfl⟩, nofun, fun _ hpast => ?_⟩
      rw [hpast.checkExpiry] at hstatus
      cases hstatus
  · cases h
    exact ⟨rfl, .inl rfl, fun _ => rfl, nofun⟩
  · cases h
    exact ⟨rfl, .inl rfl, fun _ => rfl, nofun⟩

theorem preflightCriticalExit_spec (cfg : Config) (a : Actor) (ans : Answers) (e : Event) :
    preflightCriticalExit cfg a ans e = e ∨
      ∃ height, e = .blockEpoch height ∧ preflightCriticalExit cfg a ans e = .criticalRefresh height ∧
        ((∃ h₀, a.state = .live h₀) ∨ ∃ h₀, a.state = .pendingForfeit h₀) ∧
        ¬ a.desc.Past height := by
  have hcritical : ∀ {height}, ¬ cfg.expiry.checkExpiry ans.termsBefore a.desc height ≠ .critical →
      ¬ a.desc.Past height := fun hc hpast => by
    rw [hpast.checkExpiry] at hc
    exact hc nofun
  unfold preflightCriticalExit
  split
  · next height h₀ hlive =>
    split
    · exact .inl rfl
    split
    · exact .inl rfl
    next hc =>
    split
    · exact .inr ⟨height, rfl, rfl, .inl ⟨h₀, hlive⟩, hcritical hc⟩
    · exact .inl rfl
  · next height h₀ hpending =>
    split
    · exact .inl rfl
    split
    · exact .inl rfl
    next hc =>
    split
    · exact .inr ⟨height, rfl, rfl, .inr ⟨h₀, hpending⟩, hcritical hc⟩
    · exact .inl rfl
  · exact .inl rfl

theorem preflightLive_spec (hlive : a.state = .live h₀)
    (h : preflightLive cfg a ans critical height = (a', pf)) :
    a'.desc = a.desc ∧ Noted a.state a'.state ∧ (pf ≠ .deferred → a'.state = a.state) := by
  simp only [preflightLive] at h
  split at h
  · cases h
    exact ⟨rfl, .inr ⟨h₀, height, hlive, rfl⟩, fun h => absurd rfl h⟩
  split at h
  · cases h
    exact ⟨rfl, .inl rfl, fun _ => rfl⟩
  split at h
  · cases h
    exact ⟨rfl, .inl rfl, fun _ => rfl⟩
  split at h
  · cases h
    exact ⟨rfl, .inl rfl, fun _ => rfl⟩
  · cases h
    exact ⟨rfl, .inr ⟨h₀, height, hlive, rfl⟩, fun h => absurd rfl h⟩

theorem preflightAutoRefresh_spec (h : preflightAutoRefresh cfg a ans e = (a', pf)) :
    a'.desc = a.desc ∧ Noted a.state a'.state ∧ (pf ≠ .deferred → a'.state = a.state) ∧
      (∀ height, e = .blockEpoch height → pf = .deferred → ¬ a.desc.Past height) := by
  have hsame : (a, .proceed) = (a', pf) ∨ (a, .failed) = (a', pf) →
      a'.desc = a.desc ∧ Noted a.state a'.state ∧ (pf ≠ .deferred → a'.state = a.state) ∧
        (∀ height, e = .blockEpoch height → pf = .deferred → ¬ a.desc.Past height) := by
    rintro (h | h) <;> cases h <;> exact ⟨rfl, .inl rfl, fun _ => rfl, nofun⟩
  unfold preflightAutoRefresh at h
  split at h
  · exact hsame (.inl h)
  split at h
  · next height h₀ hlive =>
    split at h
    · next hstatus =>
      obtain ⟨hd, hn, hs⟩ := preflightLive_spec hlive h
      refine ⟨hd, hn, hs, fun _ he _ hpast => ?_⟩
      cases he
      rw [hpast.checkExpiry] at hstatus
      cases hstatus
    · exact hsame (.inl h)
  · next height h₀ hlive =>
    obtain ⟨hd, hn, hs⟩ := preflightLive_spec hlive h
    exact ⟨hd, hn, hs, nofun⟩
  · split at h
    · exact hsame (.inr h)
    · exact hsame (.inl h)
  · split at h
    · exact hsame (.inr h)
    · exact hsame (.inl h)
  · exact hsame (.inl h)

/-- What the checks of `receive` make of an event. -/
structure AdmitSpec (a : Actor) (ans : Answers) (event : Event) (a' : Actor) (adm : Admission) :
    Prop where
  desc : a'.desc = (noteEpoch a ans event).desc
  state : Noted a.state a'.state
  process : ∀ e, adm = .process e → a'.state = a.state ∧
    (e = event ∨ ∃ height, event = .blockEpoch height ∧ e = .criticalRefresh height ∧
      ((∃ h₀, a.state = .live h₀) ∨ ∃ h₀, a.state = .pendingForfeit h₀))
  past : ∀ height, event = .blockEpoch height → a'.desc.Past height →
    adm = .process event ∨ adm = .done false

theorem AdmitSpec.desc_eq (h : AdmitSpec a ans event a' adm)
    (hu : a.desc.hasUsableBatchExpiry = true) : a'.desc = a.desc :=
  h.desc.trans (noteEpoch_desc hu)

theorem coolDown_spec (h : coolDown cfg a terms e = (a', cooling)) :
    a'.desc = a.desc ∧ Noted a.state a'.state ∧ (cooling = false → a'.state = a.state) ∧
      (cooling = true → ∀ height, e = .blockEpoch height → ¬ a.desc.Past height) := by
  unfold coolDown at h
  split at h
  · cases h
    exact ⟨rfl, .inl rfl, fun _ => rfl, nofun⟩
  next height hheight =>
  obtain ⟨hd, hn, hs, hp⟩ := deferAutomaticRefresh_spec h
  refine ⟨hd, hn, hs, fun hc height' he => ?_⟩
  subst he
  cases hheight
  exact hp hc

theorem admitEvent_spec (h : admitEvent cfg a ans e = (a', adm)) : AdmitSpec a ans e a' adm := by
  unfold admitEvent at h
  split at h
  · next a₁ hcool =>
    obtain ⟨hd, hn, -, hp⟩ := coolDown_spec hcool
    rw [noteEpoch_state] at hn
    cases h
    refine ⟨hd, hn, nofun, fun height he hpast => ?_⟩
    exact absurd (hd ▸ hpast) (hp rfl height he)
  · next a₁ hcool =>
    obtain ⟨hd₁, -, hs₁, -⟩ := coolDown_spec hcool
    have hs₁ : a₁.state = a.state := (hs₁ rfl).trans noteEpoch_state
    rcases hpf : preflightAutoRefresh cfg a₁ ans (preflightCriticalExit cfg a₁ ans e) with ⟨a₂, pf⟩
    obtain ⟨hd₂, hn₂, hs₂, hp₂⟩ := preflightAutoRefresh_spec hpf
    have hdesc : a₂.desc = (noteEpoch a ans e).desc := hd₂.trans hd₁
    have hdivert := preflightCriticalExit_spec cfg a₁ ans e
    rw [hs₁] at hn₂ hdivert
    -- a block at or past the expiry is not diverted
    have hpast : ∀ height, e = .blockEpoch height → a₂.desc.Past height →
        preflightCriticalExit cfg a₁ ans e = e := by
      rintro height rfl hpast
      rcases hdivert with heq | ⟨height', he, -, -, hnot⟩
      · exact heq
      · cases he
        exact absurd (hd₂ ▸ hpast) hnot
    simp only [hpf] at h
    cases pf with
    | proceed =>
      cases h
      refine ⟨hdesc, hn₂, fun e' he' => ⟨(hs₂ nofun).trans hs₁, ?_⟩, fun height he hp => ?_⟩
      · cases he'
        rcases hdivert with heq | ⟨height, he, hcrit, hstate, -⟩
        · exact .inl heq
        · exact .inr ⟨height, he, hcrit, hstate⟩
      · rw [hpast height he hp]
        exact .inl rfl
    | deferred =>
      cases h
      refine ⟨hdesc, hn₂, nofun, fun height he hp => ?_⟩
      exact absurd (hd₂ ▸ hp) (hp₂ height ((hpast height he hp).trans he) rfl)
    | failed =>
      cases h
      exact ⟨hdesc, hn₂, nofun, fun _ _ _ => .inr rfl⟩

end Admit

section Receive

/-- A delivery that changes nothing but bookkeeping: deferred, ignored or refused. -/
structure Quiet (a : Actor) (row : Row) (event? : Option Event) (r : Receipt) : Prop where
  row : r.row = row
  outbox : r.outbox = []
  writes : r.writes = []
  state : Noted a.state r.actor.state
  desc : a.desc.hasUsableBatchExpiry = true → r.actor.desc = a.desc
  past : ∀ height, event? = some (.blockEpoch height) → r.actor.desc.Past height → r.ok = false

/-- A delivery in which a transition has run, for an event that the message stands for
or that the checks have put in its place. -/
structure Ran (cfg : Config) (a : Actor) (row : Row) (ans : Answers) (event : Event) (a' : Actor)
    (e : Event) (t : Transition) (r : Receipt) : Prop where
  admitted : AdmitSpec a ans event a' (.process e)
  transition : processEvent cfg.expiry ans.terms a'.desc a.state e = .ok t
  receipt : r = processOutbox a' row ans e t

theorem Ran.height? (h : Ran cfg a row ans event a' e t r) (hev : msg.event? a = some event)
    (he : automaticRefreshHeight e = some height) : msg.height? a = some height := by
  rw [Msg.height?, hev]
  obtain rfl | ⟨height, rfl, rfl, -⟩ := (h.admitted.process e rfl).2
  · exact he
  · exact he

theorem receive_cases (cfg : Config) (a : Actor) (row : Row) (ans : Answers) (msg : Msg) :
    Quiet a row (msg.event? a) (receive a row ans cfg msg) ∨
      ∃ event a' e t, msg.event? a = some event ∧
        Ran cfg a row ans event a' e t (receive a row ans cfg msg) := by
  unfold receive admitMsg
  cases hev : msg.event? a with
  | none => exact .inl ⟨rfl, rfl, rfl, .inl rfl, fun _ => rfl, nofun⟩
  | some event =>
    rcases hadm : admitEvent cfg a ans event with ⟨a', adm⟩
    have hspec := admitEvent_spec hadm
    simp only [hadm]
    cases adm with
    | done ok =>
      refine .inl ⟨rfl, rfl, rfl, hspec.state, hspec.desc_eq, fun height he hpast => ?_⟩
      rcases hspec.past height (Option.some.inj he) hpast with h | h
      · cases h
      · cases h
        rfl
    | process e =>
      have hstate := (hspec.process e rfl).1
      cases ht : processEvent cfg.expiry ans.terms a'.desc a'.state e with
      | error refusal =>
        simp only [ht]
        exact .inl ⟨rfl, rfl, rfl, .inl hstate, hspec.desc_eq, fun _ _ _ => rfl⟩
      | ok t =>
        simp only [ht]
        exact .inr ⟨event, a', e, t, rfl, hspec, hstate ▸ ht, rfl⟩

/-- An event without a height passes the checks of `receive` as it is. -/
theorem admitEvent_of_no_height (he : automaticRefreshHeight e = none) :
    admitEvent cfg a ans e = (a, .process e) := by
  have hnote : noteEpoch a ans e = a := by
    unfold noteEpoch
    split
    · cases he
    · rfl
  have hcool : coolDown cfg a ans.termsBefore e = (a, false) := by
    unfold coolDown
    rw [he]
  have hexit : preflightCriticalExit cfg a ans e = e := by
    unfold preflightCriticalExit
    split
    · cases he
    · cases he
    · rfl
  have hrefresh : preflightAutoRefresh cfg a ans e = (a, .proceed) := by
    unfold preflightAutoRefresh
    split
    · rfl
    split
    · cases he
    · cases he
    · cases he
    · cases he
    · rfl
  simp only [admitEvent, hnote, hcool, hexit, hrefresh]

theorem receive_event (he : automaticRefreshHeight e = none) :
    receive a row ans cfg (.event e) =
      match processEvent cfg.expiry ans.terms a.desc a.state e with
      | .error _ => { actor := a, row := row, ok := false }
      | .ok t => processOutbox a row ans e t := by
  cases h : processEvent cfg.expiry ans.terms a.desc a.state e with
  | error _ | ok t => simp only [receive, admitMsg, Msg.event?, admitEvent_of_no_height he, h]

/-- Nothing has gone out and the old state stands, with the row untouched or put back after a failed
request; or everything has gone out, after the writes. -/
theorem processOutbox_cases (hr : r = processOutbox a row ans e t) :
    r.actor.desc = a.desc ∧
      ((r.ok = false ∧ r.actor.state = t.current ∧ r.outbox = [] ∧
          ((r.row = row ∧ r.writes = []) ∨ t.outbox.any OutMsg.isForfeitRequest = true)) ∨
        (r.ok = true ∧ r.actor.state = t.next ∧ r.outbox = t.outbox ∧
          r.row = t.outbox.foldl OutMsg.write row ∧
          r.writes = t.outbox.filterMap OutMsg.status? ∧
          (r.writes ≠ [] → ans.writeOk = true))) := by
  subst hr
  simp only [processOutbox]
  split
  · exact ⟨rfl, .inl ⟨rfl, rfl, rfl, .inl ⟨rfl, rfl⟩⟩⟩
  next hwrite =>
  split
  · next hreq =>
    simp only [Bool.and_eq_true] at hreq
    split <;> exact ⟨rfl, .inl ⟨rfl, rfl, rfl, .inr hreq.1⟩⟩
  · refine ⟨rfl, .inr ⟨rfl, rfl, rfl, rfl, rfl, fun hne => ?_⟩⟩
    exact eq_true_of_ne_false fun hfail => hwrite ⟨hne, hfail⟩

end Receive

end Wavelength.Vtxo
