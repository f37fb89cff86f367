import Wavelength.Vtxo.Committed

/-! # The stored status follows the state

The status is written before the actor moves, and a reservation whose request cannot
be built is taken back in the row. So the row tells the kind of the state, with two
gaps: a failure event is not persisted, and the write that takes the reservation back
can fail itself.
-/

namespace Wavelength.Vtxo

/-- No failure event ends the VTXO, and a failed request is not followed by a failed
write that should take its reservation back. -/
def Persists (s : System) : Action → System → Prop
  | .deliver msg ans, _ =>
    (msg.event? s.actor = some .vtxoFailed → s.actor.state.canFail = false) ∧
      (msg.height? s.actor = none ∨ ans.writeOk = false ∨ ans.templateOk = true ∨
        ans.rollbackOk = true)
  | .restart _, _ => True

instance (s : System) : (a : Action) → (s' : System) → Decidable (Persists s a s')
  | .deliver _ _, _ | .restart _, _ => by
    unfold Persists
    infer_instance

/-- The row tells the kind of the state, so that a state rebuilt from it is of the same
kind; an event that fails leaves both as they were. -/
structure Follows (s : System) (_a : Action) (s' : System) : Prop where
  status : s'.row.status = s'.actor.state.status
  rebuilt : ∀ read, (statusToState s'.actor.desc s'.row read).status = s'.actor.state.status
  failed : s'.ok = false → s'.row = s.row ∧ s'.actor.state.status = s.actor.state.status

theorem statusToState_status (d : Descriptor) (row : Row) (read : Bool) :
    (statusToState d row read).status = row.status := by
  unfold statusToState
  cases row.status <;> rfl

theorem Notes.status (h : Notes state e current) : current.status = state.status := by
  cases h <;> rfl

theorem Noted.status (h : Noted state current) : current.status = state.status := by
  rcases h with rfl | ⟨h₀, height, rfl, rfl⟩ <;> rfl

variable {row : Row}

@[simp] theorem Row.update_status {status : Status} {round : RoundId} {release : Bool} :
    (row.update status round tx release).status = status := by
  unfold Row.update
  split
  · rfl
  · split <;> rfl

/-- What goes out writes the status of the next state. -/
theorem Outcome.written (h : Outcome d state e t)
    (hfail : e = .vtxoFailed → state.canFail = false) (hrow : row.status = t.current.status) :
    (t.outbox.foldl OutMsg.write row).status = t.next.status := by
  cases h with
  | stay | again | adopt | signed => exact hrow
  | exit | refresh | sign => simp [OutMsg.write, State.status]
  | reserve _ _ _ hstatus | free _ hstatus | finish _ hstatus => simp [OutMsg.write, hstatus]
  | fail he hcan =>
    rw [hfail he] at hcan
    cases hcan

variable (hr : r = processOutbox act row ans e t)
  (hback : automaticRefreshHeight e = none ∨ ans.writeOk = false ∨ ans.templateOk = true ∨
    ans.rollbackOk = true)

include hr hback

/-- A request that fails leaves the row as it was. -/
theorem Outcome.refused (h : Outcome d state e t) (hrow : row.status = t.current.status)
    (hreq : t.outbox.any OutMsg.isForfeitRequest = true) (hok : r.ok = false) : r.row = row := by
  subst hr
  cases h with
  | adopt =>
    simp only [processOutbox]
    split
    · rfl
    · split <;> rfl
  | refresh he hlive =>
    cases hw : ans.writeOk with
    | false => simp [processOutbox, hw, OutMsg.status?]
    | true =>
      cases ht : ans.templateOk with
      | true => simp [processOutbox, hw, ht] at hok
      | false =>
        have hrb : ans.rollbackOk = true := by simpa [he, hw, ht] using hback
        obtain ⟨status, round, tx, reservation⟩ := row
        -- the reservation was made from the status that the row gets back
        rcases hlive with rfl | rfl <;> cases hrow <;>
          simp [processOutbox, hw, ht, hrb, OutMsg.write, OutMsg.isForfeitRequest,
            isPendingForfeitState, Row.update, releaseStatus]
  | _ => cases hreq

theorem Outcome.follows (h : Outcome d state e t) (hn : Notes state e t.current)
    (hrow : row.status = state.status) (hfail : e = .vtxoFailed → state.canFail = false) :
    r.row.status = r.actor.state.status ∧
      (r.ok = false → r.row = row ∧ r.actor.state.status = state.status) := by
  have hcur : row.status = t.current.status := hrow.trans hn.status.symm
  obtain ⟨-, ⟨hok, hstate, -, hsame⟩ | ⟨hok, hstate, -, hr, -⟩⟩ := processOutbox_cases hr
  · have hrow' : r.row = row := by
      rcases hsame with ⟨hr, -⟩ | hreq
      · exact hr
      · exact h.refused hr hback hcur hreq hok
    rw [hstate, hrow', hn.status]
    exact ⟨hrow, fun _ => ⟨rfl, rfl⟩⟩
  · rw [hstate, hr, hok]
    exact ⟨h.written hfail hcur, nofun⟩

omit hr hback

theorem deliver_follows (h : s.row.status = s.actor.state.status)
    (hG : Persists s (.deliver msg ans) s') :
    Follows s (.deliver msg ans) (deliver cfg s msg ans) := by
  suffices hr : (deliver cfg s msg ans).row.status = (deliver cfg s msg ans).actor.state.status ∧
      ((deliver cfg s msg ans).ok = false → (deliver cfg s msg ans).row = s.row ∧
        (deliver cfg s msg ans).actor.state.status = s.actor.state.status) from
    ⟨hr.1, fun read => (statusToState_status _ _ read).trans hr.1, hr.2⟩
  obtain hq | ⟨event, a', e, t, hev, hran⟩ := receive_cases cfg s.actor s.row ans msg
  · simp [deliver, hq.row, hq.state.status, h]
  obtain ⟨hn, ho⟩ := processEvent_spec hran.transition
  refine ho.follows hran.receipt ?_ hn h ?_
  · refine hG.2.imp_left fun hnone => ?_
    cases he : automaticRefreshHeight e with
    | none => rfl
    | some height =>
      rw [hran.height? hev he] at hnone
      cases hnone
  · rintro rfl
    obtain rfl | ⟨_, -, he, -⟩ := (hran.admitted.process _ rfl).2
    · exact hG.1 hev
    · cases he

theorem step_follows (h : s.row.status = s.actor.state.status) (hG : Persists s a s')
    (hstep : (lifecycle cfg).step s a = some s') : Follows s a s' := by
  cases a with
  | deliver msg ans =>
    cases hstep
    exact deliver_follows h hG
  | restart read =>
    cases hstep
    have hstatus : ∀ read, (statusToState s.actor.desc s.row read).status = s.row.status :=
      statusToState_status _ _
    exact ⟨(hstatus read).symm, fun read' => (hstatus read').trans (hstatus read).symm, nofun⟩

variable {cfg : Config} {s : System}

/-- In every run without these two gaps the stored status is the status of the state
after every event, whatever writes fail. -/
theorem status_follows_state {as : List Action} (h₀ : (lifecycle cfg).init s)
    (hG : (lifecycle cfg).Along Persists s as) :
    s.row.status = s.actor.state.status ∧ (lifecycle cfg).Along Follows s as := by
  have hinit : s.row.status = s.actor.state.status := by
    obtain ⟨d, row, read, rfl⟩ := h₀
    exact (statusToState_status _ _ _).symm
  refine ⟨hinit, ?_⟩
  have hinv := Machine.along_invariant (fun s => s.row.status = s.actor.state.status)
    (fun _ _ _ h hG hstep => (step_follows h hG hstep).status) hinit hG
  exact hinv.imp fun _ _ _ _ ⟨h, hG, hstep, _⟩ => step_follows h hG hstep

/-- A request that fails and is taken back, a failed write, a reservation, a restart and
a release whose write fails. -/
def written : List Action :=
  [.deliver (.event (.blockEpoch 20)) { templateOk := false },
    .deliver (.event (.blockEpoch 21)) { writeOk := false, rollbackOk := false },
    .deliver (.event (.blockEpoch 22)) {}, .restart true,
    .deliver (.event (.forfeitReleased none)) { writeOk := false }]

theorem written_follows :
    ((lifecycle {}).run liveAtTen written).map (fun s => (s.actor.state, s.row.status, s.ok)) =
      some (.pendingForfeit 0, .pendingForfeit, false) ∧
    (lifecycle {}).Along Follows liveAtTen written :=
  ⟨by decide +kernel, (status_follows_state ⟨_, _, _, rfl⟩ (by decide +kernel)).2⟩

/-- After a failure event the row is live still. After a request that fails and cannot be
taken back the row is pending, and the VTXO is live. -/
theorem failed_and_refused_not_stored :
    ((lifecycle {}).run liveAtTen [.deliver (.event .vtxoFailed) {}]).map
      (fun s => (s.actor.state, s.row.status, s.ok)) = some (.failed, .live, true) ∧
    ((lifecycle {}).run liveAtTen [.deliver (.event (.blockEpoch 20))
      { templateOk := false, rollbackOk := false }]).map
        (fun s => (s.actor.state, s.row.status, s.ok)) =
      some (.live 20, .pendingForfeit, false) := by
  decide

end Wavelength.Vtxo
