import Wavelength.Vtxo.Holders
import Wavelength.Vtxo.Lifecycle

/-! # What the manager's handlers leave behind

For each handler: the outpoints it does not touch, the marks it drops or sets, and
that a VTXO which only its row keeps from being selected stays so.
-/

namespace Wavelength.Vtxo

open List

variable {m m' m'' : Manager}

section Frame

structure Same (op : Outpoint) (m m' : Manager) : Prop where
  reserved : m'.reserved op = m.reserved op
  actors : m'.actors op = m.actors op
  store : m'.store op = m.store op

theorem Same.refl : Same op m m := ⟨rfl, rfl, rfl⟩

theorem Same.trans (h : Same op m m') (h' : Same op m' m'') : Same op m m'' :=
  ⟨h'.reserved.trans h.reserved, h'.actors.trans h.actors, h'.store.trans h.store⟩

theorem Same.row (h : Same op m m') : m'.row op = m.row op := by
  simp only [Manager.row, h.store]

theorem ask_same (hne : op' ≠ op) : Same op' m (ask cfg m op event reply).1 := by
  unfold ask
  split
  · exact .refl
  split
  · exact ⟨rfl, by simp [Manager.enqueue, hne], rfl⟩
  · exact ⟨rfl, by simp [Manager.put, hne], by simp [Manager.put, hne]⟩

/-- The marks and the epoch counter are as they were. -/
structure SameMarks (m m' : Manager) : Prop where
  reserved : m'.reserved = m.reserved
  counter : m'.reserveEpoch = m.reserveEpoch

theorem SameMarks.refl : SameMarks m m := ⟨rfl, rfl⟩

theorem SameMarks.trans (h : SameMarks m m') (h' : SameMarks m' m'') : SameMarks m m'' :=
  ⟨h'.reserved.trans h.reserved, h'.counter.trans h.counter⟩

theorem ask_marks : SameMarks m (ask cfg m op event reply).1 := by
  unfold ask
  split
  · exact .refl
  split <;> exact ⟨rfl, rfl⟩

theorem marks_of_ask (h : ask cfg m op event reply = (m', ok)) : SameMarks m m' := by
  have hm : SameMarks m (ask cfg m op event reply).1 := ask_marks
  rwa [h] at hm

theorem ask_none (h : m.actors op = none) : ask cfg m op event reply = (m, false) := by
  simp [ask, h]

theorem ask_some (h : m.actors op = some child) (hans : reply.answered = true) :
    ask cfg m op event reply =
      (m.put op { child with actor := (receive child.actor (m.row op) reply.ans cfg
          (.event event)).actor }
        (receive child.actor (m.row op) reply.ans cfg (.event event)).row,
      (receive child.actor (m.row op) reply.ans cfg (.event event)).ok) := by
  simp [ask, h, hans]

end Frame

section Asleep

/-- A VTXO without a mark that is not selectable: its row is not live, and its actor, if
there is one, is spending and has nothing to do. -/
structure Asleep (op : Outpoint) (m : Manager) : Prop where
  row : (m.row op).status ≠ .live
  child : ∀ child, m.actors op = some child →
    (∃ height, child.actor.state = .spending height) ∧ child.inbox = []

theorem Asleep.same (h : Asleep op m) (hs : Same op m m') : Asleep op m' := by
  refine ⟨?_, fun child hchild => h.child child (hs.actors ▸ hchild)⟩
  rw [hs.row]
  exact h.row

/-- A spending actor that does not carry an event out is left as it was. -/
theorem receive_spending (hs : a.state = .spending height)
    (he : automaticRefreshHeight event = none)
    (hok : (receive a row ans cfg (.event event)).ok = false) :
    (receive a row ans cfg (.event event)).row = row ∧
      (receive a row ans cfg (.event event)).actor.state = .spending height := by
  rw [receive_event he, hs] at hok ⊢
  cases ht : processEvent cfg.expiry ans.terms a.desc (.spending height) event with
  | error refusal => exact ⟨rfl, hs⟩
  | ok t =>
    simp only [ht] at hok ⊢
    have hcurrent : t.current = .spending height ∧ t.outbox.any OutMsg.isForfeitRequest = false := by
      cases event with
      | blockEpoch _ => cases he
      | spendReleased | spendCompleted | resume | forceUnroll _ _ _ | vtxoFailed =>
        cases ht
        exact ⟨rfl, rfl⟩
      | _ => cases ht
    obtain ⟨-, ⟨-, hstate, -, ⟨hrow, -⟩ | hreq⟩ | ⟨htrue, -⟩⟩ :=
      processOutbox_cases (rfl : processOutbox a row ans event t = _)
    · exact ⟨hrow, hstate.trans hcurrent.1⟩
    · rw [hcurrent.2] at hreq
      cases hreq
    · rw [hok] at htrue
      cases htrue

theorem Asleep.ask (h : Asleep op m) (hans : reply.answered = true)
    (he : automaticRefreshHeight event = none)
    (hfail : op' = op → (Vtxo.ask cfg m op' event reply).2 = false) :
    Asleep op (Vtxo.ask cfg m op' event reply).1 := by
  by_cases hop : op' = op
  · subst hop
    have hfail := hfail rfl
    cases hact : m.actors op' with
    | none =>
      rw [ask_none hact]
      exact h
    | some child =>
      rw [ask_some hact hans] at hfail ⊢
      obtain ⟨⟨height, hs⟩, hinbox⟩ := h.child child hact
      obtain ⟨hrow, hstate⟩ := receive_spending hs he hfail
      refine ⟨?_, fun c hc => ?_⟩
      · have hstored : ((m.put op' { child with actor := (receive child.actor (m.row op') reply.ans cfg
            (.event event)).actor } (receive child.actor (m.row op') reply.ans cfg
            (.event event)).row).row op').status = (m.row op').status := by
          rw [hrow]
          simp only [Manager.put, Manager.row, Function.update_self]
          cases m.store op' <;> rfl
        rw [hstored]
        exact h.row
      · simp only [Manager.put, Function.update_self, Option.some.injEq] at hc
        subst hc
        exact ⟨⟨height, hstate⟩, hinbox⟩
  · exact h.same (ask_same fun heq => hop heq.symm)

theorem Asleep.refuses (h : Asleep op m) (hans : reply.answered = true)
    (he : event = .pendingForfeit ∨ ∃ round, event = .forfeitReleased round) :
    (Vtxo.ask cfg m op event reply).2 = false := by
  cases hact : m.actors op with
  | none => rw [ask_none hact]
  | some child =>
    obtain ⟨⟨height, hs⟩, -⟩ := h.child child hact
    rw [ask_some hact hans]
    obtain rfl | ⟨round, rfl⟩ := he
    · dsimp only
      rw [receive_event rfl, hs]
      rfl
    · dsimp only
      rw [receive_event rfl, hs]
      rfl

end Asleep

section Handlers

theorem rollbackForfeit_marks : SameMarks m (rollbackForfeit cfg m replies ops) := by
  induction ops generalizing m with
  | nil => exact .refl
  | cons op ops ih =>
    rw [rollbackForfeit, foldl_cons]
    exact ask_marks.trans ih

theorem Asleep.rollbackForfeit (h : Asleep op m) :
    Asleep op (Vtxo.rollbackForfeit cfg m (answer ans) ops) := by
  induction ops generalizing m with
  | nil => exact h
  | cons op' ops ih =>
    rw [Vtxo.rollbackForfeit, foldl_cons]
    refine ih (h.ask rfl rfl ?_)
    rintro rfl
    exact h.refuses rfl (.inr ⟨none, rfl⟩)

theorem resident_same (hne : op' ≠ op) (h : m.resident op spawn = some m') : Same op' m m' := by
  unfold Manager.resident at h
  split at h
  · cases h
    exact .refl
  · obtain ⟨child, -, rfl⟩ := Option.map_eq_some_iff.1 h
    exact ⟨rfl, by simp [hne], rfl⟩

theorem resident_marks (h : m.resident op spawn = some m') : SameMarks m m' := by
  unfold Manager.resident at h
  split at h
  · cases h
    exact .refl
  · obtain ⟨child, -, rfl⟩ := Option.map_eq_some_iff.1 h
    exact ⟨rfl, rfl⟩

theorem resident_eq_self (hspawn : spawn op = none) (h : m.resident op spawn = some m') : m' = m := by
  unfold Manager.resident at h
  split at h
  · exact (Option.some.inj h).symm
  · rw [hspawn] at h
    cases h

theorem reserveForfeits_marks :
    SameMarks m (reserveForfeits cfg spawn replies rb ops reserved m).1 := by
  induction ops generalizing m reserved with
  | nil => exact .refl
  | cons op ops ih =>
    simp only [reserveForfeits]
    split
    · exact rollbackForfeit_marks
    next m₁ hres =>
    split
    · next m₂ hask => exact ((resident_marks hres).trans (marks_of_ask hask)).trans ih
    · next m₂ hask =>
      exact ((resident_marks hres).trans (marks_of_ask hask)).trans rollbackForfeit_marks

/-- A sleeping VTXO that cannot be spawned is not handed to a forfeit. -/
theorem Asleep.reserveForfeits (h : Asleep op m) (hspawn : spawn op = none) :
    let r := Vtxo.reserveForfeits cfg spawn (answer ans) (answer rollback) ops reserved m
    Asleep op r.1 ∧ (r.2 = .ok () → op ∉ ops) := by
  induction ops generalizing m reserved with
  | nil => exact ⟨h, fun _ => not_mem_nil⟩
  | cons op' ops ih =>
    simp only [Vtxo.reserveForfeits]
    split
    · exact ⟨h.rollbackForfeit, nofun⟩
    next m₁ hres =>
    have h₁ : Asleep op m₁ := by
      by_cases hop : op' = op
      · subst hop
        rw [resident_eq_self hspawn hres]
        exact h
      · exact h.same (resident_same (fun heq => hop heq.symm) hres)
    have hrefuse : op' = op → (Vtxo.ask cfg m₁ op' .pendingForfeit (answer ans op')).2 = false := by
      rintro rfl
      exact h₁.refuses rfl (.inl rfl)
    have h₂ := h₁.ask rfl rfl hrefuse
    split
    · next m₂ hask =>
      rw [hask] at h₂ hrefuse
      obtain ⟨h₃, hops⟩ := @ih m₂ (reserved ++ [op']) h₂
      refine ⟨h₃, fun hok hmem => ?_⟩
      rcases mem_cons.1 hmem with rfl | hmem
      · cases hrefuse rfl
      · exact hops hok hmem
    · next m₂ hask =>
      rw [hask] at h₂
      exact ⟨h₂.rollbackForfeit, nofun⟩

theorem dropReserved_same (hne : op' ≠ op) : Same op' m (m.dropReserved op) :=
  ⟨by simp [Manager.dropReserved, hne], rfl, rfl⟩

theorem Asleep.dropReserved (h : Asleep op m) : Asleep op (m.dropReserved op') := ⟨h.row, h.child⟩

/-- What an ask that may end a reservation leaves at an outpoint. -/
structure Ended (ended : List Outpoint) (m m' : Manager) : Prop where
  counter : m'.reserveEpoch = m.reserveEpoch
  reserved : ∀ op, m'.reserved op = if op ∈ ended then none else m.reserved op
  asleep : ∀ op, op ∉ ended → Asleep op m → Asleep op m'

theorem Ended.refl : Ended [] m m := ⟨rfl, fun _ => rfl, fun _ _ h => h⟩

theorem Ended.trans (h : Ended e m m') (h' : Ended e' m' m'') : Ended (e ++ e') m m'' := by
  refine ⟨h'.counter.trans h.counter, ?_, ?_⟩
  · intro op
    rw [h'.reserved, h.reserved]
    grind
  · intro op hnot hm
    rw [mem_append, not_or] at hnot
    exact h'.asleep op hnot.2 (h.asleep op hnot.1 hm)

theorem dropReserved_ended : Ended [op] m (m.dropReserved op) := by
  refine ⟨rfl, fun op' => ?_, fun _ _ hs => hs.dropReserved⟩
  simp [Manager.dropReserved, Function.update_apply]

theorem ended_of_asleep (hask : ask cfg m op event reply = (m', ok))
    (h : ∀ op', Asleep op' m → Asleep op' (ask cfg m op event reply).1) : Ended [] m m' := by
  have hmarks := marks_of_ask hask
  rw [hask] at h
  exact ⟨hmarks.counter, fun op' => by simp [hmarks.reserved], fun op' _ => h op'⟩

theorem ended_of_refused (hans : reply.answered = true) (he : automaticRefreshHeight event = none)
    (hask : ask cfg m op event reply = (m', false)) : Ended [] m m' :=
  ended_of_asleep hask fun _ h => h.ask hans he fun _ => by rw [hask]

/-- An ask for the release of a forfeit ends no spend reservation. -/
theorem ended_of_forfeitReleased {round : RoundId} (hans : reply.answered = true)
    (hask : ask cfg m op (.forfeitReleased round) reply = (m', ok)) : Ended [] m m' := by
  refine ended_of_asleep hask fun op' h => h.ask hans rfl ?_
  rintro rfl
  exact h.refuses hans (.inr ⟨round, rfl⟩)

theorem ended_of_done (hask : ask cfg m op event reply = (m', true)) :
    Ended [op] m (m'.dropReserved op) := by
  have hmarks := marks_of_ask hask
  refine ⟨hmarks.counter, ?_, ?_⟩
  · intro op'
    simp only [Manager.dropReserved, hmarks.reserved, Function.update_apply, mem_singleton]
  intro op' hnot h
  have hne : op' ≠ op := fun heq => hnot (by simp [heq])
  have hs : Same op' m (ask cfg m op event reply).1 := ask_same hne
  rw [hask] at hs
  exact (h.same hs).dropReserved

theorem releaseSpends_ended :
    let r := releaseSpends cfg epochs (answer ans) ops m
    Ended r.2.1 m r.1 := by
  induction ops generalizing m with
  | nil => exact .refl
  | cons op ops ih =>
    simp only [releaseSpends]
    split
    · exact ih
    split
    · next m₁ hask => exact (ended_of_done hask).trans ih
    · next m₁ hask => exact (ended_of_refused rfl rfl hask).trans ih

theorem releaseSpends_same (h : superseded m op (epochs op) = true) :
    let r := releaseSpends cfg epochs (answer ans) ops m
    Same op m r.1 := by
  induction ops generalizing m with
  | nil => exact .refl
  | cons op' ops ih =>
    have hkeep : ∀ {m₁ : Manager}, Same op m m₁ → superseded m₁ op (epochs op) = true := by
      intro m₁ hs
      unfold superseded
      rw [hs.reserved]
      exact h
    simp only [releaseSpends]
    split
    · exact ih h
    next hnot =>
    have hne : op ≠ op' := by
      rintro rfl
      exact hnot h
    have hs : Same op m (ask cfg m op' .spendReleased (answer ans op')).1 := ask_same hne
    split
    · next m₁ hask =>
      rw [hask] at hs
      have hs := hs.trans (dropReserved_same hne)
      exact hs.trans (ih (hkeep hs))
    · next m₁ hask =>
      rw [hask] at hs
      exact hs.trans (ih (hkeep hs))

theorem completeSpend_ended {lookup : Lookup} {done : Bool}
    (h : completeSpend cfg m op lookup (answer ans op) = (m', done)) :
    Ended (if done then [op] else []) m m' := by
  have hdrop : Ended [op] m (m.dropReserved op) := dropReserved_ended
  unfold completeSpend at h
  split at h
  · split at h
    · split at h
      · cases h
        exact hdrop
      · cases h
        exact .refl
    · cases h
      exact .refl
    · cases h
      exact .refl
  · split at h
    · next hask =>
      cases h
      exact ended_of_done hask
    · next hask =>
      cases h
      exact ended_of_refused rfl rfl hask

theorem completeSpends_ended :
    let r := completeSpends cfg reads (answer ans) ops m
    Ended r.2.1 m r.1 := by
  induction ops generalizing m with
  | nil => exact .refl
  | cons op ops ih =>
    simp only [completeSpends]
    split
    · next m₁ hdone => exact (completeSpend_ended hdone).trans ih
    · next m₁ hdone => exact completeSpend_ended hdone

theorem releaseForfeits_ended {round : RoundId} :
    Ended [] m (releaseForfeits cfg round (answer ans) ops m).1 := by
  induction ops generalizing m with
  | nil => exact .refl
  | cons op ops ih =>
    simp only [releaseForfeits]
    split
    · next m₁ hask => exact (ended_of_forfeitReleased rfl hask).trans ih
    · next m₁ hask => exact (ended_of_forfeitReleased rfl hask).trans ih

end Handlers

section Detached

theorem rollbackSpend_spec :
    (rollbackSpend m ops).reserveEpoch = m.reserveEpoch ∧
      ∀ op, op ∉ ops → Same op m (rollbackSpend m ops) := by
  induction ops generalizing m with
  | nil => exact ⟨rfl, fun _ _ => .refl⟩
  | cons op ops ih =>
    rw [rollbackSpend, foldl_cons]
    obtain ⟨hepoch, hsame⟩ := @ih ((m.dropReserved op).enqueue op { event := .spendReleased })
    refine ⟨hepoch, fun op' hnot => ?_⟩
    obtain ⟨hne, hops⟩ := not_or.1 (mem_cons.not.1 hnot)
    refine .trans ?_ (hsame op' hops)
    exact ⟨by simp [Manager.dropReserved, Manager.enqueue, hne], by
      simp [Manager.dropReserved, Manager.enqueue, hne], rfl⟩

def Manager.reserve (m : Manager) (op : Outpoint) : Manager :=
  (m.markReserved op).1.enqueue op { event := .spendReserve, watch := some (m.reserveEpoch + 1) }

theorem reserve_same (hne : op' ≠ op) : Same op' m (m.reserve op) :=
  ⟨by simp [Manager.reserve, Manager.markReserved, Manager.enqueue, hne],
    by simp [Manager.reserve, Manager.markReserved, Manager.enqueue, hne], rfl⟩

/-- A spend that fails leaves the outpoints it has not selected alone. -/
theorem reserveDetached_error
    (h : reserveDetached reads spawnOk selected reserved m = (m', .error e)) :
    m.reserveEpoch ≤ m'.reserveEpoch ∧ ∀ op, op ∉ reserved.map SelectedVTXO.outpoint →
      op ∉ selected.map Candidate.outpoint → Same op m m' := by
  induction selected generalizing reserved m with
  | nil => cases h
  | cons c selected ih =>
    simp only [reserveDetached] at h
    split at h
    · cases h
      obtain ⟨hepoch, hsame⟩ := @rollbackSpend_spec m (reserved.map SelectedVTXO.outpoint)
      exact ⟨hepoch.ge, fun op hres _ => hsame op hres⟩
    next m₁ hm₁ =>
    obtain ⟨hepoch, hsame⟩ := ih h
    have hstep : m.reserveEpoch + 1 ≤ m'.reserveEpoch := by
      rw [← (resident_marks hm₁).counter]
      exact hepoch
    refine ⟨Nat.le_of_succ_le hstep, fun op hres hsel => ?_⟩
    rw [map_cons, mem_cons, not_or] at hsel
    have hrest := hsame op (by simpa using ⟨by simpa using hres, hsel.1⟩) hsel.2
    exact ((resident_same hsel.1 hm₁).trans (reserve_same hsel.1)).trans hrest

/-- What a granted spend has issued: one mark for each selected outpoint, with the next
epochs in turn. -/
structure Grant (selected : List Candidate) (vtxos : List SelectedVTXO) (m m' : Manager) :
    Prop where
  outpoints : vtxos.map SelectedVTXO.outpoint = selected.map Candidate.outpoint
  epochs : vtxos.map SelectedVTXO.reserveEpoch = List.range' (m.reserveEpoch + 1) vtxos.length
  counter : m'.reserveEpoch = m.reserveEpoch + vtxos.length
  marks : ∀ v ∈ vtxos, m'.reserved v.outpoint = some v.reserveEpoch
  same : ∀ op, op ∉ selected.map Candidate.outpoint → Same op m m'

theorem reserveDetached_ok (hnodup : (selected.map Candidate.outpoint).Nodup)
    (h : reserveDetached reads spawnOk selected reserved m = (m', .ok vtxos)) :
    ∃ new, vtxos = reserved ++ new ∧ Grant selected new m m' := by
  induction selected generalizing reserved m with
  | nil =>
    cases h
    exact ⟨[], by simp, rfl, rfl, rfl, nofun, fun _ _ => .refl⟩
  | cons c selected ih =>
    obtain ⟨hfresh, hnodup⟩ := nodup_cons.1 hnodup
    simp only [reserveDetached] at h
    split at h
    · cases h
    next m₁ hm₁ =>
    have hepoch := (resident_marks hm₁).counter
    obtain ⟨new, rfl, hgrant⟩ := ih hnodup h
    refine ⟨⟨c.outpoint, c.amount, m₁.reserveEpoch + 1⟩ :: new, by simp [Manager.markReserved], ?_, ?_,
      ?_, ?_, ?_⟩
    · rw [map_cons, map_cons, hgrant.outpoints]
    · have hnext : (m₁.reserve c.outpoint).reserveEpoch = m.reserveEpoch + 1 := by
        rw [← hepoch]
        rfl
      rw [map_cons, length_cons, range'_succ, hepoch]
      exact congrArg _ (hnext ▸ hgrant.epochs)
    · have hcounter : m'.reserveEpoch = m₁.reserveEpoch + 1 + new.length := hgrant.counter
      rw [hcounter, hepoch, length_cons]
      omega
    · intro v hv
      rcases mem_cons.1 hv with rfl | hv
      · rw [(hgrant.same c.outpoint hfresh).reserved]
        simp [Manager.markReserved, Manager.enqueue]
      · exact hgrant.marks v hv
    · intro op hnot
      rw [map_cons, mem_cons, not_or] at hnot
      exact ((resident_same hnot.1 hm₁).trans (reserve_same hnot.1)).trans (hgrant.same op hnot.2)

end Detached

end Wavelength.Vtxo
