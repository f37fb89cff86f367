import Wavelength.Vtxo.Handlers

/-! # One holder for each spend reservation

A VTXO that is held carries a mark, or after a restart is kept from every selection by
its row. A release or a failure report names the mark that it ends by its epoch.
-/

namespace Wavelength.Vtxo

open List Option

/-- A release or a failure report that names an epoch for an outpoint. -/
def Act.Carries (op : Outpoint) (epoch : ℕ) : Act → Prop
  | .releaseSpend ops epochs _ => op ∈ ops ∧ epochs op = epoch
  | .reserveFailed op' epoch' => op' = op ∧ epoch' = epoch
  | _ => False

/-- Nothing held is handed out again, an epoch other than the holder's changes nothing at its
outpoint, and the epochs of one process are all different. -/
structure Exclusive (s : Holders) (a : Act) (s' : Holders) : Prop where
  free : ∀ op ∈ s'.handed, s.held op = none
  kept : ∀ op epoch h, a.Carries op epoch → epoch ≠ 0 → s.held op = some h →
    h.lifetime = s.lifetime → epoch ≠ h.epoch → Same op s.m s'.m
  distinct : (s'.issued.map Prod.snd).Nodup

/-- A restart reads the lists of its sweeps and recovers the actor of every live row that
has a reservation row. -/
def Recovers (s : Holders) (a : Act) (_ : Holders) : Prop :=
  match a with
  | .restart lost listsOk _ => listsOk = true ∧ ∀ op ∈ lost,
      ¬((s.m.row op).status = .live ∧ (s.m.row op).spendReservation = true)
  | _ => True

instance (s : Holders) (a : Act) (s' : Holders) : Decidable (Recovers s a s') := by
  unfold Recovers
  split <;> infer_instance

/-- The invariant of the runs. A VTXO that is held has a mark or is asleep; its mark is
the holder's unless a restart lies between. -/
structure Owned (s : Holders) : Prop where
  guarded : ∀ op h, s.held op = some h → s.m.reserved op ≠ none ∨ Asleep op s.m
  current : ∀ op h, s.held op = some h → h.lifetime = s.lifetime →
    s.m.reserved op = some h.epoch ∧ 0 < h.epoch
  past : ∀ op h, s.held op = some h → h.lifetime ≤ s.lifetime
  nodup : (s.issued.map Prod.snd).Nodup
  bound : ∀ i ∈ s.issued, i.2.lifetime ≤ s.lifetime ∧
    (i.2.lifetime = s.lifetime → i.2.epoch ≤ s.m.reserveEpoch)

theorem owned_init : Owned { m := { store := store } } := ⟨nofun, nofun, nofun, nodup_nil, nofun⟩

section Steps

theorem Owned.ended {ended : List Outpoint} (h : Owned s) (he : Ended ended s.m s'.m)
    (hheld : ∀ op, s'.held op = if op ∈ ended then none else s.held op)
    (hlife : s'.lifetime = s.lifetime) (hissued : s'.issued = s.issued) : Owned s' := by
  have hback : ∀ {op h'}, s'.held op = some h' → op ∉ ended ∧ s.held op = some h' := by
    intro op h' hh
    rw [hheld] at hh
    split at hh
    · cases hh
    · next hnot => exact ⟨hnot, hh⟩
  refine ⟨?_, ?_, ?_, hissued ▸ h.nodup, ?_⟩
  · intro op h' hh
    obtain ⟨hnot, hh⟩ := hback hh
    rw [he.reserved, if_neg hnot]
    exact (h.guarded op h' hh).imp id (he.asleep op hnot)
  · intro op h' hh hl
    obtain ⟨hnot, hh⟩ := hback hh
    rw [he.reserved, if_neg hnot]
    exact h.current op h' hh (hl.trans hlife)
  · intro op h' hh
    rw [hlife]
    exact h.past op h' (hback hh).2
  · intro i hi
    rw [hlife, he.counter]
    exact h.bound i (hissued ▸ hi)

theorem Owned.unended (h : Owned s) (he : Ended [] s.m s'.m) (hheld : s'.held = s.held)
    (hlife : s'.lifetime = s.lifetime) (hissued : s'.issued = s.issued) : Owned s' :=
  h.ended he (fun op => by simp [hheld]) hlife hissued

theorem Owned.selected_free (h : Owned s)
    (hsel : selectVTXOs s.m (s.m.reads order readOk) p = .ok selected) :
    (selected.map Candidate.outpoint).Nodup ∧
      ∀ op ∈ selected.map Candidate.outpoint, s.held op = none := by
  obtain ⟨listing, hlisting, hnodup, hmem⟩ := selectVTXOs_ok hsel
  refine ⟨hnodup, fun op hop => ?_⟩
  obtain ⟨c, hc, rfl⟩ := mem_map.1 hop
  obtain ⟨hrow, hfree⟩ := hmem c hc
  have hlive : (s.m.row c.outpoint).status = .live := by
    simp only [Manager.reads] at hlisting
    split at hlisting
    · cases hlisting
      obtain ⟨op', -, hcand⟩ := mem_filterMap.1 hrow
      obtain ⟨rfl, hlive⟩ := candidate_outpoint hcand
      exact hlive
    · cases hlisting
  rw [Manager.isReserved, isSome_eq_false_iff, isNone_iff_eq_none] at hfree
  cases hheld : s.held c.outpoint with
  | none => rfl
  | some h' =>
    rcases h.guarded _ _ hheld with hmark | hasleep
    · exact absurd hfree hmark
    · exact absurd hlive hasleep.row

theorem holderOf_eq_some (hh : holderOf vtxos lifetime op = some h) :
    ∃ v ∈ vtxos, v.outpoint = op ∧ h = ⟨v.reserveEpoch, lifetime⟩ := by
  obtain ⟨v, hfind, rfl⟩ := map_eq_some_iff.1 hh
  exact ⟨v, mem_of_find?_eq_some hfind, by simpa using find?_some hfind, rfl⟩

/-- The epochs of a grant are above the counter they start from. -/
theorem Grant.epoch_mem (hg : Grant selected vtxos m m') (hv : v ∈ vtxos) :
    m.reserveEpoch < v.reserveEpoch ∧ v.reserveEpoch ≤ m'.reserveEpoch := by
  have hmem : v.reserveEpoch ∈ vtxos.map SelectedVTXO.reserveEpoch := mem_map_of_mem hv
  rw [hg.epochs, mem_range'_1] at hmem
  rw [hg.counter]
  omega

theorem Owned.issue_nodup (h : Owned s) (hg : Grant selected vtxos s.m m') :
    ((s.issued ++ vtxos.map fun v => (v.outpoint, (⟨v.reserveEpoch, s.lifetime⟩ : Holder))).map
      Prod.snd).Nodup := by
  rw [List.map_append, List.map_map]
  refine nodup_append'.2 ⟨h.nodup, ?_, ?_⟩
  · have hepochs : (vtxos.map SelectedVTXO.reserveEpoch).Nodup := by
      rw [hg.epochs]
      exact nodup_range'
    have hholders := hepochs.map (f := fun e => (⟨e, s.lifetime⟩ : Holder))
      fun _ _ heq => (Holder.mk.inj heq).1
    rwa [List.map_map] at hholders
  · intro holder hold hnew
    obtain ⟨i, hi, rfl⟩ := mem_map.1 hold
    obtain ⟨v, hv, heq⟩ := mem_map.1 hnew
    have hle := (h.bound i hi).2 (by rw [← heq]; rfl)
    have hlt := (hg.epoch_mem hv).1
    have : i.2.epoch = v.reserveEpoch := by rw [← heq]; rfl
    omega

theorem Owned.spend (h : Owned s) :
    let s' := stepSpend s (s.m.reads order readOk) spawnOk p
    Owned s' ∧ ∀ op ∈ s'.handed, s.held op = none := by
  simp only [stepSpend, handleSelectAndReserveSpend]
  cases hsel : selectVTXOs s.m (s.m.reads order readOk) p with
  | error e => exact ⟨h.unended .refl rfl rfl rfl, nofun⟩
  | ok selected =>
    obtain ⟨hnodup, hfree⟩ := h.selected_free hsel
    have hnot : ∀ {op h'}, s.held op = some h' → op ∉ selected.map Candidate.outpoint := by
      intro op h' hh hmem
      rw [hfree op hmem] at hh
      cases hh
    rcases hres : reserveDetached (s.m.reads order readOk) spawnOk selected [] s.m with
      ⟨m', e | vtxos⟩
    · obtain ⟨hepoch, hsame⟩ := reserveDetached_error hres
      simp only [hres]
      have hsame : ∀ {op h'}, s.held op = some h' → Same op s.m m' :=
        fun hh => hsame _ not_mem_nil (hnot hh)
      refine ⟨⟨?_, ?_, h.past, h.nodup, ?_⟩, nofun⟩
      · intro op h' hh
        rw [(hsame hh).reserved]
        exact (h.guarded op h' hh).imp id fun ha => ha.same (hsame hh)
      · intro op h' hh hl
        rw [(hsame hh).reserved]
        exact h.current op h' hh hl
      · exact fun i hi => ⟨(h.bound i hi).1, fun hl => ((h.bound i hi).2 hl).trans hepoch⟩
    · obtain ⟨new, hnew, hgrant⟩ := reserveDetached_ok hnodup hres
      rw [nil_append] at hnew
      subst hnew
      simp only [hres]
      refine ⟨⟨?_, ?_, ?_, h.issue_nodup hgrant, ?_⟩, ?_⟩
      · intro op h' hh
        rcases or_eq_some_iff.1 hh with hh | ⟨-, hh⟩
        · obtain ⟨v, hv, rfl, rfl⟩ := holderOf_eq_some hh
          exact .inl (by simp [hgrant.marks v hv])
        · have hsame := hgrant.same op (hnot hh)
          rw [hsame.reserved]
          exact (h.guarded op h' hh).imp id fun ha => ha.same hsame
      · intro op h' hh hl
        rcases or_eq_some_iff.1 hh with hh | ⟨-, hh⟩
        · obtain ⟨v, hv, rfl, rfl⟩ := holderOf_eq_some hh
          exact ⟨hgrant.marks v hv, Nat.zero_lt_of_lt (hgrant.epoch_mem hv).1⟩
        · rw [(hgrant.same op (hnot hh)).reserved]
          exact h.current op h' hh hl
      · intro op h' hh
        rcases or_eq_some_iff.1 hh with hh | ⟨-, hh⟩
        · obtain ⟨v, -, -, rfl⟩ := holderOf_eq_some hh
          exact le_rfl
        · exact h.past op h' hh
      · intro i hi
        rcases mem_append.1 hi with hi | hi
        · refine ⟨(h.bound i hi).1, fun hl => ((h.bound i hi).2 hl).trans ?_⟩
          rw [hgrant.counter]
          exact Nat.le_add_right _ _
        · obtain ⟨v, hv, rfl⟩ := mem_map.1 hi
          exact ⟨le_rfl, fun _ => (hgrant.epoch_mem hv).2⟩
      · rw [hgrant.outpoints]
        exact hfree

theorem respawn_asleep
    (h : Asleep op m) : respawnActorFromStore (m.reads order readOk) spawnOk op = none := by
  have hrow := h.row
  simp only [respawnActorFromStore, Manager.reads, Manager.lookup]
  cases readOk with
  | false => rfl
  | true =>
    cases hstore : m.store op with
    | none => rfl
    | some stored =>
      simp only [Manager.row, hstore, map_some, getD_some] at hrow
      simp [hrow]

theorem reserveForfeits_ended (hspawn : ∀ op, Asleep op m → spawn op = none) :
    Ended [] m (reserveForfeits cfg spawn (answer ans) (answer rollback) ops [] m).1 := by
  have hmarks : SameMarks m
    (reserveForfeits cfg spawn (answer ans) (answer rollback) ops [] m).1 := reserveForfeits_marks
  refine ⟨hmarks.counter, fun op => by simp [hmarks.reserved], fun op _ h => ?_⟩
  exact (h.reserveForfeits (hspawn op h)).1

theorem Owned.selectForfeit (h : Owned s) :
    let s' := stepSelectForfeit cfg s (s.m.reads order readOk) spawnOk target ans rollback
    Owned s' ∧ ∀ op ∈ s'.handed, s.held op = none := by
  simp only [stepSelectForfeit, handleSelectAndReserveForfeit]
  cases hsel : selectVTXOs s.m (s.m.reads order readOk) { targetAmount := target } with
  | error e => exact ⟨h.unended .refl rfl rfl rfl, nofun⟩
  | ok selected =>
    have hfree := (h.selected_free hsel).2
    have hended : Ended [] s.m (reserveForfeits cfg
        (respawnActorFromStore (s.m.reads order readOk) spawnOk) (answer ans) (answer rollback)
        (selected.map Candidate.outpoint) [] s.m).1 :=
      reserveForfeits_ended fun op ha => respawn_asleep ha
    rcases hres : reserveForfeits cfg (respawnActorFromStore (s.m.reads order readOk) spawnOk)
      (answer ans) (answer rollback) (selected.map Candidate.outpoint) [] s.m with ⟨m', e | ⟨⟩⟩
    · rw [hres] at hended
      simp only [hres, Except.map]
      exact ⟨h.unended hended rfl rfl rfl, nofun⟩
    · rw [hres] at hended
      simp only [hres, Except.map, List.map_map]
      exact ⟨h.unended hended rfl rfl rfl, hfree⟩

theorem admissible_ok (h : admissible m ops = .ok ()) : ∀ op ∈ ops, m.reserved op = none := by
  induction ops with
  | nil => exact nofun
  | cons op ops ih =>
    simp only [admissible] at h
    split at h
    · cases h
    split at h
    · cases h
    next hfree =>
    rintro op' (_ | ⟨_, hmem⟩)
    · simpa [Manager.isReserved] using hfree
    · exact ih h op' hmem

theorem Owned.reserveForfeit (h : Owned s) :
    let s' := stepReserveForfeit cfg s ops ans rollback
    Owned s' ∧ ∀ op ∈ s'.handed, s.held op = none := by
  simp only [stepReserveForfeit, handleReserveForfeit]
  cases hadm : admissible s.m (dedupOutpoints ops []) with
  | error e => exact ⟨h.unended .refl rfl rfl rfl, nofun⟩
  | ok _ =>
    have hended : Ended [] s.m (reserveForfeits cfg (fun _ => none) (answer ans) (answer rollback)
      (dedupOutpoints ops []) [] s.m).1 := reserveForfeits_ended fun _ _ => rfl
    have hasleep : ∀ op, Asleep op s.m → (reserveForfeits cfg (fun _ => none) (answer ans)
        (answer rollback) (dedupOutpoints ops []) [] s.m).2 = .ok () → op ∉ dedupOutpoints ops [] :=
      fun op ha => (ha.reserveForfeits rfl).2
    rcases hres : reserveForfeits cfg (fun _ => none) (answer ans) (answer rollback)
      (dedupOutpoints ops []) [] s.m with ⟨m', e | ⟨⟩⟩
    · rw [hres] at hended
      dsimp only
      exact ⟨h.unended hended rfl rfl rfl, nofun⟩
    rw [hres] at hended hasleep
    dsimp only
    refine ⟨h.unended hended rfl rfl rfl, fun op hop => ?_⟩
    have hop := mem_dedupOutpoints.2 hop
    cases hheld : s.held op with
    | none => rfl
    | some h' =>
      -- a mark fails the check, a sleeping actor refuses
      rcases h.guarded op h' hheld with hmark | ha
      · exact absurd (admissible_ok hadm op hop) hmark
      · exact absurd hop (hasleep op ha rfl)

theorem put_ended {row : Row} (h : ¬Asleep op m) : Ended [] m (m.put op child row) := by
  refine ⟨rfl, fun _ => rfl, fun op' _ ha => ?_⟩
  have hne : op' ≠ op := by
    rintro rfl
    exact h ha
  exact ha.same ⟨rfl, by simp [Manager.put, hne], by simp [Manager.put, hne]⟩

theorem not_asleep (hact : m.actors op = some child) (hinbox : child.inbox ≠ []) : ¬Asleep op m :=
  fun ha => hinbox (ha.child child hact).2

theorem timeout_ended (h : ¬Asleep op m) :
    Ended [] m { m with actors := Function.update m.actors op (some child) } := by
  refine ⟨rfl, fun _ => rfl, fun op' _ ha => ?_⟩
  have hne : op' ≠ op := by
    rintro rfl
    exact h ha
  exact ha.same ⟨rfl, by simp [hne], rfl⟩

theorem terminated_ended : Ended [op] m (handleVTXOTerminated m op) := by
  refine ⟨rfl, dropReserved_ended.reserved, fun op' hnot ha => ?_⟩
  have hne : op' ≠ op := fun heq => hnot (by simp [heq])
  exact ha.same ⟨(dropReserved_same hne).reserved, by simp [handleVTXOTerminated, hne], rfl⟩

theorem checkpoint_ended : Ended [] s.m (stepCheckpoint s op).m := by
  refine ⟨rfl, fun _ => rfl, fun op' _ ha => ⟨?_, ha.child⟩⟩
  have hrow := ha.row
  by_cases hop : op' = op
  · subst hop
    simp only [stepCheckpoint, Manager.row, Function.update_self] at hrow ⊢
    cases hstore : s.m.store op' with
    | none => simp [hstore] at hrow
    | some stored => simpa [hstore] using hrow
  · simpa only [stepCheckpoint, Manager.row, Function.update_of_ne hop] using hrow

theorem recover_guarded {stored : Stored} {pendingOk : Bool}
    (hres : stored.row.spendReservation = true) :
    (recover true pendingOk stored).2 = some 0 ∨ stored.row.status = .spending ∧
      (∃ height, (recover true pendingOk stored).1.actor.state = .spending height) ∧
      (recover true pendingOk stored).1.inbox = [] := by
  by_cases hstatus : stored.row.status = .spending
  · refine .inr ⟨hstatus, ?_⟩
    simp [recover, hstatus, hres, newActor, statusToState]
  · exact .inl (by simp [recover, hstatus, hres])

theorem Owned.restart {lost : List Outpoint} {listsOk pendingOk : Bool} (h : Owned s)
    (hrec : Recovers s (.restart lost listsOk pendingOk) s') :
    Owned (stepRestart s lost listsOk pendingOk) := by
  obtain ⟨rfl, hlost⟩ := hrec
  have hback : ∀ {op h'}, (stepRestart s lost true pendingOk).held op = some h' →
      (s.m.row op).spendReservation = true ∧ s.held op = some h' := by
    intro op h' hh
    simp only [stepRestart] at hh
    split at hh
    · next hres => exact ⟨hres, hh⟩
    · cases hh
  refine ⟨?_, ?_, ?_, h.nodup, ?_⟩
  · intro op h' hh
    obtain ⟨hres, hh⟩ := hback hh
    cases hstore : s.m.store op with
    | none =>
      simp only [Manager.row, hstore] at hres
      cases hres
    | some stored =>
      simp only [Manager.row, hstore, map_some, getD_some] at hres
      have hrow : s.m.row op = stored.row := by simp [Manager.row, hstore]
      have hrow' : (stepRestart s lost true pendingOk).m.row op = stored.row := hrow
      by_cases hrecovered : stored.row.status.recoverable = true ∧ op ∉ lost
      · rcases @recover_guarded stored pendingOk hres with hmark | ⟨hspending, hstate, hinbox⟩
        · refine .inl ?_
          simp [stepRestart, hstore, hrecovered, hmark]
        refine .inr ⟨by simp [hrow', hspending], fun child hchild => ?_⟩
        simp only [stepRestart, hstore, bind_some, if_pos hrecovered, map_some,
          some.injEq] at hchild
        subst hchild
        exact ⟨hstate, hinbox⟩
      · -- without an actor only the row stands between the VTXO and a selection
        refine .inr ⟨?_, fun child hchild => ?_⟩
        · rw [hrow']
          intro hlive
          refine hrecovered ⟨by rw [hlive]; rfl, fun hmem => hlost op hmem ?_⟩
          rw [hrow]
          exact ⟨hlive, hres⟩
        · simp [stepRestart, hstore, hrecovered] at hchild
  · intro op h' hh hl
    have hle := h.past op h' (hback hh).2
    have hl : h'.lifetime = s.lifetime + 1 := hl
    omega
  · intro op h' hh
    exact (h.past op h' (hback hh).2).trans (Nat.le_succ _)
  · intro i hi
    have hle := (h.bound i hi).1
    refine ⟨hle.trans (Nat.le_succ _), fun hl => ?_⟩
    have hl : i.2.lifetime = s.lifetime + 1 := hl
    omega

end Steps

section Runs

theorem Owned.superseded (h : Owned s) (hheld : s.held op = some h') (hl : h'.lifetime = s.lifetime)
    (hzero : epoch ≠ 0) (hne : epoch ≠ h'.epoch) : Vtxo.superseded s.m op epoch = true := by
  obtain ⟨hmark, hpos⟩ := h.current op h' hheld hl
  have hcur : h'.epoch ≠ 0 := by omega
  simp [Vtxo.superseded, hzero, hmark, hcur, hne.symm]

theorem Owned.reserveFailed {epoch : ℕ} (h : Owned s) :
    Owned (stepReserveFailed s op epoch) ∧ Exclusive s (.reserveFailed op epoch)
      (stepReserveFailed s op epoch) := by
  simp only [stepReserveFailed, Manager.dropReservedEpoch]
  by_cases hmark : s.m.reserved op = some epoch
  · simp only [if_pos hmark]
    refine ⟨h.ended dropReserved_ended (fun _ => rfl) rfl rfl, nofun, ?_, h.nodup⟩
    rintro op' e h' ⟨rfl, rfl⟩ - hheld hl hne
    have hcur := (h.current op h' hheld hl).1
    rw [hmark, some.injEq] at hcur
    exact absurd hcur hne
  · simp only [if_neg hmark]
    exact ⟨h.unended .refl rfl rfl rfl, nofun, fun _ _ _ _ _ _ _ _ => .refl, h.nodup⟩

theorem Exclusive.of_silent (hsilent : ∀ op epoch, ¬a.Carries op epoch) (h' : Owned s')
    (hfree : ∀ op ∈ s'.handed, s.held op = none) : Exclusive s a s' :=
  ⟨hfree, fun op epoch _ hcarries => absurd hcarries (hsilent op epoch), h'.nodup⟩

theorem Owned.step {a : Act} (h : Owned s) (hrec : Recovers s a s')
    (hstep : Holders.step cfg s a = some s') : Owned s' ∧ Exclusive s a s' := by
  -- what a step without an epoch has to show
  have silent : ∀ {a : Act}, (∀ op epoch, ¬a.Carries op epoch) →
      Owned s' ∧ (∀ op ∈ s'.handed, s.held op = none) → Owned s' ∧ Exclusive s a s' :=
    fun hsilent hs' => ⟨hs'.1, .of_silent hsilent hs'.1 hs'.2⟩
  cases a with
  | spend order readOk spawnOk p =>
    cases hstep
    exact silent (fun _ _ => id) h.spend
  | selectForfeit order readOk spawnOk target ans rollback =>
    cases (ite_none_right_eq_some.1 hstep).2
    exact silent (fun _ _ => id) h.selectForfeit
  | reserveForfeit ops ans rollback =>
    cases (ite_none_right_eq_some.1 hstep).2
    exact silent (fun _ _ => id) h.reserveForfeit
  | releaseSpend ops epochs ans =>
    cases (ite_none_right_eq_some.1 hstep).2
    have h' : Owned (s.finish (handleReleaseSpend cfg s.m ops epochs (answer ans)).1
        (handleReleaseSpend cfg s.m ops epochs (answer ans)).2.1) :=
      h.ended releaseSpends_ended (fun _ => rfl) rfl rfl
    refine ⟨h', nofun, ?_, h'.nodup⟩
    rintro op epoch holder ⟨-, rfl⟩ hzero hheld hl hne
    exact releaseSpends_same (h.superseded hheld hl hzero hne)
  | completeSpend ops readOk ans =>
    cases (ite_none_right_eq_some.1 hstep).2
    exact silent (fun _ _ => id) ⟨h.ended completeSpends_ended (fun _ => rfl) rfl rfl, nofun⟩
  | releaseForfeit ops round ans =>
    cases (ite_none_right_eq_some.1 hstep).2
    exact silent (fun _ _ => id) ⟨h.unended releaseForfeits_ended rfl rfl rfl, nofun⟩
  | reserveFailed op epoch =>
    cases (ite_none_right_eq_some.1 hstep).2
    exact h.reserveFailed
  | terminated op =>
    cases (ite_none_right_eq_some.1 hstep).2
    exact silent (fun _ _ => id) ⟨h.ended terminated_ended (fun _ => rfl) rfl rfl, nofun⟩
  | turn op ans late readOk =>
    simp only [Holders.step] at hstep
    split at hstep
    · next child hact =>
      split at hstep
      · next item rest hinbox =>
        cases hstep
        have hawake := not_asleep hact (by simp [hinbox])
        exact silent (fun _ _ => id) ⟨h.unended (put_ended hawake) rfl rfl rfl, nofun⟩
      · cases hstep
    · cases hstep
  | timeout op epoch readOk =>
    simp only [Holders.step] at hstep
    split at hstep
    · next child hact =>
      split at hstep
      · next hany =>
        cases hstep
        have hawake : ¬Asleep op s.m := by
          refine not_asleep hact fun hnil => ?_
          simp [hnil] at hany
        exact silent (fun _ _ => id) ⟨h.unended (timeout_ended hawake) rfl rfl rfl, nofun⟩
      · cases hstep
    · cases hstep
  | checkpoint op =>
    cases hstep
    exact silent (fun _ _ => id) ⟨h.unended checkpoint_ended rfl rfl rfl, nofun⟩
  | restart lost listsOk pendingOk =>
    cases hstep
    exact silent (fun _ _ => id) ⟨h.restart hrec, nofun⟩

variable {cfg : Config} {s : Holders}

/-- Where restarts bring back the actors of the live rows that are reserved, what is held is not
handed out again, and no epoch but the holder's ends a reservation of the running process. -/
theorem reservation_has_one_holder {acts : List Act} (hinit : (holders cfg).init s)
    (hrec : (holders cfg).Along Recovers s acts) : (holders cfg).Along Exclusive s acts := by
  obtain ⟨store, rfl⟩ := hinit
  refine (Machine.along_invariant Owned ?_ owned_init hrec).imp ?_
  · intro s a s' h hg hstep
    exact (h.step hg hstep).1
  · rintro s a s' - ⟨h, hg, hstep, -⟩
    exact (h.step hg hstep).2

def oneVTXO : Holders where
  m := {
    store := fun op => if op = 1 then
      some ⟨{ amount := 500, batchExpiry := 110, createdHeight := 10 }, {}⟩ else none }

def spendOne : Act := .spend [1] true (fun _ => true) { targetAmount := 400 }

def turnOne : Act := .turn 1 {} false true

def startUp : Act := .restart [] true true

/-- A reservation that is checkpointed and survives a restart, with a release of it at the
end. -/
def resumed : List Act :=
  [startUp, spendOne, spendOne, turnOne, .checkpoint 1, startUp, spendOne,
    .reserveForfeit [1] (fun _ => {}) (fun _ => {}), .releaseSpend [1] (fun _ => 1) (fun _ => {}), spendOne]

theorem resumed_one_holder :
    ((holders {}).run oneVTXO resumed).map (fun s => (s.handed, s.held 1)) =
      some ([1], some ⟨1, 2⟩) ∧
    (holders {}).Along Exclusive oneVTXO resumed :=
  ⟨by decide, reservation_has_one_holder ⟨_, rfl⟩ (by decide)⟩

/-- The process ends before the session of the first spend is checkpointed. -/
def swept : List Act := [startUp, spendOne, turnOne, startUp, turnOne]

/-- The first reservation is released, the second is checkpointed, the process restarts and
a release for the first one comes. -/
def staleRelease : List Act :=
  [startUp, spendOne, turnOne, .releaseSpend [1] (fun _ => 1) (fun _ => {}), spendOne, turnOne,
    .checkpoint 1, startUp]

/-- The sweep of a restart lets the VTXO be handed out again. After a restart a release with the
epoch of an earlier reservation returns the VTXO of a later one to live. -/
theorem swept_handed_out_and_staleRelease_frees :
    ((holders {}).run oneVTXO (swept.take 2)).map (·.handed) = some [1] ∧
    ((holders {}).run oneVTXO (swept ++ [spendOne])).map (·.handed) = some [1] ∧
    ((holders {}).run oneVTXO staleRelease).map (fun s => (s.held 1, (s.m.row 1).status)) =
      some (some ⟨2, 1⟩, .spending) ∧
    ((holders {}).run oneVTXO (staleRelease ++ [.releaseSpend [1] (fun _ => 1) (fun _ => {})])).map
      (fun s => (s.m.row 1).status) = some .live := by
  decide

end Runs

end Wavelength.Vtxo
