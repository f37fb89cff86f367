import Wavelength.Recovery.Session

/-! # What a snapshot reports

The walk over the layers puts every transaction that has not confirmed into one of three lists. It
fails for no session of a proof, so a snapshot is refused only when the maturity height of a
confirmed target does not fit its type.
-/

namespace Wavelength.Recovery

open List

namespace Session

variable {s : Session}

theorem mem_walk : (x, i) ∈ walk p ↔ Graph.InLayer p.layers i x := by
  simp only [walk, mem_flatMap, mem_map, Prod.mk.injEq, Prod.exists,
    mem_zipIdx_iff_getElem?, Graph.InLayer]
  constructor
  · rintro ⟨l, j, hl, y, hy, rfl, rfl⟩
    exact ⟨l, hl, hy⟩
  · rintro ⟨l, hl, hx⟩
    exact ⟨l, i, hl, x, hx, rfl, rfl⟩

theorem mem_txids_of_mem_walk (h : (x, i) ∈ walk p) : x ∈ p.txids := p.mem_of_inLayer (mem_walk.1 h)

theorem exists_mem_walk (h : x ∈ p.txids) : ∃ i, (x, i) ∈ walk p := by
  obtain ⟨i, hi⟩ := p.exists_inLayer h
  exact ⟨i, mem_walk.2 hi⟩

def actionOf (s : Session) (e : Hash × ℕ) : BroadcastAction :=
  ⟨e.1, s.proof.node e.1, e.2, parentsOf s.proof.nodes e.1⟩

def blockOf (s : Session) (e : Hash × ℕ) : BlockedAction := ⟨e.1, e.2, s.missing e.1⟩

def buckets (s : Session) (es : List (Hash × ℕ)) : Buckets where
  ready := (es.filter fun e => s.txState e.1 = .pending ∧ s.missing e.1 = []).map s.actionOf
  awaiting := (es.filter fun e => s.txState e.1 = .broadcasted).map Prod.fst
  blocked := (es.filter fun e => s.txState e.1 = .pending ∧ s.missing e.1 ≠ []).map s.blockOf

def Buckets.append (b c : Buckets) : Buckets :=
  ⟨b.ready ++ c.ready, b.awaiting ++ c.awaiting, b.blocked ++ c.blocked⟩

theorem classify_eq (b : Buckets) (hx : x ∈ s.proof.txids) :
    s.classify b (x, i) = .ok (b.append (s.buckets [(x, i)])) := by
  unfold classify
  dsimp only
  split
  · next h => simp [buckets, Buckets.append, h]
  · next h => simp [buckets, Buckets.append, h]
  · next h => simp [buckets, Buckets.append, h]
  · next h =>
    rw [missingParents_of_mem hx, Proof.parentTxids_of_mem hx]
    change (if (s.missing x).isEmpty then _ else _) = _
    by_cases hm : s.missing x = []
    · simp [buckets, Buckets.append, h, hm, actionOf]
    · simp [buckets, Buckets.append, h, hm, blockOf]

theorem buckets_cons (e : Hash × ℕ) (es : List (Hash × ℕ)) :
    s.buckets (e :: es) = (s.buckets [e]).append (s.buckets es) := by
  simp only [buckets, Buckets.append, ← map_append, ← filter_append, singleton_append]

theorem foldlM_classify (b : Buckets) {es : List (Hash × ℕ)}
    (h : ∀ e ∈ es, e.1 ∈ s.proof.txids) :
    es.foldlM s.classify b = .ok (b.append (s.buckets es)) := by
  induction es generalizing b with
  | nil => simp [buckets, Buckets.append]; rfl
  | cons e es ih =>
    rw [foldlM_cons, classify_eq b (h e mem_cons_self)]
    change es.foldlM s.classify _ = _
    rw [ih _ fun e he => h e (mem_cons_of_mem _ he), buckets_cons e es]
    simp [Buckets.append]

/-- The snapshot of a live session that still materializes. -/
def planning (s : Session) : Snapshot where
  status := .materializing
  readyToBroadcast := (s.buckets (walk s.proof)).ready
  awaitingConfirmation := sortHashes (s.buckets (walk s.proof)).awaiting
  blocked := (s.buckets (walk s.proof)).blocked
  csv := none
  failedTxid := s.failedTxid
  lastError := s.lastError

theorem snapshotAt_eq (s : Session) (height : Int32) :
    s.snapshotAt height =
      if s.lastError.isSome then
        .ok { s.planning with
          status := .failed, readyToBroadcast := [], awaitingConfirmation := [], blocked := [] }
      else if !s.materializationComplete then
        .ok s.planning
      else (s.csvStatusAt height).map fun csvStatus => { s.planning with
        csv := some csvStatus
        status := if csvStatus.ready then .sweepReady else .awaitingCSV } := by
  unfold snapshotAt
  rw [foldlM_classify _ fun e he => mem_txids_of_mem_walk he]
  rfl

/-- A live session lists what it plans, whatever its status is. -/
theorem snapshotAt_live (hlive : s.lastError = none) (h : s.snapshotAt height = .ok snap) :
    snap.readyToBroadcast = s.planning.readyToBroadcast ∧
      snap.awaitingConfirmation = s.planning.awaitingConfirmation ∧
      snap.blocked = s.planning.blocked := by
  rw [snapshotAt_eq, hlive, if_neg (by simp)] at h
  split at h
  · cases h
    exact ⟨rfl, rfl, rfl⟩
  cases hcsv : s.csvStatusAt height with
  | error e =>
    rw [hcsv] at h
    cases h
  | ok csvStatus =>
    rw [hcsv] at h
    cases h
    exact ⟨rfl, rfl, rfl⟩

theorem mem_readyToBroadcast :
    a ∈ s.planning.readyToBroadcast ↔
      ∃ x i, (x, i) ∈ walk s.proof ∧ s.txState x = .pending ∧ s.Backed x ∧
        a = s.actionOf (x, i) := by
  simp only [planning, buckets, mem_map, mem_filter, decide_eq_true_eq, missing_eq_nil, Prod.exists]
  constructor
  · rintro ⟨x, i, ⟨hw, hp, hb⟩, rfl⟩
    exact ⟨x, i, hw, hp, hb, rfl⟩
  · rintro ⟨x, i, hw, hp, hb, rfl⟩
    exact ⟨x, i, ⟨hw, hp, hb⟩, rfl⟩

end Session

/-- What holds of a session after every list of reports. -/
theorem session_keeps_order (p : Proof) (marks : List Mark) :
    let s := (newSession p).after marks
    (∀ x y, s.txState x = .confirmed → Spends p.nodes x y → s.txState y = .confirmed) ∧
    (∀ x, s.txState x = .broadcasted ∨ s.txState x = .confirmed →
      ∀ y, Spends p.nodes x y → s.txState y = .confirmed) ∧
    (∀ x, (∃ height, s.confirmHeights.lookup x = some height) ↔ s.txState x = .confirmed) ∧
    (∀ err more, s.lastError = some err →
      (s.after more).lastError = some err ∧ (s.after more).failedTxid = s.failedTxid) ∧
    (∀ height snap, s.lastError = none → s.snapshotAt height = .ok snap →
      ∀ a ∈ snap.readyToBroadcast, (s.markBroadcasted a.txid).2 = none) ∧
    ∀ m e, (s.mark m).2 = some e → (s.mark m).1 = s := by
  intro s
  have h : s.Sound p := (Session.newSession_sound p).after
  have hproof := h.proof_eq
  refine ⟨?_, ?_, ?_, ?_, ?_, ?_⟩
  · intro x y hx hxy
    exact h.backed x (by rw [hx]; exact nofun) y (hproof ▸ hxy)
  · intro x hx y hxy
    refine h.backed x ?_ y (hproof ▸ hxy)
    rcases hx with hx | hx <;> (rw [hx]; exact nofun)
  · intro x
    rw [← KeyMap.mem_keys]
    exact h.heights x
  · intro err more herr
    rw [Session.after_failed herr]
    exact ⟨herr, rfl⟩
  · intro height snap hlive hsnap a ha
    rw [(Session.snapshotAt_live hlive hsnap).1, Session.mem_readyToBroadcast] at ha
    obtain ⟨x, i, hw, hpending, hbacked, rfl⟩ := ha
    change (s.markBroadcasted x).2 = none
    rw [Session.markBroadcasted_of_ready hlive (Session.mem_txids_of_mem_walk hw)
      (by rw [hpending]; exact ⟨nofun, nofun⟩) hbacked]
  · exact fun m e he => Session.mark_eq_of_refused he

theorem session_keeps_order_sole :
    let s := (newSession soleProof).after [.confirmed soleTx.txHash 7]
    (∃ snap, s.snapshotAt 0 = .ok snap ∧ snap.readyToBroadcast.map (·.txid) = [soleTx.txHash]) ∧
      (s.markBroadcasted soleTx.txHash).2 = none := by
  have hsnap : ((newSession soleProof).after [.confirmed soleTx.txHash 7]).snapshotAt 0 =
      .ok ⟨.materializing, [⟨soleTx.txHash, some ⟨.tree, soleTx⟩, 0, []⟩], [], [], none, none,
        none⟩ := by decide +kernel
  refine ⟨⟨_, hsnap, rfl⟩, ?_⟩
  exact (session_keeps_order soleProof [.confirmed soleTx.txHash 7]).2.2.2.2.1 0 _
    (by decide +kernel) hsnap _ mem_cons_self

end Wavelength.Recovery
