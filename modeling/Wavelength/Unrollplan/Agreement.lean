import Wavelength.Unrollplan.Planner

/-! # The planner agrees with the session

The session keeps a status for every transaction, the planner is given two lists of txids. On lists
that say what a session knows, both plan the same.
-/

namespace Wavelength.Unrollplan

open List Recovery

/-- The lists say what the session knows, and no sweep has been sent. -/
structure Mirrors (s : Session) (st : State) : Prop where
  confirmed_nodup : st.confirmedTxids.Nodup
  inFlight_nodup : st.inFlightTxids.Nodup
  confirmed : ∀ x, x ∈ st.confirmedTxids ↔ s.txState x = .confirmed
  inFlight : ∀ x, x ∈ st.inFlightTxids ↔ s.txState x = .broadcasted
  height : st.targetConfirmHeight = s.confirmHeights.lookup s.proof.targetOutpoint.hash
  sweep : st.sweep = ⟨.pending, none, none⟩

def CSVInfo.status (c : CSVInfo) : CSVStatus :=
  ⟨c.targetConfirmHeight, c.maturityHeight, c.blocksRemaining, c.ready⟩

/-- A plan and a snapshot report the same, or both are refused for the maturity of the target. -/
inductive Agrees : Except PlanError Snapshot → Except SessionError Recovery.Snapshot → Prop
  | refused (e : SessionError) : Agrees (.error (.maturity e)) (.error e)
  | planned (a : Snapshot) (b : Recovery.Snapshot)
      (ready : ∀ x, (∃ f ∈ a.ready, f.txid = x) ↔ ∃ f ∈ b.readyToBroadcast, f.txid = x)
      (inFlight : ∀ x, (∃ f ∈ a.inFlight, f.txid = x) ↔ x ∈ b.awaitingConfirmation)
      (blocked : ∀ x ms, (∃ f ∈ a.blocked, f.txid = x ∧ f.missingParents = ms) ↔
        ∃ f ∈ b.blocked, f.txid = x ∧ f.missingParents = ms)
      (csv : a.csv.map CSVInfo.status = b.csv) : Agrees (.ok a) (.ok b)

section

variable {height : Int32}

variable (hm : Mirrors s st)
include hm

theorem Mirrors.missing_eq : missing s.proof st.confirmedTxids x = s.missing x := by
  unfold missing Session.missing
  congr 1
  refine filter_congr fun y _ => ?_
  simp [hm.confirmed y]

variable (h : s.Sound s.proof)
include h

theorem Mirrors.pending_iff :
    s.txState x = .pending ↔ x ∉ st.confirmedTxids ∧ x ∉ st.inFlightTxids := by
  rw [hm.confirmed, hm.inFlight]
  cases hx : s.txState x with
  | unknown code hc => exact absurd hx (h.known x code hc)
  | pending => exact iff_of_true rfl ⟨nofun, nofun⟩
  | broadcasted => exact iff_of_false nofun fun h => h.2 rfl
  | confirmed => exact iff_of_false nofun fun h => h.1 rfl

theorem Mirrors.valid : Valid s.proof st := by
  have hbacked : ∀ x, s.txState x ≠ .pending → ∀ y, Spends s.proof.nodes x y →
      y ∈ st.confirmedTxids := fun x hx y hxy => (hm.confirmed y).2 (h.backed x hx y hxy)
  constructor
  · exact hm.confirmed_nodup
  · exact hm.inFlight_nodup
  · intro x hx hx'
    exact nomatch ((hm.confirmed x).1 hx).symm.trans ((hm.inFlight x).1 hx')
  · intro x hx
    exact Session.mem_of_txState h (by rw [(hm.confirmed x).1 hx]; exact nofun)
  · intro x hx
    exact Session.mem_of_txState h (by rw [(hm.inFlight x).1 hx]; exact nofun)
  · rw [hm.height, hm.confirmed, ← h.heights, KeyMap.mem_keys, Option.isSome_iff_exists]
  · intro k hk
    exact h.nonneg _ k (hm.height ▸ hk)
  · rw [hm.sweep]
    rfl
  · exact fun x hx => hbacked x (by rw [(hm.confirmed x).1 hx]; exact nofun)
  · exact fun x hx => hbacked x (by rw [(hm.inFlight x).1 hx]; exact nofun)

theorem Mirrors.lists (csv : Option CSVInfo) :
    (∀ x, (∃ f ∈ (planOf s.proof st csv).ready, f.txid = x) ↔
      ∃ f ∈ s.planning.readyToBroadcast, f.txid = x) ∧
    (∀ x, (∃ f ∈ (planOf s.proof st csv).inFlight, f.txid = x) ↔
      x ∈ s.planning.awaitingConfirmation) ∧
    ∀ x ms, (∃ f ∈ (planOf s.proof st csv).blocked, f.txid = x ∧ f.missingParents = ms) ↔
      ∃ f ∈ s.planning.blocked, f.txid = x ∧ f.missingParents = ms := by
  refine ⟨fun x => ?_, fun x => ?_, fun x ms => ?_⟩
  · rw [mem_ready, ← missing_eq_nil, hm.missing_eq, Session.missing_eq_nil]
    constructor
    · rintro ⟨hx, hc, hi, hb⟩
      obtain ⟨i, hw⟩ := Session.exists_mem_walk hx
      exact ⟨_, Session.mem_readyToBroadcast.2
        ⟨x, i, hw, (hm.pending_iff h).2 ⟨hc, hi⟩, hb, rfl⟩, rfl⟩
    rintro ⟨f, hf, rfl⟩
    obtain ⟨x, i, hw, hp, hb, rfl⟩ := Session.mem_readyToBroadcast.1 hf
    obtain ⟨hc, hi⟩ := (hm.pending_iff h).1 hp
    exact ⟨Session.mem_txids_of_mem_walk hw, hc, hi, hb⟩
  · rw [mem_inFlight, hm.inFlight, hm.confirmed]
    simp only [Session.planning, Session.buckets, mem_sortHashes, mem_map, mem_filter,
      decide_eq_true_eq]
    constructor
    · rintro ⟨hx, -, hb⟩
      obtain ⟨i, hw⟩ := Session.exists_mem_walk hx
      exact ⟨(x, i), ⟨hw, hb⟩, rfl⟩
    · rintro ⟨⟨x, i⟩, ⟨hw, hb⟩, rfl⟩
      exact ⟨Session.mem_txids_of_mem_walk hw, by rw [hb]; rintro ⟨⟩, hb⟩
  · rw [mem_blocked, hm.missing_eq]
    simp only [Session.planning, Session.buckets, mem_map, mem_filter, decide_eq_true_eq]
    constructor
    · rintro ⟨hx, hc, hi, hne, rfl⟩
      obtain ⟨i, hw⟩ := Session.exists_mem_walk hx
      exact ⟨_, ⟨(x, i), ⟨hw, (hm.pending_iff h).2 ⟨hc, hi⟩, hne⟩, rfl⟩, rfl, rfl⟩
    · rintro ⟨_, ⟨⟨x, i⟩, ⟨hw, hp, hne⟩, rfl⟩, rfl, rfl⟩
      obtain ⟨hc, hi⟩ := (hm.pending_iff h).1 hp
      exact ⟨Session.mem_txids_of_mem_walk hw, hc, hi, hne, rfl⟩

theorem Mirrors.complete_iff :
    s.materializationComplete = true ↔ s.proof.targetOutpoint.hash ∈ st.confirmedTxids := by
  unfold Session.materializationComplete
  rw [all_eq_true]
  constructor
  · intro hall
    exact (hm.confirmed _).2 (of_decide_eq_true (hall _ s.proof.target_mem))
  · intro ht x hx
    exact decide_eq_true ((hm.confirmed x).1 ((hm.valid h).all_confirmed ht hx))

omit h

theorem Mirrors.csv
    (ht : (s.confirmHeights.lookup s.proof.targetOutpoint.hash).isSome) :
    (∃ e, csvInfoAt s.proof height st.targetConfirmHeight = .error (.maturity e) ∧
      s.csvStatusAt height = .error e) ∨
    ∃ c, csvInfoAt s.proof height st.targetConfirmHeight = .ok c ∧
      s.csvStatusAt height = .ok c.status := by
  obtain ⟨k, hk⟩ := Option.isSome_iff_exists.1 ht
  rw [hm.height]
  unfold csvInfoAt Session.csvStatusAt
  rw [hk]
  dsimp only
  cases computeMaturityHeight k s.proof.csvDelay with
  | error e => exact .inl ⟨e, rfl, rfl⟩
  | ok m => exact .inr ⟨_, rfl, rfl⟩

theorem Mirrors.agrees (h : s.Sound s.proof) (hlive : s.lastError = none) :
    Agrees (plan s.proof height st) (s.snapshotAt height) := by
  rw [plan_eq (hm.valid h), Session.snapshotAt_eq, hlive, if_neg (by simp)]
  unfold targetInfo
  by_cases ht : s.proof.targetOutpoint.hash ∈ st.confirmedTxids
  · rw [if_pos ht, (hm.complete_iff h).2 ht]
    have hsome : (s.confirmHeights.lookup s.proof.targetOutpoint.hash).isSome := by
      rw [← hm.height]
      exact (hm.valid h).height.2 ht
    rcases hm.csv hsome with ⟨e, hplan, hsession⟩ | ⟨c, hplan, hsession⟩
    · rw [hplan, hsession]
      exact .refused e
    · rw [hplan, hsession]
      obtain ⟨hready, hinFlight, hblocked⟩ := hm.lists h (some c)
      exact .planned _ _ hready hinFlight hblocked rfl
  · rw [if_neg ht, Bool.eq_false_iff.2 (mt (hm.complete_iff h).1 ht)]
    obtain ⟨hready, hinFlight, hblocked⟩ := hm.lists h none
    exact .planned _ _ hready hinFlight hblocked rfl

omit hm

end

def stateOf (s : Session) : State where
  confirmedTxids := s.proof.txids.filter (s.txState · = .confirmed)
  inFlightTxids := s.proof.txids.filter (s.txState · = .broadcasted)
  targetConfirmHeight := s.confirmHeights.lookup s.proof.targetOutpoint.hash
  sweep := ⟨.pending, none, none⟩

theorem stateOf_mirrors (h : s.Sound s.proof) : Mirrors s (stateOf s) := by
  have hmem : ∀ {st : TxState} {x}, st ≠ .pending → s.txState x = st → x ∈ s.proof.txids :=
    fun hst hx => Session.mem_of_txState h (hx ▸ hst)
  constructor
  · exact s.proof.txids_nodup.filter _
  · exact s.proof.txids_nodup.filter _
  · intro x
    simp only [stateOf, mem_filter, decide_eq_true_eq]
    exact and_iff_right_of_imp (hmem nofun)
  · intro x
    simp only [stateOf, mem_filter, decide_eq_true_eq]
    exact and_iff_right_of_imp (hmem nofun)
  · rfl
  · rfl

/-- On every state that says what a live session knows, the planner agrees with the session. -/
theorem plan_agrees (p : Proof) (marks : List Mark) (st : State) (height : Int32)
    (hlive : ((newSession p).after marks).lastError = none)
    (hm : Mirrors ((newSession p).after marks) st) :
    Agrees (plan p height st) (((newSession p).after marks).snapshotAt height) := by
  have h : ((newSession p).after marks).Sound p := (Session.newSession_sound p).after
  generalize (newSession p).after marks = s at h hlive hm
  obtain rfl := h.proof_eq
  exact hm.agrees h hlive

theorem plan_agrees_sole :
    let marks := [.broadcasted soleTx.txHash, .confirmed soleTx.txHash 7]
    Agrees (plan soleProof 100 (stateOf ((newSession soleProof).after marks)))
      (((newSession soleProof).after marks).snapshotAt 100) :=
  plan_agrees soleProof [.broadcasted soleTx.txHash, .confirmed soleTx.txHash 7] _ 100
    (by decide +kernel) (stateOf_mirrors (Session.newSession_sound soleProof).after)

end Wavelength.Unrollplan
