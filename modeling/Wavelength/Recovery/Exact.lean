import Wavelength.Recovery.State

/-! # The states that sessions export

A state that fits a proof and whose broadcast transactions have confirmed parents is reached by
reporting its transactions in the order of the layers. The validator accepts other states than
these: it does not look at the parents of what is broadcast, and it refuses a failure without a
text.
-/

namespace Wavelength.Recovery

open List Option

/-- The state is what some session of the proof exports. -/
def Reached (p : Proof) (st : SessionState) : Prop :=
  ∃ marks, ((newSession p).after marks).exportState = st

/-- What the validator checks, except that a failure may have an empty text. -/
structure WellFormed (p : Proof) (st : SessionState) : Prop where
  maps : ∃ txStates confirmHeights, st.txStates = some txStates ∧
    st.confirmHeights = some confirmHeights ∧ Consistent p txStates confirmHeights
  failed_mem : ∀ x, st.failedTxid = some x → x ∈ p.txids
  no_text : st.failedTxid = none → st.lastError = []

/-- A broadcast transaction has a parent that has not confirmed. -/
def Unbacked (p : Proof) (st : SessionState) : Prop :=
  ∃ txStates x y, st.txStates = some txStates ∧ txStates.lookup x = some .broadcasted ∧
    Spends p.nodes x y ∧ txStates.lookup y ≠ some .confirmed

def Silent (st : SessionState) : Prop := st.failedTxid ≠ none ∧ st.lastError = []

theorem validate_iff : validateSessionState p st = .ok () ↔ WellFormed p st ∧ ¬ Silent st := by
  rw [validateSessionState_eq_ok]
  constructor
  · rintro ⟨htogether, hmem, hmaps⟩
    exact ⟨⟨hmaps, hmem, htogether.1⟩, fun h => h.1 (htogether.2 h.2)⟩
  rintro ⟨h, hsilent⟩
  refine ⟨⟨h.no_text, fun htext => ?_⟩, h.failed_mem, h.maps⟩
  by_contra hfailed
  exact hsilent ⟨hfailed, htext⟩

/-! ## Replaying a state -/

section

variable {s : Session}

def replayOne (T : KeyMap Hash TxState) (H : KeyMap Hash Int32) (x : Hash) : List Mark :=
  match T.lookup x with
  | some .broadcasted => [.broadcasted x]
  | some .confirmed => [.broadcasted x, .confirmed x ((H.lookup x).getD 0)]
  | _ => []

/-- The session has come to the state of some of the transactions. -/
structure Replayed (p : Proof) (T : KeyMap Hash TxState) (H : KeyMap Hash Int32)
    (done : List Hash) (s : Session) : Prop where
  sound : s.Sound p
  live : s.lastError = none
  state : ∀ x, s.txState x = if x ∈ done then (T.lookup x).getD .pending else .pending
  height : ∀ x, s.confirmHeights.lookup x = if x ∈ done then H.lookup x else none

theorem replayed_nil : Replayed p T H [] (newSession p) :=
  ⟨Session.newSession_sound p, rfl, fun _ => Session.newSession_txState, fun _ => rfl⟩

theorem ite_mem_append (z : Hash) {α : Type} (a b : α) :
    (if z ∈ done ++ [x] then a else b) = if z = x then a else if z ∈ done then a else b := by
  simp only [mem_append, mem_singleton]
  by_cases hz : z = x <;> simp [hz]

theorem Replayed.add (h : Replayed p T H done s) (hst : T.lookup x = some st) (hsound : s'.Sound p)
    (hlive : s'.lastError = none) (hstate : ∀ z, s'.txState z = if z = x then st else s.txState z)
    (hheight : ∀ z, s'.confirmHeights.lookup z =
      if z = x then H.lookup x else s.confirmHeights.lookup z) :
    Replayed p T H (done ++ [x]) s' := by
  refine ⟨hsound, hlive, fun z => ?_, fun z => ?_⟩
  · rw [ite_mem_append, hstate]
    split
    · next hz => rw [hz, hst, getD_some]
    · exact h.state z
  rw [ite_mem_append, hheight]
  split
  · next hz => rw [hz]
  · exact h.height z

theorem Replayed.next (h : Replayed p T H done s) (hc : Consistent p T H)
    (hback : ∀ x y, T.lookup x = some .broadcasted → Spends p.nodes x y →
      T.lookup y = some .confirmed)
    (hx : x ∈ p.txids) (hnew : x ∉ done) (hbefore : ∀ y, Spends p.nodes x y → y ∈ done) :
    Replayed p T H (done ++ [x]) (s.after (replayOne T H x)) := by
  have hsound : (s.after (replayOne T H x)).Sound p := h.sound.after
  obtain rfl := h.sound.proof_eq
  have hpending : s.txState x = .pending := by rw [h.state, if_neg hnew]
  have hnoheight : s.confirmHeights.lookup x = none := by rw [h.height, if_neg hnew]
  have hready : (∀ y, Spends s.proof.nodes x y → T.lookup y = some .confirmed) → s.Backed x := by
    intro hy y hxy
    rw [h.state, if_pos (hbefore y hxy), hy y hxy, getD_some]
  have hsend : s.Backed x → s.after [.broadcasted x] =
      { s with txStates := s.txStates.insert x .broadcasted } := fun hb =>
    congrArg Prod.fst (Session.markBroadcasted_of_ready h.live hx
      (by rw [hpending]; exact ⟨nofun, nofun⟩) hb)
  have hkept : ∀ {st}, T.lookup x = some st → st ≠ .confirmed → ∀ z,
      s.confirmHeights.lookup z = if z = x then H.lookup x else s.confirmHeights.lookup z := by
    intro st hst hne z
    split
    · next hz =>
      rw [hz, hnoheight, eq_comm, KeyMap.lookup_eq_none, hc.heights, hst, some_inj]
      exact hne
    · rfl
  obtain ⟨state, hstate⟩ := KeyMap.mem_keys.1 ((hc.keys x).2 hx)
  unfold replayOne at hsound ⊢
  rw [hstate] at hsound ⊢
  cases state with
  | unknown code hcode => exact absurd hstate (hc.known x code hcode)
  | pending =>
    refine h.add hstate hsound h.live (fun z => ?_) (hkept hstate nofun)
    change s.txState z = _
    split
    · next hz => rw [hz, hpending]
    · rfl
  | broadcasted =>
    dsimp only at hsound ⊢
    rw [hsend (hready fun y => hback x y hstate)] at hsound ⊢
    exact h.add hstate hsound h.live (Session.txState_insert s x .broadcasted s.confirmHeights)
      (hkept hstate nofun)
  | confirmed =>
    -- the transaction is broadcast first, and its parents stay confirmed
    have hb := hready fun y => hc.closed x y hstate
    obtain ⟨height, hheight⟩ := KeyMap.mem_keys.1 ((hc.heights x).2 hstate)
    let sent : Session := { s with txStates := s.txStates.insert x .broadcasted }
    have hsent : ∀ z, sent.txState z = if z = x then .broadcasted else s.txState z :=
      Session.txState_insert s x .broadcasted s.confirmHeights
    have hbacked : sent.Backed x := hb.insert (.inr (by rw [hpending]; exact nofun))
    have hconfirm : sent.markConfirmed x height =
        ({ sent with
            txStates := sent.txStates.insert x .confirmed
            confirmHeights := sent.confirmHeights.insert x height }, none) :=
      Session.markConfirmed_of_ready h.live hx (hc.nonneg x height hheight)
        ((hsent x).trans (if_pos rfl)) hbacked
    have hafter : s.after [.broadcasted x, .confirmed x height] =
        { sent with
          txStates := sent.txStates.insert x .confirmed
          confirmHeights := sent.confirmHeights.insert x height } := by
      calc s.after [.broadcasted x, .confirmed x height]
        _ = (s.after [.broadcasted x]).after [.confirmed x height] := rfl
        _ = (sent.markConfirmed x height).1 := by rw [hsend hb]; rfl
        _ = _ := congrArg Prod.fst hconfirm
    dsimp only at hsound ⊢
    rw [hheight, getD_some, hafter] at hsound ⊢
    refine h.add hstate hsound h.live (fun z => ?_) fun z => ?_
    · rw [Session.txState_insert, hsent]
      split <;> rfl
    · rw [KeyMap.lookup_insert, hheight]

def replay (p : Proof) (T : KeyMap Hash TxState) (H : KeyMap Hash Int32) : List Mark :=
  p.layers.flatten.flatMap (replayOne T H)

theorem Session.after_append (ms ms' : List Mark) : s.after (ms ++ ms') = (s.after ms).after ms' :=
  foldl_append

theorem replayed_all (hc : Consistent p T H)
    (hback : ∀ x y, T.lookup x = some .broadcasted → Spends p.nodes x y →
      T.lookup y = some .confirmed) :
    Replayed p T H p.layers.flatten ((newSession p).after (replay p T H)) := by
  -- by induction on what is left, the done part being a prefix of the layers
  have hrest : ∀ rest done s, p.layers.flatten = done ++ rest → Replayed p T H done s →
      Replayed p T H p.layers.flatten (s.after (rest.flatMap (replayOne T H))) := by
    intro rest
    induction rest with
    | nil =>
      intro done s hsplit h
      rw [hsplit, append_nil]
      exact h
    | cons x rest ih =>
      intro done s hsplit h
      have hnodup := p.peeled.nodup
      have hx : x ∈ p.txids := by
        rw [← p.flatten_perm.mem_iff, hsplit]
        exact mem_append_right _ mem_cons_self
      have hnew : x ∉ done := by
        rw [hsplit] at hnodup
        exact fun hd => (nodup_append'.1 hnodup).2.2 hd mem_cons_self
      have hbefore : ∀ y, Spends p.nodes x y → y ∈ done := fun y hy =>
        p.peeled.mem_before hsplit ((mem_parentsOf p.txids_nodup).2 hy)
      rw [flatMap_cons, Session.after_append]
      refine ih (done ++ [x]) _ ?_ (h.next hc hback hx hnew hbefore)
      rw [hsplit, append_assoc, singleton_append]
  exact hrest _ [] _ rfl replayed_nil

theorem Replayed.export (h : Replayed p T H p.layers.flatten s) (hc : Consistent p T H) :
    s.txStates = T ∧ s.confirmHeights = H := by
  constructor
  · apply KeyMap.ext_lookup
    intro x
    by_cases hx : x ∈ p.txids
    · obtain ⟨state, hstate⟩ := KeyMap.mem_keys.1 ((hc.keys x).2 hx)
      rw [Session.lookup_of_txState h.sound hx, h.state, if_pos (p.flatten_perm.mem_iff.2 hx), hstate,
        getD_some]
    · rw [KeyMap.lookup_eq_none.2 fun hk => hx ((h.sound.keys x).1 hk),
        KeyMap.lookup_eq_none.2 fun hk => hx ((hc.keys x).1 hk)]
  · apply KeyMap.ext_lookup
    intro x
    rw [h.height]
    split
    · rfl
    next hx =>
    refine (KeyMap.lookup_eq_none.2 fun hk => hx ?_).symm
    rw [p.flatten_perm.mem_iff, ← hc.keys]
    exact KeyMap.mem_keys.2 ⟨_, (hc.heights x).1 hk⟩

end

/-! ## The states that are reached -/

theorem WellFormed.of_reached (h : Reached p st) : WellFormed p st ∧ ¬ Unbacked p st := by
  obtain ⟨marks, rfl⟩ := h
  have h : ((newSession p).after marks).Sound p := (Session.newSession_sound p).after
  generalize (newSession p).after marks = s at h
  refine ⟨⟨⟨s.txStates, s.confirmHeights, rfl, rfl, h.consistent⟩, h.failed_mem, fun hnone => ?_⟩, ?_⟩
  · change s.lastError.getD [] = []
    rw [h.failedTxid_eq_none.1 hnone, getD_none]
  rintro ⟨T, x, y, hT, hx, hxy, hy⟩
  cases hT
  refine hy ((Session.lookup_confirmed h).2 (h.backed x ?_ y (h.proof_eq ▸ hxy)))
  rw [Session.txState, hx]
  rintro ⟨⟩

theorem WellFormed.reached (h : WellFormed p st) (hback : ¬ Unbacked p st) : Reached p st := by
  obtain ⟨txStates, confirmHeights, failedTxid, lastError⟩ := st
  obtain ⟨T, H, hT, hH, hc⟩ := h.maps
  obtain rfl : txStates = some T := hT
  obtain rfl : confirmHeights = some H := hH
  have hall := replayed_all hc fun x y hx hxy => by
    by_contra hy
    exact hback ⟨T, x, y, rfl, hx, hxy, hy⟩
  obtain ⟨hstates, hheights⟩ := hall.export hc
  generalize hs : (newSession p).after (replay p T H) = s at hall hstates hheights
  cases failedTxid with
  | none =>
    refine ⟨replay p T H, ?_⟩
    have htext : lastError = [] := h.no_text rfl
    rw [hs, Session.exportState, hstates, hheights, hall.sound.failedTxid_eq_none.2 hall.live,
      hall.live, htext]
    rfl
  | some x =>
    refine ⟨replay p T H ++ [.failed x (some lastError)], ?_⟩
    have hx : x ∈ s.proof.txids := by
      rw [hall.sound.proof_eq]
      exact h.failed_mem x rfl
    rw [Session.after_append, hs]
    change (s.markFailed x (some lastError)).1.exportState = _
    rw [Session.markFailed_of_mem hall.live hx, Session.exportState, hstates, hheights]
    rfl

theorem reached_iff : Reached p st ↔ WellFormed p st ∧ ¬ Unbacked p st :=
  ⟨WellFormed.of_reached, fun h => h.1.reached h.2⟩

/-- The validator accepts what sessions export and nothing else, unless the state is well formed
and has one of the two flaws without the other. -/
theorem validate_exact_iff (p : Proof) (st : SessionState) :
    (validateSessionState p st = .ok () ↔ Reached p st) ↔
      (WellFormed p st → (Silent st ↔ Unbacked p st)) := by
  rw [validate_iff, reached_iff]
  by_cases h : WellFormed p st
  · simp only [h, true_and, true_imp_iff, not_iff_not]
  · simp [h]

def heirTx : MsgTx := ⟨⟨.replicate 32 2, rfl⟩, [⟨soleTx.txHash, 0⟩], [⟨900, []⟩]⟩

def heirRefs : List (Option NodeRef) := [soleRef, some ⟨.ark, some heirTx⟩]

def heirProof : Proof :=
  ⟨⟨heirTx.txHash, 0⟩, 144, [⟨.tree, soleTx⟩, ⟨.ark, heirTx⟩], [[soleTx.txHash], [heirTx.txHash]],
    heirRefs, by decide +kernel⟩

def heirState : SessionState :=
  ⟨some ((KeyMap.empty.insert soleTx.txHash .pending).insert heirTx.txHash .broadcasted), some .empty,
    none, []⟩

/-- The validator accepts a transaction that is broadcast before its parent, and refuses what a
session exports after a failure without a text. -/
theorem validate_not_exact :
    (validateSessionState heirProof heirState = .ok () ∧ Unbacked heirProof heirState ∧
      ¬ Reached heirProof heirState) ∧
    ∃ st, Reached heirProof st ∧ validateSessionState heirProof st ≠ .ok () := by
  have hunbacked : Unbacked heirProof heirState := by
    refine ⟨_, heirTx.txHash, soleTx.txHash, rfl, by decide +kernel, ⟨by decide +kernel, ?_⟩,
      by decide +kernel⟩
    exact ⟨⟨.ark, heirTx⟩, mem_cons_of_mem _ mem_cons_self, rfl, mem_cons_self⟩
  refine ⟨⟨by decide +kernel, hunbacked, fun h => (reached_iff.1 h).2 hunbacked⟩, ?_⟩
  exact ⟨_, ⟨[.failed heirTx.txHash (some [])], rfl⟩, by decide +kernel⟩

end Wavelength.Recovery
