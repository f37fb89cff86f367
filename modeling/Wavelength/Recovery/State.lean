import Wavelength.Recovery.Session

/-! # The durable state of a session

What a session exports, and what is checked before a session is built from it again.
-/

namespace Wavelength.Recovery

open Option

structure SessionState where
  txStates : Option (KeyMap Hash TxState)
  confirmHeights : Option (KeyMap Hash Int32)
  failedTxid : Option Hash
  lastError : Text

inductive StateError where
  | nilTxStates
  | nilConfirmHeights
  | failureNotTogether
  | failedTxidNotInProof (txid : Hash)
  | missingTxState (txid : Hash)
  | unexpectedHeight (txid : Hash)
  | missingHeight (txid : Hash)
  | negativeHeight (txid : Hash) (height : Int32)
  | unknownTxState (code : Int64) (txid : Hash)
  | txStateUnknownTxid (txid : Hash)
  | heightUnknownTxid (txid : Hash)
  | unknownTxid (txid : Hash)
  | unconfirmedParent (txid parent : Hash)
  deriving DecidableEq

def Session.exportState (s : Session) : SessionState where
  txStates := some s.txStates
  confirmHeights := some s.confirmHeights
  failedTxid := s.failedTxid
  lastError := s.lastError.getD []

def checkAll {α ε : Type} (check : α → Except ε Unit) : List α → Except ε Unit
  | [] => .ok ()
  | a :: as =>
    match check a with
    | .error e => .error e
    | .ok () => checkAll check as

def checkFailure (p : Proof) (st : SessionState) : Except StateError Unit :=
  if st.failedTxid.isNone ≠ st.lastError.isEmpty then .error .failureNotTogether
  else
    match st.failedTxid with
    | none => .ok ()
    | some txid =>
      if (p.node txid).isNone then .error (.failedTxidNotInProof txid) else .ok ()

def checkNode (txStates : KeyMap Hash TxState) (confirmHeights : KeyMap Hash Int32) (txid : Hash) :
    Except StateError Unit :=
  match txStates.lookup txid, confirmHeights.lookup txid with
  | none, _ => .error (.missingTxState txid)
  | some .pending, some _ => .error (.unexpectedHeight txid)
  | some .broadcasted, some _ => .error (.unexpectedHeight txid)
  | some .pending, none => .ok ()
  | some .broadcasted, none => .ok ()
  | some .confirmed, none => .error (.missingHeight txid)
  | some .confirmed, some height =>
    if height < 0 then .error (.negativeHeight txid height) else .ok ()
  | some (.unknown code _), _ => .error (.unknownTxState code txid)

def checkParent (txStates : KeyMap Hash TxState) (txid parent : Hash) : Except StateError Unit :=
  if txStates.lookup parent = some .confirmed then .ok ()
  else .error (.unconfirmedParent txid parent)

def checkParents (p : Proof) (txStates : KeyMap Hash TxState) (entry : Hash × TxState) :
    Except StateError Unit :=
  if entry.2 ≠ .confirmed then .ok ()
  else
    match p.parentTxids entry.1 with
    | none => .error (.unknownTxid entry.1)
    | some parents => checkAll (checkParent txStates entry.1) parents

def checkInProof (p : Proof) (err : Hash → StateError) (txid : Hash) : Except StateError Unit :=
  if (p.node txid).isNone then .error (err txid) else .ok ()

def checkMaps (p : Proof) (txStates : KeyMap Hash TxState) (confirmHeights : KeyMap Hash Int32) :
    Except StateError Unit := do
  checkAll (checkNode txStates confirmHeights) p.txids
  checkAll (checkInProof p .txStateUnknownTxid) txStates.keys
  checkAll (checkInProof p .heightUnknownTxid) confirmHeights.keys
  checkAll (checkParents p txStates) txStates.entries

def validateSessionState (p : Proof) (st : SessionState) : Except StateError Unit :=
  match st.txStates, st.confirmHeights with
  | none, _ => .error .nilTxStates
  | some _, none => .error .nilConfirmHeights
  | some txStates, some confirmHeights => do
    checkFailure p st
    checkMaps p txStates confirmHeights

/-- The session that a valid state describes. Of the last error only its text is kept. -/
def newSessionFromState (p : Proof) (st : SessionState) : Except StateError Session := do
  validateSessionState p st
  pure {
    proof := p
    txStates := st.txStates.getD .empty
    confirmHeights := st.confirmHeights.getD .empty
    failedTxid := st.failedTxid
    lastError := if st.lastError = [] then none else some st.lastError }

/-! ## What the checks accept -/

section

variable {α ε : Type}

theorem checkAll_eq_ok : checkAll check as = .ok () ↔ ∀ a ∈ as, check a = .ok () := by
  induction as with
  | nil => simp [checkAll]
  | cons a as ih =>
    unfold checkAll
    rw [List.forall_mem_cons, ← ih]
    cases check a with
    | error e => exact ⟨fun h => (nomatch h), fun h => (nomatch h.1)⟩
    | ok u => exact (and_iff_right rfl).symm

theorem then_eq_ok : (do c; d : Except ε Unit) = .ok () ↔ c = .ok () ∧ d = .ok () := by
  cases c with
  | error e => exact ⟨fun h => (nomatch h), fun h => (nomatch h.1)⟩
  | ok u => exact (and_iff_right rfl).symm

theorem checkInProof_eq_ok : checkInProof p err x = .ok () ↔ x ∈ p.txids := by
  unfold checkInProof
  split
  · next h => exact iff_of_false nofun (Proof.node_isNone.1 h)
  · next h => exact iff_of_true rfl (not_not.1 fun hx => h (Proof.node_isNone.2 hx))

theorem checkFailure_eq_ok : checkFailure p st = .ok () ↔
    (st.failedTxid = none ↔ st.lastError = []) ∧ ∀ x, st.failedTxid = some x → x ∈ p.txids := by
  have htogether : st.failedTxid.isNone = st.lastError.isEmpty ↔
      (st.failedTxid = none ↔ st.lastError = []) := by
    rw [Bool.eq_iff_iff, isNone_iff_eq_none, List.isEmpty_iff]
  unfold checkFailure
  split
  · next h => exact iff_of_false nofun fun h' => h (htogether.2 h'.1)
  next h =>
  rw [and_iff_right (htogether.1 (not_not.1 h))]
  split
  · next hnone => exact iff_of_true rfl fun x hx => nomatch hnone.symm.trans hx
  next txid hsome =>
  rw [hsome]
  split
  · next hno => exact iff_of_false nofun fun h' => Proof.node_isNone.1 hno (h' txid rfl)
  next hin =>
  refine iff_of_true rfl fun x hx => ?_
  cases hx
  exact not_not.1 fun h' => hin (Proof.node_isNone.2 h')

theorem checkNode_eq_ok : checkNode txStates confirmHeights x = .ok () ↔
    ∃ state, txStates.lookup x = some state ∧ (∀ code h, state ≠ .unknown code h) ∧
      (x ∈ confirmHeights.keys ↔ state = .confirmed) ∧
      ∀ height, confirmHeights.lookup x = some height → ¬ height < 0 := by
  rw [KeyMap.mem_keys]
  unfold checkNode
  cases txStates.lookup x with
  | none => exact iff_of_false nofun fun ⟨state, h, _⟩ => nomatch h
  | some state =>
    cases state with
    | unknown code h =>
      refine iff_of_false nofun ?_
      rintro ⟨state, hs, hknown, -⟩
      exact hknown code h (some.inj hs).symm
    | pending | broadcasted | confirmed => cases confirmHeights.lookup x <;> simp

theorem checkParents_eq_ok (hx : x ∈ p.txids) :
    checkParents p txStates (x, state) = .ok () ↔
      (state = .confirmed → ∀ y, Spends p.nodes x y → txStates.lookup y = some .confirmed) := by
  unfold checkParents
  split
  · next h => exact iff_of_true rfl fun h' => absurd h' h
  next h =>
  rw [Proof.parentTxids_of_mem hx]
  dsimp only
  rw [checkAll_eq_ok, imp_iff_right (not_not.1 h)]
  refine forall_congr' fun y => ?_
  rw [mem_parentsOf p.txids_nodup]
  refine imp_congr_right fun _ => ?_
  unfold checkParent
  split
  · next hy => exact iff_of_true rfl hy
  · next hy => exact iff_of_false nofun hy

structure Consistent (p : Proof) (txStates : KeyMap Hash TxState)
    (confirmHeights : KeyMap Hash Int32) : Prop where
  keys : ∀ x, x ∈ txStates.keys ↔ x ∈ p.txids
  known : ∀ x code h, txStates.lookup x ≠ some (.unknown code h)
  heights : ∀ x, x ∈ confirmHeights.keys ↔ txStates.lookup x = some .confirmed
  nonneg : ∀ x height, confirmHeights.lookup x = some height → ¬ height < 0
  closed : ∀ x y, txStates.lookup x = some .confirmed → Spends p.nodes x y →
    txStates.lookup y = some .confirmed

theorem checkMaps_eq_ok :
    checkMaps p txStates confirmHeights = .ok () ↔ Consistent p txStates confirmHeights := by
  unfold checkMaps
  simp only [then_eq_ok, checkAll_eq_ok, checkInProof_eq_ok]
  constructor
  · rintro ⟨hnode, hkeys, hheights, hparents⟩
    have hmem : ∀ x, x ∈ txStates.keys ↔ x ∈ p.txids := by
      refine fun x => ⟨hkeys x, fun hx => ?_⟩
      obtain ⟨state, hs, -⟩ := checkNode_eq_ok.1 (hnode x hx)
      exact KeyMap.mem_keys.2 ⟨state, hs⟩
    have hconfirmed : ∀ x, x ∈ confirmHeights.keys ↔ txStates.lookup x = some .confirmed := by
      intro x
      by_cases hx : x ∈ p.txids
      · obtain ⟨state, hs, -, hh, -⟩ := checkNode_eq_ok.1 (hnode x hx)
        rw [hh, hs, some_inj]
      · refine iff_of_false (fun h => hx (hheights x h)) fun h => hx ?_
        exact hkeys x (KeyMap.mem_keys.2 ⟨_, h⟩)
    constructor
    · exact hmem
    · intro x code h hx
      obtain ⟨state, hs, hknown, -⟩ :=
        checkNode_eq_ok.1 (hnode x (hkeys x (KeyMap.mem_keys.2 ⟨_, hx⟩)))
      exact hknown code h (some.inj (hs.symm.trans hx))
    · exact hconfirmed
    · intro x height hx
      obtain ⟨-, -, -, -, hnonneg⟩ :=
        checkNode_eq_ok.1 (hnode x (hheights x (KeyMap.mem_keys.2 ⟨height, hx⟩)))
      exact hnonneg height hx
    · intro x y hx
      have hx' := hparents _ (KeyMap.lookup_eq_some.1 hx)
      exact (checkParents_eq_ok (hkeys x (KeyMap.mem_keys.2 ⟨_, hx⟩))).1 hx' rfl y
  · intro h
    refine ⟨fun x hx => ?_, fun x => (h.keys x).1, fun x hx => ?_, ?_⟩
    · obtain ⟨state, hs⟩ := KeyMap.mem_keys.1 ((h.keys x).2 hx)
      refine checkNode_eq_ok.2 ⟨state, hs, fun code hc heq => ?_, ?_, h.nonneg x⟩
      · exact h.known x code hc (hs.trans (congrArg some heq))
      · rw [h.heights, hs, some_inj]
    · exact (h.keys x).1 (KeyMap.mem_keys.2 ⟨_, (h.heights x).1 hx⟩)
    rintro ⟨x, state⟩ he
    have hx := KeyMap.lookup_eq_some.2 he
    refine (checkParents_eq_ok ((h.keys x).1 (KeyMap.mem_keys.2 ⟨_, hx⟩))).2 ?_
    rintro rfl y
    exact h.closed x y hx

theorem validateSessionState_eq_ok : validateSessionState p st = .ok () ↔
    (st.failedTxid = none ↔ st.lastError = []) ∧ (∀ x, st.failedTxid = some x → x ∈ p.txids) ∧
      ∃ txStates confirmHeights, st.txStates = some txStates ∧
        st.confirmHeights = some confirmHeights ∧ Consistent p txStates confirmHeights := by
  unfold validateSessionState
  split
  · next h => exact iff_of_false nofun fun ⟨_, _, m, _, hm, _⟩ => nomatch h.symm.trans hm
  · next h => exact iff_of_false nofun fun ⟨_, _, _, m, _, hm, _⟩ => nomatch h.symm.trans hm
  · next txStates confirmHeights ht hc =>
    rw [then_eq_ok, checkFailure_eq_ok, checkMaps_eq_ok, and_assoc, ht, hc]
    simp

end

/-! ## What a session exports -/

section

variable {s : Session}

namespace Session

variable (h : s.Sound p)
include h

theorem lookup_of_txState (hx : x ∈ p.txids) : s.txStates.lookup x = some (s.txState x) := by
  obtain ⟨state, hs⟩ := KeyMap.mem_keys.1 ((h.keys x).2 hx)
  rw [txState, hs, getD_some]

theorem lookup_confirmed : s.txStates.lookup x = some .confirmed ↔ s.txState x = .confirmed := by
  constructor
  · intro hx
    rw [txState, hx, getD_some]
  · intro hx
    rw [lookup_of_txState h (mem_of_txState h (by rw [hx]; rintro ⟨⟩)), hx]

theorem Sound.consistent : Consistent p s.txStates s.confirmHeights := by
  constructor
  · exact h.keys
  · intro x code hc hx
    refine h.known x code hc ?_
    rw [txState, hx, getD_some]
  · intro x
    rw [h.heights, lookup_confirmed h]
  · exact h.nonneg
  · intro x y hx hxy
    rw [lookup_confirmed h] at hx ⊢
    exact h.backed x (by rw [hx]; rintro ⟨⟩) y (h.proof_eq ▸ hxy)

/-- What a session exports is accepted unless it failed with an empty text. -/
theorem Sound.validate (htext : s.lastError ≠ some []) :
    validateSessionState p s.exportState = .ok () := by
  refine validateSessionState_eq_ok.2
    ⟨?_, h.failed_mem, s.txStates, s.confirmHeights, rfl, rfl, h.consistent⟩
  refine h.failedTxid_eq_none.trans ?_
  change _ ↔ s.lastError.getD [] = []
  cases he : s.lastError with
  | none => exact iff_of_true rfl rfl
  | some err => exact iff_of_false nofun fun hnil => htext (he.trans (congrArg some hnil))

theorem Sound.newSessionFromState (htext : s.lastError ≠ some []) :
    newSessionFromState p s.exportState = .ok s := by
  unfold Recovery.newSessionFromState
  rw [h.validate htext]
  change Except.ok _ = _
  obtain ⟨proof, txStates, confirmHeights, failedTxid, lastError⟩ := s
  obtain rfl := h.proof_eq
  rw [Except.ok.injEq, Session.mk.injEq]
  refine ⟨rfl, rfl, rfl, rfl, ?_⟩
  change (if lastError.getD [] = [] then none else some (lastError.getD [])) = lastError
  cases lastError with
  | none => rfl
  | some err => exact if_neg fun h => htext (congrArg some h)

omit h

end Session

end

end Wavelength.Recovery
