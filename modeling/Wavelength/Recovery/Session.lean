import Wavelength.Base.KeyMap
import Wavelength.Recovery.Proof

/-! # Recovery sessions

A session follows the transactions of a proof. The caller reports what was broadcast, what
confirmed and what failed, and asks for a snapshot of what can be done next.
-/

namespace Wavelength.Recovery

open List Option

abbrev Text := List UInt8

/-- What the caller has reported of a transaction. -/
inductive TxState where
  | pending
  | broadcasted
  | confirmed
  | unknown (code : Int64) (h : code < 0 ∨ 2 < code)
  deriving DecidableEq

inductive SessionStatus where
  | materializing
  | awaitingCSV
  | sweepReady
  | failed
  deriving DecidableEq

structure BroadcastAction where
  txid : Hash
  node : Option Node
  layer : ℕ
  parentTxids : List Hash
  deriving DecidableEq

structure BlockedAction where
  txid : Hash
  layer : ℕ
  missingParents : List Hash
  deriving DecidableEq

structure CSVStatus where
  targetConfirmHeight : Int32
  maturityHeight : Int32
  blocksRemaining : Int32
  ready : Bool
  deriving DecidableEq

structure Snapshot where
  status : SessionStatus
  readyToBroadcast : List BroadcastAction
  awaitingConfirmation : List Hash
  blocked : List BlockedAction
  csv : Option CSVStatus
  failedTxid : Option Hash
  lastError : Option Text
  deriving DecidableEq

structure Session where
  proof : Proof
  txStates : KeyMap Hash TxState
  confirmHeights : KeyMap Hash Int32
  failedTxid : Option Hash
  lastError : Option Text

inductive SessionError where
  | failed (lastError : Text)
  | unknownTxid (txid : Hash)
  | alreadyConfirmed (txid : Hash)
  | alreadyBroadcasted (txid : Hash)
  | notReady (txid : Hash)
  | negativeConfirmHeight (height : Int32)
  | confirmBeforeBroadcast (txid : Hash)
  | reconfirm (txid : Hash) (existing height : Int32)
  | unconfirmedParents (txid : Hash)
  | nilFailure
  | alreadyFailed (lastError : Text)
  | targetNotConfirmed (txid : Hash)
  | negativeTargetHeight (height : Int32)
  | csvDelayTooLarge (csvDelay : UInt32)
  | maturityOverflow (maturity : ℤ)
  deriving DecidableEq

def newSession (p : Proof) : Session where
  proof := p
  txStates := p.txids.foldl (fun m txid => m.insert txid .pending) .empty
  confirmHeights := .empty
  failedTxid := none
  lastError := none

namespace Session

def txState (s : Session) (txid : Hash) : TxState := (s.txStates.lookup txid).getD .pending

def missingParents (s : Session) (txid : Hash) : Except SessionError (List Hash) :=
  match s.proof.parentTxids txid with
  | none => .error (.unknownTxid txid)
  | some parents => .ok (sortHashes (parents.filter (s.txState · ≠ .confirmed)))

def isReady (s : Session) (txid : Hash) : Except SessionError Bool :=
  (s.missingParents txid).map (·.isEmpty)

def markBroadcasted (s : Session) (txid : Hash) : Session × Option SessionError :=
  match s.lastError with
  | some e => (s, some (.failed e))
  | none =>
    if (s.proof.node txid).isNone then (s, some (.unknownTxid txid))
    else if s.txState txid = .confirmed then (s, some (.alreadyConfirmed txid))
    else if s.txState txid = .broadcasted then (s, some (.alreadyBroadcasted txid))
    else
      match s.isReady txid with
      | .error e => (s, some e)
      | .ok false => (s, some (.notReady txid))
      | .ok true => ({ s with txStates := s.txStates.insert txid .broadcasted }, none)

/-- What remains to be done once the transaction is known to be broadcast. -/
def confirm (s : Session) (txid : Hash) (height : Int32) : Session × Option SessionError :=
  match s.isReady txid with
  | .error e => (s, some e)
  | .ok false => (s, some (.unconfirmedParents txid))
  | .ok true =>
    ({ s with
        txStates := s.txStates.insert txid .confirmed
        confirmHeights := s.confirmHeights.insert txid height }, none)

def markConfirmed (s : Session) (txid : Hash) (height : Int32) : Session × Option SessionError :=
  match s.lastError with
  | some e => (s, some (.failed e))
  | none =>
    if (s.proof.node txid).isNone then (s, some (.unknownTxid txid))
    else if height < 0 then (s, some (.negativeConfirmHeight height))
    else
      match s.txState txid with
      | .pending => (s, some (.confirmBeforeBroadcast txid))
      | .broadcasted | .unknown _ _ => s.confirm txid height
      | .confirmed =>
        -- the same height again is no error
        let existing := (s.confirmHeights.lookup txid).getD 0
        if existing = height then (s, none) else (s, some (.reconfirm txid existing height))

def markFailed (s : Session) (txid : Hash) (err : Option Text) : Session × Option SessionError :=
  match err with
  | none => (s, some .nilFailure)
  | some err =>
    match s.lastError with
    | some e => (s, some (.alreadyFailed e))
    | none =>
      if (s.proof.node txid).isNone then (s, some (.unknownTxid txid))
      else ({ s with failedTxid := some txid, lastError := some err }, none)

end Session

def computeMaturityHeight (targetConfirmHeight : Int32) (csvDelay : UInt32) :
    Except SessionError Int32 :=
  if targetConfirmHeight < 0 then .error (.negativeTargetHeight targetConfirmHeight)
  else if csvDelay > maxCSVDelay then .error (.csvDelayTooLarge csvDelay)
  else
    let maturity : ℤ := targetConfirmHeight.toInt + csvDelay.toNat
    if maturity > 2147483647 then .error (.maturityOverflow maturity) else .ok (.ofInt maturity)

namespace Session

structure Buckets where
  ready : List BroadcastAction
  awaiting : List Hash
  blocked : List BlockedAction

def classify (s : Session) (b : Buckets) (at' : Hash × ℕ) : Except SessionError Buckets :=
  let (txid, layer) := at'
  match s.txState txid with
  | .broadcasted => .ok { b with awaiting := b.awaiting ++ [txid] }
  | .confirmed | .unknown _ _ => .ok b
  | .pending => do
    let missingParents ← s.missingParents txid
    if missingParents.isEmpty then
      match s.proof.parentTxids txid with
      | none => .error (.unknownTxid txid)
      | some parentTxids =>
        let action := ⟨txid, s.proof.node txid, layer, parentTxids⟩
        .ok { b with ready := b.ready ++ [action] }
    else
      .ok { b with blocked := b.blocked ++ [⟨txid, layer, missingParents⟩] }

def walk (p : Proof) : List (Hash × ℕ) :=
  p.layers.zipIdx.flatMap fun (layer, i) => layer.map (·, i)

def materializationComplete (s : Session) : Bool :=
  s.proof.txids.all (s.txState · = .confirmed)

def csvStatusAt (s : Session) (height : Int32) : Except SessionError CSVStatus :=
  match s.confirmHeights.lookup s.proof.targetOutpoint.hash with
  | none => .error (.targetNotConfirmed s.proof.targetOutpoint.hash)
  | some targetConfirmHeight => do
    let maturityHeight ← computeMaturityHeight targetConfirmHeight s.proof.csvDelay
    let blocksRemaining := maturityHeight - height
    pure {
      targetConfirmHeight
      maturityHeight
      blocksRemaining := if blocksRemaining < 0 then 0 else blocksRemaining
      ready := height ≥ maturityHeight }

def snapshotAt (s : Session) (height : Int32) : Except SessionError Snapshot := do
  let b ← (walk s.proof).foldlM s.classify ⟨[], [], []⟩
  let snapshot : Snapshot := {
    status := .materializing
    readyToBroadcast := b.ready
    awaitingConfirmation := sortHashes b.awaiting
    blocked := b.blocked
    csv := none
    failedTxid := s.failedTxid
    lastError := s.lastError }
  if s.lastError.isSome then
    pure { snapshot with
      status := .failed, readyToBroadcast := [], awaitingConfirmation := [], blocked := [] }
  else if !s.materializationComplete then
    pure snapshot
  else do
    let csvStatus ← s.csvStatusAt height
    pure { snapshot with
      csv := some csvStatus
      status := if csvStatus.ready then .sweepReady else .awaitingCSV }

end Session

inductive Mark where
  | broadcasted (txid : Hash)
  | confirmed (txid : Hash) (height : Int32)
  | failed (txid : Hash) (err : Option Text)

def Session.mark (s : Session) : Mark → Session × Option SessionError
  | .broadcasted txid => s.markBroadcasted txid
  | .confirmed txid height => s.markConfirmed txid height
  | .failed txid err => s.markFailed txid err

/-- The session after a list of reports, whether they were accepted or not. -/
def Session.after (s : Session) (marks : List Mark) : Session :=
  marks.foldl (fun s m => (s.mark m).1) s

def Session.outcomes (s : Session) : List Mark → List (Option SessionError)
  | [] => []
  | m :: ms => (s.mark m).2 :: (s.mark m).1.outcomes ms

/-! ## What a report does -/

section

variable {s s' : Session} {x y txid : Hash} {height : Int32}

theorem Proof.node_isNone {p : Proof} : (p.node x).isNone ↔ x ∉ p.txids := by
  rw [isNone_iff_eq_none]
  exact findNode_eq_none

theorem Proof.parentTxids_of_mem {p : Proof} (h : x ∈ p.txids) :
    p.parentTxids x = some (parentsOf p.nodes x) := by
  unfold Proof.parentTxids
  cases hn : p.node x with
  | none => exact absurd h (findNode_eq_none.1 hn)
  | some n => rfl

theorem Proof.parentTxids_of_not_mem {p : Proof} (h : x ∉ p.txids) : p.parentTxids x = none := by
  unfold Proof.parentTxids
  rw [isNone_iff_eq_none.1 (Proof.node_isNone.2 h)]
  rfl

namespace Session

/-- All in-proof parents of a transaction have confirmed. -/
def Backed (s : Session) (x : Hash) : Prop :=
  ∀ y, Spends s.proof.nodes x y → s.txState y = .confirmed

def missing (s : Session) (x : Hash) : List Hash :=
  sortHashes ((parentsOf s.proof.nodes x).filter (s.txState · ≠ .confirmed))

theorem missingParents_of_mem (h : x ∈ s.proof.txids) : s.missingParents x = .ok (s.missing x) := by
  unfold missingParents
  rw [Proof.parentTxids_of_mem h]
  rfl

theorem missing_eq_nil : s.missing x = [] ↔ s.Backed x := by
  simp only [missing, eq_nil_iff_forall_not_mem, mem_sortHashes, mem_filter,
    mem_parentsOf s.proof.txids_nodup, decide_eq_true_eq, not_and, not_not]
  rfl

theorem isReady_eq_true : s.isReady x = .ok true ↔ x ∈ s.proof.txids ∧ s.Backed x := by
  unfold isReady
  by_cases h : x ∈ s.proof.txids
  · rw [missingParents_of_mem h, Except.map, Except.ok.injEq, List.isEmpty_iff, missing_eq_nil]
    exact (and_iff_right h).symm
  · unfold missingParents
    rw [Proof.parentTxids_of_not_mem h]
    exact ⟨fun h' => (nomatch h'), fun h' => absurd h'.1 h⟩

inductive Marked (s : Session) : Mark → Session → Option SessionError → Prop
  | refused (m : Mark) (e : SessionError) : Marked s m s (some e)
  | again (txid : Hash) (height : Int32) (hstate : s.txState txid = .confirmed) :
      Marked s (.confirmed txid height) s none
  | broadcasted (txid : Hash) (hlive : s.lastError = none) (hmem : txid ∈ s.proof.txids)
      (hnew : s.txState txid ≠ .confirmed ∧ s.txState txid ≠ .broadcasted)
      (hready : s.Backed txid) :
      Marked s (.broadcasted txid) { s with txStates := s.txStates.insert txid .broadcasted } none
  | confirmed (txid : Hash) (height : Int32) (hlive : s.lastError = none)
      (hmem : txid ∈ s.proof.txids) (hheight : ¬ height < 0)
      (hsent : s.txState txid ≠ .confirmed ∧ s.txState txid ≠ .pending) (hready : s.Backed txid) :
      Marked s (.confirmed txid height)
        { s with
          txStates := s.txStates.insert txid .confirmed
          confirmHeights := s.confirmHeights.insert txid height } none
  | failed (txid : Hash) (err : Text) (hlive : s.lastError = none) (hmem : txid ∈ s.proof.txids) :
      Marked s (.failed txid (some err)) { s with failedTxid := some txid, lastError := some err }
        none

theorem markBroadcasted_spec :
    s.Marked (.broadcasted txid) (s.markBroadcasted txid).1 (s.markBroadcasted txid).2 := by
  unfold markBroadcasted
  split
  · exact .refused _ _
  next hlive =>
  split
  · exact .refused _ _
  next hmem =>
  split
  · exact .refused _ _
  next hc =>
  split
  · exact .refused _ _
  · next hb =>
    split
    · exact .refused _ _
    · exact .refused _ _
    · next hready =>
      obtain ⟨hmem, hready⟩ := isReady_eq_true.1 hready
      exact .broadcasted txid hlive hmem ⟨hc, hb⟩ hready

theorem confirm_spec (hlive : s.lastError = none) (hheight : ¬ height < 0)
    (hsent : s.txState txid ≠ .confirmed ∧ s.txState txid ≠ .pending) :
    s.Marked (.confirmed txid height) (s.confirm txid height).1 (s.confirm txid height).2 := by
  unfold confirm
  split
  · exact .refused _ _
  · exact .refused _ _
  · next hready =>
    obtain ⟨hmem, hready⟩ := isReady_eq_true.1 hready
    exact .confirmed txid height hlive hmem hheight hsent hready

theorem markConfirmed_spec : s.Marked (.confirmed txid height) (s.markConfirmed txid height).1
    (s.markConfirmed txid height).2 := by
  unfold markConfirmed
  split
  · exact .refused _ _
  next hlive =>
  split
  · exact .refused _ _
  split
  · exact .refused _ _
  next hheight =>
  split
  · exact .refused _ _
  · next hstate => exact confirm_spec hlive hheight (by rw [hstate]; exact ⟨nofun, nofun⟩)
  · next hstate => exact confirm_spec hlive hheight (by rw [hstate]; exact ⟨nofun, nofun⟩)
  · next hstate =>
    dsimp only
    split
    · exact .again txid height hstate
    · exact .refused _ _

theorem markFailed_spec :
    s.Marked (.failed txid err) (s.markFailed txid err).1 (s.markFailed txid err).2 := by
  unfold markFailed
  split
  · exact .refused _ _
  split
  · exact .refused _ _
  next hlive =>
  split
  · exact .refused _ _
  · next hmem => exact .failed txid _ hlive (not_not.1 fun h => hmem (Proof.node_isNone.2 h))

theorem mark_spec : s.Marked m (s.mark m).1 (s.mark m).2 := by
  cases m with
  | broadcasted txid => exact markBroadcasted_spec
  | confirmed txid height => exact markConfirmed_spec
  | failed txid err => exact markFailed_spec

variable (hlive : s.lastError = none) (hmem : txid ∈ s.proof.txids)
include hlive hmem

theorem markBroadcasted_of_ready
    (hnew : s.txState txid ≠ .confirmed ∧ s.txState txid ≠ .broadcasted) (hready : s.Backed txid) :
    s.markBroadcasted txid =
      ({ s with txStates := s.txStates.insert txid .broadcasted }, none) := by
  unfold markBroadcasted
  rw [hlive]
  dsimp only
  rw [if_neg (fun h => Proof.node_isNone.1 h hmem), if_neg hnew.1, if_neg hnew.2,
    isReady_eq_true.2 ⟨hmem, hready⟩]

theorem markConfirmed_of_ready
    (hheight : ¬ height < 0) (hsent : s.txState txid = .broadcasted) (hready : s.Backed txid) :
    s.markConfirmed txid height =
      ({ s with
          txStates := s.txStates.insert txid .confirmed
          confirmHeights := s.confirmHeights.insert txid height }, none) := by
  unfold markConfirmed confirm
  rw [hlive]
  dsimp only
  rw [if_neg (fun h => Proof.node_isNone.1 h hmem), if_neg hheight, hsent,
    isReady_eq_true.2 ⟨hmem, hready⟩]

theorem markFailed_of_mem {err : Text} :
    s.markFailed txid (some err) =
      ({ s with failedTxid := some txid, lastError := some err }, none) := by
  unfold markFailed
  dsimp only
  rw [hlive]
  exact if_neg fun h => Proof.node_isNone.1 h hmem

omit hlive hmem

end Session

end

/-! ## What every session keeps -/

namespace Session

variable {s : Session}

structure Sound (p : Proof) (s : Session) : Prop where
  proof_eq : s.proof = p
  keys : ∀ x, x ∈ s.txStates.keys ↔ x ∈ p.txids
  known : ∀ x code h, s.txState x ≠ .unknown code h
  backed : ∀ x, s.txState x ≠ .pending → s.Backed x
  heights : ∀ x, x ∈ s.confirmHeights.keys ↔ s.txState x = .confirmed
  nonneg : ∀ x height, s.confirmHeights.lookup x = some height → ¬ height < 0
  failed : s.failedTxid.isSome = s.lastError.isSome
  failed_mem : ∀ x, s.failedTxid = some x → x ∈ p.txids

theorem Sound.failedTxid_eq_none (h : s.Sound p) : s.failedTxid = none ↔ s.lastError = none := by
  rw [← isNone_iff_eq_none, ← isNone_iff_eq_none, ← not_isSome, ← not_isSome, h.failed]

theorem mem_of_txState (h : s.Sound p) (hx : s.txState x ≠ .pending) : x ∈ p.txids := by
  rw [← h.keys, KeyMap.mem_keys]
  cases hl : s.txStates.lookup x with
  | none =>
    refine absurd ?_ hx
    rw [txState, hl]
    rfl
  | some st => exact ⟨st, rfl⟩

theorem newSession_lookup (p : Proof) (x : Hash) :
    (newSession p).txStates.lookup x = if x ∈ p.txids then some .pending else none := by
  have hfold : ∀ (l : List Hash) (m : KeyMap Hash TxState),
      (l.foldl (fun m txid => m.insert txid .pending) m).lookup x =
        if x ∈ l then some .pending else m.lookup x := by
    intro l
    induction l with
    | nil => simp
    | cons a l ih =>
      intro m
      rw [foldl_cons, ih, KeyMap.lookup_insert]
      by_cases hl : x ∈ l
      · rw [if_pos hl, if_pos (mem_cons_of_mem _ hl)]
      · simp [hl]
  exact hfold p.txids .empty

theorem newSession_txState : (newSession p).txState x = .pending := by
  unfold txState
  rw [newSession_lookup]
  split <;> rfl

theorem newSession_sound (p : Proof) : (newSession p).Sound p := by
  constructor
  · rfl
  · intro x
    rw [KeyMap.mem_keys, newSession_lookup]
    by_cases h : x ∈ p.txids <;> simp [h]
  · intro x code h
    rw [newSession_txState]
    exact nofun
  · exact fun x h => absurd newSession_txState h
  · intro x
    rw [newSession_txState]
    exact ⟨fun h => (nomatch h), fun h => (nomatch h)⟩
  · exact fun x height h => nomatch h
  · rfl
  · exact fun x h => nomatch h

theorem txState_insert (s : Session) (x : Hash) (st : TxState) (hs : KeyMap Hash Int32) (y : Hash) :
    ({ s with txStates := s.txStates.insert x st, confirmHeights := hs } : Session).txState y =
      if y = x then st else s.txState y := by
  simp only [txState, KeyMap.lookup_insert]
  split <;> rfl

theorem Backed.insert (h : s.Backed x) (hz : st = .confirmed ∨ s.txState z ≠ .confirmed) :
    ({ s with txStates := s.txStates.insert z st, confirmHeights := hs } : Session).Backed x := by
  intro y hy
  rw [txState_insert]
  split
  · next heq =>
    subst heq
    rcases hz with rfl | hz
    · rfl
    · exact absurd (h y hy) hz
  · exact h y hy

theorem Sound.insert (h : s.Sound s.proof) (hmem : txid ∈ s.proof.txids)
    (hst : ∀ code hc, st ≠ .unknown code hc) (hready : s.Backed txid)
    (hz : st = .confirmed ∨ s.txState txid ≠ .confirmed)
    (hheights : ∀ x, x ∈ hs.keys ↔ (if x = txid then st else s.txState x) = .confirmed)
    (hnonneg : ∀ x height, hs.lookup x = some height → ¬ height < 0) :
    Sound s.proof { s with txStates := s.txStates.insert txid st, confirmHeights := hs } := by
  have htx := txState_insert s txid st hs
  refine ⟨rfl, fun x => ?_, fun x code hc => ?_, fun x hx => ?_, fun x => ?_, hnonneg, h.failed,
    h.failed_mem⟩
  · rw [KeyMap.mem_keys_insert, h.keys, or_iff_right_of_imp]
    rintro rfl
    exact hmem
  · rw [htx]
    split
    · exact hst code hc
    · exact h.known x code hc
  · rw [htx] at hx
    split at hx
    · next heq =>
      subst heq
      exact hready.insert hz
    · exact (h.backed x hx).insert hz
  · rw [htx]
    exact hheights x

theorem Sound.mark (h : s.Sound p) : (s.mark m).1.Sound p := by
  have hspec : s.Marked m (s.mark m).1 (s.mark m).2 := mark_spec
  generalize (s.mark m).1 = s', (s.mark m).2 = o at hspec ⊢
  obtain rfl := h.proof_eq
  cases hspec with
  | refused | again => exact h
  | broadcasted txid _ hmem hnew hready =>
    refine h.insert hmem nofun hready (.inr hnew.1) (fun x => ?_) h.nonneg
    rw [h.heights]
    split
    · next heq =>
      subst heq
      exact ⟨fun hc => absurd hc hnew.1, nofun⟩
    · rfl
  | confirmed txid height _ hmem hheight _ hready =>
    refine h.insert hmem nofun hready (.inl rfl) (fun x => ?_) fun x height' hl => ?_
    · rw [KeyMap.mem_keys_insert, h.heights]
      split
      · next heq => exact iff_of_true (.inl heq) rfl
      · next hne => exact or_iff_right hne
    · rw [KeyMap.lookup_insert] at hl
      split at hl
      · cases hl
        exact hheight
      · exact h.nonneg x height' hl
  | failed txid err _ hmem =>
    refine ⟨rfl, h.keys, h.known, h.backed, h.heights, h.nonneg, rfl, ?_⟩
    intro x hx
    cases hx
    exact hmem

/-- A property that every report keeps holds after every list of reports. -/
theorem after_invariant {P : Session → Prop} (hstep : ∀ s m, P s → P (s.mark m).1) (h : P s) :
    P (s.after marks) := by
  induction marks generalizing s with
  | nil => exact h
  | cons m marks ih => exact ih (hstep s m h)

theorem Sound.after (h : s.Sound p) : (s.after marks).Sound p :=
  after_invariant (fun _ _ h => h.mark) h

theorem mark_eq_of_refused (h : (s.mark m).2 = some e) : (s.mark m).1 = s := by
  have hspec : s.Marked m (s.mark m).1 (s.mark m).2 := mark_spec
  rw [h] at hspec
  generalize (s.mark m).1 = s' at hspec ⊢
  cases hspec
  rfl

/-- A failed session refuses every report but a repeated nothing. -/
theorem mark_failed (h : s.lastError = some err) : (s.mark m).1 = s := by
  have hspec : s.Marked m (s.mark m).1 (s.mark m).2 := mark_spec
  generalize (s.mark m).1 = s', (s.mark m).2 = o at hspec ⊢
  cases hspec with
  | refused | again => rfl
  | broadcasted _ hlive | confirmed _ _ hlive | failed _ _ hlive => cases h.symm.trans hlive

theorem after_failed (h : s.lastError = some err) : s.after marks = s :=
  after_invariant (P := (· = s)) (fun _ _ hs => hs ▸ mark_failed (hs ▸ h)) rfl

end Session

end Wavelength.Recovery
