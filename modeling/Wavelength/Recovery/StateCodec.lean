import Mathlib.Algebra.Order.BigOperators.Group.List
import Mathlib.Algebra.Order.Ring.Nat
import Wavelength.Base.MapCodec
import Wavelength.Recovery.Snapshot
import Wavelength.Recovery.State

/-! # The encoded state of a session

The durable state is stored as a stream of records, each with a type, a length and a value. The
stream itself is taken to give back the records that were written; what is modelled is which records
there are, what they hold, and the bound on the length of the stream.
-/

namespace Wavelength.Recovery

open List Option

structure Record where
  type : ℕ
  value : List UInt8

abbrev Stream := List Record

def varIntSize (x : ℕ) : ℕ :=
  if x < 0xfd then 1 else if x ≤ 0xffff then 3 else if x ≤ 0xffffffff then 5 else 9

def Record.size (r : Record) : ℕ :=
  varIntSize r.type + varIntSize r.value.length + r.value.length

def Stream.size (s : Stream) : ℕ := (s.map Record.size).sum

def Stream.lookup (s : Stream) (type : ℕ) : Option (List UInt8) :=
  (s.find? (·.type = type)).map Record.value

inductive CodecError where
  | txStateOutOfRange (code : Int64)
  | tooLarge
  | malformedVersion
  | missingVersion
  | unsupportedVersion (version : UInt8)
  | txStates (e : MapCodec.DecodeError Hash)
  | confirmHeights (e : MapCodec.DecodeError Hash)
  | failedTxidLength (n : ℕ)
  deriving DecidableEq

def sessionStateCodecVersion : UInt8 := 1

def sessionStateVersionRecordType : ℕ := 1

def sessionStateTxStatesRecordType : ℕ := 3

def sessionStateConfirmHeightsRecordType : ℕ := 5

def sessionStateFailedTxidRecordType : ℕ := 7

def sessionStateLastErrorRecordType : ℕ := 9

def maxRecoveryMessageSize : ℕ := 67108864

def TxState.code : TxState → Int64
  | .pending => 0
  | .broadcasted => 1
  | .confirmed => 2
  | .unknown code _ => code

theorem unknown_code {c : Int64} (h₀ : c ≠ 0) (h₁ : c ≠ 1) (h₂ : c ≠ 2) : c < 0 ∨ 2 < c := by
  rw [Int64.lt_iff_toInt_lt, Int64.lt_iff_toInt_lt]
  rw [ne_eq, ← Int64.toInt_inj] at h₀ h₁ h₂
  simp only [Int64.reduceToInt] at *
  omega

def TxState.ofCode (c : Int64) : TxState :=
  if h₀ : c = 0 then .pending
  else if h₁ : c = 1 then .broadcasted
  else if h₂ : c = 2 then .confirmed
  else .unknown c (unknown_code h₀ h₁ h₂)

def putTxState (state : TxState) : Except CodecError (List UInt8) :=
  if state.code < 0 ∨ state.code > 255 then .error (.txStateOutOfRange state.code)
  else .ok [state.code.toUInt64.toUInt8]

def getTxState (raw : List UInt8) : TxState := .ofCode (raw.headD 0).toUInt64.toInt64

def putHeight (height : Int32) : Except CodecError (List UInt8) := .ok (be32 height.toUInt32)

def getHeight (raw : List UInt8) : Int32 := (fromBe32 raw).toInt32

def encodeTxStateMap : KeyMap Hash TxState → Except CodecError (List UInt8) :=
  MapCodec.encode putTxState

def decodeTxStateMap : List UInt8 → Except (MapCodec.DecodeError Hash) (KeyMap Hash TxState) :=
  MapCodec.decode 1 getTxState

def encodeConfirmHeightMap : KeyMap Hash Int32 → Except CodecError (List UInt8) :=
  MapCodec.encode putHeight

def decodeConfirmHeightMap : List UInt8 → Except (MapCodec.DecodeError Hash) (KeyMap Hash Int32) :=
  MapCodec.decode 4 getHeight

/-- The records of a state. The last two are there only when they hold something. -/
def stateRecords (txStates confirmHeights : List UInt8) (failedTxid : Option Hash)
    (lastError : Text) : Stream :=
  [⟨sessionStateVersionRecordType, [sessionStateCodecVersion]⟩,
    ⟨sessionStateTxStatesRecordType, txStates⟩,
    ⟨sessionStateConfirmHeightsRecordType, confirmHeights⟩] ++
  (failedTxid.toList.map fun hash => ⟨sessionStateFailedTxidRecordType, hash.data⟩) ++
  (if lastError = [] then [] else [⟨sessionStateLastErrorRecordType, lastError⟩])

/-- Write a state; a nil map is written as an empty one. -/
def encodeSessionState (st : SessionState) : Except CodecError Stream := do
  let txStates ← encodeTxStateMap (st.txStates.getD .empty)
  let confirmHeights ← encodeConfirmHeightMap (st.confirmHeights.getD .empty)
  pure (stateRecords txStates confirmHeights st.failedTxid st.lastError)

def checkVersion (s : Stream) : Except CodecError Unit :=
  match s.lookup sessionStateVersionRecordType with
  | none => .error .missingVersion
  | some [version] =>
    if version ≠ sessionStateCodecVersion then .error (.unsupportedVersion version) else .ok ()
  | some _ => .error .malformedVersion

def decodeFailedTxid (s : Stream) : Except CodecError (Option Hash) :=
  match s.lookup sessionStateFailedTxidRecordType with
  | none => .ok none
  | some failedTxid =>
    if failedTxid.length ≠ 32 then .error (.failedTxidLength failedTxid.length)
    else .ok (some (Bytes.copy 32 failedTxid))

def decodeSessionState (s : Stream) : Except CodecError SessionState :=
  if s.size > maxRecoveryMessageSize then .error .tooLarge
  else do
    checkVersion s
    let txStates ← (decodeTxStateMap
      ((s.lookup sessionStateTxStatesRecordType).getD [])).mapError .txStates
    let confirmHeights ← (decodeConfirmHeightMap
      ((s.lookup sessionStateConfirmHeightsRecordType).getD [])).mapError .confirmHeights
    let failedTxid ← decodeFailedTxid s
    pure {
      txStates := some txStates
      confirmHeights := some confirmHeights
      failedTxid
      lastError := (s.lookup sessionStateLastErrorRecordType).getD [] }

/-! ## What was written is read back -/

section

variable {p : Proof} {s : Session}

theorem putTxState_fits {state : TxState} (h : ∀ code hc, state ≠ .unknown code hc) :
    MapCodec.Fits putTxState getTxState 1 state := by
  cases state with
  | pending => exact ⟨[0], rfl, rfl, fun rest => rfl⟩
  | broadcasted => exact ⟨[1], rfl, rfl, fun rest => rfl⟩
  | confirmed => exact ⟨[2], rfl, rfl, fun rest => rfl⟩
  | unknown code hc => exact absurd rfl (h code hc)

theorem putHeight_fits (height : Int32) : MapCodec.Fits putHeight getHeight 4 height := by
  refine ⟨_, rfl, rfl, fun rest => ?_⟩
  rw [getHeight, fromBe32_be32]
  rfl

theorem lookup_failedTxid :
    (stateRecords raw raw' failedTxid lastError).lookup sessionStateFailedTxidRecordType =
      failedTxid.map (·.data) := by
  cases failedTxid with
  | none =>
    by_cases h : lastError = []
    · simp [stateRecords, h]
      rfl
    · simp [stateRecords, h]
      rfl
  | some hash => rfl

theorem lookup_lastError :
    ((stateRecords raw raw' failedTxid lastError).lookup sessionStateLastErrorRecordType).getD [] =
      lastError := by
  unfold stateRecords
  by_cases h : lastError = []
  · rw [if_pos h, h]
    cases failedTxid <;> rfl
  · rw [if_neg h]
    cases failedTxid <;> rfl

theorem length_le_size : lastError.length ≤ (stateRecords raw raw' failedTxid lastError).size := by
  by_cases h : lastError = []
  · rw [h]
    exact Nat.zero_le _
  have hmem : (⟨sessionStateLastErrorRecordType, lastError⟩ : Record) ∈
      stateRecords raw raw' failedTxid lastError := by
    simp [stateRecords, h]
  refine Nat.le_trans ?_ (single_le_sum (fun _ _ => Nat.zero_le _) _ (mem_map_of_mem hmem))
  exact Nat.le_add_left _ _

/-- A state with two maps that can be written is read back, if it is not too large. -/
theorem decode_encodeSessionState {txStates : KeyMap Hash TxState}
    {confirmHeights : KeyMap Hash Int32} (failedTxid : Option Hash) (lastError : Text)
    (hknown : ∀ x code h, txStates.lookup x ≠ some (.unknown code h))
    (hstates : txStates.entries.length < 4294967296)
    (hheights : confirmHeights.entries.length < 4294967296) :
    ∃ stream, encodeSessionState ⟨txStates, confirmHeights, failedTxid, lastError⟩ = .ok stream ∧
      lastError.length ≤ stream.size ∧
      (stream.size ≤ maxRecoveryMessageSize → decodeSessionState stream =
        .ok ⟨txStates, confirmHeights, failedTxid, lastError⟩) := by
  obtain ⟨raw, henc, hdec⟩ := MapCodec.decode_encode (m := txStates) (fun e he =>
    putTxState_fits fun code h hc => hknown e.1 code h (KeyMap.lookup_eq_some.2 (hc ▸ he))) hstates
  obtain ⟨raw', henc', hdec'⟩ :=
    MapCodec.decode_encode (m := confirmHeights) (fun e _ => putHeight_fits e.2) hheights
  refine ⟨stateRecords raw raw' failedTxid lastError, ?_, length_le_size, fun hsize => ?_⟩
  · unfold encodeSessionState
    dsimp only [getD_some]
    rw [encodeTxStateMap, henc, encodeConfirmHeightMap, henc']
    rfl
  have hfailed : decodeFailedTxid (stateRecords raw raw' failedTxid lastError) =
      .ok failedTxid := by
    unfold decodeFailedTxid
    rw [lookup_failedTxid]
    cases failedTxid with
    | none => rfl
    | some hash =>
      dsimp only [map_some]
      rw [if_neg (not_not.2 hash.length), Bytes.copy_data]
  have hversion : checkVersion (stateRecords raw raw' failedTxid lastError) = .ok () := rfl
  have hraw : (stateRecords raw raw' failedTxid lastError).lookup
      sessionStateTxStatesRecordType = some raw := rfl
  have hraw' : (stateRecords raw raw' failedTxid lastError).lookup
      sessionStateConfirmHeightsRecordType = some raw' := rfl
  unfold decodeSessionState
  rw [if_neg (Nat.not_lt.2 hsize), lookup_lastError, hfailed, hversion, hraw, hraw',
    getD_some, getD_some, decodeTxStateMap, hdec, decodeConfirmHeightMap, hdec']
  rfl

theorem entries_length_lt {ν : Type} {m : KeyMap Hash ν} (h : ∀ x ∈ m.keys, x ∈ p.txids) :
    m.entries.length < 4294967296 := by
  have hle := (m.keys_nodup.subperm h).length_le
  rw [KeyMap.keys, length_map, Proof.txids, length_map] at hle
  have hmax : p.nodes.length ≤ 100000 := p.checked.bounded
  omega

theorem Session.Sound.encode (h : s.Sound p) :
    ∃ stream, encodeSessionState s.exportState = .ok stream ∧
      (s.lastError.getD []).length ≤ stream.size ∧
      (stream.size ≤ maxRecoveryMessageSize → decodeSessionState stream = .ok s.exportState) := by
  refine decode_encodeSessionState s.failedTxid (s.lastError.getD []) h.consistent.known ?_ ?_
  · exact entries_length_lt fun x => (h.keys x).1
  · exact entries_length_lt fun x hx =>
      Session.mem_of_txState h (by rw [(h.heights x).1 hx]; exact nofun)

end

/-- A session that is stored and loaded again goes on as it was, if its failure, if any, has a text
and the stored state is not larger than what is loaded. -/
theorem restart_equivalent (p : Proof) (marks : List Mark)
    (htext : ((newSession p).after marks).lastError ≠ some []) :
    let s := (newSession p).after marks
    ∃ stream, encodeSessionState s.exportState = .ok stream ∧
      (stream.size ≤ maxRecoveryMessageSize →
        ∃ st s', decodeSessionState stream = .ok st ∧ newSessionFromState p st = .ok s' ∧
          (∀ height, s'.snapshotAt height = s.snapshotAt height) ∧
          ∀ more, s'.outcomes more = s.outcomes more) := by
  intro s
  have h : s.Sound p := (Session.newSession_sound p).after
  obtain ⟨stream, henc, -, hdec⟩ := h.encode
  refine ⟨stream, henc, fun hsize => ⟨s.exportState, s, hdec hsize, ?_, fun _ => rfl, fun _ => rfl⟩⟩
  exact h.newSessionFromState htext

theorem restart_equivalent_sole :
    let s := (newSession soleProof).after [.broadcasted soleTx.txHash]
    ∃ stream, encodeSessionState s.exportState = .ok stream ∧
      stream.size ≤ maxRecoveryMessageSize ∧
      ∃ st s', decodeSessionState stream = .ok st ∧ newSessionFromState soleProof st = .ok s' ∧
        s'.snapshotAt 5 = s.snapshotAt 5 ∧
        s'.outcomes [.confirmed soleTx.txHash 4] = s.outcomes [.confirmed soleTx.txHash 4] := by
  intro s
  obtain ⟨stream, henc, h⟩ := restart_equivalent soleProof [.broadcasted soleTx.txHash] (by decide)
  have hsize : (encodeSessionState s.exportState).map Stream.size = .ok 48 := by decide +kernel
  rw [henc] at hsize
  have hle : stream.size ≤ maxRecoveryMessageSize := by
    rw [Except.ok.inj hsize]
    decide
  obtain ⟨st, s', hdec, hnew, hsnap, hmore⟩ := h hle
  exact ⟨stream, henc, hle, st, s', hdec, hnew, hsnap 5, hmore _⟩

/-- A failure with a text as long as what is loaded at most is stored and cannot be loaded. -/
theorem restart_too_large :
    let s := (newSession soleProof).after
      [.failed soleTx.txHash (some (replicate maxRecoveryMessageSize.succ 0))]
    ∃ stream, encodeSessionState s.exportState = .ok stream ∧
      decodeSessionState stream = .error .tooLarge := by
  intro s
  have h : s.Sound soleProof := (Session.newSession_sound soleProof).after
  have herr : ∀ err, ((newSession soleProof).after
      [.failed soleTx.txHash (some err)]).lastError = some err := fun err => rfl
  obtain ⟨stream, henc, hlen, -⟩ := h.encode
  refine ⟨stream, henc, ?_⟩
  rw [herr, getD_some, length_replicate] at hlen
  exact if_pos hlen

end Wavelength.Recovery
