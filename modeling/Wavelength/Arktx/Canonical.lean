import Mathlib
import Wavelength.Base.Hash
import Wavelength.Base.StableSort
import Wavelength.Base.Wire

/-! # Canonical transactions

The order of the inputs and outputs of an Ark transaction: the sort, the validator that is written
separately, and the index of a recipient in the transaction that is built for a transfer.
-/

namespace Wavelength.Arktx

open List

@[ext] structure OutPoint where
  hash : Hash
  index : ℕ
  deriving DecidableEq

structure TxIn where
  previousOutPoint : OutPoint
  signatureScript : Script
  witness : List (List UInt8)
  sequence : ℕ
  deriving DecidableEq

@[ext] structure TxOut where
  value : ℤ
  pkScript : Script
  deriving DecidableEq

structure MsgTx where
  version : ℤ
  txIn : List TxIn
  txOut : List TxOut
  lockTime : ℕ
  deriving DecidableEq

def txVersion : ℤ := 3

def anchorOutput : TxOut := ⟨0, [0x51, 0x02, 0x4e, 0x73]⟩

def isAnchorOutput (out : TxOut) : Bool :=
  out.value = 0 && out.pkScript = anchorOutput.pkScript

def compareBytes (a b : List UInt8) : Ordering :=
  if a.map UInt8.toNat < b.map UInt8.toNat then .lt
  else if b.map UInt8.toNat < a.map UInt8.toNat then .gt
  else .eq

def outputLess (value value' : ℤ) (pkScript pkScript' : Script) : Bool :=
  if value ≠ value' then value < value' else compareBytes pkScript pkScript' = .lt

def TxOut.less (a b : TxOut) : Bool := outputLess a.value b.value a.pkScript b.pkScript

def TxIn.less (a b : TxIn) : Bool :=
  let order := cmp a.previousOutPoint.hash b.previousOutPoint.hash
  if order ≠ .eq then order = .lt else a.previousOutPoint.index < b.previousOutPoint.index

inductive OrderError
  | noOutputs
  | anchorCount (count : ℕ)
  | anchorNotLast
  | multipleAnchors
  | missingAnchor
  | valueOrder
  | pkScriptOrder
  | hashOrder
  | indexOrder
  deriving DecidableEq

def canonicalizeOrdering (tx : MsgTx) : Except OrderError MsgTx := do
  require (tx.txOut ≠ []) .noOutputs
  require (tx.txOut.countP isAnchorOutput ≤ 1) .multipleAnchors
  require (tx.txOut.countP isAnchorOutput ≠ 0) .missingAnchor
  let anchorIndex := tx.txOut.findIdx isAnchorOutput
  let recipientOuts := sortStable TxOut.less (tx.txOut.eraseIdx anchorIndex)
  return { tx with
    txOut := recipientOuts ++ tx.txOut[anchorIndex]?.toList
    txIn := sortStable TxIn.less tx.txIn }

def checkOutputs (prev cur : TxOut) : Except OrderError Unit :=
  if isAnchorOutput prev || isAnchorOutput cur then .error .anchorNotLast
  else if prev.value < cur.value then .ok ()
  else if prev.value > cur.value then .error .valueOrder
  else require (compareBytes prev.pkScript cur.pkScript ≠ .gt) .pkScriptOrder

def checkInputs (prev cur : TxIn) : Except OrderError Unit :=
  match cmp prev.previousOutPoint.hash cur.previousOutPoint.hash with
  | .lt => .ok ()
  | .gt => .error .hashOrder
  | .eq => require (prev.previousOutPoint.index ≤ cur.previousOutPoint.index) .indexOrder

def validateCanonicalTx (tx : MsgTx) : Except OrderError Unit := do
  require (tx.txOut ≠ []) .noOutputs
  let anchorCount := tx.txOut.countP isAnchorOutput
  require (anchorCount = 1) (.anchorCount anchorCount)
  require (tx.txOut.getLast?.any isAnchorOutput) .anchorNotLast
  checkAdjacent checkOutputs tx.txOut.dropLast
  checkAdjacent checkInputs tx.txIn

/-! ## The order -/

def TxOut.key (out : TxOut) : ℤ ×ₗ List ℕ := toLex (out.value, out.pkScript.map UInt8.toNat)

def TxIn.key (input : TxIn) : Hash ×ₗ ℕ :=
  toLex (input.previousOutPoint.hash, input.previousOutPoint.index)

theorem TxOut.key_injective : Function.Injective TxOut.key := by
  intro a b h
  obtain ⟨hvalue, hscript⟩ := Prod.mk.inj (toLex.injective h)
  exact TxOut.ext hvalue (List.map_injective_iff.2 (fun _ _ => UInt8.toNat_inj.1) hscript)

@[simp] theorem compareBytes_eq_lt :
    compareBytes a b = .lt ↔ a.map UInt8.toNat < b.map UInt8.toNat := by
  unfold compareBytes
  split_ifs <;> simp_all

@[simp] theorem compareBytes_eq_gt :
    compareBytes a b = .gt ↔ b.map UInt8.toNat < a.map UInt8.toNat := by
  unfold compareBytes
  split_ifs with hlt <;> simp_all [le_of_lt]

theorem TxOut.less_byKey : ByKey TxOut.less TxOut.key := by
  intro a b
  simp only [TxOut.less, outputLess, TxOut.key, Prod.Lex.toLex_lt_toLex]
  split
  · next hne => simp [hne]
  · next heq => simp [not_not.1 heq]

theorem TxIn.less_byKey : ByKey TxIn.less TxIn.key := by
  intro a b
  simp only [TxIn.less, TxIn.key, Prod.Lex.toLex_lt_toLex]
  split
  · next hne =>
    rw [ne_eq, cmp_eq_eq_iff] at hne
    simp [hne]
  · next heq =>
    rw [not_not, cmp_eq_eq_iff] at heq
    simp [heq]

theorem isAnchorOutput_iff : isAnchorOutput out = true ↔ out = anchorOutput := by
  rw [isAnchorOutput, Bool.and_eq_true, decide_eq_true_iff, decide_eq_true_iff, TxOut.ext_iff]
  rfl

theorem checkOutputs_eq_ok (prev cur : TxOut) : checkOutputs prev cur = .ok () ↔
    isAnchorOutput prev = false ∧ isAnchorOutput cur = false ∧ prev.key ≤ cur.key := by
  simp only [checkOutputs, TxOut.key, Prod.Lex.toLex_le_toLex]
  split
  · next h =>
    simp only [reduceCtorEq, false_iff, not_and]
    rw [Bool.or_eq_true] at h
    grind
  next h =>
  simp only [Bool.or_eq_true, not_or, Bool.not_eq_true] at h
  simp only [h, true_and]
  split
  · next hlt => simp [hlt]
  split
  · next hlt hgt => simp [hlt, hgt.ne']
  · next hlt hgt => simp [le_antisymm (not_lt.1 hgt) (not_lt.1 hlt)]

theorem checkInputs_eq_ok (prev cur : TxIn) :
    checkInputs prev cur = .ok () ↔ True ∧ True ∧ prev.key ≤ cur.key := by
  simp only [checkInputs, TxIn.key, Prod.Lex.toLex_le_toLex, true_and]
  split
  · next h => simp [(cmp_eq_lt_iff _ _).1 h]
  · next h =>
    rw [cmp_eq_gt_iff] at h
    simp [h.not_gt, h.ne']
  · next h => simp [(cmp_eq_eq_iff _ _).1 h]

/-- Recipients in order before the anchor, and inputs in order. -/
structure Canonical (tx : MsgTx) (recipientOuts : List TxOut) : Prop where
  txOut : tx.txOut = recipientOuts ++ [anchorOutput]
  recipients : ∀ out ∈ recipientOuts, isAnchorOutput out = false
  outputs : recipientOuts.Pairwise fun a b => a.key ≤ b.key
  inputs : tx.txIn.Pairwise fun a b => a.key ≤ b.key

variable {tx tx' : MsgTx} {outs recipientOuts : List TxOut}

theorem countP_anchor_eq_one : (outs ++ [anchorOutput]).countP isAnchorOutput = 1 ↔
    ∀ out ∈ outs, isAnchorOutput out = false := by
  rw [countP_append, countP_singleton, if_pos (isAnchorOutput_iff.2 rfl), Nat.add_eq_right,
    countP_eq_zero]
  simp only [Bool.not_eq_true]

theorem validateCanonicalTx_eq_ok :
    validateCanonicalTx tx = .ok () ↔ ∃ recipientOuts, Canonical tx recipientOuts := by
  simp only [validateCanonicalTx, bind_eq_ok, require_eq_ok, exists_const]
  constructor
  · rintro ⟨hne, hcount, hlast, _, houtputs, hinputs⟩
    rcases eq_nil_or_concat' tx.txOut with hnil | ⟨recipientOuts, last, htx⟩
    · exact absurd hnil hne
    rw [htx, getLast?_concat, Option.any_some, isAnchorOutput_iff] at hlast
    rw [hlast] at htx
    rw [htx, countP_anchor_eq_one] at hcount
    rw [htx, dropLast_concat, checkAdjacent_iff _ checkOutputs_eq_ok hcount] at houtputs
    rw [checkAdjacent_iff _ checkInputs_eq_ok fun _ _ => trivial] at hinputs
    exact ⟨recipientOuts, htx, hcount, houtputs, hinputs⟩
  · rintro ⟨recipientOuts, h⟩
    rw [h.txOut, getLast?_concat, Option.any_some, isAnchorOutput_iff, dropLast_concat,
      countP_anchor_eq_one]
    exact ⟨by simp, h.recipients, rfl, (),
      (checkAdjacent_iff _ checkOutputs_eq_ok h.recipients).2 h.outputs,
      (checkAdjacent_iff _ checkInputs_eq_ok fun _ _ => trivial).2 h.inputs⟩

/-- The transaction with its only anchor moved to the end and all else sorted. -/
def MsgTx.sorted (tx : MsgTx) : MsgTx :=
  { tx with
    txOut := sortStable TxOut.less (tx.txOut.eraseIdx (tx.txOut.findIdx isAnchorOutput)) ++
      [anchorOutput]
    txIn := sortStable TxIn.less tx.txIn }

section

variable (h : outs.countP isAnchorOutput = 1)
include h

theorem getElem?_anchor : outs[outs.findIdx isAnchorOutput]? = some anchorOutput := by
  have hlt : outs.findIdx isAnchorOutput < outs.length :=
    findIdx_lt_length.2 (countP_pos_iff.1 (by omega))
  rw [getElem?_eq_getElem hlt, isAnchorOutput_iff.1 (findIdx_getElem (w := hlt))]

theorem perm_anchor :
    (outs.eraseIdx (outs.findIdx isAnchorOutput) ++ [anchorOutput]).Perm outs := by
  obtain ⟨hlt, hget⟩ := List.getElem?_eq_some_iff.1 (getElem?_anchor h)
  have hperm := getElem_cons_eraseIdx_perm hlt
  rw [hget] at hperm
  exact (perm_append_singleton _ _).trans hperm

theorem recipients_of_erase :
    ∀ out ∈ outs.eraseIdx (outs.findIdx isAnchorOutput), isAnchorOutput out = false := by
  rw [← countP_anchor_eq_one, (perm_anchor h).countP_eq, h]

end

theorem canonicalizeOrdering_eq_ok : canonicalizeOrdering tx = .ok tx' ↔
    tx.txOut.countP isAnchorOutput = 1 ∧ tx' = tx.sorted := by
  simp only [canonicalizeOrdering, bind_eq_ok, require_eq_ok, exists_const]
  constructor
  · rintro ⟨-, hle, hne, h⟩
    have hcount : tx.txOut.countP isAnchorOutput = 1 := by omega
    rw [getElem?_anchor hcount] at h
    cases h
    exact ⟨hcount, rfl⟩
  · rintro ⟨hcount, rfl⟩
    rw [getElem?_anchor hcount, hcount]
    refine ⟨?_, le_rfl, Nat.one_ne_zero, rfl⟩
    intro hnil
    rw [hnil] at hcount
    cases hcount

theorem MsgTx.sorted_canonical (h : tx.txOut.countP isAnchorOutput = 1) :
    ∃ recipientOuts, Canonical tx.sorted recipientOuts := by
  refine ⟨_, rfl, ?_, TxOut.less_byKey.pairwise _, TxIn.less_byKey.pairwise _⟩
  intro out hout
  exact recipients_of_erase h out ((sortStable_perm _ _).mem_iff.1 hout)

/-- The validator accepts what canonicalization leaves unchanged. -/
theorem canonical_iff_sorted : (∃ recipientOuts, Canonical tx recipientOuts) ↔
    canonicalizeOrdering tx = .ok tx := by
  rw [canonicalizeOrdering_eq_ok]
  constructor
  · rintro ⟨recipientOuts, h⟩
    have hcount := countP_anchor_eq_one.2 h.recipients
    rw [← h.txOut] at hcount
    refine ⟨hcount, ?_⟩
    have hidx : tx.txOut.findIdx isAnchorOutput = recipientOuts.length := by
      rw [h.txOut, findIdx_append, findIdx_eq_length.2 h.recipients, if_neg (lt_irrefl _),
        findIdx_cons, isAnchorOutput_iff.2 rfl]
      exact Nat.zero_add _
    rw [MsgTx.sorted, hidx, h.txOut, eraseIdx_append_of_length_le le_rfl, Nat.sub_self,
      TxIn.less_byKey.sort_eq_self.2 h.inputs]
    simp [TxOut.less_byKey.sort_eq_self.2 h.outputs, ← h.txOut]
  · rintro ⟨hcount, h⟩
    rw [h]
    exact MsgTx.sorted_canonical hcount

theorem canonicalizeOrdering_congr {txIn : List TxIn} (hout : outs.Perm tx.txOut)
    (hin : txIn.Perm tx.txIn) (hnodup : (tx.txIn.map TxIn.previousOutPoint).Nodup) :
    canonicalizeOrdering { tx with txIn := txIn, txOut := outs } = canonicalizeOrdering tx := by
  have hinputs : sortStable TxIn.less txIn = sortStable TxIn.less tx.txIn := by
    refine (TxIn.less_byKey.sort_congr hin.symm ?_).symm
    intro a ha b hb hkey
    obtain ⟨hhash, hindex⟩ := Prod.mk.inj (toLex.injective hkey)
    exact inj_on_of_nodup_map hnodup ha hb (OutPoint.ext hhash hindex)
  have hcount := hout.countP_eq isAnchorOutput
  have hnil : outs = [] ↔ tx.txOut = [] := by
    rw [← length_eq_zero_iff, hout.length_eq, length_eq_zero_iff]
  by_cases hone : tx.txOut.countP isAnchorOutput = 1
  · have hperm := (perm_anchor (hcount.trans hone)).trans (hout.trans (perm_anchor hone).symm)
    rw [canonicalizeOrdering_eq_ok.2 ⟨hone, rfl⟩, canonicalizeOrdering_eq_ok]
    refine ⟨hcount.trans hone, ?_⟩
    rw [MsgTx.sorted, MsgTx.sorted, hinputs,
      TxOut.less_byKey.sort_congr ((perm_append_right_iff _).1 hperm) fun _ _ _ _ h =>
        TxOut.key_injective h]
  · simp only [canonicalizeOrdering, hcount, hnil, ne_eq]
    unfold require
    split_ifs <;> first | rfl | omega

/-! ## The index of a recipient -/

structure RecipientOutput where
  pkScript : Script
  value : ℤ
  vtxoPolicyTemplate : List UInt8

def RecipientOutput.toTxOut (r : RecipientOutput) : TxOut := ⟨r.value, r.pkScript⟩

def canonicalRecipientOutputs (recipients : List RecipientOutput) : List RecipientOutput :=
  sortStable (fun a b => outputLess a.value b.value a.pkScript b.pkScript) recipients

inductive IndexError
  | ambiguous
  | notFound

def recipientOutputIndex (recipients : List RecipientOutput) (target : RecipientOutput) :
    Except IndexError ℕ :=
  let outs := (canonicalRecipientOutputs recipients).map RecipientOutput.toTxOut
  match outs.findIdxs (· = target.toTxOut) with
  | [] => .error .notFound
  | [i] => .ok (i % 2 ^ 32)
  | _ => .error .ambiguous

structure CheckpointOutput where
  txid : Hash
  output : Option TxOut

inductive BuildError
  | noCheckpoints
  | noRecipients
  | outputMissing
  | checkpointScriptMissing
  | checkpointValue
  | recipientScriptMissing
  | recipientValue
  | unequalSums
  | notCanonical (error : OrderError)

structure Packet where
  unsignedTx : MsgTx
  witnessUtxos : List (Option TxOut)

def checkCheckpoint (cp : CheckpointOutput) : Except BuildError Unit :=
  match cp.output with
  | none => .error .outputMissing
  | some out => do
    require (out.pkScript ≠ []) .checkpointScriptMissing
    require (0 < out.value) .checkpointValue

def checkRecipient (r : RecipientOutput) : Except BuildError Unit := do
  require (r.pkScript ≠ []) .recipientScriptMissing
  require (0 < r.value) .recipientValue

def sum64 (values : List ℤ) : ℤ := values.foldl (fun sum value => (sum + value).bmod (2 ^ 64)) 0

def buildArkPSBT (checkpoints : List CheckpointOutput) (recipients : List RecipientOutput) :
    Except BuildError Packet := do
  require (checkpoints ≠ []) .noCheckpoints
  require (recipients ≠ []) .noRecipients
  forM checkpoints checkCheckpoint
  forM recipients checkRecipient
  let inputs := checkpoints.filterMap CheckpointOutput.output
  require (sum64 (inputs.map TxOut.value) = sum64 (recipients.map RecipientOutput.value))
    .unequalSums
  let checkpointsSorted := sortStable (fun a b => cmp a.txid b.txid = .lt) checkpoints
  let recipientOuts := canonicalRecipientOutputs recipients
  let tx : MsgTx :=
    { version := txVersion
      txIn := checkpointsSorted.map fun cp => ⟨⟨cp.txid, 0⟩, [], [], 2 ^ 32 - 1⟩
      txOut := recipientOuts.map RecipientOutput.toTxOut ++ [anchorOutput]
      lockTime := 0 }
  (validateCanonicalTx tx).mapError .notCanonical
  return ⟨tx, checkpointsSorted.map CheckpointOutput.output⟩

theorem findIdxs_eq_singleton {l : List TxOut} {t : TxOut} {i : ℕ} :
    l.findIdxs (· = t) = [i] ↔ ∀ j, l[j]? = some t ↔ j = i := by
  have hmem : ∀ j, l[j]? = some t ↔ j ∈ l.findIdxs (· = t) := by
    simp [List.getElem?_eq_some_iff]
  simp only [hmem]
  constructor
  · intro h j
    rw [h, mem_singleton]
  · intro h
    apply perm_singleton.1
    rw [perm_ext_iff_of_nodup nodup_findIdxs (nodup_singleton i)]
    simpa using h

theorem recipientOutputIndex_eq_ok : recipientOutputIndex recipients target = .ok index ↔
    ∃ i, index = i % 2 ^ 32 ∧ ∀ j,
      ((canonicalRecipientOutputs recipients).map RecipientOutput.toTxOut)[j]? =
        some target.toTxOut ↔ j = i := by
  simp only [← findIdxs_eq_singleton]
  unfold recipientOutputIndex
  dsimp only
  split
  · next h => simp [h]
  · next i h => simp [h, eq_comm]
  · next h => simpa using fun i _ => h i

theorem buildArkPSBT_txOut {checkpoints : List CheckpointOutput} {pkt : Packet}
    (h : buildArkPSBT checkpoints recipients = .ok pkt) (ht : target ∈ recipients) (j : ℕ) :
    pkt.unsignedTx.txOut[j]? = some target.toTxOut ↔
      ((canonicalRecipientOutputs recipients).map RecipientOutput.toTxOut)[j]? =
        some target.toTxOut := by
  simp only [buildArkPSBT, bind_eq_ok, require_eq_ok, exists_const, forM_eq_ok] at h
  obtain ⟨-, -, -, hrecipients, -, -, -, h⟩ := h
  cases h
  have hpos := hrecipients target ht
  simp only [checkRecipient, bind_eq_ok, require_eq_ok, exists_const] at hpos
  have hne : anchorOutput ≠ target.toTxOut := by
    intro heq
    exact hpos.2.ne (congrArg TxOut.value heq)
  rw [getElem?_append]
  split
  · rfl
  · next hlt =>
    rw [getElem?_eq_none (not_lt.1 hlt), getElem?_singleton]
    split <;> simp [hne]

/-- The order of a canonical transaction, and the index of a recipient in the one that is built. -/
theorem canonical_ordering :
    (∀ tx : MsgTx, tx.txOut.countP isAnchorOutput = 1 → ∃ tx',
      canonicalizeOrdering tx = .ok tx' ∧ tx'.txIn.Perm tx.txIn ∧ tx'.txOut.Perm tx.txOut ∧
      tx'.version = tx.version ∧ tx'.lockTime = tx.lockTime ∧
      canonicalizeOrdering tx' = .ok tx' ∧ validateCanonicalTx tx' = .ok ()) ∧
    (∀ (tx : MsgTx) (txIn : List TxIn) (txOut : List TxOut), txOut.Perm tx.txOut →
      txIn.Perm tx.txIn → (tx.txIn.map TxIn.previousOutPoint).Nodup →
      canonicalizeOrdering { tx with txIn := txIn, txOut := txOut } = canonicalizeOrdering tx) ∧
    (∀ tx, validateCanonicalTx tx = .ok () ↔ canonicalizeOrdering tx = .ok tx) ∧
    ∀ checkpoints recipients pkt, buildArkPSBT checkpoints recipients = .ok pkt →
      ∀ target ∈ recipients, ∀ index, recipientOutputIndex recipients target = .ok index ↔
        ∃ i, index = i % 2 ^ 32 ∧
          ∀ j, pkt.unsignedTx.txOut[j]? = some ⟨target.value, target.pkScript⟩ ↔ j = i := by
  refine ⟨?_, ?_, ?_, ?_⟩
  · intro tx hcount
    have hcanonical := MsgTx.sorted_canonical hcount
    have hout := ((sortStable_perm TxOut.less _).append_right _).trans (perm_anchor hcount)
    exact ⟨tx.sorted, canonicalizeOrdering_eq_ok.2 ⟨hcount, rfl⟩, sortStable_perm _ _, hout, rfl,
      rfl, canonical_iff_sorted.1 hcanonical, validateCanonicalTx_eq_ok.2 hcanonical⟩
  · exact fun tx txIn txOut hout hin hnodup => canonicalizeOrdering_congr hout hin hnodup
  · exact fun tx => validateCanonicalTx_eq_ok.trans canonical_iff_sorted
  · intro checkpoints recipients pkt h target ht index
    rw [recipientOutputIndex_eq_ok]
    simp only [← buildArkPSBT_txOut h ht]
    rfl

def pairTx : MsgTx :=
  ⟨3, [⟨⟨.lastByte 31 2, 0⟩, [], [], 0⟩, ⟨⟨.lastByte 31 1, 1⟩, [], [], 0⟩],
    [anchorOutput, ⟨5, [0x51]⟩], 0⟩

theorem canonical_ordering_pair :
    (pairTx.txOut.countP isAnchorOutput = 1 ∧ ∃ tx', canonicalizeOrdering pairTx = .ok tx' ∧
      validateCanonicalTx tx' = .ok ()) ∧
    ((pairTx.txIn.map TxIn.previousOutPoint).Nodup ∧
      canonicalizeOrdering { pairTx with txIn := pairTx.txIn.reverse } =
        canonicalizeOrdering pairTx) ∧
    ∃ pkt, buildArkPSBT [⟨.lastByte 31 1, some ⟨5, [0x51]⟩⟩] [⟨[0x52], 5, []⟩] = .ok pkt ∧
      ∃ i, 0 = i % 2 ^ 32 ∧ ∀ j, pkt.unsignedTx.txOut[j]? = some ⟨5, [0x52]⟩ ↔ j = i := by
  obtain ⟨hsorted, hcongr, -, hindex⟩ := canonical_ordering
  obtain ⟨tx', hok, -, -, -, -, -, hvalid⟩ := hsorted pairTx (by decide)
  obtain ⟨pkt, hpkt⟩ : ∃ pkt, buildArkPSBT [⟨.lastByte 31 1, some ⟨5, [0x51]⟩⟩]
      [⟨[0x52], 5, []⟩] = .ok pkt := ⟨_, rfl⟩
  refine ⟨⟨by decide, tx', hok, hvalid⟩, ⟨by decide, ?_⟩, pkt, hpkt, ?_⟩
  · exact hcongr pairTx _ _ .rfl (reverse_perm _) (by decide)
  · exact (hindex _ _ _ hpkt _ mem_cons_self 0).1 rfl

end Wavelength.Arktx
