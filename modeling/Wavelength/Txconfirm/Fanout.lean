import Mathlib.Algebra.Order.Ring.Int
import Wavelength.Base.Matching
import Wavelength.Base.Wire

/-! # Fee-input fanouts

Which demands the free wallet amounts leave unserved, and the outputs of a funded
fanout that are then reserved for them.
-/

namespace Wavelength.Txconfirm

open List

structure FeeInputDemand where
  parentTxid : ℕ
  minAmount : ℤ

structure Utxo where
  outpoint : OutPoint
  amount : ℤ

structure TxOut where
  value : ℤ
  pkScript : Script
  deriving DecidableEq

structure FeeInput where
  outpoint : OutPoint
  output : TxOut
  confirmed : Bool

/-- An absent entry of the wallet's list is a nil one. -/
def fanoutAvailableFeeInputs (utxos : List (Option Utxo)) (reserved : List OutPoint) : List ℤ :=
  (utxos.reduceOption.filterMap fun utxo =>
    if utxo.outpoint ∈ reserved then none else some utxo.amount).insertionSort (· ≤ ·)

def demandsStillMissingSupply (demands : List FeeInputDemand) (available : List ℤ) :
    List FeeInputDemand :=
  unmatched FeeInputDemand.minAmount
    (demands.insertionSort fun d e => d.minAmount ≤ e.minAmount) available

/-- The destination of a slot is retained from an earlier attempt or derived, which may fail. -/
def outputsFrom (fanoutOutputPkScript : ℕ → Option Script) : List ℤ → ℕ → Option (List TxOut)
  | [], _ => some []
  | value :: values, idx => do
    let pkScript ← fanoutOutputPkScript idx
    return ⟨value, pkScript⟩ :: (← outputsFrom fanoutOutputPkScript values (idx + 1))

def fanoutOutputs (fanoutOutputPkScript : ℕ → Option Script) (demands : List FeeInputDemand)
    (minOutputs : ℕ) : Option (List TxOut) :=
  let amounts := demands.map FeeInputDemand.minAmount
  let extraAmount := amounts.foldl max 0
  outputsFrom fanoutOutputPkScript
    (amounts ++ replicate (minOutputs - demands.length) extraAmount) 0

inductive VerifyError
  | txMissing
  | outputCountChanged
  | outputChanged (idx : ℕ)

def verifyFanoutOutputs (expected : List TxOut) : Option (List TxOut) → Except VerifyError Unit
  | none => .error .txMissing
  | some actual =>
    if actual.length < expected.length then .error .outputCountChanged
    else match (expected.zip actual).findIdx? fun (want, got) => got ≠ want with
      | some idx => .error (.outputChanged idx)
      | none => .ok ()

/-- The scan for one demand goes on where the last one stopped; the error names a parent
without an output. -/
def reserveOutputs (txid : ℕ) :
    List FeeInputDemand → List (TxOut × ℕ) → Except ℕ (List (ℕ × FeeInput))
  | [], _ => .ok []
  | demand :: demands, outputs =>
    match outputs.dropWhile (·.1.value ≠ demand.minAmount) with
    | [] => .error demand.parentTxid
    | (txOut, idx) :: rest =>
      (reserveOutputs txid demands rest).map ((demand.parentTxid, ⟨⟨txid, idx⟩, txOut, false⟩) :: ·)

/-- The predicted fee inputs, each with the parent it is assigned to. -/
def reservePredictedFanoutOutputs (txid : ℕ) (tx : List TxOut) (demands : List FeeInputDemand) :
    Except ℕ (List (ℕ × FeeInput)) :=
  reserveOutputs txid demands tx.zipIdx

theorem outputsFrom_values (h : outputsFrom pkScript values n = some outputs) :
    outputs.map TxOut.value = values := by
  induction values generalizing n outputs with
  | nil =>
    cases h
    rfl
  | cons value values ih =>
    simp only [outputsFrom, Option.bind_eq_bind, Option.bind_eq_some_iff, Option.pure_def,
      Option.some.injEq] at h
    obtain ⟨script, -, rest, hrest, rfl⟩ := h
    rw [map_cons, ih hrest]

theorem verifyFanoutOutputs_ok (h : verifyFanoutOutputs expected actual = .ok ()) :
    ∃ tx, actual = some tx ∧ expected <+: tx := by
  cases actual with
  | none => cases h
  | some tx =>
    refine ⟨tx, rfl, prefix_iff_getElem?.2 fun i hi => ?_⟩
    simp only [verifyFanoutOutputs] at h
    split at h
    · cases h
    split at h
    · cases h
    next hlen _ hnone =>
    have hmem : (expected[i], tx[i]) ∈ expected.zip tx :=
      mem_iff_getElem.2 ⟨i, by rw [length_zip]; omega, getElem_zip⟩
    have hsame := findIdx?_eq_none_iff.1 hnone _ hmem
    rw [getElem?_eq_getElem (by omega)]
    simpa using hsame

/-- Each demand takes the output at its own position. -/
theorem reserveOutputs_ok {outputs : List TxOut} (txid n : ℕ)
    (h : demands.map FeeInputDemand.minAmount <+: outputs.map TxOut.value) :
    ∃ assigned, reserveOutputs txid demands (outputs.zipIdx n) = .ok assigned ∧
      assigned.length = demands.length ∧ ∀ (i : ℕ) (d : FeeInputDemand), demands[i]? = some d →
        ∃ out, outputs[i]? = some out ∧ out.value = d.minAmount ∧
          assigned[i]? = some (d.parentTxid, ⟨⟨txid, n + i⟩, out, false⟩) := by
  induction demands generalizing outputs n with
  | nil => exact ⟨[], rfl, rfl, nofun⟩
  | cons d ds ih =>
    obtain _ | ⟨out, outputs⟩ := outputs
    · cases prefix_nil.1 h
    · obtain ⟨hout, htail⟩ := cons_prefix_cons.1 h
      obtain ⟨assigned, hok, hlen, hserved⟩ := ih (n + 1) htail
      refine ⟨(d.parentTxid, ⟨⟨txid, n⟩, out, false⟩) :: assigned, ?_, congrArg (· + 1) hlen, ?_⟩
      · simp [reserveOutputs, hout, hok, Except.map]
      · rintro (_ | i) e he
        · cases he
          exact ⟨out, rfl, hout.symm, rfl⟩
        · simpa [Nat.add_assoc, Nat.add_comm 1] using hserved i e he

/-- No assignment serves more demands, and a fanout that passes the output check has for each demand
the output at its position, of exactly its amount. -/
theorem fanout_serves_demands (demands : List FeeInputDemand) (utxos : List (Option Utxo))
    (reserved : List OutPoint) :
    IsGreatest {n | ∃ pairs, Assignment FeeInputDemand.minAmount demands
        (fanoutAvailableFeeInputs utxos reserved) pairs ∧ pairs.length = n}
      (demands.length - (demandsStillMissingSupply demands
        (fanoutAvailableFeeInputs utxos reserved)).length) ∧
    ∀ pkScript minOutputs outputs change funded txid,
      fanoutOutputs pkScript demands minOutputs = some outputs →
      verifyFanoutOutputs (outputs ++ change) funded = .ok () →
      ∃ tx assigned, funded = some tx ∧
        reservePredictedFanoutOutputs txid tx demands = .ok assigned ∧
        assigned.length = demands.length ∧ ∀ (i : ℕ) (d : FeeInputDemand), demands[i]? = some d →
          ∃ out, tx[i]? = some out ∧ out.value = d.minAmount ∧
            assigned[i]? = some (d.parentTxid, ⟨⟨txid, i⟩, out, false⟩) := by
  constructor
  · have : Std.Total fun d e : FeeInputDemand => d.minAmount ≤ e.minAmount :=
      ⟨fun d e => le_total _ _⟩
    have : IsTrans FeeInputDemand fun d e => d.minAmount ≤ e.minAmount := ⟨fun _ _ _ => le_trans⟩
    exact isGreatest_matched (perm_insertionSort _ _) (pairwise_insertionSort _ _)
      (pairwise_insertionSort _ _)
  · intro pkScript minOutputs outputs change funded txid houtputs hverify
    obtain ⟨tx, hfunded, hpre⟩ := verifyFanoutOutputs_ok hverify
    have hvalues : demands.map FeeInputDemand.minAmount <+: outputs.map TxOut.value := by
      rw [outputsFrom_values houtputs]
      exact prefix_append _ _
    obtain ⟨assigned, hok, hassigned⟩ := reserveOutputs_ok txid 0
      (hvalues.trans (((prefix_append _ _).trans hpre).map _))
    simp only [Nat.zero_add] at hassigned
    exact ⟨tx, assigned, hfunded, hok, hassigned⟩

/-- Two demands of one amount and a larger one, with change behind their outputs. -/
theorem fanout_serves_three : ∃ tx assigned,
    reservePredictedFanoutOutputs 7 tx [⟨1, 500⟩, ⟨2, 900⟩, ⟨3, 500⟩] = .ok assigned ∧
      assigned.length = 3 := by
  obtain ⟨tx, assigned, -, hok, hlen, -⟩ :=
    (fanout_serves_demands [⟨1, 500⟩, ⟨2, 900⟩, ⟨3, 500⟩] [] []).2 (fun i => some [i.toUInt8]) 0
      [⟨500, [0]⟩, ⟨900, [1]⟩, ⟨500, [2]⟩] [⟨42, []⟩]
      (some [⟨500, [0]⟩, ⟨900, [1]⟩, ⟨500, [2]⟩, ⟨42, []⟩]) 7 rfl rfl
  exact ⟨tx, assigned, hok, hlen⟩

end Wavelength.Txconfirm
