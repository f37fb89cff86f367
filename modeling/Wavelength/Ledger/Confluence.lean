import Mathlib.Data.Set.Insert
import Wavelength.Base.Yields
import Wavelength.Ledger.Handlers

/-! # Order of ledger messages

Deposits, own-wallet proceeds and boarding sweeps that describe one chain. What the ledger
has to hold for them is a function of the set of messages, and every delivery takes the
tables from one set to the next, so that the order and the number of deliveries do not matter.
-/

namespace Wavelength.Ledger

open List

/-- The facts that ledger messages report. An outpoint has one amount, one classification and at
most one spender, a transaction has one height, and the destination of a sweep is its output 0. -/
structure Chain where
  amount : Outpoint → ℤ
  classification : Outpoint → Classification
  height : Hash → UInt32
  spender : Outpoint → Option Hash
  cost : Hash → ℤ
  external : Hash → Bool
  amount_pos : ∀ op, 0 < amount op
  cost_pos : ∀ txid, 0 < cost txid

inductive Leg
  | created (op : Outpoint)
  | swept (op : Outpoint)
  | fee (txid : Hash)
  | transfer (txid : Hash)
  | reversal (op : Outpoint)
  deriving DecidableEq

namespace Chain

variable (c : Chain)

def Own (op : Outpoint) : Prop := isOwnWalletProceeds (c.classification op) = true

def spentHeight (op : Outpoint) : UInt32 := (c.spender op).elim 0 c.height

def sweep (txid : Hash) : BoardingSweepConfirmedMsg where
  txid := txid
  blockHeight := c.height txid
  chainCostSat := c.cost txid
  inputs := []
  destinationSat := c.amount ⟨txid, 0⟩
  destinationExternal := c.external txid

def entry : Leg → LedgerEntry
  | .created op => createdEntry 0 op (c.amount op) (c.classification op) (c.height op.hash)
  | .swept op => sweptEntry 0 op op.hexText (c.amount op) (c.spentHeight op)
  | .fee txid => sweepFeeEntry 0 (c.sweep txid)
  | .transfer txid => sweepTransferEntry 0 (c.sweep txid)
  | .reversal op => reversalEntry 0 op (c.amount op) (c.spentHeight op)

/-- A deposit, own-wallet proceeds or a confirmed sweep, as the chain has it. -/
def Describes : Msg → Prop
  | .utxoCreated m => m.amountSat = c.amount m.outpoint ∧
      m.classification = c.classification m.outpoint ∧ m.blockHeight = c.height m.outpoint.hash ∧
      (m.classification = .deposit ∧ (∀ i ∈ m.fundingInputs, c.spender i = some m.outpoint.hash) ∨
        c.Own m.outpoint)
  | .boardingSweepConfirmed m => m.blockHeight = c.height m.txid ∧ m.chainCostSat = c.cost m.txid ∧
      m.inputs ≠ [] ∧
      (∀ i ∈ m.inputs, i.amountSat = c.amount i.outpoint ∧ c.spender i.outpoint = some m.txid) ∧
      m.destinationSat = c.amount m.returnPoint ∧ m.destinationExternal = c.external m.txid ∧
      (m.destinationExternal = false → c.classification m.returnPoint = .boardingSweepReturn)
  | _ => False

end Chain

section Identity

variable {c : Chain}

theorem walletUTXOIdempotencyKey_inj
    (h : walletUTXOIdempotencyKey op = walletUTXOIdempotencyKey op') : op = op' :=
  outpoint_ext (append_be32_inj h).1 (append_be32_inj h).2

/-- The key of a row together with its accounts tells its leg. -/
theorem Chain.entry_inj (hkey : (c.entry k).idempotencyKey = (c.entry k').idempotencyKey)
    (hleg : (c.entry k).leg = (c.entry k').leg) : k = k' := by
  cases k <;> cases k' <;> simp [entry, LedgerEntry.leg, createdEntry, sweptEntry, sweepFeeEntry,
    sweepTransferEntry, reversalEntry, sweep] at hkey hleg
  case created.created => rw [walletUTXOIdempotencyKey_inj hkey]
  case swept.swept => rw [walletUTXOIdempotencyKey_inj hkey]
  case fee.fee => rw [Bytes.ext hkey]
  case transfer.transfer => rw [Bytes.ext hkey]
  case reversal.reversal => rw [walletUTXOIdempotencyKey_inj (append_cancel_left hkey)]

end Identity

section Represents

/-- What the tables are to hold: the booked legs, the logged outputs and the funding inputs
of deposits. -/
@[ext] structure Books where
  legs : Set Leg
  created : Set Outpoint
  funded : Set (Outpoint × Outpoint)

/-- The tables hold these books of the chain. -/
structure Represents (c : Chain) (t : Tables) (b : Books) : Prop where
  legs : ∃ ks : List Leg, ks.Nodup ∧ t.entries.map LedgerEntry.payload = ks.map c.entry ∧
    ∀ k, k ∈ ks ↔ k ∈ b.legs
  rows : ∀ r ∈ t.log, r.event = .created → r.amountSat = c.amount r.outpoint ∧
    r.classifiedAs = c.classification r.outpoint ∧ r.blockHeight = c.height r.outpoint.hash
  created : ∀ op, t.logged op .created = true ↔ op ∈ b.created
  funded : ∀ i d, t.funds i d = true ↔ (i, d) ∈ b.funded
  deposits : ∀ i d, (i, d) ∈ b.funded → d ∈ b.created ∧ c.spender i = some d.hash

theorem represents_empty : Represents c {} ⟨∅, ∅, ∅⟩ := by
  refine ⟨⟨[], nodup_nil, rfl, fun k => ?_⟩, ?_, ?_, ?_, ?_⟩
  · simp
  · exact fun r hr => absurd hr not_mem_nil
  · simp [Tables.logged]
  · simp [Tables.funds]
  · exact fun _ _ h => h.elim

theorem Chain.entry_identified (c : Chain) (k : Leg) : (c.entry k).Identified := by
  cases k with
  | created op => exact createdEntry_identified
  | swept op => exact sweptEntry_identified
  | fee txid => exact LedgerEntry.identified_of_key rfl txid.data_ne_nil
  | transfer txid =>
    refine LedgerEntry.identified_of_key rfl ?_
    simp [sweep, txid.data_ne_nil]
  | reversal op => exact reversalEntry_identified

theorem Chain.entry_sound (c : Chain) (k : Leg) : 0 < (c.entry k).amountSat ∧
    (c.entry k).debitAccount ≠ (c.entry k).creditAccount := by
  cases k with
  | created op =>
    refine ⟨c.amount_pos op, ?_⟩
    simp only [entry, createdEntry]
    split <;> decide
  | swept op | reversal op => exact ⟨c.amount_pos op, nofun⟩
  | fee txid => exact ⟨c.cost_pos txid, nofun⟩
  | transfer txid => exact ⟨c.amount_pos _, nofun⟩

theorem Chain.entry_payload (c : Chain) (k : Leg) : (c.entry k).payload = c.entry k := by
  cases k <;> rfl

theorem Chain.entry_session (c : Chain) (k : Leg) : (c.entry k).sessionId = none := by
  cases k <;> rfl

theorem Chain.entry_round (c : Chain) (k : Leg) : (c.entry k).roundId = none := by
  cases k <;> rfl

variable (h : Represents c t b)
include h

theorem Represents.exists_leg (hw : w ∈ t.entries) : ∃ k ∈ b.legs, w.payload = c.entry k := by
  obtain ⟨ks, -, hmap, hks⟩ := h.legs
  have hmem : w.payload ∈ ks.map c.entry := hmap ▸ mem_map_of_mem hw
  obtain ⟨k, hk, heq⟩ := mem_map.1 hmem
  exact ⟨k, (hks k).1 hk, heq.symm⟩

theorem Represents.leg_eq (hw : w ∈ t.entries)
    (hkey : w.idempotencyKey = (c.entry k).idempotencyKey) (hleg : w.leg = (c.entry k).leg) :
    k ∈ b.legs ∧ w.payload = c.entry k := by
  obtain ⟨k', hk', hpay⟩ := h.exists_leg hw
  have hw' := LedgerEntry.eq_of_payload (hpay.trans (c.entry_payload k').symm)
  rw [hw'] at hkey hleg
  obtain rfl := c.entry_inj hkey hleg
  exact ⟨hk', hpay⟩

theorem Represents.recorded (hk : k ∈ b.legs) : Recorded t (c.entry k) := by
  obtain ⟨ks, -, hmap, hks⟩ := h.legs
  obtain ⟨w, hw, hpay⟩ : ∃ w ∈ t.entries, w.payload = c.entry k := by
    rw [← mem_map, hmap]
    exact mem_map_of_mem ((hks k).2 hk)
  have hpay' := hpay.trans (c.entry_payload k).symm
  have hw' := LedgerEntry.eq_of_payload hpay'
  refine ⟨(c.entry_sound k).1, (c.entry_sound k).2, (c.entry_identified k).1,
    (c.entry_identified k).2, ⟨w, hw, hpay'⟩, fun _ => ?_, fun hs => ?_, fun hr => ?_⟩
  · obtain ⟨w₁, h₁⟩ : ∃ w₁, t.byIdempotencyKey (c.entry k) = some w₁ := by
      refine Option.isSome_iff_exists.1 (find?_isSome.2 ⟨w, hw, ?_⟩)
      rw [hw']
      exact decide_eq_true ⟨rfl, rfl⟩
    have hfound := find?_some (show t.entries.find? _ = some w₁ from h₁)
    obtain ⟨hkey, hleg⟩ := of_decide_eq_true hfound
    refine ⟨w₁, h₁, (h.leg_eq (mem_of_find?_eq_some h₁) hkey hleg).2.trans ?_⟩
    exact (c.entry_payload k).symm
  · rw [c.entry_session] at hs
    cases hs
  · rw [c.entry_round] at hr
    cases hr

theorem Represents.insertLeg (he : e.payload = c.entry k) :
    Succeeds (t.insertLedgerEntry e) fun t' =>
      Represents c t' { b with legs := insert k b.legs } ∧ t'.log = t.log := by
  have he' := he.trans (c.entry_payload k).symm
  by_cases hk : k ∈ b.legs
  · refine ⟨t, (h.recorded hk).insert he', ?_, rfl⟩
    rwa [Set.insert_eq_of_mem hk]
  have hnew : Represents c { t with entries := t.entries ++ [e] }
      { b with legs := insert k b.legs } := by
    refine ⟨?_, h.rows, h.created, h.funded, h.deposits⟩
    obtain ⟨ks, hnodup, hmap, hks⟩ := h.legs
    refine ⟨ks ++ [k], ?_, by simp [hmap, he], fun k' => ?_⟩
    · rw [nodup_append_comm]
      exact nodup_cons.2 ⟨fun hmem => hk ((hks k).1 hmem), hnodup⟩
    · rw [mem_append, mem_singleton, hks, Set.mem_insert_iff, or_comm]
  refine ⟨_, Recorded.insert_new ((hnew.recorded (Set.mem_insert k _)).congr he') ?_, hnew, rfl⟩
  -- a conflicting row would be the leg's own
  rintro r hr ⟨hleg, hround | hsession | hkey⟩
  · rw [LedgerEntry.eq_of_payload he'] at hround
    exact hround.1 (c.entry_round k)
  · rw [LedgerEntry.eq_of_payload he'] at hsession
    exact hsession.1 (c.entry_session k)
  · rw [LedgerEntry.eq_of_payload he'] at hkey hleg
    exact hk (h.leg_eq hr hkey.2 hleg).1

theorem Represents.insertSpent (hr : r.event = .spent)
    (hseed : r.classifiedAs.seeded = true) :
    Succeeds (t.insertUTXOAuditEntry r) (Represents c · b) := by
  unfold Tables.insertUTXOAuditEntry
  rw [hseed, Bool.not_true, if_neg (by decide)]
  split
  · exact .ok h
  refine .ok ⟨h.legs, fun r' hr' hc => ?_, fun op => ?_, h.funded, h.deposits⟩
  · rcases mem_append.1 hr' with hr' | hr'
    · exact h.rows r' hr' hc
    · rw [mem_singleton.1 hr', hr] at hc
      cases hc
  · rw [← h.created op]
    simp [Tables.logged, hr]

theorem Represents.insertCreated (hr : r.event = .created)
    (hseed : r.classifiedAs.seeded = true)
    (hrow : r.amountSat = c.amount r.outpoint ∧ r.classifiedAs = c.classification r.outpoint ∧
      r.blockHeight = c.height r.outpoint.hash) :
    Succeeds (t.insertUTXOAuditEntry r)
      (Represents c · { b with created := insert r.outpoint b.created }) := by
  have hdeposits : ∀ i d, (i, d) ∈ b.funded →
      d ∈ insert r.outpoint b.created ∧ c.spender i = some d.hash := fun i d hd =>
    ⟨Set.mem_insert_of_mem _ (h.deposits i d hd).1, (h.deposits i d hd).2⟩
  unfold Tables.insertUTXOAuditEntry
  rw [hseed, Bool.not_true, if_neg (by decide)]
  split
  · next hl =>
    have hmem : r.outpoint ∈ b.created := (h.created _).1 (hr ▸ hl)
    rw [Set.insert_eq_of_mem hmem]
    exact .ok h
  refine .ok ⟨h.legs, fun r' hr' hc => ?_, fun op => ?_, h.funded, hdeposits⟩
  · rcases mem_append.1 hr' with hr' | hr'
    · exact h.rows r' hr' hc
    · rwa [mem_singleton.1 hr']
  rw [Set.mem_insert_iff, ← h.created op]
  simp only [Tables.logged, any_append, any_cons, any_nil, Bool.or_false,
    Bool.or_eq_true, hr, decide_eq_true_eq, and_true]
  rw [or_comm, eq_comm (a := op)]

theorem Represents.insertFunding (hdep : deposit ∈ b.created)
    (hspent : c.spender input = some deposit.hash) :
    Represents c (t.insertDepositFundingInput input deposit now)
      { b with funded := insert (input, deposit) b.funded } := by
  have hgrow : (t.insertDepositFundingInput input deposit now).entries = t.entries := by
    unfold Tables.insertDepositFundingInput
    split <;> rfl
  refine ⟨?_, ?_, ?_, ?_, ?_⟩
  · rw [hgrow]
    exact h.legs
  · rw [insertDepositFundingInput_log]
    exact h.rows
  · intro op
    rw [← h.created op, Tables.logged, Tables.logged, insertDepositFundingInput_log]
  · intro i d
    rw [insertDepositFundingInput_funds, Set.mem_insert_iff, ← h.funded i d, Prod.mk.injEq, or_comm]
  · intro i d hd
    rcases Set.mem_insert_iff.1 hd with heq | hd
    · cases heq
      exact ⟨hdep, hspent⟩
    · exact h.deposits i d hd

theorem Represents.lookup_none (hnone : t.lookupCreatedUTXO op = none) : op ∉ b.created := by
  rw [← h.created op, lookupCreatedUTXO_none hnone]
  nofun

theorem Represents.lookup_some (hsome : t.lookupCreatedUTXO op = some r) :
    op ∈ b.created ∧ r.amountSat = c.amount op ∧ r.classifiedAs = c.classification op ∧
      r.blockHeight = c.height op.hash := by
  obtain ⟨hmem, hop, hevent⟩ := lookupCreatedUTXO_some hsome
  obtain ⟨hamount, hclass, hheight⟩ := h.rows r hmem hevent
  subst hop
  refine ⟨(h.created _).1 ?_, hamount, hclass, hheight⟩
  exact any_eq_true.2 ⟨r, hmem, decide_eq_true ⟨rfl, hevent⟩⟩

theorem Represents.bookProceedsReversal :
    Succeeds (bookProceedsReversal now t op (c.amount op) (c.spentHeight op))
      (Represents c · { b with legs := insert (.reversal op) b.legs }) := by
  refine (h.insertSpent rfl rfl).bind fun t₁ h₁ => ?_
  exact (h₁.insertLeg rfl).imp fun _ h₂ => h₂.1

omit h

def Books.fund (c : Chain) (b : Books) (deposit : Outpoint) (inputs : List Outpoint) : Books where
  legs := b.legs ∪ {k | ∃ i ∈ inputs, i ∈ b.created ∧ c.Own i ∧ k = .reversal i}
  created := b.created
  funded := b.funded ∪ {p | p.1 ∈ inputs ∧ p.2 = deposit}

theorem Books.fund_cons :
    b.fund c d (i :: is) = .fund c
      ⟨b.legs ∪ {k | i ∈ b.created ∧ c.Own i ∧ k = .reversal i}, b.created, insert (i, d) b.funded⟩
      d is := by
  ext x
  · simp only [fund, Set.mem_union, Set.mem_ofPred_eq, exists_mem_cons_iff, or_assoc]
  · rfl
  · simp only [fund, Set.mem_union, Set.mem_ofPred_eq, Set.mem_insert_iff, mem_cons,
      Prod.ext_iff]
    tauto

theorem Represents.bookDepositFunding (h : Represents c t b) (hdep : m.outpoint ∈ b.created)
    (hheight : m.blockHeight = c.height m.outpoint.hash)
    (hspent : ∀ i ∈ inputs, c.spender i = some m.outpoint.hash) :
    Succeeds (bookDepositFunding now m inputs t) (Represents c · (b.fund c m.outpoint inputs)) := by
  induction inputs generalizing t b with
  | nil =>
    have hfund : b.fund c m.outpoint [] = b := by
      ext x <;> simp [Books.fund]
    rw [hfund]
    exact .ok h
  | cons i is ih =>
    have hi := hspent i mem_cons_self
    have hrest := fun j hj => hspent j (mem_cons_of_mem i hj)
    have h₁ : Represents c (t.insertDepositFundingInput i m.outpoint now)
        { b with funded := insert (i, m.outpoint) b.funded } := h.insertFunding hdep hi
    rw [Books.fund_cons]
    unfold Ledger.bookDepositFunding
    dsimp only
    split
    · next hnone =>
      have hno := h₁.lookup_none hnone
      have hlegs : b.legs ∪ {k | i ∈ b.created ∧ c.Own i ∧ k = .reversal i} = b.legs := by
        ext k
        simp [show i ∉ b.created from hno]
      rw [hlegs]
      exact ih h₁ hdep hrest
    · next r hsome =>
      obtain ⟨hmem, hamount, hclass, -⟩ := h₁.lookup_some hsome
      split
      · next hown =>
        have hlegs : b.legs ∪ {k | i ∈ b.created ∧ c.Own i ∧ k = .reversal i} =
            insert (.reversal i) b.legs := by
          ext k
          simp [show i ∈ b.created from hmem, Chain.Own, ← hclass, hown, or_comm]
        rw [hlegs, hamount, hheight, ← show c.spentHeight i = c.height m.outpoint.hash by
          rw [Chain.spentHeight, hi]; rfl]
        exact h₁.bookProceedsReversal.bind fun t₂ h₂ => ih h₂ hdep hrest
      · next hown =>
        have hlegs : b.legs ∪ {k | i ∈ b.created ∧ c.Own i ∧ k = .reversal i} = b.legs := by
          ext k
          simp [Chain.Own, ← hclass, hown]
        rw [hlegs]
        exact ih h₁ hdep hrest

def Books.reverse (b : Books) (op : Outpoint) : Books where
  legs := b.legs ∪ {k | (∃ d, (op, d) ∈ b.funded) ∧ k = .reversal op}
  created := b.created
  funded := b.funded

theorem Represents.reverseIfDepositFunded (h : Represents c t b) :
    Succeeds (reverseIfDepositFunded now t op (c.amount op)) (Represents c · (b.reverse op)) := by
  unfold Ledger.reverseIfDepositFunded
  split
  · next hnil =>
    have hno : ¬ ∃ d, (op, d) ∈ b.funded := by
      rintro ⟨d, hd⟩
      rw [← h.funded, ← mem_depositsFundedByInput, hnil] at hd
      cases hd
    have hlegs : b.reverse op = b := by
      ext x <;> simp [Books.reverse, hno]
    rw [hlegs]
    exact .ok h
  · next d ds hds =>
    have hd : (op, d) ∈ b.funded := by
      rw [← h.funded, ← mem_depositsFundedByInput, hds]
      exact mem_cons_self
    obtain ⟨hcreated, hspender⟩ := h.deposits op d hd
    have hlegs : b.reverse op = { b with legs := insert (.reversal op) b.legs } := by
      ext x <;> simp [Books.reverse, show ∃ d, (op, d) ∈ b.funded from ⟨d, hd⟩, or_comm]
    rw [hlegs]
    split
    · next hnone => exact absurd hcreated (h.lookup_none hnone)
    next r hsome =>
    rw [(h.lookup_some hsome).2.2.2, ← show c.spentHeight op = c.height d.hash by
      rw [Chain.spentHeight, hspender]; rfl]
    exact h.bookProceedsReversal

end Represents

section Messages

variable (c : Chain) (audited : Bool)

def Msg.logs : Msg → Set Outpoint
  | .utxoCreated m => {op | audited = true ∧ op = m.outpoint}
  | .boardingSweepConfirmed m =>
    {op | audited = true ∧ m.destinationExternal = false ∧ op = m.returnPoint}
  | _ => ∅

def Msg.funding : Msg → Set (Outpoint × Outpoint)
  | .utxoCreated m => {p | audited = true ∧ m.classification = .deposit ∧
      p.1 ∈ m.fundingInputs ∧ p.2 = m.outpoint}
  | _ => ∅

def Msg.legs : Msg → Set Leg
  | .utxoCreated m => {k | audited = true ∧ creditAlreadyBooked m.classification = false ∧
      k = .created m.outpoint}
  | .boardingSweepConfirmed m => {k | k = .fee m.txid ∨ (∃ i ∈ m.inputs, k = .swept i.outpoint) ∨
      k = if m.destinationExternal then .transfer m.txid else .created m.returnPoint}
  | _ => ∅

def reversals (created : Set Outpoint) (funded : Set (Outpoint × Outpoint)) : Set Leg :=
  {k | ∃ op ∈ created, c.Own op ∧ (∃ d, (op, d) ∈ funded) ∧ k = .reversal op}

/-- What a set of messages amounts to. -/
def Books.of (L : Set Msg) : Books where
  legs := {k | ∃ m ∈ L, k ∈ m.legs audited} ∪
    reversals c {op | ∃ m ∈ L, op ∈ m.logs audited} {p | ∃ m ∈ L, p ∈ m.funding audited}
  created := {op | ∃ m ∈ L, op ∈ m.logs audited}
  funded := {p | ∃ m ∈ L, p ∈ m.funding audited}

def Books.add (b : Books) (m : Msg) : Books where
  legs := b.legs ∪ m.legs audited ∪
    reversals c (b.created ∪ m.logs audited) (b.funded ∪ m.funding audited)
  created := b.created ∪ m.logs audited
  funded := b.funded ∪ m.funding audited

variable {c audited} {b : Books}

theorem reversals_mono (hC : C ⊆ C') (hF : F ⊆ F') : reversals c C F ⊆ reversals c C' F' := by
  rintro k ⟨op, hop, hown, ⟨d, hd⟩, rfl⟩
  exact ⟨op, hC hop, hown, ⟨d, hF hd⟩, rfl⟩

theorem Books.of_insert : Books.of c audited (insert m L) = (Books.of c audited L).add c audited m := by
  have hcreated : {op | ∃ m' ∈ insert m L, op ∈ m'.logs audited} =
      {op | ∃ m' ∈ L, op ∈ m'.logs audited} ∪ m.logs audited := by
    ext op
    simp [or_comm]
  have hfunded : {p | ∃ m' ∈ insert m L, p ∈ m'.funding audited} =
      {p | ∃ m' ∈ L, p ∈ m'.funding audited} ∪ m.funding audited := by
    ext p
    simp [or_comm]
  have hlegs : {k | ∃ m' ∈ insert m L, k ∈ m'.legs audited} =
      {k | ∃ m' ∈ L, k ∈ m'.legs audited} ∪ m.legs audited := by
    ext k
    simp [or_comm]
  refine Books.ext ?_ hcreated hfunded
  change _ ∪ reversals c _ _ = _
  rw [hcreated, hfunded, hlegs]
  -- the reversals due before are due still
  have hmono : reversals c (of c audited L).created (of c audited L).funded ⊆ reversals c
      ((of c audited L).created ∪ m.logs audited) ((of c audited L).funded ∪ m.funding audited) :=
    reversals_mono Set.subset_union_left Set.subset_union_left
  change _ = _ ∪ reversals c (of c audited L).created (of c audited L).funded ∪ _ ∪ _
  rw [Set.union_right_comm _ (reversals c _ _), Set.union_assoc _ (reversals c _ _),
    Set.union_eq_self_of_subset_left hmono]
  rfl

/-- The reversals that are due are booked. -/
def Books.Closed (c : Chain) (b : Books) : Prop := reversals c b.created b.funded ⊆ b.legs

/-- The legs of the new books, from the reversals that the handler books. -/
theorem Books.add_legs (hR : R ⊆ reversals c (b.add c audited m).created
      (b.add c audited m).funded)
    (hdue : reversals c (b.add c audited m).created (b.add c audited m).funded ⊆ b.legs ∪ R) :
    (b.add c audited m).legs = b.legs ∪ m.legs audited ∪ R := by
  apply Set.Subset.antisymm
  · refine Set.union_subset Set.subset_union_left (hdue.trans ?_)
    exact Set.union_subset_union_left R Set.subset_union_left
  · exact Set.union_subset_union_right _ hR

theorem positive_succeeds (h : 0 < amountSat) :
    Succeeds (positive name amountSat) fun _ => True := by
  unfold positive
  rw [if_neg (not_le.2 h)]
  exact .ok trivial

theorem Represents.creditCreated (h : Represents c t b) {m : UTXOCreatedMsg}
    (hm : c.Describes (.utxoCreated m)) :
    Succeeds (creditCreated now t m)
      (Represents c · { b with legs := b.legs ∪ (Msg.utxoCreated m).legs true }) := by
  obtain ⟨hamount, hclass, hheight, -⟩ := hm
  unfold Ledger.creditCreated
  split
  · next hbooked =>
    have hlegs : (Msg.utxoCreated m).legs true = ∅ := by
      ext k
      simp [Msg.legs, hbooked]
    rw [hlegs, Set.union_empty]
    exact .ok h
  · next hbooked =>
    have hlegs : b.legs ∪ (Msg.utxoCreated m).legs true = insert (.created m.outpoint) b.legs := by
      ext k
      simp [Msg.legs, hbooked, or_comm]
    rw [hlegs, hamount, hclass, hheight]
    exact (h.insertLeg rfl).imp fun _ h' => h'.1

theorem Represents.handleUTXOCreated (h : Represents c t b) (hb : b.Closed c) {m : UTXOCreatedMsg}
    (hm : c.Describes (.utxoCreated m)) :
    Succeeds (handleUTXOCreated now t true m) (Represents c · (b.add c true (.utxoCreated m))) := by
  have hm' := hm
  obtain ⟨hamount, hclass, hheight, hkind⟩ := hm'
  have hseed : m.classification.seeded = true := by
    rcases hkind with ⟨hdep, -⟩ | hown
    · rw [hdep]
      rfl
    rw [Chain.Own, ← hclass] at hown
    cases hc : m.classification with
    | other name => simp [hc, isOwnWalletProceeds] at hown
    | _ => rfl
  have hcreated : (b.add c true (.utxoCreated m)).created = insert m.outpoint b.created := by
    ext op
    simp [Books.add, Msg.logs]
  refine (positive_succeeds (hamount ▸ c.amount_pos _)).bind fun _ _ => ?_
  refine (h.insertCreated rfl hseed ⟨hamount, hclass, hheight⟩).bind fun t₁ h₁ => ?_
  refine (h₁.creditCreated hm).bind fun t₂ h₂ => ?_
  by_cases hdep : m.classification = .deposit
  · have hnot : ¬ c.Own m.outpoint := by
      rw [Chain.Own, ← hclass, hdep]
      decide
    have hfunding := (hkind.resolve_right hnot).2
    have hfunded : (b.add c true (.utxoCreated m)).funded =
        b.funded ∪ {p | p.1 ∈ m.fundingInputs ∧ p.2 = m.outpoint} := by
      ext p
      simp [Books.add, Msg.funding, hdep]
    simp only [hdep, if_true]
    refine (h₂.bookDepositFunding (Set.mem_insert _ _) hheight hfunding).imp fun t' h' => ?_
    convert h' using 1
    refine Books.ext (Books.add_legs ?_ ?_) hcreated hfunded
    · rintro k ⟨i, hi, hic, hown, rfl⟩
      refine ⟨i, hcreated ▸ hic, hown, ⟨m.outpoint, ?_⟩, rfl⟩
      rw [hfunded]
      exact .inr ⟨hi, rfl⟩
    rintro k ⟨op, hop, hown, ⟨d, hd⟩, rfl⟩
    rw [hcreated] at hop
    rw [hfunded] at hd
    rcases hd with hd | ⟨hi, -⟩
    · refine .inl (hb ⟨op, hop.resolve_left ?_, hown, ⟨d, hd⟩, rfl⟩)
      rintro rfl
      exact hnot hown
    · exact .inr ⟨op, hi, hop, hown, rfl⟩
  · have hown : c.Own m.outpoint := hkind.resolve_left fun h => hdep h.1
    have hfunded : (b.add c true (.utxoCreated m)).funded = b.funded := by
      ext p
      simp [Books.add, Msg.funding, hdep]
    have hproceeds : isOwnWalletProceeds m.classification = true := hclass ▸ hown
    simp only [hdep, if_false, hproceeds, if_true, hamount]
    refine h₂.reverseIfDepositFunded.imp fun t' h' => ?_
    convert h' using 1
    refine Books.ext (Books.add_legs ?_ ?_) hcreated hfunded
    · rintro k ⟨hd, rfl⟩
      refine ⟨m.outpoint, ?_, hown, by rwa [hfunded], rfl⟩
      rw [hcreated]
      exact Set.mem_insert _ _
    rintro k ⟨op, hop, hown', hd, rfl⟩
    rw [hcreated] at hop
    rw [hfunded] at hd
    rcases hop with rfl | hop
    · exact .inr ⟨hd, rfl⟩
    · exact .inl (hb ⟨op, hop, hown', hd, rfl⟩)

theorem insertSweepLegs_append :
    insertSweepLegs audited (l ++ l') t =
      insertSweepLegs audited l t >>= insertSweepLegs audited l' := by
  induction l generalizing t with
  | nil => rfl
  | cons leg l ih => simp [insertSweepLegs, ih]

theorem Represents.insertSweepInputs (h : Represents c t b) {m : BoardingSweepConfirmedMsg}
    {inputs : List SweepInput} (hheight : m.blockHeight = c.height m.txid)
    (hi : ∀ i ∈ inputs, i.amountSat = c.amount i.outpoint ∧ c.spender i.outpoint = some m.txid) :
    Succeeds (insertSweepLegs audited (inputs.map (sweepInputLeg now m)) t)
      (Represents c · { b with legs := b.legs ∪ {k | ∃ i ∈ inputs, k = .swept i.outpoint} }) := by
  induction inputs generalizing t b with
  | nil =>
    refine .ok ?_
    convert h using 1
    ext x <;> simp
  | cons i is ih =>
    obtain ⟨hamount, hspender⟩ := hi i mem_cons_self
    have haudit : Succeeds (auditSweepLeg audited (sweepInputLeg now m i) t)
        (Represents c · b) := by
      unfold auditSweepLeg
      dsimp only [sweepInputLeg]
      split
      · exact h.insertSpent rfl rfl
      · exact .ok h
    refine haudit.bind fun t₁ h₁ => ?_
    have hentry : (sweepInputLeg now m i).entry.payload = c.entry (.swept i.outpoint) := by
      simp only [sweepInputLeg, Chain.entry, Chain.spentHeight, hspender, hamount, hheight,
        Option.elim_some]
      rfl
    refine (h₁.insertLeg hentry).bind fun t₂ h₂ => ?_
    refine (ih h₂.1 fun j hj => hi j (mem_cons_of_mem i hj)).imp fun t' h' => ?_
    convert h' using 1
    ext x
    · simp only [exists_mem_cons_iff, Set.mem_union, Set.mem_ofPred_eq, Set.mem_insert_iff]
      tauto
    · rfl
    · rfl

theorem Represents.insertDestination (h : Represents c t b) {m : BoardingSweepConfirmedMsg}
    (hm : c.Describes (.boardingSweepConfirmed m)) :
    Succeeds (insertSweepLegs audited [sweepDestinationLeg now m] t) (Represents c ·
      { b with legs := insert (if m.destinationExternal then .transfer m.txid
                  else .created m.returnPoint) b.legs
               created := b.created ∪ (Msg.boardingSweepConfirmed m).logs audited }) := by
  obtain ⟨hheight, hcost, -, -, hdest, hext, hclass⟩ := hm
  unfold sweepDestinationLeg
  cases hexternal : m.destinationExternal with
  | true =>
    have hentry : (sweepTransferEntry now m).payload = c.entry (.transfer m.txid) := by
      simp only [Chain.entry, sweepTransferEntry, Chain.sweep, hdest, hheight]
      rfl
    have haudit : Succeeds (auditSweepLeg audited { entry := sweepTransferEntry now m } t)
        (Represents c · b) := .ok h
    refine haudit.bind fun t₁ h₁ => (h₁.insertLeg hentry).bind fun t₂ h₂ => .ok ?_
    convert h₂.1 using 1
    ext x <;> simp [Msg.logs, hexternal]
  | false =>
    have hclass := hclass hexternal
    have hentry : (createdEntry now m.returnPoint m.destinationSat .boardingSweepReturn
        m.blockHeight).payload = c.entry (.created m.returnPoint) := by
      simp only [Chain.entry, hdest, hheight, hclass]
      rfl
    have haudit : Succeeds (auditSweepLeg audited
        { audit := some ⟨m.returnPoint, m.destinationSat, .created, m.blockHeight,
            .boardingSweepReturn, now⟩
          entry := createdEntry now m.returnPoint m.destinationSat .boardingSweepReturn
            m.blockHeight } t)
        (Represents c · { b with created := b.created ∪ (Msg.boardingSweepConfirmed m).logs audited }) := by
      unfold auditSweepLeg
      cases audited with
      | true =>
        refine (h.insertCreated (r := ⟨m.returnPoint, m.destinationSat, .created, m.blockHeight,
          .boardingSweepReturn, now⟩) rfl rfl ⟨hdest, hclass.symm, hheight⟩).imp fun t' h' => ?_
        convert h' using 1
        ext x <;> simp [Msg.logs, hexternal]
      | false =>
        refine .ok ?_
        convert h using 1
        ext x <;> simp [Msg.logs]
    refine haudit.bind fun t₁ h₁ => (h₁.insertLeg hentry).bind fun t₂ h₂ => .ok ?_
    simpa using h₂.1

theorem checkSweepInputs_succeeds (h : ∀ i ∈ inputs, 0 < i.amountSat) :
    Succeeds (checkSweepInputs inputs) fun _ => True := by
  induction inputs with
  | nil => exact .ok trivial
  | cons i is ih =>
    refine (positive_succeeds (h i mem_cons_self)).bind fun _ _ => ?_
    exact ih fun j hj => h j (mem_cons_of_mem i hj)

theorem Represents.handleBoardingSweepConfirmed (h : Represents c t b) (hb : b.Closed c)
    {m : BoardingSweepConfirmedMsg} (hm : c.Describes (.boardingSweepConfirmed m)) :
    Succeeds (handleBoardingSweepConfirmed now t audited m)
      (Represents c · (b.add c audited (.boardingSweepConfirmed m))) := by
  have hm' := hm
  obtain ⟨hheight, hcost, hne, hi, hdest, hext, hclass⟩ := hm'
  refine (positive_succeeds (hcost ▸ c.cost_pos _)).bind fun _ _ => ?_
  refine (positive_succeeds (hdest ▸ c.amount_pos _)).bind fun _ _ => ?_
  rw [if_neg hne]
  have hpos : ∀ i ∈ m.inputs, 0 < i.amountSat := by
    intro i hmem
    rw [(hi i hmem).1]
    exact c.amount_pos _
  refine (checkSweepInputs_succeeds hpos).bind fun _ _ => ?_
  have hfee : (sweepFeeEntry now m).payload = c.entry (.fee m.txid) := by
    simp only [Chain.entry, sweepFeeEntry, Chain.sweep, hcost]
    rfl
  have hlegs : Succeeds (insertSweepLegs audited (boardingSweepLegs now m) t)
      (Represents c · { b with
        legs := b.legs ∪ (Msg.boardingSweepConfirmed m).legs audited
        created := b.created ∪ (Msg.boardingSweepConfirmed m).logs audited }) := by
    refine (Succeeds.ok h : Succeeds (auditSweepLeg audited ⟨none, sweepFeeEntry now m⟩ t)
      (Represents c · b)).bind fun t₁ h₁ => (h₁.insertLeg hfee).bind fun t₂ h₂ => ?_
    rw [insertSweepLegs_append]
    refine (h₂.1.insertSweepInputs hheight hi).bind fun t₃ h₃ => ?_
    refine (h₃.insertDestination hm).imp fun t' h' => ?_
    convert h' using 1
    ext x
    · simp only [Msg.legs, Set.mem_union, Set.mem_ofPred_eq, Set.mem_insert_iff]
      grind
    · rfl
    · rfl
  refine hlegs.bind fun t₁ h₁ => ?_
  have hfunded : (b.add c audited (.boardingSweepConfirmed m)).funded = b.funded :=
    Set.union_empty _
  by_cases hquiet : (m.destinationExternal || !audited) = true
  · rw [if_pos hquiet]
    have hlogs : (Msg.boardingSweepConfirmed m).logs audited = ∅ := by
      ext op
      simp only [Msg.logs, Set.mem_ofPred_eq, Set.mem_empty_iff_false, iff_false]
      rintro ⟨rfl, hext', -⟩
      simp [hext'] at hquiet
    refine .ok ?_
    convert h₁ using 1
    refine Books.ext ?_ rfl hfunded
    rw [Books.add_legs (R := ∅) (Set.empty_subset _) ?_, Set.union_empty]
    rw [hfunded, Set.union_empty, show (b.add c audited (.boardingSweepConfirmed m)).created =
      b.created by rw [Books.add, hlogs, Set.union_empty]]
    exact hb
  · rw [if_neg hquiet]
    obtain ⟨hinternal, haud⟩ : m.destinationExternal = false ∧ audited = true := by
      simpa using hquiet
    have hown : c.Own m.returnPoint := by
      rw [Chain.Own, hclass hinternal]
      rfl
    have hcreated : ∀ op, op ∈ (b.add c audited (.boardingSweepConfirmed m)).created ↔
        op ∈ b.created ∨ op = m.returnPoint := by
      intro op
      simp [Books.add, Msg.logs, hinternal, haud, or_comm]
    rw [hdest]
    refine h₁.reverseIfDepositFunded.imp fun t' h' => ?_
    convert h' using 1
    refine Books.ext (Books.add_legs ?_ ?_) rfl hfunded
    · rintro k ⟨hd, rfl⟩
      exact ⟨m.returnPoint, (hcreated _).2 (.inr rfl), hown, by rwa [hfunded], rfl⟩
    rintro k ⟨op, hop, hown', hd, rfl⟩
    rw [hfunded] at hd
    rcases (hcreated op).1 hop with hop | rfl
    · exact .inl (hb ⟨op, hop, hown', hd, rfl⟩)
    · exact .inr ⟨hd, rfl⟩

theorem Represents.receive (h : Represents c t b) (hb : b.Closed c) (hm : c.Describes m) :
    Succeeds (receive now t audited m) (Represents c · (b.add c audited m)) := by
  cases m with
  | utxoCreated m =>
    cases audited with
    | true => exact h.handleUTXOCreated hb hm
    | false =>
      refine .ok ?_
      convert h using 1
      have hlogs : (Msg.utxoCreated m).logs false = ∅ := by ext; simp [Msg.logs]
      have hfunding : (Msg.utxoCreated m).funding false = ∅ := by ext; simp [Msg.funding]
      have hlegs : (Msg.utxoCreated m).legs false = ∅ := by ext; simp [Msg.legs]
      simp only [Books.add, hlogs, hfunding, hlegs, Set.union_empty]
      rw [Set.union_eq_left.2 hb]
  | boardingSweepConfirmed m => exact h.handleBoardingSweepConfirmed hb hm
  | _ => exact hm.elim

end Messages



section Runs

def allAccepted (audited : Bool) : Tables → List Delivery → Bool
  | _, [] => true
  | t, d :: ds => accepted audited t d && allAccepted audited (deliver audited t d) ds

def LedgerEntry.reverses (op : Outpoint) (e : LedgerEntry) : Bool :=
  e.leg = (.walletUTXOSpent, .openingBalance, .walletBalance) ∧
    e.chainTxid = some op.hash ∧ e.chainVout = some op.index

def Tables.reversalRows (t : Tables) (op : Outpoint) : List LedgerEntry :=
  t.entries.filter (LedgerEntry.reverses op)

/-- The output is reported as ours, and so is a deposit that it funds. -/
def ReversalDue (c : Chain) (audited : Bool) (ds : List Delivery) (op : Outpoint) : Prop :=
  (∃ d ∈ ds, op ∈ d.msg.logs audited) ∧ c.Own op ∧
    ∃ deposit, ∃ d ∈ ds, (op, deposit) ∈ d.msg.funding audited

theorem Represents.deliver (h : Represents c t (.of c audited L)) (hd : c.Describes d.msg) :
    accepted audited t d = true ∧
      Represents c (deliver audited t d) (.of c audited (insert d.msg L)) := by
  have hreceive : Succeeds (Ledger.receive d.now t audited d.msg)
      (Represents c · ((Books.of c audited L).add c audited d.msg)) := h.receive Set.subset_union_right hd
  obtain ⟨t', ht', h'⟩ := hreceive
  rw [Books.of_insert]
  simp only [accepted, Ledger.deliver, ht']
  exact ⟨trivial, h'⟩

theorem Represents.deliveries (h : Represents c t (.of c audited L))
    (hds : ∀ d ∈ ds, c.Describes d.msg) :
    allAccepted audited t ds = true ∧ Represents c (deliveries audited t ds)
      (.of c audited (L ∪ {m | ∃ d ∈ ds, m = d.msg})) := by
  induction ds generalizing t L with
  | nil =>
    have hL : L ∪ {m | ∃ d ∈ ([] : List Delivery), m = d.msg} = L := by simp
    refine ⟨rfl, ?_⟩
    rw [hL]
    exact h
  | cons d ds ih =>
    obtain ⟨hacc, hd⟩ := h.deliver (hds d mem_cons_self)
    obtain ⟨hall, hrest⟩ := ih hd fun d' hd' => hds d' (mem_cons_of_mem d hd')
    refine ⟨?_, ?_⟩
    · rw [allAccepted, hacc, hall]
      rfl
    have hL : L ∪ {m | ∃ d' ∈ d :: ds, m = d'.msg} =
        insert d.msg L ∪ {m | ∃ d' ∈ ds, m = d'.msg} := by
      ext m
      simp only [Set.mem_union, Set.mem_ofPred_eq, Set.mem_insert_iff, exists_mem_cons_iff]
      tauto
    rw [hL]
    exact hrest

theorem Books.reversal_mem_of :
    .reversal op ∈ (Books.of c audited L).legs ↔ (∃ m ∈ L, op ∈ m.logs audited) ∧ c.Own op ∧
      ∃ d, ∃ m ∈ L, (op, d) ∈ m.funding audited := by
  have hnot : ∀ m : Msg, .reversal op ∉ m.legs audited := by
    intro m
    cases m with
    | boardingSweepConfirmed m =>
      simp only [Msg.legs, Set.mem_ofPred_eq]
      split <;> simp
    | _ => simp [Msg.legs]
  constructor
  · rintro (⟨m, -, hm⟩ | ⟨op', hop, hown, hd, heq⟩)
    · exact absurd hm (hnot m)
    · obtain rfl := Leg.reversal.inj heq
      exact ⟨hop, hown, hd⟩
  · rintro ⟨hop, hown, hd⟩
    exact .inr ⟨op, hop, hown, hd, rfl⟩

theorem Represents.perm (h : Represents c t b) (h' : Represents c t' b) :
    (t'.entries.map LedgerEntry.payload).Perm (t.entries.map LedgerEntry.payload) := by
  obtain ⟨ks, hnodup, hmap, hks⟩ := h.legs
  obtain ⟨ks', hnodup', hmap', hks'⟩ := h'.legs
  rw [hmap, hmap']
  refine Perm.map _ ((perm_ext_iff_of_nodup hnodup' hnodup).2 fun k => ?_)
  rw [hks, hks']

theorem Chain.entry_reverses (c : Chain) : (c.entry k).reverses op = true ↔ k = .reversal op := by
  rw [LedgerEntry.reverses, decide_eq_true_eq]
  constructor
  · cases k with
    | reversal op' =>
      rintro ⟨-, hhash, hindex⟩
      rw [outpoint_ext (Option.some_inj.1 hhash) (Option.some_inj.1 hindex)]
    | _ => simp [entry, LedgerEntry.leg, createdEntry, sweptEntry, sweepFeeEntry,
        sweepTransferEntry]
  · rintro rfl
    exact ⟨rfl, rfl, rfl⟩

theorem Represents.reversalRows (h : Represents c t b) (op : Outpoint) :
    (.reversal op ∈ b.legs → (t.reversalRows op).length = 1) ∧
      (.reversal op ∉ b.legs → t.reversalRows op = []) := by
  obtain ⟨ks, hnodup, hmap, hks⟩ := h.legs
  have hlength : (t.reversalRows op).length = ks.count (.reversal op) := by
    calc (t.entries.filter (LedgerEntry.reverses op)).length
        = t.entries.countP (LedgerEntry.reverses op) := countP_eq_length_filter.symm
      _ = (t.entries.map LedgerEntry.payload).countP (LedgerEntry.reverses op) := by
          rw [countP_map]
          rfl
      _ = ks.countP (LedgerEntry.reverses op ∘ c.entry) := by rw [hmap, countP_map]
      _ = ks.count (.reversal op) := by
          refine countP_congr fun k _ => ?_
          rw [Function.comp_apply, c.entry_reverses, beq_iff_eq]
  constructor
  · intro hk
    rw [hlength, count_eq_one_of_mem hnodup ((hks _).2 hk)]
  · intro hk
    rw [← length_eq_zero_iff, hlength, count_eq_zero]
    exact fun hmem => hk ((hks _).1 hmem)

/-- Messages that describe one chain are accepted in every order and with any number of
redeliveries and lead to the same rows, with one reversal for each of our outputs that funds
a deposit and none for the others. -/
theorem ledger_order_independent (c : Chain) (audited : Bool) (ds : List Delivery)
    (h : ∀ d ∈ ds, c.Describes d.msg) :
    allAccepted audited {} ds = true ∧
    (∀ ds' : List Delivery, (∀ m, (∃ d ∈ ds', m = d.msg) ↔ ∃ d ∈ ds, m = d.msg) →
      ((deliveries audited {} ds').entries.map LedgerEntry.payload).Perm
        ((deliveries audited {} ds).entries.map LedgerEntry.payload)) ∧
    ∀ op, (ReversalDue c audited ds op →
        ((deliveries audited {} ds).reversalRows op).length = 1) ∧
      (¬ ReversalDue c audited ds op → (deliveries audited {} ds).reversalRows op = []) := by
  have hempty : Represents c {} (.of c audited ∅) := by
    convert represents_empty (c := c) using 1
    ext x <;> simp [Books.of, reversals]
  obtain ⟨hacc, hrep⟩ := hempty.deliveries h
  refine ⟨hacc, fun ds' hsame => ?_, fun op => ?_⟩
  · have h' : ∀ d ∈ ds', c.Describes d.msg := by
      intro d hd
      obtain ⟨d₀, hd₀, heq⟩ := (hsame d.msg).1 ⟨d, hd, rfl⟩
      rw [heq]
      exact h d₀ hd₀
    have hrep' := (hempty.deliveries h').2
    rw [show {m | ∃ d ∈ ds', m = d.msg} = {m | ∃ d ∈ ds, m = d.msg} from Set.ext hsame] at hrep'
    exact hrep.perm hrep'
  · have hdue : ReversalDue c audited ds op ↔ .reversal op ∈
        (Books.of c audited (∅ ∪ {m | ∃ d ∈ ds, m = d.msg})).legs := by
      rw [Books.reversal_mem_of, Set.empty_union]
      simp [ReversalDue]
    rw [hdue]
    exact hrep.reversalRows op

/-- Exit proceeds of transaction 1 fund a deposit in transaction 2, which transaction 3 sweeps
back to the wallet. -/
def cycleChain : Chain where
  amount op := if op.hash = .lastByte 31 1 then 700 else if op.hash = .lastByte 31 2 then 600 else 500
  classification op :=
    if op.hash = .lastByte 31 1 then .exitProceeds
    else if op.hash = .lastByte 31 2 then .deposit else .boardingSweepReturn
  height txid := if txid = .lastByte 31 1 then 10 else if txid = .lastByte 31 2 then 20 else 30
  spender op :=
    if op.hash = .lastByte 31 1 then some (.lastByte 31 2)
    else if op.hash = .lastByte 31 2 then some (.lastByte 31 3) else none
  cost _ := 100
  external _ := false
  amount_pos op := by split <;> [decide; (split <;> decide)]
  cost_pos _ := by decide

def cycleProceeds : Msg :=
  .utxoCreated { outpoint := ⟨.lastByte 31 1, 0⟩, amountSat := 700, blockHeight := 10,
                 classification := .exitProceeds }

def cycleDeposit : Msg :=
  .utxoCreated { outpoint := ⟨.lastByte 31 2, 1⟩, amountSat := 600, blockHeight := 20,
                 classification := .deposit, fundingInputs := [⟨.lastByte 31 1, 0⟩] }

def cycleSweep : Msg :=
  .boardingSweepConfirmed { txid := .lastByte 31 3, blockHeight := 30, chainCostSat := 100,
                            inputs := [⟨⟨.lastByte 31 2, 1⟩, 600⟩], destinationSat := 500 }

/-- The sweep and the deposit arrive before the proceeds, and the deposit twice. -/
def cycleRun : List Delivery :=
  [⟨1, cycleSweep⟩, ⟨2, cycleDeposit⟩, ⟨3, cycleProceeds⟩, ⟨4, cycleDeposit⟩]

theorem cycleRun_order_independent : allAccepted true {} cycleRun = true ∧
    ((deliveries true {} cycleRun.reverse).entries.map LedgerEntry.payload).Perm
      ((deliveries true {} cycleRun).entries.map LedgerEntry.payload) ∧
    ((deliveries true {} cycleRun).reversalRows ⟨.lastByte 31 1, 0⟩).length = 1 := by
  have hproceeds : cycleChain.Describes cycleProceeds := ⟨rfl, rfl, rfl, .inr rfl⟩
  have hdeposit : cycleChain.Describes cycleDeposit := by
    refine ⟨rfl, rfl, rfl, .inl ⟨rfl, ?_⟩⟩
    decide
  have hsweep : cycleChain.Describes cycleSweep := by
    refine ⟨rfl, rfl, cons_ne_nil _ _, ?_, rfl, rfl, fun _ => rfl⟩
    decide
  have h : ∀ d ∈ cycleRun, cycleChain.Describes d.msg := by
    simp only [cycleRun, mem_cons, not_mem_nil, or_false]
    rintro d (rfl | rfl | rfl | rfl)
    exacts [hsweep, hdeposit, hproceeds, hdeposit]
  obtain ⟨hacc, hperm, hrev⟩ := ledger_order_independent cycleChain true cycleRun h
  refine ⟨hacc, hperm _ fun m => by simp, (hrev _).1 ⟨?_, rfl, ⟨.lastByte 31 2, 1⟩, ?_⟩⟩
  · exact ⟨⟨3, cycleProceeds⟩, by simp [cycleRun], rfl, rfl⟩
  · exact ⟨⟨2, cycleDeposit⟩, by simp [cycleRun], rfl, rfl, mem_singleton.2 rfl, rfl⟩

end Runs

end Wavelength.Ledger
