import Mathlib.Algebra.Ring.Int.Defs
import Mathlib.Data.Int.Notation
import Mathlib.Data.List.Sort
import Wavelength.Base.Bytes

/-! # The ledger tables

The double-entry rows with their three partial unique indexes, the wallet's UTXO log and
the index of deposit funding inputs. The signed columns for output indexes and heights
hold the same 32 bits as the words that are written to them.
-/

namespace Wavelength.Ledger

open List Option

abbrev Hash := Bytes 32
abbrev RoundId := Bytes 16
abbrev SessionId := Bytes 32

structure Outpoint where
  hash : Hash
  index : UInt32
  deriving DecidableEq

theorem outpoint_ext {a b : Outpoint} (hhash : a.hash = b.hash) (hindex : a.index = b.index) :
    a = b := by
  cases a
  cases b
  cases hhash
  cases hindex
  rfl

inductive Account
  | walletBalance
  | vtxoBalance
  | feesPaid
  | onchainFees
  | transfersIn
  | transfersOut
  | openingBalance
  | walletClearing
  deriving DecidableEq

inductive EventType
  | boardingFeePaid
  | refreshFeePaid
  | onchainFeePaid
  | boardingSweepFeePaid
  | vtxoReceived
  | vtxoSent
  | walletUTXOCreated
  | walletUTXOSpent
  | walletSweepTransfer
  deriving DecidableEq

/-- The seeded classifications; `other` is a text without a row in the seed table. -/
inductive Classification
  | deposit
  | sweepReturn
  | roundFunding
  | change
  | unknown
  | boardingSweepInput
  | boardingSweepReturn
  | exitProceeds
  | leaveProceeds
  | recycledChange
  | depositFunding
  | other (name : String)
  deriving DecidableEq

def Classification.text : Classification → String
  | deposit => "deposit"
  | sweepReturn => "sweep_return"
  | roundFunding => "round_funding"
  | change => "change"
  | unknown => "unknown"
  | boardingSweepInput => "boarding_sweep_input"
  | boardingSweepReturn => "boarding_sweep_return"
  | exitProceeds => "exit_proceeds"
  | leaveProceeds => "leave_proceeds"
  | recycledChange => "recycled_change"
  | depositFunding => "deposit_funding"
  | other name => name

def Classification.seeded : Classification → Bool
  | other _ => false
  | _ => true

/-- A wallet output whose value has been credited to the wallet balance. -/
def isOwnWalletProceeds : Classification → Bool
  | .exitProceeds | .leaveProceeds | .recycledChange | .boardingSweepReturn => true
  | _ => false

structure LedgerEntry where
  debitAccount : Account
  creditAccount : Account
  amountSat : ℤ
  roundId : Option RoundId := none
  sessionId : Option SessionId := none
  eventType : EventType
  description : String
  createdAt : ℤ
  idempotencyKey : Option (List UInt8) := none
  chainTxid : Option Hash := none
  chainVout : Option UInt32 := none
  confirmationHeight : Option UInt32 := none
  deriving DecidableEq

inductive UTXOEvent
  | created
  | spent
  deriving DecidableEq

structure UTXOAuditEntry where
  outpoint : Outpoint
  amountSat : ℤ
  event : UTXOEvent
  blockHeight : UInt32
  classifiedAs : Classification
  createdAt : ℤ

structure FundingInput where
  input : Outpoint
  deposit : Outpoint
  createdAt : ℤ

structure Tables where
  entries : List LedgerEntry := []
  log : List UTXOAuditEntry := []
  funding : List FundingInput := []

/-- A conflict carries the leg of the entry, unless no row was found for it. -/
inductive Err
  | invalidMessage (text : String)
  | idempotencyConflict (leg : Option (EventType × Account × Account))
  | constraint (text : String)
  | missingDeposit (deposit outpoint : Outpoint)

namespace LedgerEntry

variable (e e' : LedgerEntry)

def leg : EventType × Account × Account := (e.eventType, e.debitAccount, e.creditAccount)

def keyLength : ℕ := (e.idempotencyKey.map List.length).getD 0

/-- Two rows that one of the unique indexes does not admit together. -/
def Conflicts : Prop :=
  e'.leg = e.leg ∧
    ((e.roundId ≠ none ∧ e.idempotencyKey = none ∧ e'.idempotencyKey = none ∧
        e'.roundId = e.roundId) ∨
      (e.sessionId ≠ none ∧ e'.sessionId = e.sessionId) ∨
      (e.idempotencyKey ≠ none ∧ e'.idempotencyKey = e.idempotencyKey))

instance : Decidable (e.Conflicts e') := by
  unfold Conflicts
  infer_instance

/-- The row without its creation time, as `ledgerPayloadEqual` compares it. -/
def payload : LedgerEntry := { e with createdAt := 0 }

/-- The row has an identity to find a winner by. -/
def hasIdentity : Bool := 0 < e.keyLength || e.sessionId.isSome || e.roundId.isSome

/-- The entry has an identity that its replay is found by. -/
def Identified : Prop := e.hasIdentity = true ∧ e.idempotencyKey ≠ some []

end LedgerEntry

namespace Tables

variable (t : Tables) (e : LedgerEntry)

def byIdempotencyKey : Option LedgerEntry :=
  t.entries.find? fun r => r.idempotencyKey = e.idempotencyKey ∧ r.leg = e.leg

def bySessionId : Option LedgerEntry :=
  t.entries.find? fun r => r.sessionId = e.sessionId ∧ r.leg = e.leg

def byRoundId : Option LedgerEntry :=
  t.entries.find? fun r => r.roundId = e.roundId ∧ r.idempotencyKey = none ∧ r.leg = e.leg

/-- An insert that a conflict on any index turns into a no-op. -/
def insertClientLedgerEntry : Except Err Tables :=
  if e.amountSat ≤ 0 then .error (.constraint "amount_sat > 0")
  else if e.debitAccount = e.creditAccount then .error (.constraint "debit_account != credit_account")
  else if t.entries.any (fun r => e.Conflicts r) then .ok t
  else .ok { t with entries := t.entries ++ [e] }

def winners : List LedgerEntry :=
  (if 0 < e.keyLength then (t.byIdempotencyKey e).toList else []) ++
    ((if e.sessionId.isSome then (t.bySessionId e).toList else []) ++
      if e.roundId.isSome && e.keyLength = 0 then (t.byRoundId e).toList else [])

def verifyLedgerEntryReplay : Except Err Unit :=
  if !e.hasIdentity then .ok ()
  else if t.winners e = [] then .error (.idempotencyConflict none)
  else if (t.winners e).all fun w => w.payload = e.payload then .ok ()
  else .error (.idempotencyConflict (some e.leg))

def insertLedgerEntry : Except Err Tables :=
  match t.insertClientLedgerEntry e with
  | .error err => .error err
  | .ok t' =>
    match t'.verifyLedgerEntryReplay e with
    | .error err => .error err
    | .ok () => .ok t'

def hasSessionEntry (sessionId : SessionId) (leg : EventType × Account × Account) : Bool :=
  t.entries.any fun r => r.sessionId = some sessionId ∧ r.leg = leg

def hasEntryForKey (key : List UInt8) (eventType : EventType) : Bool :=
  t.entries.any fun r => r.idempotencyKey = some key ∧ r.eventType = eventType

def logged (op : Outpoint) (event : UTXOEvent) : Bool :=
  t.log.any fun r => r.outpoint = op ∧ r.event = event

def insertUTXOAuditEntry (r : UTXOAuditEntry) : Except Err Tables :=
  if !r.classifiedAs.seeded then .error (.constraint "utxo_classifications")
  else if t.logged r.outpoint r.event then .ok t
  else .ok { t with log := t.log ++ [r] }

def lookupCreatedUTXO (op : Outpoint) : Option UTXOAuditEntry :=
  t.log.find? fun r => r.outpoint = op ∧ r.event = .created

def funds (input deposit : Outpoint) : Bool :=
  t.funding.any fun r => r.input = input ∧ r.deposit = deposit

def insertDepositFundingInput (input deposit : Outpoint) (createdAt : ℤ) : Tables :=
  if t.funds input deposit then t
  else { t with funding := t.funding ++ [⟨input, deposit, createdAt⟩] }

/-- The order of the deposit columns, the index as a signed word. -/
def depositLe (a b : Outpoint) : Bool :=
  if a.hash = b.hash then a.index.toInt32 ≤ b.index.toInt32
  else a.hash.data < b.hash.data

def depositsFundedByInput (op : Outpoint) : List Outpoint :=
  ((t.funding.filter fun r => r.input = op).map FundingInput.deposit).insertionSort
    fun a b => depositLe a b

def accountBalance (account : Account) : ℤ :=
  ((t.entries.filter fun e => e.debitAccount = account).map LedgerEntry.amountSat).sum -
    ((t.entries.filter fun e => e.creditAccount = account).map LedgerEntry.amountSat).sum

end Tables

section Inserts

variable {e e' : LedgerEntry} {p : LedgerEntry → Prop}

theorem LedgerEntry.eq_of_payload (h : e'.payload = e.payload) :
    e' = { e with createdAt := e'.createdAt } := by
  cases e
  cases e'
  simp only [payload, mk.injEq] at h ⊢
  simp [h]

/-- Rows are only ever added, and the new ledger rows satisfy `p`. -/
structure Grows (p : LedgerEntry → Prop) (t t' : Tables) : Prop where
  entries : ∃ new, t'.entries = t.entries ++ new ∧ ∀ e ∈ new, p e
  log : t.log <+: t'.log
  funding : t.funding <+: t'.funding

theorem Grows.refl : Grows p t t := ⟨⟨[], by simp⟩, prefix_rfl, prefix_rfl⟩

variable (h : Grows p t t')
include h

theorem Grows.trans (h' : Grows p t' t'') : Grows p t t'' := by
  obtain ⟨new, hnew, hp⟩ := h.entries
  obtain ⟨new', hnew', hp'⟩ := h'.entries
  refine ⟨⟨new ++ new', by rw [hnew', hnew, append_assoc], ?_⟩, h.log.trans h'.log,
    h.funding.trans h'.funding⟩
  intro e he
  exact (mem_append.1 he).elim (hp e) (hp' e)

theorem Grows.mem (he : e ∈ t.entries) : e ∈ t'.entries := by
  obtain ⟨new, hnew, -⟩ := h.entries
  rw [hnew]
  exact mem_append_left _ he

theorem Grows.find? (hq : t.entries.find? q = some e) : t'.entries.find? q = some e := by
  obtain ⟨new, hnew, -⟩ := h.entries
  rw [hnew, find?_append, hq, some_or]

theorem Grows.logged (hl : t.logged op event = true) : t'.logged op event = true := by
  obtain ⟨r, hr, hop⟩ := any_eq_true.1 hl
  exact any_eq_true.2 ⟨r, h.log.subset hr, hop⟩

theorem Grows.funds (hf : t.funds input deposit = true) : t'.funds input deposit = true := by
  obtain ⟨r, hr, hop⟩ := any_eq_true.1 hf
  exact any_eq_true.2 ⟨r, h.funding.subset hr, hop⟩

theorem Grows.hasEntryForKey (hk : t.hasEntryForKey key event = true) :
    t'.hasEntryForKey key event = true := by
  obtain ⟨r, hr, hkey⟩ := any_eq_true.1 hk
  exact any_eq_true.2 ⟨r, h.mem hr, hkey⟩

omit h

/-- A row with the payload of the entry is there, and every identity of the entry leads to such a
row. -/
structure Recorded (t : Tables) (e : LedgerEntry) : Prop where
  amount : 0 < e.amountSat
  accounts : e.debitAccount ≠ e.creditAccount
  identity : e.hasIdentity = true
  keyed : e.idempotencyKey ≠ some []
  row : ∃ w ∈ t.entries, w.payload = e.payload
  key : 0 < e.keyLength → ∃ w, t.byIdempotencyKey e = some w ∧ w.payload = e.payload
  session : e.sessionId.isSome = true → ∃ w, t.bySessionId e = some w ∧ w.payload = e.payload
  round : e.roundId.isSome = true → e.keyLength = 0 →
    ∃ w, t.byRoundId e = some w ∧ w.payload = e.payload

theorem Recorded.grows (h : Recorded t e) (hg : Grows p t t') : Recorded t' e := by
  refine ⟨h.amount, h.accounts, h.identity, h.keyed, ?_, fun hk => ?_, fun hs => ?_,
    fun hr hk => ?_⟩
  · obtain ⟨w, hw, hpay⟩ := h.row
    exact ⟨w, hg.mem hw, hpay⟩
  · obtain ⟨w, hw, hpay⟩ := h.key hk
    exact ⟨w, hg.find? hw, hpay⟩
  · obtain ⟨w, hw, hpay⟩ := h.session hs
    exact ⟨w, hg.find? hw, hpay⟩
  · obtain ⟨w, hw, hpay⟩ := h.round hr hk
    exact ⟨w, hg.find? hw, hpay⟩

theorem LedgerEntry.conflicts_of_payload (hid : e.hasIdentity = true) (h : e'.payload = e.payload) :
    e.Conflicts e' := by
  rw [eq_of_payload h]
  refine ⟨rfl, ?_⟩
  cases hkey : e.idempotencyKey with
  | some key => exact .inr (.inr ⟨nofun, rfl⟩)
  | none =>
    simp only [hasIdentity, keyLength, hkey, map_none, getD_none, lt_self_iff_false,
      decide_false, Bool.false_or, Bool.or_eq_true, isSome_iff_ne_none] at hid
    rcases hid with hs | hr
    · exact .inr (.inl ⟨hs, rfl⟩)
    · exact .inl ⟨hr, rfl, rfl, rfl⟩

theorem mem_winners : e' ∈ t.winners e ↔ (0 < e.keyLength ∧ t.byIdempotencyKey e = some e') ∨
    (e.sessionId.isSome = true ∧ t.bySessionId e = some e') ∨
      (e.roundId.isSome = true ∧ e.keyLength = 0) ∧ t.byRoundId e = some e' := by
  simp only [Tables.winners, mem_append, mem_ite_nil_right, mem_toList, Bool.and_eq_true,
    decide_eq_true_eq]

theorem Recorded.winners (h : Recorded t e) :
    t.winners e ≠ [] ∧ ∀ w ∈ t.winners e, w.payload = e.payload := by
  constructor
  · by_cases hkey : 0 < e.keyLength
    · obtain ⟨w, hw, -⟩ := h.key hkey
      exact ne_nil_of_mem (mem_winners.2 (.inl ⟨hkey, hw⟩))
    by_cases hsession : e.sessionId.isSome = true
    · obtain ⟨w, hw, -⟩ := h.session hsession
      exact ne_nil_of_mem (mem_winners.2 (.inr (.inl ⟨hsession, hw⟩)))
    have hround : e.roundId.isSome = true := by
      simpa [LedgerEntry.hasIdentity, hkey, hsession] using h.identity
    have hzero := Nat.eq_zero_of_not_pos hkey
    obtain ⟨w, hw, -⟩ := h.round hround hzero
    exact ne_nil_of_mem (mem_winners.2 (.inr (.inr ⟨⟨hround, hzero⟩, hw⟩)))
  · intro w hw
    obtain ⟨w', hw', hpay⟩ : ∃ w', some w = some w' ∧ w'.payload = e.payload := by
      rcases mem_winners.1 hw with ⟨hk, hw⟩ | ⟨hs, hw⟩ | ⟨hr, hw⟩
      · exact hw ▸ h.key hk
      · exact hw ▸ h.session hs
      · exact hw ▸ h.round hr.1 hr.2
    rwa [some_inj.1 hw']

theorem winners_mem (h : w ∈ t.winners e) : w ∈ t.entries := by
  rcases mem_winners.1 h with ⟨-, h⟩ | ⟨-, h⟩ | ⟨-, h⟩ <;> exact mem_of_find?_eq_some h

/-- The converse: one winner with the payload is found by every identity of the entry. -/
theorem Recorded.of_winners (hamount : 0 < e.amountSat) (hacc : e.debitAccount ≠ e.creditAccount)
    (hid : e.hasIdentity = true) (hkeyed : e.idempotencyKey ≠ some []) (hne : t.winners e ≠ [])
    (hall : ∀ w ∈ t.winners e, w.payload = e.payload) : Recorded t e := by
  obtain ⟨w, hw⟩ := exists_mem_of_ne_nil _ hne
  have hpay := hall w hw
  have hmem := winners_mem hw
  have hw' := LedgerEntry.eq_of_payload hpay
  have found : ∀ q : LedgerEntry → Bool, q w = true →
      (∀ w', t.entries.find? q = some w' → w' ∈ t.winners e) →
      ∃ w', t.entries.find? q = some w' ∧ w'.payload = e.payload := by
    intro q hq hwins
    obtain ⟨w₁, h₁⟩ := isSome_iff_exists.1 (find?_isSome.2 ⟨w, hmem, hq⟩)
    exact ⟨w₁, h₁, hall w₁ (hwins w₁ h₁)⟩
  refine ⟨hamount, hacc, hid, hkeyed, ⟨w, hmem, hpay⟩, fun hk => ?_, fun hs => ?_, fun hr hk => ?_⟩
  · refine found _ ?_ fun w₁ h₁ => mem_winners.2 (.inl ⟨hk, h₁⟩)
    rw [hw']
    simp [LedgerEntry.leg]
  · refine found _ ?_ fun w₁ h₁ => mem_winners.2 (.inr (.inl ⟨hs, h₁⟩))
    rw [hw']
    simp [LedgerEntry.leg]
  · have hnone : e.idempotencyKey = none := by
      cases hkey : e.idempotencyKey with
      | none => rfl
      | some l =>
        have hl : l = [] := by simpa [LedgerEntry.keyLength, hkey] using hk
        exact absurd (hl ▸ hkey) hkeyed
    refine found _ ?_ fun w₁ h₁ => mem_winners.2 (.inr (.inr ⟨⟨hr, hk⟩, h₁⟩))
    rw [hw']
    simp [LedgerEntry.leg, hnone]

theorem Recorded.congr (h : Recorded t e) (hp : e'.payload = e.payload) : Recorded t e' := by
  rw [LedgerEntry.eq_of_payload hp]
  exact ⟨h.amount, h.accounts, h.identity, h.keyed, h.row, h.key, h.session, h.round⟩

theorem Recorded.verify (h : Recorded t e) : t.verifyLedgerEntryReplay e = .ok () := by
  obtain ⟨hne, hall⟩ := h.winners
  have hpays : (t.winners e).all (fun w => w.payload = e.payload) = true :=
    all_eq_true.2 fun w hw => decide_eq_true (hall w hw)
  unfold Tables.verifyLedgerEntryReplay
  rw [h.identity, Bool.not_true, if_neg (by decide), if_neg hne, if_pos hpays]

theorem insertClientLedgerEntry_eq_ok : t.insertClientLedgerEntry e = .ok t' ↔
    0 < e.amountSat ∧ e.debitAccount ≠ e.creditAccount ∧
      t' = if ∃ r ∈ t.entries, e.Conflicts r then t else { t with entries := t.entries ++ [e] } := by
  unfold Tables.insertClientLedgerEntry
  simp only [List.any_eq_true, decide_eq_true_eq]
  by_cases hamount : e.amountSat ≤ 0
  · simp [hamount, not_lt.2 hamount]
  by_cases hacc : e.debitAccount = e.creditAccount
  · simp [hamount, hacc]
  rw [if_neg hamount, if_neg hacc, ← apply_ite Except.ok, Except.ok.injEq]
  exact ⟨fun h => ⟨not_le.1 hamount, hacc, h.symm⟩, fun h => h.2.2.symm⟩

theorem insertLedgerEntry_eq_ok : t.insertLedgerEntry e = .ok t' ↔
    t.insertClientLedgerEntry e = .ok t' ∧ t'.verifyLedgerEntryReplay e = .ok () := by
  unfold Tables.insertLedgerEntry
  cases t.insertClientLedgerEntry e with
  | error err => simp
  | ok t₁ =>
    simp only [Except.ok.injEq]
    constructor
    · intro h
      split at h
      · cases h
      next hverify =>
      cases h
      exact ⟨rfl, hverify⟩
    · rintro ⟨rfl, hverify⟩
      rw [hverify]

/-- An insert of an entry that is recorded, with any creation time. -/
theorem Recorded.insert (h : Recorded t e) (hp : e'.payload = e.payload) :
    t.insertLedgerEntry e' = .ok t := by
  have h' := h.congr hp
  obtain ⟨w, hw, hpay⟩ := h'.row
  refine insertLedgerEntry_eq_ok.2 ⟨insertClientLedgerEntry_eq_ok.2 ⟨h'.amount, h'.accounts, ?_⟩,
    h'.verify⟩
  rw [if_pos ⟨w, hw, LedgerEntry.conflicts_of_payload h'.identity hpay⟩]

theorem Recorded.insert_new (h : Recorded { t with entries := t.entries ++ [e] } e)
    (hno : ∀ r ∈ t.entries, ¬ e.Conflicts r) :
    t.insertLedgerEntry e = .ok { t with entries := t.entries ++ [e] } := by
  refine insertLedgerEntry_eq_ok.2 ⟨insertClientLedgerEntry_eq_ok.2 ⟨h.amount, h.accounts, ?_⟩,
    h.verify⟩
  rw [if_neg fun ⟨r, hr, hc⟩ => hno r hr hc]

theorem insertLedgerEntry_ok (h : t.insertLedgerEntry e = .ok t') :
    (t' = t ∨ t' = { t with entries := t.entries ++ [e] }) ∧
      (e.hasIdentity = true → e.idempotencyKey ≠ some [] → Recorded t' e) := by
  obtain ⟨hinsert, hverify⟩ := insertLedgerEntry_eq_ok.1 h
  obtain ⟨hamount, haccounts, ht'⟩ := insertClientLedgerEntry_eq_ok.1 hinsert
  refine ⟨ht' ▸ ite_eq_or_eq _ _ _, fun hid hkeyed => ?_⟩
  unfold Tables.verifyLedgerEntryReplay at hverify
  rw [hid, Bool.not_true, if_neg (by decide)] at hverify
  split at hverify
  · cases hverify
  next hne =>
  split at hverify
  · next hpays =>
    refine .of_winners hamount haccounts hid hkeyed hne fun w hw => ?_
    exact of_decide_eq_true (all_eq_true.1 hpays w hw)
  · cases hverify

theorem insertLedgerEntry_grows (h : t.insertLedgerEntry e = .ok t') (hp : p e) : Grows p t t' := by
  obtain ⟨rfl | rfl, -⟩ := insertLedgerEntry_ok h
  · exact .refl
  · refine ⟨⟨[e], rfl, ?_⟩, prefix_rfl, prefix_rfl⟩
    rintro _ (_ | ⟨_, ⟨⟩⟩)
    exact hp

theorem insertLedgerEntry_of_key (hw : e' ∈ t.entries) (hkey : e.idempotencyKey ≠ none)
    (heq : e'.idempotencyKey = e.idempotencyKey) (hleg : e'.leg = e.leg)
    (h : t.insertLedgerEntry e = .ok t') : t' = t := by
  obtain ⟨-, -, rfl⟩ := insertClientLedgerEntry_eq_ok.1 (insertLedgerEntry_eq_ok.1 h).1
  exact if_pos ⟨e', hw, hleg, .inr (.inr ⟨hkey, heq⟩)⟩

section Audit

theorem insertUTXOAuditEntry_ok (h : t.insertUTXOAuditEntry r = .ok t') :
    (t' = t ∨ t' = { t with log := t.log ++ [r] }) ∧ t'.logged r.outpoint r.event = true := by
  unfold Tables.insertUTXOAuditEntry at h
  split at h
  · cases h
  split at h
  · next hl =>
    cases h
    exact ⟨.inl rfl, hl⟩
  · cases h
    exact ⟨.inr rfl, by simp [Tables.logged]⟩

theorem insertUTXOAuditEntry_of_logged (hl : t.logged r.outpoint r.event = true)
    (h : t.insertUTXOAuditEntry r = .ok t') : t' = t := by
  unfold Tables.insertUTXOAuditEntry at h
  rw [if_pos hl] at h
  split at h
  · cases h
  · exact (Except.ok.inj h).symm

theorem insertUTXOAuditEntry_grows (h : t.insertUTXOAuditEntry r = .ok t') : Grows p t t' := by
  obtain ⟨rfl | rfl, -⟩ := insertUTXOAuditEntry_ok h
  · exact .refl
  · exact ⟨⟨[], by simp⟩, prefix_append .., prefix_rfl⟩

theorem insertDepositFundingInput_grows :
    Grows p t (t.insertDepositFundingInput input deposit now) := by
  unfold Tables.insertDepositFundingInput
  split
  · exact .refl
  · exact ⟨⟨[], by simp⟩, prefix_rfl, prefix_append ..⟩

@[simp] theorem insertDepositFundingInput_log :
    (t.insertDepositFundingInput input deposit now).log = t.log := by
  unfold Tables.insertDepositFundingInput
  split <;> rfl

theorem insertDepositFundingInput_funds :
    (t.insertDepositFundingInput input deposit now).funds i d = true ↔
      t.funds i d = true ∨ (i = input ∧ d = deposit) := by
  unfold Tables.insertDepositFundingInput
  split
  · next h =>
    refine ⟨.inl, ?_⟩
    rintro (hf | ⟨rfl, rfl⟩)
    · exact hf
    · exact h
  · simp only [Tables.funds, any_append, any_cons, any_nil, Bool.or_false,
      Bool.or_eq_true, decide_eq_true_eq]
    rw [eq_comm (a := input), eq_comm (a := deposit)]

theorem lookupCreatedUTXO_some (h : t.lookupCreatedUTXO op = some r) :
    r ∈ t.log ∧ r.outpoint = op ∧ r.event = .created := by
  have hr := find?_some (show t.log.find? _ = some r from h)
  exact ⟨mem_of_find?_eq_some h, (of_decide_eq_true hr).1, (of_decide_eq_true hr).2⟩

theorem lookupCreatedUTXO_none (h : t.lookupCreatedUTXO op = none) :
    t.logged op .created = false := by
  simpa [Tables.lookupCreatedUTXO, Tables.logged, List.any_eq_false] using h

theorem mem_depositsFundedByInput : deposit ∈ t.depositsFundedByInput op ↔ t.funds op deposit := by
  simp only [Tables.depositsFundedByInput, List.mem_insertionSort, List.mem_map, List.mem_filter,
    decide_eq_true_eq, Tables.funds, List.any_eq_true]
  constructor
  · rintro ⟨r, ⟨hr, hop⟩, hd⟩
    exact ⟨r, hr, hop, hd⟩
  · rintro ⟨r, hr, hop, hd⟩
    exact ⟨r, ⟨hr, hop⟩, hd⟩

end Audit

end Inserts

end Wavelength.Ledger
