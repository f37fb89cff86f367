import Wavelength.Base.Yields
import Wavelength.Ledger.Handlers

/-! # Redelivery of ledger messages

An accepted message is settled: whatever its handler would write is there already. A
settled message changes nothing when it comes again, provided that the outputs that fund
a deposit have their reversal, so the redeliveries can be dropped from every run.
-/

namespace Wavelength.Ledger

open List

variable {t t' t'' : Tables} {p : LedgerEntry → Prop}

section Frames

/-- A growth that adds no created output and no funding input. -/
structure Frames (p : LedgerEntry → Prop) (t t' : Tables) : Prop extends Grows p t t' where
  created : ∀ r ∈ t'.log, r.event = .created → r ∈ t.log
  funded : ∀ i d, t'.funds i d = true → t.funds i d = true

theorem Frames.refl : Frames p t t := ⟨.refl, fun _ hr _ => hr, fun _ _ h => h⟩

theorem Frames.trans (h : Frames p t t') (h' : Frames p t' t'') : Frames p t t'' :=
  ⟨h.toGrows.trans h'.toGrows, fun r hr hc => h.created r (h'.created r hr hc) hc,
    fun i d hf => h.funded i d (h'.funded i d hf)⟩

theorem Frames.logged (h : Frames p t t') (hl : t'.logged op .created = true) :
    t.logged op .created = true := by
  obtain ⟨r, hr, hop⟩ := any_eq_true.1 hl
  exact any_eq_true.2 ⟨r, h.created r hr (of_decide_eq_true hop).2, hop⟩

theorem insertLedgerEntry_frames (h : t.insertLedgerEntry e = .ok t') (hp : p e) :
    Frames p t t' := by
  have hgrows := insertLedgerEntry_grows h hp
  obtain ⟨rfl | rfl, -⟩ := insertLedgerEntry_ok h
  · exact .refl
  · exact ⟨hgrows, fun _ hr _ => hr, fun _ _ hf => hf⟩

theorem insertLedgerEntry_yields (hp : p e) (hid : e.Identified) :
    Yields (t.insertLedgerEntry e) fun t' => Frames p t t' ∧ Recorded t' e :=
  fun _ h => ⟨insertLedgerEntry_frames h hp, (insertLedgerEntry_ok h).2 hid.1 hid.2⟩

theorem insertUTXOAuditEntry_yields (hr : r.event = .spent) :
    Yields (t.insertUTXOAuditEntry r) fun t' =>
      Frames p t t' ∧ t'.logged r.outpoint .spent = true := by
  intro t' h
  refine ⟨⟨insertUTXOAuditEntry_grows h, fun r' hr' hc => ?_, fun i d hf => ?_⟩,
    hr ▸ (insertUTXOAuditEntry_ok h).2⟩
  · obtain ⟨rfl | rfl, -⟩ := insertUTXOAuditEntry_ok h
    · exact hr'
    rcases mem_append.1 hr' with hr' | hr'
    · exact hr'
    · rw [mem_singleton.1 hr', hr] at hc
      cases hc
  · obtain ⟨rfl | rfl, -⟩ := insertUTXOAuditEntry_ok h <;> exact hf

end Frames

section Reversal

structure Reversed (t : Tables) (op : Outpoint) : Prop where
  row : ∃ w ∈ t.entries, w.idempotencyKey = some (classifiedUTXOIdempotencyKey .depositFunding op) ∧
    w.leg = (.walletUTXOSpent, .openingBalance, .walletBalance)
  spent : t.logged op .spent = true

theorem Reversed.grows (h : Reversed t op) (hg : Grows p t t') : Reversed t' op := by
  obtain ⟨w, hw, hkey⟩ := h.row
  exact ⟨⟨w, hg.mem hw, hkey⟩, hg.logged h.spent⟩

def NotReceived (e : LedgerEntry) : Prop := e.eventType ≠ .vtxoReceived

theorem bookProceedsReversal_yields :
    Yields (bookProceedsReversal now t op amountSat height) fun t' =>
      Frames NotReceived t t' ∧ Reversed t' op := by
  refine .bind (insertUTXOAuditEntry_yields (p := NotReceived) rfl) ?_
  rintro t₁ ⟨hframes, hspent⟩
  refine (insertLedgerEntry_yields (p := NotReceived) (by nofun) reversalEntry_identified).imp ?_
  rintro t₂ ⟨hframes', hrec⟩
  obtain ⟨w, hw, hpay⟩ := hrec.row
  refine ⟨hframes.trans hframes', ⟨w, hw, ?_⟩, hframes'.toGrows.logged hspent⟩
  rw [LedgerEntry.eq_of_payload hpay]
  exact ⟨rfl, rfl⟩

theorem Reversed.bookProceedsReversal (h : Reversed t op) :
    Yields (bookProceedsReversal now t op amountSat height) (· = t) := by
  obtain ⟨w, hw, hkey, hleg⟩ := h.row
  refine .bind (P := (· = t)) (fun t₁ => insertUTXOAuditEntry_of_logged h.spent) ?_
  rintro _ rfl t₂
  exact insertLedgerEntry_of_key hw nofun hkey hleg

/-- Every created output is classified as `own` has it, and those of our proceeds that fund
a deposit are reversed, `x` apart. -/
structure Balanced (own : Outpoint → Bool) (x : Option Outpoint) (t : Tables) : Prop where
  agree : ∀ r ∈ t.log, r.event = .created → isOwnWalletProceeds r.classifiedAs = own r.outpoint
  reversed : ∀ op d, some op ≠ x → own op = true → t.logged op .created = true →
    t.funds op d = true → Reversed t op

theorem Balanced.frames (h : Balanced own x t) (hf : Frames p t t') : Balanced own x t' := by
  refine ⟨fun r hr hc => h.agree r (hf.created r hr hc) hc, fun op d hx hown hl hd => ?_⟩
  exact (h.reversed op d hx hown (hf.logged hl) (hf.funded _ _ hd)).grows hf.toGrows

theorem Balanced.except (h : Balanced own none t) : Balanced own x t :=
  ⟨h.agree, fun op d _ => h.reversed op d nofun⟩

theorem Balanced.close (h : Balanced own (some op) t)
    (hop : own op = true → ∀ d, t.funds op d = true → Reversed t op) : Balanced own none t := by
  refine ⟨h.agree, fun op' d _ hown hl hd => ?_⟩
  by_cases heq : op' = op
  · subst heq
    exact hop hown d hd
  · exact h.reversed op' d (fun h => heq (Option.some_inj.1 h)) hown hl hd

theorem Balanced.insertCreated (h : Balanced own (some r.outpoint) t)
    (hok : t.insertUTXOAuditEntry r = .ok t')
    (hr : isOwnWalletProceeds r.classifiedAs = own r.outpoint) :
    Balanced own (some r.outpoint) t' := by
  obtain ⟨rfl | rfl, -⟩ := insertUTXOAuditEntry_ok hok
  · exact h
  refine ⟨fun r' hr' hc => ?_, fun op d hx hown hl hd => ?_⟩
  · rcases mem_append.1 hr' with hr' | hr'
    · exact h.agree r' hr' hc
    · rwa [mem_singleton.1 hr']
  have hl' : t.logged op .created = true := by
    have hne : r.outpoint ≠ op := fun heq => hx (by rw [heq])
    simpa [Tables.logged, hne] using hl
  exact (h.reversed op d hx hown hl' hd).grows (insertUTXOAuditEntry_grows (p := NotReceived) hok)

theorem bookDepositFunding_yields (own : Outpoint → Bool) (inputs : List Outpoint) (t : Tables) :
    Yields (bookDepositFunding now m inputs t) fun t' =>
      Grows NotReceived t t' ∧ (∀ i ∈ inputs, t'.funds i m.outpoint = true) ∧
        (Balanced own none t → Balanced own none t') := by
  induction inputs generalizing t with
  | nil =>
    refine Yields.ok_iff.2 ⟨.refl, ?_, id⟩
    rintro i ⟨⟩
  | cons input inputs ih =>
    unfold bookDepositFunding
    set t₁ := t.insertDepositFundingInput input m.outpoint now with ht₁
    have hgrows : Grows NotReceived t t₁ := insertDepositFundingInput_grows
    have hfunds : t₁.funds input m.outpoint = true :=
      insertDepositFundingInput_funds.2 (.inr ⟨rfl, rfl⟩)
    have hexcept : Balanced own none t → Balanced own (some input) t₁ := by
      intro h
      refine ⟨fun r hr => h.agree r (by simpa [ht₁] using hr), fun op d hx hown hl hd => ?_⟩
      have hl' : t.logged op .created = true := by simpa [ht₁, Tables.logged] using hl
      rcases insertDepositFundingInput_funds.1 hd with hd | ⟨rfl, -⟩
      · exact (h.reversed op d (by rintro ⟨⟩) hown hl' hd).grows hgrows
      · exact absurd rfl hx
    -- what is left to do from any tables that the input is settled in
    have rest : ∀ t₂, Grows NotReceived t t₂ → t₂.funds input m.outpoint = true →
        (Balanced own none t → Balanced own none t₂) →
        Yields (bookDepositFunding now m inputs t₂) fun t' => Grows NotReceived t t' ∧
          (∀ i ∈ input :: inputs, t'.funds i m.outpoint = true) ∧
            (Balanced own none t → Balanced own none t') := by
      intro t₂ hg hf hb
      refine (ih t₂).imp ?_
      rintro t' ⟨hg', hf', hb'⟩
      refine ⟨hg.trans hg', ?_, fun h => hb' (hb h)⟩
      rintro i (_ | ⟨_, hi⟩)
      · exact hg'.funds hf
      · exact hf' i hi
    dsimp only
    split
    · next hnone =>
      refine rest t₁ hgrows hfunds fun h => ⟨(hexcept h).agree, fun op d _ hown hl hd => ?_⟩
      refine (hexcept h).reversed op d ?_ hown hl hd
      rintro ⟨⟩
      rw [lookupCreatedUTXO_none hnone] at hl
      cases hl
    · next created hcreated =>
      obtain ⟨hmem, hop, hevent⟩ := lookupCreatedUTXO_some hcreated
      split
      · refine .bind bookProceedsReversal_yields ?_
        rintro t₂ ⟨hframes, hrev⟩
        refine rest t₂ (hgrows.trans hframes.toGrows) (hframes.toGrows.funds hfunds) fun h => ?_
        exact ((hexcept h).frames hframes).close fun _ _ _ => hrev
      next hclass =>
      refine rest t₁ hgrows hfunds fun h => (hexcept h).close fun hown => ?_
      rw [← hop, ← (hexcept h).agree created hmem hevent] at hown
      exact absurd hown hclass

theorem reverseIfDepositFunded_yields :
    Yields (reverseIfDepositFunded now t op amountSat) fun t' =>
      Frames NotReceived t t' ∧ ∀ d, t'.funds op d = true → Reversed t' op := by
  unfold reverseIfDepositFunded
  split
  · next hnil =>
    refine Yields.ok_iff.2 ⟨.refl, fun d hd => ?_⟩
    rw [← mem_depositsFundedByInput, hnil] at hd
    cases hd
  split
  · exact Yields.error
  · refine bookProceedsReversal_yields.imp ?_
    rintro t' ⟨hframes, hrev⟩
    exact ⟨hframes, fun _ _ => hrev⟩

/-- The two loops change nothing where the reversals are booked. -/
theorem bookDepositFunding_idle (h : Balanced own none t)
    (hf : ∀ i ∈ inputs, t.funds i m.outpoint = true) :
    Yields (bookDepositFunding now m inputs t) (· = t) := by
  induction inputs with
  | nil => exact Yields.ok_iff.2 rfl
  | cons input inputs ih =>
    have hinput := hf input mem_cons_self
    have hrest := ih fun i hi => hf i (mem_cons_of_mem _ hi)
    unfold bookDepositFunding
    rw [Tables.insertDepositFundingInput, if_pos hinput]
    dsimp only
    split
    · exact hrest
    next created hcreated =>
    obtain ⟨hmem, hop, hevent⟩ := lookupCreatedUTXO_some hcreated
    split
    · next hclass =>
      have hown : own input = true := by rw [← hop, ← h.agree created hmem hevent, hclass]
      have hl : t.logged input .created = true :=
        any_eq_true.2 ⟨created, hmem, decide_eq_true ⟨hop, hevent⟩⟩
      refine .bind (h.reversed input _ nofun hown hl hinput).bookProceedsReversal ?_
      rintro _ rfl
      exact hrest
    · exact hrest

theorem reverseIfDepositFunded_idle (h : Balanced own none t) (hown : own op = true)
    (hl : t.logged op .created = true) :
    Yields (reverseIfDepositFunded now t op amountSat) (· = t) := by
  unfold reverseIfDepositFunded
  split
  · exact Yields.ok_iff.2 rfl
  next d ds hds =>
  have hd : t.funds op d = true := by
    rw [← mem_depositsFundedByInput, hds]
    exact mem_cons_self
  split
  · exact Yields.error
  · exact (h.reversed op d nofun hown hl hd).bookProceedsReversal

end Reversal

section Settled

/-- A boarding or refresh fee names its round. -/
def Msg.Identified : Msg → Prop
  | .feePaid m => m.feeType = .boarding ∨ m.feeType = .refresh → m.roundId ≠ .zero 16
  | _ => True

/-- The outputs that the message creates are classified as `own` has it. -/
def Msg.Agrees (own : Outpoint → Bool) : Msg → Prop
  | .utxoCreated m => isOwnWalletProceeds m.classification = own m.outpoint
  | .boardingSweepConfirmed m => m.destinationExternal = true ∨ own m.returnPoint = true
  | _ => True

/-- What the handler of the message would write is there. -/
def Settled (audited : Bool) (t : Tables) : Msg → Prop
  | .restart => True
  | .feePaid m => ∃ e, feeEntry 0 m = .ok e ∧ Recorded t e
  | .vtxoReceived m => t.hasEntryForKey (walletUTXOIdempotencyKey m.outpoint) .vtxoReceived = true
  | .vtxoSent m => Recorded t (sentEntry 0 m) ∧
      ∀ key, m.proceedsOwnWallet = true → sentKey m = some key →
        Recorded t (sentProceedsEntry 0 m key)
  | .exitCost m => Recorded t (exitSendLeg 0 m) ∧ Recorded t (exitFeeLeg 0 m) ∧
      (m.destinationOwnWallet = true → Recorded t (exitProceedsLeg 0 m))
  | .utxoCreated m => audited = true → t.logged m.outpoint .created = true ∧
      (creditAlreadyBooked m.classification = false →
        Recorded t (createdEntry 0 m.outpoint m.amountSat m.classification m.blockHeight)) ∧
      (m.classification = .deposit → ∀ i ∈ m.fundingInputs, t.funds i m.outpoint = true)
  | .utxoSpent m => audited = true → t.logged m.outpoint .spent = true ∧
      (m.classification = .boardingSweepInput →
        Recorded t (sweptEntry 0 m.outpoint m.outpoint.rawText m.amountSat m.blockHeight))
  | .boardingSweepConfirmed m => ∀ leg ∈ boardingSweepLegs 0 m, Recorded t leg.entry ∧
      (audited = true → ∀ a ∈ leg.audit, t.logged a.outpoint a.event = true)

theorem Settled.grows (h : Settled audited t m) (hg : Grows p t t') : Settled audited t' m := by
  cases m with
  | restart => trivial
  | feePaid m =>
    obtain ⟨e, he, hrec⟩ := h
    exact ⟨e, he, hrec.grows hg⟩
  | vtxoReceived m => exact hg.hasEntryForKey h
  | vtxoSent m => exact ⟨h.1.grows hg, fun key hown hkey => (h.2 key hown hkey).grows hg⟩
  | exitCost m => exact ⟨h.1.grows hg, h.2.1.grows hg, fun hown => (h.2.2 hown).grows hg⟩
  | utxoCreated m =>
    intro ha
    obtain ⟨hl, hrec, hf⟩ := h ha
    exact ⟨hg.logged hl, fun hc => (hrec hc).grows hg, fun hd i hi => hg.funds (hf hd i hi)⟩
  | utxoSpent m =>
    intro ha
    obtain ⟨hl, hrec⟩ := h ha
    exact ⟨hg.logged hl, fun hc => (hrec hc).grows hg⟩
  | boardingSweepConfirmed m =>
    intro leg hleg
    obtain ⟨hrec, hl⟩ := h leg hleg
    exact ⟨hrec.grows hg, fun ha a hm => hg.logged (hl ha a hm)⟩

end Settled

section Accepted

/-- The ledger rows that a message can lead to. -/
def Msg.Writes : Msg → LedgerEntry → Prop
  | .vtxoReceived _ => fun _ => True
  | _ => NotReceived

/-- What an accepted message has done: it is settled, and the tables stay balanced. -/
structure Accepted (own : Outpoint → Bool) (audited : Bool) (t : Tables) (m : Msg) (t' : Tables) :
    Prop where
  grows : Grows m.Writes t t'
  settled : m.Identified → Settled audited t' m
  balanced : Balanced own none t → Balanced own none t'

theorem Accepted.of_frames {m : Msg} (hf : Frames m.Writes t t')
    (hs : m.Identified → Settled audited t' m) : Accepted own audited t m t' :=
  ⟨hf.toGrows, hs, fun h => h.frames hf⟩

theorem feeEntry_ok {m : FeePaidMsg} (h : feeEntry now m = .ok e) :
    NotReceived e ∧ ((Msg.feePaid m).Identified → e.Identified) ∧
      ∃ e₀, feeEntry 0 m = .ok e₀ ∧ e.payload = e₀.payload := by
  unfold feeEntry at h ⊢
  have hround : m.roundId ≠ .zero 16 → m.roundId.nonzero.isSome = true := by
    intro hne
    simp [Bytes.nonzero, hne]
  split at h
  · next hfee =>
    cases h
    refine ⟨by rintro ⟨⟩, fun hid => ⟨?_, by rintro ⟨⟩⟩, _, rfl, rfl⟩
    simp [LedgerEntry.hasIdentity, hround (hid (.inl hfee))]
  · next hfee =>
    cases h
    refine ⟨by rintro ⟨⟩, fun hid => ⟨?_, by rintro ⟨⟩⟩, _, rfl, rfl⟩
    simp [LedgerEntry.hasIdentity, hround (hid (.inr hfee))]
  · split at h
    · cases h
    next hlen =>
    cases h
    refine ⟨by rintro ⟨⟩, fun _ => LedgerEntry.identified_of_key rfl ?_, _, if_neg hlen, rfl⟩
    rintro hnil
    simp [hnil] at hlen
  · cases h

theorem handleFeePaid_accepted {m : FeePaidMsg} :
    Yields (handleFeePaid now t m) (Accepted own audited t (.feePaid m)) := by
  refine Yields.seq fun _ => .bind (fun e he => he) ?_
  intro e he t' hok
  obtain ⟨hp, hid, e₀, he₀, hpay⟩ := feeEntry_ok he
  refine .of_frames (insertLedgerEntry_frames hok hp) fun hm => ⟨e₀, he₀, ?_⟩
  exact ((insertLedgerEntry_ok hok).2 (hid hm).1 (hid hm).2).congr hpay.symm

theorem handleVTXOReceived_accepted {m : VTXOReceivedMsg} :
    Yields (handleVTXOReceived now t m) (Accepted own audited t (.vtxoReceived m)) := by
  refine Yields.seq fun _ => Yields.seq fun credit => .ite (fun hk => ?_) fun _ => ?_
  · exact Yields.pure_iff.2 (.of_frames .refl fun _ => hk)
  refine (insertLedgerEntry_yields (p := fun _ => True) trivial
    (LedgerEntry.identified_of_key rfl outpointIdempotencyPayload_ne_nil)).imp ?_
  rintro t' ⟨hframes, hrec⟩
  obtain ⟨w, hw, hpay⟩ := hrec.row
  refine .of_frames hframes fun _ => any_eq_true.2 ⟨w, hw, ?_⟩
  rw [LedgerEntry.eq_of_payload hpay]
  exact decide_eq_true ⟨rfl, rfl⟩

theorem handleVTXOSent_accepted {m : VTXOSentMsg} :
    Yields (handleVTXOSent now t m) (Accepted own audited t (.vtxoSent m)) := by
  refine Yields.seq fun _ => ?_
  split
  · exact Yields.error
  · exact Yields.error
  next hnone _ =>
  have hid : (sentEntry now m).Identified := sentEntry_identified fun h => hnone h.1 h.2
  split
  · exact Yields.error
  · next key hown hkey =>
    refine .bind (insertLedgerEntry_yields (p := NotReceived) (by nofun) hid) ?_
    rintro t₁ ⟨hframes, hrec⟩
    refine (insertLedgerEntry_yields (p := NotReceived) (by nofun)
      (sentProceedsEntry_identified hkey)).imp ?_
    rintro t' ⟨hframes', hrec'⟩
    refine .of_frames (hframes.trans hframes') fun _ => ⟨?_, fun key' _ hkey' => ?_⟩
    · exact (hrec.grows hframes'.toGrows).congr rfl
    · obtain rfl := Option.some_inj.1 (hkey'.symm.trans hkey)
      exact hrec'.congr rfl
  · next hown =>
    refine (insertLedgerEntry_yields (p := NotReceived) (by nofun) hid).imp ?_
    rintro t' ⟨hframes, hrec⟩
    refine .of_frames hframes fun _ => ⟨hrec.congr rfl, fun _ hown' => ?_⟩
    rw [hown] at hown'
    cases hown'

theorem handleExitCost_accepted {m : ExitCostMsg} :
    Yields (handleExitCost now t m) (Accepted own audited t (.exitCost m)) := by
  refine .ite (fun _ => .throw) fun _ => ?_
  refine .ite (fun _ => .throw) fun _ => ?_
  refine .bind (insertLedgerEntry_yields (p := NotReceived) (by nofun) exitLeg_identified) ?_
  rintro t₁ ⟨hf₁, hsend⟩
  refine .bind (insertLedgerEntry_yields (p := NotReceived) (by nofun) exitLeg_identified) ?_
  rintro t₂ ⟨hf₂, hfee⟩
  have hsend₂ := hsend.grows hf₂.toGrows
  refine .ite (fun _ => ?_) fun hown => ?_
  · refine (insertLedgerEntry_yields (p := NotReceived) (by nofun) exitLeg_identified).imp ?_
    rintro t' ⟨hf₃, hproceeds⟩
    refine .of_frames ((hf₁.trans hf₂).trans hf₃) fun _ => ⟨?_, ?_, fun _ => hproceeds.congr rfl⟩
    · exact (hsend₂.grows hf₃.toGrows).congr rfl
    · exact (hfee.grows hf₃.toGrows).congr rfl
  · refine Yields.pure_iff.2 (.of_frames (hf₁.trans hf₂) fun _ => ?_)
    exact ⟨hsend₂.congr rfl, hfee.congr rfl, fun h => absurd h hown⟩

theorem creditCreated_yields {m : UTXOCreatedMsg} :
    Yields (creditCreated now t m) fun t' => Frames NotReceived t t' ∧
      (creditAlreadyBooked m.classification = false →
        Recorded t' (createdEntry 0 m.outpoint m.amountSat m.classification m.blockHeight)) := by
  refine .ite (fun hb => Yields.ok_iff.2 ⟨.refl, fun hb' => ?_⟩) fun _ => ?_
  · rw [hb] at hb'
    cases hb'
  · refine (insertLedgerEntry_yields (p := NotReceived) (by nofun) createdEntry_identified).imp ?_
    rintro t' ⟨hframes, hrec⟩
    exact ⟨hframes, fun _ => hrec.congr rfl⟩

theorem handleUTXOCreated_accepted {m : UTXOCreatedMsg} (hm : (Msg.utxoCreated m).Agrees own) :
    Yields (handleUTXOCreated now t audited m) (Accepted own audited t (.utxoCreated m)) := by
  refine .ite (fun ha => ?_) fun _ => Yields.seq fun _ => ?_
  · refine Yields.pure_iff.2 (.of_frames .refl fun _ ha' => ?_)
    simp [ha'] at ha
  refine .bind (fun t₁ h => h) fun t₁ haudit => ?_
  refine .bind creditCreated_yields fun t₂ ⟨hcredit, hrec⟩ => ?_
  have hgrows : Grows NotReceived t t₂ := (insertUTXOAuditEntry_grows haudit).trans hcredit.toGrows
  have hlogged : t₂.logged m.outpoint .created = true :=
    hcredit.toGrows.logged (insertUTXOAuditEntry_ok haudit).2
  have hexcept : Balanced own none t → Balanced own (some m.outpoint) t₂ := fun h =>
    (h.except.insertCreated haudit hm).frames hcredit
  have notOwn (hc : ¬ isOwnWalletProceeds m.classification = true) : ¬ own m.outpoint = true := by
    rwa [← show isOwnWalletProceeds m.classification = own m.outpoint from hm]
  refine .ite (fun hdeposit => ?_) fun hdeposit => ?_
  · refine (bookDepositFunding_yields own m.fundingInputs t₂).imp ?_
    rintro t' ⟨hg, hf, hb⟩
    refine ⟨hgrows.trans hg, fun _ _ => ?_, fun h => hb ((hexcept h).close fun hown => ?_)⟩
    · exact ⟨hg.logged hlogged, fun hc => (hrec hc).grows hg, fun _ => hf⟩
    · exact absurd hown (notOwn (by rw [hdeposit]; decide))
  have settled : Settled audited t₂ (.utxoCreated m) := fun _ =>
    ⟨hlogged, hrec, fun h => absurd h hdeposit⟩
  refine .ite (fun _ => ?_) fun hown => ?_
  · refine reverseIfDepositFunded_yields.imp ?_
    rintro t' ⟨hf, hrev⟩
    exact ⟨hgrows.trans hf.toGrows, fun _ => settled.grows hf.toGrows,
      fun h => ((hexcept h).frames hf).close fun _ => hrev⟩
  · exact Yields.pure_iff.2 ⟨hgrows, fun _ => settled,
      fun h => (hexcept h).close fun hown' => absurd hown' (notOwn hown)⟩

theorem handleUTXOSpent_accepted {m : UTXOSpentMsg} :
    Yields (handleUTXOSpent now t audited m) (Accepted own audited t (.utxoSpent m)) := by
  refine .ite (fun ha => ?_) fun _ => ?_
  · refine Yields.pure_iff.2 (.of_frames .refl fun _ ha' => ?_)
    simp [ha'] at ha
  refine .ite (fun _ => Yields.seq fun _ => ?_) fun hclass => ?_
  · refine .bind (insertUTXOAuditEntry_yields (p := NotReceived) rfl) ?_
    rintro t₁ ⟨hf₁, hlogged⟩
    refine (insertLedgerEntry_yields (p := NotReceived) (by nofun) sweptEntry_identified).imp ?_
    rintro t' ⟨hf₂, hrec⟩
    refine .of_frames (hf₁.trans hf₂) fun _ _ => ⟨?_, fun _ => hrec.congr rfl⟩
    exact hf₂.toGrows.logged hlogged
  · refine (insertUTXOAuditEntry_yields (p := NotReceived) rfl).imp ?_
    rintro t' ⟨hf, hlogged⟩
    exact .of_frames hf fun _ _ => ⟨hlogged, fun h => absurd h hclass⟩

/-- A leg of the same message at another time. -/
def SweepLeg.at (now : ℤ) (leg : SweepLeg) : SweepLeg where
  audit := leg.audit.map fun a => { a with createdAt := now }
  entry := { leg.entry with createdAt := now }

theorem boardingSweepLegs_at : boardingSweepLegs now m = (boardingSweepLegs 0 m).map (.at now) := by
  have hdest : sweepDestinationLeg now m = (sweepDestinationLeg 0 m).at now := by
    unfold sweepDestinationLeg
    split <;> rfl
  simp only [boardingSweepLegs, map_cons, map_append, map_map, map_nil, hdest]
  rfl

/-- What the legs of a sweep write. -/
structure SweepLeg.Sound (audited : Bool) (x : Option Outpoint) (leg : SweepLeg) : Prop where
  notReceived : NotReceived leg.entry
  identified : leg.entry.Identified
  audit : audited = true → ∀ a ∈ leg.audit, a.event = .spent ∨
    (x = some a.outpoint ∧ a.classifiedAs = .boardingSweepReturn)

def BoardingSweepConfirmedMsg.created (audited : Bool) (m : BoardingSweepConfirmedMsg) :
    Option Outpoint :=
  if m.destinationExternal || !audited then none else some m.returnPoint

theorem boardingSweepLegs_sound (h : leg ∈ boardingSweepLegs now m) :
    leg.Sound audited (m.created audited) := by
  simp only [boardingSweepLegs, mem_cons, mem_append, mem_map, not_mem_nil, or_false] at h
  rcases h with rfl | ⟨i, -, rfl⟩ | rfl
  · exact ⟨by nofun, LedgerEntry.identified_of_key rfl m.txid.data_ne_nil, nofun⟩
  · refine ⟨by nofun, sweptEntry_identified, ?_⟩
    rintro - _ ⟨⟩
    exact .inl rfl
  unfold sweepDestinationLeg
  split
  · refine ⟨by nofun, LedgerEntry.identified_of_key rfl ?_, nofun⟩
    simp [m.txid.data_ne_nil]
  next hext =>
  refine ⟨by nofun, createdEntry_identified, ?_⟩
  rintro ha _ ⟨⟩
  exact .inr ⟨by simp [BoardingSweepConfirmedMsg.created, hext, ha], rfl⟩

theorem auditSweepLeg_yields (hleg : leg.Sound audited x) (hx : ∀ op, x = some op → own op = true) :
    Yields (auditSweepLeg audited leg t) fun t' => Grows NotReceived t t' ∧
      (audited = true → ∀ a ∈ leg.audit, t'.logged a.outpoint a.event = true) ∧
      (Balanced own x t → Balanced own x t') := by
  unfold auditSweepLeg
  split
  · next a ha =>
    refine .ite (fun haud t' hok => ?_) fun haud => Yields.ok_iff.2 ⟨.refl, ?_, id⟩
    · refine ⟨insertUTXOAuditEntry_grows hok, fun _ a' ha' => ?_, fun h => ?_⟩
      · obtain rfl := Option.some_inj.1 (ha.symm.trans ha')
        exact (insertUTXOAuditEntry_ok hok).2
      rcases hleg.audit haud a ha with hs | ⟨hop, hclass⟩
      · exact h.frames (insertUTXOAuditEntry_yields (p := NotReceived) hs t' hok).1
      subst hop
      refine h.insertCreated hok ?_
      rw [hclass, hx _ rfl]
      rfl
    · exact fun h => absurd h haud
  · next ha =>
    refine Yields.ok_iff.2 ⟨.refl, fun _ a h => ?_, id⟩
    rw [ha] at h
    cases h

theorem insertSweepLegs_yields (hlegs : ∀ leg ∈ legs, leg.Sound audited x)
    (hx : ∀ op, x = some op → own op = true) (t : Tables) :
    Yields (insertSweepLegs audited legs t) fun t' => Grows NotReceived t t' ∧
      (∀ leg ∈ legs, Recorded t' leg.entry ∧
        (audited = true → ∀ a ∈ leg.audit, t'.logged a.outpoint a.event = true)) ∧
      (Balanced own x t → Balanced own x t') := by
  induction legs generalizing t with
  | nil => exact Yields.ok_iff.2 ⟨.refl, fun _ h => absurd h not_mem_nil, id⟩
  | cons leg legs ih =>
    have hleg := hlegs leg mem_cons_self
    refine .bind (auditSweepLeg_yields hleg hx) ?_
    rintro t₁ ⟨hg₁, hl, hb₁⟩
    refine .bind (insertLedgerEntry_yields hleg.notReceived hleg.identified) ?_
    rintro t₂ ⟨hf₂, hrec⟩
    refine (ih (fun l hl => hlegs l (mem_cons_of_mem _ hl)) t₂).imp ?_
    rintro t' ⟨hg₃, hall, hb₃⟩
    refine ⟨hg₁.trans (hf₂.toGrows.trans hg₃), ?_, fun h => hb₃ ((hb₁ h).frames hf₂)⟩
    intro l hl'
    rcases mem_cons.1 hl' with rfl | hmem
    · refine ⟨hrec.grows hg₃, fun ha a h => ?_⟩
      exact hg₃.logged (hf₂.toGrows.logged (hl ha a h))
    · exact hall l hmem

theorem BoardingSweepConfirmedMsg.created_own (hm : (Msg.boardingSweepConfirmed m).Agrees own)
    (h : m.created audited = some op) :
    own op = true := by
  unfold created at h
  split at h
  · cases h
  next hne =>
  obtain rfl := Option.some_inj.1 h
  refine hm.resolve_left fun hext => hne ?_
  rw [hext, Bool.true_or]

theorem handleBoardingSweepConfirmed_accepted (hm : (Msg.boardingSweepConfirmed m).Agrees own) :
    Yields (handleBoardingSweepConfirmed now t audited m)
      (Accepted own audited t (.boardingSweepConfirmed m)) := by
  refine Yields.seq fun _ => Yields.seq fun _ => .ite (fun _ => .throw) fun _ =>
    Yields.seq fun _ => ?_
  refine .bind (insertSweepLegs_yields (fun _ => boardingSweepLegs_sound)
    (fun _ => BoardingSweepConfirmedMsg.created_own hm) t) ?_
  rintro t₁ ⟨hg, hall, hb⟩
  have settled : Settled audited t₁ (.boardingSweepConfirmed m) := by
    intro leg hleg
    have hat : leg.at now ∈ boardingSweepLegs now m := by
      rw [boardingSweepLegs_at]
      exact mem_map_of_mem hleg
    obtain ⟨hrec, hl⟩ := hall _ hat
    refine ⟨hrec.congr rfl, fun ha a h => ?_⟩
    exact hl ha { a with createdAt := now } (by rw [SweepLeg.at, h]; rfl)
  refine .ite (fun hnone => ?_) fun hsome => ?_
  · rw [BoardingSweepConfirmedMsg.created, if_pos hnone] at hb
    exact Yields.pure_iff.2 ⟨hg, fun _ => settled, hb⟩
  rw [BoardingSweepConfirmedMsg.created, if_neg hsome] at hb
  refine reverseIfDepositFunded_yields.imp ?_
  rintro t' ⟨hf, hrev⟩
  exact ⟨hg.trans hf.toGrows, fun _ => settled.grows hf.toGrows,
    fun h => ((hb h.except).frames hf).close fun _ => hrev⟩

theorem receive_accepted {m : Msg} (hm : m.Agrees own) :
    Yields (receive now t audited m) (Accepted own audited t m) := by
  cases m with
  | restart => exact Yields.ok_iff.2 (.of_frames .refl fun _ => trivial)
  | feePaid m => exact handleFeePaid_accepted
  | vtxoReceived m => exact handleVTXOReceived_accepted
  | vtxoSent m => exact handleVTXOSent_accepted
  | exitCost m => exact handleExitCost_accepted
  | utxoCreated m => exact handleUTXOCreated_accepted hm
  | utxoSpent m => exact handleUTXOSpent_accepted
  | boardingSweepConfirmed m => exact handleBoardingSweepConfirmed_accepted hm

end Accepted

section Idle

theorem Recorded.idle (h : Recorded t e) (hp : e'.payload = e.payload) :
    Yields (t.insertLedgerEntry e') (· = t) := by
  rw [h.insert hp]
  exact Yields.ok_iff.2 rfl

theorem insertSweepLegs_idle {legs : List SweepLeg}
    (h : ∀ leg ∈ legs, Recorded t leg.entry ∧
      (audited = true → ∀ a ∈ leg.audit, t.logged a.outpoint a.event = true)) :
    Yields (insertSweepLegs audited (legs.map (.at now)) t) (· = t) := by
  induction legs with
  | nil => exact Yields.ok_iff.2 rfl
  | cons leg legs ih =>
    obtain ⟨hrec, hl⟩ := h leg mem_cons_self
    have haudit : Yields (auditSweepLeg audited (leg.at now) t) (· = t) := by
      unfold auditSweepLeg
      split
      · next a ha =>
        obtain ⟨a₀, ha₀, rfl⟩ := Option.map_eq_some_iff.1 ha
        refine .ite (fun haud t' => ?_) fun _ => Yields.ok_iff.2 rfl
        exact insertUTXOAuditEntry_of_logged (hl haud a₀ ha₀)
      · exact Yields.ok_iff.2 rfl
    refine .bind haudit ?_
    rintro _ rfl
    refine .bind (hrec.idle rfl) ?_
    rintro _ rfl
    exact ih fun l hl => h l (mem_cons_of_mem _ hl)

theorem Settled.idle {m : Msg} (h : Settled audited t m) (hb : Balanced own none t)
    (hm : m.Agrees own) : Yields (receive now t audited m) (· = t) := by
  cases m with
  | restart => exact Yields.ok_iff.2 rfl
  | feePaid m =>
    obtain ⟨e, he, hrec⟩ := h
    refine Yields.seq fun _ => .bind (fun e' he' => he') fun e' he' => ?_
    obtain ⟨-, -, e₀, he₀, hpay⟩ := feeEntry_ok he'
    cases he.symm.trans he₀
    exact hrec.idle hpay
  | vtxoReceived m =>
    refine Yields.seq fun _ => Yields.seq fun _ => ?_
    rw [if_pos (show t.hasEntryForKey _ _ = true from h)]
    exact Yields.pure_iff.2 rfl
  | vtxoSent m =>
    refine Yields.seq fun _ => ?_
    split
    · exact Yields.error
    · exact Yields.error
    split
    · exact Yields.error
    · next key hown hkey =>
      refine .bind (h.1.idle rfl) ?_
      rintro _ rfl
      exact (h.2 key hown hkey).idle rfl
    · exact h.1.idle rfl
  | exitCost m =>
    refine .ite (fun _ => .throw) fun _ => ?_
    refine .ite (fun _ => .throw) fun _ => ?_
    refine .bind (h.1.idle rfl) ?_
    rintro _ rfl
    refine .bind (h.2.1.idle rfl) ?_
    rintro _ rfl
    exact .ite (fun hown => (h.2.2 hown).idle rfl) fun _ => Yields.pure_iff.2 rfl
  | utxoCreated m =>
    refine .ite (fun _ => Yields.pure_iff.2 rfl) fun ha => Yields.seq fun _ => ?_
    obtain ⟨hl, hrec, hf⟩ := h (by simpa using ha)
    have hcredit : Yields (creditCreated now t m) (· = t) :=
      .ite (fun _ => Yields.ok_iff.2 rfl) fun hc => (hrec (Bool.eq_false_iff.2 hc)).idle rfl
    refine .bind (P := (· = t)) (fun t' => insertUTXOAuditEntry_of_logged hl) ?_
    rintro _ rfl
    refine .bind hcredit ?_
    rintro _ rfl
    refine .ite (fun hd => bookDepositFunding_idle hb (hf hd)) fun _ => ?_
    refine .ite (fun hown => ?_) fun _ => Yields.pure_iff.2 rfl
    exact reverseIfDepositFunded_idle hb (hown ▸ hm.symm) hl
  | utxoSpent m =>
    refine .ite (fun _ => Yields.pure_iff.2 rfl) fun ha => ?_
    obtain ⟨hl, hrec⟩ := h (by simpa using ha)
    have haudit : Yields (t.insertUTXOAuditEntry ⟨m.outpoint, m.amountSat, .spent, m.blockHeight,
        m.classification, now⟩) (· = t) := fun _ => insertUTXOAuditEntry_of_logged hl
    refine .ite (fun hc => Yields.seq fun _ => .bind haudit ?_) fun _ => haudit
    rintro _ rfl
    exact (hrec hc).idle rfl
  | boardingSweepConfirmed m =>
    refine Yields.seq fun _ => Yields.seq fun _ => .ite (fun _ => .throw) fun _ =>
      Yields.seq fun _ => ?_
    rw [boardingSweepLegs_at]
    refine .bind (insertSweepLegs_idle h) ?_
    rintro _ rfl
    refine .ite (fun _ => Yields.pure_iff.2 rfl) fun hne => ?_
    obtain ⟨hext, haud⟩ : m.destinationExternal = false ∧ audited = true := by simpa using hne
    have hleg : sweepDestinationLeg 0 m ∈ boardingSweepLegs 0 m := by simp [boardingSweepLegs]
    have hl := (h _ hleg).2 haud
    simp only [sweepDestinationLeg, hext] at hl
    exact reverseIfDepositFunded_idle hb (hm.resolve_left (by simp [hext])) (hl _ rfl)

end Idle

section Runs

/-- The deliveries of a run without those of messages that it has accepted before. -/
def firsts (audited : Bool) : Tables → List Msg → List Delivery → List Delivery
  | _, _, [] => []
  | t, done, d :: ds =>
    if d.msg ∈ done then firsts audited (deliver audited t d) done ds
    else d :: firsts audited (deliver audited t d)
      (if accepted audited t d then d.msg :: done else done) ds

def Tables.receivedRows (t : Tables) (op : Outpoint) : List LedgerEntry :=
  t.entries.filter fun e =>
    e.eventType = .vtxoReceived ∧ e.chainTxid = some op.hash ∧ e.chainVout = some op.index

theorem balanced_empty : Balanced own none {} := ⟨nofun, nofun⟩

theorem deliver_of_yields {Q : Tables → Prop} (h : Yields (receive d.now t audited d.msg) Q)
    (hQ : Q t) : Q (deliver audited t d) := by
  unfold deliver
  split
  · next t' ht' => exact h t' ht'
  · exact hQ

theorem deliveries_firsts (hds : ∀ d ∈ ds, d.msg.Identified ∧ d.msg.Agrees own)
    (hb : Balanced own none t) (hdone : ∀ m ∈ done, Settled audited t m) :
    deliveries audited t (firsts audited t done ds) = deliveries audited t ds := by
  induction ds generalizing t done with
  | nil => rfl
  | cons d ds ih =>
    obtain ⟨hid, hm⟩ := hds d mem_cons_self
    have hrest := fun d' hd' => hds d' (mem_cons_of_mem d hd')
    unfold firsts
    split
    · next hmem =>
      have hidle : deliver audited t d = t :=
        deliver_of_yields (Q := (· = t)) ((hdone _ hmem).idle hb hm) rfl
      rw [hidle, ih hrest hb hdone]
      simp [deliveries, hidle]
    · simp only [deliveries, foldl_cons]
      refine ih hrest ?_ ?_
      · exact deliver_of_yields ((receive_accepted hm).imp fun _ h => h.balanced hb) hb
      intro m hmem
      unfold accepted deliver at *
      split at hmem
      · next t' ht' =>
        have hacc := receive_accepted hm t' ht'
        rcases mem_cons.1 hmem with rfl | hmem
        · exact hacc.settled hid
        · exact (hdone m hmem).grows hacc.grows
      · exact hdone m hmem

/-- No output has two receive rows, and each of them carries the key of its output. -/
structure ReceivedOnce (t : Tables) : Prop where
  keyed : ∀ op, ∀ e ∈ t.receivedRows op, e.idempotencyKey = some (walletUTXOIdempotencyKey op)
  once : ∀ op, (t.receivedRows op).length ≤ 1

theorem ReceivedOnce.grows (h : ReceivedOnce t) (hg : Grows NotReceived t t') :
    ReceivedOnce t' := by
  obtain ⟨new, hnew, hp⟩ := hg.entries
  have hrows : ∀ op, t'.receivedRows op = t.receivedRows op := by
    intro op
    simp only [Tables.receivedRows, hnew, filter_append]
    rw [append_right_eq_self, filter_eq_nil_iff]
    intro e he hrow
    exact hp e he (of_decide_eq_true hrow).1
  exact ⟨fun op => hrows op ▸ h.keyed op, fun op => hrows op ▸ h.once op⟩

theorem receivedRows_append : ({ t with entries := t.entries ++ [e] } : Tables).receivedRows op =
    t.receivedRows op ++ if e.eventType = .vtxoReceived ∧ e.chainTxid = some op.hash ∧
      e.chainVout = some op.index then [e] else [] := by
  simp [Tables.receivedRows, filter_append, filter_singleton]

theorem ReceivedOnce.received {m : VTXOReceivedMsg} (h : ReceivedOnce t) :
    Yields (handleVTXOReceived now t m) ReceivedOnce := by
  refine Yields.seq fun _ => Yields.seq fun credit => .ite (fun _ => ?_) fun hk t' hok => ?_
  · exact Yields.pure_iff.2 h
  obtain ⟨rfl | rfl, -⟩ := insertLedgerEntry_ok hok
  · exact h
  have hnone : t.receivedRows m.outpoint = [] := by
    -- an earlier row of this output would have been found under its key
    by_contra hne
    obtain ⟨w, hw⟩ := exists_mem_of_ne_nil _ hne
    have hrow := mem_filter.1 hw
    refine hk (any_eq_true.2 ⟨w, hrow.1, decide_eq_true ⟨h.keyed _ w hw, ?_⟩⟩)
    exact (of_decide_eq_true hrow.2).1
  refine ⟨fun op e he => ?_, fun op => ?_⟩
  · rw [receivedRows_append] at he
    rcases mem_append.1 he with he | he
    · exact h.keyed op e he
    obtain ⟨⟨-, hhash, hindex⟩, he⟩ := mem_ite_nil_right.1 he
    rw [mem_singleton.1 he, ← show m.outpoint = op from
      outpoint_ext (Option.some_inj.1 hhash) (Option.some_inj.1 hindex)]
    rfl
  · rw [receivedRows_append]
    by_cases hop : op = m.outpoint
    · subst hop
      rw [hnone, nil_append, apply_ite length]
      exact (ite_le_sup _ _ _).trans (Nat.le_refl 1)
    rw [if_neg, append_nil]
    · exact h.once op
    · rintro ⟨-, hhash, hindex⟩
      exact hop (outpoint_ext (Option.some_inj.1 hhash) (Option.some_inj.1 hindex)).symm

theorem ReceivedOnce.receive {m : Msg} (h : ReceivedOnce t) :
    Yields (receive now t audited m) ReceivedOnce := by
  have other : m.Writes = NotReceived → Yields (Ledger.receive now t audited m) ReceivedOnce := by
    intro hw
    obtain ⟨own, hown⟩ : ∃ own, m.Agrees own := by
      cases m with
      | utxoCreated m => exact ⟨fun _ => isOwnWalletProceeds m.classification, rfl⟩
      | boardingSweepConfirmed m => exact ⟨fun _ => true, .inr rfl⟩
      | _ => exact ⟨fun _ => true, trivial⟩
    exact (receive_accepted hown).imp fun t' hacc => h.grows (hw ▸ hacc.grows)
  cases m with
  | vtxoReceived m => exact h.received
  | _ => exact other rfl

theorem deliveries_receivedOnce (h : ReceivedOnce t) : ReceivedOnce (deliveries audited t ds) := by
  induction ds generalizing t with
  | nil => exact h
  | cons d ds ih => exact ih (deliver_of_yields h.receive h)

/-- Redeliveries of accepted messages leave every balance as the first deliveries alone have
it, if every boarding or refresh fee names a round and the messages agree on which outputs
are our own proceeds; and no output is received twice. -/
theorem redelivery_keeps_balances (audited : Bool) (ds : List Delivery) :
    (∀ own, (∀ d ∈ ds, d.msg.Identified ∧ d.msg.Agrees own) →
      ∀ account, (deliveries audited {} ds).accountBalance account =
        (deliveries audited {} (firsts audited {} [] ds)).accountBalance account) ∧
    ∀ op, ((deliveries audited {} ds).receivedRows op).length ≤ 1 := by
  refine ⟨fun own hds account => ?_, fun op => ?_⟩
  · rw [deliveries_firsts hds balanced_empty fun _ h => absurd h not_mem_nil]
  · have hempty : ReceivedOnce {} := ⟨fun _ _ h => absurd h not_mem_nil, fun _ => Nat.zero_le 1⟩
    exact (deliveries_receivedOnce hempty).once op

def unnamedFeeTwice : List Delivery :=
  [⟨1, .feePaid { amountSat := 100, feeType := .boarding }⟩,
    ⟨2, .feePaid { amountSat := 100, feeType := .boarding }⟩]

def exampleOutpoint (b : UInt8) : Outpoint := ⟨.lastByte 31 b, 0⟩

def exampleCreated (c : Classification) : Msg :=
  .utxoCreated { outpoint := exampleOutpoint 1, amountSat := 700, classification := c }

def exampleDeposit : Msg :=
  .utxoCreated { outpoint := exampleOutpoint 2, amountSat := 600, classification := .deposit,
                 fundingInputs := [exampleOutpoint 1] }

/-- An output that is first reported without a classification and then as exit proceeds, a
deposit that spends it, and the second report again. -/
def reclassifiedAgain : List Delivery :=
  [⟨1, exampleCreated .unknown⟩, ⟨2, exampleCreated .exitProceeds⟩, ⟨3, exampleDeposit⟩,
    ⟨4, exampleCreated .exitProceeds⟩]

/-- The row of a fee without a round has no identity, and the deposit looks at the logged
classification where the redelivery looks at its own. -/
theorem redelivery_changes_balances :
    ((deliveries true {} unnamedFeeTwice).accountBalance .feesPaid = 200 ∧
      (deliveries true {} (firsts true {} [] unnamedFeeTwice)).accountBalance .feesPaid = 100) ∧
    (deliveries true {} reclassifiedAgain).accountBalance .walletBalance = 600 ∧
      (deliveries true {} (firsts true {} [] reclassifiedAgain)).accountBalance .walletBalance =
        1300 := by
  decide +kernel

/-- The output is reported once more as it was, before and after the deposit. -/
def reportedAgain : List Delivery :=
  [⟨1, exampleCreated .exitProceeds⟩, ⟨2, exampleCreated .exitProceeds⟩, ⟨3, exampleDeposit⟩,
    ⟨4, exampleCreated .exitProceeds⟩, ⟨5, exampleDeposit⟩]

theorem reportedAgain_keeps_balances :
    (deliveries true {} reportedAgain).accountBalance .walletBalance =
      (deliveries true {} (firsts true {} [] reportedAgain)).accountBalance .walletBalance ∧
    firsts true {} [] reportedAgain = [⟨1, exampleCreated .exitProceeds⟩, ⟨3, exampleDeposit⟩] := by
  refine ⟨(redelivery_keeps_balances true reportedAgain).1
    (fun op => op = exampleOutpoint 1) ?_ .walletBalance, by decide +kernel⟩
  have hcreated : (exampleCreated .exitProceeds).Agrees (fun op => op = exampleOutpoint 1) := rfl
  have hdeposit : exampleDeposit.Agrees (fun op => op = exampleOutpoint 1) := by
    change false = decide (exampleOutpoint 2 = exampleOutpoint 1)
    decide
  simp only [reportedAgain, mem_cons, not_mem_nil, or_false]
  rintro d (rfl | rfl | rfl | rfl | rfl)
  exacts [⟨trivial, hcreated⟩, ⟨trivial, hcreated⟩, ⟨trivial, hdeposit⟩, ⟨trivial, hcreated⟩,
    ⟨trivial, hdeposit⟩]

end Runs

end Wavelength.Ledger
