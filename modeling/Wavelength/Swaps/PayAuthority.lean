import Wavelength.Swaps.PayFunding

/-! # The authority of a payer

What the terms of a payment may take, and what the requests for terms carry. The first request for
a payment hash is stored before it is sent, and one that differs from it is refused.
-/

namespace Wavelength.Swaps

open List

/-! ## The terms -/

/-- The amount in whole satoshis, rounded up. -/
def PayInvoice.sats (invoice : PayInvoice) : ℕ := ((invoice.amountMsat.getD 0).toNat + 999) / 1000

structure Allowed (invoice : PayInvoice) (maxFeeSat maxCreditSat : UInt64) (cfg : InSwapConfig) :
    Prop where
  nonneg : 0 ≤ cfg.amountSat.toInt
  funding : cfg.amountSat.toInt ≤ invoice.sats + maxFeeSat.toNat
  credit : ∀ q ∈ cfg.creditQuote, q.creditAppliedSat ≤ maxCreditSat
  mixed : cfg.settlementType = .mixed → ∃ q ∈ cfg.creditQuote,
    cfg.amountSat.toInt + q.creditAppliedSat.toNat ≤ invoice.sats + maxFeeSat.toNat
  paid : cfg.settlementType = .credit →
    cfg.amountSat.toInt = 0 ∧ cfg.preimageHash = some invoice.paymentHash

theorem validatePayCredit_some (h : validatePayCredit settlement (some q) maxCredit total = true) :
    q.creditAppliedSat ≤ maxCredit ∧ (settlement = .mixed →
      q.arkFundingSat.toNat + q.creditAppliedSat.toNat = total.toNat) := by
  simp only [validatePayCredit, Bool.and_eq_true, decide_eq_true_eq] at h
  obtain ⟨-, ⟨⟨⟨happlied, -⟩, -⟩, -⟩, hlegs⟩ := h
  refine ⟨happlied, ?_⟩
  rintro rfl
  simp only [Bool.and_eq_true, decide_eq_true_eq, beq_iff_eq] at hlegs
  have hle := UInt64.le_of_lt hlegs.1.2
  rw [hlegs.2, UInt64.toNat_sub_of_le _ _ hle]
  exact Nat.sub_add_cancel (UInt64.le_iff_toNat_le.1 hle)

theorem allowed_of_validateInSwapQuote
    (h : validateInSwapQuote invoice maxFee maxCredit cfg = true) :
    Allowed invoice maxFee maxCredit cfg := by
  unfold validateInSwapQuote at h
  cases hmsat : invoice.amountMsat with
  | none => simp [hmsat] at h
  | some msat =>
    simp only [hmsat, Bool.and_eq_true, beq_iff_eq, decide_eq_true_eq] at h
    obtain ⟨⟨-, hhash⟩, ⟨⟨⟨⟨-, hfee⟩, hmax⟩, hsum⟩, hcredit⟩, hamount⟩ := h
    have htotal : (ceilMsatToSat msat + cfg.feeSat).toNat < 2 ^ 63 ∧
        (ceilMsatToSat msat + cfg.feeSat).toNat ≤ invoice.sats + maxFee.toNat := by
      have hsats : (ceilMsatToSat msat).toNat ≤ (msat.toNat + 999) / 1000 := by
        rw [ceilMsatToSat, UInt64.toNat_div, UInt64.toNat_add]
        exact Nat.div_le_div_right (Nat.mod_le _ _)
      rw [UInt64.le_iff_toNat_le] at hfee hsum
      rw [UInt64.toNat_sub_of_le _ _ hmax] at hsum
      rw [UInt64.le_iff_toNat_le] at hmax
      rw [show maxInt64Uint.toNat = 2 ^ 63 - 1 from rfl] at hmax hsum
      rw [UInt64.toNat_add, PayInvoice.sats, hmsat, Option.getD_some]
      omega
    generalize ceilMsatToSat msat + cfg.feeSat = total at hcredit hamount htotal
    have hmixed : cfg.settlementType = .mixed → ∃ q ∈ cfg.creditQuote,
        cfg.amountSat.toUInt64.toNat + q.creditAppliedSat.toNat = total.toNat := by
      intro hst
      simp only [hst, Option.any_eq_true, beq_iff_eq] at hamount
      obtain ⟨q, hq, hark⟩ := hamount
      rw [hst, hq] at hcredit
      exact ⟨q, hq, hark ▸ (validatePayCredit_some hcredit).2 rfl⟩
    have hle : cfg.amountSat.toUInt64.toNat ≤ total.toNat := by
      cases hst : cfg.settlementType with
      | mixed =>
        obtain ⟨q, -, hq⟩ := hmixed hst
        omega
      | _ => simp_all
    have hint : cfg.amountSat.toInt = cfg.amountSat.toUInt64.toNat :=
      BitVec.toInt_eq_toNat_of_lt (show 2 * cfg.amountSat.toUInt64.toNat < 2 ^ 64 by omega)
    refine ⟨by omega, by omega, fun q hq => ?_, fun hst => ?_, fun hst => ?_⟩
    · rw [hq] at hcredit
      exact (validatePayCredit_some hcredit).1
    · obtain ⟨q, hq, heq⟩ := hmixed hst
      exact ⟨q, hq, by omega⟩
    · simp only [hst, Bool.and_eq_true, beq_iff_eq] at hamount
      exact ⟨by simp [hint, hamount.2], hhash ▸ hamount.1⟩

theorem Created.allowed_row (h : Created ans s s') (hr : s'.save = some r) :
    ∃ cfg, r.cfg = cfg.stored ∧ Allowed s.invoice s.maxFeeSat s.maxCreditSat cfg := by
  unfold PaySession.save at hr
  split at hr
  · cases hr
  next cfg hcfg =>
  split at hr
  · cases hr
  cases hr
  exact ⟨cfg, rfl, allowed_of_validateInSwapQuote (h.valid cfg hcfg)⟩

/-! ## The requests -/

/-- The request that a payment hash is bound to. -/
structure PayAuthorization where
  invoice : String
  accountPubkey : PubKey
  maxFeeSat : UInt64
  maxCreditSat : UInt64
  deriving DecidableEq

/-- What a call does next: a query of `authorizePay`, or the request for terms. -/
inductive AuthStage | getAuthorization | getPaySwap | insert | reread | create

structure PayCall where
  hash : PaymentHash
  terms : PayAuthorization
  stage : AuthStage

/-- The stored authorizations, the calls under way and the requests that were sent. -/
structure PayStore where
  authorizations : PaymentHash → Option PayAuthorization := fun _ => none
  calls : List PayCall := []
  requests : List PayCall := []

/-- `swapFound` says whether there is a swap for the hash. A call may fail at any query, and all of
them do in a crash. -/
inductive AuthAction
  | start (terms : PayAuthorization)
  | query (i : ℕ) (swapFound : Bool)
  | fail (i : ℕ)

namespace PayStore

def move (w : PayStore) (i : ℕ) (c : PayCall) (stage : AuthStage) : PayStore :=
  { w with calls := w.calls.set i { c with stage := stage } }

def drop (w : PayStore) (i : ℕ) : PayStore := { w with calls := w.calls.eraseIdx i }

/-- One query of `authorizePay`, between those of other calls, or the request that follows. -/
def authorizePay (w : PayStore) (i : ℕ) (c : PayCall) (swapFound : Bool) : PayStore :=
  match c.stage with
  | .getAuthorization =>
    w.move i c (if (w.authorizations c.hash).isSome then .insert else .getPaySwap)
  | .getPaySwap => if swapFound then w.drop i else w.move i c .insert
  | .insert =>
    { w with
      authorizations := Function.update w.authorizations c.hash
        ((w.authorizations c.hash).or (some c.terms)) }.move i c .reread
  | .reread => if w.authorizations c.hash = some c.terms then w.move i c .create else w.drop i
  | .create => { w.drop i with requests := c :: w.requests }

def step (paymentHash : String → Option PaymentHash) (w : PayStore) : AuthAction → PayStore
  | .start terms =>
    match paymentHash terms.invoice with
    | none => w
    | some hash => { w with calls := ⟨hash, terms, .getAuthorization⟩ :: w.calls }
  | .query i swapFound =>
    match w.calls[i]? with
    | none => w
    | some c => w.authorizePay i c swapFound
  | .fail i => w.drop i

/-- What was stored stays, and what has passed the comparison is what is stored. -/
structure Bound (old : PaymentHash → Option PayAuthorization) (w : PayStore) : Prop where
  kept : ∀ hash terms, old hash = some terms → w.authorizations hash = some terms
  compared : ∀ c ∈ w.calls, c.stage = .create → w.authorizations c.hash = some c.terms
  sent : ∀ c ∈ w.requests, w.authorizations c.hash = some c.terms

namespace Bound

variable {w : PayStore}

theorem drop (h : Bound old w) : Bound old (w.drop i) :=
  { h with compared := fun c hc => h.compared c (mem_of_mem_eraseIdx hc) }

theorem move (h : Bound old w) (hc : stage = .create → w.authorizations c.hash = some c.terms) :
    Bound old (w.move i c stage) := by
  refine { h with compared := fun c' hc' hst => ?_ }
  rcases mem_or_eq_of_mem_set hc' with hc' | rfl
  · exact h.compared c' hc' hst
  · exact hc hst

theorem authorizePay (h : Bound old w) (hc : c ∈ w.calls) :
    Bound old (w.authorizePay i c swapFound) := by
  unfold PayStore.authorizePay
  cases hstage : c.stage with
  | getAuthorization =>
    apply h.move
    split <;> nofun
  | getPaySwap =>
    dsimp only
    split
    · exact h.drop
    · exact h.move nofun
  | insert =>
    have hle : ∀ hash terms, w.authorizations hash = some terms → Function.update w.authorizations
        c.hash ((w.authorizations c.hash).or (some c.terms)) hash = some terms := by
      intro hash terms hterms
      by_cases heq : hash = c.hash
      · subst heq
        simp [hterms]
      · simp [heq, hterms]
    refine Bound.move ⟨fun _ _ hold => hle _ _ (h.kept _ _ hold), fun c' hc' hst => ?_,
      fun c' hc' => hle _ _ (h.sent c' hc')⟩ nofun
    exact hle _ _ (h.compared c' hc' hst)
  | reread =>
    dsimp only
    split
    · next heq => exact h.move fun _ => heq
    · exact h.drop
  | create => exact { h.drop with sent := forall_mem_cons.2 ⟨h.compared c hc hstage, h.sent⟩ }

theorem step (h : Bound old w) : Bound old (w.step paymentHash a) := by
  cases a with
  | start terms =>
    dsimp only [PayStore.step]
    split
    · exact h
    · exact { h with compared := forall_mem_cons.2 ⟨nofun, h.compared⟩ }
  | query i swapFound =>
    dsimp only [PayStore.step]
    split
    · exact h
    · next hc => exact h.authorizePay (mem_of_getElem? hc)
  | fail i => exact h.drop

theorem run {acts : List AuthAction} (h : Bound old w) :
    Bound old (acts.foldl (PayStore.step paymentHash) w) := by
  induction acts generalizing w with
  | nil => exact h
  | cons a acts ih => exact ih h.step

end Bound

end PayStore

/-- A session that leaves its first state has terms that its caller has allowed, as has a row that
is written for it. Every request carries the terms that are stored for its payment hash, and these
stay. -/
theorem pay_within_authority :
    (∀ c ans n s, n.session = some s → s.state = .created →
      let Row (n' : PayNode) := ∀ r, n'.row = some r → n.row = some r ∨
        ∃ cfg, r.cfg = cfg.stored ∧ Allowed s.invoice s.maxFeeSat s.maxCreditSat cfg
      Ensures (· = n) (createSwap c ans)
        (fun _ n' => Row n' ∧ ∃ s' cfg, n'.session = some s' ∧ s'.cfg = some cfg ∧
          Allowed s.invoice s.maxFeeSat s.maxCreditSat cfg)
        fun _ n' => Row n' ∧ n'.session = some s) ∧
    ∀ paymentHash (acts acts' : List AuthAction),
      let w : PayStore := acts.foldl (PayStore.step paymentHash) {}
      (∀ c ∈ w.requests, w.authorizations c.hash = some c.terms) ∧
        ∀ hash terms, w.authorizations hash = some terms →
          (acts'.foldl (PayStore.step paymentHash) w).authorizations hash = some terms := by
  constructor
  · intro c ans n s hs hfresh Row
    refine (createSwap_run hs hfresh).imp (fun _ h => h) ?_ ?_
    · rintro _ n' ⟨-, s', hc, hsession, hrow⟩
      obtain ⟨cfg, hcfg, -⟩ := hc.terms
      refine ⟨fun r hr => ?_, s', cfg, hsession, hcfg, ?_⟩
      · rw [hrow, Option.or_eq_some_iff] at hr
        exact hr.elim (fun hr => .inr (hc.allowed_row hr)) fun hr => .inl hr.2
      · exact allowed_of_validateInSwapQuote (hc.valid cfg hcfg)
    · rintro _ n' ⟨-, hsession, hrow⟩
      refine ⟨fun r hr => ?_, hsession.trans hs⟩
      rcases hrow with hrow | ⟨s', r', hc, hr', hrow⟩
      · exact .inl (hrow ▸ hr)
      · cases hrow.symm.trans hr
        exact .inr (hc.allowed_row hr')
  · intro paymentHash acts acts' w
    have hbound : PayStore.Bound (fun _ => none) w := .run ⟨nofun, nofun, nofun⟩
    refine ⟨hbound.sent, PayStore.Bound.kept (.run ?_)⟩
    exact { hbound with kept := fun _ _ h => h }

end Wavelength.Swaps
