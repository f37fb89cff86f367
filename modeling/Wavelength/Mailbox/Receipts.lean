import Mathlib.Data.List.Basic
import Mathlib.Tactic.Common
import Wavelength.Mailbox.Store

/-! # Ingress receipts

An enqueue that carries the identity of a network event consumes it in the
transaction of the insert. Until the receipt runs out, a repeat is answered from
the digest in the receipt and inserts nothing. Instants are in nanoseconds; a
receipt keeps whole seconds.
-/

namespace Wavelength.Mailbox

def unix (instant : ℤ) : ℤ := instant / 1000000000

def ingressReceiptRetention : ℤ := 30 * 24 * 3600 * 1000000000

structure Receipt where
  id : String
  payloadHash : List UInt8
  mailboxId : MailboxId
  consumedAt : ℤ
  expiresAt : ℤ

structure Inbox where
  store : Store
  receipts : Table Receipt Receipt.id

inductive EnqueueError
  | mismatch (id : String)
  | noRows
  | insertFailed

def decimal (n : ℕ) : List UInt8 := (Nat.toDigits 10 n).map Char.toUInt8

def typeBytes (m : Row) : List UInt8 := m.messageType.toByteArray.data.toList

/-- The text under the digest. The length before the type keeps the type from
running into the payload. -/
def receiptText (m : Row) : List UInt8 :=
  decimal (typeBytes m).length ++ ':'.toUInt8 :: (typeBytes m ++ m.payload)

/-- Insert the receipt, or let it replace one that has run out. -/
def admitIngressReceipt (t : Table Receipt Receipt.id) (r : Receipt) :
    Table Receipt Receipt.id × ℕ :=
  match t.get? r.id with
  | none => (t.put r, 1)
  | some old => if old.expiresAt ≤ r.consumedAt then (t.put r, 1) else (t, 0)

/-- The expired receipts among `ids` go; the order and the limit of the query
decide which those are. -/
def pruneIngressReceipts (t : Table Receipt Receipt.id) (ids : List String) (now : ℤ) :
    Table Receipt Receipt.id :=
  t.filter fun r => ¬ (r.id ∈ ids ∧ r.expiresAt ≤ now)

section Sha256

variable (sha256 : List UInt8 → List UInt8)

def newReceipt (id : String) (m : Row) (now : ℤ) : Receipt where
  id := id
  payloadHash := sha256 (receiptText m)
  mailboxId := m.mailboxId
  consumedAt := unix now
  expiresAt := unix (now + ingressReceiptRetention)

/-- An empty identity is none. -/
def ingressReceiptFromContext : Option String → Option String
  | none => none
  | some id => if id = "" then none else some id

def admitIngressDelivery (t : Table Receipt Receipt.id) (id? : Option String) (m : Row) (now : ℤ) :
    Except EnqueueError (Table Receipt Receipt.id × Bool) :=
  match ingressReceiptFromContext id? with
  | none => .ok (t, true)
  | some id =>
    let (t', count) := admitIngressReceipt t (newReceipt sha256 id m now)
    if count ≠ 0 then .ok (t', true)
    else match t'.get? id with
      | none => .error .noRows
      | some receipt =>
        if receipt.payloadHash = sha256 (receiptText m) then .ok (t', false)
        else .error (.mismatch id)

/-- The transaction of an enqueue; it also reports whether the message was
accepted. An error rolls both tables back. -/
def enqueueMessage (s : Inbox) (id? : Option String) (m : Row) (now : ℤ) (fault : Bool) :
    Except EnqueueError (Inbox × Bool) := do
  let (receipts, accepted) ← admitIngressDelivery sha256 s.receipts id? m now
  if !accepted then return (⟨s.store, receipts⟩, false)
  if fault then throw .insertFailed
  return (⟨s.store.enqueueMailboxMessage { m with createdAt := unix now }, receipts⟩, true)

/-- The tables under a clock, with the accepted enqueues: identity, message and
second of each, the latest first. -/
structure Clocked where
  inbox : Inbox
  now : ℤ
  consumed : List (String × Row × ℤ)

inductive ReceiptEvent
  | enqueue (id? : Option String) (m : Row) (fault : Bool)
  | advance (d : ℕ)
  | prune (ids : List String)
  /-- Consumers change the mailbox tables; none of them touches a receipt. -/
  | work (store : Store)

def Clocked.step (s : Clocked) : ReceiptEvent → Clocked
  | .enqueue id? m fault =>
    match enqueueMessage sha256 s.inbox id? m s.now fault with
    | .error _ => s
    | .ok (inbox, accepted) =>
      { s with
        inbox
        consumed := if accepted then (id?.getD "", m, unix s.now) :: s.consumed else s.consumed }
  | .advance d => { s with now := s.now + d }
  | .prune ids => { s with inbox.receipts := pruneIngressReceipts s.inbox.receipts ids (unix s.now) }
  | .work store => { s with inbox.store := store }

def Clocked.run (s : Clocked) (es : List ReceiptEvent) : Clocked := es.foldl (Clocked.step sha256) s

def Clocked.start (store : Store) (now : ℤ) : Clocked := ⟨⟨store, .empty⟩, now, []⟩

end Sha256

theorem digit_toUInt8 (hc : c ∈ Nat.toDigits 10 n) : c.toUInt8.toNat = c.toNat ∧ c.toNat < 58 := by
  have hdigit := Nat.isDigit_of_mem_toDigits (by decide) (by decide) hc
  simp only [Char.isDigit, Bool.and_eq_true, decide_eq_true_eq, UInt32.le_iff_toNat_le] at hdigit
  have hlt : c.toNat < 58 := Nat.lt_succ_of_le hdigit.2
  refine ⟨?_, hlt⟩
  simp only [Char.toUInt8, UInt32.toNat_toUInt8]
  exact Nat.mod_eq_of_lt (Nat.lt_trans hlt (by decide))

theorem ofDigitChars_decimal (n : ℕ) :
    Nat.ofDigitChars 10 ((decimal n).map fun b => Char.ofNat b.toNat) 0 = n := by
  have hmap : (decimal n).map (fun b => Char.ofNat b.toNat) = Nat.toDigits 10 n := by
    rw [decimal, List.map_map]
    nth_rewrite 2 [← List.map_id (Nat.toDigits 10 n)]
    refine List.map_congr_left fun c hc => ?_
    rw [Function.comp_apply, (digit_toUInt8 hc).1, Char.ofNat_toNat, id]
  rw [hmap, Nat.ofDigitChars_ten_toDigits]

theorem takeWhile_receiptText (m : Row) :
    (receiptText m).takeWhile (· < ':'.toUInt8) = decimal (typeBytes m).length := by
  rw [receiptText, List.takeWhile_append_of_pos, List.takeWhile_cons_of_neg (by simp), List.append_nil]
  intro b hb
  obtain ⟨c, hc, rfl⟩ := List.mem_map.1 hb
  obtain ⟨htoNat, hlt⟩ := digit_toUInt8 hc
  rw [decide_eq_true_eq, UInt8.lt_iff_toNat_lt, htoNat]
  exact hlt

/-- Two messages under one text have one type and one payload. -/
theorem receiptText_inj (h : receiptText m = receiptText m') :
    m.messageType = m'.messageType ∧ m.payload = m'.payload := by
  have hdecimal : decimal (typeBytes m).length = decimal (typeBytes m').length := by
    rw [← takeWhile_receiptText, h, takeWhile_receiptText]
  have hlength : (typeBytes m).length = (typeBytes m').length := by
    rw [← ofDigitChars_decimal (typeBytes m).length, hdecimal, ofDigitChars_decimal]
  rw [receiptText, receiptText, hdecimal, List.append_cancel_left_eq, List.cons.injEq] at h
  obtain ⟨htype, hpayload⟩ := List.append_inj h.2 hlength
  refine ⟨String.toByteArray_inj.1 (ByteArray.ext (Array.toList_inj.1 htype)), hpayload⟩

section Retention

variable {sha256 : List UInt8 → List UInt8} {id : String} {m : Row} {now : ℤ} {fault : Bool}
  {s : Clocked}

theorem unix_add_retention : unix (now + ingressReceiptRetention) =
    unix now + unix ingressReceiptRetention := by
  unfold unix ingressReceiptRetention
  omega

/-- No receipt, or one that has run out: the identity is consumed anew. -/
theorem admitIngressDelivery_fresh (hid : id ≠ "")
    (h : ∀ r ∈ t.get? id, r.expiresAt ≤ unix now) :
    admitIngressDelivery sha256 t (some id) m now =
      .ok (t.put (newReceipt sha256 id m now), true) := by
  have hadmit : admitIngressReceipt t (newReceipt sha256 id m now) =
      (t.put (newReceipt sha256 id m now), 1) := by
    cases hr : t.get? id with
    | none => simp [admitIngressReceipt, newReceipt, hr]
    | some r => simp [admitIngressReceipt, newReceipt, hr, h r hr]
  simp [admitIngressDelivery, ingressReceiptFromContext, hid, hadmit]

/-- A receipt that still counts answers a repeat by its digest. -/
theorem admitIngressDelivery_held (hid : id ≠ "") (hr : t.get? id = some r)
    (h : unix now < r.expiresAt) :
    admitIngressDelivery sha256 t (some id) m now =
      if r.payloadHash = sha256 (receiptText m) then .ok (t, false) else .error (.mismatch id) := by
  have hadmit : admitIngressReceipt t (newReceipt sha256 id m now) = (t, 0) := by
    simp [admitIngressReceipt, newReceipt, hr, Int.not_le.2 h]
  simp [admitIngressDelivery, ingressReceiptFromContext, hid, hadmit, hr]

def Clocked.accept (s : Clocked) (id : String) (m : Row) (t : Table Receipt Receipt.id) : Clocked where
  inbox := ⟨s.inbox.store.enqueueMailboxMessage { m with createdAt := unix s.now }, t⟩
  now := s.now
  consumed := (id, m, unix s.now) :: s.consumed

theorem step_unmarked (hid : id?.getD "" = "") :
    s.step sha256 (.enqueue id? m fault) =
      if fault then s else s.accept "" m s.inbox.receipts := by
  have hnone : ingressReceiptFromContext id? = none := by
    cases id? <;> simp_all [ingressReceiptFromContext]
  cases fault <;> simp [Clocked.step, enqueueMessage, admitIngressDelivery, hnone, hid] <;> rfl

theorem step_fresh (hid : id ≠ "") (h : ∀ r ∈ s.inbox.receipts.get? id, r.expiresAt ≤ unix s.now) :
    s.step sha256 (.enqueue (some id) m fault) = if fault then s else
      s.accept id m (s.inbox.receipts.put (newReceipt sha256 id m s.now)) := by
  cases fault <;> simp [Clocked.step, enqueueMessage, admitIngressDelivery_fresh hid h] <;> rfl

theorem step_held (hid : id ≠ "") (hr : s.inbox.receipts.get? id = some r)
    (h : unix s.now < r.expiresAt) : s.step sha256 (.enqueue (some id) m fault) = s := by
  rw [Clocked.step, enqueueMessage, admitIngressDelivery_held hid hr h]
  by_cases hhash : r.payloadHash = sha256 (receiptText m)
  · rw [if_pos hhash]
    rfl
  · rw [if_neg hhash]
    rfl

structure Retained (sha256 : List UInt8 → List UInt8) (s : Clocked) : Prop where
  kept : ∀ id m sec, (id, m, sec) ∈ s.consumed → id ≠ "" →
    unix s.now < sec + unix ingressReceiptRetention →
    ∃ r, s.inbox.receipts.get? id = some r ∧ r.payloadHash = sha256 (receiptText m) ∧
      r.expiresAt = sec + unix ingressReceiptRetention
  known : ∀ id, ∀ r ∈ s.inbox.receipts.get? id,
    ∃ m sec, (id, m, sec) ∈ s.consumed ∧ r.expiresAt = sec + unix ingressReceiptRetention
  spaced : s.consumed.Pairwise fun new old => new.1 = old.1 → new.1 ≠ "" →
    old.2.2 + unix ingressReceiptRetention ≤ new.2.2

theorem unix_le (d : ℕ) : unix now ≤ unix (now + d) := by
  unfold unix
  omega

/-- An enqueue changes nothing, or is accepted: without an identity, or with one
that no receipt holds. -/
theorem step_enqueue (id? : Option String) : s.step sha256 (.enqueue id? m fault) = s ∨
    s.step sha256 (.enqueue id? m fault) = s.accept "" m s.inbox.receipts ∨
    ∃ id, id ≠ "" ∧ (∀ r ∈ s.inbox.receipts.get? id, r.expiresAt ≤ unix s.now) ∧
      s.step sha256 (.enqueue id? m fault) =
        s.accept id m (s.inbox.receipts.put (newReceipt sha256 id m s.now)) := by
  by_cases hid : id?.getD "" = ""
  · rw [step_unmarked hid]
    cases fault <;> simp
  obtain ⟨id, rfl⟩ : ∃ id, id? = some id := by cases id? <;> simp_all
  by_cases h : ∀ r ∈ s.inbox.receipts.get? id, r.expiresAt ≤ unix s.now
  · cases fault with
    | true => exact .inl (step_fresh hid h)
    | false => exact .inr (.inr ⟨id, hid, h, step_fresh hid h⟩)
  · simp only [not_forall, Int.not_le] at h
    obtain ⟨r, hr, hlt⟩ := h
    exact .inl (step_held hid hr hlt)

theorem Retained.step (h : Retained sha256 s) (e : ReceiptEvent) :
    Retained sha256 (s.step sha256 e) := by
  cases e with
  | enqueue id? m fault =>
    obtain heq | heq | ⟨id, hid, hfresh, heq⟩ := step_enqueue id?
    · rwa [heq]
    · rw [heq]
      refine ⟨fun id m' sec hmem hid => ?_, fun id r hr => ?_, List.pairwise_cons.2 ⟨?_, h.spaced⟩⟩
      · obtain heq | hmem := List.mem_cons.1 hmem
        · exact absurd (congrArg Prod.fst heq) hid
        · exact h.kept id m' sec hmem hid
      · obtain ⟨m', sec, hmem, hsec⟩ := h.known id r hr
        exact ⟨m', sec, List.mem_cons_of_mem _ hmem, hsec⟩
      · intro old _ _ hne
        exact absurd rfl hne
    · have hpast : ∀ m' sec, (id, m', sec) ∈ s.consumed →
          sec + unix ingressReceiptRetention ≤ unix s.now := by
        intro m' sec hmem
        by_contra hlt
        obtain ⟨r, hr, -, hsec⟩ := h.kept id m' sec hmem hid (Int.not_le.1 hlt)
        exact hlt (hsec ▸ hfresh r hr)
      rw [heq]
      refine ⟨fun id' m' sec hmem hid' hlt => ?_, fun id' r hr => ?_,
        List.pairwise_cons.2 ⟨fun old hold hsame _ => ?_, h.spaced⟩⟩
      · obtain heq | hold := List.mem_cons.1 hmem
        · cases heq
          exact ⟨_, Table.get?_put.trans (if_pos rfl), rfl, unix_add_retention⟩
        obtain ⟨r, hr, hhash⟩ := h.kept id' m' sec hold hid' hlt
        have hne : id' ≠ id := by
          rintro rfl
          exact absurd (hpast m' sec hold) (Int.not_le.2 hlt)
        exact ⟨r, (Table.get?_put.trans (if_neg hne)).trans hr, hhash⟩
      · rw [Clocked.accept, Table.get?_put] at hr
        split at hr
        · next hsame =>
          cases hr
          exact ⟨m, unix s.now, hsame ▸ List.mem_cons_self, unix_add_retention⟩
        · obtain ⟨m', sec, hmem, hsec⟩ := h.known id' r hr
          exact ⟨m', sec, List.mem_cons_of_mem _ hmem, hsec⟩
      · obtain ⟨id', m', sec⟩ := old
        cases hsame
        exact hpast m' sec hold
  | advance d =>
    refine ⟨fun id m sec hmem hid hlt => ?_, h.known, h.spaced⟩
    exact h.kept id m sec hmem hid (Int.lt_of_le_of_lt (unix_le d) hlt)
  | prune ids =>
    refine ⟨fun id m sec hmem hid hlt => ?_, fun id r hr => ?_, h.spaced⟩
    · obtain ⟨r, hr, hhash, hsec⟩ := h.kept id m sec hmem hid hlt
      have hkey := Table.key_of_get? hr
      refine ⟨r, ?_, hhash, hsec⟩
      rw [← hkey]
      refine Table.mem_rows_iff.1 (List.mem_filter.2 ⟨Table.mem_of_get? hr, ?_⟩)
      have : ¬ r.expiresAt ≤ unix s.now := by rw [hsec]; exact Int.not_le.2 hlt
      simp [this]
    · have hmem := List.mem_of_mem_filter (Table.mem_of_get? hr)
      have hkey := Table.key_of_get? hr
      exact h.known id r (hkey ▸ Table.mem_rows_iff.1 hmem)
  | work store => exact ⟨h.kept, h.known, h.spaced⟩

theorem Retained.run (h : Retained sha256 s) : Retained sha256 (s.run sha256 es) := by
  induction es generalizing s with
  | nil => exact h
  | cons e es ih => exact ih (h.step e)

theorem Retained.start : Retained sha256 (.start store now) :=
  ⟨fun _ _ _ => nofun, fun _ _ => nofun, .nil⟩

/-- One identity is consumed at most once in the retention, counted in whole seconds. A repeat
within it changes nothing and is answered by its type and payload; after it the identity is consumed
again. -/
theorem receipts_consumed_once (store : Store) (es : List ReceiptEvent) (hid : id ≠ "")
    (hs : s = (Clocked.start store now).run sha256 es) :
    s.consumed.Pairwise (fun new old => new.1 = old.1 → new.1 ≠ "" →
      old.2.2 + unix ingressReceiptRetention ≤ new.2.2) ∧
    (∀ m₀ sec, (id, m₀, sec) ∈ s.consumed → unix s.now < sec + unix ingressReceiptRetention →
      s.step sha256 (.enqueue (some id) m fault) = s ∧
      (m.messageType = m₀.messageType → m.payload = m₀.payload →
        enqueueMessage sha256 s.inbox (some id) m s.now fault = .ok (s.inbox, false)) ∧
      (¬ (m.messageType = m₀.messageType ∧ m.payload = m₀.payload) →
        enqueueMessage sha256 s.inbox (some id) m s.now fault = .error (.mismatch id) ∨
          receiptText m₀ ≠ receiptText m ∧ sha256 (receiptText m₀) = sha256 (receiptText m))) ∧
    ((∀ m₀ sec, (id, m₀, sec) ∈ s.consumed → sec + unix ingressReceiptRetention ≤ unix s.now) →
      enqueueMessage sha256 s.inbox (some id) m s.now false =
        .ok ((s.step sha256 (.enqueue (some id) m false)).inbox, true) ∧
      (s.step sha256 (.enqueue (some id) m false)).inbox.store =
        s.inbox.store.enqueueMailboxMessage { m with createdAt := unix s.now }) := by
  have h : Retained sha256 s := hs ▸ Retained.start.run
  refine ⟨h.spaced, fun m₀ sec hmem hlt => ?_, fun hpast => ?_⟩
  · obtain ⟨r, hr, hhash, hsec⟩ := h.kept id m₀ sec hmem hid hlt
    have hheld : unix s.now < r.expiresAt := hsec ▸ hlt
    have heq : enqueueMessage sha256 s.inbox (some id) m s.now fault =
        if r.payloadHash = sha256 (receiptText m) then .ok (s.inbox, false)
        else .error (.mismatch id) := by
      rw [enqueueMessage, admitIngressDelivery_held hid hr hheld]
      split <;> rfl
    refine ⟨step_held hid hr hheld, fun htype hpayload => ?_, fun hne => ?_⟩
    · have htext : receiptText m = receiptText m₀ := by
        simp only [receiptText, typeBytes, htype, hpayload]
      rw [heq, if_pos (by rw [hhash, htext])]
    · by_cases hcollide : sha256 (receiptText m₀) = sha256 (receiptText m)
      · exact .inr ⟨fun htext => hne (receiptText_inj htext.symm), hcollide⟩
      · exact .inl (by rw [heq, if_neg (hhash ▸ hcollide)])
  · have hfresh : ∀ r ∈ s.inbox.receipts.get? id, r.expiresAt ≤ unix s.now := by
      intro r hr
      obtain ⟨m₀, sec, hmem, hsec⟩ := h.known id r hr
      exact hsec ▸ hpast m₀ sec hmem
    rw [step_fresh hid hfresh, enqueueMessage, admitIngressDelivery_fresh hid hfresh]
    exact ⟨rfl, rfl⟩

def consumedOnce (now : ℤ) (es : List ReceiptEvent) : Clocked :=
  (Clocked.start .empty now).run (fun text => text)
    (.enqueue (some "a") { id := 1, mailboxId := 0 } false :: es)

theorem receipts_consumed_once_repeat :
    enqueueMessage (fun text => text) (consumedOnce 0 []).inbox (some "a")
      { id := 2, mailboxId := 0 } 0 false = .ok ((consumedOnce 0 []).inbox, false) :=
  ((receipts_consumed_once .empty _ (by decide) rfl).2.1 { id := 1, mailboxId := 0 } 0
    (by decide) (by decide)).2.1 rfl rfl

/-- The seconds of a receipt are whole: its identity is consumed again 0.8 s before
the retention is over. A repeat with the payload but another type is refused. -/
theorem receipt_accepts_early :
    2591999200000000 < ingressReceiptRetention ∧
    (consumedOnce 900000000 [.advance 2591999200000000,
      .enqueue (some "a") { id := 2, mailboxId := 0 } false]).inbox.store.messages.rows.map Row.id =
        [1, 2] ∧
    enqueueMessage (fun text => text) (consumedOnce 0 []).inbox (some "a")
      { id := 2, mailboxId := 0, messageType := "x" } 0 false = .error (.mismatch "a") :=
  ⟨by decide, by decide, rfl⟩

end Retention

end Wavelength.Mailbox
