import Wavelength.Mailbox.Effects

/-! # What a step of the pool can do

`StepSpec` says once, for every action, how a step can change a row, a worker's
phase, the processed marks and the issued tokens. The invariants of the pool are
derived from it and do not unfold the step function again.
-/

namespace Wavelength.Mailbox

open List Option

variable {cfg : Config} {s s' : State} {a : Action} {d : Delivery} {p p' : Phase} {now : ℤ}
  {st : Store}

namespace State

@[simp] theorem setPhase_workers : (s.setPhase w p).workers = s.workers.set w p := rfl

theorem setPhase_self (h : s.workers[w]? = some p) : s.setPhase w p = s := by
  have : s.workers.set w p = s.workers := by
    obtain ⟨hlt, rfl⟩ := List.getElem?_eq_some_iff.1 h
    exact set_getElem_self hlt
  rw [setPhase, this]

def Planned (s : State) : Prop :=
  ∀ (w : ℕ) d b p, s.workers[w]? = some (.closing d b p) → p.Sound d b

end State

def Config.claimed (cfg : Config) (m : Row) (token : LeaseToken) (now : ℤ) (promise : Bool) :
    Delivery :=
  if cfg.leaseless then .ofPeekedRow m promise
  else .ofRow (m.lease token (now + cfg.leaseDuration)) promise

@[simp] theorem Config.claimed_id : (cfg.claimed m token now promise).id = m.id := by
  unfold claimed; split <;> rfl

theorem Config.claimed_of_leaseless
    (h : cfg.leaseless = true) : cfg.claimed m token now promise = .ofPeekedRow m promise :=
  if_pos h

theorem Config.claimed_of_leased (h : cfg.leaseless = false) : cfg.claimed m token now promise =
      .ofRow (m.lease token (now + cfg.leaseDuration)) promise :=
  if_neg (by simp [h])

def Phase.live : Phase → Bool
  | claimed _ | running _ false | closing _ false _ => true
  | idle | running _ true | closing _ true _ => false

def Phase.Releasable (cfg : Config) : Phase → Prop
  | running _ _ => cfg.path = .inTx
  | closing _ settled _ => settled = false
  | idle | claimed _ => False

structure Row.SameTerms (m m' : Row) : Prop where
  mailboxId : m'.mailboxId = m.mailboxId
  correlationKey : m'.correlationKey = m.correlationKey
  attempts : m'.attempts = m.attempts
  maxAttempts : m'.maxAttempts = m.maxAttempts

theorem Row.SameTerms.refl (m : Row) : m.SameTerms m := ⟨rfl, rfl, rfl, rfl⟩

theorem Row.SameTerms.extend (m : Row) (leaseUntil : ℤ) : m.SameTerms (m.extend leaseUntil) :=
  ⟨rfl, rfl, rfl, rfl⟩

theorem Row.SameTerms.expire (m : Row) (now : ℤ) : m.SameTerms (m.expire now) := by
  unfold Row.expire
  split
  · exact ⟨rfl, rfl, rfl, rfl⟩
  · exact .refl m

inductive RowStep (cfg : Config) (s : State) (i : MessageId) : Action → Option Row → Prop
  | same (a : Action) : RowStep cfg s i a (s.row i)
  | enqueued (m : Row) : m.id = i → s.row i = none → RowStep cfg s i (.enqueue m) (some m.fresh)
  | leased (w : ℕ) (token : LeaseToken) (promise : Bool) (m : Row) : cfg.leaseless = false →
      s.workers[w]? = some .idle → s.row i = some m →
      m.IsNext s.store.messages.rows cfg.mailboxId s.now → token ∉ s.issued →
      RowStep cfg s i (.claim w i token promise) (some (m.lease token (s.now + cfg.leaseDuration)))
  | expired (m : Row) : s.row i = some m → RowStep cfg s i .expireLeases (some (m.expire s.now))
  | acted (a : Action) (w : ℕ) (p : Phase) (d : Delivery) (m : Row) (r : Option Row) :
      a.worker? = some w → s.workers[w]? = some p → p.delivery? = some d → d.id = i →
      s.row i = some m →
      RowAct (p.Releasable cfg) (s.now + cfg.leaseDuration) d m r → RowStep cfg s i a r

theorem RowStep.of_row_eq (h : r = s.row i) : RowStep cfg s i a r := h ▸ .same a

inductive PhaseStep (cfg : Config) (s : State) (w : ℕ) : Action → Phase → Phase → Prop
  | claimed (id : MessageId) (token : LeaseToken) (promise : Bool) (m : Row) :
      s.row id = some m → m.IsNext s.store.messages.rows cfg.mailboxId s.now →
      (cfg.leaseless = false → token ∉ s.issued) →
      PhaseStep cfg s w (.claim w id token promise) .idle
        (.claimed (cfg.claimed m token s.now promise))
  | ran (lookupFails : Bool) (d : Delivery) : lookupFails = true ∨ d.id ∉ s.store.processed →
      PhaseStep cfg s w (.dedup w lookupFails) (.claimed d) (.running d false)
  | closed (a : Action) (p : Phase) (d : Delivery) (b : Bool) (plan : Plan) :
      p.delivery? = some d → plan.Sound d b → (b = false → p.live = true) →
      PhaseStep cfg s w a p (.closing d b plan)
  | kept (a : Action) (d : Delivery) (c c' : Bool) : (c = true → c' = true) →
      PhaseStep cfg s w a (.running d c) (.running d c')
  | freed (a : Action) (p : Phase) : PhaseStep cfg s w a p .idle

structure StepSpec (cfg : Config) (s : State) (a : Action) (s' : State) : Prop where
  now : s'.now = s.now + a.elapsed
  length : s'.workers.length = s.workers.length
  issued : ∀ t ∈ s.issued, t ∈ s'.issued
  marks : ∀ i ∈ s.store.processed, i ∈ s'.store.processed
  row : ∀ i, RowStep cfg s i a (s'.row i)
  phase : ∀ w, s'.workers[w]? = s.workers[w]? ∨
    ∃ p p', s.workers[w]? = some p ∧ s'.workers[w]? = some p' ∧ PhaseStep cfg s w a p p'
  budget : ∀ w p p' d m, a.worker? = some w → s.workers[w]? = some p → p.delivery? = some d →
    s'.workers[w]? = some p' → p'.live = true → s.row d.id = some m →
    ∃ m', s'.row d.id = some m' ∧ m.SameTerms m'

namespace StepSpec

theorem elapsed_of_worker? (ha : a.worker? = some w) : s.now = s.now + a.elapsed := by
  cases a <;> first | exact (Int.add_zero _).symm | cases ha

theorem setPhase_phase (hw : s.workers[w]? = some p) (hp : PhaseStep cfg s w a p p') (w' : ℕ) :
    (s.workers.set w p')[w']? = s.workers[w']? ∨
      ∃ q q', s.workers[w']? = some q ∧ (s.workers.set w p')[w']? = some q' ∧
        PhaseStep cfg s w' a q q' := by
  by_cases h : w = w'
  · subst h
    have hlt : w < s.workers.length := (List.getElem?_eq_some_iff.1 hw).1
    exact .inr ⟨p, p', hw, by simp [hlt], hp⟩
  · exact .inl (by simp [h])

/-- A worker's transaction on its own delivery, with the phase that follows. -/
theorem of_acts (ws : List Write) (ha : a.worker? = some w)
    (hw : s.workers[w]? = some p) (hd : p.delivery? = some d)
    (hst : Acts (p.Releasable cfg) (s.now + cfg.leaseDuration) d s.store st)
    (hp : PhaseStep cfg s w a p p')
    (hlive : p'.live = true → ∀ m, s.row d.id = some m →
      ∃ m', st.messages.get? d.id = some m' ∧ m.SameTerms m') :
    StepSpec cfg s a { s.setPhase w p' with store := st, writes := ws } where
  now := elapsed_of_worker? ha
  length := length_set
  issued _ h := h
  marks := hst.marks
  row i := by
    change RowStep cfg s i a (st.messages.get? i)
    by_cases hi : i = d.id
    · subst hi
      cases hm : s.row d.id with
      | none => rw [hst.absent hm, ← hm]; exact .same a
      | some m => exact .acted a w p d m _ ha hw hd rfl hm (hst.own m hm)
    · rw [hst.other i hi]; exact .same a
  phase := setPhase_phase hw hp
  budget w' q q' d' m ha' hq hd' hq' hl hm := by
    cases ha.symm.trans ha'
    cases hw.symm.trans hq
    cases hd.symm.trans hd'
    have hlt : w < s.workers.length := (List.getElem?_eq_some_iff.1 hw).1
    obtain rfl : p' = q' := by simpa [hlt] using hq'
    exact hlive hl m hm

theorem of_phase (ha : a.worker? = some w) (hw : s.workers[w]? = some p)
    (hp : PhaseStep cfg s w a p p') : StepSpec cfg s a (s.setPhase w p') where
  now := elapsed_of_worker? ha
  length := length_set
  issued _ h := h
  marks _ h := h
  row _ := .same a
  phase := setPhase_phase hw hp
  budget _ _ _ _ m _ _ _ _ _ hm := ⟨m, hm, .refl m⟩

theorem refl (ha : a.worker? = some w) : StepSpec cfg s a s :=
  ⟨elapsed_of_worker? ha, rfl, fun _ h => h, fun _ h => h, fun _ => .same a, fun _ => .inl rfl,
    fun _ _ _ _ m _ _ _ _ _ hm => ⟨m, hm, .refl m⟩⟩

end StepSpec

theorem stepClaim_spec {id : MessageId} (h : stepClaim cfg s w id token promise = some s') :
    StepSpec cfg s (.claim w id token promise) s' := by
  unfold stepClaim at h
  split at h
  case h_2 => cases h
  next m hw hm =>
  split at h
  case isFalse => cases h
  next hnext =>
  have hphase : (cfg.leaseless = false → token ∉ s.issued) →
      PhaseStep cfg s w (.claim w id token promise) .idle
        (.claimed (cfg.claimed m token s.now promise)) :=
    .claimed id token promise m hm hnext.1
  split at h
  · next hl =>
    cases h
    rw [Config.claimed_of_leaseless hl] at hphase
    exact .of_phase rfl hw (hphase fun h => by simp [hl] at h)
  next hl =>
  split at h
  · cases h
  next hfresh =>
  cases h
  have hphase := hphase fun _ => hfresh
  rw [Config.claimed_of_leased (by simpa using hl)] at hphase
  refine ⟨StepSpec.elapsed_of_worker? (w := w) rfl, length_set, fun t ht => mem_cons_of_mem _ ht,
    fun _ h => h, fun i => ?_, StepSpec.setPhase_phase hw hphase, ?_⟩
  · by_cases hi : i = id
    · subst hi
      have : s.store.messages.get? i = some m := hm
      simp only [State.row, Store.leaseMailboxMessage, Store.modifyMessage, Table.get?_modify,
        if_true, this, map_some]
      exact .leased w token promise m (by simpa using hl) hw hm hnext.1 hfresh
    · simp only [State.row, Store.leaseMailboxMessage, Store.modifyMessage, Table.get?_modify, hi,
        if_false]
      exact .same _
  · intro w' q q' d' _ ha hq hd' _ _ _
    cases ha
    cases hw.symm.trans hq
    cases hd'

theorem claim_issued {id : MessageId}
    (hl : cfg.leaseless = false) (h : step cfg s (.claim w id token promise) = some s') :
    token ∈ s'.issued := by
  simp only [step, stepClaim, hl] at h
  repeat' split at h
  all_goals first | cases h; done | simp_all
  obtain rfl := h
  simp

theorem stepDedup_spec (h : stepDedup s w lookupFails = some s') :
    StepSpec cfg s (.dedup w lookupFails) s' := by
  unfold stepDedup at h
  split at h
  case h_2 => cases h
  next d hw =>
  split at h
  · cases h
    exact .of_phase rfl hw (.closed _ _ d _ _ rfl (by simp [Plan.thenOnOk, Plan.Sound]) fun _ => rfl)
  next hseen =>
  cases h
  refine .of_phase rfl hw (.ran lookupFails d ?_)
  cases lookupFails
  · exact .inr (by simpa using hseen)
  · exact .inl rfl

theorem Phase.delivery?_of_heartbeat? (h : p.heartbeat? path = some d) : p.delivery? = some d := by
  cases p <;> simp_all [Phase.heartbeat?, Phase.delivery?]

theorem extendMailboxLease_budget (hm : st.messages.get? d.id = some m) :
    ∃ m', (st.extendMailboxLease d.id token leaseUntil).1.messages.get? d.id = some m' ∧
      m.SameTerms m' := by
  simp only [Store.extendMailboxLease, Store.updateWhere, hm]
  split
  · exact ⟨m.extend leaseUntil, by simp [Store.modifyMessage, Table.get?_modify, hm], .extend m _⟩
  · exact ⟨m, hm, .refl m⟩

theorem execStage_budget (h : execStage d st leaseUntil fnOk = some st')
    (hm : st.messages.get? d.id = some m) :
    ∃ m', st'.messages.get? d.id = some m' ∧ m.SameTerms m' := by
  unfold execStage at h
  split at h
  · split at h <;> cases h
    exact ⟨m, hm, .refl m⟩
  next token ht =>
  obtain ⟨st₁, hst₁, h⟩ := bind_eq_some_iff.1 h
  split at h <;> cases h
  obtain ⟨m₁, hm₁, -, rfl⟩ := requireRows_extendMailboxLease.1 hst₁
  exact ⟨m.extend leaseUntil, by simp [Store.modifyMessage, Table.get?_modify, hm], .extend m _⟩

theorem stepHeartbeat_spec (hp : s.Planned) (h : stepHeartbeat cfg s w = some s') :
    StepSpec cfg s (.heartbeat w) s' := by
  unfold stepHeartbeat at h
  split at h
  case h_2 => cases h
  next d hd =>
  obtain ⟨p, hw, hbeat⟩ := bind_eq_some_iff.1 hd
  split at h
  · cases h
  next token ht =>
  cases h
  have hphase : PhaseStep cfg s w (.heartbeat w) p p := by
    cases p with
    | idle => exact .freed _ _
    | claimed d => cases hbeat
    | running d c => exact .kept _ d c c id
    | closing d b plan =>
      exact .closed _ _ d b plan rfl (hp w d b plan hw) fun hb => by rw [hb]; rfl
  have hspec := StepSpec.of_acts s.writes rfl hw (Phase.delivery?_of_heartbeat? hbeat)
    (acts_of_rows fst_updateWhere fun _ => acts_extend ht) hphase
    fun _ m hm => extendMailboxLease_budget hm
  rwa [State.setPhase_self hw] at hspec

theorem stepStage_spec (h : stepStage cfg s w fnOk = some s') :
    StepSpec cfg s (.stage w fnOk) s' := by
  unfold stepStage at h
  split at h
  case h_2 => cases h
  next d c _ hw =>
  split at h
  · cases h
  split at h
  · cases h
    exact .refl rfl
  next st hst =>
  cases h
  have hphase : PhaseStep cfg s w (.stage w fnOk) (.running d c) (.running d c) := .kept _ d c c id
  have hspec := StepSpec.of_acts (s.writes ++ [.stage d.id]) rfl hw rfl (execStage_acts hst)
    hphase fun _ m hm => execStage_budget hst hm
  rwa [State.setPhase_self hw] at hspec

theorem stepCommit_spec (h : stepCommit cfg s w fnOk = some s') :
    StepSpec cfg s (.commit w fnOk) s' := by
  unfold stepCommit at h
  split at h
  case h_2 => cases h
  next d c _ hw =>
  split at h
  · cases h
  split at h
  · cases h
    exact .refl rfl
  next st hst =>
  cases h
  exact .of_acts _ rfl hw rfl (execCommit_acts hst) (.kept _ d c true fun _ => rfl) nofun

theorem stepReject_spec (h : stepReject cfg s w txErr = some s') :
    StepSpec cfg s (.reject w txErr) s' := by
  unfold stepReject at h
  split at h
  case h_2 => cases h
  next d _ hw =>
  split at h
  case isFalse => cases h
  split at h
  · cases h
    exact .of_phase rfl hw (.closed _ _ d _ _ rfl sound_nack fun _ => rfl)
  next st hst =>
  cases h
  cases txErr with
  | none => exact .of_acts _ rfl hw rfl (rejectDurableAsk_acts hst) (.freed _ _) nofun
  | some err => cases hst

theorem stepFinish_spec (h : stepFinish cfg s w o outboxErr = some s') :
    StepSpec cfg s (.finish w o outboxErr) s' := by
  unfold stepFinish at h
  split at h
  case h_2 => cases h
  next d c hw =>
  split at h
  · cases h
  split at h
  · cases h
    exact .of_phase rfl hw (.freed _ _)
  next hc =>
  cases h
  obtain rfl : c = false := by simpa using hc
  exact .of_phase rfl hw (.closed _ _ d _ _ rfl sound_finishNonTx fun _ => rfl)

theorem stepTurn_spec (h : stepTurn cfg s w o txErr = some s') :
    StepSpec cfg s (.turn w o txErr) s' := by
  unfold stepTurn at h
  split at h
  case h_2 => cases h
  next d hpath hw =>
  split at h
  · next st hst =>
    cases h
    cases txErr with
    | none => exact .of_acts _ rfl hw rfl (handleResultInTx_acts hpath hst) (.freed _ _) nofun
    | some err => cases hst
  · cases h
    exact .of_phase rfl hw (.freed _ _)
  · cases h
    exact .of_phase rfl hw (.closed _ _ d _ _ rfl sound_nack fun _ => rfl)

theorem StoreOp.exec_of_not_settles {o : StoreOp} {st' : Store}
    (ho : o.settles = false) (h : o.exec d now st = some st') : st'.messages = st.messages := by
  cases o <;> first | (cases h; rfl) | simp [StoreOp.settles] at ho

theorem stepStoreOp_spec (hp : s.Planned) (h : stepStoreOp s w fails = some s') :
    StepSpec cfg s (.storeOp w fails) s' := by
  unfold stepStoreOp at h
  split at h
  case h_3 => cases h
  case h_1 hw =>
    cases h
    exact .of_phase rfl hw (.freed _ _)
  next d b o onOk onErr hw =>
  obtain ⟨ho, hok, herr⟩ := hp w d b _ hw
  have hlive : b = false → (Phase.closing d b (.op o onOk onErr)).live = true := by
    rintro rfl; rfl
  have hsettled : (Phase.closing d (b || o.settles) onOk).live = true → o.settles = false := by
    cases b <;> cases o.settles <;> simp [Phase.live]
  split at h
  · cases h
    exact .of_phase rfl hw (.closed _ _ d _ _ rfl herr hlive)
  next st hst =>
  cases h
  cases fails with
  | true => cases hst
  | false =>
    refine .of_acts _ rfl hw rfl (StoreOp.exec_acts ?_ ?_ hst)
      (.closed _ _ d _ _ rfl hok fun hb => hlive (by simp_all)) fun hl m hm => ?_
    · rintro r rfl; exact ho
    · rintro r rfl; exact ho
    · exact ⟨m, StoreOp.exec_of_not_settles (hsettled hl) hst ▸ hm, .refl m⟩

theorem step_spec (hp : s.Planned) (h : step cfg s a = some s') : StepSpec cfg s a s' := by
  cases a with
  | enqueue m =>
    cases h
    refine ⟨(Int.add_zero _).symm, rfl, fun _ h => h, fun _ h => h, fun i => ?_, fun _ => .inl rfl,
      fun _ _ _ _ _ ha => by cases ha⟩
    simp only [State.row, Store.enqueueMailboxMessage, Table.get?_insertIgnore]
    cases hm : s.store.messages.get? i with
    | some m' => exact .of_row_eq (by simp [State.row, hm])
    | none =>
      by_cases hid : m.id = i
      · have hkey : m.fresh.id = i := hid
        simp only [hkey, if_true, none_or]
        exact .enqueued m hid hm
      · exact .of_row_eq (by simp [Row.fresh, State.row, hid, hm])
  | tick seconds =>
    cases h
    exact ⟨rfl, rfl, fun _ h => h, fun _ h => h,
      fun _ => .same _, fun _ => .inl rfl, fun _ _ _ _ _ ha => by cases ha⟩
  | expireLeases =>
    cases h
    refine ⟨(Int.add_zero _).symm, rfl, fun _ h => h, fun _ h => h, fun i => ?_, fun _ => .inl rfl,
      fun _ _ _ _ _ ha => by cases ha⟩
    simp only [State.row, Store.expireMailboxLeases, Table.get?_map]
    cases hm : s.store.messages.get? i with
    | none => exact .of_row_eq (by simp [State.row, hm])
    | some m => exact .expired m hm
  | claim w id token promise => exact stepClaim_spec h
  | poison w reason =>
    simp only [step] at h
    split at h
    · next d hw =>
      cases h
      exact .of_phase rfl hw (.closed _ _ d _ _ rfl sound_nack fun _ => rfl)
    · cases h
  | dedup w lookupFails => exact stepDedup_spec h
  | heartbeat w => exact stepHeartbeat_spec hp h
  | stage w fnOk => exact stepStage_spec h
  | commit w fnOk => exact stepCommit_spec h
  | reject w txErr => exact stepReject_spec h
  | finish w o outboxErr => exact stepFinish_spec h
  | turn w o txErr => exact stepTurn_spec h
  | storeOp w fails => exact stepStoreOp_spec hp h
  | crash w =>
    cases h
    cases hw : s.workers[w]? with
    | some p => exact .of_phase rfl hw (.freed _ _)
    | none =>
      have hlen : s.workers.length ≤ w := by simpa using hw
      refine ⟨StepSpec.elapsed_of_worker? (w := w) rfl, length_set, fun _ h => h, fun _ h => h, fun _ => .same _,
        fun w' => .inl ?_, fun _ _ _ _ m _ _ _ _ _ hm => ⟨m, hm, .refl m⟩⟩
      rw [State.setPhase_workers, set_eq_of_length_le hlen]

namespace StepSpec

/-- A row that carries a token carried it before, or has just been leased under it. -/
theorem leased_under (h : StepSpec cfg s a s') (hm : s'.row i = some m) (ht : m.leaseToken = some t)
    :
    (∃ m₀, s.row i = some m₀ ∧ m₀.leaseToken = some t ∧ m₀.SameTerms m) ∨
      ∃ w promise m₀, a = .claim w i t promise ∧ cfg.leaseless = false ∧ t ∉ s.issued ∧
        s.row i = some m₀ ∧ m = m₀.lease t (s.now + cfg.leaseDuration) := by
  have hrow := h.row i
  rw [hm] at hrow
  generalize hr : (some m : Option Row) = r at hrow
  cases hrow with
  | same => exact .inl ⟨m, hr.symm, ht, .refl m⟩
  | enqueued m₀ _ _ =>
    cases hr
    simp [Row.fresh] at ht
  | leased w token promise m₀ hl _ hm₀ _ hfresh =>
    cases hr
    obtain rfl : token = t := by simpa [Row.lease] using ht
    exact .inr ⟨w, promise, m₀, rfl, hl, hfresh, hm₀, rfl⟩
  | expired m₀ hm₀ =>
    cases hr
    refine .inl ⟨m₀, hm₀, ?_, .expire m₀ _⟩
    unfold Row.expire at ht
    split at ht
    · simp at ht
    · exact ht
  | acted _ w p d m₀ _ _ _ _ _ hm₀ hact =>
    subst hr
    cases hact with
    | same => exact .inl ⟨m, hm₀, ht, .refl m⟩
    | nacked | postponed => simp [Row.release] at ht
    | extended => exact .inl ⟨m₀, hm₀, ht, .extend m₀ _⟩

def Claims (cfg : Config) (s : State) (a : Action) (w : ℕ) (d : Delivery) : Prop :=
  ∃ id token promise m, a = .claim w id token promise ∧ s.workers[w]? = some .idle ∧
    s.row id = some m ∧ m.IsNext s.store.messages.rows cfg.mailboxId s.now ∧
    (cfg.leaseless = false → token ∉ s.issued) ∧ d = cfg.claimed m token s.now promise

/-- A delivery in hand was there before, or has just been claimed. A worker that
answers for its row did so before. -/
theorem phase_delivery (h : StepSpec cfg s a s') (hp' : s'.workers[w]? = some p')
    (hd : p'.delivery? = some d) :
    (∃ p, s.workers[w]? = some p ∧ p.delivery? = some d ∧ (p'.live = true → p.live = true)) ∨
      Claims cfg s a w d := by
  rcases h.phase w with hsame | ⟨p, q, hp, hq, hphase⟩
  · exact .inl ⟨p', hsame ▸ hp', hd, id⟩
  cases hq.symm.trans hp'
  cases hphase with
  | claimed id token promise m hm hnext hfresh =>
    exact .inr ⟨id, token, promise, m, rfl, hp, hm, hnext, hfresh, (some.inj hd).symm⟩
  | ran lookupFails d' hseen => exact .inl ⟨_, hp, hd, fun _ => rfl⟩
  | closed _ _ d' b plan hdel _ hlive =>
    cases hd
    refine .inl ⟨p, hp, hdel, fun hl => hlive ?_⟩
    cases b
    · rfl
    · cases hl
  | kept _ d' c c' hc =>
    refine .inl ⟨_, hp, hd, fun hl => ?_⟩
    cases c
    · rfl
    · rw [hc rfl] at hl
      cases hl
  | freed => cases hd

theorem holds (h : StepSpec cfg s a s') (hd : s'.Holds w d) : s.Holds w d ∨ Claims cfg s a w d := by
  obtain ⟨p', hp', hd'⟩ := bind_eq_some_iff.1 hd
  rcases h.phase_delivery hp' hd' with ⟨p, hp, hpd, -⟩ | hclaim
  · exact .inl (bind_eq_some_iff.2 ⟨p, hp, hpd⟩)
  · exact .inr hclaim

/-- A running worker was running before, or has just passed the processed check. -/
theorem running (h : StepSpec cfg s a s') (hd : s'.workers[w]? = some (.running d c)) :
    (∃ c₀, s.workers[w]? = some (.running d c₀) ∧ (c₀ = true → c = true)) ∨
      ∃ lookupFails, a = .dedup w lookupFails ∧ s.workers[w]? = some (.claimed d) ∧
        (lookupFails = true ∨ d.id ∉ s.store.processed) := by
  rcases h.phase w with hsame | ⟨p, p', hp, hp', hphase⟩
  · exact .inl ⟨c, hsame ▸ hd, id⟩
  cases hp'.symm.trans hd
  cases hphase with
  | ran lookupFails d' hseen => exact .inr ⟨lookupFails, rfl, hp, hseen⟩
  | kept _ d' c₀ c' hc => exact .inl ⟨c₀, hp, hc⟩

end StepSpec

theorem State.Planned.step (hp : s.Planned) (h : step cfg s a = some s') : s'.Planned := by
  intro w d b plan hw
  rcases (step_spec hp h).phase w with hsame | ⟨p, p', hp', hw', hphase⟩
  · exact hp w d b plan (hsame ▸ hw)
  · cases hw'.symm.trans hw
    cases hphase with
    | closed _ _ _ _ _ _ hplan _ => exact hplan

theorem State.planned_initial : (State.initial cfg now).Planned := by
  intro w d b plan hw
  simp [State.initial, getElem?_replicate] at hw

theorem commitLog_append_of_ne (h : ∀ id key, .commit id key ∉ ws) :
    State.commitLog ⟨st, now, ps, is, s.writes ++ ws⟩ = s.commitLog := by
  have : ws.filterMap Write.commit? = [] := by
    rw [filterMap_eq_nil_iff]
    intro x hx
    cases x with
    | commit id key => exact absurd hx (h id key)
    | stage id | turn id => rfl
  rw [State.commitLog, filterMap_append, this, append_nil, State.commitLog]

/-- What a successful commit has found and what it leaves. -/
structure CommitStep (s : State) (w : ℕ) (d : Delivery) (c : Bool) (m : Row) (s' : State) : Prop where
  phase : s.workers[w]? = some (.running d c)
  row : s.row d.id = some m
  owns : Owns d.leaseToken m
  log : s'.commitLog = s.commitLog ++ [(d.id, m.correlationKey)]
  store : s'.store = (s.store.deleteMailboxMessage d.id).markMessageProcessed d.id
  workers : s'.workers = s.workers.set w (.running d true)

/-- The commit log grows by a successful commit and by nothing else. -/
theorem step_commitLog (h : step cfg s a = some s') :
    s'.commitLog = s.commitLog ∨ ∃ w d c m, a = .commit w true ∧ CommitStep s w d c m s' := by
  cases a with
  | commit w fnOk =>
    simp only [step, stepCommit] at h
    split at h
    case h_2 => cases h
    next d c _ hw =>
    split at h
    · cases h
    split at h
    · exact .inl (by rw [← some.inj h])
    next st hst =>
    obtain ⟨rfl, m, hm, hown, rfl⟩ := execCommit_eq_some_iff.1 hst
    cases h
    refine .inr ⟨w, d, c, m, rfl, hw, hm, hown, ?_, rfl, rfl⟩
    have hrow : s.row d.id = some m := hm
    simp [State.commitLog, Write.commit?, hrow]
  | _ =>
    simp only [step, stepClaim, stepDedup, stepHeartbeat, stepStage, stepReject, stepFinish,
      stepTurn, stepStoreOp] at h
    repeat' split at h
    all_goals cases h <;> first | exact .inl rfl | exact .inl (commitLog_append_of_ne (by simp))

/-- Every message was enqueued so, but for its lease, delay and attempts. -/
def State.Sent (as : List Action) (s : State) : Prop :=
  ∀ i, ∀ m ∈ s.row i, ∃ m₀, .enqueue m₀ ∈ as ∧ m.release 0 0 = m₀.release 0 0

theorem StepSpec.sent (h : StepSpec cfg s a s') (ha : a ∈ as) (hsent : s.Sent as) : s'.Sent as := by
  intro i m hm
  have hrow := h.row i
  generalize s'.row i = r at hrow hm
  cases hrow with
  | same => exact hsent i m hm
  | enqueued m₀ =>
    cases hm
    exact ⟨m₀, ha, rfl⟩
  | leased _ _ _ m₀ _ _ hm₀ =>
    cases hm
    exact hsent i m₀ hm₀
  | expired m₀ hm₀ =>
    cases hm
    unfold Row.expire
    split <;> exact hsent i m₀ hm₀
  | acted _ _ _ _ m₀ _ _ _ _ _ hm₀ hact =>
    subst hm
    cases hact <;> exact (hsent i _ hm₀ :)

theorem along_sent (hp : s.Planned) (hsent : s.Sent as) (hbs : bs ⊆ as) :
    (pool cfg).Along (fun _ _ s' => s'.Sent as) s bs := by
  induction bs generalizing s with
  | nil => trivial
  | cons b bs ih =>
    rw [cons_subset] at hbs
    refine Machine.along_cons.2 fun t ht => ?_
    have hsent' := (step_spec hp ht).sent hbs.1 hsent
    exact ⟨hsent', ih (hp.step ht) hsent' hbs.2⟩

/-- Whatever the workers do and lose, no stored message is made up or altered. -/
theorem rows_as_enqueued (cfg : Config) (now : ℤ) (as : List Action) :
    (pool cfg).Along (fun _ _ s' => s'.Sent as) (.initial cfg now) as :=
  along_sent State.planned_initial (by rintro _ _ ⟨⟩) fun _ h => h

end Wavelength.Mailbox
