import Mathlib.Data.Int.Notation
import Wavelength.Base.Action

/-! # Durable swap sessions

A swap session lives in memory and is written to the swap store after every mutation; a write that
fails takes the mutation back. The process may end at any write and go on later from the row.
-/

namespace Wavelength.Swaps

open List Option

/-- The classes of errors that `handleFailure` tells apart, an unclassified one being a `failure`.
With `crash` the process itself ends. -/
inductive ActionError where
  | interrupt
  | retryable
  | walletNotReady
  | expired
  | intervention
  | failure
  | crash
  deriving DecidableEq

inductive RemoteError where
  | interrupt
  | walletNotReady
  | other
  deriving DecidableEq

instance decidableForallOk {α : Type} {p : α → Prop} [DecidablePred p] :
    ∀ x : Except RemoteError α, Decidable (∀ a, x = .ok a → p a)
  | .ok a => decidable_of_iff (p a) ⟨fun h _ ha => Except.ok.inj ha ▸ h, fun h => h a rfl⟩
  | .error _ => isTrue fun _ h => (nomatch h)

def RemoteError.wrap : RemoteError → ActionError
  | .interrupt => .interrupt
  | .walletNotReady => .walletNotReady
  | .other => .failure

/-- What becomes of a write: it is made, or it fails although it may have been made, or the
process ends before or after it. -/
inductive Write where
  | ok
  | failed (written : Bool) (e : RemoteError)
  | crash (written : Bool)

/-- A session, its row in the store, what becomes of the next writes, and the world around the
process. -/
structure Node (S R E : Type) where
  session : Option S := none
  row : Option R := none
  writes : List Write := []
  env : E

abbrev Action (S R E α : Type) := EStateM ActionError (Node S R E) α

section

variable {S R E : Type}

def getSession : Action S R E S := do
  match (← get).session with
  | none => throw .crash
  | some s => pure s

def setSession (s : S) : Action S R E Unit := modify fun n => { n with session := some s }

def getEnv : Action S R E E := do
  pure (← get).env

def modifyEnv (f : E → E) : Action S R E Unit := modify fun n => { n with env := f n.env }

def nextWrite : Action S R E Write :=
  modifyGet fun n => (n.writes.headD .ok, { n with writes := n.writes.tail })

def writeRow (r : R) : Action S R E Unit := modify fun n => { n with row := some r }

def doIf (c : Bool) (m : Action S R E Unit) : Action S R E Unit := if c then m else pure ()

def persist (save : S → Option R) : Action S R E Unit := do
  match save (← getSession) with
  | none => pure ()
  | some r => do
    match ← nextWrite with
    | .ok => writeRow r
    | .failed written e => do
      doIf written (writeRow r)
      throw e.wrap
    | .crash written => do
      doIf written (writeRow r)
      throw .crash

/-- Apply a mutation and write the session; a mutation that is refused or not written is taken
back. -/
def mutateAndPersist (save : S → Option R) (mutate : S → Option S) : Action S R E Unit := do
  let snapshot ← getSession
  match mutate snapshot with
  | none => throw .failure
  | some s => do
    setSession s
    tryCatch (persist save) fun e => do
      setSession snapshot
      throw e

/-- Record the terminal state that belongs to an error, and drop an error of the recording. -/
def markTerminal (mark : Action S R E Unit) : Action S R E Unit :=
  tryCatch mark fun e => if e = .crash then throw e else pure ()

def handleFailure (e : ActionError) (currentExpired currentNeedsIntervention : Bool)
    (markExpired markNeedsIntervention markFailed : Action S R E Unit) : Action S R E Unit :=
  match e with
  | .interrupt => pure ()
  | .retryable => pure ()
  | .walletNotReady => pure ()
  | .expired => if currentExpired then pure () else markTerminal markExpired
  | .intervention =>
    if currentNeedsIntervention then pure () else markTerminal markNeedsIntervention
  | .failure => markTerminal markFailed
  | .crash => throw .crash

def Node.after (n : Node S R E) (m : Action S R E Unit) : Node S R E :=
  match m.run n with
  | .ok _ n' => n'
  | .error .crash n' => { n' with session := none }
  | .error _ n' => n'

end

/-! ## Calls to the daemon and the server -/

abbrev PaymentHash := ℕ

abbrev PubKey := ℕ

structure VTXOInfo where
  outpoint : String
  amountSat : ℤ
  deriving DecidableEq

inductive OORStatus where
  | pending
  | completed
  | failed (beforePONR : Bool)

/-- A call whose error carries no class of its own. -/
def call {S R E α : Type} : Except RemoteError α → Action S R E α
  | .ok a => pure a
  | .error e => throw e.wrap

/-- A call whose error is worth another try. -/
def callRetryable {S R E α : Type} : Except RemoteError α → Action S R E α
  | .ok a => pure a
  | .error _ => throw .retryable

/-- Whatever error `m` ends with is worth another try. -/
def retryable {S R E α : Type} (m : Action S R E α) : Action S R E α :=
  tryCatch m fun e => throw (if e = .crash then .crash else .retryable)

/-! ## What the mutations keep -/

section

variable {S R E : Type}

structure Kept (G : E → S → Prop) (H : E → R → Prop) (K : E → Prop) (n : Node S R E) : Prop where
  session : ∀ s, n.session = some s → G n.env s
  row : ∀ r, n.row = some r → H n.env r
  env : K n.env

variable {G : E → S → Prop} {H : E → R → Prop} {K : E → Prop} {n : Node S R E} {α β : Type}
  {P I : Node S R E → Prop} {k : S → Action S R E β} {Q : β → Node S R E → Prop}
  {F : ActionError → Node S R E → Prop}

variable (h : Kept G H K n)
include h

theorem Kept.setSession (hs : G n.env s) : Kept G H K { n with session := some s } :=
  ⟨fun _ hs' => some.inj hs' ▸ hs, h.row, h.env⟩

theorem Kept.setRow (hr : H n.env r) : Kept G H K { n with row := some r } :=
  ⟨h.session, fun _ hr' => some.inj hr' ▸ hr, h.env⟩

theorem Kept.setWrites : Kept G H K { n with writes := ws } := ⟨h.session, h.row, h.env⟩

theorem Kept.dropSession : Kept G H K { n with session := none } :=
  ⟨fun _ hs => (nomatch hs), h.row, h.env⟩

omit h

theorem forall_some {p : α → Prop} (h : o = some a) (hp : p a) : ∀ x, o = some x → p x := by
  intro x hx
  cases h.symm.trans hx
  exact hp

theorem forall_none {p : α → Prop} (h : o = none) : ∀ x, o = some x → p x := by
  intro x hx
  cases h.symm.trans hx

variable (hk : ∀ s, Ensures (fun n => P n ∧ n.session = some s) (k s) Q F)
include hk

/-- An action that needs a session; without one the process has ended. -/
theorem getSession_bind_error
    (hF : ∀ n, P n → n.session = none → F .crash n) : Ensures P (getSession >>= k) Q F := by
  intro n hn
  cases hs : n.session with
  | none =>
    have : (getSession >>= k).run n = .error .crash n := by
      obtain ⟨_, _, _⟩ := n
      cases hs
      rfl
    rw [this]
    exact hF n hn hs
  | some s =>
    have : (getSession >>= k).run n = (k s).run n := by
      obtain ⟨_, _, _⟩ := n
      cases hs
      rfl
    rw [this]
    exact hk s n ⟨hn, hs⟩

theorem getSession_bind
    (hF : ∀ e n, P n → F e n) : Ensures P (getSession >>= k) Q F :=
  getSession_bind_error hk fun n hn _ => hF _ n hn

omit hk

theorem getEnv_bind {k : E → Action S R E β}
    (hk : ∀ e, Ensures (fun n => P n ∧ n.env = e) (k e) Q F) : Ensures P (getEnv >>= k) Q F := by
  intro n hn
  exact hk n.env n ⟨hn, rfl⟩

theorem getSession_keeps (hk : ∀ s, Keeps I (k s)) : Keeps I (getSession >>= k) :=
  getSession_bind (fun s => (hk s).pre fun _ h => h.1) fun _ _ h => h

theorem call_keeps : Keeps I (call x : Action S R E α) := by
  cases x with
  | ok a => exact .pure
  | error e => exact .throw

theorem call_spec :
    Ensures P (call x : Action S R E α) (fun a n => P n ∧ x = .ok a)
      fun e n => P n ∧ ∃ r, x = .error r ∧ e = r.wrap := by
  cases x with
  | ok a => exact .pure fun _ h => ⟨h, rfl⟩
  | error e => exact .throw fun _ h => ⟨h, e, rfl, rfl⟩

theorem callRetryable_spec :
    Ensures P (callRetryable x : Action S R E α) (fun a n => P n ∧ x = .ok a)
      fun e n => P n ∧ e = .retryable := by
  cases x with
  | ok a => exact .pure fun _ h => ⟨h, rfl⟩
  | error e => exact .throw fun _ h => ⟨h, rfl⟩

theorem callRetryable_keeps : Keeps I (callRetryable x : Action S R E α) :=
  callRetryable_spec.imp (fun _ h => h) (fun _ _ h => h.1) fun _ _ h => h.1

theorem retryable_spec {Q : α → Node S R E → Prop} (h : Ensures P m Q fun _ => I) :
    Ensures P (retryable m) Q fun e n => I n ∧ (e = .crash ∨ e = .retryable) := by
  refine h.tryCatch fun e => .throw fun n hn => ⟨hn, ?_⟩
  split
  · exact .inl rfl
  · exact .inr rfl

theorem retryable_keeps {Q : α → Node S R E → Prop} (h : Ensures P m Q fun _ => I) :
    Ensures P (retryable m) Q fun _ => I :=
  (retryable_spec h).onError fun _ _ h => h.1

theorem persist_spec (hsave : ∀ e s r, G e s → save s = some r → H e r) :
    Keeps (Kept G H K) (persist save) := by
  refine getSession_bind (fun s => ?_) fun _ _ h => h
  cases hr : save s with
  | none => exact .pure fun _ h => h.1
  | some r =>
    refine .bind (Q := fun _ n => Kept G H K n ∧ H n.env r) ?_ fun w => ?_
    · intro n hn
      exact ⟨hn.1.setWrites, hsave _ s r (hn.1.session s hn.2) hr⟩
    have hwrite : Ensures (fun n => Kept G H K n ∧ H n.env r) (writeRow r) (fun _ => Kept G H K)
        fun _ => Kept G H K := .modify fun n hn => hn.1.setRow hn.2
    have hmaybe : ∀ written, Ensures (fun n => Kept G H K n ∧ H n.env r)
        (doIf written (writeRow r)) (fun _ => Kept G H K) fun _ => Kept G H K := by
      intro written
      cases written with
      | false => exact .pure fun n hn => hn.1
      | true => exact hwrite
    cases w with
    | ok => exact hwrite
    | failed written e | crash written => exact (hmaybe written).bind fun _ => Keeps.throw

/-- A mutation that keeps the property of the session, given `C` of it, keeps all; where it
returns it has been made. -/
theorem mutateAndPersist_spec {C : S → Prop} (hsave : ∀ e s r, G e s → save s = some r → H e r)
    (hm : ∀ e s s', G e s → C s → mutate s = some s' → G e s') :
    Ensures (fun n => Kept G H K n ∧ ∀ s, n.session = some s → C s) (mutateAndPersist save mutate)
      (fun _ n => Kept G H K n ∧
        ∀ s', n.session = some s' → ∃ s, C s ∧ mutate s = some s') fun _ => Kept G H K := by
  refine getSession_bind (fun s => ?_) fun _ _ h => h.1
  cases hs' : mutate s with
  | none => exact .throw fun _ h => h.1.1
  | some s' =>
    -- The snapshot is as good as it was, for the world does not change.
    let G' : E → S → Prop := fun e x => G e x ∧ x = s'
    let K' : E → Prop := fun e => K e ∧ G e s ∧ C s
    refine .bind (Q := fun _ => Kept G' H K') (.modify fun n hn => ?_) fun _ => ?_
    · have hG := hn.1.1.session s hn.2
      have hC := hn.1.2 s hn.2
      refine ⟨fun x hx => ?_, hn.1.1.row, hn.1.1.env, hG, hC⟩
      cases hx
      exact ⟨hm _ s _ hG hC hs', rfl⟩
    · have hpersist : Keeps (Kept G' H K') (persist save) :=
        persist_spec fun e x r hx hr => hsave e x r hx.1 hr
      refine .tryCatch (E := fun _ => Kept G' H K') ?_ fun e => ?_
      · refine hpersist.post fun _ n hn => ⟨⟨fun x hx => (hn.session x hx).1, hn.row,
          hn.env.1⟩, fun x hx => ⟨s, hn.env.2.2, ?_⟩⟩
        rw [(hn.session x hx).2]
        exact hs'
      · refine .bind (Q := fun _ => Kept G H K) (.modify fun n hn => ?_)
          fun _ => .throw fun _ h => h
        exact ⟨fun x hx => some.inj hx ▸ hn.env.2.1, hn.row, hn.env.1⟩

theorem handleFailure_keeps {e : ActionError} {x y : Bool}
    {markExpired markNeedsIntervention markFailed : Action S R E Unit}
    (h₁ : Keeps I markExpired) (h₂ : Keeps I markNeedsIntervention) (h₃ : Keeps I markFailed) :
    Keeps I (handleFailure e x y markExpired markNeedsIntervention markFailed) := by
  have hmark : ∀ {m : Action S R E Unit}, Keeps I m → Keeps I (markTerminal m) := fun hm =>
    hm.tryCatch fun e => .ite (fun _ => .throw) fun _ => .pure
  unfold handleFailure
  cases e with
  | interrupt | retryable | walletNotReady => exact .pure
  | expired => exact .ite (fun _ => .pure) fun _ => hmark h₁
  | intervention => exact .ite (fun _ => .pure) fun _ => hmark h₂
  | failure => exact hmark h₃
  | crash => exact .throw

theorem Node.after_of (hm : Ensures P m (fun _ => I) F)
    (hcrash : ∀ n, F .crash n → I { n with session := none })
    (herror : ∀ e n, F e n → e ≠ .crash → I n) (h : P n) : I (n.after m) := by
  have h' := hm n h
  unfold Node.after
  cases hr : m.run n with
  | ok a n' =>
    rw [hr] at h'
    exact h'
  | error e n' =>
    rw [hr] at h'
    cases e with
    | crash => exact hcrash n' h'
    | _ => exact herror _ n' h' nofun

theorem Node.after_of_keeps (hm : Keeps I m) (hdrop : ∀ n, I n → I { n with session := none })
    (h : I n) : I (n.after m) :=
  Node.after_of hm hdrop (fun _ _ h _ => h) h

/-! ## What a write does, step by step -/

def Write.error : Write → Option ActionError
  | .ok => none
  | .failed _ e => some e.wrap
  | .crash _ => some .crash

structure Persisted (save : S → Option R) (n n' : Node S R E) : Prop where
  session : n'.session = n.session
  env : n'.env = n.env
  row : ∃ s, n.session = some s ∧ n'.row = (save s).or n.row
  writes : n'.writes ⊆ n.writes

/-- The write ended with the error `e`, although it may have been made. -/
structure Unpersisted (save : S → Option R) (n : Node S R E) (e : ActionError) (n' : Node S R E) :
    Prop where
  session : n'.session = n.session
  env : n'.env = n.env
  row : n'.row = n.row ∨ ∃ s r, n.session = some s ∧ save s = some r ∧ n'.row = some r
  writes : n'.writes ⊆ n.writes
  cause : e = .crash ∨ ∃ w ∈ n.writes, w.error = some e

theorem persist_run (save : S → Option R) (n : Node S R E) :
    Ensures (· = n) (persist save) (fun _ => Persisted save n) fun e => Unpersisted save n e := by
  refine getSession_bind_error (fun s => ?_) fun m hm hs => ?_
  · cases hr : save s with
    | none =>
      refine .pure ?_
      rintro m ⟨rfl, hs⟩
      refine ⟨rfl, rfl, ⟨s, hs, ?_⟩, Subset.refl _⟩
      rw [hr, none_or]
    | some r =>
      -- The node once the fate of the write is known.
      refine .bind (Q := fun w m => n.session = some s ∧ m = { n with writes := m.writes } ∧
        m.writes ⊆ n.writes ∧ (w = .ok ∨ w ∈ n.writes)) ?_ fun w => ?_
      · rintro m ⟨rfl, hs⟩
        refine ⟨hs, rfl, (tail_sublist _).subset, ?_⟩
        cases hw : m.writes with
        | nil => exact .inl rfl
        | cons w ws => exact .inr mem_cons_self
      · have hfail : ∀ (written : Bool) (e : ActionError), w.error = some e →
            Ensures (fun m => n.session = some s ∧ m = { n with writes := m.writes } ∧
              m.writes ⊆ n.writes ∧ (w = .ok ∨ w ∈ n.writes))
              (do doIf written (writeRow r); throw e : Action S R E Unit)
              (fun _ => Persisted save n)
              fun e => Unpersisted save n e := by
          intro written e he
          have hcause : (w = .ok ∨ w ∈ n.writes) →
              e = .crash ∨ ∃ w ∈ n.writes, w.error = some e := by
            rintro (rfl | hw)
            · cases he
            · exact .inr ⟨w, hw, he⟩
          cases written with
          | false =>
            rintro m ⟨hs, hm, hsub, hw⟩
            refine ⟨?_, ?_, .inl ?_, hsub, hcause hw⟩ <;> rw [hm]
          | true =>
            rintro m ⟨hs, hm, hsub, hw⟩
            refine ⟨?_, ?_, .inr ⟨s, r, hs, hr, rfl⟩, hsub, hcause hw⟩
            · change m.session = n.session
              rw [hm]
            · change m.env = n.env
              rw [hm]
        cases w with
        | ok =>
          refine .modify ?_
          rintro m ⟨hs, hm, hsub, -⟩
          refine ⟨?_, ?_, ⟨s, hs, ?_⟩, hsub⟩
          · change m.session = n.session
            rw [hm]
          · change m.env = n.env
            rw [hm]
          · rw [hr, some_or]
        | failed written e => exact hfail written e.wrap rfl
        | crash written => exact hfail written .crash rfl
  · obtain rfl := hm
    exact ⟨rfl, rfl, .inl rfl, Subset.refl _, .inl rfl⟩

structure Mutated (save : S → Option R) (mutate : S → Option S) (n n' : Node S R E) : Prop where
  session : ∃ s s', n.session = some s ∧ mutate s = some s' ∧ n'.session = some s' ∧
    n'.row = (save s').or n.row
  env : n'.env = n.env
  writes : n'.writes ⊆ n.writes

/-- The mutation was refused, or taken back because its write ended with an error. -/
structure Unmutated (save : S → Option R) (mutate : S → Option S) (n : Node S R E) (e : ActionError)
    (n' : Node S R E) : Prop where
  session : n'.session = n.session
  env : n'.env = n.env
  row : n'.row = n.row ∨ ∃ s s' r, n.session = some s ∧ mutate s = some s' ∧ save s' = some r ∧
    n'.row = some r
  writes : n'.writes ⊆ n.writes
  cause : e = .crash ∨ (∃ s, n.session = some s ∧ mutate s = none) ∨
    ∃ w ∈ n.writes, w.error = some e

theorem mutateAndPersist_run (save : S → Option R) (mutate : S → Option S) (n : Node S R E) :
    Ensures (· = n) (mutateAndPersist save mutate) (fun _ => Mutated save mutate n)
      fun e => Unmutated save mutate n e := by
  refine getSession_bind_error (fun s => ?_) fun m hm hs => ?_
  · cases hs' : mutate s with
    | none =>
      refine .throw ?_
      rintro m ⟨rfl, hs⟩
      exact ⟨rfl, rfl, .inl rfl, Subset.refl _, .inr (.inl ⟨s, hs, hs'⟩)⟩
    | some s' =>
      refine .bind (Q := fun _ m => n.session = some s ∧
        m = { n with session := some s' }) ?_ fun _ => ?_
      · rintro m ⟨rfl, hs⟩
        exact ⟨hs, rfl⟩
      rintro m ⟨hs, rfl⟩
      refine Ensures.tryCatch (E := fun e => Unpersisted save { n with session := some s' } e)
        (.post (persist_run save { n with session := some s' }) ?_) (fun e => ?_) _ rfl
      · intro _ m hm
        obtain ⟨x, hx, hrow⟩ := hm.row
        cases hx
        exact ⟨⟨s, s', hs, hs', hm.session, hrow⟩, hm.env, hm.writes⟩
      refine .bind (Q := fun _ => Unmutated save mutate n e)
        (.modify fun m hm => ?_) fun _ => .throw fun _ h => h
      refine ⟨hs.symm, hm.env, hm.row.imp id ?_, hm.writes, hm.cause.imp id .inr⟩
      rintro ⟨t, r, ht, hr, hrow⟩
      cases ht
      exact ⟨s, s', r, hs, hs', hr, hrow⟩
  · obtain rfl := hm
    exact ⟨rfl, rfl, .inl rfl, Subset.refl _, .inl rfl⟩

end

end Wavelength.Swaps
