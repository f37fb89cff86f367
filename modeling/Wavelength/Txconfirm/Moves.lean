import Mathlib.Logic.Relation
import Wavelength.Txconfirm.Actor

/-! # What a turn does to one entry

Every handler is a sequence of a few moves: the machine of the entry goes forward, a reliable
delivery to one subscriber is tried, a detached one is started, the entry is sealed or, once it
has no subscriber, dropped. An invariant of the moves is an invariant of every handler.
-/

namespace Wavelength.Txconfirm

open List Turn

variable {fsm : Fsm}

/-- How far an entry has come. It never returns to `early`, and only an `early` one can fail. -/
inductive Stage
  | early
  | live
  | final
  | failed
  | stopped
  deriving DecidableEq

def Stage.reaches : Stage → Stage → Bool
  | early, _ => true
  | live, live | live, final | live, stopped => true
  | final, final | final, stopped => true
  | failed, failed | failed, stopped => true
  | stopped, stopped => true
  | _, _ => false

@[simp] theorem Stage.reaches_refl (a : Stage) : a.reaches a = true := by
  cases a <;> rfl

theorem Stage.reaches_trans {a b c : Stage} (h₁ : a.reaches b = true) (h₂ : b.reaches c = true) :
    a.reaches c = true := by
  revert h₁ h₂
  cases a <;> cases b <;> cases c <;> decide

def TxEvent.isFailure : TxEvent → Bool
  | .failed _ => true
  | _ => false

namespace Fsm

def stage : Fsm → Stage
  | .stopped => .stopped
  | .running .new | .running (.broadcasting _) => .early
  | .running (.finalized _ _ _) => .final
  | .running (.failed _ _) => .failed
  | .running _ => .live

/-- No event but a failure takes the machine back or sideways. -/
theorem stage_reaches_apply (h : fsm.stage = .early ∨ event.isFailure = false) :
    fsm.stage.reaches (fsm.apply event).stage = true := by
  cases fsm with
  | stopped => rfl
  | running state =>
    rcases h with h | h
    · rw [h]
      rfl
    · cases state <;> cases event <;> first | rfl | cases h

theorem stage_apply_confirmed {hash : BlockHash} (h : fsm.apply (.confirmed height hash) ≠ .stopped)
    :
    (fsm.apply (.confirmed height hash)).stage = .live := by
  cases fsm with
  | stopped => exact absurd rfl h
  | running state => cases state <;> first | rfl | exact absurd rfl h

theorem stage_apply_finalized (h : fsm.apply .finalized ≠ .stopped) :
    (fsm.apply .finalized).stage = .final := by
  cases fsm with
  | stopped => exact absurd rfl h
  | running state => cases state <;> first | rfl | exact absurd rfl h

theorem stage_apply_failed (h : fsm.apply (.failed reason) ≠ .stopped) :
    (fsm.apply (.failed reason)).stage = .failed := by
  cases fsm with
  | stopped => exact absurd rfl h
  | running state => cases state <;> first | rfl | exact absurd rfl h

end Fsm

def Notification.kind? : Notification → Option Kind
  | .confirmed _ _ _ => some .confirmed
  | .reorged => none
  | .finalized _ _ => some .finalized
  | .failed _ => some .failed

inductive Attempt (d : Deferred) (p : Post) : NotifyOutcome → Post → Prop
  | held : d.inflightKey ∈ p.terminalNotifyInflight → Attempt d p .pending p
  | deferred : d.inflightKey ∉ p.terminalNotifyInflight → Attempt d p .pending (p.defer d)
  | accepted : d.inflightKey ∉ p.terminalNotifyInflight →
      Attempt d p .delivered (p.told d.receipt .ok)
  | stopped : d.inflightKey ∉ p.terminalNotifyInflight →
      Attempt d p .subscriberStopped (p.told d.receipt .stopped)
  | error : d.inflightKey ∉ p.terminalNotifyInflight → Attempt d p .pending p

def Subscriber.after (s : Subscriber) : Kind → NotifyOutcome → Option Subscriber
  | _, .pending => some s
  | .confirmed, .delivered => some { s with pendingConfirmed := false }
  | _, _ => none

def Due (e : Entry) (p : Post) (s : Subscriber) : Kind → Prop
  | .confirmed => s.pendingConfirmed = true ∧ (e.fsm.stage = .live ∨ e.fsm.stage = .final)
  | .finalized => s.pendingConfirmed = false ∧ e.fsm.stage = .final ∧ e.gen ∈ p.sealed
  | .failed => e.fsm.stage = .failed ∧ e.gen ∈ p.sealed

inductive Move : Option Entry × Post → Option Entry × Post → Prop
  | quiet {e : Entry} {p : Post} (fsm : Fsm) (reason : Option String) (script : List Answer) :
      e.fsm.stage.reaches fsm.stage = true →
      Move (some e, p)
        (some { e with fsm := fsm, pendingFailureReason := reason }, { p with script := script })
  | tell {e : Entry} {p p' : Post} {l₁ l₂ : List Subscriber} {s : Subscriber} {kind : Kind}
      {n : Notification} {o : NotifyOutcome} :
      e.subscribers = l₁ ++ s :: l₂ → Due e p s kind → n.kind? = some kind →
      Attempt ⟨kind, e.txid, e.gen, s.ref, n⟩ p o p' →
      Move (some e, p) (some { e with subscribers := l₁ ++ ((s.after kind o).toList ++ l₂) }, p')
  | spawn {e : Entry} {p : Post} {s : Subscriber} {n : Notification} :
      s ∈ e.subscribers → s.pendingConfirmed = false → n.isTerminal = false →
      Move (some e, p) (some e, p.spawn ⟨e.txid, e.gen, s.ref, n, false⟩)
  | close {e : Entry} {p : Post} : e.fsm.stage = .final ∨ e.fsm.stage = .failed →
      Move (some e, p) (some e, p.storeSealed e.gen)
  | evict {e : Entry} {p : Post} : e.subscribers = [] → Move (some e, p) (none, p)

abbrev Moves := Relation.ReflTransGen Move

/-- A condition that does not depend on the answers that are left. -/
def Unscripted (P : Post → Prop) : Prop := ∀ p script, P p → P { p with script := script }

variable {e : Entry}

section Answers

variable {P : Post → Prop}

variable (hP : Unscripted P)
include hP

theorem answer_spec : Hoare P answer fun _ => P := fun _ hp => hP _ _ hp

theorem currentFSMState_spec :
    Hoare P e.currentFSMState
      fun r p => (∀ state, r = some state → e.fsm = .running state) ∧ P p := by
  refine (answer_spec hP).bind fun a => ?_
  split
  · next state he _ =>
    refine .pure fun p hp => ⟨?_, hp⟩
    rintro _ ⟨⟩
    exact he
  · exact .pure fun p hp => ⟨nofun, hp⟩

/-- A confirmed event has been applied; one that failed may have been. -/
theorem advanceTrackedTxFSM_spec :
    Hoare P (e.advanceTrackedTxFSM event)
      fun r p => ((r.2 = true ∧ r.1 = { e with fsm := e.fsm.apply event } ∧
          e.fsm.apply event ≠ .stopped) ∨
        (r.2 = false ∧ (r.1 = e ∨ r.1 = { e with fsm := e.fsm.apply event }))) ∧ P p := by
  refine (answer_spec hP).bind fun a => ?_
  split
  · exact .pure fun p hp => ⟨.inr ⟨rfl, .inl rfl⟩, hp⟩
  · exact .pure fun p hp => ⟨.inr ⟨rfl, .inr rfl⟩, hp⟩
  refine .pure fun p hp => ⟨?_, hp⟩
  by_cases hs : e.fsm.apply event = .stopped
  · exact .inr ⟨by simp [hs], .inr rfl⟩
  · exact .inl ⟨by simp [hs], rfl, hs⟩

theorem notifyOneTerminal_spec :
    Hoare P (notifyOneTerminal e ref kind n)
      fun o p => ∃ q, P q ∧ Attempt ⟨kind, e.txid, e.gen, ref, n⟩ q o p := by
  refine .get_bind fun p hp => .ite (fun hkey => ?_) fun hkey => ?_
  · exact .pure fun _ hq => hq ▸ ⟨p, hp, .held hkey⟩
  have hread : Hoare (· = p) answer fun _ q =>
      q.terminalNotifyInflight = p.terminalNotifyInflight ∧ P q := by
    rintro _ rfl
    exact ⟨rfl, hP _ _ hp⟩
  refine hread.bind fun a => ?_
  split
  · exact .bind (.modify fun q hq => ⟨q, hq.2, .deferred (hq.1 ▸ hkey)⟩) fun _ => .ret
  next res _ =>
  cases res with
  | ok =>
    exact .bind (.modify fun q hq => ⟨q, hq.2, .accepted (hq.1 ▸ hkey)⟩) fun _ => .ret
  | stopped =>
    exact .bind (.modify fun q hq => ⟨q, hq.2, .stopped (hq.1 ▸ hkey)⟩) fun _ => .ret
  | error =>
    exact .bind (.modify fun q hq => ⟨q, hq.2, .error (hq.1 ▸ hkey)⟩) fun _ => .ret

omit hP

end Answers

/-- Moves from `x` have led here, and the generations in `G` are sealed. -/
structure At (x : Option Entry × Post) (G : List ℕ) (oe : Option Entry) (p : Post) : Prop where
  moves : Moves x (oe, p)
  sealed : G ⊆ p.sealed

section Rules

namespace At

variable (h : At x G (some e) p)
include h

theorem quiet (hfsm : e.fsm.stage.reaches fsm.stage = true)
    (reason : Option String) :
    At x G (some { e with fsm := fsm, pendingFailureReason := reason }) p :=
  ⟨h.moves.tail (.quiet fsm reason p.script hfsm), h.sealed⟩

theorem script (script : List Answer) : At x G (some e) { p with script := script } :=
  ⟨h.moves.tail (.quiet e.fsm e.pendingFailureReason script (Stage.reaches_refl _)), h.sealed⟩

theorem close (hstage : e.fsm.stage = .final ∨ e.fsm.stage = .failed) :
    At x [e.gen] (some e) (p.storeSealed e.gen) :=
  ⟨h.moves.tail (.close hstage), by simp [Post.storeSealed]⟩

theorem evict (he : e.subscribers = []) : At x G none p := ⟨h.moves.tail (.evict he), h.sealed⟩

theorem unsealed : At x [] (some e) p := ⟨h.moves, nil_subset _⟩

omit h

theorem unscripted : Unscripted (At x G (some e)) := fun _ script h => h.script script

end At

theorem currentFSMState_at {f : Entry} :
    Hoare (At x G (some e)) f.currentFSMState
      fun r p => (∀ state, r = some state → f.fsm = .running state) ∧ At x G (some e) p :=
  currentFSMState_spec At.unscripted

theorem notifyOneTerminal_at :
    Hoare (At x G (some e)) (notifyOneTerminal f ref kind n)
      fun o p => ∃ q, At x G (some e) q ∧ Attempt ⟨kind, f.txid, f.gen, ref, n⟩ q o p :=
  notifyOneTerminal_spec At.unscripted

theorem Attempt.sealed_eq (h : Attempt d p o p') : p'.sealed = p.sealed := by
  cases h <;> rfl

theorem At.tell (h : At x G (some { e with subscribers := l₁ ++ s :: l₂ }) q)
    (hdue : Due e q s kind) (hn : n.kind? = some kind)
    (ha : Attempt ⟨kind, e.txid, e.gen, s.ref, n⟩ q o p) :
    At x G (some { e with subscribers := l₁ ++ ((s.after kind o).toList ++ l₂) }) p :=
  ⟨h.moves.tail (.tell (e := { e with subscribers := l₁ ++ s :: l₂ }) rfl hdue hn ha),
    ha.sealed_eq ▸ h.sealed⟩

theorem forSubscribers_at
    (hbody : ∀ l₁ s l₂, Hoare (At x G (some { e with subscribers := l₁ ++ s :: l₂ })) (body s)
      fun kept => At x G (some { e with subscribers := l₁ ++ (kept.toList ++ l₂) }))
    (subs l₁ : List Subscriber) :
    Hoare (At x G (some { e with subscribers := l₁ ++ subs })) (forSubscribers body subs)
      fun subs' => At x G (some { e with subscribers := l₁ ++ subs' }) := by
  induction subs generalizing l₁ with
  | nil => exact .ret
  | cons s rest ih =>
    refine (hbody l₁ s rest).bind fun kept => ?_
    have hrest := ih (l₁ ++ kept.toList)
    simp only [append_assoc] at hrest
    exact hrest.bind fun _ => .ret

theorem confirmOne_at (hs : s.pendingConfirmed = true)
    (hstage : e.fsm.stage = .live ∨ e.fsm.stage = .final) :
    Hoare (At x G (some { e with subscribers := l₁ ++ s :: l₂ }))
      (confirmOne e blockHeight blockHash numConfs s)
      fun kept => At x G (some { e with subscribers := l₁ ++ (kept.toList ++ l₂) }) := by
  have hdue : ∀ q, Due e q s .confirmed := fun _ => ⟨hs, hstage⟩
  refine notifyOneTerminal_at.bind fun o => ?_
  cases o with
  | delivered | pending | subscriberStopped =>
    exact .pure fun p ⟨q, hq, ha⟩ => hq.tell (hdue q) rfl ha

theorem finalizeOne_at (hs : s.pendingConfirmed = false) (hstage : e.fsm.stage = .final) :
    Hoare (At x [e.gen] (some { e with subscribers := l₁ ++ s :: l₂ }))
      (finalizeOne e confirmHeight s)
      fun kept => At x [e.gen] (some { e with subscribers := l₁ ++ (kept.toList ++ l₂) }) := by
  refine notifyOneTerminal_at.bind fun o => ?_
  have hdue : ∀ {q}, At x [e.gen] (some { e with subscribers := l₁ ++ s :: l₂ }) q →
      Due e q s .finalized :=
    fun hq => ⟨hs, hstage, hq.sealed mem_cons_self⟩
  cases o with
  | pending | delivered | subscriberStopped =>
    exact .pure fun p ⟨q, hq, ha⟩ => hq.tell (hdue hq) rfl ha

theorem notifyReversibleAsync_at (hs : s.pendingConfirmed = false) (hn : n.isTerminal = false) :
    Hoare (At x G (some { e with subscribers := l₁ ++ s :: l₂ })) (notifyReversibleAsync e s.ref n)
      fun _ => At x G (some { e with subscribers := l₁ ++ s :: l₂ }) :=
  .modify fun _ hp => ⟨hp.moves.tail (.spawn (e := { e with subscribers := l₁ ++ s :: l₂ })
    (mem_append_right _ mem_cons_self) hs hn), hp.sealed⟩

theorem removeStoppedConfirmedSubscribers_at {subs : List Subscriber} :
    Hoare (At x G (some { e with subscribers := subs }))
      (removeStoppedConfirmedSubscribers e subs) (At x G) := by
  refine .ite (fun _ => .ret) fun hsubs => ?_
  refine currentFSMState_at.bind fun r => ?_
  cases r with
  | none => exact .pure fun _ hp => hp.2
  | some state => exact .pure fun _ hp => hp.2.evict (by simpa using (not_or.1 hsubs).2)

theorem notifyConfirmed_at (hstage : e.fsm.stage = .live) :
    Hoare (At x G (some e)) (notifyConfirmed e blockHeight blockHash numConfs) (At x G) := by
  refine (forSubscribers_at (fun l₁ s l₂ => ?_) e.subscribers []).bind fun _ =>
    removeStoppedConfirmedSubscribers_at
  refine .ite (fun hs => confirmOne_at hs (.inl hstage)) fun hs => ?_
  exact (notifyReversibleAsync_at (by simpa using hs) rfl).bind fun _ => .ret

theorem retryConfirmedRedelivery_at (hstage : e.fsm.stage = .live) :
    Hoare (At x G (some e)) (retryConfirmedRedelivery e confirmHeight confirmBlockHash)
      (At x G) := by
  refine (forSubscribers_at (fun l₁ s l₂ => ?_) e.subscribers []).bind fun _ =>
    removeStoppedConfirmedSubscribers_at
  exact .ite (fun hs => confirmOne_at hs (.inl hstage)) fun _ => .ret

theorem notifyReorged_at :
    Hoare (At x G (some e)) (notifyReorged e) fun e' => At x G (some e') := by
  refine (forSubscribers_at (fun l₁ s l₂ => ?_) e.subscribers []).bind fun _ => .ret
  refine .ite (fun _ => .ret) fun hs => ?_
  exact (notifyReversibleAsync_at (by simpa using hs) rfl).bind fun _ => .ret

theorem storeSealed_at (hstage : e.fsm.stage = .final ∨ e.fsm.stage = .failed) :
    Hoare (At x G (some e)) (modify (·.storeSealed e.gen) : Turn Unit)
      fun _ => At x [e.gen] (some e) :=
  .modify fun _ hp => hp.close hstage

/-- The end of a terminal delivery: an entry without subscribers is dropped. -/
theorem At.drop (h : At x G (some { e with subscribers := subs }) p) :
    At x [] (if subs = [] then none else some { e with subscribers := subs }) p := by
  split
  · next hsubs => exact h.unsealed.evict hsubs
  · exact h.unsealed

theorem notifyFinalized_at (hstage : e.fsm.stage = .final) :
    Hoare (At x G (some e)) (notifyFinalized e confirmHeight confirmBlockHash) (At x []) := by
  refine (storeSealed_at (.inl hstage)).bind fun _ => ?_
  refine (forSubscribers_at (fun l₁ s l₂ => ?_) e.subscribers []).bind fun _ =>
    .pure fun _ hp => hp.drop
  refine .ite (fun hs => ?_) fun hs => finalizeOne_at (by simpa using hs) hstage
  have hdue : ∀ q, Due e q s .confirmed := fun _ => ⟨hs, .inr hstage⟩
  refine notifyOneTerminal_at.bind fun o => ?_
  cases o with
  | delivered =>
    exact (finalizeOne_at (s := { s with pendingConfirmed := false }) rfl hstage).pre
      fun p ⟨q, hq, ha⟩ => hq.tell (hdue q) rfl ha
  | pending | subscriberStopped => exact .pure fun p ⟨q, hq, ha⟩ => hq.tell (hdue q) rfl ha

theorem notifyFailed_at (hstage : e.fsm.stage = .failed) :
    Hoare (At x G (some e)) (notifyFailed e reason) (At x []) := by
  refine (storeSealed_at (.inr hstage)).bind fun _ => ?_
  refine (forSubscribers_at (fun l₁ s l₂ => ?_) e.subscribers []).bind fun _ =>
    .pure fun _ hp => hp.drop
  have hdue : ∀ {q}, At x [e.gen] (some { e with subscribers := l₁ ++ s :: l₂ }) q →
      Due e q s .failed :=
    fun hq => ⟨hstage, hq.sealed mem_cons_self⟩
  refine notifyOneTerminal_at.bind fun o => ?_
  cases o with
  | pending | delivered | subscriberStopped =>
    exact .pure fun p ⟨q, hq, ha⟩ => hq.tell (hdue hq) rfl ha

theorem retryLifecycleNotifications_at :
    Hoare (At x [] (some e)) (retryLifecycleNotifications e) (At x []) := by
  refine currentFSMState_at.bind fun r => ?_
  split
  · next hr => exact .of_pre fun h => retryConfirmedRedelivery_at (by rw [h _ rfl]; rfl)
  · next hr => exact .of_pre fun h => notifyFinalized_at (by rw [h _ rfl]; rfl)
  · next hr => exact .of_pre fun h => notifyFailed_at (by rw [h _ rfl]; rfl)
  · exact .of_pre fun _ => .ret

end Rules

/-- The same entry, with its machine moved forward. -/
structure Entry.Evolves (e f : Entry) : Prop where
  same : f = { e with fsm := f.fsm, pendingFailureReason := f.pendingFailureReason }
  stage : e.fsm.stage.reaches f.fsm.stage = true

/-- Nothing but the script has been touched. -/
def Calm (p₀ p : Post) : Prop := p = { p₀ with script := p.script }

theorem Calm.refl : Calm p p := rfl

theorem Calm.unscripted : Unscripted (Calm p₀) := fun _ _ h => by rw [Calm, h]

section Submission

theorem Entry.Evolves.refl : e.Evolves e := ⟨rfl, Stage.reaches_refl _⟩

theorem Entry.Evolves.apply (h : e.Evolves f)
    (hev : e.fsm.stage = .early ∨ event.isFailure = false) :
    e.Evolves { f with fsm := f.fsm.apply event } := by
  refine ⟨by rw [h.same], ?_⟩
  rcases hev with hev | hev
  · rw [hev]
    rfl
  · exact Stage.reaches_trans h.stage (Fsm.stage_reaches_apply (.inr hev))

theorem Entry.Evolves.withReason (h : e.Evolves f) (reason : Option String) :
    e.Evolves { f with pendingFailureReason := reason } :=
  ⟨by rw [h.same], h.stage⟩

theorem At.evolve (h : At x G (some e) p) (hf : e.Evolves f) : At x G (some f) p := by
  rw [hf.same]
  exact h.quiet hf.stage _

theorem advanceTrackedTxFSM_at (hev : event.isFailure = false) :
    Hoare (At x [] (some e)) (e.advanceTrackedTxFSM event)
      fun r p => (r.2 = true → r.1.fsm = e.fsm.apply event ∧ e.fsm.apply event ≠ .stopped) ∧
        At x [] (some r.1) p := by
  refine (advanceTrackedTxFSM_spec At.unscripted).post ?_
  rintro ⟨f, ok⟩ p ⟨⟨rfl, rfl, hs⟩ | ⟨rfl, rfl | rfl⟩, hp⟩
  · exact ⟨fun _ => ⟨rfl, hs⟩, hp.evolve (Entry.Evolves.refl.apply (.inr hev))⟩
  · exact ⟨nofun, hp⟩
  · exact ⟨nofun, hp.evolve (Entry.Evolves.refl.apply (.inr hev))⟩

def Untold (x : Option Entry × Post) (p₀ : Post) (e : Entry) (p : Post) : Prop :=
  At x [] (some e) p ∧ Calm p₀ p

/-- After a submission: a failed one has told no one. -/
def Told (x : Option Entry × Post) (p₀ : Post) (e : Entry) (r : Option Entry × Bool) (p : Post) :
    Prop :=
  At x [] r.1 p ∧ (r.2 = false → Calm p₀ p ∧ ∃ f, e.Evolves f ∧ r.1 = some f)

theorem Untold.unscripted : Unscripted (Untold x p₀ e) :=
  fun _ script h => ⟨h.1.script script, by rw [Calm, h.2]⟩

theorem Untold.told (h : Untold x p₀ e p) (hf : e.Evolves f) (ok : Bool) :
    Told x p₀ e (some f, ok) p :=
  ⟨h.1.evolve hf, fun _ => ⟨h.2, f, hf, rfl⟩⟩

theorem advanceTrackedTxFSM_evolves (hf : e.Evolves f)
    (hev : e.fsm.stage = .early ∨ event.isFailure = false) :
    Hoare (Untold x p₀ e) (f.advanceTrackedTxFSM event)
      fun r p => (e.Evolves r.1 ∧ (r.2 = true →
        r.1.fsm = f.fsm.apply event ∧ f.fsm.apply event ≠ .stopped)) ∧ Untold x p₀ e p := by
  refine (advanceTrackedTxFSM_spec Untold.unscripted).post ?_
  rintro ⟨f', ok⟩ p ⟨⟨rfl, rfl, hs⟩ | ⟨rfl, rfl | rfl⟩, hp⟩
  · exact ⟨⟨hf.apply hev, fun _ => ⟨rfl, hs⟩⟩, hp⟩
  · exact ⟨⟨hf, nofun⟩, hp⟩
  · exact ⟨⟨hf.apply hev, nofun⟩, hp⟩

theorem failTrackedTx_told (hf : e.Evolves f) (hearly : e.fsm.stage = .early) :
    Hoare (Untold x p₀ e) (failTrackedTx f reason) (Told x p₀ e) := by
  refine (advanceTrackedTxFSM_evolves (hf.withReason (some reason)) (.inl hearly)).bind ?_
  rintro ⟨f', ok⟩
  refine .of_pre fun ⟨hf', hok⟩ => .ite (fun h => ?_) fun h => ?_
  · have hstage : f'.fsm.stage = .failed := by
      rw [(hok h).1]
      exact Fsm.stage_apply_failed (hok h).2
    refine .bind (.pre (notifyFailed_at (e := { f' with pendingFailureReason := none }) hstage)
      fun p hp => hp.1.evolve (hf'.withReason none)) fun _ => ?_
    exact .pure fun _ hp => ⟨hp, nofun⟩
  · exact .pure fun _ hp => hp.told hf' _

theorem recordBroadcastFailure_told (hf : e.Evolves f) :
    Hoare (Untold x p₀ e) (recordBroadcastFailure bestHeight f) (Told x p₀ e) := by
  refine (currentFSMState_spec Untold.unscripted).bind fun r => .of_pre fun _ => ?_
  cases r with
  | none => exact .pure fun _ hp => hp.told hf _
  | some state =>
    refine (advanceTrackedTxFSM_evolves hf (.inr rfl)).bind ?_
    rintro ⟨f', ok⟩
    exact .of_pre fun hf' => .pure fun _ hp => hp.told hf'.1 _

theorem recordInitialBroadcastOutcome_told (hf : e.Evolves f) (hearly : e.fsm.stage = .early) :
    Hoare (Untold x p₀ e) (recordInitialBroadcastOutcome bestHeight f err) (Told x p₀ e) := by
  cases err with
  | none => exact .pure fun _ hp => hp.told hf _
  | some err =>
    refine .ite (fun _ => ?_) fun _ => .ite (fun _ => failTrackedTx_told hf hearly) fun _ =>
      .ite (fun _ => recordBroadcastFailure_told hf) fun _ => failTrackedTx_told hf hearly
    refine (advanceTrackedTxFSM_evolves hf (.inr rfl)).bind ?_
    rintro ⟨f', ok⟩
    exact .of_pre fun hf' => .pure fun _ hp => hp.told hf'.1 _

theorem broadcastTrackedTx_evolves (hstart : start.isFailure = false) :
    Hoare (Untold x p₀ e) (broadcastTrackedTx bestHeight e start)
      fun r p => e.Evolves r.1 ∧ Untold x p₀ e p := by
  refine (advanceTrackedTxFSM_evolves .refl (.inr hstart)).bind ?_
  rintro ⟨f, ok⟩
  refine .of_pre fun hf => .ite (fun _ => ?_) fun _ => ?_
  · refine (answer_spec Untold.unscripted).bind fun a => ?_
    split
    · exact .pure fun _ hp => ⟨hf.1, hp⟩
    refine (advanceTrackedTxFSM_evolves hf.1 (.inr rfl)).bind ?_
    rintro ⟨f', ok'⟩
    refine .of_pre fun hf' => .ite (fun _ => .pure fun _ hp => ⟨hf'.1, hp⟩) fun _ => ?_
    exact (answer_spec Untold.unscripted).bind fun _ => .pure fun _ hp => ⟨hf'.1, hp⟩
  · exact (answer_spec Untold.unscripted).bind fun _ => .pure fun _ hp => ⟨hf.1, hp⟩

/-- A submission that reports an error has told no subscriber. -/
theorem submitInitial_told (hearly : e.fsm.stage = .early) :
    Hoare (Untold x p₀ e) (submitInitial bestHeight e) (Told x p₀ e) := by
  refine (broadcastTrackedTx_evolves rfl).bind ?_
  rintro ⟨f, err⟩
  exact .of_pre fun hf => recordInitialBroadcastOutcome_told hf hearly

theorem submitInitial_at (hearly : e.fsm.stage = .early) :
    Hoare (At x [] (some e)) (submitInitial bestHeight e) fun r => At x [] r.1 :=
  fun p hp => (submitInitial_told hearly p ⟨hp, .refl⟩).1

theorem submitFeeBump_at : Hoare (At x [] (some e)) (submitFeeBump bestHeight e) (At x []) := by
  intro p hp
  suffices h : Hoare (Untold x p e) (submitFeeBump bestHeight e) (At x []) from h p ⟨hp, rfl⟩
  refine (broadcastTrackedTx_evolves rfl).bind ?_
  rintro ⟨f, err⟩
  refine .of_pre fun hf => ?_
  cases err with
  | none => exact .pure fun _ hp => hp.1.evolve hf
  | some err =>
    refine (advanceTrackedTxFSM_evolves hf (.inr rfl)).bind ?_
    rintro ⟨f', ok⟩
    exact .of_pre fun hf' => .pure fun _ hp => hp.1.evolve hf'.1

end Submission

section Handlers

theorem retryPendingFailure_at :
    Hoare (At x [] (some e)) (retryPendingFailure e)
      fun r => At x [] (match r with | .error oe => oe | .ok f => some f) := by
  unfold retryPendingFailure
  split
  · exact .ret
  refine currentFSMState_at.bind fun r => .of_pre fun hr => ?_
  cases r with
  | none => exact .ret
  | some state =>
    refine .ite (fun hs => ?_) fun _ => .pure fun _ hp => hp.quiet (Stage.reaches_refl _) none
    have hearly : e.fsm.stage = .early := by
      rw [hr _ rfl]
      cases state <;> first | rfl | cases hs
    refine .bind (Q := fun r => At x [] r.1) (fun p hp => ?_) fun _ => .ret
    exact (failTrackedTx_told .refl hearly p ⟨hp, .refl⟩).1

theorem broadcastIntervalElapsed_at {want : TxState → Option (Option ℤ)} :
    Hoare (At x [] (some e)) (broadcastIntervalElapsed bestHeight e interval want)
      fun r p => (r = true → ∃ state last, e.fsm = .running state ∧ want state = some last) ∧
        At x [] (some e) p := by
  refine currentFSMState_at.bind fun r => .of_pre fun _ => ?_
  split
  · exact .pure fun _ hp => ⟨nofun, hp⟩
  refine currentFSMState_at.bind fun r => .of_pre fun hr => ?_
  split
  · next last hlast =>
    obtain ⟨state, rfl, hstate⟩ := Option.bind_eq_some_iff.1 hlast
    exact .pure fun _ hp => ⟨fun _ => ⟨state, _, hr _ rfl, hstate⟩, hp⟩
  · exact .pure fun _ hp => ⟨nofun, hp⟩

theorem shouldRetryBroadcast_at :
    Hoare (At x [] (some e)) (shouldRetryBroadcast bestHeight e interval)
      fun r p => (r = true → e.fsm.stage = .early) ∧ At x [] (some e) p := by
  refine broadcastIntervalElapsed_at.post fun r p hp => ⟨fun hr => ?_, hp.2⟩
  obtain ⟨state, last, hfsm, hstate⟩ := hp.1 hr
  rw [hfsm]
  cases state <;> first | rfl | cases hstate

theorem handleConfirmationObserved_at {hash : BlockHash} :
    Hoare (At x [] (some e)) (handleConfirmationObserved e height hash numConfs) (At x []) := by
  refine currentFSMState_at.bind fun r => .of_pre fun hr => ?_
  cases r with
  | none => exact .ret
  | some state =>
    refine .ite (fun _ => retryLifecycleNotifications_at) fun _ => .ite (fun hs => ?_) fun _ => ?_
    · have hstage : e.fsm.stage = .live := by
        rw [hr _ rfl]
        cases state <;> first | rfl | cases hs
      exact (notifyConfirmed_at (e := { e with pendingFailureReason := none }) hstage).pre
        fun p hp => hp.quiet (Stage.reaches_refl _) none
    · refine .bind (.pre (advanceTrackedTxFSM_at (e := { e with pendingFailureReason := none }) rfl)
        fun p hp => hp.quiet (Stage.reaches_refl _) none) ?_
      rintro ⟨f, ok⟩
      refine .of_pre fun hok => .ite (fun h => notifyConfirmed_at ?_) fun _ => .ret
      rw [(hok h).1]
      exact Fsm.stage_apply_confirmed (hok h).2

theorem handleConfirmationReorged_at :
    Hoare (At x [] (some e)) (handleConfirmationReorged e) (At x []) := by
  refine currentFSMState_at.bind fun r => .of_pre fun _ => ?_
  split
  · refine (advanceTrackedTxFSM_at rfl).bind ?_
    rintro ⟨f, ok⟩
    refine .of_pre fun _ => .ite (fun _ => ?_) fun _ => .ret
    exact notifyReorged_at.bind fun _ => .ret
  · exact .ret

theorem handleConfirmationDone_at :
    Hoare (At x [] (some e)) (handleConfirmationDone e) (At x []) := by
  refine currentFSMState_at.bind fun r => .of_pre fun _ => ?_
  split
  · refine currentFSMState_at.bind fun r => .of_pre fun _ => ?_
    split
    · refine (advanceTrackedTxFSM_at rfl).bind ?_
      rintro ⟨f, ok⟩
      refine .of_pre fun hok => .ite (fun h => notifyFinalized_at ?_) fun _ => .ret
      rw [(hok h).1]
      exact Fsm.stage_apply_finalized (hok h).2
    · exact .ret
  · exact .ret

theorem observeBlock_at :
    Hoare (At x [] (some e)) (observeBlock bestHeight e interval) (At x []) := by
  refine retryPendingFailure_at.bind fun r => ?_
  cases r with
  | error e => exact .ret
  | ok e =>
    refine currentFSMState_at.bind fun r => .of_pre fun _ => ?_
    cases r with
    | none => exact .ret
    | some state =>
      refine .ite (fun _ => retryLifecycleNotifications_at) fun _ => ?_
      refine shouldRetryBroadcast_at.bind fun due => .of_pre fun hdue => .ite (fun h => ?_) fun _ => ?_
      · exact (submitInitial_at (hdue h)).bind fun _ => .ret
      · refine broadcastIntervalElapsed_at.bind fun due => .of_pre fun _ => ?_
        exact .ite (fun _ => submitFeeBump_at) fun _ => .ret

theorem retryBroadcastingParent_at :
    Hoare (At x [] (some e)) (retryBroadcastingParent bestHeight e) (At x []) := by
  refine retryPendingFailure_at.bind fun r => ?_
  cases r with
  | error e => exact .ret
  | ok e =>
    refine currentFSMState_at.bind fun r => .of_pre fun hr => ?_
    split
    · exact (submitInitial_at (by rw [hr _ rfl]; rfl)).bind fun _ => .ret
    · exact .ret

theorem handleBumpNow_at : Hoare (At x [] (some e)) (handleBumpNow bestHeight e) (At x []) := by
  refine currentFSMState_at.bind fun r => .of_pre fun hr => ?_
  cases r with
  | none => exact .ret
  | some state =>
    refine .ite (fun _ => .ret) fun _ => ?_
    cases state with
    | broadcasting last =>
      refine .ite (fun _ => ?_) fun _ => .ret
      exact (submitInitial_at (by rw [hr _ rfl]; rfl)).bind fun _ => .ret
    | awaitingConfirmation last => exact .ite (fun _ => .ret) fun _ => submitFeeBump_at
    | finalized last height hash => exact .ite (fun _ => .ret) fun _ => submitFeeBump_at
    | _ => exact .ret

end Handlers

def Handler (f : Entry → Turn (Option Entry)) : Prop :=
  ∀ x e, Hoare (At x [] (some e)) (f e) (At x [])

theorem Handler.moves (hf : Handler f) (e : Entry) (p : Post) :
    Moves (some e, p) (((f e).run p).1, ((f e).run p).2) :=
  (hf (some e, p) e p ⟨.refl, nil_subset _⟩).moves

theorem Moves.invariant {I : Option Entry × Post → Prop} (hI : ∀ a b, Move a b → I a → I b)
    (h : Moves a b) (ha : I a) : I b := by
  induction h with
  | refl => exact ha
  | tail _ hmove ih => exact hI _ _ hmove ih

/-- A new entry is discarded if its setup fails, and it loses the subscriber that asked for it,
untold, if the submission reports an error. -/
inductive Starts (e : Entry) (ref : Ref) (p₀ : Post) : Option Entry → Post → Prop
  | refused {p : Post} : Calm p₀ p → Starts e ref p₀ none p
  | submitted {q p : Post} {oe : Option Entry} : Calm p₀ q → Moves (some e, q) (oe, p) →
      Starts e ref p₀ oe p
  | failed {f : Entry} {p : Post} : e.Evolves f → Calm p₀ p →
      Starts e ref p₀ (some (f.deleteSubscriber ref.id)) p

section Worlds

variable {w : World}

theorem Move.txid_eq (h : Move a b) (t : Txid) (ha : ∀ e ∈ a.1, e.txid = t) :
    ∀ e ∈ b.1, e.txid = t := by
  cases h with
  | @quiet e | @tell e =>
    rintro _ ⟨⟩
    exact ha e rfl
  | spawn _ _ _ | close _ => exact ha
  | evict _ => nofun

theorem Handler.txid_eq (hf : Handler f) : ∀ e' ∈ ((f e).run p).1, e'.txid = e.txid := by
  refine (hf.moves e p).invariant (I := fun a => ∀ e' ∈ a.1, e'.txid = e.txid)
    (fun _ _ h => h.txid_eq e.txid) ?_
  rintro _ ⟨⟩
  rfl

theorem World.get?_store (h : ∀ e ∈ r.1, e.txid = txid) :
    (w.store txid r).tracked.get? t = if t = txid then r.1 else w.tracked.get? t := by
  obtain ⟨oe, p⟩ := r
  cases oe with
  | none => exact Table.get?_delete
  | some e =>
    obtain rfl : e.txid = txid := h e rfl
    exact Table.get?_put

theorem World.handle_of_none (h : w.tracked.get? txid = none) : w.handle txid f = w := by
  rw [World.handle, h]

variable (h : w.tracked.get? txid = some e)
include h

theorem World.handle_of_some : w.handle txid f = w.store txid ((f e).run w.post) := by
  rw [World.handle, h]

theorem World.post_handle : (w.handle txid f).post = ((f e).run w.post).2 := by
  rw [World.handle_of_some h]
  rfl

theorem World.get?_handle
    (htxid : ∀ e' ∈ ((f e).run w.post).1, e'.txid = e.txid) (t : Txid) :
    (w.handle txid f).tracked.get? t =
      if t = txid then ((f e).run w.post).1 else w.tracked.get? t := by
  rw [World.handle_of_some h]
  exact World.get?_store fun e' he' => (htxid e' he').trans (Table.key_of_get? h)

omit h

/-- What each handling of one entry keeps is kept by the handling of all. -/
theorem World.handleAll_invariant (I : World → Prop)
    (hI : ∀ w txid best, I w → I (w.handle txid (g best))) (h : I w) : I (w.handleAll g) := by
  unfold World.handleAll
  generalize w.tracked.rows.map Entry.txid = txids
  induction txids generalizing w with
  | nil => exact h
  | cons txid txids ih => exact ih (hI w txid w.bestHeight h)

variable {K : Post → Prop}

/-- What every move keeps of the deliveries is kept by a handler. -/
theorem World.handle_keeps (hK : ∀ a b, Move a b → K a.2 → K b.2) (hf : Handler f)
    (h : K w.post) : K (w.handle txid f).post := by
  cases hget : w.tracked.get? txid with
  | none => rwa [World.handle_of_none hget]
  | some e =>
    rw [World.handle_of_some hget]
    exact (hf.moves e w.post).invariant (I := fun a => K a.2) hK h

theorem admit_spec (hearly : e.fsm.stage = .early) :
    Hoare (Calm p₀) (admitTx bestHeight active e ref) fun r => Starts e ref p₀ r.1 := by
  refine (answer_spec Calm.unscripted).bind fun a => .ite (fun _ => ?_) fun _ =>
    .pure fun _ hp => .refused hp
  refine (answer_spec Calm.unscripted).bind fun a => .ite (fun _ => ?_) fun _ =>
    .pure fun _ hp => .refused hp
  refine .bind (Q := fun r p => ∃ q, Calm p₀ q ∧ Told (some e, q) q e r p)
    (fun q hq => ⟨q, hq, submitInitial_told hearly q ⟨⟨.refl, nil_subset _⟩, rfl⟩⟩) ?_
  rintro ⟨oe, ok⟩
  refine .pure fun p ⟨q, hq, htold⟩ => ?_
  cases ok with
  | true => exact .submitted hq htold.1.moves
  | false =>
    obtain ⟨hcalm, f, hf, hoe⟩ := htold.2 rfl
    obtain rfl : oe = some f := hoe
    exact .failed hf (by rw [Calm, hcalm, hq])

theorem Starts.txid_eq (h : Starts e ref p₀ oe p) : ∀ e' ∈ oe, e'.txid = e.txid := by
  cases h with
  | refused _ => nofun
  | submitted _ hmoves =>
    refine hmoves.invariant (I := fun a => ∀ e' ∈ a.1, e'.txid = e.txid)
      (fun _ _ h => h.txid_eq e.txid) ?_
    rintro _ ⟨⟩
    rfl
  | failed hf _ =>
    rintro _ ⟨⟩
    rw [hf.same]
    rfl

theorem startTracking_spec (hnone : w.tracked.get? req.txid = none) :
    (∀ t, t ≠ req.txid → (w.startTracking req).tracked.get? t = w.tracked.get? t) ∧
    ∃ e : Entry, e.txid = req.txid ∧ e.gen = w.nextGen ∧ e.fsm = .running .new ∧
      e.subscribers = [⟨req.subscriber, true⟩] ∧
      Starts e req.subscriber w.post ((w.startTracking req).tracked.get? req.txid)
        (w.startTracking req).post := by
  have hheight : Hoare (Calm w.post) w.ensureBestHeight fun _ => Calm w.post := by
    refine .ite (fun _ => .ret) fun _ => ?_
    exact (answer_spec Calm.unscripted).bind fun _ => .ret
  have hcalm := hheight w.post rfl
  unfold World.startTracking
  rcases hr : w.ensureBestHeight.run w.post with ⟨_ | height, post⟩
  · rw [hr] at hcalm
    refine ⟨fun _ _ => rfl, req.newTrackedTx [] w.nextGen, rfl, rfl, rfl, rfl, ?_⟩
    rw [hnone]
    exact .refused hcalm
  rw [hr] at hcalm
  dsimp only
  split
  · refine ⟨fun _ _ => rfl, req.newTrackedTx [] w.nextGen, rfl, rfl, rfl, rfl, ?_⟩
    rw [hnone]
    exact .refused hcalm
  next script _ =>
  have hadmit : Hoare (Calm w.post) (admitTx height w.blockSubscriptionActive
      (req.newTrackedTx script w.nextGen) req.subscriber)
      fun r => Starts (req.newTrackedTx script w.nextGen) req.subscriber w.post r.1 :=
    admit_spec rfl
  have hstarts := hadmit post hcalm
  refine ⟨fun t ht => ?_, req.newTrackedTx script w.nextGen, rfl, rfl, rfl, rfl, ?_⟩
  · exact (World.get?_store hstarts.txid_eq).trans (if_neg ht)
  · rw [World.get?_store hstarts.txid_eq, if_pos rfl]
    exact hstarts

end Worlds

inductive Attaches (e : Entry) (ref : Ref) (p : Post) : Entry → Post → Prop
  | refused : Attaches e ref p e p
  | waiting : e.fsm.stage = .early ∨ e.fsm.stage = .live →
      Attaches e ref p (e.putSubscriber ⟨ref, true⟩) p
  | confirmed {n : Notification} {o : NotifyOutcome} {p' : Post} : e.fsm.stage = .live →
      n.kind? = some .confirmed → Attempt ⟨.confirmed, e.txid, e.gen, ref, n⟩ p o p' →
      Attaches e ref p
        (match o with
          | .delivered => e.putSubscriber ⟨ref, false⟩
          | .pending => e.putSubscriber ⟨ref, true⟩
          | .subscriberStopped => e) p'
  | finalized {n : Notification} {o : NotifyOutcome} {p' : Post} : e.fsm.stage = .final →
      n.kind? = some .finalized → Attempt ⟨.finalized, e.txid, e.gen, ref, n⟩ p o p' →
      Attaches e ref p (if o = .pending then e.putSubscriber ⟨ref, false⟩ else e) p'
  | failed {n : Notification} {o : NotifyOutcome} {p' : Post} : e.fsm.stage = .failed →
      n.kind? = some .failed → Attempt ⟨.failed, e.txid, e.gen, ref, n⟩ p o p' →
      Attaches e ref p (if o = .pending then e.putSubscriber ⟨ref, true⟩ else e) p'

/-- What the result of a deferred delivery does to the entry of its transaction. -/
inductive Resolves (e : Entry) (id : SubscriberId) (kind : Kind) : TellResult → Option Entry → Prop
  | failed : Resolves e id kind .error (some e)
  | cancelled : Resolves e id kind .stopped (some (e.deleteSubscriber id))
  | dropped : (e.deleteSubscriber id).subscribers = [] → Resolves e id kind .stopped none
  | confirmed : kind = .confirmed → Resolves e id kind .ok (some (e.clearPendingConfirmed id))
  | ended : kind ≠ .confirmed → Resolves e id kind .ok (some (e.deleteSubscriber id))
  | evicted : kind ≠ .confirmed → (e.deleteSubscriber id).subscribers = [] →
      e.fsm.stage = .final ∨ e.fsm.stage = .failed → Resolves e id kind .ok none

section Requests

variable {id : SubscriberId}

theorem attachExistingSubscriber_spec :
    Hoare (Calm p₀) (attachExistingSubscriber e ref)
      fun r p => ∃ e' q, r = some e' ∧ Calm p₀ q ∧ Attaches e ref q e' p := by
  refine (currentFSMState_spec Calm.unscripted).bind fun r => .of_pre fun hr => ?_
  cases r with
  | none => exact .pure fun p hp => ⟨e, p, rfl, hp, .refused⟩
  | some state =>
    refine .ite (fun _ => .pure fun p hp => ⟨e, p, rfl, hp, .refused⟩) fun _ => ?_
    have hfsm := hr state rfl
    cases state with
    | confirmed last height hash =>
      refine (notifyOneTerminal_spec Calm.unscripted).bind fun o => ?_
      have hstage : e.fsm.stage = .live := by rw [hfsm]; rfl
      cases o <;> exact .pure fun p ⟨q, hq, ha⟩ => ⟨_, q, rfl, hq, .confirmed hstage rfl ha⟩
    | finalized last height hash =>
      refine (notifyOneTerminal_spec Calm.unscripted).bind fun o => ?_
      have hstage : e.fsm.stage = .final := by rw [hfsm]; rfl
      cases o <;> exact .pure fun p ⟨q, hq, ha⟩ => ⟨_, q, rfl, hq, .finalized hstage rfl ha⟩
    | failed last reason =>
      refine (notifyOneTerminal_spec Calm.unscripted).bind fun o => ?_
      have hstage : e.fsm.stage = .failed := by rw [hfsm]; rfl
      cases o <;> exact .pure fun p ⟨q, hq, ha⟩ => ⟨_, q, rfl, hq, .failed hstage rfl ha⟩
    | new => exact .pure fun p hp => ⟨_, p, rfl, hp, .waiting (.inl (by rw [hfsm]; rfl))⟩
    | broadcasting last =>
      exact .pure fun p hp => ⟨_, p, rfl, hp, .waiting (.inl (by rw [hfsm]; rfl))⟩
    | _ => exact .pure fun p hp => ⟨_, p, rfl, hp, .waiting (.inr (by rw [hfsm]; rfl))⟩

/-- The entry without the subscriber; it may be dropped if no other is left. -/
theorem handleCancel_spec :
    Hoare (Calm p₀) (handleCancel e id)
      fun r p => (r = some (e.deleteSubscriber id) ∨
        (r = none ∧ (e.deleteSubscriber id).subscribers = [])) ∧ Calm p₀ p := by
  refine .ite (fun _ => .pure fun p hp => ⟨.inl rfl, hp⟩) fun hsubs => ?_
  refine (currentFSMState_spec Calm.unscripted).bind fun r => .of_pre fun _ => ?_
  cases r with
  | none => exact .pure fun p hp => ⟨.inl rfl, hp⟩
  | some state => exact .pure fun p hp => ⟨.inr ⟨rfl, by simpa using hsubs⟩, hp⟩

theorem clearPendingConfirmed_of_not_mem (h : ∀ s ∈ e.subscribers, s.ref.id ≠ id) :
    e.clearPendingConfirmed id = e := by
  have hmap : (e.subscribers.map fun s =>
      if s.ref.id = id then { s with pendingConfirmed := false } else s) = e.subscribers := by
    conv_rhs => rw [← map_id e.subscribers]
    refine map_congr_left fun s hs => ?_
    exact if_neg (h s hs)
  rw [Entry.clearPendingConfirmed, hmap]

theorem confirmedDelivered_spec :
    Hoare (Calm p₀) (confirmedDelivered e id)
      fun r p => r = some (e.clearPendingConfirmed id) ∧ ∃ q, Calm p₀ q ∧ (p = q ∨
        ∃ s ∈ e.subscribers, s.ref.id = id ∧ p = q.spawn ⟨e.txid, e.gen, s.ref, .reorged, false⟩) := by
  unfold confirmedDelivered
  split
  · next hfind =>
    have hclear : e.clearPendingConfirmed id = e :=
      clearPendingConfirmed_of_not_mem (by simpa using hfind)
    exact .pure fun p hp => ⟨by rw [hclear], p, hp, .inl rfl⟩
  next s hfind =>
  refine (currentFSMState_spec Calm.unscripted).bind fun r => .of_pre fun _ => ?_
  cases r with
  | none => exact .pure fun p hp => ⟨rfl, p, hp, .inl rfl⟩
  | some state =>
    refine .ite (fun _ => .pure fun p hp => ⟨rfl, p, hp, .inl rfl⟩) fun _ => ?_
    refine .bind (.modify fun q hq => ?_) fun _ => .pure fun p hp => ⟨rfl, hp⟩
    exact ⟨q, hq, .inr ⟨s, mem_of_find?_eq_some hfind, by simpa using find?_some hfind, rfl⟩⟩

theorem terminalDelivered_spec :
    Hoare (Calm p₀) (terminalDelivered e id)
      fun r p => (r = some (e.deleteSubscriber id) ∨
        (r = none ∧ (e.deleteSubscriber id).subscribers = [] ∧
          (e.fsm.stage = .final ∨ e.fsm.stage = .failed))) ∧ Calm p₀ p := by
  refine .ite (fun _ => .pure fun p hp => ⟨.inl rfl, hp⟩) fun hsubs => ?_
  refine (currentFSMState_spec Calm.unscripted).bind fun r => .of_pre fun hr => ?_
  cases r with
  | none => exact .pure fun p hp => ⟨.inl rfl, hp⟩
  | some state =>
    refine .pure fun p hp => ⟨?_, hp⟩
    split
    · next hterm =>
      refine .inr ⟨rfl, by simpa using hsubs, ?_⟩
      rw [show e.fsm = _ from hr state rfl]
      cases state <;> first | exact .inl rfl | exact .inr rfl | cases hterm
    · exact .inl rfl

/-- A result may also start a detached `TxReorged`, to a subscriber that it confirms. -/
theorem handleTerminalNotifyResult_spec :
    Hoare (Calm p₀) (handleTerminalNotifyResult e kind id res)
      fun r p => Resolves e id kind res r ∧ ∃ q, Calm p₀ q ∧ (p = q ∨
        (kind = .confirmed ∧ res = .ok ∧ ∃ s ∈ e.subscribers, s.ref.id = id ∧
          p = q.spawn ⟨e.txid, e.gen, s.ref, .reorged, false⟩)) := by
  have hterminal (hkind : kind ≠ .confirmed) : Hoare (Calm p₀) (terminalDelivered e id)
      fun r p => Resolves e id kind .ok r ∧ ∃ q, Calm p₀ q ∧ (p = q ∨
        (kind = .confirmed ∧ TellResult.ok = .ok ∧ ∃ s ∈ e.subscribers, s.ref.id = id ∧
          p = q.spawn ⟨e.txid, e.gen, s.ref, .reorged, false⟩)) := by
    refine terminalDelivered_spec.post ?_
    rintro r p ⟨rfl | ⟨rfl, hsubs, hstage⟩, hp⟩
    · exact ⟨.ended hkind, p, hp, .inl rfl⟩
    · exact ⟨.evicted hkind hsubs hstage, p, hp, .inl rfl⟩
  cases res with
  | error => exact .pure fun p hp => ⟨.failed, p, hp, .inl rfl⟩
  | stopped =>
    refine handleCancel_spec.post ?_
    rintro r p ⟨rfl | ⟨rfl, hsubs⟩, hp⟩
    · exact ⟨.cancelled, p, hp, .inl rfl⟩
    · exact ⟨.dropped hsubs, p, hp, .inl rfl⟩
  | ok =>
    cases kind with
    | confirmed =>
      refine confirmedDelivered_spec.post ?_
      rintro r p ⟨rfl, q, hq, hp⟩
      exact ⟨.confirmed rfl, q, hq, hp.imp_right fun h => ⟨rfl, rfl, h⟩⟩
    | finalized | failed => exact hterminal nofun

theorem Resolves.txid_eq (h : Resolves e id kind res r) : ∀ e' ∈ r, e'.txid = e.txid := by
  cases h with
  | dropped _ | evicted _ _ _ => nofun
  | _ =>
    rintro _ ⟨⟩
    rfl

variable {w w' : World}

theorem World.handleCancel_spec (w : World) (txid : Txid) (id : SubscriberId) :
    (∀ t, t ≠ txid → (w.handle txid (handleCancel · id)).tracked.get? t = w.tracked.get? t) ∧
    Calm w.post (w.handle txid (handleCancel · id)).post ∧
    ∀ e, w.tracked.get? txid = some e →
      (w.handle txid (handleCancel · id)).tracked.get? txid = some (e.deleteSubscriber id) ∨
      ((w.handle txid (handleCancel · id)).tracked.get? txid = none ∧
        (e.deleteSubscriber id).subscribers = []) := by
  cases hget : w.tracked.get? txid with
  | none =>
    rw [World.handle_of_none hget]
    exact ⟨fun _ _ => rfl, .refl, nofun⟩
  | some e =>
    obtain ⟨hr, hcalm⟩ := Txconfirm.handleCancel_spec (e := e) w.post .refl
    have htxid : ∀ e' ∈ ((handleCancel e id).run w.post).1, e'.txid = e.txid := by
      rcases hr with hr | ⟨hr, -⟩ <;> rw [hr]
      · rintro _ ⟨⟩
        rfl
      · nofun
    have hget' := World.get?_handle (f := (handleCancel · id)) hget htxid
    refine ⟨fun t ht => by rw [hget', if_neg ht], ?_, ?_⟩
    · rw [World.post_handle hget]
      exact hcalm
    · rintro _ ⟨⟩
      rw [hget', if_pos rfl]
      exact hr

theorem World.resultObserved_spec (hx : w.post.results[i]? = some (d, res))
    (hstep : w.resultObserved i = some w') :
    (∀ t, t ≠ d.txid → w'.tracked.get? t = w.tracked.get? t) ∧
    (∃ q, Calm (w.post.takeResult i d) q ∧ (w'.post = q ∨ (d.kind = .confirmed ∧ res = .ok ∧
      ∃ e, w.tracked.get? d.txid = some e ∧ ∃ s ∈ e.subscribers, s.ref.id = d.ref.id ∧
        w'.post = q.spawn ⟨e.txid, e.gen, s.ref, .reorged, false⟩))) ∧
    (w.tracked.get? d.txid = none → w'.tracked = w.tracked) ∧
    ∀ e, w.tracked.get? d.txid = some e →
      Resolves e d.ref.id d.kind res (w'.tracked.get? d.txid) := by
  obtain ⟨x, hx', hw⟩ := Option.bind_eq_some_iff.1 hstep
  cases hx.symm.trans hx'
  cases hw
  cases hget : w.tracked.get? d.txid with
  | none =>
    rw [World.handle_of_none (w := w.withPost (w.post.takeResult i d)) hget]
    exact ⟨fun _ _ => rfl, ⟨_, .refl, .inl rfl⟩, fun _ => rfl, nofun⟩
  | some e =>
    have hget₁ : (w.withPost (w.post.takeResult i d)).tracked.get? d.txid = some e := hget
    obtain ⟨hres, q, hq, hpost⟩ := handleTerminalNotifyResult_spec (e := e) (w.post.takeResult i d)
      .refl
    have hget' := World.get?_handle
      (f := fun e => handleTerminalNotifyResult e d.kind d.ref.id res) hget₁ hres.txid_eq
    refine ⟨fun t ht => ?_, ⟨q, hq, ?_⟩, nofun, ?_⟩
    · exact (hget' t).trans (if_neg ht)
    · rw [World.post_handle hget₁]
      refine hpost.imp_right fun ⟨hkind, hok, s, hs, hid, hp⟩ => ?_
      exact ⟨hkind, hok, e, rfl, s, hs, hid, hp⟩
    · rintro _ ⟨⟩
      exact ((hget' _).trans (if_pos rfl)) ▸ hres

end Requests

def Action.isResultObserved : Action → Bool
  | .resultObserved _ _ => true
  | _ => false

/-- The steps of the actor and of its deliveries. In most turns the actor only handles one entry,
or all of them in some order. -/
inductive Step (w : World) : Action → World → Prop
  | ensure {req : EnsureReq} {script : List Answer} :
      Step w (.ensure req script) ((w.withScript script).handleEnsure req)
  | cancel {txid : Txid} {id : SubscriberId} {script : List Answer} :
      Step w (.cancel txid id script) ((w.withScript script).handle txid (handleCancel · id))
  | handler {a : Action} {script : List Answer} {txid : Txid} {f : Entry → Turn (Option Entry)} :
      a.isResultObserved = false → Handler f →
      Step w a ((w.withScript script).handle txid f)
  | all {a : Action} {v : World} {g : ℤ → Entry → Turn (Option Entry)} :
      a.isResultObserved = false → v.tracked = w.tracked → Calm w.post v.post →
      (∀ best, Handler (g best)) → Step w a (v.handleAll g)
  | resultObserved {i : ℕ} {script : List Answer} {w' : World} :
      (w.withScript script).resultObserved i = some w' → Step w (.resultObserved i script) w'
  | deferredReturns {i : ℕ} {res : TellResult} {w' : World} :
      w.deferredReturns i res = some w' → Step w (.deferredReturns i res) w'
  | detachedReads {i : ℕ} {w' : World} : w.detachedReads i = some w' → Step w (.detachedReads i) w'
  | detachedSends {i : ℕ} {res : TellResult} {w' : World} :
      w.detachedSends i res = some w' → Step w (.detachedSends i res) w'

theorem World.step_cases {a : Action} (h : w.step interval a = some w') : Step w a w' := by
  cases a with
  | ensure req script =>
    cases h
    exact .ensure
  | cancel txid id script =>
    cases h
    exact .cancel
  | bumpNow txid script =>
    cases h
    exact .handler rfl fun _ _ => handleBumpNow_at
  | confirmationObserved txid height hash numConfs script =>
    cases h
    exact .handler rfl fun _ _ => handleConfirmationObserved_at
  | confirmationReorged txid script =>
    cases h
    exact .handler rfl fun _ _ => handleConfirmationReorged_at
  | confirmationDone txid script =>
    cases h
    exact .handler rfl fun _ _ => handleConfirmationDone_at
  | blockObserved height script =>
    cases h
    unfold World.handleBlockObserved
    refine .all rfl ?_ ?_ fun _ _ _ => observeBlock_at
    · split <;> rfl
    · split <;> exact rfl
  | fanoutConfirmed script =>
    cases h
    unfold World.retryBroadcastingParents
    exact .all rfl rfl rfl fun _ _ _ => retryBroadcastingParent_at
  | resultObserved i script => exact .resultObserved h
  | deferredReturns i res => exact .deferredReturns h
  | detachedReads i => exact .detachedReads h
  | detachedSends i res => exact .detachedSends h

theorem World.detachedReads_spec {w w' : World} (h : w.detachedReads i = some w') :
    ∃ d, w.post.detached[i]? = some d ∧ d.checked = false ∧
      ((d.gen ∈ w.post.sealed ∧
        w' = w.withPost { w.post with detached := w.post.detached.eraseIdx i }) ∨
      (d.gen ∉ w.post.sealed ∧ w' = w.withPost
        { w.post with detached := w.post.detached.set i { d with checked := true } })) := by
  obtain ⟨d, hd, hw⟩ := Option.bind_eq_some_iff.1 h
  refine ⟨d, hd, ?_⟩
  split at hw
  · cases hw
  next hchecked =>
  refine ⟨by simpa using hchecked, ?_⟩
  split at hw
  · next hsealed =>
    cases hw
    exact .inl ⟨hsealed, rfl⟩
  · next hsealed =>
    cases hw
    exact .inr ⟨hsealed, rfl⟩

theorem World.detachedSends_spec {w w' : World} (h : w.detachedSends i res = some w') :
    ∃ d, w.post.detached[i]? = some d ∧ d.checked = true ∧ w' = w.withPost
      { w.post.told d.receipt res with
        detached := (w.post.told d.receipt res).detached.eraseIdx i } := by
  obtain ⟨d, hd, hw⟩ := Option.bind_eq_some_iff.1 h
  split at hw
  · next hchecked =>
    cases hw
    exact ⟨d, hd, hchecked, rfl⟩
  · cases hw

end Wavelength.Txconfirm
