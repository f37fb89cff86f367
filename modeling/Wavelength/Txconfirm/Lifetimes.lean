import Wavelength.Txconfirm.Moves

/-! # Tracking lifetimes

A transaction that is tracked again after its entry was dropped has a new entry, and deliveries
of the old one may still be under way. Every step accounts for the subscribers of every tracked
entry, unless the result of a delivery is applied to an entry, or to a subscriber, that it was not
started for.
-/

namespace Wavelength.Txconfirm

open List Option

namespace Post

variable (p : Post) (gen : ℕ) (ref : Ref)

def Confirmed : Prop :=
  ∃ r ∈ p.inbox, r.gen = gen ∧ r.ref = ref ∧ r.notification.isConfirmed = true

def Ended : Prop :=
  ∃ r ∈ p.inbox, r.gen = gen ∧ r.ref = ref ∧ r.notification.isTerminal = true

instance : Decidable (p.Confirmed gen ref) := by unfold Confirmed; infer_instance

instance : Decidable (p.Ended gen ref) := by unfold Ended; infer_instance

/-- What the mailboxes have answered is not taken back. -/
structure Le (p q : Post) : Prop where
  inbox : p.inbox ⊆ q.inbox
  stopped : p.stopped ⊆ q.stopped

/-- The notification fits the kind of the delivery, and the result tells what the mailbox did. -/
structure Honest (d : Deferred) (res : TellResult) : Prop where
  kind : d.notification.kind? = some d.kind
  accepted : res = .ok → d.receipt ∈ p.inbox
  refused : res = .stopped → d.ref ∈ p.stopped

structure Logged : Prop where
  deferred : ∀ d ∈ p.deferred, d.notification.kind? = some d.kind
  results : ∀ x ∈ p.results, p.Honest x.1 x.2

end Post

variable {p₀ : Post}

section Answers

variable {p p' q : Post}

namespace Post

theorem Le.refl : p.Le p := ⟨fun _ h => h, fun _ h => h⟩

theorem Le.trans (h₁ : p.Le p') (h₂ : p'.Le q) : p.Le q :=
  ⟨fun _ h => h₂.inbox (h₁.inbox h), fun _ h => h₂.stopped (h₁.stopped h)⟩

theorem Confirmed.mono (h : p.Confirmed gen ref) (hle : p.Le q) : q.Confirmed gen ref := by
  obtain ⟨r, hr, h⟩ := h
  exact ⟨r, hle.inbox hr, h⟩

theorem Ended.mono (h : p.Ended gen ref) (hle : p.Le q) : q.Ended gen ref := by
  obtain ⟨r, hr, h⟩ := h
  exact ⟨r, hle.inbox hr, h⟩

theorem le_told : p.Le (p.told r res) := by
  cases res with
  | ok => exact ⟨subset_append_left _ _, fun _ h => h⟩
  | stopped => exact ⟨fun _ h => h, subset_append_left _ _⟩
  | error => exact .refl

/-- A change that only adds to what the mailboxes have answered. -/
theorem Logged.mono (h : p.Logged) (hle : p.Le q) (hd : q.deferred = p.deferred)
    (hr : q.results = p.results) : q.Logged := by
  refine ⟨hd ▸ h.deferred, fun x hx => ?_⟩
  obtain ⟨hkind, hok, hstopped⟩ := h.results x (hr ▸ hx)
  exact ⟨hkind, fun e => hle.inbox (hok e), fun e => hle.stopped (hstopped e)⟩

theorem told_deferred : (p.told r res).deferred = p.deferred := by
  cases res <;> rfl

theorem told_results : (p.told r res).results = p.results := by
  cases res <;> rfl

end Post

namespace Attempt

theorem le (h : Attempt d p o p') : p.Le p' := by
  cases h with
  | accepted _ | stopped _ => exact Post.le_told
  | _ => exact ⟨fun _ h => h, fun _ h => h⟩

theorem mem_inbox (h : Attempt d p .delivered p') : d.receipt ∈ p'.inbox := by
  cases h
  exact mem_append_right _ mem_cons_self

theorem mem_stopped (h : Attempt d p .subscriberStopped p') : d.ref ∈ p'.stopped := by
  cases h
  exact mem_append_right _ mem_cons_self

theorem logged (h : Attempt d p o p') (hd : d.notification.kind? = some d.kind) (hp : p.Logged) :
    p'.Logged := by
  cases h with
  | held _ | error _ => exact hp
  | accepted _ | stopped _ => exact hp.mono Post.le_told rfl rfl
  | deferred _ =>
    refine ⟨fun d' hd' => ?_, fun x hx => ⟨(hp.results x hx).kind, (hp.results x hx).accepted,
      (hp.results x hx).refused⟩⟩
    rcases mem_append.1 hd' with hd' | hd'
    · exact hp.deferred d' hd'
    · obtain rfl : d' = d := by simpa using hd'
      exact hd

end Attempt

theorem Move.le (h : Move a b) : a.2.Le b.2 := by
  cases h with
  | tell _ _ _ ha => exact ha.le
  | _ => exact ⟨fun _ h => h, fun _ h => h⟩

theorem Move.logged (h : Move a b) (ha : a.2.Logged) : b.2.Logged := by
  cases h with
  | tell _ _ hn h => exact h.logged hn ha
  | _ => exact ha.mono ⟨fun _ h => h, fun _ h => h⟩ rfl rfl

theorem Calm.le (h : Calm p₀ p) : p₀.Le p := by
  rw [h]
  exact ⟨fun _ h => h, fun _ h => h⟩

theorem Calm.logged (h : Calm p₀ p) (hp : p₀.Logged) : p.Logged := by
  rw [h]
  exact hp.mono ⟨fun _ h => h, fun _ h => h⟩ rfl rfl

end Answers

/-- The subscriber is still attached, and marked as confirmed only after a confirmation of the
entry; or the entry has ended for it, or it has stopped. -/
def Held (p : Post) (gen : ℕ) (s : Subscriber) (subscribers : List Subscriber) : Prop :=
  s.ref ∈ p.stopped ∨ p.Ended gen s.ref ∨ ∃ s' ∈ subscribers, s'.ref = s.ref ∧
    (s.pendingConfirmed = true → s'.pendingConfirmed = false → p.Confirmed gen s.ref)

/-- What has become of the entry `e₀` accounts for its subscribers. -/
structure Accounts (e₀ : Entry) (a : Option Entry × Post) : Prop where
  same : ∀ e ∈ a.1, e.txid = e₀.txid ∧ e.gen = e₀.gen
  held : ∀ s ∈ e₀.subscribers, Held a.2 e₀.gen s (a.1.elim [] Entry.subscribers)

section Accounts

variable {e₀ e : Entry}

theorem Held.mono (h : Held p gen s subs) (hle : p.Le q) : Held q gen s subs := by
  rcases h with h | h | ⟨s', hs', href, hmark⟩
  · exact .inl (hle.stopped h)
  · exact .inr (.inl (h.mono hle))
  · exact .inr (.inr ⟨s', hs', href, fun h h' => (hmark h h').mono hle⟩)

theorem Held.of_mem (h : s ∈ subs) : Held p gen s subs :=
  .inr (.inr ⟨s, h, rfl, fun h h' => absurd (h.symm.trans h') nofun⟩)

theorem Held.trans (h : Held p gen s subs) (hle : p.Le q)
    (hsubs : ∀ s' ∈ subs, Held q gen s' subs') : Held q gen s subs' := by
  rcases h with h | h | ⟨s', hs', href, hmark⟩
  · exact .inl (hle.stopped h)
  · exact .inr (.inl (h.mono hle))
  rcases hsubs s' hs' with h | h | ⟨s'', hs'', href', hmark'⟩
  · exact .inl (href ▸ h)
  · exact .inr (.inl (href ▸ h))
  refine .inr (.inr ⟨s'', hs'', href'.trans href, fun h h' => ?_⟩)
  cases hpend : s'.pendingConfirmed with
  | false => exact (hmark h hpend).mono hle
  | true => exact href ▸ hmark' hpend h'

theorem Accounts.refl : Accounts e (some e, p) where
  same e' he' := by
    cases he'
    exact ⟨rfl, rfl⟩
  held _ hs := .of_mem hs

theorem Accounts.mono (h : Accounts e₀ (oe, p)) (hle : p.Le q) : Accounts e₀ (oe, q) :=
  ⟨h.same, fun s hs => (h.held s hs).mono hle⟩

theorem Accounts.step (h : Accounts e₀ (some e, p)) (hle : p.Le q)
    (hsame : ∀ e' ∈ oe, e'.txid = e.txid ∧ e'.gen = e.gen)
    (hheld : ∀ s ∈ e.subscribers, Held q e.gen s (oe.elim [] Entry.subscribers)) :
    Accounts e₀ (oe, q) := by
  obtain ⟨htxid, hgen⟩ := h.same e rfl
  refine ⟨fun e' he' => ?_, fun s hs => ?_⟩
  · obtain ⟨h₁, h₂⟩ := hsame e' he'
    exact ⟨h₁.trans htxid, h₂.trans hgen⟩
  · exact (h.held s hs).trans hle (hgen ▸ hheld)

theorem Attempt.accounts (h : Attempt ⟨kind, e.txid, e.gen, s.ref, n⟩ p o q)
    (hn : n.kind? = some kind) (hs' : s' ∈ l₁ ++ s :: l₂) :
    Held q e.gen s' (l₁ ++ ((s.after kind o).toList ++ l₂)) := by
  have hother : s' ∈ l₁ ∨ s' ∈ l₂ → Held q e.gen s' (l₁ ++ ((s.after kind o).toList ++ l₂)) := by
    intro hmem
    refine .of_mem ?_
    rcases hmem with hmem | hmem
    · exact mem_append_left _ hmem
    · exact mem_append_right _ (mem_append_right _ hmem)
  rcases mem_append.1 hs' with hs' | hs'
  · exact hother (.inl hs')
  rcases mem_cons.1 hs' with rfl | hs'
  swap
  · exact hother (.inr hs')
  cases o with
  | pending => exact .of_mem (by simp [Subscriber.after])
  | subscriberStopped => exact .inl h.mem_stopped
  | delivered =>
    cases n with
    | confirmed height hash numConfs =>
      cases hn
      refine .inr (.inr ⟨{ s' with pendingConfirmed := false }, by simp [Subscriber.after], rfl, ?_⟩)
      exact fun _ _ => ⟨_, h.mem_inbox, rfl, rfl, rfl⟩
    | reorged => cases hn
    | finalized height numConfs | failed reason => exact .inr (.inl ⟨_, h.mem_inbox, rfl, rfl, rfl⟩)

theorem Move.accounts (h : Move a b) (ha : Accounts e₀ a) : Accounts e₀ b := by
  cases h with
  | quiet fsm reason script hreach =>
    refine ha.step ⟨fun _ h => h, fun _ h => h⟩ ?_ fun s hs => .of_mem hs
    rintro _ ⟨⟩
    exact ⟨rfl, rfl⟩
  | tell hsubs hdue hn hatt =>
    refine ha.step hatt.le ?_ fun s hs => ?_
    · rintro _ ⟨⟩
      exact ⟨rfl, rfl⟩
    exact hatt.accounts hn (hsubs ▸ hs)
  | spawn hs hp hn | close hstage => exact ha.mono ⟨fun _ h => h, fun _ h => h⟩
  | evict hsubs =>
    refine ha.step .refl nofun fun s hs => ?_
    rw [hsubs] at hs
    cases hs

end Accounts

def World.Accounts (w : World) (e₀ : Entry) : Prop :=
  Txconfirm.Accounts e₀ (w.tracked.get? e₀.txid, w.post)

/-- The result would change the entry. -/
def Touches (e : Entry) (d : Deferred) : TellResult → Prop
  | .error => False
  | .stopped => e.hasSubscriber d.ref.id ∨ e.subscribers = []
  | .ok =>
    match d.kind with
    | .confirmed => ∃ s ∈ e.subscribers, s.ref.id = d.ref.id ∧ s.pendingConfirmed = true
    | _ => e.hasSubscriber d.ref.id ∨
      (e.subscribers = [] ∧ (e.fsm.stage = .final ∨ e.fsm.stage = .failed))

/-- The delivery was started for this entry and for the mailbox that is attached to it. -/
def Owns (e : Entry) (d : Deferred) : Prop :=
  d.gen = e.gen ∧ ∀ s ∈ e.subscribers, s.ref.id = d.ref.id → s.ref = d.ref

section Results

variable {e : Entry} {id : SubscriberId}

theorem hasSubscriber_iff : e.hasSubscriber id = true ↔ ∃ s ∈ e.subscribers, s.ref.id = id := by
  simp [Entry.hasSubscriber]

theorem deleteSubscriber_of_not_mem (h : ∀ s ∈ e.subscribers, s.ref.id ≠ id) :
    e.deleteSubscriber id = e := by
  have hfilter : e.subscribers.filter (·.ref.id ≠ id) = e.subscribers := by
    simpa using h
  rw [Entry.deleteSubscriber, hfilter]

theorem touches_ok_iff (hkind : d.kind ≠ .confirmed) :
    Touches e d .ok ↔ e.hasSubscriber d.ref.id = true ∨
      (e.subscribers = [] ∧ (e.fsm.stage = .final ∨ e.fsm.stage = .failed)) := by
  simp only [Touches]

/-- A result that does not touch the entry leaves it as it is. -/
theorem Resolves.eq_of_not_touches {r : Option Entry} (h : Resolves e d.ref.id d.kind res r)
    (ht : ¬ Touches e d res) : r = some e := by
  have hmiss (ht : ¬ e.hasSubscriber d.ref.id = true) : e.deleteSubscriber d.ref.id = e := by
    rw [hasSubscriber_iff] at ht
    exact deleteSubscriber_of_not_mem fun s hs hid => ht ⟨s, hs, hid⟩
  cases h with
  | failed => rfl
  | cancelled => rw [hmiss fun h => ht (.inl h)]
  | dropped hsubs =>
    rw [hmiss fun h => ht (.inl h)] at hsubs
    exact absurd (.inr hsubs) ht
  | confirmed hkind =>
    have hrows : e.subscribers.map (fun s =>
        if s.ref.id = d.ref.id then { s with pendingConfirmed := false } else s) =
        e.subscribers.map fun s => s := by
      refine map_congr_left fun s hs => ?_
      split
      · next hid =>
        have hs' : s.pendingConfirmed = false := by
          by_contra hpend
          refine ht ?_
          simp only [Touches, hkind]
          exact ⟨s, hs, hid, by simpa using hpend⟩
        rw [← hs']
      · rfl
    rw [Entry.clearPendingConfirmed, hrows, List.map_id']
  | ended hkind =>
    rw [touches_ok_iff hkind] at ht
    rw [hmiss fun h => ht (.inl h)]
  | evicted hkind hsubs hstage =>
    rw [touches_ok_iff hkind] at ht
    rw [hmiss fun h => ht (.inl h)] at hsubs
    exact absurd (.inr ⟨hsubs, hstage⟩) ht

/-- A removal is accounted for when the removed subscriber has stopped or has been told the end. -/
theorem held_deleteSubscriber
    (h : ∀ s ∈ e.subscribers, s.ref.id = id → s.ref ∈ p.stopped ∨ p.Ended e.gen s.ref)
    (hs : s ∈ e.subscribers) : Held p e.gen s (e.deleteSubscriber id).subscribers := by
  by_cases hid : s.ref.id = id
  · rcases h s hs hid with h | h
    · exact .inl h
    · exact .inr (.inl h)
  · exact .of_mem (mem_filter.2 ⟨hs, by simpa using hid⟩)

theorem Resolves.accounts {r : Option Entry} (h : Resolves e d.ref.id d.kind res r)
    (hp : p.Honest d res) (hown : Touches e d res → Owns e d) : Accounts e (r, p) := by
  by_cases ht : Touches e d res
  swap
  · rw [h.eq_of_not_touches ht]
    exact .refl
  obtain ⟨hgen, hrefs⟩ := hown ht
  have hstopped (hres : res = .stopped) :
      ∀ s ∈ e.subscribers, s.ref.id = d.ref.id → s.ref ∈ p.stopped ∨ p.Ended e.gen s.ref := by
    intro s hs hid
    rw [hrefs s hs hid]
    exact .inl (hp.refused hres)
  have hended (hres : res = .ok) (hkind : d.kind ≠ .confirmed) :
      ∀ s ∈ e.subscribers, s.ref.id = d.ref.id → s.ref ∈ p.stopped ∨ p.Ended e.gen s.ref := by
    intro s hs hid
    rw [hrefs s hs hid]
    refine .inr ⟨d.receipt, hp.accepted hres, hgen, rfl, ?_⟩
    have hk := hp.kind
    cases hn : d.notification with
    | confirmed height hash numConfs =>
      rw [hn] at hk
      exact absurd (some.inj hk).symm hkind
    | reorged =>
      rw [hn] at hk
      cases hk
    | finalized height numConfs | failed reason =>
      simp [Deferred.receipt, hn, Notification.isTerminal]
  cases h with
  | failed => exact .refl
  | cancelled =>
    refine Accounts.refl.step .refl ?_ fun s hs => held_deleteSubscriber (hstopped rfl) hs
    rintro _ ⟨⟩
    exact ⟨rfl, rfl⟩
  | dropped hsubs =>
    refine Accounts.refl.step .refl nofun fun s hs => ?_
    exact hsubs ▸ held_deleteSubscriber (hstopped rfl) hs
  | ended hkind =>
    refine Accounts.refl.step .refl ?_ fun s hs => held_deleteSubscriber (hended rfl hkind) hs
    rintro _ ⟨⟩
    exact ⟨rfl, rfl⟩
  | evicted hkind hsubs hstage =>
    refine Accounts.refl.step .refl nofun fun s hs => ?_
    exact hsubs ▸ held_deleteSubscriber (hended rfl hkind) hs
  | confirmed hkind =>
    refine Accounts.refl.step .refl ?_ fun s hs => ?_
    · rintro _ ⟨⟩
      exact ⟨rfl, rfl⟩
    refine .inr (.inr ⟨_, mem_map_of_mem hs, by split <;> rfl, fun hpend hpend' => ?_⟩)
    split at hpend'
    · next hid =>
      rw [hrefs s hs hid]
      refine ⟨d.receipt, hp.accepted rfl, hgen, rfl, ?_⟩
      have hk := hkind ▸ hp.kind
      cases hn : d.notification with
      | confirmed height hash numConfs => simp [Deferred.receipt, hn, Notification.isConfirmed]
      | _ =>
        rw [hn] at hk
        cases hk
    · exact absurd (hpend.symm.trans hpend') nofun

end Results

section Worlds

variable {w w' : World}

theorem World.Accounts.refl (h : e₀ ∈ w.tracked.rows) : w.Accounts e₀ := by
  rw [World.Accounts, Table.mem_rows_iff.1 h]
  exact .refl

variable (h : w.Accounts e₀)
include h

theorem World.Accounts.of_le (htracked : w'.tracked = w.tracked)
    (hle : w.post.Le w'.post) : w'.Accounts e₀ := by
  rw [World.Accounts, htracked]
  exact h.mono hle

/-- The handling of one transaction, by what it does to its own entry. -/
theorem World.Accounts.handle
    (hf : ∀ e, w.tracked.get? txid = some e →
      w.post.Le ((f e).run w.post).2 ∧ (∀ e' ∈ ((f e).run w.post).1, e'.txid = txid) ∧
      (e₀.txid = txid → Txconfirm.Accounts e₀ (some e, w.post) →
        Txconfirm.Accounts e₀ (((f e).run w.post).1, ((f e).run w.post).2))) :
    (w.handle txid f).Accounts e₀ := by
  cases hget : w.tracked.get? txid with
  | none => rwa [World.handle_of_none hget]
  | some e =>
    obtain ⟨hle, htxid, hacc⟩ := hf e hget
    rw [World.handle_of_some hget, World.Accounts, World.get?_store htxid]
    split
    · next heq =>
      rw [World.Accounts, heq, hget] at h
      exact hacc heq h
    · exact h.mono hle

theorem World.Accounts.handler (hf : Handler f) : (w.handle txid f).Accounts e₀ := by
  refine h.handle fun e hget => ⟨?_, ?_, fun _ hacc => ?_⟩
  · exact (hf.moves e w.post).invariant (I := fun a => w.post.Le a.2)
      (fun _ _ hm hle => hle.trans hm.le) .refl
  · intro e' he'
    exact (hf.txid_eq e' he').trans (Table.key_of_get? hget)
  · exact (hf.moves e w.post).invariant (I := Txconfirm.Accounts e₀) (fun _ _ hm => hm.accounts) hacc

theorem World.Accounts.handleAll (hg : ∀ best, Handler (g best)) : (w.handleAll g).Accounts e₀ :=
  World.handleAll_invariant (fun w => w.Accounts e₀) (fun _ _ best h => h.handler (hg best)) h

omit h

end Worlds

namespace Action

variable (a : Action) (txid : Txid) (id : SubscriberId)

def Cancels : Prop :=
  match a with
  | cancel txid' id' _ => txid' = txid ∧ id' = id
  | _ => False

def Ensures : Prop :=
  match a with
  | ensure req _ => req.txid = txid ∧ req.subscriber.id = id
  | _ => False

def result (w : World) : Option (Deferred × TellResult) :=
  match a with
  | resultObserved i _ => w.post.results[i]?
  | _ => none

instance : Decidable (a.Cancels txid id) := by
  unfold Cancels
  split <;> infer_instance

instance : Decidable (a.Ensures txid id) := by
  unfold Ensures
  split <;> infer_instance

end Action

/-- The subscriber is still attached to the same entry, under the same mailbox unless it has asked
again. It is newly marked as confirmed only after a confirmation, or when it asks again of a final
entry. -/
def Keeps (a : Action) (e : Entry) (s : Subscriber) (w' : World) : Prop :=
  ∃ e' ∈ w'.tracked.get? e.txid, e'.gen = e.gen ∧ ∃ s' ∈ e'.subscribers, s'.ref.id = s.ref.id ∧
    (s'.ref = s.ref ∨ a.Ensures e.txid s.ref.id) ∧
    (s.pendingConfirmed = true → s'.pendingConfirmed = false →
      w'.post.Confirmed e.gen s'.ref ∨ (a.Ensures e.txid s.ref.id ∧ e.fsm.stage = .final))

/-- The step leaves the subscribers of every tracked entry attached, except those that have stopped,
that cancel, or that were told the end; and results for another entry leave the entry as it is. -/
def Undisturbed (w : World) (a : Action) (w' : World) : Prop :=
  ∀ e ∈ w.tracked.rows,
    (∀ s ∈ e.subscribers, s.ref ∈ w'.post.stopped ∨ a.Cancels e.txid s.ref.id ∨
      w'.post.Ended e.gen s.ref ∨ Keeps a e s w') ∧
    ∀ x ∈ a.result w, x.1.txid = e.txid → x.1.gen ≠ e.gen → w'.tracked.get? e.txid = some e

/-- A result that is handled in this step and touches an entry was started for it. -/
def Fresh (w : World) (a : Action) (_ : World) : Prop :=
  ∀ x ∈ a.result w, ∀ e ∈ w.tracked.get? x.1.txid, Touches e x.1 x.2 → Owns e x.1

instance (e : Entry) (d : Deferred) (res : TellResult) : Decidable (Touches e d res) := by
  unfold Touches
  split <;> try split
  all_goals infer_instance

instance (e : Entry) (d : Deferred) : Decidable (Owns e d) := by
  unfold Owns
  infer_instance

instance (w : World) (a : Action) (w' : World) : Decidable (Fresh w a w') := by
  unfold Fresh
  infer_instance

instance (a : Action) (e : Entry) (s : Subscriber) (w' : World) : Decidable (Keeps a e s w') := by
  unfold Keeps
  infer_instance

instance (w : World) (a : Action) (w' : World) : Decidable (Undisturbed w a w') := by
  unfold Undisturbed
  infer_instance

variable {req : EnsureReq}

section Steps

variable {w w' : World} {a : Action}

theorem World.Accounts.keeps (h : w'.Accounts e) (hs : s ∈ e.subscribers) :
    s.ref ∈ w'.post.stopped ∨ a.Cancels e.txid s.ref.id ∨ w'.post.Ended e.gen s.ref ∨
      Keeps a e s w' := by
  rcases h.held s hs with h' | h' | ⟨s', hs', href, hmark⟩
  · exact .inl h'
  · exact .inr (.inr (.inl h'))
  refine .inr (.inr (.inr ?_))
  cases hget : w'.tracked.get? e.txid with
  | none =>
    rw [hget] at hs'
    cases hs'
  | some e' =>
    rw [hget] at hs'
    refine ⟨e', hget, (h.same e' hget).2, s', hs', by rw [href], .inl href, fun h h' => .inl ?_⟩
    exact href ▸ hmark h h'

variable (h : Attaches e ref p e' p')
include h

theorem Attaches.le : p.Le p' := by
  cases h with
  | confirmed _ _ ha | finalized _ _ ha | failed _ _ ha => exact ha.le
  | _ => exact .refl

theorem Attaches.logged (hp : p.Logged) : p'.Logged := by
  cases h with
  | confirmed _ hn ha | finalized _ hn ha | failed _ hn ha => exact ha.logged hn hp
  | _ => exact hp

/-- The entry that a request leaves is the one it found, with or without a row for it. -/
theorem Attaches.eq_or :
    e' = e ∨ ∃ b, e' = e.putSubscriber ⟨ref, b⟩ ∧
      (b = false → p'.Confirmed e.gen ref ∨ e.fsm.stage = .final) := by
  cases h with
  | refused => exact .inl rfl
  | waiting _ => exact .inr ⟨true, rfl, nofun⟩
  | @confirmed n o _ _ hn ha =>
    cases o with
    | delivered =>
      refine .inr ⟨false, rfl, fun _ => .inl ⟨_, ha.mem_inbox, rfl, rfl, ?_⟩⟩
      cases n <;> first | rfl | cases hn
    | pending => exact .inr ⟨true, rfl, nofun⟩
    | subscriberStopped => exact .inl rfl
  | finalized hstage _ _ =>
    split
    · exact .inr ⟨false, rfl, fun _ => .inr hstage⟩
    · exact .inl rfl
  | failed _ _ _ =>
    split
    · exact .inr ⟨true, rfl, nofun⟩
    · exact .inl rfl

omit h

theorem World.attach_spec (hget : w.tracked.get? req.txid = some e) :
    ∃ e' q p, Calm w.post q ∧ Attaches e req.subscriber q e' p ∧
      w.handle req.txid (attachExistingSubscriber · req.subscriber) =
        w.store req.txid (some e', p) := by
  obtain ⟨e', q, hr, hq, ha⟩ := attachExistingSubscriber_spec w.post .refl
  refine ⟨e', q, _, hq, ha, ?_⟩
  rw [World.handle_of_some hget, ← hr]
  rfl

theorem World.handleEnsure_of_none (h : w.tracked.get? req.txid = none) :
    w.handleEnsure req = w.startTracking req := by
  rw [World.handleEnsure, h]

theorem World.handleEnsure_of_some (h : w.tracked.get? req.txid = some e) :
    w.handleEnsure req = w ∨
      w.handleEnsure req = w.handle req.txid (attachExistingSubscriber · req.subscriber) := by
  simp only [World.handleEnsure, h]
  split
  · exact .inr rfl
  · exact .inl rfl

/-- What every turn of the actor keeps of the deliveries, apart from the handling of a result. -/
structure Stable (K : Post → Prop) : Prop where
  move : ∀ a b, Move a b → K a.2 → K b.2
  calm : ∀ p q, Calm p q → K p → K q
  attach : ∀ e ref p e' q, Attaches e ref p e' q → K p → K q

namespace Stable

variable {K : Post → Prop}

theorem le : Stable p₀.Le where
  move _ _ h hle := hle.trans h.le
  calm _ _ h hle := hle.trans h.le
  attach _ _ _ _ _ h hle := hle.trans h.le

theorem logged : Stable Post.Logged where
  move _ _ h := h.logged
  calm _ _ h := h.logged
  attach _ _ _ _ _ h := h.logged

theorem starts (hK : Stable K) (h : Starts e ref p oe p') (hp : K p) : K p' := by
  cases h with
  | refused hc | failed _ hc => exact hK.calm _ _ hc hp
  | submitted hc hmoves => exact hmoves.invariant (I := fun a => K a.2) hK.move (hK.calm _ _ hc hp)

theorem handleEnsure (hK : Stable K) (h : K w.post) : K (w.handleEnsure req).post := by
  cases hget : w.tracked.get? req.txid with
  | none =>
    rw [World.handleEnsure_of_none hget]
    obtain ⟨-, e, -, -, -, -, hstarts⟩ := startTracking_spec hget
    exact hK.starts hstarts h
  | some e =>
    rcases World.handleEnsure_of_some hget with heq | heq
    · rwa [heq]
    · obtain ⟨e', q, p, hq, ha, hstore⟩ := World.attach_spec hget
      rw [heq, hstore]
      exact hK.attach _ _ _ _ _ ha (hK.calm _ _ hq h)

theorem step (hK : Stable K) (h : K w.post) (hstep : Step w a w')
    (hresult : ∀ i script, (w.withScript script).resultObserved i = some w' → K w'.post)
    (hreturns : ∀ i res, w.deferredReturns i res = some w' → K w'.post)
    (hreads : ∀ i, w.detachedReads i = some w' → K w'.post)
    (hsends : ∀ i res, w.detachedSends i res = some w' → K w'.post) : K w'.post := by
  have hscript (script : List Answer) : K (w.withScript script).post := hK.calm _ _ rfl h
  cases hstep with
  | ensure => exact hK.handleEnsure (hscript _)
  | cancel => exact hK.calm _ _ (World.handleCancel_spec _ _ _).2.1 (hscript _)
  | handler _ hf => exact World.handle_keeps hK.move hf (hscript _)
  | all _ _ hcalm hg =>
    exact World.handleAll_invariant (fun v => K v.post)
      (fun _ _ best h => World.handle_keeps hK.move (hg best) h) (hK.calm _ _ hcalm h)
  | resultObserved h => exact hresult _ _ h
  | deferredReturns h => exact hreturns _ _ h
  | detachedReads h => exact hreads _ h
  | detachedSends h => exact hsends _ _ h

end Stable

theorem World.get?_handleEnsure (ht : t ≠ req.txid) :
    (w.handleEnsure req).tracked.get? t = w.tracked.get? t := by
  cases hget : w.tracked.get? req.txid with
  | none =>
    rw [World.handleEnsure_of_none hget]
    exact (startTracking_spec hget).1 t ht
  | some e =>
    rcases World.handleEnsure_of_some hget with h | h
    · rw [h]
    obtain ⟨e', q, p, hq, ha, hstore⟩ := World.attach_spec hget
    have htxid : e'.txid = e.txid := by
      rcases ha.eq_or with rfl | ⟨b, rfl, -⟩ <;> rfl
    rw [h, hstore, World.get?_store, if_neg ht]
    rintro _ ⟨⟩
    exact htxid.trans (Table.key_of_get? hget)

theorem World.handleEnsure_keeps (hget : w.tracked.get? req.txid = some e)
    (hs : s ∈ e.subscribers) :
    Keeps (.ensure req script) e s (w.handleEnsure req) := by
  have htxid : e.txid = req.txid := Table.key_of_get? hget
  have hsame : s.pendingConfirmed = true → s.pendingConfirmed = false → False :=
    fun h h' => absurd (h.symm.trans h') nofun
  rcases World.handleEnsure_of_some hget with h | h
  · rw [h]
    exact ⟨e, htxid ▸ hget, rfl, s, hs, rfl, .inl rfl, fun h h' => (hsame h h').elim⟩
  obtain ⟨e', q, p, hq, ha, hstore⟩ := World.attach_spec hget
  rw [h, hstore]
  have hget' : (w.store req.txid (some e', p)).tracked.get? e.txid = some e' := by
    rw [World.get?_store, if_pos htxid]
    rintro _ ⟨⟩
    rcases ha.eq_or with rfl | ⟨b, rfl, -⟩ <;> exact htxid
  rcases ha.eq_or with rfl | ⟨b, rfl, hb⟩
  · exact ⟨e', hget', rfl, s, hs, rfl, .inl rfl, fun h h' => (hsame h h').elim⟩
  refine ⟨_, hget', rfl, ?_⟩
  by_cases hid : s.ref.id = req.subscriber.id
  · have hown : Action.Ensures (.ensure req script) e.txid s.ref.id := ⟨htxid.symm, hid.symm⟩
    refine ⟨⟨req.subscriber, b⟩, mem_append_right _ mem_cons_self, hid.symm,
      .inr hown, fun _ hfalse => ?_⟩
    exact (hb hfalse).imp_right fun hstage => ⟨hown, hstage⟩
  · refine ⟨s, mem_append_left _ (mem_filter.2 ⟨hs, by simpa using hid⟩), rfl,
      .inl rfl, fun h h' => (hsame h h').elim⟩

theorem undisturbed_of_keeps (hresult : a.result w = none)
    (h : ∀ e ∈ w.tracked.rows, ∀ s ∈ e.subscribers, s.ref ∈ w'.post.stopped ∨
      a.Cancels e.txid s.ref.id ∨ w'.post.Ended e.gen s.ref ∨ Keeps a e s w') :
    Undisturbed w a w' := by
  refine fun e he => ⟨h e he, fun x hx => ?_⟩
  rw [hresult] at hx
  cases hx

theorem undisturbed_of_accounts (hresult : a.result w = none)
    (h : ∀ e ∈ w.tracked.rows, w'.Accounts e) : Undisturbed w a w' :=
  undisturbed_of_keeps hresult fun e he _ hs => (h e he).keeps hs

theorem ensure_undisturbed : Undisturbed w (.ensure req script) (w.handleEnsure req) := by
  refine undisturbed_of_keeps rfl fun e he s hs => ?_
  have hget : w.tracked.get? e.txid = some e := Table.mem_rows_iff.1 he
  by_cases htxid : e.txid = req.txid
  · exact .inr (.inr (.inr (World.handleEnsure_keeps (htxid ▸ hget) hs)))
  have hacc : (w.handleEnsure req).Accounts e := by
    rw [World.Accounts, World.get?_handleEnsure htxid]
    exact (World.Accounts.refl he).mono (Stable.le.handleEnsure .refl)
  exact hacc.keeps hs

theorem cancel_undisturbed {id : SubscriberId} :
    Undisturbed w (.cancel txid id script) (w.handle txid (handleCancel · id)) := by
  refine undisturbed_of_keeps rfl fun e he s hs => ?_
  obtain ⟨hother, hcalm, hown⟩ := World.handleCancel_spec w txid id
  have hget : w.tracked.get? e.txid = some e := Table.mem_rows_iff.1 he
  by_cases htxid : e.txid = txid
  · subst htxid
    by_cases hid : s.ref.id = id
    · exact .inr (.inl ⟨rfl, hid.symm⟩)
    have hkept : s ∈ (e.deleteSubscriber id).subscribers := mem_filter.2 ⟨hs, by simpa using hid⟩
    rcases hown e hget with hget' | ⟨-, hsubs⟩
    · refine .inr (.inr (.inr ⟨_, hget', rfl, s, hkept, rfl, .inl rfl, fun h h' => ?_⟩))
      exact absurd (h.symm.trans h') nofun
    · rw [hsubs] at hkept
      cases hkept
  · have hacc : (w.handle txid (handleCancel · id)).Accounts e := by
      rw [World.Accounts, hother _ htxid]
      exact (World.Accounts.refl he).mono hcalm.le
    exact hacc.keeps hs

theorem Post.Le.honest {p q : Post} {d : Deferred} (hle : p.Le q) (h : p.Honest d res) : q.Honest d res :=
  ⟨h.kind, fun e => hle.inbox (h.accepted e), fun e => hle.stopped (h.refused e)⟩

theorem World.resultObserved_le (hstep : w.resultObserved i = some w') : w.post.Le w'.post := by
  obtain ⟨⟨d, res⟩, hx, -⟩ := bind_eq_some_iff.1 hstep
  obtain ⟨-, ⟨q, hq, hpost⟩, -⟩ := World.resultObserved_spec hx hstep
  have hle : w.post.Le q := ⟨hq.le.inbox, hq.le.stopped⟩
  rcases hpost with hpost | ⟨-, -, e, -, s, -, -, hpost⟩ <;> rw [hpost]
  · exact hle
  · exact ⟨hle.inbox, hle.stopped⟩

theorem result_undisturbed (hlog : w.post.Logged) (hfresh : Fresh w (.resultObserved i script) w')
    (hstep : w.resultObserved i = some w') :
    Undisturbed w (.resultObserved i script) w' := by
  obtain ⟨⟨d, res⟩, hx, -⟩ := bind_eq_some_iff.1 hstep
  obtain ⟨hother, -, -, hown⟩ := World.resultObserved_spec hx hstep
  have hle := World.resultObserved_le hstep
  have hhonest : w'.post.Honest d res := hle.honest (hlog.results _ (mem_of_getElem? hx))
  intro e he
  have hget : w.tracked.get? e.txid = some e := Table.mem_rows_iff.1 he
  by_cases htxid : e.txid = d.txid
  · have hres := hown e (htxid ▸ hget)
    have htouch : Touches e d res → Owns e d := hfresh (d, res) hx e (htxid ▸ hget)
    have hacc : w'.Accounts e := by
      rw [World.Accounts, htxid]
      exact hres.accounts hhonest htouch
    refine ⟨fun s hs => hacc.keeps hs, fun x hx' _ hgen => ?_⟩
    cases hx.symm.trans hx'
    rw [htxid, hres.eq_of_not_touches fun ht => hgen (htouch ht).1]
  · have hacc : w'.Accounts e := by
      rw [World.Accounts, hother _ htxid]
      exact (World.Accounts.refl he).mono hle
    refine ⟨fun s hs => hacc.keeps hs, fun x hx' hd _ => ?_⟩
    cases hx.symm.trans hx'
    exact absurd hd.symm htxid

theorem Post.Logged.takeResult {p : Post} {d : Deferred} (h : p.Logged) :
    (p.takeResult i d).Logged :=
  ⟨h.deferred, fun x hx => Post.Le.honest (p := p) ⟨fun _ h => h, fun _ h => h⟩
    (h.results x (mem_of_mem_eraseIdx hx))⟩

theorem World.resultObserved_logged (hlog : w.post.Logged) (hstep : w.resultObserved i = some w') : w'.post.Logged := by
  obtain ⟨⟨d, res⟩, hx, -⟩ := bind_eq_some_iff.1 hstep
  obtain ⟨-, ⟨q, hq, hpost⟩, -⟩ := World.resultObserved_spec hx hstep
  rcases hpost with hpost | ⟨-, -, e, -, s, -, -, hpost⟩ <;> rw [hpost]
  · exact hq.logged hlog.takeResult
  · exact (hq.logged hlog.takeResult).mono ⟨fun _ h => h, fun _ h => h⟩ rfl rfl

theorem World.deferredReturns_logged (hlog : w.post.Logged)
    (hstep : w.deferredReturns i res = some w') : w'.post.Logged := by
  obtain ⟨d, hd, hw⟩ := bind_eq_some_iff.1 hstep
  cases hw
  have hmem : d ∈ w.post.deferred := mem_of_getElem? hd
  have hle : w.post.Le (w.post.told d.receipt res) := Post.le_told
  refine ⟨fun d' hd' => ?_, fun x hx => ?_⟩
  · have hsame : (w.post.told d.receipt res).deferred = w.post.deferred := Post.told_deferred
    exact hlog.deferred d' (hsame ▸ mem_of_mem_eraseIdx hd')
  rcases mem_append.1 hx with hx | hx
  · refine Post.Le.honest ⟨hle.inbox, hle.stopped⟩ (hlog.results x ?_)
    rwa [Post.told_results] at hx
  obtain rfl : x = (d, res) := by simpa using hx
  refine ⟨hlog.deferred d hmem, ?_, ?_⟩
  · rintro rfl
    exact mem_append_right _ mem_cons_self
  · rintro rfl
    exact mem_append_right _ mem_cons_self

theorem step_logged (hlog : w.post.Logged) (hstep : w.step interval a = some w') :
    w'.post.Logged := by
  refine Stable.logged.step hlog (World.step_cases hstep) ?_ ?_ ?_ ?_
  · exact fun i script => World.resultObserved_logged (Calm.logged rfl hlog)
  · exact fun i res => World.deferredReturns_logged hlog
  · intro i h
    obtain ⟨d, -, -, ⟨-, rfl⟩ | ⟨-, rfl⟩⟩ := World.detachedReads_spec h <;>
      exact hlog.mono ⟨fun _ h => h, fun _ h => h⟩ rfl rfl
  · intro i res h
    obtain ⟨d, -, -, rfl⟩ := World.detachedSends_spec h
    exact hlog.mono ⟨Post.le_told.inbox, Post.le_told.stopped⟩ Post.told_deferred Post.told_results

theorem Action.result_eq_none (h : a.isResultObserved = false) : a.result w = none := by
  cases a with
  | resultObserved i script => cases h
  | _ => rfl

theorem step_undisturbed (hlog : w.post.Logged) (hfresh : Fresh w a w')
    (hstep : w.step interval a = some w') : Undisturbed w a w' := by
  cases World.step_cases hstep with
  | @ensure req script => exact ensure_undisturbed (w := w.withScript script)
  | @cancel txid id script => exact cancel_undisturbed (w := w.withScript script)
  | @handler _ script txid f ha hf =>
    refine undisturbed_of_accounts (Action.result_eq_none ha) fun e he => ?_
    exact World.Accounts.handler (w := w.withScript script) (World.Accounts.refl he) hf
  | all ha htracked _ hg =>
    refine undisturbed_of_accounts (Action.result_eq_none ha) fun e he => ?_
    exact World.Accounts.handleAll (World.Accounts.refl (htracked ▸ he)) hg
  | @resultObserved i script _ h =>
    exact result_undisturbed (w := w.withScript script) (Calm.logged rfl hlog) hfresh h
  | deferredReturns h =>
    obtain ⟨d, hd, hw⟩ := bind_eq_some_iff.1 h
    cases hw
    exact undisturbed_of_accounts rfl fun e he =>
      (World.Accounts.refl he).of_le rfl ⟨Post.le_told.inbox, Post.le_told.stopped⟩
  | detachedReads h =>
    refine undisturbed_of_accounts rfl fun e he => ?_
    obtain ⟨d, -, -, ⟨-, rfl⟩ | ⟨-, rfl⟩⟩ := World.detachedReads_spec h <;>
      exact (World.Accounts.refl he).of_le rfl ⟨fun _ h => h, fun _ h => h⟩
  | detachedSends h =>
    refine undisturbed_of_accounts rfl fun e he => ?_
    obtain ⟨d, -, -, rfl⟩ := World.detachedSends_spec h
    exact (World.Accounts.refl he).of_le rfl ⟨Post.le_told.inbox, Post.le_told.stopped⟩

end Steps

/-- Where a result that touches an entry was started for that entry and for the mailbox attached to
it, no step disturbs the subscribers of a tracked entry. -/
theorem tracking_lifetimes_apart (interval : ℤ) (as : List Action)
    (hfresh : (machine interval).Along Fresh {} as) :
    (machine interval).Along Undisturbed {} as := by
  have hinit : Post.Logged {} := ⟨nofun, nofun⟩
  have hrun := Machine.along_invariant (M := machine interval) (fun w => w.post.Logged)
    (fun w a w' hlog _ hstep => step_logged hlog hstep) hinit hfresh
  refine hrun.imp ?_
  rintro w a w' - ⟨hlog, hfresh, hstep, -⟩
  exact step_undisturbed hlog hfresh hstep

def slowFinality : List Action :=
  [.ensure { txid := 1, subscriber := ⟨7, 0⟩ } [], .confirmationObserved 1 100 5 1 [],
    .confirmationDone 1 [{}, {}, {}, { tell := .timeout }]]

theorem slowFinality_apart :
    (machine 6).Along Fresh {} (slowFinality ++ [.deferredReturns 0 .ok, .resultObserved 0 []]) ∧
      (machine 6).Along Undisturbed {}
        (slowFinality ++ [.deferredReturns 0 .ok, .resultObserved 0 []]) :=
  ⟨by decide +kernel, tracking_lifetimes_apart 6 _ (by decide +kernel)⟩

/-- The subscriber cancels, asks again, and is detached from the new entry by the late result of
the old one. -/
theorem lateResult_detaches :
    ¬ (machine 6).Along Undisturbed {}
      (slowFinality ++ [.cancel 1 7 [], .ensure { txid := 1, subscriber := ⟨7, 0⟩ } [],
        .deferredReturns 0 .ok, .resultObserved 0 []]) := by
  decide +kernel

end Wavelength.Txconfirm
