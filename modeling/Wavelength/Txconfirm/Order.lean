import Mathlib.Data.List.Perm.Basic
import Wavelength.Txconfirm.Lifetimes

/-! # The order of notifications

What one subscriber receives about one transaction: a reorg or the finality of it only after a
confirmation, and nothing after a terminal notification. The invariant says what is under way to
the subscriber while it is attached, and that nothing can still arrive once it is not.
-/

namespace Wavelength.Txconfirm

open List Option

def Notification.needsConfirmed : Notification → Bool
  | .reorged => true
  | .finalized _ _ => true
  | _ => false

/-- What may follow, `confirmed` telling whether a confirmation has been received. -/
def OrderedFrom : Bool → List Notification → Prop
  | _, [] => True
  | confirmed, n :: rest =>
    (n.needsConfirmed = true → confirmed = true) ∧ (n.isTerminal = true → rest = []) ∧
      OrderedFrom (confirmed || n.isConfirmed) rest

/-- No reorg or finality before the first confirmation, and nothing after a terminal
notification, so at most one of these. -/
def Ordered (l : List Notification) : Prop := OrderedFrom false l

instance decidableOrderedFrom : ∀ b l, Decidable (OrderedFrom b l)
  | _, [] => isTrue trivial
  | b, n :: rest =>
    have := decidableOrderedFrom (b || n.isConfirmed) rest
    inferInstanceAs (Decidable (_ ∧ _ ∧ _))

instance (l : List Notification) : Decidable (Ordered l) := decidableOrderedFrom false l

variable {n : Notification}

theorem orderedFrom_append :
    OrderedFrom b (l ++ [n]) ↔ OrderedFrom b l ∧ (∀ m ∈ l, m.isTerminal = false) ∧
      (n.needsConfirmed = true → b = true ∨ ∃ m ∈ l, m.isConfirmed = true) := by
  induction l generalizing b with
  | nil => simp [OrderedFrom]
  | cons m l ih =>
    simp only [cons_append, OrderedFrom, ih, Bool.or_eq_true, mem_cons,
      forall_eq_or_imp, exists_eq_or_imp, append_eq_nil_iff]
    cases m.isTerminal <;> simp <;> tauto

theorem ordered_append :
    Ordered (l ++ [n]) ↔ Ordered l ∧ (∀ m ∈ l, m.isTerminal = false) ∧
      (n.needsConfirmed = true → ∃ m ∈ l, m.isConfirmed = true) := by
  simp [Ordered, orderedFrom_append]

theorem isConfirmed_of_kind (h : n.kind? = some .confirmed) : n.isConfirmed = true := by
  cases n <;> first | rfl | cases h

theorem isTerminal_iff_of_kind (h : n.kind? = some kind) :
    n.isTerminal = true ↔ kind ≠ .confirmed := by
  cases n <;> cases h <;> simp [Notification.isTerminal]

def about (T : Txid) (r : Ref) (txid : Txid) (ref : Ref) : Bool := txid = T && ref.id = r.id

namespace Post

variable (p : Post) (T : Txid) (r : Ref)

def received : List Notification :=
  (p.inbox.filter fun x => x.txid = T && x.ref = r).map Receipt.notification

def deferredTo : List Deferred := p.deferred.filter fun d => about T r d.txid d.ref

def resultsOf : List (Deferred × TellResult) := p.results.filter fun x => about T r x.1.txid x.1.ref

/-- The reliable deliveries that have been started and not been settled. -/
def underWay : List Deferred := p.deferredTo T r ++ (p.resultsOf T r).map Prod.fst

def detachedTo : List Detached := p.detached.filter fun d => about T r d.txid d.ref

def Knows : Prop := ∃ n ∈ p.received T r, n.isConfirmed = true

def Over : Prop := ∃ n ∈ p.received T r, n.isTerminal = true

end Post

/-- No detached delivery to the subscriber can get past the sealed flag any more. -/
def Closed (T : Txid) (r : Ref) (e : Entry) (s : Subscriber) (p : Post) : Prop :=
  e.gen ∈ p.sealed ∨ (s.pendingConfirmed = true ∧ p.detachedTo T r = [])

/-- The state of the row and of the entry while a delivery of this kind is under way. -/
def Fits (T : Txid) (r : Ref) (e : Entry) (s : Subscriber) (p : Post) : Kind → Prop
  | .confirmed => s.pendingConfirmed = true ∧ e.fsm.stage ≠ .early ∧ e.fsm.stage ≠ .failed
  | .finalized => s.pendingConfirmed = false ∧ e.gen ∈ p.sealed ∧
      (e.fsm.stage = .final ∨ e.fsm.stage = .stopped)
  | .failed => Closed T r e s p ∧ (e.fsm.stage = .failed ∨ e.fsm.stage = .stopped)

structure Attached (T : Txid) (r : Ref) (e : Entry) (s : Subscriber) (p : Post) : Prop where
  mem : s ∈ e.subscribers
  ref : s.ref = r
  marked : s.pendingConfirmed = false → p.Knows T r
  single : (p.underWay T r).length ≤ 1
  underWay : ∀ d ∈ p.underWay T r, d.ref = r ∧ d.gen = e.gen ∧
    d.inflightKey ∈ p.terminalNotifyInflight ∧ Fits T r e s p d.kind
  detached : ∀ d ∈ p.detachedTo T r, d.gen = e.gen
  finished : p.Over T r → Closed T r e s p ∧
    ∃ x ∈ p.resultsOf T r, x.2 = .ok ∧ x.1.kind ≠ .confirmed

/-- The subscriber is not attached: it has never been, or it has been told the end. -/
structure Apart (T : Txid) (r : Ref) (p : Post) : Prop where
  underWay : p.underWay T r = []
  told : (p.received T r = [] ∧ p.detachedTo T r = []) ∨
    (p.Over T r ∧ ∀ d ∈ p.detachedTo T r, d.gen ∈ p.sealed)

structure Sound (T : Txid) (r : Ref) (oe : Option Entry) (p : Post) : Prop where
  ordered : Ordered (p.received T r)
  logged : p.Logged
  detached : ∀ d ∈ p.detachedTo T r, d.ref = r ∧ d.notification.isTerminal = false ∧ p.Knows T r
  txid : ∀ e ∈ oe, e.txid = T
  nodup : ∀ e ∈ oe, (e.subscribers.map fun s => s.ref.id).Nodup
  phase : (∃ e s, oe = some e ∧ Attached T r e s p) ∨
    ((∀ e ∈ oe, ∀ s ∈ e.subscribers, s.ref.id ≠ r.id) ∧ Apart T r p)

section About

variable {p q p' : Post}

theorem Sound.of_some (hordered : Ordered (p.received T r)) (hlog : p.Logged)
    (hdet : ∀ d ∈ p.detachedTo T r, d.ref = r ∧ d.notification.isTerminal = false ∧ p.Knows T r)
    (htxid : e.txid = T) (hnodup : (e.subscribers.map fun s => s.ref.id).Nodup)
    (hphase : (∃ s, Attached T r e s p) ∨
      ((∀ s ∈ e.subscribers, s.ref.id ≠ r.id) ∧ Apart T r p)) : Sound T r (some e) p := by
  refine ⟨hordered, hlog, hdet, ?_, ?_, ?_⟩
  · rintro _ ⟨⟩
    exact htxid
  · rintro _ ⟨⟩
    exact hnodup
  rcases hphase with ⟨s, ha⟩ | ⟨hno, ha⟩
  · exact .inl ⟨e, s, rfl, ha⟩
  · refine .inr ⟨?_, ha⟩
    rintro _ ⟨⟩
    exact hno

@[simp] theorem about_iff : about T r txid ref = true ↔ txid = T ∧ ref.id = r.id := by
  simp [about]

theorem not_about_iff : about T r txid ref = false ↔ (txid = T → ref.id ≠ r.id) := by
  simp [about]

theorem mem_underWay : d ∈ p.underWay T r ↔
    (d ∈ p.deferred ∨ ∃ res, (d, res) ∈ p.results) ∧ d.txid = T ∧ d.ref.id = r.id := by
  simp only [Post.underWay, Post.deferredTo, Post.resultsOf, mem_append, mem_filter,
    about_iff, List.mem_map, Prod.exists, exists_and_right, exists_eq_right]
  exact or_and_right.symm

theorem mem_detachedTo {d : Detached} :
    d ∈ p.detachedTo T r ↔ d ∈ p.detached ∧ d.txid = T ∧ d.ref.id = r.id := by
  simp [Post.detachedTo]

structure Same (T : Txid) (r : Ref) (p q : Post) : Prop where
  received : q.received T r = p.received T r
  deferred : q.deferredTo T r = p.deferredTo T r
  results : q.resultsOf T r = p.resultsOf T r
  detached : ∀ d ∈ q.detachedTo T r, ∃ b, { d with checked := b } ∈ p.detachedTo T r
  inflight : ∀ k ∈ p.terminalNotifyInflight, k.txid = T → k.subscriberId = r.id →
    k ∈ q.terminalNotifyInflight
  sealed : p.sealed ⊆ q.sealed

namespace Same

theorem refl : Same T r p p :=
  ⟨rfl, rfl, rfl, fun d h => ⟨d.checked, h⟩, fun _ h _ _ => h, fun _ h => h⟩

variable (h : Same T r p q)
include h

theorem underWay_eq : q.underWay T r = p.underWay T r := by
  rw [Post.underWay, h.deferred, h.results, Post.underWay]

theorem knows_iff : q.Knows T r ↔ p.Knows T r := by
  rw [Post.Knows, h.received, Post.Knows]

theorem over_iff : q.Over T r ↔ p.Over T r := by
  rw [Post.Over, h.received, Post.Over]

theorem detachedTo_eq_nil (hnone : p.detachedTo T r = []) : q.detachedTo T r = [] := by
  rw [eq_nil_iff_forall_not_mem] at hnone ⊢
  intro d hd
  obtain ⟨b, hb⟩ := h.detached d hd
  exact hnone _ hb

omit h

end Same

theorem Closed.same (h : Closed T r e s p) (hs : Same T r p q) : Closed T r e s q :=
  h.imp (fun h => hs.sealed h) fun ⟨hpend, hdet⟩ => ⟨hpend, hs.detachedTo_eq_nil hdet⟩

theorem Fits.same (h : Fits T r e s p kind) (hs : Same T r p q) : Fits T r e s q kind := by
  cases kind with
  | confirmed => exact h
  | finalized => exact ⟨h.1, hs.sealed h.2.1, h.2.2⟩
  | failed => exact ⟨h.1.same hs, h.2⟩

theorem Attached.same (h : Attached T r e s p) (hs : Same T r p q) : Attached T r e s q where
  mem := h.mem
  ref := h.ref
  marked hm := hs.knows_iff.2 (h.marked hm)
  single := hs.underWay_eq ▸ h.single
  underWay d hd := by
    have hd' := hs.underWay_eq ▸ hd
    obtain ⟨href, hgen, hkey, hfits⟩ := h.underWay d hd'
    obtain ⟨-, htxid, hid⟩ := mem_underWay.1 hd'
    exact ⟨href, hgen, hs.inflight _ hkey htxid hid, hfits.same hs⟩
  detached d hd := by
    obtain ⟨b, hb⟩ := hs.detached d hd
    have hgen := h.detached _ hb
    exact hgen
  finished ho := by
    obtain ⟨hclosed, hres⟩ := h.finished (hs.over_iff.1 ho)
    exact ⟨hclosed.same hs, hs.results ▸ hres⟩

theorem Apart.same (h : Apart T r p) (hs : Same T r p q) : Apart T r q where
  underWay := hs.underWay_eq ▸ h.underWay
  told := by
    rcases h.told with ⟨hrec, hdet⟩ | ⟨ho, hdet⟩
    · exact .inl ⟨hs.received ▸ hrec, hs.detachedTo_eq_nil hdet⟩
    refine .inr ⟨hs.over_iff.2 ho, fun d hd => ?_⟩
    obtain ⟨b, hb⟩ := hs.detached d hd
    have hsealed := hdet _ hb
    exact hs.sealed hsealed

theorem Sound.same (h : Sound T r oe p) (hs : Same T r p q) (hlog : q.Logged) : Sound T r oe q where
  ordered := hs.received ▸ h.ordered
  logged := hlog
  detached d hd := by
    obtain ⟨b, hb⟩ := hs.detached d hd
    obtain ⟨href, hn, hknows⟩ := h.detached _ hb
    exact ⟨href, hn, hs.knows_iff.2 hknows⟩
  txid := h.txid
  nodup := h.nodup
  phase := by
    rcases h.phase with ⟨e, s, hoe, ha⟩ | ⟨hno, ha⟩
    · exact .inl ⟨e, s, hoe, ha.same hs⟩
    · exact .inr ⟨hno, ha.same hs⟩

theorem received_told_of_ne (h : x.txid = T → x.ref ≠ r) :
    (p.told x res).received T r = p.received T r := by
  cases res with
  | ok =>
    have hx : (x.txid = T && x.ref = r) = false := by simpa using h
    simp [Post.told, Post.received, hx]
  | stopped | error => rfl

theorem received_told_self (htxid : x.txid = T) (href : x.ref = r) :
    (p.told x .ok).received T r = p.received T r ++ [x.notification] := by
  simp [Post.told, Post.received, htxid, href]

theorem Same.told (h : about T r x.txid x.ref = false) : Same T r p (p.told x res) := by
  have hne : x.txid = T → x.ref ≠ r := fun htxid href =>
    not_about_iff.1 h htxid (congrArg Ref.id href)
  cases res <;> exact { Same.refl with received := received_told_of_ne hne }

theorem Attempt.same (h : Attempt d p o p') (hd : about T r d.txid d.ref = false) :
    Same T r p p' := by
  cases h with
  | held _ | error _ => exact .refl
  | accepted _ | stopped _ => exact .told hd
  | deferred _ =>
    refine { Same.refl with deferred := ?_, inflight := fun _ h _ _ => mem_append_left _ h }
    simp [Post.deferredTo, Post.defer, hd]

theorem over_of_append (hrec : q.received T r = p.received T r ++ [n]) :
    q.Over T r ↔ p.Over T r ∨ n.isTerminal = true := by
  simp [Post.Over, hrec]

theorem ordered_of_append (h : Ordered (p.received T r)) (hnot : ¬ p.Over T r)
    (hneeds : n.needsConfirmed = true → p.Knows T r)
    (hrec : q.received T r = p.received T r ++ [n]) : Ordered (q.received T r) := by
  rw [hrec, ordered_append]
  refine ⟨h, fun m hm => ?_, hneeds⟩
  by_contra hterm
  exact hnot ⟨m, hm, by simpa using hterm⟩

end About

section Tries

variable {p p' : Post} {l₁ l₂ : List Subscriber}

theorem Attached.underWay_eq_nil (h : Attached T r e s p) (hdue : Due e p s kind)
    (hkey : ⟨kind, T, r.id⟩ ∉ p.terminalNotifyInflight) : p.underWay T r = [] := by
  rw [eq_nil_iff_forall_not_mem]
  intro d hd
  obtain ⟨-, -, hkey', hfits⟩ := h.underWay d hd
  obtain ⟨-, htxid, hid⟩ := mem_underWay.1 hd
  have hne : d.kind ≠ kind := by
    rintro rfl
    refine hkey ?_
    rwa [Deferred.inflightKey, htxid, hid] at hkey'
  revert hfits hdue hne
  cases d.kind <;> cases kind <;> simp only [Fits, Due] <;> grind

theorem Attached.not_over (h : Attached T r e s p) (hnone : p.underWay T r = []) : ¬ p.Over T r := by
  intro ho
  obtain ⟨x, hx, -⟩ := (h.finished ho).2
  have hmem : x.1 ∈ p.underWay T r := mem_append_right _ (mem_map_of_mem hx)
  rw [hnone] at hmem
  cases hmem

theorem Due.fits (h : Due e p s kind) : Fits T r e s p kind := by
  cases kind with
  | confirmed =>
    obtain ⟨hpend, hstage | hstage⟩ := h
    · exact ⟨hpend, by simp [hstage], by simp [hstage]⟩
    · exact ⟨hpend, by simp [hstage], by simp [hstage]⟩
  | finalized => exact ⟨h.1, h.2.2, .inl h.2.1⟩
  | failed => exact ⟨.inl h.2, .inl h.1⟩

theorem ids_ne_of_nodup (h : ((l₁ ++ s :: l₂).map fun s => s.ref.id).Nodup) (hs' : s' ∈ l₁ ++ l₂) :
    s'.ref.id ≠ s.ref.id := by
  rw [map_append, map_cons, nodup_middle, nodup_cons, ← map_append] at h
  intro heq
  exact h.1 (heq ▸ mem_map_of_mem hs')

theorem nodup_after (h : ((l₁ ++ s :: l₂).map fun s => s.ref.id).Nodup) :
    ((l₁ ++ ((s.after kind o).toList ++ l₂)).map fun s => s.ref.id).Nodup := by
  have hafter : s.after kind o = none ∨ ∃ s', s.after kind o = some s' ∧ s'.ref = s.ref := by
    cases kind <;> cases o <;> simp [Subscriber.after]
  rcases hafter with hafter | ⟨s', hafter, href⟩
  · rw [hafter]
    refine h.sublist (Sublist.map _ (Sublist.append_left ?_ _))
    exact sublist_cons_self _ _
  · rw [hafter]
    simpa [href] using h

theorem Sound.attached (h : Sound T r (some e) p) (hs : s ∈ e.subscribers)
    (hid : s.ref.id = r.id) : Attached T r e s p := by
  rcases h.phase with ⟨e', s', he', ha⟩ | ⟨hno, -⟩
  · cases he'
    have hids : (fun s : Subscriber => s.ref.id) s' = (fun s : Subscriber => s.ref.id) s := by
      simp only [ha.ref, hid]
    obtain rfl := inj_on_of_nodup_map (h.nodup e rfl) ha.mem hs hids
    exact ha
  · exact absurd hid (hno e rfl s hs)

theorem Knows.told (h : p.Knows T r) : (p.told x .ok).Knows T r := by
  obtain ⟨n, hn, hc⟩ := h
  refine ⟨n, ?_, hc⟩
  simp only [Post.received, Post.told, filter_append, map_append]
  exact mem_append_left _ hn

variable (h : Attached T r e s p) (htxid : e.txid = T) (hnone : p.underWay T r = [])
include h htxid hnone

theorem Attached.accept_confirmed (hn : n.kind? = some .confirmed)
    (hmem : { s with pendingConfirmed := false } ∈ l₁) :
    Attached T r { e with subscribers := l₁ } { s with pendingConfirmed := false }
      (p.told ⟨e.txid, e.gen, s.ref, n⟩ .ok) := by
  have hrec : (p.told ⟨e.txid, e.gen, s.ref, n⟩ .ok).received T r = p.received T r ++ [n] :=
    received_told_self htxid h.ref
  have hnone' : (p.told ⟨e.txid, e.gen, s.ref, n⟩ .ok).underWay T r = [] := hnone
  have hkind : n.isConfirmed = true ∧ n.isTerminal = false := by
    cases n <;> first | exact ⟨rfl, rfl⟩ | cases hn
  refine ⟨hmem, h.ref, fun _ => ⟨n, by simp [hrec], hkind.1⟩, ?_, ?_, h.detached, ?_⟩
  · simp [hnone']
  · simp [hnone']
  intro ho
  rcases (over_of_append hrec).1 ho with ho | hterm
  · exact absurd ho (h.not_over hnone)
  · cases hkind.2.symm.trans hterm

theorem Attached.accept_terminal (hn : n.isTerminal = true) (hsealed : e.gen ∈ p.sealed) :
    Apart T r (p.told ⟨e.txid, e.gen, s.ref, n⟩ .ok) := by
  have hrec : (p.told ⟨e.txid, e.gen, s.ref, n⟩ .ok).received T r = p.received T r ++ [n] :=
    received_told_self htxid h.ref
  refine ⟨hnone, .inr ⟨⟨n, by simp [hrec], hn⟩, fun d hd => ?_⟩⟩
  have hgen : d.gen = e.gen := h.detached d hd
  exact hgen ▸ hsealed

theorem Attached.defer (hfits : Fits T r e s p kind) :
    Attached T r e s (p.defer ⟨kind, e.txid, e.gen, s.ref, n⟩) := by
  have hdef : (p.defer ⟨kind, e.txid, e.gen, s.ref, n⟩).underWay T r =
      [⟨kind, e.txid, e.gen, s.ref, n⟩] := by
    obtain ⟨hd, hr⟩ := append_eq_nil_iff.1 hnone
    have hr' : (p.defer ⟨kind, e.txid, e.gen, s.ref, n⟩).resultsOf T r = [] := map_eq_nil_iff.1 hr
    have hd' : (p.deferred.filter fun d => about T r d.txid d.ref) = [] := hd
    rw [Post.underWay, hr', Post.deferredTo]
    simp [Post.defer, filter_append, hd', htxid, h.ref]
  refine ⟨h.mem, h.ref, h.marked, by simp [hdef], ?_, h.detached, fun ho => ?_⟩
  · intro d hd
    rw [hdef, mem_singleton] at hd
    subst hd
    exact ⟨h.ref, rfl, mem_append_right _ mem_cons_self, hfits⟩
  · exact absurd ho (h.not_over hnone)

omit h htxid hnone

theorem Attempt.sound_self (h : Sound T r (some e) p) (hsubs : e.subscribers = l₁ ++ s :: l₂)
    (hid : s.ref.id = r.id) (hdue : Due e p s kind) (hn : n.kind? = some kind)
    (ha : Attempt ⟨kind, e.txid, e.gen, s.ref, n⟩ p o p') (hlive : r ∉ p'.stopped) :
    Sound T r (some { e with subscribers := l₁ ++ ((s.after kind o).toList ++ l₂) }) p' := by
  have hmem : s ∈ e.subscribers := hsubs ▸ mem_append_right _ mem_cons_self
  have hatt := h.attached hmem hid
  have htxid := h.txid e rfl
  have hnodup := hsubs ▸ h.nodup e rfl
  have hkeep : l₁ ++ ((s.after kind .pending).toList ++ l₂) = e.subscribers := by
    rw [hsubs]
    rfl
  have hlog := ha.logged hn h.logged
  have hkey (hk : (Deferred.inflightKey ⟨kind, e.txid, e.gen, s.ref, n⟩) ∉
      p.terminalNotifyInflight) : p.underWay T r = [] := by
    refine hatt.underWay_eq_nil hdue ?_
    rwa [Deferred.inflightKey, htxid, hid] at hk
  cases ha with
  | held _ | error _ =>
    rw [hkeep]
    exact h
  | deferred hk =>
    rw [hkeep]
    refine ⟨h.ordered, hlog, h.detached, h.txid, h.nodup, .inl ⟨e, s, rfl, ?_⟩⟩
    exact hatt.defer htxid (hkey hk) hdue.fits
  | stopped _ => exact absurd (mem_append_right _ (by simp [Deferred.receipt, hatt.ref])) hlive
  | accepted hk =>
    have hnone := hkey hk
    have hrec : (p.told ⟨e.txid, e.gen, s.ref, n⟩ .ok).received T r = p.received T r ++ [n] :=
      received_told_self htxid hatt.ref
    have hordered : Ordered ((p.told ⟨e.txid, e.gen, s.ref, n⟩ .ok).received T r) := by
      refine ordered_of_append h.ordered (hatt.not_over hnone) (fun hneeds => ?_) hrec
      cases n with
      | confirmed height hash numConfs | failed reason => cases hneeds
      | reorged => cases hn
      | finalized height numConfs =>
        cases hn
        exact hatt.marked hdue.1
    have hdet : ∀ d ∈ (p.told ⟨e.txid, e.gen, s.ref, n⟩ .ok).detachedTo T r,
        d.ref = r ∧ d.notification.isTerminal = false ∧
          (p.told ⟨e.txid, e.gen, s.ref, n⟩ .ok).Knows T r := by
      intro d hd
      obtain ⟨href, hterm, hknows⟩ := h.detached d hd
      exact ⟨href, hterm, Knows.told hknows⟩
    refine .of_some hordered hlog hdet htxid (nodup_after hnodup) ?_
    by_cases hkind : kind = .confirmed
    · subst hkind
      refine .inl ⟨{ s with pendingConfirmed := false }, ?_⟩
      exact hatt.accept_confirmed htxid hnone hn (by simp [Subscriber.after])
    have hafter : s.after kind .delivered = none := by
      cases kind <;> first | rfl | exact absurd rfl hkind
    refine .inr ⟨fun s' hs' => ?_, hatt.accept_terminal htxid hnone ?_ ?_⟩
    · rw [hafter] at hs'
      exact hid ▸ ids_ne_of_nodup hnodup hs'
    · exact (isTerminal_iff_of_kind hn).2 hkind
    cases kind with
    | confirmed => exact absurd rfl hkind
    | finalized => exact hdue.2.2
    | failed => exact hdue.2

end Tries

section Moves

theorem Fits.reaches (h : Fits T r e s p kind) (hreach : e.fsm.stage.reaches fsm.stage = true) :
    Fits T r { e with fsm := fsm, pendingFailureReason := reason } s p kind := by
  revert h hreach
  cases kind <;> simp only [Fits, Closed] <;> cases e.fsm.stage <;> cases fsm.stage <;>
    simp [Stage.reaches]

theorem Same.of_sealed (hinbox : q.inbox = p.inbox) (hdef : q.deferred = p.deferred)
    (hres : q.results = p.results) (hdet : q.detached = p.detached)
    (hinf : q.terminalNotifyInflight = p.terminalNotifyInflight) (hsealed : p.sealed ⊆ q.sealed) :
    Same T r p q := by
  refine ⟨?_, ?_, ?_, ?_, fun k hk _ _ => hinf ▸ hk, hsealed⟩
  · rw [Post.received, hinbox, Post.received]
  · rw [Post.deferredTo, hdef, Post.deferredTo]
  · rw [Post.resultsOf, hres, Post.resultsOf]
  · rw [Post.detachedTo, hdet, Post.detachedTo]
    exact fun d h => ⟨d.checked, h⟩

theorem Same.of_calm (h : Calm p q) : Same T r p q := by
  rw [h]
  exact .of_sealed rfl rfl rfl rfl rfl fun _ h => h

theorem Same.spawn (hne : about T r d.txid d.ref = false) : Same T r p (p.spawn d) := by
  refine { Same.refl with detached := fun d' hd' => ⟨d'.checked, ?_⟩ }
  obtain ⟨hd', habout⟩ := mem_detachedTo.1 hd'
  rcases mem_append.1 hd' with hd' | hd'
  · exact mem_detachedTo.2 ⟨hd', habout⟩
  · obtain rfl := mem_singleton.1 hd'
    exact absurd habout.2 (not_about_iff.1 hne habout.1)

theorem Closed.spawn (h : Closed T r e s p) (hpend : s.pendingConfirmed = false) :
    Closed T r e s (p.spawn d) := by
  rcases h with h | ⟨h, -⟩
  · exact .inl h
  · exact absurd (h.symm.trans hpend) nofun

theorem Attached.spawn (h : Attached T r e s p) (hpend : s.pendingConfirmed = false) :
    Attached T r e s (p.spawn ⟨e.txid, e.gen, s.ref, n, false⟩) := by
  refine ⟨h.mem, h.ref, h.marked, h.single, fun d hd => ?_, fun d hd => ?_, fun ho => ?_⟩
  · obtain ⟨href, hgen, hkey, hfits⟩ := h.underWay d hd
    refine ⟨href, hgen, hkey, ?_⟩
    revert hfits
    cases d.kind with
    | failed => exact fun hfits => ⟨hfits.1.spawn hpend, hfits.2⟩
    | _ => exact fun hfits => hfits
  · obtain ⟨hd, habout⟩ := mem_detachedTo.1 hd
    rcases mem_append.1 hd with hd | hd
    · exact h.detached d (mem_detachedTo.2 ⟨hd, habout⟩)
    · obtain rfl := mem_singleton.1 hd
      rfl
  · obtain ⟨hclosed, hres⟩ := h.finished ho
    exact ⟨hclosed.spawn hpend, hres⟩

theorem Sound.spawn (h : Sound T r (some e) p) (hs : s ∈ e.subscribers)
    (hpend : s.pendingConfirmed = false) (hn : n.isTerminal = false) :
    Sound T r (some e) (p.spawn ⟨e.txid, e.gen, s.ref, n, false⟩) := by
  have hlog : (p.spawn ⟨e.txid, e.gen, s.ref, n, false⟩).Logged :=
    h.logged.mono ⟨fun _ h => h, fun _ h => h⟩ rfl rfl
  by_cases hid : s.ref.id = r.id
  · have hatt := h.attached hs hid
    refine ⟨h.ordered, hlog, fun d hd => ?_, h.txid, h.nodup, .inl ⟨e, s, rfl, hatt.spawn hpend⟩⟩
    obtain ⟨hd, habout⟩ := mem_detachedTo.1 hd
    rcases mem_append.1 hd with hd | hd
    · exact h.detached d (mem_detachedTo.2 ⟨hd, habout⟩)
    · obtain rfl := mem_singleton.1 hd
      exact ⟨hatt.ref, hn, hatt.marked hpend⟩
  · exact h.same (.spawn (not_about_iff.2 fun _ => hid)) hlog

theorem Sound.withSubscribers (h : Sound T r (some e) p)
    (hnodup : (subs.map fun s => s.ref.id).Nodup)
    (hrow : ∀ s, s.ref.id = r.id → (s ∈ subs ↔ s ∈ e.subscribers)) :
    Sound T r (some { e with subscribers := subs }) p := by
  refine .of_some h.ordered h.logged h.detached (h.txid e rfl) hnodup ?_
  rcases h.phase with ⟨_, s, ⟨⟩, ha⟩ | ⟨hno, ha⟩
  · have hmem : s ∈ subs := (hrow s (by rw [ha.ref])).2 ha.mem
    exact .inl ⟨s, { ha with mem := hmem }⟩
  · exact .inr ⟨fun s hs hid => hno e rfl s ((hrow s hid).1 hs) hid, ha⟩

theorem Sound.drop (h : Sound T r (some e) p) (hsubs : e.subscribers = []) : Sound T r none p := by
  refine ⟨h.ordered, h.logged, h.detached, nofun, nofun, ?_⟩
  rcases h.phase with ⟨e', s, he', hatt⟩ | ⟨-, hapart⟩
  · cases he'
    have hmem := hsubs ▸ hatt.mem
    cases hmem
  · exact .inr ⟨nofun, hapart⟩

theorem Move.sound (h : Move a b) (ha : Sound T r a.1 a.2) (hlive : r ∉ b.2.stopped) :
    Sound T r b.1 b.2 := by
  have hlog := h.logged ha.logged
  cases h with
  | @quiet e p fsm reason script hreach =>
    refine .of_some ha.ordered hlog ha.detached (ha.txid e rfl) (ha.nodup e rfl) ?_
    rcases ha.phase with ⟨_, s, ⟨⟩, hatt⟩ | ⟨hno, hapart⟩
    · refine .inl ⟨s, { hatt with underWay := fun d hd => ?_ }⟩
      obtain ⟨href, hgen, hkey, hfits⟩ := hatt.underWay d hd
      exact ⟨href, hgen, hkey, hfits.reaches hreach⟩
    · exact .inr ⟨hno e rfl, hapart.same (.of_calm rfl)⟩
  | @tell e p p' l₁ l₂ s kind n o hsubs hdue hn hatt =>
    by_cases hid : s.ref.id = r.id
    · exact hatt.sound_self ha hsubs hid hdue hn hlive
    have hsame : Same T r p p' := hatt.same (not_about_iff.2 fun _ => hid)
    refine (ha.same hsame hlog).withSubscribers (nodup_after (hsubs ▸ ha.nodup e rfl)) ?_
    intro s' hs'
    have hne : s' ≠ s := by
      rintro rfl
      exact hid hs'
    have hafter : s' ∉ (s.after kind o).toList := by
      cases kind <;> cases o <;> simp [Subscriber.after, hne] <;> (rintro rfl; exact hid hs')
    simp [hsubs, hne, hafter]
  | spawn hs hpend hn => exact ha.spawn hs hpend hn
  | @close e p hstage =>
    exact ha.same (.of_sealed rfl rfl rfl rfl rfl (subset_append_left _ _)) hlog
  | @evict e p hsubs => exact (ha.drop hsubs).same (.of_calm rfl) hlog

theorem Moves.sound (h : Moves a b) (ha : Sound T r a.1 a.2) (hlive : r ∉ b.2.stopped) :
    Sound T r b.1 b.2 :=
  h.invariant (I := fun a => r ∉ a.2.stopped → Sound T r a.1 a.2)
    (fun _ _ hmove ih hlive => hmove.sound (ih fun hr => hlive (hmove.le.stopped hr)) hlive)
    (fun _ => ha) hlive

theorem Move.same_of_txid (h : Move a b) (hne : ∀ e ∈ a.1, e.txid ≠ T) : Same T r a.2 b.2 := by
  cases h with
  | quiet | evict => exact .of_calm rfl
  | @tell e p p' l₁ l₂ s kind n o hsubs hdue hn hatt =>
    exact hatt.same (not_about_iff.2 fun htxid => absurd htxid (hne e rfl))
  | @spawn e p s n hs hpend hn =>
    exact .spawn (not_about_iff.2 fun htxid => absurd htxid (hne e rfl))
  | close => exact .of_sealed rfl rfl rfl rfl rfl (subset_append_left _ _)

theorem Moves.sound_other (h : Moves a b) (hne : ∀ e ∈ a.1, e.txid = t) (ht : t ≠ T)
    (ha : Sound T r oe a.2) : Sound T r oe b.2 := by
  refine (h.invariant (I := fun a => (∀ e ∈ a.1, e.txid = t) ∧ Sound T r oe a.2)
    (fun a b hmove ih => ⟨hmove.txid_eq t ih.1, ?_⟩) ⟨hne, ha⟩).2
  exact ih.2.same (hmove.same_of_txid fun e he => (ih.1 e he) ▸ ht) (hmove.logged ih.2.logged)

end Moves

section Asking

variable {e e' : Entry}

theorem nodup_put (h : (e.subscribers.map fun s => s.ref.id).Nodup) :
    ((e.putSubscriber s).subscribers.map fun s => s.ref.id).Nodup := by
  simp only [Entry.putSubscriber, map_append, map_cons, map_nil]
  rw [nodup_append_comm, singleton_append, nodup_cons]
  constructor
  · simp
  · exact h.sublist (filter_sublist.map _)

theorem mem_putSubscriber_self : s ∈ (e.putSubscriber s).subscribers :=
  mem_append_right _ mem_cons_self

structure Unaware (T : Txid) (r : Ref) (p : Post) : Prop where
  received : p.received T r = []
  underWay : p.underWay T r = []
  detached : p.detachedTo T r = []

/-- When the subscriber may ask for a tracked transaction: first before the entry is final, and
again, while it is attached, before the entry is terminal. -/
def InTime (T : Txid) (r : Ref) (e : Entry) (p : Post) : Prop :=
  (Unaware T r p ∧ e.hasSubscriber r.id = false ∧ e.fsm.stage ≠ .final) ∨
    (e.hasSubscriber r.id = true ∧ e.fsm.stage ≠ .final ∧ e.fsm.stage ≠ .failed)

theorem Unaware.not_over (h : Unaware T r p) : ¬ p.Over T r := by
  rintro ⟨n, hn, -⟩
  rw [h.received] at hn
  cases hn

theorem Unaware.attached (h : Unaware T r p) (hmem : ⟨r, true⟩ ∈ e.subscribers) :
    Attached T r e ⟨r, true⟩ p := by
  refine ⟨hmem, rfl, nofun, by simp [h.underWay], by simp [h.underWay], by simp [h.detached], ?_⟩
  exact fun ho => absurd ho h.not_over

theorem Attached.put (h : Attached T r e s p)
    (hstage : e.fsm.stage = .early ∨ e.fsm.stage = .live) :
    Attached T r (e.putSubscriber ⟨r, true⟩) ⟨r, true⟩ p := by
  have hfits : ∀ d ∈ p.underWay T r, d.kind = .confirmed := by
    intro d hd
    obtain ⟨-, -, -, hfits⟩ := h.underWay d hd
    revert hfits
    cases d.kind <;> rcases hstage with hstage | hstage <;> simp [Fits, hstage]
  refine ⟨mem_putSubscriber_self, rfl, nofun, h.single, fun d hd => ?_, h.detached, fun ho => ?_⟩
  · obtain ⟨href, hgen, hkey, hf⟩ := h.underWay d hd
    refine ⟨href, hgen, hkey, ?_⟩
    rw [hfits d hd] at hf ⊢
    exact ⟨rfl, hf.2⟩
  · obtain ⟨-, x, hx, -, hkind⟩ := h.finished ho
    exact absurd (hfits x.1 (mem_append_right _ (mem_map_of_mem hx))) hkind

theorem Sound.put (h : Sound T r (some e) p) (hatt : Attached T r (e.putSubscriber row) row p) :
    Sound T r (some (e.putSubscriber row)) p :=
  .of_some h.ordered h.logged h.detached (h.txid e rfl) (nodup_put (h.nodup e rfl)) (.inl ⟨row, hatt⟩)

theorem Sound.put_waiting (h : Sound T r (some e) p) (hask : InTime T r e p)
    (hstage : e.fsm.stage = .early ∨ e.fsm.stage = .live) :
    Sound T r (some (e.putSubscriber ⟨r, true⟩)) p := by
  rcases hask with ⟨hunaware, -, -⟩ | ⟨hrow, -, -⟩
  · exact h.put (hunaware.attached mem_putSubscriber_self)
  · obtain ⟨s, hs, hid⟩ := hasSubscriber_iff.1 hrow
    exact h.put ((h.attached hs hid).put hstage)

/-- A request for an entry that has failed. The detached deliveries that the flag would hold
back do not exist. -/
theorem Attempt.sound_failed (h : Sound T r (some e) q) (hunaware : Unaware T r q)
    (hno : e.hasSubscriber r.id = false) (hstage : e.fsm.stage = .failed)
    (hn : n.kind? = some .failed) (ha : Attempt ⟨.failed, e.txid, e.gen, r, n⟩ q o p)
    (hlive : r ∉ p.stopped) :
    Sound T r (some (if o = .pending then e.putSubscriber ⟨r, true⟩ else e)) p := by
  have hlog := ha.logged hn h.logged
  have htxid := h.txid e rfl
  have hatt : Attached T r (e.putSubscriber ⟨r, true⟩) ⟨r, true⟩ q :=
    hunaware.attached mem_putSubscriber_self
  have hput := h.put hatt
  cases ha with
  | held _ | error _ => exact hput
  | deferred _ =>
    have hfits : Fits T r (e.putSubscriber ⟨r, true⟩) ⟨r, true⟩ q .failed :=
      ⟨.inr ⟨rfl, hunaware.detached⟩, .inl hstage⟩
    refine ⟨h.ordered, hlog, h.detached, hput.txid, hput.nodup, .inl ⟨_, ⟨r, true⟩, rfl, ?_⟩⟩
    exact hatt.defer htxid hunaware.underWay hfits
  | stopped _ => exact absurd (mem_append_right _ mem_cons_self) hlive
  | accepted _ =>
    have hrec : (q.told ⟨e.txid, e.gen, r, n⟩ .ok).received T r = [n] := by
      rw [received_told_self htxid rfl, hunaware.received]
      rfl
    have hdet : (q.told ⟨e.txid, e.gen, r, n⟩ .ok).detachedTo T r = [] := hunaware.detached
    have hterm : n.isTerminal = true ∧ n.needsConfirmed = false := by
      cases n <;> first | exact ⟨rfl, rfl⟩ | cases hn
    refine ⟨?_, hlog, ?_, h.txid, h.nodup, .inr ⟨?_, hunaware.underWay, .inr ⟨⟨n, ?_, hterm.1⟩, ?_⟩⟩⟩
    · simp [Deferred.receipt, hrec, Ordered, OrderedFrom, hterm.2]
    · simp [Deferred.receipt, hdet]
    · rintro _ ⟨⟩ s hs hid
      have hrow := hasSubscriber_iff.2 ⟨s, hs, hid⟩
      cases hrow.symm.trans hno
    · simp [Deferred.receipt, hrec]
    · simp [Deferred.receipt, hdet]

theorem Attaches.sound_self (h : Sound T r (some e) q) (ha : Attaches e r q e' p)
    (hask : InTime T r e q) (hlive : r ∉ p.stopped) : Sound T r (some e') p := by
  cases ha with
  | refused => exact h
  | waiting hstage => exact h.put_waiting hask hstage
  | @confirmed n o _ hstage hn hatt =>
    have hput := h.put_waiting hask (.inr hstage)
    have hdue : Due (e.putSubscriber ⟨r, true⟩) q ⟨r, true⟩ .confirmed := ⟨rfl, .inl hstage⟩
    have hsubs : (e.putSubscriber ⟨r, true⟩).subscribers =
        e.subscribers.filter (·.ref.id ≠ r.id) ++ ⟨r, true⟩ :: [] := rfl
    have hsound := hatt.sound_self (e := e.putSubscriber ⟨r, true⟩) hput hsubs rfl hdue hn hlive
    cases o with
    | delivered | pending => exact hsound
    | subscriberStopped => exact absurd hatt.mem_stopped hlive
  | finalized hstage _ _ => rcases hask with ⟨-, -, hne⟩ | ⟨-, hne, -⟩ <;> exact absurd hstage hne
  | failed hstage hn hatt =>
    rcases hask with ⟨hunaware, hno, -⟩ | ⟨-, -, hne⟩
    · exact hatt.sound_failed h hunaware hno hstage hn hlive
    · exact absurd hstage hne

theorem Attaches.same (ha : Attaches e ref q e' p) (hne : about T r e.txid ref = false) :
    Same T r q p := by
  cases ha with
  | confirmed _ _ hatt | finalized _ _ hatt | failed _ _ hatt => exact hatt.same hne
  | _ => exact .of_calm rfl

theorem mem_putSubscriber_of_ne (hne : s.ref.id ≠ ref.id) :
    s ∈ (e.putSubscriber ⟨ref, b⟩).subscribers ↔ s ∈ e.subscribers := by
  have hs : s ≠ ⟨ref, b⟩ := by
    rintro rfl
    exact hne rfl
  simp [Entry.putSubscriber, hs, hne]

theorem Attaches.sound_other (h : Sound T r (some e) q) (ha : Attaches e ref q e' p)
    (hne : ref.id ≠ r.id) : Sound T r (some e') p := by
  have hsame := h.same (ha.same (not_about_iff.2 fun _ => hne)) (ha.logged h.logged)
  rcases ha.eq_or with rfl | ⟨b, rfl, -⟩
  · exact hsame
  · refine hsame.withSubscribers (nodup_put (h.nodup e rfl)) fun s hs => ?_
    exact mem_putSubscriber_of_ne fun heq => hne (heq.symm.trans hs)

theorem Sound.track (h : Sound T r none p) (htxid : e.txid = T)
    (hnodup : (e.subscribers.map fun s => s.ref.id).Nodup)
    (hno : ∀ s ∈ e.subscribers, s.ref.id ≠ r.id) : Sound T r (some e) p := by
  rcases h.phase with ⟨_, _, ⟨⟩, -⟩ | ⟨-, hapart⟩
  exact .of_some h.ordered h.logged h.detached htxid hnodup (.inr ⟨hno, hapart⟩)

theorem Sound.track_self (h : Sound T r none p) (htxid : e.txid = T)
    (hsubs : e.subscribers = [⟨r, true⟩]) (hunaware : Unaware T r p) : Sound T r (some e) p := by
  refine .of_some h.ordered h.logged h.detached htxid (by simp [hsubs]) (.inl ⟨⟨r, true⟩, ?_⟩)
  exact hunaware.attached (by simp [hsubs])

theorem Unaware.calm (h : Unaware T r p) (hc : Calm p q) : Unaware T r q := by
  rw [hc]
  exact ⟨h.received, h.underWay, h.detached⟩

theorem Sound.calm (h : Sound T r oe p) (hc : Calm p q) : Sound T r oe q :=
  h.same (.of_calm hc) (hc.logged h.logged)

theorem Starts.sound (h : Sound T r none q) (ha : Starts e ref q oe p) (htxid : e.txid = T)
    (hsubs : e.subscribers = [⟨ref, true⟩]) (hself : ref.id = r.id → ref = r ∧ Unaware T r q)
    (hlive : r ∉ p.stopped) : Sound T r oe p := by
  cases ha with
  | refused hc => exact h.calm hc
  | @submitted q' _ _ hc hmoves =>
    refine hmoves.sound ?_ hlive
    by_cases hid : ref.id = r.id
    · obtain ⟨rfl, hunaware⟩ := hself hid
      exact (h.calm hc).track_self htxid hsubs (hunaware.calm hc)
    · refine (h.calm hc).track htxid ?_ ?_
      · simp [hsubs]
      · simpa [hsubs] using hid
  | @failed f _ hf hc =>
    have hnone : (f.deleteSubscriber ref.id).subscribers = [] := by
      rw [hf.same]
      simp [Entry.deleteSubscriber, hsubs]
    refine (h.calm hc).track ?_ ?_ ?_
    · rw [hf.same]
      exact htxid
    · simp [hnone]
    · simp [hnone]

theorem Starts.sound_other (h : Sound T r oe' q) (ha : Starts e ref q oe p) (htxid : e.txid ≠ T) :
    Sound T r oe' p := by
  cases ha with
  | refused hc | failed _ hc => exact h.calm hc
  | submitted hc hmoves =>
    refine hmoves.sound_other (t := e.txid) ?_ htxid (h.calm hc)
    rintro _ ⟨⟩
    rfl

end Asking

section Worlds

variable {w w' : World}

def World.Sound (w : World) (T : Txid) (r : Ref) : Prop :=
  Txconfirm.Sound T r (w.tracked.get? T) w.post

/-- When the subscriber may ask: see `InTime` for a transaction that is tracked. -/
def World.InTime (w : World) (T : Txid) (r : Ref) : Prop :=
  match w.tracked.get? T with
  | none => Unaware T r w.post
  | some e => Txconfirm.InTime T r e w.post

theorem World.InTime.withScript {script : List Answer} (h : w.InTime T r) :
    (w.withScript script).InTime T r := by
  unfold World.InTime at h ⊢
  have hget : (w.withScript script).tracked.get? T = w.tracked.get? T := rfl
  rw [hget]
  revert h
  cases w.tracked.get? T with
  | none => exact fun h => h.calm rfl
  | some e => exact fun h => h.imp_left fun h => ⟨h.1.calm rfl, h.2⟩

theorem World.Sound.handler (h : w.Sound T r) (hf : Handler f)
    (hlive : r ∉ (w.handle txid f).post.stopped) : (w.handle txid f).Sound T r := by
  cases hget : w.tracked.get? txid with
  | none => rwa [World.handle_of_none hget]
  | some e =>
    have htxid : e.txid = txid := Table.key_of_get? hget
    have hmoves := hf.moves e w.post
    rw [World.post_handle hget] at hlive
    rw [World.Sound, World.get?_handle hget hf.txid_eq, World.post_handle hget]
    by_cases ht : T = txid
    · subst ht
      rw [if_pos rfl]
      rw [World.Sound, hget] at h
      exact hmoves.sound h hlive
    rw [if_neg ht]
    refine hmoves.sound_other (t := txid) ?_ (Ne.symm ht) h
    rintro _ ⟨⟩
    exact htxid

theorem World.handler_le (hf : Handler f) : w.post.Le (w.handle txid f).post :=
  World.handle_keeps (K := fun p => w.post.Le p) (fun _ _ hm hle => hle.trans hm.le) hf .refl

theorem World.Sound.handleAll (h : w.Sound T r) (hg : ∀ best, Handler (g best))
    (hlive : r ∉ (w.handleAll g).post.stopped) : (w.handleAll g).Sound T r := by
  refine World.handleAll_invariant (fun w => r ∉ w.post.stopped → w.Sound T r) ?_ (fun _ => h) hlive
  intro w txid best ih hlive
  have hle : w.post.Le (w.handle txid (g best)).post := World.handler_le (hg best)
  exact (ih fun hr => hlive (hle.stopped hr)).handler (hg best) hlive

/-- The subscriber asks in time, or another one asks, or the request is for another
transaction. -/
theorem World.Sound.handleEnsure (h : w.Sound T r)
    (hask : req.txid = T → req.subscriber.id = r.id → req.subscriber = r ∧ w.InTime T r)
    (hlive : r ∉ (w.handleEnsure req).post.stopped) : (w.handleEnsure req).Sound T r := by
  cases hget : w.tracked.get? req.txid with
  | none =>
    rw [World.handleEnsure_of_none hget] at hlive ⊢
    obtain ⟨hother, e, htxid, -, -, hsubs, hstarts⟩ := startTracking_spec hget
    by_cases ht : T = req.txid
    · subst ht
      rw [World.Sound, hget] at h
      refine hstarts.sound h htxid hsubs (fun hid => ?_) hlive
      obtain ⟨href, hin⟩ := hask rfl hid
      rw [World.InTime, hget] at hin
      exact ⟨href, hin⟩
    · rw [World.Sound, hother T ht]
      exact hstarts.sound_other h (htxid ▸ Ne.symm ht)
  | some e =>
    rcases World.handleEnsure_of_some hget with heq | heq
    · rwa [heq]
    obtain ⟨e', q, p, hq, ha, hstore⟩ := World.attach_spec hget
    have htxid : e.txid = req.txid := Table.key_of_get? hget
    have htxid' : ∀ x ∈ some e', x.txid = req.txid := by
      rintro _ ⟨⟩
      rcases ha.eq_or with rfl | ⟨b, rfl, -⟩ <;> exact htxid
    rw [heq, hstore] at hlive ⊢
    rw [World.Sound, World.get?_store htxid']
    by_cases ht : T = req.txid
    · subst ht
      rw [World.Sound, hget] at h
      rw [if_pos rfl]
      by_cases hid : req.subscriber.id = r.id
      · obtain ⟨rfl, hin⟩ := hask rfl hid
        rw [World.InTime, hget] at hin
        refine ha.sound_self (h.calm hq) ?_ hlive
        exact hin.imp (fun h => ⟨h.1.calm hq, h.2⟩) fun h => h
      · exact ha.sound_other (h.calm hq) hid
    · rw [if_neg ht]
      have hsame := ha.same (T := T) (r := r) (not_about_iff.2 fun h => absurd (h.symm.trans htxid) ht)
      exact (Txconfirm.Sound.calm h hq).same hsame (ha.logged (hq.logged h.logged))

end Worlds

section Results

variable {p : Post} {e : Entry} {id : SubscriberId} {d : Deferred} {w w' : World}

theorem nodup_delete (h : (e.subscribers.map fun s => s.ref.id).Nodup) :
    ((e.deleteSubscriber id).subscribers.map fun s => s.ref.id).Nodup :=
  h.sublist (filter_sublist.map _)

theorem nodup_clear (h : (e.subscribers.map fun s => s.ref.id).Nodup) :
    ((e.clearPendingConfirmed id).subscribers.map fun s => s.ref.id).Nodup := by
  have hids : (e.clearPendingConfirmed id).subscribers.map (fun s => s.ref.id) =
      e.subscribers.map fun s => s.ref.id := by
    rw [Entry.clearPendingConfirmed, List.map_map]
    refine map_congr_left fun s _ => ?_
    simp only [Function.comp_apply]
    split <;> rfl
  rwa [hids]

theorem Sound.delete_other (h : Sound T r (some e) p) (hne : id ≠ r.id) :
    Sound T r (some (e.deleteSubscriber id)) p := by
  refine h.withSubscribers (nodup_delete (h.nodup e rfl)) fun s hs => ?_
  simp [hs, Ne.symm hne]

theorem Sound.clear_other (h : Sound T r (some e) p) (hne : id ≠ r.id) :
    Sound T r (some (e.clearPendingConfirmed id)) p := by
  refine h.withSubscribers (nodup_clear (h.nodup e rfl)) fun s hs => ?_
  rw [List.mem_map]
  constructor
  · rintro ⟨s', hs', rfl⟩
    split at hs
    · next hid => exact absurd (hid.symm.trans hs) hne
    · next hid =>
      rw [if_neg hid]
      exact hs'
  · intro hmem
    exact ⟨s, hmem, if_neg fun hid => hne (hid.symm.trans hs)⟩

theorem World.Sound.cancel (h : w.Sound T r) (hne : txid = T → id ≠ r.id) :
    (w.handle txid (handleCancel · id)).Sound T r := by
  obtain ⟨hother, hcalm, hown⟩ := World.handleCancel_spec w txid id
  by_cases ht : T = txid
  · subst ht
    cases hget : w.tracked.get? T with
    | none => rwa [World.handle_of_none hget]
    | some e =>
      rw [World.Sound, hget] at h
      have hdel := (h.calm hcalm).delete_other (hne rfl)
      rcases hown e hget with hget' | ⟨hget', hsubs⟩
      · rwa [World.Sound, hget']
      · rw [World.Sound, hget']
        exact hdel.drop hsubs
  · rw [World.Sound, hother T ht]
    exact Txconfirm.Sound.calm h hcalm

theorem Resolves.sound_other (h : Sound T r (some e) p) (hr : Resolves e id kind res oe)
    (hne : id ≠ r.id) : Sound T r oe p := by
  cases hr with
  | failed => exact h
  | cancelled | ended _ => exact h.delete_other hne
  | dropped hsubs | evicted _ hsubs _ => exact (h.delete_other hne).drop hsubs
  | confirmed _ => exact h.clear_other hne

section Lists

variable {α : Type} {l : List α}

theorem filter_eraseIdx_of_neg (hx : l[i]? = some x) (hf : f x = false) :
    (l.eraseIdx i).filter f = l.filter f := by
  induction l generalizing i with
  | nil => rfl
  | cons y l ih =>
    cases i with
    | zero =>
      obtain rfl : y = x := by simpa using hx
      simp [hf]
    | succ i => simp only [eraseIdx_cons_succ, filter_cons, ih (by simpa using hx)]

theorem filter_eraseIdx_eq_nil (hx : l[i]? = some x) (hf : f x = true)
    (hsingle : (l.filter f).length ≤ 1) : (l.eraseIdx i).filter f = [] := by
  obtain ⟨hi, rfl⟩ := List.getElem?_eq_some_iff.1 hx
  have hperm := ((getElem_cons_eraseIdx_perm hi).filter f).length_eq
  rw [filter_cons_of_pos hf, length_cons] at hperm
  exact eq_nil_of_length_eq_zero (by omega)

end Lists

theorem mem_received :
    n ∈ p.received T r ↔ ∃ x ∈ p.inbox, x.txid = T ∧ x.ref = r ∧ x.notification = n := by
  simp [Post.received, and_assoc]

theorem mem_received_of_honest (h : p.Honest d .ok) (htxid : d.txid = T) (href : d.ref = r) :
    d.notification ∈ p.received T r :=
  mem_received.2 ⟨d.receipt, h.accepted rfl, htxid, href, rfl⟩

theorem underWay_takeResult (hx : p.results[i]? = some (d, res))
    (habout : about T r d.txid d.ref = true) (hsingle : (p.underWay T r).length ≤ 1) :
    (p.takeResult i d).underWay T r = [] := by
  have hmem : (d, res) ∈ p.resultsOf T r := mem_filter.2 ⟨mem_of_getElem? hx, habout⟩
  rw [Post.underWay, length_append, length_map] at hsingle
  have hpos := length_pos_of_mem hmem
  have hdef : p.deferredTo T r = [] := eq_nil_of_length_eq_zero (by omega)
  have hone : (p.resultsOf T r).length ≤ 1 := by omega
  have hres : (p.takeResult i d).resultsOf T r = [] := filter_eraseIdx_eq_nil hx habout hone
  have hdef' : (p.takeResult i d).deferredTo T r = [] := hdef
  rw [Post.underWay, hdef', hres]
  rfl

theorem resultsOf_eq_of_single {x y : Deferred × TellResult} (hsingle : (p.underWay T r).length ≤ 1)
    (hx : x ∈ p.resultsOf T r) (hy : y ∈ p.resultsOf T r) : x = y := by
  rw [Post.underWay, length_append, length_map] at hsingle
  obtain ⟨z, hz⟩ : ∃ z, p.resultsOf T r = [z] :=
    length_eq_one_iff.1 (by have := length_pos_of_mem hx; omega)
  rw [hz, mem_singleton] at hx hy
  rw [hx, hy]

theorem mem_clearPendingConfirmed (hs : s ∈ e.subscribers) :
    { s with pendingConfirmed := false } ∈ (e.clearPendingConfirmed s.ref.id).subscribers :=
  List.mem_map.2 ⟨s, hs, if_pos rfl⟩

theorem Resolves.sound_self (h : Sound T r (some e) p) (hx : p.results[i]? = some (d, res))
    (htxid : d.txid = T) (hid : d.ref.id = r.id) (hr : Resolves e d.ref.id d.kind res oe)
    (hlive : r ∉ p.stopped) : Sound T r oe (p.takeResult i d) := by
  have habout : about T r d.txid d.ref = true := about_iff.2 ⟨htxid, hid⟩
  have hresult : (d, res) ∈ p.resultsOf T r := mem_filter.2 ⟨mem_of_getElem? hx, habout⟩
  have hway : d ∈ p.underWay T r := mem_append_right _ (mem_map_of_mem hresult)
  have hhonest := h.logged.results _ (mem_of_getElem? hx)
  have hlog : (p.takeResult i d).Logged := h.logged.takeResult
  rcases h.phase with ⟨e', s, he', hatt⟩ | ⟨-, hapart⟩
  swap
  · rw [hapart.underWay] at hway
    cases hway
  cases he'
  obtain ⟨href, hgen, -, hfits⟩ := hatt.underWay d hway
  have hnone := underWay_takeResult hx habout hatt.single
  have hover (ho : p.Over T r) : res = .ok ∧ d.kind ≠ .confirmed := by
    obtain ⟨-, x, hmem, hok, hkind⟩ := hatt.finished ho
    obtain rfl := resultsOf_eq_of_single hatt.single hmem hresult
    exact ⟨hok, hkind⟩
  have hrow (s' : Subscriber) (e' : Entry) (hmem : s' ∈ e'.subscribers) (hgen' : e'.gen = e.gen)
      (href' : s'.ref = r) (hmark : s'.pendingConfirmed = false → p.Knows T r)
      (hno : ¬ p.Over T r) : Attached T r e' s' (p.takeResult i d) := by
    refine ⟨hmem, href', hmark, by simp [hnone], by simp [hnone], ?_, fun ho => absurd ho hno⟩
    exact fun d hd => (hatt.detached d hd).trans hgen'.symm
  have hended (hkind : d.kind ≠ .confirmed) (hok : res = .ok) :
      Sound T r (some (e.deleteSubscriber d.ref.id)) (p.takeResult i d) := by
    have ho : p.Over T r :=
      ⟨_, mem_received_of_honest (hok ▸ hhonest) htxid href, (isTerminal_iff_of_kind hhonest.kind).2 hkind⟩
    refine .of_some h.ordered hlog h.detached (h.txid e rfl) (nodup_delete (h.nodup e rfl))
      (.inr ⟨fun s' hs' => ?_, hnone, .inr ⟨ho, fun d' hd' => ?_⟩⟩)
    · have hne := (mem_filter.1 hs').2
      simpa [hid] using hne
    rcases (hatt.finished ho).1 with hsealed | ⟨-, hdet⟩
    · have hgen' : d'.gen = e.gen := hatt.detached d' hd'
      exact hgen' ▸ hsealed
    · have hd'' : d' ∈ p.detachedTo T r := hd'
      rw [hdet] at hd''
      cases hd''
  cases hr with
  | failed =>
    refine ⟨h.ordered, hlog, h.detached, h.txid, h.nodup, .inl ⟨e, s, rfl, ?_⟩⟩
    exact hrow s e hatt.mem rfl hatt.ref hatt.marked fun ho => absurd (hover ho).1 nofun
  | cancelled | dropped _ => exact absurd (href ▸ hhonest.refused rfl) hlive
  | confirmed hkind =>
    have hknows : p.Knows T r :=
      ⟨_, mem_received_of_honest hhonest htxid href, isConfirmed_of_kind (hkind ▸ hhonest.kind)⟩
    have hmem := mem_clearPendingConfirmed hatt.mem
    rw [hatt.ref, ← hid] at hmem
    refine .of_some h.ordered hlog h.detached (h.txid e rfl) (nodup_clear (h.nodup e rfl))
      (.inl ⟨⟨r, false⟩, ?_⟩)
    exact hrow _ _ hmem rfl rfl (fun _ => hknows) fun ho => (hover ho).2 hkind
  | ended hkind => exact hended hkind rfl
  | evicted hkind hsubs _ => exact (hended hkind rfl).drop hsubs

theorem Same.takeResult (hx : p.results[i]? = some (d, res))
    (hne : about T r d.txid d.ref = false) : Same T r p (p.takeResult i d) := by
  refine ⟨rfl, rfl, filter_eraseIdx_of_neg hx hne, fun d hd => ⟨d.checked, hd⟩, ?_, fun _ h => h⟩
  intro k hk htxid hid
  refine mem_filter.2 ⟨hk, ?_⟩
  have hkey : k ≠ d.inflightKey := by
    rintro rfl
    exact not_about_iff.1 hne htxid hid
  simpa using hkey

theorem World.Sound.resultObserved (h : w.Sound T r) (hstep : w.resultObserved i = some w')
    (hlive : r ∉ w'.post.stopped) : w'.Sound T r := by
  have hle := World.resultObserved_le hstep
  obtain ⟨⟨d, res⟩, hx, -⟩ := bind_eq_some_iff.1 hstep
  obtain ⟨hother, ⟨q, hq, hpost⟩, hnone, hown⟩ := World.resultObserved_spec hx hstep
  -- first the entry, with the result taken and before a `TxReorged` is started
  have hentry : Txconfirm.Sound T r (w'.tracked.get? T) (w.post.takeResult i d) := by
    by_cases ht : d.txid = T
    · cases hget : w.tracked.get? T with
      | none =>
        rw [hnone (ht ▸ hget), hget]
        rw [World.Sound, hget] at h
        refine h.same (.takeResult hx (not_about_iff.2 fun _ hid => ?_)) h.logged.takeResult
        have hway : d ∈ w.post.underWay T r :=
          mem_underWay.2 ⟨.inr ⟨res, mem_of_getElem? hx⟩, ht, hid⟩
        rcases h.phase with ⟨_, _, habs, -⟩ | ⟨-, hapart⟩
        · cases habs
        · rw [hapart.underWay] at hway
          cases hway
      | some e =>
        rw [World.Sound, hget] at h
        have hres := ht ▸ hown e (ht ▸ hget)
        by_cases hid : d.ref.id = r.id
        · exact hres.sound_self h hx ht hid fun hr => hlive (hle.stopped hr)
        · exact hres.sound_other (h.same (.takeResult hx (not_about_iff.2 fun _ => hid))
            h.logged.takeResult) hid
    · rw [hother T (Ne.symm ht)]
      exact h.same (.takeResult hx (not_about_iff.2 fun h => absurd h ht)) h.logged.takeResult
  rcases hpost with hpost | ⟨hkind, rfl, e, hget, s, hs, hid, hpost⟩
  · rw [World.Sound, hpost]
    exact hentry.calm hq
  have hclear : w'.tracked.get? d.txid = some (e.clearPendingConfirmed d.ref.id) := by
    have hres := hown e hget
    revert hres
    generalize w'.tracked.get? d.txid = oe
    rintro ⟨⟩
    · rfl
    · next hne => exact absurd hkind hne
    · next hne _ _ => exact absurd hkind hne
  rw [World.Sound, hpost]
  by_cases ht : d.txid = T
  · rw [← ht] at hentry ⊢
    rw [hclear] at hentry ⊢
    have hrow := mem_clearPendingConfirmed hs
    rw [hid] at hrow
    have hspawn := (hentry.calm hq).spawn (n := .reorged) hrow rfl rfl
    exact hspawn
  · have htxid : e.txid = d.txid := Table.key_of_get? hget
    have hlog := (hentry.calm hq).logged.mono (q := q.spawn ⟨e.txid, e.gen, s.ref, .reorged, false⟩)
      ⟨fun _ h => h, fun _ h => h⟩ rfl rfl
    exact (hentry.calm hq).same (.spawn (not_about_iff.2 fun h => absurd (htxid ▸ h) ht)) hlog

def returned (p : Post) (i : ℕ) (d : Deferred) (res : TellResult) : Post :=
  { p.told d.receipt res with
    deferred := (p.told d.receipt res).deferred.eraseIdx i
    results := (p.told d.receipt res).results ++ [(d, res)] }

theorem Same.returned (hx : p.deferred[i]? = some d) (hne : about T r d.txid d.ref = false) :
    Same T r p (returned p i d res) := by
  have hreceipt : d.receipt.txid = T → d.receipt.ref ≠ r := fun htxid href =>
    not_about_iff.1 hne htxid (congrArg Ref.id href)
  refine ⟨received_told_of_ne hreceipt, ?_, ?_, fun d' hd' => ⟨d'.checked, ?_⟩, ?_, ?_⟩
  · rw [Post.deferredTo, Txconfirm.returned, Post.told_deferred]
    exact filter_eraseIdx_of_neg hx hne
  · rw [Post.resultsOf, Txconfirm.returned, Post.told_results, filter_append]
    simp [hne, Post.resultsOf]
  · cases res <;> exact hd'
  · intro k hk _ _
    cases res <;> exact hk
  · intro g hg
    cases res <;> exact hg

theorem underWay_returned (hx : p.deferred[i]? = some d) (habout : about T r d.txid d.ref = true)
    (hsingle : (p.underWay T r).length ≤ 1) :
    (returned p i d res).deferredTo T r = [] ∧ (returned p i d res).resultsOf T r = [(d, res)] := by
  have hmem : d ∈ p.deferredTo T r := mem_filter.2 ⟨mem_of_getElem? hx, habout⟩
  rw [Post.underWay, length_append, length_map] at hsingle
  have hpos := length_pos_of_mem hmem
  have hone : (p.deferredTo T r).length ≤ 1 := by omega
  have hres : p.resultsOf T r = [] := eq_nil_of_length_eq_zero (by omega)
  constructor
  · rw [Post.deferredTo, returned, Post.told_deferred]
    exact filter_eraseIdx_eq_nil hx habout hone
  · rw [Post.resultsOf] at hres
    rw [Post.resultsOf, returned, Post.told_results, filter_append, hres]
    simpa using habout

/-- Before a delivery that is under way has returned, the end has not been received. -/
theorem Attached.not_over_of_deferred (h : Attached T r e s p) (hd : d ∈ p.deferredTo T r) :
    ¬ p.Over T r := by
  intro ho
  obtain ⟨x, hx, -⟩ := (h.finished ho).2
  have hsingle := h.single
  rw [Post.underWay, length_append, length_map] at hsingle
  have hpos := length_pos_of_mem hd
  have hpos' := length_pos_of_mem hx
  omega

theorem Fits.closed (h : Fits T r e s p kind) (hkind : kind ≠ .confirmed) : Closed T r e s p := by
  cases kind with
  | confirmed => exact absurd rfl hkind
  | finalized => exact .inl h.2.1
  | failed => exact h.1

theorem Attached.knows_of_needs (h : Attached T r e s p) (hfits : Fits T r e s p d.kind)
    (hkind : d.notification.kind? = some d.kind) (hneeds : d.notification.needsConfirmed = true) :
    p.Knows T r := by
  revert hneeds hkind hfits
  cases d.kind with
  | finalized => exact fun hfits _ _ => h.marked hfits.1
  | _ => cases d.notification <;> simp [Notification.kind?, Notification.needsConfirmed]

theorem Attached.returned (h : Attached T r e s p) (hx : p.deferred[i]? = some d)
    (habout : about T r d.txid d.ref = true) (hkind : d.notification.kind? = some d.kind)
    (hres : res ≠ .stopped) : Attached T r e s (returned p i d res) := by
  obtain ⟨htxid, hid⟩ := about_iff.1 habout
  have hmem : d ∈ p.deferredTo T r := mem_filter.2 ⟨mem_of_getElem? hx, habout⟩
  obtain ⟨href, hgen, hkey, hfits⟩ := h.underWay d (mem_append_left _ hmem)
  have hnot := h.not_over_of_deferred hmem
  have hret : (Txconfirm.returned p i d res).deferredTo T r = [] ∧
      (Txconfirm.returned p i d res).resultsOf T r = [(d, res)] :=
    underWay_returned hx habout h.single
  have hway : (Txconfirm.returned p i d res).underWay T r = [d] := by
    rw [Post.underWay, hret.1, hret.2]
    rfl
  cases res with
  | stopped => exact absurd rfl hres
  | error =>
    refine ⟨h.mem, h.ref, h.marked, by simp [hway], ?_, h.detached, fun ho => absurd ho hnot⟩
    intro d' hd'
    rw [hway, mem_singleton] at hd'
    subst hd'
    exact ⟨href, hgen, hkey, hfits⟩
  | ok =>
    have hrec : (Txconfirm.returned p i d .ok).received T r = p.received T r ++ [d.notification] :=
      received_told_self htxid href
    refine ⟨h.mem, h.ref, fun hm => Knows.told (h.marked hm), by simp [hway], ?_, h.detached, ?_⟩
    · intro d' hd'
      rw [hway, mem_singleton] at hd'
      subst hd'
      exact ⟨href, hgen, hkey, hfits⟩
    intro ho
    rcases (over_of_append hrec).1 ho with ho | hterm
    · exact absurd ho hnot
    · have hterminal : d.kind ≠ .confirmed := (isTerminal_iff_of_kind hkind).1 hterm
      exact ⟨hfits.closed hterminal, (d, .ok), by simp [hret.2], rfl, hterminal⟩

theorem Sound.returned (h : Sound T r oe p) (hx : p.deferred[i]? = some d)
    (hlog : (returned p i d res).Logged) (hlive : r ∉ (returned p i d res).stopped) :
    Sound T r oe (returned p i d res) := by
  by_cases habout : about T r d.txid d.ref = true
  swap
  · exact h.same (.returned hx (Bool.eq_false_iff.2 habout)) hlog
  obtain ⟨htxid, hid⟩ := about_iff.1 habout
  have hmem : d ∈ p.deferredTo T r := mem_filter.2 ⟨mem_of_getElem? hx, habout⟩
  have hway : d ∈ p.underWay T r := mem_append_left _ hmem
  rcases h.phase with ⟨e, s, rfl, hatt⟩ | ⟨-, hapart⟩
  swap
  · rw [hapart.underWay] at hway
    cases hway
  obtain ⟨href, -, -, hfits⟩ := hatt.underWay d hway
  have hkind := h.logged.deferred d (mem_of_getElem? hx)
  have hstopped : res ≠ .stopped := by
    rintro rfl
    exact hlive (mem_append_right _ (mem_singleton.2 href.symm))
  refine ⟨?_, hlog, ?_, h.txid, h.nodup, .inl ⟨e, s, rfl, hatt.returned hx habout hkind hstopped⟩⟩
  · cases res with
    | stopped => exact absurd rfl hstopped
    | error => exact h.ordered
    | ok =>
      have hrec : (Txconfirm.returned p i d .ok).received T r =
          p.received T r ++ [d.notification] := received_told_self htxid href
      exact ordered_of_append h.ordered (hatt.not_over_of_deferred hmem)
        (hatt.knows_of_needs hfits hkind) hrec
  · cases res with
    | stopped => exact absurd rfl hstopped
    | error => exact h.detached
    | ok =>
      intro d' hd'
      obtain ⟨href', hterm, hknows⟩ := h.detached d' hd'
      exact ⟨href', hterm, Knows.told hknows⟩

theorem World.Sound.deferredReturns (h : w.Sound T r) (hstep : w.deferredReturns i res = some w')
    (hlive : r ∉ w'.post.stopped) : w'.Sound T r := by
  have hlog := World.deferredReturns_logged h.logged hstep
  obtain ⟨d, hd, hw⟩ := bind_eq_some_iff.1 hstep
  cases hw
  exact Txconfirm.Sound.returned h hd hlog hlive

end Results

section Detached

variable {T : Txid} {r : Ref} {w w' : World}

/-- No delivery that has read the flag as unset belongs to a sealed entry. -/
def Unread (T : Txid) (r : Ref) (p : Post) : Prop :=
  ∀ d ∈ p.detachedTo T r, d.gen ∈ p.sealed → d.checked = false

theorem Same.eraseDetached : Same T r p { p with detached := p.detached.eraseIdx i } := by
  refine { Same.refl with detached := fun d hd => ⟨d.checked, ?_⟩ }
  obtain ⟨hmem, habout⟩ := mem_detachedTo.1 hd
  exact mem_detachedTo.2 ⟨mem_of_mem_eraseIdx hmem, habout⟩

theorem Sound.eraseDetached (h : Sound T r oe p) :
    Sound T r oe { p with detached := p.detached.eraseIdx i } :=
  h.same .eraseDetached (h.logged.mono ⟨fun _ h => h, fun _ h => h⟩ rfl rfl)

theorem World.Sound.detachedReads (h : w.Sound T r) (hstep : w.detachedReads i = some w') :
    w'.Sound T r := by
  obtain ⟨d, hd, -, ⟨-, rfl⟩ | ⟨-, rfl⟩⟩ := World.detachedReads_spec hstep
  · exact Txconfirm.Sound.eraseDetached h
  refine h.same ⟨rfl, rfl, rfl, fun d' hd' => ?_, fun _ h _ _ => h, fun _ h => h⟩
    (h.logged.mono ⟨fun _ h => h, fun _ h => h⟩ rfl rfl)
  obtain ⟨hmem, habout⟩ := mem_detachedTo.1 hd'
  rcases mem_or_eq_of_mem_set hmem with hmem | rfl
  · exact ⟨d'.checked, mem_detachedTo.2 ⟨hmem, habout⟩⟩
  · exact ⟨d.checked, mem_detachedTo.2 ⟨mem_of_getElem? hd, habout⟩⟩

variable (h : Sound T r oe p) (hunread : Unread T r p)
include h hunread

/-- A detached delivery that has read the flag as unset is not late. -/
theorem Sound.not_over_of_checked
    (hd : d ∈ p.detachedTo T r) (hchecked : d.checked = true) :
    ¬ p.Over T r ∧ ∃ e s, oe = some e ∧ Attached T r e s p := by
  have hsealed : d.gen ∉ p.sealed := fun hs => absurd (hchecked.symm.trans (hunread d hd hs)) nofun
  have hnil : p.detachedTo T r ≠ [] := ne_nil_of_mem hd
  rcases h.phase with ⟨e, s, he, hatt⟩ | ⟨-, hapart⟩
  · refine ⟨fun ho => ?_, e, s, he, hatt⟩
    rcases (hatt.finished ho).1 with hs | ⟨-, hdet⟩
    · exact hsealed ((hatt.detached d hd) ▸ hs)
    · exact hnil hdet
  · rcases hapart.told with ⟨-, hdet⟩ | ⟨-, hdet⟩
    · exact absurd hdet hnil
    · exact absurd (hdet d hd) hsealed

/-- A detached delivery to the subscriber is accepted before the end. -/
theorem Sound.accept_detached
    (hd : d ∈ p.detachedTo T r) (hchecked : d.checked = true) :
    Sound T r oe (p.told d.receipt .ok) := by
  obtain ⟨hnot, e, s, he, hatt⟩ := h.not_over_of_checked hunread hd hchecked
  obtain ⟨href, hterm, hknows⟩ := h.detached d hd
  obtain ⟨-, htxid, -⟩ := mem_detachedTo.1 hd
  have hrec : (p.told d.receipt .ok).received T r = p.received T r ++ [d.notification] :=
    received_told_self htxid href
  have hlog : (p.told d.receipt .ok).Logged := h.logged.mono Post.le_told rfl rfl
  refine ⟨ordered_of_append h.ordered hnot (fun _ => hknows) hrec, hlog, fun d' hd' => ?_, h.txid,
    h.nodup, .inl ⟨e, s, he, { hatt with marked := fun hm => Knows.told (hatt.marked hm), finished := ?_ }⟩⟩
  · obtain ⟨href', hterm', hknows'⟩ := h.detached d' hd'
    exact ⟨href', hterm', Knows.told hknows'⟩
  intro ho
  rcases (over_of_append hrec).1 ho with ho | hn
  · exact absurd ho hnot
  · cases hterm.symm.trans hn

theorem Sound.told_detached (hd : d ∈ p.detached)
    (hchecked : d.checked = true) (hlive : r ∉ (p.told d.receipt res).stopped) :
    Sound T r oe (p.told d.receipt res) := by
  by_cases habout : about T r d.txid d.ref = true
  · obtain ⟨htxid, hid⟩ := about_iff.1 habout
    have hmine : d ∈ p.detachedTo T r := mem_detachedTo.2 ⟨hd, htxid, hid⟩
    cases res with
    | ok => exact h.accept_detached hunread hmine hchecked
    | error => exact h
    | stopped =>
      have href := (h.detached d hmine).1
      exact absurd (mem_append_right _ (mem_singleton.2 href.symm)) hlive
  · have hlog : (p.told d.receipt res).Logged :=
      h.logged.mono Post.le_told Post.told_deferred Post.told_results
    exact h.same (.told (Bool.eq_false_iff.2 habout)) hlog

omit h hunread

theorem World.Sound.detachedSends (h : w.Sound T r) (hunread : Unread T r w.post)
    (hstep : w.detachedSends i res = some w') (hlive : r ∉ w'.post.stopped) : w'.Sound T r := by
  obtain ⟨d, hd, hchecked, rfl⟩ := World.detachedSends_spec hstep
  have htold : Txconfirm.Sound T r (w.tracked.get? T) (w.post.told d.receipt res) :=
    Txconfirm.Sound.told_detached h hunread (mem_of_getElem? hd) hchecked hlive
  exact htold.eraseDetached

end Detached

def Action.request : Action → Option EnsureReq
  | .ensure req _ => some req
  | _ => none

/-- The subscriber does not cancel and asks in time, and no entry is sealed between a read of its
flag by a detached delivery to the subscriber and the send. -/
structure Follows (T : Txid) (r : Ref) (w : World) (a : Action) (w' : World) : Prop where
  cancels : ¬ a.Cancels T r.id
  asks : ∀ req ∈ a.request, req.txid = T → req.subscriber.id = r.id →
    req.subscriber = r ∧ w.InTime T r
  sealed : ∀ d ∈ w.post.detachedTo T r, d.checked = true → d.gen ∈ w'.post.sealed →
    d.gen ∈ w.post.sealed

instance (T : Txid) (r : Ref) (p : Post) : Decidable (Unaware T r p) :=
  decidable_of_iff (p.received T r = [] ∧ p.underWay T r = [] ∧ p.detachedTo T r = [])
    ⟨fun h => ⟨h.1, h.2.1, h.2.2⟩, fun h => ⟨h.received, h.underWay, h.detached⟩⟩

instance (T : Txid) (r : Ref) (e : Entry) (p : Post) : Decidable (InTime T r e p) := by
  unfold InTime
  infer_instance

instance (w : World) (T : Txid) (r : Ref) : Decidable (w.InTime T r) := by
  unfold World.InTime
  split <;> infer_instance

instance (T : Txid) (r : Ref) (w : World) (a : Action) (w' : World) :
    Decidable (Follows T r w a w') :=
  decidable_of_iff (¬ a.Cancels T r.id ∧ (∀ req ∈ a.request, req.txid = T →
      req.subscriber.id = r.id → req.subscriber = r ∧ w.InTime T r) ∧
      ∀ d ∈ w.post.detachedTo T r, d.checked = true → d.gen ∈ w'.post.sealed →
        d.gen ∈ w.post.sealed)
    ⟨fun h => ⟨h.1, h.2.1, h.2.2⟩, fun h => ⟨h.cancels, h.asks, h.sealed⟩⟩

section Steps

variable {w w' : World} {p q : Post}

/-- The detached deliveries that are not among these have not read the flag. -/
def Spawned (l : List Detached) (p : Post) : Prop := ∀ d ∈ p.detached, d ∈ l ∨ d.checked = false

theorem Spawned.of_eq (h : Spawned l p) (heq : q.detached = p.detached) :
    Spawned l q := fun d hd => h d (heq ▸ hd)

theorem Spawned.spawn (h : Spawned l p) (hd : d.checked = false) : Spawned l (p.spawn d) := by
  intro d' hd'
  rcases mem_append.1 hd' with hd' | hd'
  · exact h d' hd'
  · obtain rfl := mem_singleton.1 hd'
    exact .inr hd

theorem Attempt.detached_eq (h : Attempt d p o q) : q.detached = p.detached := by
  cases h <;> rfl

theorem Attaches.detached_eq (h : Attaches e ref p e' q) : q.detached = p.detached := by
  cases h with
  | confirmed _ _ hatt | finalized _ _ hatt | failed _ _ hatt => exact hatt.detached_eq
  | _ => rfl

theorem Stable.spawned : Stable (Spawned l) where
  move a b hmove h := by
    cases hmove with
    | tell _ _ _ hatt => exact h.of_eq hatt.detached_eq
    | spawn _ _ _ => exact h.spawn rfl
    | _ => exact h
  calm p q hcalm h := by
    rw [hcalm]
    exact h
  attach e ref p e' q ha h := h.of_eq ha.detached_eq

theorem World.resultObserved_spawned (hstep : w.resultObserved i = some w') :
    Spawned w.post.detached w'.post := by
  obtain ⟨⟨d, res⟩, hx, -⟩ := bind_eq_some_iff.1 hstep
  obtain ⟨-, ⟨q, hq, hpost⟩, -⟩ := World.resultObserved_spec hx hstep
  have hq' : Spawned w.post.detached q := Stable.spawned.calm _ _ hq fun d hd => .inl hd
  rcases hpost with hpost | ⟨-, -, e, -, s, -, -, hpost⟩ <;> rw [hpost]
  · exact hq'
  · exact hq'.spawn rfl

theorem told_detached : (p.told x res).detached = p.detached := by
  cases res <;> rfl

theorem step_spawned (hstep : Step w a w') (hreads : ∀ i, w.detachedReads i ≠ some w') :
    Spawned w.post.detached w'.post := by
  have hself : Spawned w.post.detached w.post := fun d hd => .inl hd
  refine Stable.spawned.step hself hstep ?_ ?_ (fun i h => absurd h (hreads i)) ?_
  · intro i script h
    exact World.resultObserved_spawned (w := w.withScript script) h
  · intro i res h
    obtain ⟨d, hd, hw⟩ := bind_eq_some_iff.1 h
    cases hw
    exact hself.of_eq told_detached
  intro i res h
  obtain ⟨d, -, -, rfl⟩ := World.detachedSends_spec h
  intro d' hd'
  have hmem := mem_of_mem_eraseIdx hd'
  rw [told_detached] at hmem
  exact .inl hmem

theorem World.detachedReads_unread (h : Unread T r w.post) (hstep : w.detachedReads i = some w') :
    Unread T r w'.post := by
  obtain ⟨d, -, -, ⟨-, rfl⟩ | ⟨hsealed, rfl⟩⟩ := World.detachedReads_spec hstep
  · intro d' hd'
    obtain ⟨hmem, habout⟩ := mem_detachedTo.1 hd'
    exact h d' (mem_detachedTo.2 ⟨mem_of_mem_eraseIdx hmem, habout⟩)
  intro d' hd' hgen
  obtain ⟨hmem, habout⟩ := mem_detachedTo.1 hd'
  rcases mem_or_eq_of_mem_set hmem with hmem | rfl
  · exact h d' (mem_detachedTo.2 ⟨hmem, habout⟩) hgen
  · exact absurd hgen hsealed

/-- A delivery that has read the flag as unset is not overtaken by the sealing of its entry. -/
theorem step_unread (h : Unread T r w.post) (hstep : Step w a w') (hG : Follows T r w a w') :
    Unread T r w'.post := by
  by_cases hreads : ∃ i, w.detachedReads i = some w'
  · obtain ⟨i, hi⟩ := hreads
    exact World.detachedReads_unread h hi
  have hspawned := step_spawned hstep (not_exists.1 hreads)
  intro d hd hsealed
  obtain ⟨hd, habout⟩ := mem_detachedTo.1 hd
  rcases hspawned d hd with hd | hd
  · have hmine : d ∈ w.post.detachedTo T r := mem_detachedTo.2 ⟨hd, habout⟩
    by_contra hchecked
    exact hchecked (h d hmine (hG.sealed d hmine (by simpa using hchecked) hsealed))
  · exact hd

theorem step_le (hstep : Step w a w') : w.post.Le w'.post := by
  refine Stable.le.step .refl hstep ?_ ?_ ?_ ?_
  · intro i script h
    have hle := World.resultObserved_le (w := w.withScript script) h
    exact ⟨hle.inbox, hle.stopped⟩
  · intro i res h
    obtain ⟨d, hd, hw⟩ := bind_eq_some_iff.1 h
    cases hw
    exact ⟨Post.le_told.inbox, Post.le_told.stopped⟩
  · intro i h
    obtain ⟨d, -, -, ⟨-, rfl⟩ | ⟨-, rfl⟩⟩ := World.detachedReads_spec h <;>
      exact ⟨fun _ h => h, fun _ h => h⟩
  · intro i res h
    obtain ⟨d, -, -, rfl⟩ := World.detachedSends_spec h
    exact ⟨Post.le_told.inbox, Post.le_told.stopped⟩

theorem step_sound (h : w.Sound T r) (hunread : Unread T r w.post) (hstep : Step w a w')
    (hG : Follows T r w a w') (hlive : r ∉ w'.post.stopped) : w'.Sound T r := by
  have hscript (script : List Answer) : (w.withScript script).Sound T r :=
    Txconfirm.Sound.calm h rfl
  cases hstep with
  | @ensure req script =>
    refine (hscript script).handleEnsure (fun htxid hid => ?_) hlive
    obtain ⟨href, hin⟩ := hG.asks req rfl htxid hid
    exact ⟨href, hin.withScript⟩
  | @cancel txid id script => exact (hscript script).cancel fun htxid hid => hG.cancels ⟨htxid, hid⟩
  | handler _ hf => exact (hscript _).handler hf hlive
  | all _ htracked hcalm hg =>
    refine World.Sound.handleAll ?_ hg hlive
    rw [World.Sound, htracked]
    exact Txconfirm.Sound.calm h hcalm
  | resultObserved hw => exact (hscript _).resultObserved hw hlive
  | deferredReturns hw => exact h.deferredReturns hw hlive
  | detachedReads hw => exact h.detachedReads hw
  | detachedSends hw => exact h.detachedSends hunread hw hlive

end Steps

/-- A live subscriber that asks in time and does not cancel receives no reorg and no finality before
its first confirmation, and nothing after the first terminal notification. -/
theorem notifications_ordered (interval : ℤ) (T : Txid) (r : Ref) (as : List Action) (w : World)
    (hrun : (machine interval).run {} as = some w) (hlive : r ∉ w.post.stopped)
    (hfollows : (machine interval).Along (Follows T r) {} as) : Ordered (w.post.received T r) := by
  have hinit : World.Sound {} T r := by
    refine ⟨trivial, ⟨nofun, nofun⟩, nofun, nofun, nofun, .inr ⟨nofun, rfl, .inl ⟨rfl, rfl⟩⟩⟩
  refine (Machine.run_invariant (M := machine interval)
    (fun w => r ∉ w.post.stopped → w.Sound T r ∧ Unread T r w.post) ?_
    (fun _ => ⟨hinit, nofun⟩) hfollows hrun hlive).1.ordered
  intro w a w' ih hG hstep hlive
  have hcases := World.step_cases hstep
  obtain ⟨hsound, hunread⟩ := ih fun hr => hlive ((step_le hcases).stopped hr)
  exact ⟨step_sound hsound hunread hcases hG hlive, step_unread hunread hcases hG⟩

def reorgedOnce : List Action :=
  [.ensure { txid := 1, subscriber := ⟨7, 0⟩ } [], .confirmationObserved 1 100 5 1 [],
    .confirmationReorged 1 [], .detachedReads 0, .detachedSends 0 .ok,
    .confirmationObserved 1 101 6 1 [], .detachedReads 0, .detachedSends 0 .ok,
    .confirmationDone 1 []]

theorem reorgedOnce_ordered :
    ∃ w, (machine 6).run {} reorgedOnce = some w ∧ ⟨7, 0⟩ ∉ w.post.stopped ∧
      (machine 6).Along (Follows 1 ⟨7, 0⟩) {} reorgedOnce ∧
      w.post.received 1 ⟨7, 0⟩ = [.confirmed 100 5 1, .reorged, .confirmed 101 6 1,
        .finalized 101 1] ∧ Ordered (w.post.received 1 ⟨7, 0⟩) := by
  obtain ⟨w, hrun⟩ : ∃ w, (machine 6).run {} reorgedOnce = some w :=
    isSome_iff_exists.1 (by decide +kernel)
  have hstate : ∀ w ∈ (machine 6).run {} reorgedOnce, ⟨7, 0⟩ ∉ w.post.stopped ∧
      w.post.received 1 ⟨7, 0⟩ = [.confirmed 100 5 1, .reorged, .confirmed 101 6 1,
        .finalized 101 1] := by decide +kernel
  have hfollows : (machine 6).Along (Follows 1 ⟨7, 0⟩) {} reorgedOnce := by decide +kernel
  obtain ⟨hlive, hreceived⟩ := hstate w hrun
  exact ⟨w, hrun, hlive, hfollows, hreceived,
    notifications_ordered 6 1 ⟨7, 0⟩ reorgedOnce w hrun hlive hfollows⟩

/-- Subscriber 8 asks for an entry that is final and is told its finality first. The `TxReorged`
to subscriber 7 is sent after the finality, as it has read the flag before the entry was sealed. -/
theorem notifications_disordered :
    (∃ w ∈ (machine 6).run {} (slowFinality ++
        [.ensure { txid := 1, subscriber := ⟨8, 0⟩ } [{}, { tell := .timeout }],
          .deferredReturns 1 .ok]),
      ⟨8, 0⟩ ∉ w.post.stopped ∧ (∃ e ∈ w.tracked.get? 1, e.hasSubscriber 8 = true) ∧
      w.post.received 1 ⟨8, 0⟩ = [.finalized 100 1] ∧ ¬ Ordered (w.post.received 1 ⟨8, 0⟩)) ∧
    ∃ w ∈ (machine 6).run {} [.ensure { txid := 1, subscriber := ⟨7, 0⟩ } [],
        .confirmationObserved 1 100 5 1 [], .confirmationReorged 1 [], .detachedReads 0,
        .confirmationObserved 1 101 6 1 [], .confirmationDone 1 [], .detachedSends 0 .ok],
      ⟨7, 0⟩ ∉ w.post.stopped ∧
      w.post.received 1 ⟨7, 0⟩ = [.confirmed 100 5 1, .finalized 101 1, .reorged] ∧
      ¬ Ordered (w.post.received 1 ⟨7, 0⟩) := by
  decide +kernel

end Wavelength.Txconfirm
