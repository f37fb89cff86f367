import Wavelength.Fraud.Watcher

/-! # Escalation of observed spends

A target holds the watches of its plan from the request that tracks it to the one that drops it.
Each of its outpoints has a report to come or one that has been answered, unless the target joined
a watch whose report had gone out before.
-/

namespace Wavelength.Fraud

open List Option

namespace World

variable {c : ChainAnswers} {w w' w'' : World} {p q : WatchPoint}

def Watched (w : World) (o : OutPoint) : Prop := ∃ t, t ∈ w.targetsOf o

def registrationsOf (w : World) (o : OutPoint) : List Registration :=
  w.registrations.filter (·.outpoint = o)

/-- A report of the outpoint is still to reach the watcher. -/
def Due (w : World) (o : OutPoint) : Prop :=
  ⟨o, false⟩ ∈ w.registrations ∨ ∃ s ∈ w.mailbox, s.outpoint = o

instance : Decidable (w.Due o) := inferInstanceAs (Decidable (_ ∨ _))

instance : Decidable (w.Watched o) :=
  decidable_of_iff (w.targetsOf o ≠ []) ⟨List.exists_mem_of_ne_nil _, fun ⟨_, h⟩ =>
    List.ne_nil_of_mem h⟩

theorem outpoint_of_get? (h : w.watches.get? o = some aw) : aw.point.outpoint = o := by
  have hk := Table.key_of_get? h
  exact hk

theorem watched_iff : w.Watched o ↔ w.watches.get? o ≠ none := by
  unfold Watched targetsOf
  cases h : w.watches.get? o with
  | none => simp
  | some aw => simpa using exists_mem_of_ne_nil _ aw.nonempty

theorem watched_iff_pointAt : w.Watched o ↔ ∃ q, w.pointAt o = some q := by
  rw [watched_iff, ne_none_iff_exists', pointAt]
  simp

theorem firstRefFor_iff : w.firstRefFor o = true ↔ ¬ w.Watched o := by
  rw [watched_iff, firstRefFor, isNone_iff_eq_none, not_not]

theorem mem_registrationsOf : r ∈ w.registrationsOf o ↔ r ∈ w.registrations ∧ r.outpoint = o := by
  simp [registrationsOf]

theorem mem_registrations_iff (h : w'.registrationsOf r.outpoint = w.registrationsOf r.outpoint) :
    r ∈ w'.registrations ↔ r ∈ w.registrations := by
  have hmem := mem_registrationsOf (w := w) (r := r) (o := r.outpoint)
  rw [← h, mem_registrationsOf] at hmem
  simpa using hmem

theorem mem_targetsOf_addTarget :
    t' ∈ (w.addTarget p t).targetsOf o ↔ t' ∈ w.targetsOf o ∨ (t' = t ∧ o = p.outpoint) := by
  unfold addTarget targetsOf
  cases h : w.watches.get? p.outpoint with
  | none =>
    by_cases ho : o = p.outpoint
    · simp [ho, h]
    · simp [ho]
  | some aw =>
    have hk : aw.point.outpoint = p.outpoint := outpoint_of_get? h
    by_cases ho : o = p.outpoint
    · simp [ho, h, hk, or_comm]
    · simp [ho, hk]

theorem pointAt_addTarget :
    (w.addTarget p t).pointAt o =
      if o = p.outpoint then some ((w.pointAt o).getD p) else w.pointAt o := by
  unfold addTarget pointAt
  cases h : w.watches.get? p.outpoint with
  | none =>
    by_cases ho : o = p.outpoint
    · simp [ho, h]
    · simp [ho]
  | some aw =>
    have hk : aw.point.outpoint = p.outpoint := outpoint_of_get? h
    by_cases ho : o = p.outpoint
    · simp [ho, h, hk]
    · simp [ho, hk]

structure SameBut (w w' : World) : Prop where
  targets : w'.targets = w.targets
  spends : w'.spends = w.spends
  mailbox : w'.mailbox = w.mailbox
  asked : w'.asked = w.asked

theorem SameBut.trans (h : SameBut w w') (h' : SameBut w' w'') : SameBut w w'' :=
  ⟨h'.targets.trans h.targets, h'.spends.trans h.spends, h'.mailbox.trans h.mailbox,
    h'.asked.trans h.asked⟩

structure Retained (w : World) (t : OutPoint) (ps : List WatchPoint) (w' : World) : Prop
    extends SameBut w w' where
  mem : ∀ o t', t' ∈ w'.targetsOf o ↔ t' ∈ w.targetsOf o ∨ (t' = t ∧ o ∈ ps.map (·.outpoint))
  point : ∀ o q, w.pointAt o = some q → w'.pointAt o = some q
  fresh_point : ∀ o q, w'.pointAt o = some q → w.pointAt o = some q ∨ q ∈ ps
  regs : ∀ o, w.Watched o → w'.registrationsOf o = w.registrationsOf o
  fresh : ∀ o, ¬ w.Watched o → w'.Watched o → ⟨o, false⟩ ∈ w'.registrations

theorem Retained.nil : Retained w t [] w := by
  refine ⟨⟨rfl, rfl, rfl, rfl⟩, ?_, fun _ _ h => h, fun _ _ h => .inl h, fun _ _ => rfl, ?_⟩
  · simp
  · intro o h h'
    exact absurd h' h

theorem Retained.watched (h : Retained w t ps w') (ho : w.Watched o) : w'.Watched o := by
  obtain ⟨t', ht'⟩ := ho
  exact ⟨t', (h.mem o t').2 (.inl ht')⟩

theorem Retained.append (h : Retained w t ps w') (h' : Retained w' t qs w'') :
    Retained w t (ps ++ qs) w'' where
  toSameBut := h.toSameBut.trans h'.toSameBut
  mem o t' := by
    rw [h'.mem, h.mem, map_append, mem_append]
    tauto
  point o q hq := h'.point o q (h.point o q hq)
  fresh_point o q hq := by
    rw [mem_append]
    rcases h'.fresh_point o q hq with hq | hq
    · rcases h.fresh_point o q hq with hq | hq
      · exact .inl hq
      · exact .inr (.inl hq)
    · exact .inr (.inr hq)
  regs o ho := (h'.regs o (h.watched ho)).trans (h.regs o ho)
  fresh o hn ho := by
    by_cases hm : w'.Watched o
    · exact (mem_registrations_iff (h'.regs o hm)).2 (h.fresh o hn hm)
    · exact h'.fresh o hm ho

theorem retainWatch_spec (h : w.retainWatch c p t = some w') : Retained w t [p] w' := by
  -- The registration, if there is one, comes before the share in the watch.
  obtain ⟨w₁, hsame, hregs, hfirst, hw, rfl⟩ : ∃ w₁ : World, SameBut w w₁ ∧
      (∀ o, w.Watched o → w₁.registrationsOf o = w.registrationsOf o) ∧
      (¬ w.Watched p.outpoint → ⟨p.outpoint, false⟩ ∈ w₁.registrations) ∧
      w₁.watches = w.watches ∧ w' = w₁.addTarget p t := by
    unfold retainWatch at h
    split at h
    next hf =>
      rw [firstRefFor_iff] at hf
      unfold registerSpendWatch at h
      split at h
      · simp only [map_some, some.injEq] at h
        refine ⟨{ w with registrations := w.registrations ++ [⟨p.outpoint, false⟩] },
          ⟨rfl, rfl, rfl, rfl⟩, fun o ho => ?_, fun _ => by simp, rfl, h.symm⟩
        have hne : p.outpoint ≠ o := by
          rintro rfl
          exact hf ho
        simp [registrationsOf, hne]
      · simp at h
    next hf =>
      rw [firstRefFor_iff, not_not] at hf
      exact ⟨w, ⟨rfl, rfl, rfl, rfl⟩, fun _ _ => rfl, fun hn => absurd hf hn, rfl,
        (some.inj h).symm⟩
  have ht : ∀ o, w₁.targetsOf o = w.targetsOf o := fun o => by rw [targetsOf, hw, targetsOf]
  have hp : ∀ o, w₁.pointAt o = w.pointAt o := fun o => by rw [pointAt, hw, pointAt]
  refine ⟨⟨hsame.targets, hsame.spends, hsame.mailbox, hsame.asked⟩, ?_, ?_, ?_, hregs, ?_⟩
  · intro o t'
    rw [mem_targetsOf_addTarget, ht]
    simp
  · intro o q hq
    rw [pointAt_addTarget, hp, hq]
    simp
  · intro o q hq
    rw [pointAt_addTarget, hp] at hq
    split at hq
    · cases hq' : w.pointAt o with
      | none | some q' => simp_all
    · exact .inl hq
  · intro o hn ho
    obtain ⟨t', ht'⟩ := ho
    rw [mem_targetsOf_addTarget, ht] at ht'
    rcases ht' with ht' | ⟨-, rfl⟩
    · exact absurd ⟨t', ht'⟩ hn
    · exact hfirst hn

structure Released (w : World) (t : OutPoint) (os : List OutPoint) (w' : World) : Prop
    extends SameBut w w' where
  mem : ∀ o t', t' ∈ w'.targetsOf o ↔ t' ∈ w.targetsOf o ∧ ¬ (t' = t ∧ o ∈ os)
  point : ∀ o q, w'.pointAt o = some q → w.pointAt o = some q
  regs : ∀ o, w'.Watched o → w'.registrationsOf o = w.registrationsOf o

theorem Released.nil : Released w t [] w :=
  ⟨⟨rfl, rfl, rfl, rfl⟩, by simp, fun _ _ h => h, fun _ _ => rfl⟩

theorem Released.watched (h : Released w t os w') (ho : w'.Watched o) : w.Watched o := by
  obtain ⟨t', ht'⟩ := ho
  exact ⟨t', ((h.mem o t').1 ht').1⟩

theorem Released.append (h : Released w t os w') (h' : Released w' t os' w'') :
    Released w t (os ++ os') w'' where
  toSameBut := h.toSameBut.trans h'.toSameBut
  mem o t' := by
    rw [h'.mem, h.mem, mem_append]
    tauto
  point o q hq := h.point o q (h'.point o q hq)
  regs o ho := (h'.regs o ho).trans (h.regs o (h'.watched ho))

theorem mem_targetsOf_dropTarget :
    t' ∈ (w.dropTarget o t).1.targetsOf o' ↔ t' ∈ w.targetsOf o' ∧ ¬ (t' = t ∧ o' = o) := by
  unfold dropTarget
  split
  next h =>
    refine ⟨fun ht' => ⟨ht', ?_⟩, And.left⟩
    rintro ⟨-, rfl⟩
    simp [targetsOf, h] at ht'
  next aw h =>
    have hk := outpoint_of_get? h
    split
    next hnil =>
      by_cases ho : o' = o
      · subst ho
        have hall : ∀ x ∈ aw.targets, x = t := by simpa [filter_eq_nil_iff] using hnil
        simp only [targetsOf, Table.get?_delete, h]
        simpa using fun ht' => hall t' ht'
      · simp [targetsOf, ho]
    next hnil =>
      by_cases ho : o' = o
      · subst ho
        simp [targetsOf, hk, h]
      · simp [targetsOf, hk, ho]

theorem pointAt_dropTarget (h : (w.dropTarget o t).1.pointAt o' = some q) :
    w.pointAt o' = some q := by
  unfold dropTarget at h
  split at h
  · exact h
  next aw hg =>
    have hk := outpoint_of_get? hg
    split at h
    · simp only [pointAt, Table.get?_delete] at h ⊢
      split at h
      · simp at h
      · exact h
    simp only [pointAt, Table.get?_put, hk] at h ⊢
    split at h
    next ho => simpa [ho, hg] using h
    · exact h

theorem dropTarget_emptied (h : (w.dropTarget o t).2 = some q) :
    q.outpoint = o ∧ ¬ (w.dropTarget o t).1.Watched o := by
  rw [watched_iff]
  unfold dropTarget at h ⊢
  split at h
  · simp at h
  next aw hg =>
    split at h
    next hnil =>
      cases h
      refine ⟨outpoint_of_get? hg, ?_⟩
      rw [dif_pos hnil, Table.get?_delete, if_pos rfl]
      simp
    · simp at h

theorem dropTarget_same : SameBut w (w.dropTarget o t).1 ∧
    (w.dropTarget o t).1.registrations = w.registrations := by
  unfold dropTarget
  split
  · exact ⟨⟨rfl, rfl, rfl, rfl⟩, rfl⟩
  · split <;> exact ⟨⟨rfl, rfl, rfl, rfl⟩, rfl⟩

theorem releaseWatch_eq :
    (w.releaseWatch c o t).1 = (w.dropTarget o t).1 ∨
      ∃ q, (w.dropTarget o t).2 = some q ∧ c.unregisters q.outpoint = true ∧
        (w.releaseWatch c o t).1 =
          { (w.dropTarget o t).1 with
            registrations :=
              (w.dropTarget o t).1.registrations.filter (·.outpoint ≠ q.outpoint) } := by
  unfold releaseWatch
  split
  next h => exact .inl (by rw [h])
  next w₁ q h =>
    unfold unregisterSpendWatchPoint
    split
    next hu => refine .inr ⟨q, by rw [h], hu, by rw [h]⟩
    · exact .inl (by rw [h])

theorem releaseWatch_spec : Released w t [o] (w.releaseWatch c o t).1 := by
  obtain ⟨hsame, hregs⟩ := dropTarget_same (w := w) (o := o) (t := t)
  have hdrop : Released w t [o] (w.dropTarget o t).1 := by
    refine ⟨hsame, ?_, ?_, ?_⟩
    · intro o' t'
      rw [mem_targetsOf_dropTarget, mem_singleton]
    · intro o' q h
      exact pointAt_dropTarget h
    · intro o' _
      rw [registrationsOf, hregs, registrationsOf]
  rcases releaseWatch_eq (w := w) (c := c) (o := o) (t := t) with h | ⟨q, hq, -, h⟩
  · rw [h]
    exact hdrop
  rw [h]
  refine ⟨⟨hsame.targets, hsame.spends, hsame.mailbox, hsame.asked⟩, hdrop.mem, hdrop.point, ?_⟩
  intro o' ho'
  obtain ⟨rfl, hnot⟩ := dropTarget_emptied hq
  have hne : o' ≠ q.outpoint := by
    rintro rfl
    exact hnot ho'
  rw [registrationsOf, List.filter_filter, hregs, registrationsOf]
  refine filter_congr fun r _ => ?_
  by_cases hr : r.outpoint = o'
  · simp [hr, hne]
  · simp [hr]

theorem releaseWatches_spec (os : List OutPoint) (w : World) :
    Released w t os (releaseWatches c t os w).1 := by
  induction os generalizing w with
  | nil => exact .nil
  | cons o os ih =>
    have h := releaseWatch_spec (w := w) (c := c) (o := o) (t := t)
    exact h.append (ih _)

theorem retainWatches_spec (ps qs : List WatchPoint) (w : World) (h : Retained w₀ t qs w) :
    ((retainWatches c t ps (qs.map (·.outpoint)) w).2 = none ∧
      Retained w₀ t (qs ++ ps) (retainWatches c t ps (qs.map (·.outpoint)) w).1) ∨
    ((retainWatches c t ps (qs.map (·.outpoint)) w).2 ≠ none ∧
      ∃ rs w₁, Retained w₀ t rs w₁ ∧
        Released w₁ t (rs.map (·.outpoint)) (retainWatches c t ps (qs.map (·.outpoint)) w).1) := by
  induction ps generalizing qs w with
  | nil =>
    rw [append_nil]
    exact .inl ⟨rfl, h⟩
  | cons p ps ih =>
    unfold retainWatches
    split
    · exact .inr ⟨by simp, qs, w, h, releaseWatches_spec _ _⟩
    next w₁ hw₁ =>
      have h₁ := h.append (retainWatch_spec hw₁)
      have := ih (qs ++ [p]) w₁ h₁
      rwa [map_append, map_singleton, append_assoc, singleton_append] at this

/-- The shares in the watches are those of the plans of the tracked targets. -/
def Matches (w : World) : Prop :=
  ∀ o t, t ∈ w.targetsOf o ↔ ∃ tt, w.targets.get? t = some tt ∧ o ∈ tt.plan.outpoints

structure Extends (w w' : World) : Prop where
  spends : w'.spends = w.spends
  mailbox : w'.mailbox = w.mailbox
  asked : w'.asked = w.asked
  tracked : ∀ t tt, w.targets.get? t = some tt → w'.targets.get? t = some tt
  watched : ∀ o, w.Watched o → w'.Watched o
  point : ∀ o q, w.pointAt o = some q → w'.pointAt o = some q
  regs : ∀ o, w.Watched o → w'.registrationsOf o = w.registrationsOf o
  fresh : ∀ o, ¬ w.Watched o → w'.Watched o → ⟨o, false⟩ ∈ w'.registrations
  fresh_point : ∀ o q, w'.pointAt o = some q →
    w.pointAt o = some q ∨ ∃ t tt, w'.targets.get? t = some tt ∧ q ∈ tt.plan.watches.rows

theorem Extends.refl : Extends w w where
  spends := rfl
  mailbox := rfl
  asked := rfl
  tracked _ _ h := h
  watched _ h := h
  point _ _ h := h
  regs _ _ := rfl
  fresh _ h h' := absurd h' h
  fresh_point _ _ h := .inl h

theorem Extends.trans (h : Extends w w') (h' : Extends w' w'') : Extends w w'' where
  spends := h'.spends.trans h.spends
  mailbox := h'.mailbox.trans h.mailbox
  asked := h'.asked.trans h.asked
  tracked t tt ht := h'.tracked t tt (h.tracked t tt ht)
  watched o ho := h'.watched o (h.watched o ho)
  point o q hq := h'.point o q (h.point o q hq)
  regs o ho := (h'.regs o (h.watched o ho)).trans (h.regs o ho)
  fresh o hn ho := by
    by_cases hm : w'.Watched o
    · exact (mem_registrations_iff (h'.regs o hm)).2 (h.fresh o hn hm)
    · exact h'.fresh o hm ho
  fresh_point o q hq := by
    rcases h'.fresh_point o q hq with hq | hq
    · rcases h.fresh_point o q hq with hq | ⟨t, tt, ht, hq⟩
      · exact .inl hq
      · exact .inr ⟨t, tt, h'.tracked t tt ht, hq⟩
    · exact .inr hq

theorem Matches.not_mem (hm : w.Matches) (ht : w.targets.get? t = none) : t ∉ w.targetsOf o := by
  rw [hm]
  simp [ht]

theorem Retained.rollback (hm : w.Matches) (ht : w.targets.get? t = none) (h : Retained w t ps w')
    (h' : Released w' t (ps.map (·.outpoint)) w'') : w''.Matches ∧ Extends w w'' := by
  have hmem : ∀ o t', t' ∈ w''.targetsOf o ↔ t' ∈ w.targetsOf o := by
    intro o t'
    rw [h'.mem, h.mem]
    have hnot := hm.not_mem (o := o) ht
    constructor
    · rintro ⟨hx | hx, hn⟩
      · exact hx
      · exact absurd hx hn
    intro hx
    refine ⟨.inl hx, ?_⟩
    rintro ⟨rfl, -⟩
    exact hnot hx
  have hwatched : ∀ o, w''.Watched o ↔ w.Watched o := fun o => exists_congr (hmem o)
  have htargets : w''.targets = w.targets := h'.targets.trans h.targets
  have hpoint : ∀ o, w''.pointAt o = w.pointAt o := by
    intro o
    by_cases ho : w.Watched o
    · obtain ⟨q, hq⟩ := watched_iff_pointAt.1 ((hwatched o).2 ho)
      obtain ⟨q', hq'⟩ := watched_iff_pointAt.1 ho
      have := h.point o q' hq'
      rw [h'.point o q hq, some.injEq] at this
      rw [hq, hq', this]
    · have hn : ∀ q, w.pointAt o ≠ some q := fun q hq => ho (watched_iff_pointAt.2 ⟨q, hq⟩)
      have hn' : ∀ q, w''.pointAt o ≠ some q := fun q hq =>
        ho ((hwatched o).1 (watched_iff_pointAt.2 ⟨q, hq⟩))
      rw [eq_none_iff_forall_ne_some.2 hn, eq_none_iff_forall_ne_some.2 hn']
  constructor
  · intro o t'
    rw [hmem, hm, htargets]
  constructor
  · exact h'.spends.trans h.spends
  · exact h'.mailbox.trans h.mailbox
  · exact h'.asked.trans h.asked
  · intro t' tt htt
    rwa [htargets]
  · intro o ho
    exact (hwatched o).2 ho
  · intro o q hq
    rwa [hpoint]
  · intro o ho
    exact (h'.regs o ((hwatched o).2 ho)).trans (h.regs o ho)
  · intro o hn ho
    exact absurd ((hwatched o).1 ho) hn
  · intro o q hq
    rw [hpoint] at hq
    exact .inl hq

theorem Retained.admitted (hm : w.Matches) (ht : w.targets.get? desc.outpoint = none)
    (h : Retained w desc.outpoint plan.watches.rows w') :
    Matches { w' with targets := w'.targets.put ⟨desc, plan⟩ } ∧
      Extends w { w' with targets := w'.targets.put ⟨desc, plan⟩ } := by
  constructor
  · intro o t'
    have hmem : t' ∈ w'.targetsOf o ↔ _ := h.mem o t'
    change t' ∈ w'.targetsOf o ↔ _
    rw [hmem, hm, h.targets, Table.get?_put]
    change _ ∨ (t' = desc.outpoint ∧ o ∈ plan.outpoints) ↔ _
    by_cases ht' : t' = desc.outpoint
    · subst ht'
      simp [ht, TrackedTarget.outpoint]
    · simp [ht', TrackedTarget.outpoint]
  · constructor
    · exact h.spends
    · exact h.mailbox
    · exact h.asked
    · intro t' tt htt
      have hne : t' ≠ desc.outpoint := by
        rintro rfl
        rw [ht] at htt
        cases htt
      simpa [h.targets, TrackedTarget.outpoint, hne] using htt
    · intro o ho
      exact h.watched ho
    · exact h.point
    · exact h.regs
    · exact h.fresh
    · intro o q hq
      rcases h.fresh_point o q hq with hq | hq
      · exact .inl hq
      · refine .inr ⟨desc.outpoint, ⟨desc, plan⟩, ?_, hq⟩
        simp [TrackedTarget.outpoint]

/-- Where the targets that a request adds come from. -/
def Added (w w' : World) (batch : List (Descriptor × ChainAnswers)) : Prop :=
  ∀ t tt, w'.targets.get? t = some tt → w.targets.get? t = some tt ∨
    w.targets.get? t = none ∧ ∃ x ∈ batch, x.1 = tt.desc ∧ shouldTrackDescriptor x.1 = true ∧
      buildWatchPlan x.1 = .ok tt.plan

theorem trackDescriptor_spec (hm : w.Matches) (hs : shouldTrackDescriptor desc = true) :
    (w.trackDescriptor c desc).1.Matches ∧ Extends w (w.trackDescriptor c desc).1 ∧
      Added w (w.trackDescriptor c desc).1 [(desc, c)] := by
  unfold trackDescriptor
  split
  · exact ⟨hm, .refl, fun t tt h => .inl h⟩
  next hn =>
    have ht : w.targets.get? desc.outpoint = none := by simpa using hn
    split
    · exact ⟨hm, .refl, fun t tt h => .inl h⟩
    next plan hplan =>
      have hspec := retainWatches_spec (c := c) plan.watches.rows [] w (.nil (t := desc.outpoint))
      rw [map_nil, nil_append] at hspec
      split
      next w₁ e heq =>
        rw [heq] at hspec
        obtain ⟨hx, -⟩ | ⟨-, rs, w₂, hret, hrel⟩ := hspec
        · cases hx
        obtain ⟨hm', hext⟩ := hret.rollback hm ht hrel
        refine ⟨hm', hext, fun t tt h => .inl ?_⟩
        rwa [hrel.targets, hret.targets] at h
      next w₁ heq =>
        rw [heq] at hspec
        obtain ⟨-, hret⟩ | ⟨hx, -⟩ := hspec
        · obtain ⟨hm', hext⟩ := hret.admitted hm ht
          have htargets : w₁.targets = w.targets := hret.targets
          refine ⟨hm', hext, fun t tt h => ?_⟩
          simp only [htargets, Table.get?_put] at h
          split at h
          next heq' =>
            cases h
            subst heq'
            exact .inr ⟨ht, _, mem_singleton_self _, rfl, hs, hplan⟩
          · exact .inl h
        · exact absurd rfl hx

theorem Added.mono (h : Added w w' batch) (hsub : batch ⊆ batch') : Added w w' batch' := by
  intro t tt ht
  rcases h t tt ht with ht | ⟨hn, x, hx, hspec⟩
  · exact .inl ht
  · exact .inr ⟨hn, x, hsub hx, hspec⟩

theorem Added.trans (h : Added w w' batch) (hext : Extends w w') (h' : Added w' w'' batch) : Added w w'' batch := by
  intro t tt ht
  rcases h' t tt ht with ht | ⟨hn, hspec⟩
  · exact h t tt ht
  · refine .inr ⟨eq_none_iff_forall_ne_some.2 fun tt' ht' => ?_, hspec⟩
    rw [hext.tracked t tt' ht'] at hn
    cases hn

theorem handleTrackVTXOs_spec (batch : List (Descriptor × ChainAnswers)) (hm : w.Matches) :
    (handleTrackVTXOs batch w).1.Matches ∧ Extends w (handleTrackVTXOs batch w).1 ∧
      Added w (handleTrackVTXOs batch w).1 batch := by
  induction batch generalizing w with
  | nil => exact ⟨hm, .refl, fun t tt h => .inl h⟩
  | cons x rest ih =>
    obtain ⟨desc, c⟩ := x
    by_cases hs : shouldTrackDescriptor desc
    · obtain ⟨hm₁, hext₁, hadd₁⟩ := trackDescriptor_spec (c := c) hm hs
      obtain ⟨hm₂, hext₂, hadd₂⟩ := ih hm₁
      have heq : (handleTrackVTXOs ((desc, c) :: rest) w).1 =
          (handleTrackVTXOs rest (w.trackDescriptor c desc).1).1 := by
        simp only [handleTrackVTXOs, hs, if_true]
        split <;> rfl
      rw [heq]
      refine ⟨hm₂, hext₁.trans hext₂, .trans (hadd₁.mono ?_) hext₁ (hadd₂.mono ?_)⟩
      · simp
      · exact subset_cons_self _ _
    · have heq : handleTrackVTXOs ((desc, c) :: rest) w = handleTrackVTXOs rest w := by
        simp [handleTrackVTXOs, hs]
      rw [heq]
      obtain ⟨hm₂, hext₂, hadd₂⟩ := ih hm
      exact ⟨hm₂, hext₂, hadd₂.mono (subset_cons_self _ _)⟩

/-- What a request to drop a target does to the others. -/
structure Dropped (w : World) (t : OutPoint) (w' : World) : Prop where
  spends : w'.spends = w.spends
  mailbox : w'.mailbox = w.mailbox
  asked : w'.asked = w.asked
  targets : w'.targets = w.targets.delete t
  point : ∀ o q, w'.pointAt o = some q → w.pointAt o = some q
  regs : ∀ o, w'.Watched o → w'.registrationsOf o = w.registrationsOf o

theorem handleUntrack_spec (hm : w.Matches) :
    (w.handleUntrack c t).1.Matches ∧ Dropped w t (w.handleUntrack c t).1 := by
  unfold handleUntrack
  split
  next h =>
    refine ⟨hm, rfl, rfl, rfl, ?_, fun _ _ h => h, fun _ _ => rfl⟩
    apply Table.ext_rows
    refine (filter_eq_self.2 fun r hr => ?_).symm
    have hk : r.outpoint ≠ t := by
      rintro rfl
      rw [Table.mem_rows_iff, h] at hr
      cases hr
    simpa using hk
  next tt htt =>
    have hrel := releaseWatches_spec (c := c) (t := t) tt.plan.outpoints
      { w with targets := w.targets.delete t }
    refine ⟨?_, hrel.spends, hrel.mailbox, hrel.asked, hrel.targets, hrel.point, hrel.regs⟩
    intro o t'
    rw [hrel.mem, hrel.targets, Table.get?_delete]
    change t' ∈ w.targetsOf o ∧ _ ↔ _
    rw [hm]
    by_cases ht' : t' = t
    · subst ht'
      simp [htt]
    · simp [ht']

def Tidy (w : World) : Prop := ∀ r ∈ w.registrations, w.Watched r.outpoint

section Tidy

variable (hu : ∀ o, c.unregisters o = true)

theorem dropTarget_kept (h : (w.dropTarget o t).2 = none) (ho : w.Watched o') :
    (w.dropTarget o t).1.Watched o' := by
  rw [watched_iff] at ho ⊢
  unfold dropTarget at h ⊢
  split at h
  · exact ho
  next aw hg =>
    split at h
    · simp at h
    next hne =>
      rw [dif_neg hne, Table.get?_put]
      split
      · simp
      · exact ho

theorem Tidy.retainWatch (h : w.Tidy) (hw : w.retainWatch c p t = some w') : w'.Tidy := by
  have hret := retainWatch_spec hw
  have hp : w'.Watched p.outpoint := ⟨t, (hret.mem _ _).2 (.inr ⟨rfl, by simp⟩)⟩
  intro r hr
  by_cases hrp : r.outpoint = p.outpoint
  · rwa [hrp]
  apply hret.watched
  apply h
  unfold World.retainWatch registerSpendWatch at hw
  split at hw
  · split at hw
    · simp only [map_some, some.injEq] at hw
      subst hw
      have hr' : r ∈ w.registrations ++ [⟨p.outpoint, false⟩] := hr
      rw [mem_append, mem_singleton] at hr'
      rcases hr' with hr' | rfl
      · exact hr'
      · exact absurd rfl hrp
    · simp at hw
  · cases hw
    exact hr

include hu

theorem Tidy.releaseWatch (h : w.Tidy) : (w.releaseWatch c o t).1.Tidy := by
  obtain ⟨-, hregs⟩ := dropTarget_same (w := w) (o := o) (t := t)
  intro r hr
  cases hd : (w.dropTarget o t).2 with
  | none =>
    have heq : (w.releaseWatch c o t).1 = (w.dropTarget o t).1 := by
      rcases releaseWatch_eq (w := w) (c := c) (o := o) (t := t) with h | ⟨q, hq, -⟩
      · exact h
      · rw [hd] at hq
        cases hq
    rw [heq] at hr ⊢
    rw [hregs] at hr
    exact dropTarget_kept hd (h r hr)
  | some q =>
    obtain ⟨hq, -⟩ := dropTarget_emptied hd
    have heq : (w.releaseWatch c o t).1 =
        { (w.dropTarget o t).1 with
          registrations :=
            (w.dropTarget o t).1.registrations.filter (·.outpoint ≠ q.outpoint) } := by
      unfold World.releaseWatch
      split
      next h => simp [h] at hd
      next w₁ q' h =>
        rw [h] at hd
        cases hd
        simp [unregisterSpendWatchPoint, hu, h]
    rw [heq] at hr ⊢
    simp only [hregs, hq, mem_filter, decide_eq_true_eq] at hr
    obtain ⟨t', ht'⟩ := h r hr.1
    refine ⟨t', ?_⟩
    change t' ∈ (w.dropTarget o t).1.targetsOf r.outpoint
    rw [mem_targetsOf_dropTarget]
    exact ⟨ht', fun hx => hr.2 hx.2⟩

theorem Tidy.releaseWatches (os : List OutPoint) (h : w.Tidy) :
    (releaseWatches c t os w).1.Tidy := by
  induction os generalizing w with
  | nil => exact h
  | cons o os ih => exact ih (h.releaseWatch hu)

theorem Tidy.retainWatches (ps : List WatchPoint) (os : List OutPoint) (h : w.Tidy) :
    (retainWatches c t ps os w).1.Tidy := by
  induction ps generalizing os w with
  | nil => exact h
  | cons p ps ih =>
    unfold World.retainWatches
    split
    · exact h.releaseWatches hu os
    next w₁ hw₁ => exact ih _ (h.retainWatch hw₁)

theorem Tidy.trackDescriptor (desc : Descriptor) (h : w.Tidy) :
    (w.trackDescriptor c desc).1.Tidy := by
  unfold World.trackDescriptor
  split
  · exact h
  split
  · exact h
  next plan _ =>
    have := h.retainWatches hu (t := desc.outpoint) plan.watches.rows []
    split
    next heq =>
      rw [heq] at this
      exact this
    next heq =>
      rw [heq] at this
      exact this

theorem Tidy.handleUntrack (h : w.Tidy) : (w.handleUntrack c t).1.Tidy := by
  unfold World.handleUntrack
  split
  · exact h
  next tt _ =>
    have h' : Tidy { w with targets := w.targets.delete t } := h
    exact h'.releaseWatches hu _

end Tidy

theorem Tidy.handleTrackVTXOs (hu : ∀ x ∈ batch, ∀ o, x.2.unregisters o = true) (h : w.Tidy) :
    (handleTrackVTXOs batch w).1.Tidy := by
  induction batch generalizing w with
  | nil => exact h
  | cons x rest ih =>
    have hrest := fun y hy => hu y (mem_cons_of_mem _ hy)
    unfold World.handleTrackVTXOs
    split
    · have := ih hrest (h.trackDescriptor (hu x mem_cons_self) x.1)
      dsimp only
      split <;> exact this
    · exact ih hrest h

theorem handleSpendObserved_spec (cfg : WatcherConfig) (w : World) (s : SpendObserved) :
    ∃ ts, w.handleSpendObserved cfg s = { w with asked := w.asked ++ ts } ∧
      ∀ t q, t ∈ w.targetsOf s.outpoint → w.pointAt s.outpoint = some q →
        t ∈ ts ∨ q.isOperatorSweepSpend cfg s = true := by
  unfold handleSpendObserved
  dsimp only
  split
  next h =>
    refine ⟨[], by simp, fun t q ht => ?_⟩
    rw [isEmpty_iff.1 h] at ht
    cases ht
  · split
    next h =>
      refine ⟨[], by simp, fun t q _ hq => .inr ?_⟩
      simpa [hq] using h
    · exact ⟨w.targetsOf s.outpoint, rfl, fun t q ht _ => .inl ht⟩

inductive Step (cfg : WatcherConfig) (w : World) : Action → World → Prop
  | track {batch : List (Descriptor × ChainAnswers)} :
    Step cfg w (.track batch) (handleTrackVTXOs batch w).1
  | untrack {t : OutPoint} {c : ChainAnswers} : Step cfg w (.untrack t c) (w.handleUntrack c t).1
  | spend {s : SpendObserved} : Step cfg w (.spend s) { w with spends := w.spends.insertIgnore s }
  | report {i : ℕ} {o : OutPoint} {s : SpendObserved} (hr : w.registrations[i]? = some ⟨o, false⟩)
    (hs : w.spends.get? o = some s) :
    Step cfg w (.report i)
      { w with registrations := w.registrations.set i ⟨o, true⟩, mailbox := w.mailbox ++ [s] }
  | observe {i : ℕ} {s : SpendObserved} {ts : List OutPoint} (hs : w.mailbox[i]? = some s)
    (hts : ∀ t q, t ∈ w.targetsOf s.outpoint → w.pointAt s.outpoint = some q →
      t ∈ ts ∨ q.isOperatorSweepSpend cfg s = true) :
    Step cfg w (.observe i) { w with mailbox := w.mailbox.eraseIdx i, asked := w.asked ++ ts }

theorem step_cases (h : w.step cfg a = some w') : Step cfg w a w' := by
  cases a with
  | track batch =>
    cases h
    exact .track
  | untrack t c =>
    cases h
    exact .untrack
  | spend s =>
    cases h
    exact .spend
  | report i =>
    simp only [step] at h
    split at h
    next o hr =>
      obtain ⟨s, hs, rfl⟩ := map_eq_some_iff.1 h
      exact .report hr hs
    · cases h
  | observe i =>
    obtain ⟨s, hs, rfl⟩ := map_eq_some_iff.1 h
    obtain ⟨ts, heq, hts⟩ := handleSpendObserved_spec cfg
      { w with mailbox := w.mailbox.eraseIdx i } s
    rw [heq]
    exact .observe hs hts

/-- What holds whatever the plans and the answers of the chain source are. -/
structure Sound (w : World) : Prop where
  shares : w.Matches
  held : ∀ o, w.Watched o → ∃ r ∈ w.registrations, r.outpoint = o
  told : ∀ s ∈ w.mailbox, w.spends.get? s.outpoint = some s
  plans : ∀ t tt, w.targets.get? t = some tt → buildWatchPlan tt.desc = .ok tt.plan

theorem mem_set_of_getElem? {l : List Registration} (i : ℕ) (r' : Registration) (h : r ∈ l) : r ∈ l.set i r' ∨ l[i]? = some r := by
  obtain ⟨j, hj⟩ := mem_iff_getElem?.1 h
  by_cases hij : i = j
  · subst hij
    exact .inr hj
  · refine .inl (mem_iff_getElem?.2 ⟨j, ?_⟩)
    rwa [getElem?_set_ne hij]

theorem get?_insertIgnore_of_some {m : Table SpendObserved SpendObserved.outpoint}
    {s' : SpendObserved} (h : m.get? o = some s) : (m.insertIgnore s').get? o = some s := by
  rw [Table.get?_insertIgnore, h, some_or]

theorem Sound.step (h : w.Sound) (hs : w.step cfg a = some w') : w'.Sound := by
  cases step_cases hs with
  | @track batch =>
    obtain ⟨hm, hext, hadd⟩ := handleTrackVTXOs_spec batch h.shares
    refine ⟨hm, fun o ho => ?_, ?_, fun t tt ht => ?_⟩
    · by_cases hw : w.Watched o
      · obtain ⟨r, hr, rfl⟩ := h.held o hw
        exact ⟨r, (mem_registrations_iff (hext.regs _ hw)).2 hr, rfl⟩
      · exact ⟨_, hext.fresh o hw ho, rfl⟩
    · rw [hext.mailbox, hext.spends]
      exact h.told
    · rcases hadd t tt ht with ht | ⟨-, x, -, hx, -, hplan⟩
      · exact h.plans t tt ht
      · rwa [hx] at hplan
  | @untrack t c =>
    obtain ⟨hm, hdrop⟩ := handleUntrack_spec (c := c) (t := t) h.shares
    refine ⟨hm, fun o ho => ?_, ?_, fun t' tt ht => ?_⟩
    · obtain ⟨q, hq⟩ := watched_iff_pointAt.1 ho
      obtain ⟨r, hr, rfl⟩ := h.held o (watched_iff_pointAt.2 ⟨q, hdrop.point o q hq⟩)
      exact ⟨r, (mem_registrations_iff (hdrop.regs _ ho)).2 hr, rfl⟩
    · rw [hdrop.mailbox, hdrop.spends]
      exact h.told
    · rw [hdrop.targets, Table.get?_delete] at ht
      split at ht
      · cases ht
      · exact h.plans t' tt ht
  | spend =>
    exact ⟨h.shares, h.held, fun s' hs' => get?_insertIgnore_of_some (h.told s' hs'), h.plans⟩
  | @report i o s hr hsp =>
    refine ⟨h.shares, fun o' ho' => ?_, fun s' hs' => ?_, h.plans⟩
    · obtain ⟨r, hr', rfl⟩ := h.held o' ho'
      rcases mem_set_of_getElem? i ⟨o, true⟩ hr' with hr' | hr'
      · exact ⟨r, hr', rfl⟩
      · rw [hr, some.injEq] at hr'
        subst hr'
        exact ⟨⟨o, true⟩, List.mem_set (List.getElem?_eq_some_iff.1 hr).1 _, rfl⟩
    · rcases mem_append.1 hs' with hs' | hs'
      · exact h.told s' hs'
      · obtain rfl := mem_singleton.1 hs'
        have hk : s'.outpoint = o := Table.key_of_get? hsp
        rwa [hk]
  | observe hsp hts =>
    exact ⟨h.shares, h.held, fun s' hs' => h.told s' (mem_of_mem_eraseIdx hs'), h.plans⟩

/-- The spend of a watch point has been answered for `t`. -/
def Answered (cfg : WatcherConfig) (w : World) (t : OutPoint) (p : WatchPoint) : Prop :=
  ∃ s, w.spends.get? p.outpoint = some s ∧ (t ∈ w.asked ∨ p.isOperatorSweepSpend cfg s = true)

/-- Every target has a report to come, or an answer, for each outpoint of its plan; the points
carry the sweep leaf that `leaf` says the outpoint commits to. -/
structure Answering (cfg : WatcherConfig) (leaf : OutPoint → List UInt8) (w : World) : Prop where
  label : ∀ t tt, w.targets.get? t = some tt → ∀ p ∈ tt.plan.watches.rows,
    p.sweepLeafHash = leaf p.outpoint
  point : ∀ o q, w.pointAt o = some q → q.sweepLeafHash = leaf o
  owed : ∀ t tt, w.targets.get? t = some tt → ∀ p ∈ tt.plan.watches.rows,
    w.Due p.outpoint ∨ w.Answered cfg t p

/-- The step tracks no target by an outpoint that is watched already and whose report has been
handled, and the plans name the sweep leaf of each outpoint. -/
def InTime (leaf : OutPoint → List UInt8) (w : World) : Action → Prop
  | .track batch => ∀ x ∈ batch, shouldTrackDescriptor x.1 = true →
      w.targets.get? x.1.outpoint = none → ∀ p ∈ x.1.watchPoints,
        p.sweepLeafHash = leaf p.outpoint ∧ (w.Watched p.outpoint → w.Due p.outpoint)
  | _ => True

theorem isOperatorSweepSpend_congr (h : p.sweepLeafHash = q.sweepLeafHash) :
    p.isOperatorSweepSpend cfg s = q.isOperatorSweepSpend cfg s := by
  unfold WatchPoint.isOperatorSweepSpend
  rw [h]

theorem outpoint_of_pointAt (h : w.pointAt o = some q) : q.outpoint = o := by
  obtain ⟨aw, haw, rfl⟩ := map_eq_some_iff.1 h
  exact outpoint_of_get? haw

/-- Along steps that leave the spends and the questions asked, an answer stays. -/
theorem Answered.mono (h : w.Answered cfg t p) (hs : ∀ o s, w.spends.get? o = some s →
    w'.spends.get? o = some s) (ha : w.asked ⊆ w'.asked) : w'.Answered cfg t p := by
  obtain ⟨s, hs', h⟩ := h
  exact ⟨s, hs _ _ hs', h.imp (fun ht => ha ht) id⟩

section Answering

variable (hi : w.Sound) (h : w.Answering cfg leaf)
include hi h

theorem Answering.track
    (hg : w.InTime leaf (.track batch)) :
    (handleTrackVTXOs batch w).1.Answering cfg leaf := by
  obtain ⟨hm, hext, hadd⟩ := handleTrackVTXOs_spec batch hi.shares
  have hdue : ∀ o, w.Watched o → w.Due o → (handleTrackVTXOs batch w).1.Due o := by
    intro o hw hd
    rcases hd with hd | hd
    · exact .inl ((mem_registrations_iff (hext.regs o hw)).2 hd)
    · refine .inr ?_
      rwa [hext.mailbox]
  have hnew : ∀ t tt, (handleTrackVTXOs batch w).1.targets.get? t = some tt →
      w.targets.get? t = some tt ∨ ∀ p ∈ tt.plan.watches.rows,
        p.sweepLeafHash = leaf p.outpoint ∧ (w.Watched p.outpoint → w.Due p.outpoint) := by
    intro t tt ht
    rcases hadd t tt ht with ht' | ⟨hn, x, hx, hdesc, hs, hplan⟩
    · exact .inl ht'
    rw [← Descriptor.watchPoints_eq hplan]
    refine .inr (hg x hx hs ?_)
    have hk : tt.outpoint = t := Table.key_of_get? ht
    rwa [hdesc, ← TrackedTarget.outpoint, hk]
  have hlabel : ∀ t tt, (handleTrackVTXOs batch w).1.targets.get? t = some tt →
      ∀ p ∈ tt.plan.watches.rows, p.sweepLeafHash = leaf p.outpoint := by
    intro t tt ht p hp
    rcases hnew t tt ht with ht | hnew
    · exact h.label t tt ht p hp
    · exact (hnew p hp).1
  refine ⟨hlabel, fun o q hq => ?_, fun t tt ht p hp => ?_⟩
  · rcases hext.fresh_point o q hq with hq' | ⟨t, tt, ht, hq'⟩
    · exact h.point o q hq'
    · rw [hlabel t tt ht q hq', outpoint_of_pointAt hq]
  -- A target of the batch finds its outpoint watched or registers it anew.
  have hw' : (handleTrackVTXOs batch w).1.Watched p.outpoint :=
    ⟨t, (hm _ _).2 ⟨tt, ht, mem_map_of_mem hp⟩⟩
  by_cases hw : w.Watched p.outpoint
  · rcases hnew t tt ht with ht' | hnew
    · rcases h.owed t tt ht' p hp with hd | hans
      · exact .inl (hdue _ hw hd)
      refine .inr (hans.mono ?_ ?_)
      · rw [hext.spends]
        exact fun _ _ hs => hs
      · rw [hext.asked]
        exact Subset.refl _
    · exact .inl (hdue _ hw ((hnew p hp).2 hw))
  · exact .inl (.inl (hext.fresh _ hw hw'))

theorem Answering.untrack : (w.handleUntrack c t).1.Answering cfg leaf := by
  obtain ⟨hm, hdrop⟩ := handleUntrack_spec (c := c) (t := t) hi.shares
  have hold : ∀ t' tt, (w.handleUntrack c t).1.targets.get? t' = some tt →
      w.targets.get? t' = some tt := by
    intro t' tt ht
    rw [hdrop.targets, Table.get?_delete] at ht
    split at ht
    · cases ht
    · exact ht
  refine ⟨fun t' tt ht => h.label t' tt (hold t' tt ht),
    fun o q hq => h.point o q (hdrop.point o q hq), fun t' tt ht p hp => ?_⟩
  rcases h.owed t' tt (hold t' tt ht) p hp with hd | hans
  · refine .inl (hd.imp (fun hr => ?_) fun hs => ?_)
    · have hw' : (w.handleUntrack c t).1.Watched p.outpoint :=
        ⟨t', (hm _ _).2 ⟨tt, ht, mem_map_of_mem hp⟩⟩
      exact (mem_registrations_iff (hdrop.regs _ hw')).2 hr
    · rwa [hdrop.mailbox]
  · refine .inr (hans.mono ?_ ?_)
    · rw [hdrop.spends]
      exact fun _ _ hs => hs
    · rw [hdrop.asked]
      exact Subset.refl _

theorem Answering.observe (hs : w.mailbox[i]? = some s)
    (hts : ∀ t q, t ∈ w.targetsOf s.outpoint → w.pointAt s.outpoint = some q →
      t ∈ ts ∨ q.isOperatorSweepSpend cfg s = true) :
    Answering cfg leaf { w with mailbox := w.mailbox.eraseIdx i, asked := w.asked ++ ts } := by
  refine ⟨h.label, h.point, fun t tt ht p hp => ?_⟩
  by_cases ho : p.outpoint = s.outpoint
  · -- The report at hand is that of this outpoint: the target shares in its watch.
    have hmem : t ∈ w.targetsOf s.outpoint := (hi.shares _ _).2 ⟨tt, ht, ho ▸ mem_map_of_mem hp⟩
    obtain ⟨q, hq⟩ := watched_iff_pointAt.1 ⟨t, hmem⟩
    have hlabel : p.sweepLeafHash = q.sweepLeafHash := by
      rw [h.label t tt ht p hp, h.point _ q hq, ho]
    refine .inr ⟨s, ?_, ?_⟩
    · change w.spends.get? p.outpoint = some s
      rw [ho]
      exact hi.told s (mem_of_getElem? hs)
    · rw [isOperatorSweepSpend_congr hlabel]
      exact (hts t q hmem hq).imp (mem_append_right _) id
  · rcases h.owed t tt ht p hp with (hd | ⟨s', hs', hd⟩) | hans
    · exact .inl (.inl hd)
    · refine .inl (.inr ⟨s', ?_, hd⟩)
      obtain ⟨j, hj⟩ := mem_iff_getElem?.1 hs'
      refine mem_eraseIdx_iff_getElem?.2 ⟨j, ?_, hj⟩
      rintro rfl
      rw [hs, some.injEq] at hj
      exact ho (by rw [hj, hd])
    · exact .inr (hans.mono (fun _ _ h => h) (subset_append_left _ _))

theorem Answering.step (hg : w.InTime leaf a)
    (hs : w.step cfg a = some w') : w'.Answering cfg leaf := by
  cases step_cases hs with
  | track => exact h.track hi hg
  | untrack => exact h.untrack hi
  | spend =>
    refine ⟨h.label, h.point, fun t tt ht p hp => ?_⟩
    rcases h.owed t tt ht p hp with hd | hans
    · exact .inl hd
    · exact .inr (hans.mono (fun _ _ => get?_insertIgnore_of_some) (Subset.refl _))
  | @report i o s hr hsp =>
    refine ⟨h.label, h.point, fun t tt ht p hp => ?_⟩
    rcases h.owed t tt ht p hp with (hd | ⟨s', hs', hd⟩) | hans
    · rcases mem_set_of_getElem? i ⟨o, true⟩ hd with hd | hd
      · exact .inl (.inl hd)
      · rw [hr, some.injEq] at hd
        obtain ⟨rfl, -⟩ := Registration.mk.injEq .. ▸ hd
        exact .inl (.inr ⟨s, by simp, Table.key_of_get? hsp⟩)
    · exact .inl (.inr ⟨s', mem_append_left _ hs', hd⟩)
    · exact .inr (hans.mono (fun _ _ h => h) (Subset.refl _))
  | observe hsp hts => exact h.observe hi hsp hts

omit hi h

end Answering

instance {leaf : OutPoint → List UInt8} {a : Action} : Decidable (w.InTime leaf a) := by
  unfold InTime
  cases a with
  | track batch => exact inferInstanceAs (Decidable (∀ x ∈ batch, _))
  | _ => exact inferInstanceAs (Decidable True)

def Quiescent (w : World) : Prop :=
  w.mailbox = [] ∧ ∀ r ∈ w.registrations, r.reported = false → w.spends.get? r.outpoint = none

instance : Decidable w.Quiescent := inferInstanceAs (Decidable (_ ∧ _))

/-- Every tracked target has been asked to be unrolled whose plan has an outpoint that was spent
otherwise than by the sweep leaf of the operator. -/
def Escalated (cfg : WatcherConfig) (w : World) : Prop :=
  ∀ t ∈ w.targets.rows, ∀ p ∈ t.plan.watches.rows, ∀ s ∈ w.spends.rows,
    s.outpoint = p.outpoint → p.isOperatorSweepSpend cfg s = false → t.outpoint ∈ w.asked

instance : Decidable (w.Escalated cfg) := inferInstanceAs (Decidable (∀ t ∈ w.targets.rows, _))

theorem Answering.escalated (h : w.Answering cfg leaf) (hq : w.Quiescent) : w.Escalated cfg := by
  intro t ht p hp s hs ho hsweep
  rw [Table.mem_rows_iff] at ht hs
  rw [ho] at hs
  rcases h.owed _ t ht p hp with (hd | ⟨s', hs', -⟩) | ⟨s', hs', hans⟩
  · have := hq.2 _ hd rfl
    rw [hs] at this
    cases this
  · rw [hq.1] at hs'
    cases hs'
  rw [hs, some.injEq] at hs'
  subst hs'
  rcases hans with hans | hans
  · exact hans
  · rw [hsweep] at hans
    cases hans

end World

def Action.isReport : Action → Bool
  | .report _ => true
  | .observe _ => true
  | _ => false

theorem exists_quiescent (cfg : WatcherConfig) (w : World) :
    ∃ bs w', (∀ b ∈ bs, b.isReport = true) ∧ (watcher cfg).run w bs = some w' ∧ w'.Quiescent := by
  -- A report takes a registration from the first count and puts a message into the second.
  induction hn : 2 * w.registrations.countP (!·.reported) + w.mailbox.length using
    Nat.strong_induction_on generalizing w with
  | _ n ih =>
    by_cases hq : w.Quiescent
    · exact ⟨[], w, by simp, rfl, hq⟩
    suffices ∃ b w₁, b.isReport = true ∧ w.step cfg b = some w₁ ∧
        2 * w₁.registrations.countP (!·.reported) + w₁.mailbox.length < n by
      obtain ⟨b, w₁, hb, hstep, hlt⟩ := this
      obtain ⟨bs, w', hbs, hrun, hq'⟩ := ih _ hlt w₁ rfl
      refine ⟨b :: bs, w', ?_, Machine.run_cons_eq_some.2 ⟨w₁, hstep, hrun⟩, hq'⟩
      exact forall_mem_cons.2 ⟨hb, hbs⟩
    by_cases hm : w.mailbox = []
    · obtain ⟨⟨o, b⟩, hr, hrep, hsp⟩ : ∃ r ∈ w.registrations, r.reported = false ∧
          w.spends.get? r.outpoint ≠ none := by
        simpa [World.Quiescent, hm] using hq
      obtain rfl : b = false := hrep
      obtain ⟨i, hi⟩ := mem_iff_getElem?.1 hr
      obtain ⟨s, hs⟩ := ne_none_iff_exists'.1 hsp
      have hs' : w.spends.get? o = some s := hs
      have hstep : w.step cfg (.report i) = some { w with
          registrations := w.registrations.set i ⟨o, true⟩, mailbox := w.mailbox ++ [s] } := by
        simp [World.step, hi, hs']
      refine ⟨.report i, _, rfl, hstep, ?_⟩
      obtain ⟨hlt, hget⟩ := List.getElem?_eq_some_iff.1 hi
      have hpos : 0 < w.registrations.countP (!·.reported) := countP_pos_iff.2 ⟨_, hr, rfl⟩
      simp only [countP_set hlt, hget, length_append, length_singleton]
      simp only [Bool.not_false, Bool.not_true, if_true, Bool.false_eq_true, if_false]
      omega
    · obtain ⟨s, rest, hs⟩ := exists_cons_of_ne_nil hm
      obtain ⟨ts, heq, -⟩ := World.handleSpendObserved_spec cfg { w with mailbox := rest } s
      have hstep : w.step cfg (.observe 0) =
          some { w with mailbox := rest, asked := w.asked ++ ts } := by
        simp [World.step, hs, heq]
      refine ⟨.observe 0, _, rfl, hstep, ?_⟩
      rw [hs, length_cons] at hn
      dsimp only
      omega

def Action.Unregisters : Action → Prop
  | .track batch => ∀ x ∈ batch, ∀ o, x.2.unregisters o = true
  | .untrack _ c => ∀ o, c.unregisters o = true
  | _ => True

/-- A request to track, whatever fails in it, leaves the watches of the targets before it. -/
def KeepsOthers (w : World) (a : Action) (w' : World) : Prop :=
  ∀ batch, a = .track batch → ∀ t ∈ w.targets.rows, t ∈ w'.targets.rows ∧
    ∀ o, (t.outpoint ∈ w'.targetsOf o ↔ t.outpoint ∈ w.targetsOf o) ∧
      (t.outpoint ∈ w.targetsOf o →
        w'.registrationsOf o = w.registrationsOf o ∧ w'.pointAt o = w.pointAt o)

namespace World

variable {w w' : World}

theorem Tidy.step (h : w.Tidy) (ha : a.Unregisters) (hs : w.step cfg a = some w') : w'.Tidy := by
  cases step_cases hs with
  | track => exact h.handleTrackVTXOs ha
  | untrack => exact h.handleUntrack ha
  | spend | observe => exact h
  | @report i o s hr hsp =>
    intro r hr'
    rcases mem_or_eq_of_mem_set hr' with hr' | rfl
    · exact h r hr'
    · exact h ⟨o, false⟩ (mem_of_getElem? hr)

theorem Sound.keepsOthers (h : w.Sound) (hs : w.step cfg a = some w') : KeepsOthers w a w' := by
  rintro batch rfl t ht
  cases hs
  obtain ⟨hm, hext, -⟩ := handleTrackVTXOs_spec batch h.shares
  rw [Table.mem_rows_iff] at ht
  have ht' := hext.tracked _ t ht
  refine ⟨Table.mem_rows_iff.2 ht', fun o => ⟨?_, fun ho => ?_⟩⟩
  · rw [hm, h.shares, ht, ht']
  · obtain ⟨q, hq⟩ := watched_iff_pointAt.1 ⟨_, ho⟩
    exact ⟨hext.regs o ⟨_, ho⟩, by rw [hext.point o q hq, hq]⟩

theorem Sound.watched_iff (h : w.Sound) :
    w.Watched o ↔ ∃ t ∈ w.targets.rows, o ∈ t.desc.outpoints := by
  constructor
  · rintro ⟨t, ht⟩
    obtain ⟨tt, htt, ho⟩ := (h.shares o t).1 ht
    exact ⟨tt, Table.mem_of_get? htt, ((buildWatchPlan_spec (h.plans t tt htt)).2.1 o).1 ho⟩
  rintro ⟨tt, htt, ho⟩
  rw [Table.mem_rows_iff] at htt
  exact ⟨_, (h.shares o _).2 ⟨tt, htt, ((buildWatchPlan_spec (h.plans _ tt htt)).2.1 o).2 ho⟩⟩

theorem sound_empty : Sound {} where
  shares o t := by simp [targetsOf]
  held o ho := by simp [Watched, targetsOf] at ho
  told s hs := by cases hs
  plans t tt h := by simp at h

theorem answering_empty : Answering cfg leaf {} where
  label t tt h := by simp at h
  point o q h := by simp [pointAt] at h
  owed t tt h := by simp at h

end World

/-- A tracked target holds the watches of its ancestry, and once nothing is left to report it has
been asked to be unrolled if one of them was spent by another than the operator. -/
theorem spends_escalated {cfg : WatcherConfig} (leaf : OutPoint → List UInt8) {as : List Action}
    {w : World} (hrun : (watcher cfg).run {} as = some w) :
    ((watcher cfg).Along (fun w a _ => w.InTime leaf a) {} as → w.Quiescent → w.Escalated cfg) ∧
      (∃ bs w', (∀ b ∈ bs, b.isReport = true) ∧ (watcher cfg).run w bs = some w' ∧ w'.Quiescent) ∧
      (∀ t ∈ w.targets.rows, ∀ o, o ∈ t.desc.outpoints ↔ t.outpoint ∈ w.targetsOf o) ∧
      (∀ t ∈ w.targets.rows, ∀ o, o ∈ t.desc.outpoints ↔ o ∈ t.plan.outpoints) ∧
      ((watcher cfg).Along (fun _ a _ => a.Unregisters) {} as →
        ∀ o, (∃ r ∈ w.registrations, r.outpoint = o) ↔ ∃ t ∈ w.targets.rows, o ∈ t.desc.outpoints) ∧
      (watcher cfg).Along KeepsOthers {} as := by
  have hsound : w.Sound :=
    Machine.run_preserves World.Sound (fun _ _ _ h hs => h.step hs) World.sound_empty hrun
  have hplan : ∀ t ∈ w.targets.rows, ∀ o, o ∈ t.desc.outpoints ↔ o ∈ t.plan.outpoints := by
    intro t ht o
    rw [Table.mem_rows_iff] at ht
    exact ((buildWatchPlan_spec (hsound.plans _ t ht)).2.1 o).symm
  refine ⟨fun hG hq => ?_, exists_quiescent cfg w, fun t ht o => ?_, hplan, fun hG o => ?_, ?_⟩
  · have hinv : w.Sound ∧ w.Answering cfg leaf :=
      Machine.run_invariant (fun w => w.Sound ∧ w.Answering cfg leaf)
        (fun _ _ _ h hg hs => ⟨h.1.step hs, h.2.step h.1 hg hs⟩)
        ⟨World.sound_empty, World.answering_empty⟩ hG hrun
    exact hinv.2.escalated hq
  · rw [hplan t ht, hsound.shares]
    rw [Table.mem_rows_iff] at ht
    simp [ht]
  · have htidy : w.Tidy :=
      Machine.run_invariant World.Tidy (fun _ _ _ h hg hs => h.step hg hs)
        (fun r hr => by cases hr) hG hrun
    rw [← hsound.watched_iff]
    constructor
    · rintro ⟨r, hr, rfl⟩
      exact htidy r hr
    · exact hsound.held o
  · refine (Machine.along_invariant World.Sound (G := fun _ _ _ => True)
      (fun _ _ _ h _ hs => h.step hs) World.sound_empty
      (Machine.along_of_forall fun _ _ _ _ => trivial)).imp ?_
    rintro w₁ a w₂ - ⟨h, -, hs, -⟩
    exact h.keepsOthers hs

section Shared

/-- One transaction, a leaf, under a batch output that the operator may sweep by leaf `[9]`. -/
def sharedTree : Tree := ⟨some (.mk 10 ⟨1, 0⟩ [[7], anchorPkScript] []), some [6], [9]⟩

def sharingTarget (i : ℕ) : Descriptor := ⟨⟨100, i⟩, .live, 1, 50, [some sharedTree]⟩

def answering : ChainAnswers := ⟨fun _ => true, fun _ => true⟩

def keySpend : SpendObserved := ⟨⟨1, 0⟩, some [[[1]]], 0⟩

def identityHash : WatcherConfig := ⟨id⟩

def joinsBefore : List Action :=
  [.track [(sharingTarget 0, answering)], .spend keySpend, .report 0,
    .track [(sharingTarget 1, answering)], .observe 0]

def joinsAfter : List Action :=
  [.track [(sharingTarget 0, answering)], .spend keySpend, .report 0, .observe 0,
    .track [(sharingTarget 1, answering)]]

def sharedLeaf (o : OutPoint) : List UInt8 := if o.hash = 1 then [9] else []

theorem joinsBefore_escalated : ∃ w, (watcher identityHash).run {} joinsBefore = some w ∧
    w.Quiescent ∧ w.Escalated identityHash ∧ w.targets.rows.length = 2 := by
  refine ⟨_, rfl, by decide +kernel, ?_, by decide +kernel⟩
  have hrun : (watcher identityHash).run {} joinsBefore = some _ := rfl
  exact (spends_escalated sharedLeaf hrun).1 (by decide +kernel) (by decide +kernel)

theorem joinsAfter_unescalated : ∃ w, (watcher identityHash).run {} joinsAfter = some w ∧
    w.Quiescent ∧ ¬ w.Escalated identityHash := by
  exact ⟨_, rfl, by decide +kernel, by decide +kernel⟩

end Shared

end Wavelength.Fraud
