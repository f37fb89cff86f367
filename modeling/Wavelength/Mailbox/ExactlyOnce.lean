import Wavelength.Mailbox.Ownership

/-! # A commit takes effect at most once per message

The fence of the ack, the processed mark written in the same transaction and the
processed check between a claim and its turn together make a commit happen at
most once per id, however often the id is enqueued and leased.
-/

namespace Wavelength.Mailbox

open List

variable {cfg : Config} {s s' : State} {w : ℕ}

def Phase.committed : Phase → Bool
  | running _ c => c
  | idle | claimed _ | closing _ _ _ => false

/-- The processed lookup answers, and a worker that peeks, and so has no lease to be fenced by, does
not commit again in a turn that has committed. -/
def Reliable (cfg : Config) (s : State) (a : Action) (_ : State) : Prop :=
  match a with
  | .dedup _ lookupFails => lookupFails = false
  | .commit w _ => cfg.leaseless = true → s.workers[w]?.all (!·.committed) = true
  | _ => True

instance (cfg : Config) (s s' : State) (a : Action) : Decidable (Reliable cfg s a s') := by
  unfold Reliable; split <;> infer_instance

/-- After a commit of its id, a running worker either holds a token that the row does not carry, or
peeked and has itself made the commit. -/
structure Once (cfg : Config) (s : State) : Prop where
  own : Ownership cfg s
  marked : ∀ i ∈ s.commits, i ∈ s.store.processed
  fenced : ∀ (w : ℕ) d c m t, s.workers[w]? = some (.running d c) → d.leaseToken = some t →
    d.id ∈ s.commits → s.row d.id = some m → m.leaseToken ≠ some t
  once : ∀ (w : ℕ) d, s.workers[w]? = some (.running d false) → d.leaseToken = none →
    d.id ∉ s.commits
  nodup : s.commits.Nodup

theorem once_initial : Once cfg (.initial cfg now) where
  own := ownership_initial
  marked i hi := by simp [State.commits, State.commitLog, State.initial] at hi
  fenced w d c m t hw := by simp [State.initial, getElem?_replicate] at hw
  once w d hw := by simp [State.initial, getElem?_replicate] at hw
  nodup := nodup_nil

theorem holds_of_running (hw : s.workers[w]? = some (.running d c)) : s.Holds w d := by
  simp [State.Holds, hw, Phase.delivery?]

namespace Once

variable (h : Once cfg s)
include h

variable (hG : Reliable cfg s a s') (hstep : step cfg s a = some s')
include hG hstep

/-- A worker that runs after a step and did not before has an unprocessed id. -/
theorem unseen
    (hw : s'.workers[w]? = some (.running d c)) (hid : d.id ∈ s.commits) :
    ∃ c₀, s.workers[w]? = some (.running d c₀) ∧ (c₀ = true → c = true) := by
  rcases (step_spec h.own.planned hstep).running hw with hw | ⟨lookupFails, rfl, -, hseen⟩
  · exact hw
  · rcases hseen with rfl | hseen
    · cases hG
    · exact absurd (h.marked _ hid) hseen

/-- A running token is not on the row of its id after any step that kept the
commits as they were. -/
theorem fenced_step
    (hw : s'.workers[w]? = some (.running d c)) (ht : d.leaseToken = some t)
    (hid : d.id ∈ s.commits) (hm : s'.row d.id = some m) : m.leaseToken ≠ some t := by
  intro hmt
  have hspec := step_spec h.own.planned hstep
  obtain ⟨c₀, hw₀, -⟩ := h.unseen hG hstep hw hid
  rcases hspec.leased_under hm hmt with ⟨m₀, hm₀, hmt₀, -⟩ | ⟨w', promise, m₀, rfl, hl, hfresh, -⟩
  · exact h.fenced w d c₀ m₀ t hw₀ ht hid hm₀ hmt₀
  · obtain ⟨t', ht', hdt⟩ := h.own.held hl w d (holds_of_running hw₀)
    cases hdt.symm.trans ht
    exact hfresh ht'

theorem once_step
    (hw : s'.workers[w]? = some (.running d false)) (hd : d.leaseToken = none) :
    d.id ∉ s.commits := by
  intro hid
  obtain ⟨c₀, hw₀, hc⟩ := h.unseen hG hstep hw hid
  obtain rfl : c₀ = false := by simpa using hc
  exact h.once w d hw₀ hd hid

omit hG hstep

theorem fresh_commit (hG : Reliable cfg s (.commit w true) s') (hc : CommitStep s w d c m s') :
    d.id ∉ s.commits := by
  intro hid
  cases ht : d.leaseToken with
  | some t =>
    have hown : m.leaseToken = some t := owns_some_iff.1 (ht ▸ hc.owns)
    exact h.fenced w d c m t hc.phase ht hid hc.row hown
  | none =>
    have hl := h.own.leaseless_of_bare (holds_of_running hc.phase) ht
    cases c with
    | true => simpa [hc.phase, Phase.committed] using hG hl
    | false => exact h.once w d hc.phase ht hid

theorem step (hG : Reliable cfg s a s') (hstep : step cfg s a = some s') : Once cfg s' := by
  have hspec := step_spec h.own.planned hstep
  have hown := h.own.step hstep
  rcases step_commitLog hstep with hlog | ⟨w₀, d₀, c₀, m₀, rfl, hc⟩
  · have hcommits : s'.commits = s.commits := by rw [State.commits, hlog, State.commits]
    refine ⟨hown, ?_, ?_, ?_, hcommits ▸ h.nodup⟩
    · intro i hi
      exact hspec.marks i (h.marked i (hcommits ▸ hi))
    · intro w d c m t hw ht hid hm
      exact h.fenced_step hG hstep hw ht (hcommits ▸ hid) hm
    · intro w d hw hd
      exact hcommits ▸ h.once_step hG hstep hw hd
  · have hcommits : s'.commits = s.commits ++ [d₀.id] := by simp [State.commits, hc.log]
    have hfresh := h.fresh_commit hG hc
    have hgone : s'.row d₀.id = none := by
      simp [State.row, hc.store, Store.deleteMailboxMessage]
    refine ⟨hown, ?_, ?_, ?_, ?_⟩
    · intro i hi
      rw [hcommits, mem_append, mem_singleton] at hi
      rw [hc.store, mem_markMessageProcessed]
      exact hi.imp_left (h.marked i)
    · intro w d c m t hw ht hid hm
      rw [hcommits, mem_append, mem_singleton] at hid
      rcases hid with hid | hid
      · exact h.fenced_step hG hstep hw ht hid hm
      · rw [hid, hgone] at hm
        cases hm
    · intro w d hw hd hid
      rw [hcommits, mem_append, mem_singleton] at hid
      rcases hid with hid | hid
      · exact h.once_step hG hstep hw hd hid
      -- the peeking worker is alone, so it is the one that has committed
      have hlen := hown.single (hown.leaseless_of_bare (holds_of_running hw) hd)
      have hw0 : w < s'.workers.length := (List.getElem?_eq_some_iff.1 hw).1
      have hw₀ : w₀ < s.workers.length := (List.getElem?_eq_some_iff.1 hc.phase).1
      obtain rfl : w = w₀ := by
        rw [hspec.length] at hlen hw0
        omega
      rw [hc.workers, getElem?_set_self hw₀] at hw
      simp at hw
    · rw [hcommits]
      exact nodup_append.2 ⟨h.nodup, nodup_singleton _, by
        intro i hi j hj
        rw [mem_singleton] at hj
        rintro rfl
        exact hfresh (hj ▸ hi)⟩

omit h

end Once

section Lost

theorem execStage_of_lost (leaseUntil : ℤ) (fnOk : Bool) (ht : d.leaseToken = some t)
    (hlost : ∀ m, st.messages.get? d.id = some m → m.leaseToken ≠ some t) :
    execStage d st leaseUntil fnOk = none := by
  have : requireRows (st.extendMailboxLease d.id t leaseUntil) = none := by
    rw [Option.eq_none_iff_forall_ne_some]
    intro st' h
    obtain ⟨m, hm, hmt, -⟩ := requireRows_extendMailboxLease.1 h
    exact hlost m hm hmt
  simp [execStage, ht, this]

theorem execCommit_of_lost (fnOk : Bool) (ht : d.leaseToken = some t)
    (hlost : ∀ m, st.messages.get? d.id = some m → m.leaseToken ≠ some t) :
    execCommit d st fnOk = none := by
  rw [Option.eq_none_iff_forall_ne_some]
  intro st' h
  obtain ⟨-, m, hm, hown, -⟩ := execCommit_eq_some_iff.1 h
  exact hlost m hm (owns_some_iff.1 (ht ▸ hown))

/-- A stage or a commit under a token that the row does not carry changes nothing. -/
theorem step_of_lost (hw : s.workers[w]? = some (.running d c)) (ht : d.leaseToken = some t)
    (hlost : ∀ m, s.row d.id = some m → m.leaseToken ≠ some t)
    (hstep : step cfg s (.stage w fnOk) = some s' ∨ step cfg s (.commit w fnOk) = some s') :
    s' = s := by
  have hstage := execStage_of_lost (s.now + cfg.leaseDuration) fnOk ht hlost
  have hcommit := execCommit_of_lost fnOk ht hlost
  rcases hstep with h | h
  · simp only [step, stepStage, hw] at h
    split at h <;> simp_all
  · simp only [step, stepCommit, hw] at h
    split at h <;> simp_all

end Lost

/-- The write function of a commit takes effect at most once per message id, and a stage or commit
under a token that no longer owns the row leaves every table as it is. -/
theorem commit_effect_at_most_once {now : ℤ} {as : List Action}
    (hG : (pool cfg).Along (Reliable cfg) (.initial cfg now) as)
    (hrun : (pool cfg).run (.initial cfg now) as = some s) :
    (∀ id, s.commits.count id ≤ 1) ∧
      ∀ (w : ℕ) d c t, s.workers[w]? = some (.running d c) → d.leaseToken = some t →
        (∀ m, s.row d.id = some m → m.leaseToken ≠ some t) →
        ∀ fnOk s', step cfg s (.stage w fnOk) = some s' ∨ step cfg s (.commit w fnOk) = some s' →
          s' = s := by
  have hinv : Once cfg s :=
    Machine.run_invariant (Once cfg) (fun _ _ _ h hG hstep => h.step hG hstep) once_initial hG hrun
  exact ⟨fun id => nodup_iff_count_le_one.1 hinv.nodup id,
    fun w d c t hw ht hlost fnOk s' hstep => step_of_lost hw ht hlost hstep⟩

def pairCfg : Config where
  mailboxId := 0
  path := .exec
  numWorkers := 2

/-- A message is leased, re-leased after its lease ran out, committed by the
second worker and enqueued again; the first worker still tries to commit. -/
def relet : List Action :=
  [.enqueue { id := 1, mailboxId := 0 }, .claim 0 1 10 false, .dedup 0 false, .tick 31,
    .claim 1 1 11 false, .dedup 1 false, .commit 0 true, .commit 1 true,
    .enqueue { id := 1, mailboxId := 0 }, .commit 0 true, .crash 1, .claim 1 1 12 false,
    .dedup 1 false, .storeOp 1 false]

theorem relet_commits_once :
    ((pool pairCfg).run (.initial pairCfg 0) relet).map State.commits = some [1] ∧
      ∀ s, (pool pairCfg).run (.initial pairCfg 0) relet = some s → ∀ id, s.commits.count id ≤ 1 :=
  ⟨by decide, fun _ hrun => (commit_effect_at_most_once (by decide) hrun).1⟩

end Wavelength.Mailbox
