import Wavelength.Lwwallet.TipPoller

/-! # The stream is a chain

Whoever folds the unified stream, dropping what a reorganisation disconnects and appending every
tip, holds the blocks that the poller goes on from. The proofs are for any relation that the poller
establishes between the hashes of neighbouring blocks: none at all gives consecutive heights, the
previous hash gives a chain.
-/

namespace Wavelength.Lwwallet

open List Option

/-- Neighbours are at consecutive heights and related. -/
def Chained (R : Hash → Hash → Prop) (blocks : List TipBlock) : Prop :=
  blocks.IsChain fun a b => b.height = a.height + 1 ∧ R a.hash b.hash

/-- The list has `P` at every event of a fold, a reorganisation names the blocks that it drops,
lowest first, and its connected blocks come next. -/
def Orderly (P : List TipBlock → Prop) : List TipBlock → List ChainEvent → Prop
  | blocks, [] => P blocks
  | blocks, .tip b :: events => P blocks ∧ Orderly P (blocks ++ [b]) events
  | blocks, .reorg r :: events =>
    P blocks ∧
      r.disconnected = (blocks.filter (r.forkHeight < ·.height)).map TipBlock.hash ∧
      r.connected.map .tip <+: events ∧
      Orderly P (blocks.filter (·.height ≤ r.forkHeight)) events

def applyEvent (blocks : List TipBlock) : ChainEvent → List TipBlock
  | .tip b => blocks ++ [b]
  | .reorg r => blocks.filter (·.height ≤ r.forkHeight)

theorem Orderly.append {P : List TipBlock → Prop} (h : Orderly P blocks events)
    (h' : Orderly P (events.foldl applyEvent blocks) events') :
    Orderly P blocks (events ++ events') := by
  induction events generalizing blocks with
  | nil => exact h'
  | cons e events ih =>
    cases e with
    | tip b => exact ⟨h.1, ih h.2 h'⟩
    | reorg r =>
      obtain ⟨hp, hdisc, hconn, hrest⟩ := h
      exact ⟨hp, hdisc, hconn.trans (prefix_append _ _), ih hrest h'⟩

/-! ## Blocks at consecutive heights -/

section

variable {R : Hash → Hash → Prop}

variable (h : Chained R blocks)
include h

theorem Chained.sorted : blocks.Pairwise (·.height < ·.height) := by
  have hlt : blocks.IsChain (·.height < ·.height) := h.imp fun _ _ hab => by omega
  have : IsTrans TipBlock (·.height < ·.height) := ⟨fun _ _ _ => lt_trans⟩
  exact isChain_iff_pairwise.1 hlt

theorem Chained.concat
    (hb : ∀ a ∈ blocks.getLast?, b.height = a.height + 1 ∧ R a.hash b.hash) :
    Chained R (blocks ++ [b]) := by
  refine isChain_append.2 ⟨h, isChain_singleton b, fun a ha c hc => ?_⟩
  cases hc
  exact hb a ha

theorem Chained.eq_of_height (ha : a ∈ blocks) (hb : b ∈ blocks)
    (hab : a.height = b.height) : a = b := by
  have hnodup : (blocks.map TipBlock.height).Nodup := by
    refine pairwise_map.2 (h.sorted.imp fun hlt => ?_)
    exact ne_of_lt hlt
  exact inj_on_of_nodup_map hnodup ha hb hab

theorem Chained.le_last (ha : a ∈ blocks) (hb : blocks.getLast? = some b) :
    a.height ≤ b.height := by
  obtain ⟨init, rfl⟩ := getLast?_eq_some_iff.1 hb
  rcases mem_append.1 ha with ha | ha
  · exact le_of_lt ((pairwise_append.1 h.sorted).2.2 a ha b mem_cons_self)
  · rw [mem_singleton.1 ha]

theorem Chained.split (fork : ℤ) :
    blocks.filter (·.height ≤ fork) ++ blocks.filter (fork < ·.height) = blocks := by
  have hs := h.sorted
  clear h
  induction blocks with
  | nil => rfl
  | cons a blocks ih =>
    obtain ⟨ha, hs⟩ := pairwise_cons.1 hs
    by_cases hle : a.height ≤ fork
    · rw [filter_cons_of_pos (by simpa using hle), filter_cons_of_neg (by simpa using hle),
        cons_append, ih hs]
    have hall : ∀ b ∈ blocks, ¬ b.height ≤ fork := fun b hb => by
      have := ha b hb
      omega
    rw [filter_cons_of_neg (by simpa using hle), filter_cons_of_pos (by simpa using hle),
      filter_eq_nil_iff.2 (by simpa using hall), nil_append,
      filter_eq_self.2 (by simpa using hall)]

theorem Chained.filter_le : Chained R (blocks.filter (·.height ≤ fork)) := by
  have := h
  rw [← h.split fork] at this
  exact IsChain.left_of_append this

theorem Chained.getLast_filter (htop : ∀ b ∈ blocks.getLast?, b.height = top) (hfork : fork ≤ top)
    (hb : b ∈ (blocks.filter (·.height ≤ fork)).getLast?) : b.height = fork := by
  have hble : b.height ≤ fork := by
    simpa using (mem_filter.1 (mem_of_getLast? hb)).2
  have hsplit := h.split fork
  cases hrest : blocks.filter (fork < ·.height) with
  | nil =>
    rw [hrest, append_nil] at hsplit
    rw [hsplit] at hb
    have := htop b hb
    omega
  | cons c rest =>
    have hc : fork < c.height := by
      have hmem : c ∈ blocks.filter (fork < ·.height) := by
        rw [hrest]
        exact mem_cons_self
      simpa using (mem_filter.1 hmem).2
    have hchain := h
    rw [← hsplit, hrest] at hchain
    have := ((isChain_append.1 hchain).2.2 b hb c rfl).1
    omega

omit h

end

/-! ## What the poller has kept -/

section

variable {R : Hash → Hash → Prop} {t : TipPoller}

/-- The kept hashes are those of the last blocks, of which `top` is the height of the last. -/
structure Tracks (R : Hash → Hash → Prop) (t : TipPoller) (blocks : List TipBlock) (top : ℤ) :
    Prop where
  chained : Chained R blocks
  ends : ∀ b ∈ blocks.getLast?, b.height = top
  window : ∃ lo ≤ top, ∀ h, (∃ x, t.hashAtHeight h = some x) ↔ lo < h ∧ h ≤ top
  mem : ∀ h x, t.hashAtHeight h = some x → ⟨h, x⟩ ∈ blocks

/-- The last block is the cached tip. -/
structure Synced (R : Hash → Hash → Prop) (t : TipPoller) (blocks : List TipBlock) : Prop where
  tracks : Tracks R t blocks t.tipHeight
  last : blocks.getLast? = some ⟨t.tipHeight, t.tipHash⟩
  tip : t.hashAtHeight t.tipHeight = some t.tipHash

theorem hashAtHeight_broadcast (h : ℤ) :
    (t.broadcastTipBlock b).hashAtHeight h =
      if b.height - t.historySize < h then
        if h = b.height then some b.hash else t.hashAtHeight h
      else none := by
  simp [TipPoller.broadcastTipBlock, TipPoller.recordHash, TipPoller.hashAtHeight, KeyMap.lookup_filterKeys, KeyMap.lookup_insert]

theorem Tracks.broadcast (h : Tracks R t blocks top) (hb : b.height = top + 1)
    (hR : ∀ a ∈ blocks.getLast?, R a.hash b.hash) :
    Synced R (t.broadcastTipBlock b) (blocks ++ [b]) := by
  have hpos := t.historySize_pos
  have hlast : (blocks ++ [b]).getLast? = some b := by simp
  have htip : (t.broadcastTipBlock b).hashAtHeight b.height = some b.hash := by
    rw [hashAtHeight_broadcast, if_pos (by omega), if_pos rfl]
  refine ⟨⟨?_, ?_, ?_, ?_⟩, hlast, htip⟩
  · exact h.chained.concat fun a ha => ⟨by rw [hb, h.ends a ha], hR a ha⟩
  · intro c hc
    rw [hlast] at hc
    cases hc
    rfl
  · obtain ⟨lo, hlo, hwindow⟩ := h.window
    refine ⟨max lo (b.height - t.historySize), ?_, fun k => ?_⟩
    · change _ ≤ b.height
      omega
    change _ ↔ _ ∧ k ≤ b.height
    rw [hashAtHeight_broadcast]
    by_cases hcut : b.height - t.historySize < k
    · rw [if_pos hcut]
      by_cases hk : k = b.height
      · rw [if_pos hk]
        exact iff_of_true ⟨_, rfl⟩ (by omega)
      · rw [if_neg hk, hwindow]
        omega
    · rw [if_neg hcut]
      exact iff_of_false nofun (by omega)
  · intro k x hx
    rw [hashAtHeight_broadcast] at hx
    split at hx
    · split at hx
      · next hk =>
        cases hx
        rw [hk]
        exact mem_append_right _ mem_cons_self
      · exact mem_append_left _ (h.mem k x hx)
    · cases hx

theorem Tracks.tips (h : Tracks R t blocks top) (hbs : Chained R bs)
    (hhead : ∀ b ∈ bs.head?, b.height = top + 1 ∧ ∀ a ∈ blocks.getLast?, R a.hash b.hash)
    (hne : bs ≠ []) :
    Orderly (Chained R) blocks (bs.map .tip) ∧
      Synced R (bs.foldl TipPoller.broadcastTipBlock t)
        ((bs.map .tip).foldl applyEvent blocks) := by
  induction bs generalizing t blocks top with
  | nil => exact absurd rfl hne
  | cons b bs ih =>
    obtain ⟨hb, hR⟩ := hhead b rfl
    have hsynced := h.broadcast hb hR
    cases bs with
    | nil => exact ⟨⟨h.chained, hsynced.tracks.chained⟩, hsynced⟩
    | cons c bs =>
      obtain ⟨hbc, hrest⟩ := isChain_cons_cons.1 hbs
      have hnext : ∀ d ∈ (c :: bs).head?, d.height = (t.broadcastTipBlock b).tipHeight + 1 ∧
          ∀ a ∈ (blocks ++ [b]).getLast?, R a.hash d.hash := by
        intro d hd
        cases hd
        refine ⟨hbc.1, fun a ha => ?_⟩
        rw [hsynced.last] at ha
        cases ha
        exact hbc.2
      obtain ⟨horderly, hend⟩ := ih hsynced.tracks hrest hnext (by simp)
      exact ⟨⟨h.chained, horderly⟩, hend⟩

theorem hashAtHeight_forget (k : ℤ) :
    (t.forget fork).hashAtHeight k =
      if fork < k ∧ k ≤ t.tipHeight then none else t.hashAtHeight k := by
  simp only [TipPoller.forget, TipPoller.hashAtHeight, KeyMap.lookup_filterKeys]
  by_cases hk : fork < k ∧ k ≤ t.tipHeight <;> simp [hk]

theorem Synced.forget (h : Synced R t blocks) (hfork : fork ≤ t.tipHeight) (hlo : lo ≤ fork)
    (hwindow : ∀ k, (∃ x, t.hashAtHeight k = some x) ↔ lo < k ∧ k ≤ t.tipHeight) :
    Tracks R (t.forget fork) (blocks.filter (·.height ≤ fork)) fork := by
  refine ⟨h.tracks.chained.filter_le, fun b hb => ?_, ⟨lo, hlo, fun k => ?_⟩, fun k x hx => ?_⟩
  · exact h.tracks.chained.getLast_filter h.tracks.ends hfork hb
  · rw [hashAtHeight_forget]
    by_cases hk : fork < k ∧ k ≤ t.tipHeight
    · rw [if_pos hk]
      exact iff_of_false nofun (by omega)
    · rw [if_neg hk, hwindow]
      omega
  · rw [hashAtHeight_forget] at hx
    split at hx
    · cases hx
    next hk =>
    have hk' : k ≤ t.tipHeight := ((hwindow k).1 ⟨x, hx⟩).2
    refine mem_filter.2 ⟨h.tracks.mem k x hx, ?_⟩
    simp only [decide_eq_true_eq]
    omega

theorem Synced.disconnected_eq (h : Synced R t blocks) (hlo : lo ≤ fork)
    (hwindow : ∀ k, (∃ x, t.hashAtHeight k = some x) ↔ lo < k ∧ k ≤ t.tipHeight) :
    t.disconnected fork = (blocks.filter (fork < ·.height)).map TipBlock.hash := by
  have hle : ∀ b ∈ blocks, b.height ≤ t.tipHeight := fun b hb => h.tracks.chained.le_last hb h.last
  -- both are the entries of one map
  let kept : KeyMap ℤ Hash :=
    ⟨(blocks.filter (fork < ·.height)).map fun b => (b.height, b.hash),
      pairwise_map.2 (h.tracks.chained.sorted.filter _)⟩
  have hkept : (t.recentHashes.filterKeys fun k => fork < k ∧ k ≤ t.tipHeight) = kept := by
    apply KeyMap.ext_lookup
    intro k
    apply ext
    intro x
    rw [KeyMap.lookup_filterKeys, KeyMap.lookup_eq_some]
    change _ ↔ (k, x) ∈ (blocks.filter (fork < ·.height)).map fun b => (b.height, b.hash)
    rw [List.mem_map]
    constructor
    · intro hx
      split at hx
      · next hk =>
        rw [decide_eq_true_eq] at hk
        refine ⟨⟨k, x⟩, mem_filter.2 ⟨h.tracks.mem k x hx, ?_⟩, rfl⟩
        exact decide_eq_true hk.1
      · cases hx
    · rintro ⟨b, hb, hbx⟩
      cases hbx
      obtain ⟨hb, hfork⟩ := mem_filter.1 hb
      rw [decide_eq_true_eq] at hfork
      have htop := hle b hb
      rw [if_pos (decide_eq_true ⟨hfork, htop⟩)]
      obtain ⟨y, hy⟩ := (hwindow b.height).2 ⟨by omega, htop⟩
      have hyb := h.tracks.chained.eq_of_height (h.tracks.mem _ y hy) hb rfl
      rw [← hyb]
      exact hy
  unfold TipPoller.disconnected
  rw [hkept]
  simp [kept]

end

/-! ## The walk back -/

/-- A chain of blocks as the explorer knows it, up to some tip. -/
structure Chain (prev : Hash → Hash) where
  hashAt : ℤ → Option Hash
  linked : ∀ h y, 0 ≤ h → hashAt (h + 1) = some y → hashAt h = some (prev y)

def View.TrueOf {prev : Hash → Hash} (v : View) (c : Chain prev) : Prop :=
  ∀ h x, v.getBlockHashByHeight h = some x → c.hashAt h = some x

/-- A walk back that came to a fork, with the blocks above it. -/
inductive Walk (views : ℕ → View) (t : TipPoller) : ℕ → ℤ → ℤ → List TipBlock → Prop
  | deep (n : ℕ) (probe : ℤ) (hcut : t.cutoff ≤ probe) (htip : probe ≤ t.tipHeight)
      (hnone : t.hashAtHeight probe = none) : Walk views t n probe probe []
  | agreed (n : ℕ) (probe : ℤ) (x : Hash) (hcut : t.cutoff ≤ probe) (htip : probe ≤ t.tipHeight)
      (hkept : t.hashAtHeight probe = some x)
      (hlive : (views n).getBlockHashByHeight probe = some x) : Walk views t n probe probe []
  | above {fork : ℤ} {new : List TipBlock} (n : ℕ) (probe : ℤ) (live : Hash)
      (hcut : t.cutoff ≤ probe) (htip : t.tipHeight < probe)
      (hlive : (views n).getBlockHashByHeight probe = some live)
      (rest : Walk views t (n + 1) (probe - 1) fork new) :
      Walk views t n probe fork (new ++ [⟨probe, live⟩])
  | differs {fork : ℤ} {new : List TipBlock} (n : ℕ) (probe : ℤ) (live kept : Hash)
      (hcut : t.cutoff ≤ probe) (htip : probe ≤ t.tipHeight) (hkept : t.hashAtHeight probe = some kept)
      (hlive : (views n).getBlockHashByHeight probe = some live) (hne : live ≠ kept)
      (rest : Walk views t (n + 1) (probe - 1) fork new) :
      Walk views t n probe fork (new ++ [⟨probe, live⟩])

section

variable {prev : Hash → Hash}

theorem walkBack_spec (hk : k = (probe + 1 - t.cutoff).toNat)
    (h : t.walkBack views k n probe connected = some (fork, conn, n')) :
    ∃ new, Walk views t n probe fork new ∧ conn = new ++ connected := by
  induction k generalizing n probe connected with
  | zero => cases h
  | succ k ih =>
    have hcut : t.cutoff ≤ probe := by omega
    have hk' : k = (probe - 1 + 1 - t.cutoff).toNat := by omega
    unfold TipPoller.walkBack at h
    split at h
    · next htip =>
      split at h
      · cases h
      next live hlive =>
      obtain ⟨new, hwalk, rfl⟩ := ih hk' h
      refine ⟨new ++ [⟨probe, live⟩], .above n probe live hcut htip hlive hwalk, ?_⟩
      rw [append_assoc, singleton_append]
    · next htip =>
      split at h
      · next hnone =>
        split at h
        · cases h
          exact ⟨[], .deep _ _ hcut (Int.not_lt.1 htip) hnone, rfl⟩
        · cases h
      · next kept hkept =>
        split at h
        · cases h
        next live hlive =>
        split at h
        · next heq =>
          subst heq
          cases h
          exact ⟨[], .agreed _ _ live hcut (Int.not_lt.1 htip) hkept hlive, rfl⟩
        · next hne =>
          obtain ⟨new, hwalk, rfl⟩ := ih hk' h
          refine ⟨new ++ [⟨probe, live⟩],
            .differs n probe live kept hcut (Int.not_lt.1 htip) hkept hlive hne hwalk, ?_⟩
          rw [append_assoc, singleton_append]

theorem cutoff_nonneg (t : TipPoller) : 0 ≤ t.cutoff := by
  unfold TipPoller.cutoff
  split
  · rfl
  · omega

theorem Walk.fork_le (h : Walk views t n probe fork new) : fork ≤ t.tipHeight ∧ fork ≤ probe := by
  induction h with
  | deep _ _ _ htip | agreed _ _ _ _ htip => exact ⟨htip, le_refl _⟩
  | above _ _ _ _ _ _ _ ih | differs _ _ _ _ _ _ _ _ _ _ ih => omega

theorem Chained.next {R : Hash → Hash → Prop} (h : Chained R (a :: (new ++ [⟨probe, live⟩])))
    (hR : R live x) : Chained R (a :: (new ++ [⟨probe, live⟩] ++ [⟨probe + 1, x⟩])) := by
  rw [← cons_append]
  refine .concat h fun b hb => ?_
  rw [← cons_append, getLast?_concat] at hb
  cases hb
  exact ⟨rfl, hR⟩

variable (h : Walk views t n probe fork new)
include h

theorem Walk.consecutive (y x : Hash) :
    Chained (fun _ _ => True) (⟨fork, y⟩ :: (new ++ [⟨probe + 1, x⟩])) := by
  induction h generalizing x with
  | deep | agreed => exact isChain_pair.2 ⟨rfl, trivial⟩
  | above _ probe live _ _ _ _ ih | differs _ probe live _ _ _ _ _ _ _ ih =>
    have h := ih live
    rw [Int.sub_add_cancel] at h
    exact h.next trivial

/-- A walk along one chain gives its blocks, and the fork is on that chain if its hash was kept. -/
theorem Walk.linked (c : Chain prev)
    (hc : ∀ m, n ≤ m → (views m).TrueOf c) (hx : c.hashAt (probe + 1) = some x) :
    t.hashAtHeight fork = none ∨ ∃ y, t.hashAtHeight fork = some y ∧
      Chained (fun a b => prev b = a) (⟨fork, y⟩ :: (new ++ [⟨probe + 1, x⟩])) := by
  have hnonneg := cutoff_nonneg t
  have hprev : ∀ {n probe live x}, t.cutoff ≤ probe → (views n).TrueOf c →
      (views n).getBlockHashByHeight probe = some live → c.hashAt (probe + 1) = some x →
      prev x = live := by
    intro n probe live x hcut htrue hlive hx
    exact some.inj ((c.linked probe x (by omega) hx).symm.trans (htrue probe live hlive))
  induction h generalizing x with
  | deep _ _ _ _ hnone => exact .inl hnone
  | agreed n probe y hcut _ hkept hlive =>
    exact .inr ⟨y, hkept, isChain_pair.2 ⟨rfl, hprev hcut (hc n (le_refl n)) hlive hx⟩⟩
  | above n probe live hcut _ hlive _ ih | differs n probe live _ hcut _ _ hlive _ _ ih =>
    have hrest := ih (x := live) (fun m hm => hc m (by omega))
      (by rw [Int.sub_add_cancel]; exact hc n (le_refl n) probe live hlive)
    rw [Int.sub_add_cancel] at hrest
    exact hrest.imp_right fun ⟨y, hy, hchain⟩ =>
      ⟨y, hy, hchain.next (hprev hcut (hc n (le_refl n)) hlive hx)⟩

/-- A walk along a chain that meets what was kept does not go below it. -/
theorem Walk.not_deep (hc : ∀ m, n ≤ m → (views m).TrueOf c) (hk : t.hashAtHeight k = some y)
    (hck : c.hashAt k = some y) (hkt : k ≤ t.tipHeight)
    (hwindow : ∀ h, k ≤ h → h ≤ t.tipHeight → ∃ z, t.hashAtHeight h = some z) (hle : k ≤ probe) :
    t.hashAtHeight fork ≠ none := by
  induction h with
  | deep _ probe _ htip hnone =>
    obtain ⟨z, hz⟩ := hwindow probe hle htip
    exact fun _ => nomatch hnone.symm.trans hz
  | agreed _ _ _ _ _ hkept => exact fun hnone => nomatch hnone.symm.trans hkept
  | above _ _ _ _ htip _ _ ih => exact ih (fun m hm => hc m (by omega)) (by omega)
  | differs n probe live kept _ _ hkept hlive hne _ ih =>
    refine ih (fun m hm => hc m (by omega)) ?_
    by_contra hlt
    obtain rfl : k = probe := by omega
    have hlive' := hc n (le_refl n) k live hlive
    refine hne ?_
    rw [← some_inj, ← hlive', hck, ← hk, hkept]

theorem Walk.window (htip : lo < t.tipHeight)
    (hwindow : ∀ k, (∃ x, t.hashAtHeight k = some x) ↔ lo < k ∧ k ≤ t.tipHeight)
    (hprobe : probe + 1 ≤ t.tipHeight → lo < probe + 1) : lo ≤ fork := by
  induction h with
  | deep _ probe _ hle hnone =>
    have hout : ¬ (lo < probe ∧ probe ≤ t.tipHeight) := fun hin => by
      obtain ⟨x, hx⟩ := (hwindow probe).2 hin
      cases hnone.symm.trans hx
    omega
  | agreed _ probe x _ _ hkept => exact le_of_lt ((hwindow probe).1 ⟨x, hkept⟩).1
  | above _ _ _ _ _ _ _ ih => exact ih (by omega)
  | differs _ probe _ kept _ _ hkept _ _ _ ih =>
    have := (hwindow probe).1 ⟨kept, hkept⟩
    exact ih (by omega)

omit h

end

/-! ## One poll -/

section

variable {R : Hash → Hash → Prop} {prev : Hash → Hash}

/-- What is known after some events: the fold has been orderly, and the poller goes on from it. -/
def Kept (R : Hash → Hash → Prop) (blocks : List TipBlock) (t : TipPoller)
    (events : List ChainEvent) : Prop :=
  Orderly (Chained R) blocks events ∧ Synced R t (events.foldl applyEvent blocks)

theorem Synced.kept (h : Synced R t blocks) : Kept R blocks t [] := ⟨h.tracks.chained, h⟩

theorem Kept.append (h : Kept R blocks t events)
    (h' : Kept R (events.foldl applyEvent blocks) t' events') :
    Kept R blocks t' (events ++ events') := by
  refine ⟨h.1.append h'.1, ?_⟩
  rw [foldl_append]
  exact h'.2

/-- The blocks of every walk go on from the block at its fork. -/
def Joins (R : Hash → Hash → Prop) (views : ℕ → View) (t : TipPoller) (blocks : List TipBlock)
    (n : ℕ) (b : TipBlock) : Prop :=
  ∀ fork new, Walk views t n (b.height - 1) fork new →
    Chained R (new ++ [b]) ∧ ∀ c ∈ (new ++ [b]).head?,
      ∀ a ∈ (blocks.filter (·.height ≤ fork)).getLast?, R a.hash c.hash

theorem Synced.handleReorg (h : Synced R t blocks)
    (hnew : newHeight ≤ t.tipHeight → ∃ y, t.hashAtHeight newHeight = some y)
    (hjoins : Joins R views t blocks n ⟨newHeight, newTipHash⟩) :
    Kept R blocks (t.handleReorg views n newHeight newTipHash).1
      (t.handleReorg views n newHeight newTipHash).2 := by
  unfold TipPoller.handleReorg
  split
  · exact h.kept
  next fork connected n' hback =>
  split
  · exact h.kept
  obtain ⟨new, hwalk, rfl⟩ := walkBack_spec (by omega) hback
  obtain ⟨lo, -, hwindow⟩ := h.tracks.window
  have htip : lo < t.tipHeight := ((hwindow _).1 ⟨_, h.tip⟩).1
  have hlo : lo ≤ fork := by
    refine hwalk.window htip hwindow fun hle => ?_
    rw [Int.sub_add_cancel] at hle ⊢
    exact ((hwindow _).1 (hnew hle)).1
  have htracks := h.forget hwalk.fork_le.1 hlo hwindow
  obtain ⟨hchain, hhead⟩ := hjoins fork new hwalk
  have hheights := hwalk.consecutive newTipHash newTipHash
  rw [Int.sub_add_cancel] at hheights
  have hfirst : ∀ b ∈ (new ++ [TipBlock.mk newHeight newTipHash]).head?,
      b.height = fork + 1 := fun b hb => ((isChain_cons.1 hheights).1 b hb).1
  obtain ⟨horderly, hsynced⟩ := htracks.tips hchain
    (fun b hb => ⟨hfirst b hb, hhead b hb⟩) (by simp)
  exact ⟨⟨h.tracks.chained, h.disconnected_eq hlo hwindow, prefix_rfl, horderly⟩, hsynced⟩

/-- What is known when a poll has noticed something. -/
structure Noted (R : Hash → Hash → Prop) (views : ℕ → View) (blocks : List TipBlock)
    (d : Noticed) : Prop where
  kept : Kept R blocks d.poller d.events
  known : ∀ n h x, d.reorg = some (n, h, x) →
    h ≤ d.poller.tipHeight → ∃ y, d.poller.hashAtHeight h = some y
  told : ∀ n h x, d.reorg = some (n, h, x) → (views n).getBlockHashByHeight h = some x

theorem Synced.idle (h : Synced R t blocks) : Noted R views blocks t.idle :=
  ⟨h.kept, fun _ _ _ he => (nomatch he), fun _ _ _ he => (nomatch he)⟩

theorem Synced.other (h : Synced R t blocks)
    (hknown : newHeight ≤ t.tipHeight → ∃ y, t.hashAtHeight newHeight = some y)
    (htold : (views n).getBlockHashByHeight newHeight = some newTipHash) :
    Noted R views blocks ⟨t, [], some (n, newHeight, newTipHash)⟩ := by
  refine ⟨h.kept, fun m k x he => ?_, fun m k x he => ?_⟩
  · cases he
    exact hknown
  · cases he
    exact htold

variable (hR : ∀ a b, prev b = a → R a b) (h : Synced R t blocks)
include hR h

theorem Synced.advanceFrom {k : ℕ}
    (hk : t.tipHeight = newHeight - k) :
    Noted R views blocks (TipPoller.advanceFrom prev views newHeight k n t.tipHash t) := by
  induction k generalizing n t blocks with
  | zero => exact h.idle
  | succ k ih =>
    unfold TipPoller.advanceFrom
    dsimp only
    split
    · exact h.idle
    next hash hhash =>
    split
    · exact h.idle
    split
    · exact h.idle
    split
    · split
      · exact h.idle
      · next tipHash htold => exact h.other (by omega) htold
    · next hprev =>
      have hheight : newHeight - k = t.tipHeight + 1 := by omega
      have hlink : ∀ a ∈ blocks.getLast?, R a.hash hash := by
        intro a ha
        rw [h.last] at ha
        cases ha
        exact hR _ _ (not_not.1 hprev)
      have hnext := h.tracks.broadcast (b := ⟨newHeight - k, hash⟩) hheight hlink
      obtain ⟨hkept, hknown, htold⟩ := ih (n := n + 3) hnext rfl
      exact ⟨⟨⟨h.tracks.chained, hkept.1⟩, hkept.2⟩, hknown, htold⟩

theorem Synced.notice : Noted R views blocks (t.notice prev views) := by
  unfold TipPoller.notice
  split
  · exact h.idle
  split
  · split
    · exact h.idle
    next htold =>
    split
    · exact h.idle
    next hcached =>
    split
    · exact h.idle
    · exact h.other (fun _ => ⟨_, hcached⟩) htold
  · split
    · next heq =>
      split
      · exact h.idle
      next htold =>
      split
      · exact h.idle
      · exact h.other (fun _ => ⟨_, heq ▸ h.tip⟩) htold
    · unfold TipPoller.advance
      rw [h.tip]
      exact h.advanceFrom hR (by omega)

theorem Synced.poll
    (hjoins : ∀ n k x, (t.notice prev views).reorg = some (n, k, x) →
      Joins R views (t.notice prev views).poller
        ((t.notice prev views).events.foldl applyEvent blocks) (n + 1) ⟨k, x⟩) :
    Kept R blocks (t.poll prev views).1 (t.poll prev views).2 := by
  have hnoted : Noted R views blocks (t.notice prev views) := h.notice hR
  unfold TipPoller.poll
  dsimp only
  split
  · exact hnoted.kept
  · next n k x hreorg =>
    refine hnoted.kept.append ?_
    exact hnoted.kept.2.handleReorg (hnoted.known n k x hreorg) (hjoins n k x hreorg)

omit hR h

theorem joins_true (b : TipBlock) : Joins (fun _ _ => True) views t blocks n b := by
  intro fork new hwalk
  have hchain := hwalk.consecutive b.hash b.hash
  rw [Int.sub_add_cancel] at hchain
  exact ⟨(isChain_cons.1 hchain).2, fun _ _ _ _ => trivial⟩

/-- From the moment a poll is told the tip of another chain, the explorer stays on one chain, and
that chain meets what the poller has kept below the tip. -/
def Settled (prev : Hash → Hash) (t : TipPoller) (views : ℕ → View) : Prop :=
  ∀ n k x, (t.notice prev views).reorg = some (n, k, x) →
    ∃ c : Chain prev, (∀ m, n ≤ m → (views m).TrueOf c) ∧
      ∃ j y, j < k ∧ (t.notice prev views).poller.hashAtHeight j = some y ∧ c.hashAt j = some y

/-- The blocks of a settled walk are linked to the block at the fork. -/
theorem Synced.joins (h : Synced (fun a b => prev b = a) t blocks) {b : TipBlock} {c : Chain prev}
    (hc : ∀ m, n ≤ m → (views m).TrueOf c) (hb : c.hashAt b.height = some b.hash)
    {j : ℤ} {y : Hash} (hj : j < b.height) (hkept : t.hashAtHeight j = some y)
    (hcj : c.hashAt j = some y) :
    Joins (fun a b => prev b = a) views t blocks (n + 1) b := by
  intro fork new hwalk
  have hc' : ∀ m, n + 1 ≤ m → (views m).TrueOf c := fun m hm => hc m (by omega)
  obtain ⟨lo, -, hwindow⟩ := h.tracks.window
  obtain ⟨hlo, hjtip⟩ := (hwindow j).1 ⟨y, hkept⟩
  have hdeep := hwalk.not_deep hc' hkept hcj hjtip
    (fun k hk hktip => (hwindow k).2 ⟨by omega, hktip⟩) (by omega)
  obtain ⟨z, hz, hchain⟩ :=
    (hwalk.linked c hc' (by rw [Int.sub_add_cancel]; exact hb)).resolve_left hdeep
  rw [Int.sub_add_cancel] at hchain
  refine ⟨(isChain_cons.1 hchain).2, fun d hd a ha => ?_⟩
  -- the last block that is left is the one at the fork
  have hfork := h.tracks.chained.getLast_filter h.tracks.ends hwalk.fork_le.1 ha
  have hmem := (mem_filter.1 (mem_of_getLast? ha)).1
  obtain rfl := h.tracks.chained.eq_of_height hmem (h.tracks.mem fork z hz) hfork
  exact ((isChain_cons.1 hchain).1 d hd).2

theorem Synced.poll_settled (h : Synced (fun a b => prev b = a) t blocks)
    (hsettled : Settled prev t views) :
    Kept (fun a b => prev b = a) blocks (t.poll prev views).1 (t.poll prev views).2 := by
  have hnoted : Noted (fun a b => prev b = a) views blocks (t.notice prev views) :=
    h.notice fun _ _ hab => hab
  refine h.poll (fun _ _ hab => hab) fun n k x hreorg => ?_
  obtain ⟨c, hc, j, y, hj, hkept, hcj⟩ := hsettled n k x hreorg
  exact hnoted.kept.2.joins hc (hc n (le_refl n) k x (hnoted.told n k x hreorg)) hj hkept hcj

end

/-! ## The history at the start -/

def TipPoller.history (t : TipPoller) : List TipBlock :=
  t.recentHashes.entries.map fun e => ⟨e.1, e.2⟩

section

variable {R : Hash → Hash → Prop} {prev : Hash → Hash} {hash : Hash}

/-- The history is a list of neighbours from the height `h + 1` to the tip. -/
structure Seeded (R : Hash → Hash → Prop) (t : TipPoller) (h : ℤ) (hash : Hash) : Prop where
  chained : Chained R t.history
  first : ∃ rest, t.recentHashes.entries = (h + 1, hash) :: rest
  last : t.history.getLast? = some ⟨t.tipHeight, t.tipHash⟩
  window : ∀ k, (∃ x, t.hashAtHeight k = some x) ↔ h < k ∧ k ≤ t.tipHeight

theorem Seeded.synced (hs : Seeded R t h hash) : Synced R t t.history := by
  have hmem : ∀ k x, t.hashAtHeight k = some x ↔ ⟨k, x⟩ ∈ t.history := by
    intro k x
    unfold TipPoller.hashAtHeight TipPoller.history
    rw [KeyMap.lookup_eq_some, List.mem_map]
    constructor
    · exact fun hx => ⟨(k, x), hx, rfl⟩
    · rintro ⟨⟨k', x'⟩, hx, heq⟩
      obtain ⟨rfl, rfl⟩ := TipBlock.mk.inj heq
      exact hx
  have htip : t.hashAtHeight t.tipHeight = some t.tipHash := (hmem _ _).2 (mem_of_getLast? hs.last)
  refine ⟨⟨hs.chained, fun b hb => ?_, ⟨h, ?_, hs.window⟩, fun k x => (hmem k x).1⟩, hs.last, htip⟩
  · rw [hs.last] at hb
    cases hb
    rfl
  · exact le_of_lt ((hs.window _).1 ⟨_, htip⟩).1

variable (hR : ∀ a b, prev b = a → R a b)
include hR

theorem Seeded.record (hs : Seeded R t h hash) :
    Seeded R (t.recordHash h (prev hash)) (h - 1) (prev hash) := by
  have hpos := t.historySize_pos
  obtain ⟨rest, hfirst⟩ := hs.first
  have hentries : (t.recordHash h (prev hash)).recentHashes.entries =
      (h, prev hash) :: t.recentHashes.entries := by
    have hinsert : (t.recentHashes.insert h (prev hash)).entries =
        (h, prev hash) :: t.recentHashes.entries := by
      change KeyMap.insertEntry h (prev hash) t.recentHashes.entries = _
      rw [hfirst]
      exact if_pos (by omega)
    change filter _ (t.recentHashes.insert h (prev hash)).entries = _
    rw [hinsert, filter_eq_self]
    intro e he
    rw [decide_eq_true_eq]
    rcases mem_cons.1 he with rfl | he
    · omega
    · have := ((hs.window e.1).1 ⟨e.2, KeyMap.lookup_eq_some.2 he⟩).1
      omega
  have hhistory : (t.recordHash h (prev hash)).history = ⟨h, prev hash⟩ :: t.history := by
    unfold TipPoller.history
    rw [hentries, map_cons]
  constructor
  · rw [hhistory]
    refine isChain_cons.2 ⟨fun b hb => ?_, hs.chained⟩
    rw [TipPoller.history, hfirst] at hb
    cases hb
    exact ⟨rfl, hR _ _ rfl⟩
  · rw [hentries, Int.sub_add_cancel]
    exact ⟨_, rfl⟩
  · rw [hhistory, getLast?_cons, hs.last]
    rfl
  · intro k
    have hk := hs.window k
    simp only [TipPoller.hashAtHeight, KeyMap.lookup_eq_some] at hk ⊢
    rw [hentries]
    simp only [mem_cons, Prod.mk.injEq, exists_or, hk]
    have hself : (∃ x, k = h ∧ x = prev hash) ↔ k = h := by simp
    have htip : h < t.tipHeight := by
      have hmem := mem_of_getLast? hs.last
      obtain ⟨e, he, heq⟩ := mem_map.1 hmem
      obtain ⟨hheight, -⟩ := TipBlock.mk.inj heq
      have := ((hs.window e.1).1 ⟨e.2, KeyMap.lookup_eq_some.2 he⟩).1
      omega
    rw [hself]
    change _ ↔ _ ∧ k ≤ t.tipHeight
    omega

theorem Seeded.seed (hs : Seeded R t h hash) :
    ∃ h' hash', Seeded R (TipPoller.seedHashHistory prev lowest k h hash t) h' hash' := by
  induction k generalizing t h hash with
  | zero => exact ⟨h, hash, hs⟩
  | succ k ih =>
    unfold TipPoller.seedHashHistory
    split
    · exact ih (hs.record hR)
    · exact ⟨h, hash, hs⟩

theorem start_synced (historySize height : ℤ) (hash : Hash) :
    Synced R (TipPoller.start prev historySize height hash)
      (TipPoller.start prev historySize height hash).history := by
  have hpos := historySizeOf_pos historySize
  let t : TipPoller := ⟨historySizeOf historySize, hpos, height, hash, .empty⟩
  have hentries : (t.recordHash height hash).recentHashes.entries = [(height, hash)] := by
    change filter (fun e => decide (height - (historySizeOf historySize : ℤ) < e.1))
      [(height, hash)] = _
    rw [filter_cons_of_pos (by rw [decide_eq_true_eq]; omega), filter_nil]
  have hseeded : Seeded R (t.recordHash height hash) (height - 1) hash := by
    constructor
    · rw [TipPoller.history, hentries]
      exact isChain_singleton _
    · rw [hentries, Int.sub_add_cancel]
      exact ⟨[], rfl⟩
    · rw [TipPoller.history, hentries]
      rfl
    · intro k
      simp only [TipPoller.hashAtHeight, KeyMap.lookup_eq_some, hentries, mem_singleton,
        Prod.mk.injEq]
      change _ ↔ _ ∧ k ≤ height
      constructor
      · rintro ⟨x, rfl, -⟩
        omega
      · intro hk
        exact ⟨hash, by omega, rfl⟩
  obtain ⟨h', hash', hend⟩ := hseeded.seed hR
  exact hend.synced

omit hR

/-! ## Every run -/

def AllSettled (prev : Hash → Hash) : TipPoller → List (ℕ → View) → Prop
  | _, [] => True
  | t, views :: polls => Settled prev t views ∧ AllSettled prev (t.poll prev views).1 polls

theorem Synced.stream (h : Synced (fun _ _ => True) t blocks) :
    Orderly (Chained fun _ _ => True) blocks (t.stream prev polls) := by
  induction polls generalizing t blocks with
  | nil => exact h.tracks.chained
  | cons views polls ih =>
    have hkept : Kept (fun _ _ => True) blocks (t.poll prev views).1 (t.poll prev views).2 :=
      h.poll (fun _ _ _ => trivial) fun _ _ _ _ => joins_true _
    exact hkept.1.append (ih hkept.2)

theorem Synced.stream_settled (h : Synced (fun a b => prev b = a) t blocks)
    (hsettled : AllSettled prev t polls) :
    Orderly (Chained fun a b => prev b = a) blocks (t.stream prev polls) := by
  induction polls generalizing t blocks with
  | nil => exact h.tracks.chained
  | cons views polls ih =>
    have hkept := h.poll_settled hsettled.1
    exact hkept.1.append (ih hkept.2 hsettled.2)

end

/-- Folding the stream gives consecutive heights. The blocks are linked as long as the explorer
stays on one chain while the poller walks back on it, and that chain meets what the poller has kept.
-/
theorem stream_is_chain (prev : Hash → Hash) (historySize height : ℤ) (hash : Hash)
    (polls : List (ℕ → View)) :
    let t := TipPoller.start prev historySize height hash
    Orderly (Chained fun _ _ => True) t.history (t.stream prev polls) ∧
      (AllSettled prev t polls →
        Orderly (Chained fun a b => prev b = a) t.history (t.stream prev polls)) := by
  refine ⟨(start_synced (fun _ _ _ => trivial) historySize height hash).stream, fun hsettled => ?_⟩
  exact (start_synced (fun _ _ hab => hab) historySize height hash).stream_settled hsettled

/-- A block by its branch and height; the branches meet at the height zero. -/
def forkBlock (branch height : UInt8) : Hash :=
  .lastByte 31 (if height = 0 then 1 else branch * 16 + height)

/-- The previous block on the branches one and two, up to the height two. -/
def forkPrev (x : Hash) : Hash :=
  if x = forkBlock 1 2 then forkBlock 1 1
  else if x = forkBlock 2 2 then forkBlock 2 1
  else forkBlock 0 0

def forkHashAt (branch : UInt8) (h : ℤ) : Option Hash :=
  if h = 0 then some (forkBlock branch 0)
  else if h = 1 then some (forkBlock branch 1)
  else if h = 2 then some (forkBlock branch 2)
  else none

theorem forkHashAt_linked (hb : branch = 1 ∨ branch = 2) (h : ℤ) (y : Hash) (hpos : 0 ≤ h)
    (hy : forkHashAt branch (h + 1) = some y) : forkHashAt branch h = some (forkPrev y) := by
  have hle : h = 0 ∨ h = 1 := by
    by_contra hne
    rw [forkHashAt, if_neg (by omega), if_neg (by omega), if_neg (by omega)] at hy
    cases hy
  rcases hb with rfl | rfl <;> rcases hle with rfl | rfl <;>
    (obtain rfl := some.inj hy; decide +kernel)

def forkChain (branch : UInt8) (hb : branch = 1 ∨ branch = 2) : Chain forkPrev :=
  ⟨forkHashAt branch, forkHashAt_linked hb⟩

def forkView (branch : UInt8) : View := ⟨some 2, forkHashAt branch, fun _ => true, fun _ => true⟩

theorem forkView_trueOf (hb : branch = 1 ∨ branch = 2) :
    (forkView branch).TrueOf (forkChain branch hb) := fun _ _ h => h

/-- The explorer changes its branch between two polls. -/
def forkPolls : List (ℕ → View) := [fun _ => forkView 1, fun _ => forkView 2]

theorem stream_is_chain_fork :
    let t := TipPoller.start forkPrev 3 1 (forkBlock 1 1)
    t.stream forkPrev forkPolls = [.tip ⟨2, forkBlock 1 2⟩,
      .reorg ⟨0, [forkBlock 1 1, forkBlock 1 2], [⟨1, forkBlock 2 1⟩, ⟨2, forkBlock 2 2⟩]⟩,
      .tip ⟨1, forkBlock 2 1⟩, .tip ⟨2, forkBlock 2 2⟩] ∧
    Orderly (Chained fun a b => forkPrev b = a) t.history (t.stream forkPrev forkPolls) := by
  intro t
  refine ⟨by decide +kernel, (stream_is_chain forkPrev 3 1 (forkBlock 1 1) forkPolls).2 ?_⟩
  have hfirst : (t.notice forkPrev fun _ => forkView 1).reorg = none := by decide +kernel
  have hsecond : ((t.poll forkPrev fun _ => forkView 1).1.notice forkPrev fun _ => forkView 2).reorg =
      some (1, 2, forkBlock 2 2) := by decide +kernel
  refine ⟨fun n k x h => (nomatch hfirst.symm.trans h), fun n k x h => ?_, trivial⟩
  cases hsecond.symm.trans h
  exact ⟨forkChain 2 (.inr rfl), fun _ _ => forkView_trueOf (.inr rfl), 0, forkBlock 2 0,
    by decide, by decide +kernel, rfl⟩

/-- A poller that keeps one hash takes the height below it for the fork, and reports a block that
does not go on from the one before it. -/
theorem stream_breaks_below_history :
    let t := TipPoller.start forkPrev 1 1 (forkBlock 1 1)
    (∀ views ∈ forkPolls, ∀ n, ∃ c : Chain forkPrev, (views n).TrueOf c) ∧
      ¬ Orderly (Chained fun a b => forkPrev b = a) t.history (t.stream forkPrev forkPolls) := by
  intro t
  constructor
  · intro views hviews n
    rcases mem_cons.1 hviews with rfl | hviews
    · exact ⟨_, forkView_trueOf (.inl rfl)⟩
    · obtain rfl := mem_singleton.1 hviews
      exact ⟨_, forkView_trueOf (.inr rfl)⟩
  · have hhistory : t.history = [⟨1, forkBlock 1 1⟩] := by decide +kernel
    have hstream : t.stream forkPrev forkPolls = [.tip ⟨2, forkBlock 1 2⟩,
        .reorg ⟨1, [forkBlock 1 2], [⟨2, forkBlock 2 2⟩]⟩, .tip ⟨2, forkBlock 2 2⟩] := by
      decide +kernel
    rw [hhistory, hstream]
    rintro ⟨-, -, -, -, -, hchain⟩
    have hlink : forkPrev (forkBlock 2 2) = forkBlock 1 1 := (isChain_pair.1 hchain).2
    exact absurd hlink (by decide +kernel)

end Wavelength.Lwwallet
