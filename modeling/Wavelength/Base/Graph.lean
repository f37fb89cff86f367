import Mathlib.Data.List.Basic
import Mathlib.Data.List.Count
import Mathlib.Data.List.Nodup
import Mathlib.Data.List.Perm.Subperm
import Mathlib.Data.Set.Finite.List
import Mathlib.Logic.Relation
import Mathlib.Order.WellFounded
import Mathlib.Tactic.Common

/-! # Walks and layers of finite graphs

The breadth-first walk collects what is reachable from a node. The layering peels off, round by
round, the nodes whose predecessors have all been peeled off before; what is left over contains a
cycle.
-/

namespace Wavelength.Graph

open List

variable {α : Type*} [DecidableEq α]

/-! ## The breadth-first walk -/

/-- Queue and mark every node of a list that is not marked yet. -/
def enqueueNew : List α → List α × List α → List α × List α
  | [], st => st
  | y :: ys, (queue, seen) =>
    if y ∈ seen then enqueueNew ys (queue, seen) else enqueueNew ys (queue ++ [y], y :: seen)

def gather (next : α → List α) : ℕ → List α → List α → List α
  | 0, _, seen => seen
  | _ + 1, [], seen => seen
  | fuel + 1, x :: queue, seen =>
    let st := enqueueNew (next x) (queue, seen)
    gather next fuel st.1 st.2

structure Enqueued (ys queue seen queue' seen' : List α) : Prop where
  mem_seen : ∀ {z}, z ∈ seen' ↔ z ∈ seen ∨ z ∈ ys
  mem_queue : ∀ {z}, z ∈ queue' ↔ z ∈ queue ∨ z ∈ ys ∧ z ∉ seen
  nodup : seen.Nodup → seen'.Nodup
  length : queue'.length + seen.length = queue.length + seen'.length

theorem enqueueNew_spec (ys queue seen : List α) :
    Enqueued ys queue seen (enqueueNew ys (queue, seen)).1 (enqueueNew ys (queue, seen)).2 := by
  induction ys generalizing queue seen with
  | nil => exact ⟨by simp [enqueueNew], by simp [enqueueNew], id, rfl⟩
  | cons y ys ih =>
    unfold enqueueNew
    split
    · next hy =>
      have h := ih queue seen
      constructor
      · intro z
        rw [h.mem_seen, mem_cons]
        constructor
        · rintro (hz | hz)
          · exact .inl hz
          · exact .inr (.inr hz)
        rintro (hz | rfl | hz)
        · exact .inl hz
        · exact .inl hy
        · exact .inr hz
      · intro z
        rw [h.mem_queue, mem_cons]
        constructor
        · rintro (hz | ⟨hz, hn⟩)
          · exact .inl hz
          · exact .inr ⟨.inr hz, hn⟩
        rintro (hz | ⟨rfl | hz, hn⟩)
        · exact .inl hz
        · exact absurd hy hn
        · exact .inr ⟨hz, hn⟩
      · exact h.nodup
      · exact h.length
    · next hy =>
      have h := ih (queue ++ [y]) (y :: seen)
      constructor
      · intro z
        rw [h.mem_seen, mem_cons, mem_cons, or_assoc, or_left_comm]
      · intro z
        rw [h.mem_queue, mem_append, mem_singleton, mem_cons, mem_cons]
        by_cases hz : z = y
        · subst hz
          simp [hy]
        · simp [hz]
      · exact fun hs => h.nodup (nodup_cons.2 ⟨hy, hs⟩)
      · have hlen := h.length
        simp only [length_append, length_cons, length_nil] at hlen
        omega

/-- Every marked node is reachable, and the successors of one that is no longer queued are
marked. -/
structure Gathering (next : α → List α) (univ : List α) (start : α) (queue seen : List α) :
    Prop where
  mem_start : start ∈ seen
  reach : ∀ x ∈ seen, Relation.ReflTransGen (fun a b => b ∈ next a) start x
  queued : ∀ x ∈ queue, x ∈ seen
  closed : ∀ x ∈ seen, x ∈ queue ∨ ∀ y ∈ next x, y ∈ seen
  nodup : seen.Nodup
  subset : seen ⊆ univ

theorem mem_gather {next : α → List α} (hnext : ∀ x ∈ univ, ∀ y ∈ next x, y ∈ univ)
    (h : Gathering next univ start queue seen)
    (hfuel : univ.length + queue.length ≤ fuel + seen.length) :
    x ∈ gather next fuel queue seen ↔ Relation.ReflTransGen (fun a b => b ∈ next a) start x := by
  have hlen : ∀ {s : List α}, s.Nodup → s ⊆ univ → s.length ≤ univ.length :=
    fun hn hs => (hn.subperm hs).length_le
  -- With an empty queue the marked nodes are closed under successors.
  have hdone : ∀ {seen : List α}, Gathering next univ start [] seen →
      (x ∈ seen ↔ Relation.ReflTransGen (fun a b => b ∈ next a) start x) := by
    intro seen h
    refine ⟨h.reach x, fun hx => ?_⟩
    induction hx with
    | refl => exact h.mem_start
    | tail _ hstep ih => exact (h.closed _ ih).elim (fun hq => nomatch hq) fun hn => hn _ hstep
  induction fuel generalizing queue seen with
  | zero =>
    have hle := hlen h.nodup h.subset
    have hq : queue = [] := eq_nil_of_length_eq_zero (by omega)
    subst hq
    exact hdone h
  | succ fuel ih =>
    cases queue with
    | nil => exact hdone h
    | cons q queue =>
      have he := enqueueNew_spec (next q) queue seen
      have hq := h.queued q mem_cons_self
      refine ih ?_ ?_
      · constructor
        · exact he.mem_seen.2 (.inl h.mem_start)
        · intro y hy
          rcases he.mem_seen.1 hy with hy | hy
          · exact h.reach y hy
          · exact (h.reach q hq).tail hy
        · intro y hy
          rcases he.mem_queue.1 hy with hy | ⟨hy, -⟩
          · exact he.mem_seen.2 (.inl (h.queued y (mem_cons_of_mem _ hy)))
          · exact he.mem_seen.2 (.inr hy)
        · intro y hy
          by_cases hys : y ∈ seen
          · rcases h.closed y hys with hyq | hyn
            · rcases mem_cons.1 hyq with rfl | hyq
              · exact .inr fun z hz => he.mem_seen.2 (.inr hz)
              · exact .inl (he.mem_queue.2 (.inl hyq))
            · exact .inr fun z hz => he.mem_seen.2 (.inl (hyn z hz))
          · exact .inl (he.mem_queue.2 (.inr ⟨(he.mem_seen.1 hy).resolve_left hys, hys⟩))
        · exact he.nodup h.nodup
        · intro y hy
          rcases he.mem_seen.1 hy with hy | hy
          · exact h.subset hy
          · exact hnext q (h.subset hq) y hy
      · have hlen' := he.length
        simp only [length_cons] at hfuel
        omega

theorem mem_gather_start {next : α → List α} {univ : List α}
    (hnext : ∀ x ∈ univ, ∀ y ∈ next x, y ∈ univ) (hstart : start ∈ univ) {x : α} :
    x ∈ gather next univ.length [start] [start] ↔
      Relation.ReflTransGen (fun a b => b ∈ next a) start x := by
  refine mem_gather hnext ?_ (by simp)
  constructor
  · simp
  · intro y hy
    obtain rfl := mem_singleton.1 hy
    exact .refl
  · simp
  · simp
  · simp
  · simpa using hstart

/-! ## The depth-first search -/

/-- Search from one node after another until a path is found; what was visited is handed on. -/
def searchEach (search : α → List α → Option (List α) × List α) :
    List α → List α → Option (List α) × List α
  | [], seen => (none, seen)
  | y :: ys, seen =>
    match search y seen with
    | (some path, seen) => (some path, seen)
    | (none, seen) => searchEach search ys seen

/-- Extend the path that ends in the current node to one that ends in the goal. -/
def search (next : α → List α) (goal : α) : ℕ → α → List α → List α → Option (List α) × List α
  | 0, _, _, seen => (none, seen)
  | fuel + 1, cur, path, seen =>
    if cur = goal then (some path, seen)
    else if cur ∈ seen then (none, seen)
    else searchEach (fun y => search next goal fuel y (path ++ [y])) (next cur) (cur :: seen)

section Search

variable {next : α → List α} {goal : α}

omit [DecidableEq α] in
theorem searchEach_eq_some {f : α → List α → Option (List α) × List α}
    (h : (searchEach f ys seen).1 = some p) : ∃ y ∈ ys, ∃ seen, (f y seen).1 = some p := by
  fun_induction searchEach f ys seen with
  | case1 => cases h
  | case2 y ys seen path seen' hf => exact ⟨y, mem_cons_self, seen, by rw [hf]; exact h⟩
  | case3 y ys seen seen' hf ih =>
    obtain ⟨z, hz, hp⟩ := ih h
    exact ⟨z, mem_cons_of_mem _ hz, hp⟩

theorem search_eq_some (h : (search next goal fuel cur path seen).1 = some p) :
    ∃ q, p = path ++ q ∧ (cur :: q).IsChain (fun a b => b ∈ next a) ∧
      (cur :: q).getLast? = some goal := by
  induction fuel generalizing cur path seen with
  | zero => cases h
  | succ fuel ih =>
    unfold search at h
    split at h
    · next hcur =>
      cases h
      exact ⟨[], by simp, by simp, by simp [hcur]⟩
    split at h
    · cases h
    obtain ⟨y, hy, seen', hp⟩ := searchEach_eq_some h
    obtain ⟨q, rfl, hchain, hlast⟩ := ih hp
    exact ⟨y :: q, by simp, isChain_cons_cons.2 ⟨hy, hchain⟩, by simpa using hlast⟩

/-- The goal is not among the nodes that were visited in between, and their successors were
visited. -/
structure Explored (next : α → List α) (goal : α) (seen seen' : List α) : Prop where
  subset : seen ⊆ seen'
  closed : ∀ x ∈ seen', x ∉ seen → x ≠ goal ∧ next x ⊆ seen'

omit [DecidableEq α] in
theorem Explored.trans (h : Explored next goal a b) (h' : Explored next goal b c) :
    Explored next goal a c := by
  refine ⟨Subset.trans h.subset h'.subset, fun x hx hxa => ?_⟩
  by_cases hxb : x ∈ b
  · obtain ⟨hne, hnext⟩ := h.closed x hxb hxa
    exact ⟨hne, Subset.trans hnext h'.subset⟩
  · exact h'.closed x hx hxb

omit [DecidableEq α] in
theorem searchEach_eq_none {f : α → List α → Option (List α) × List α} {base : List α}
    (hf : ∀ y ∈ ys, ∀ seen seen', base ⊆ seen → f y seen = (none, seen') →
      Explored next goal seen seen' ∧ y ∈ seen')
    (hbase : base ⊆ seen) (h : searchEach f ys seen = (none, seen')) :
    Explored next goal seen seen' ∧ ys ⊆ seen' := by
  fun_induction searchEach f ys seen with
  | case1 seen =>
    cases h
    exact ⟨⟨Subset.refl _, fun x hx hn => absurd hx hn⟩, nil_subset _⟩
  | case2 => cases h
  | case3 y ys seen seen₁ hy ih =>
    rw [forall_mem_cons] at hf
    obtain ⟨hexp, hmem⟩ := hf.1 _ _ hbase hy
    obtain ⟨hrest, hys⟩ := ih hf.2 (Subset.trans hbase hexp.subset) h
    exact ⟨hexp.trans hrest, cons_subset.2 ⟨hrest.subset hmem, hys⟩⟩

theorem search_eq_none {univ : List α} (hnext : ∀ x ∈ univ, next x ⊆ univ) (hcur : cur ∈ univ)
    (hfuel : ∀ s : List α, s.Nodup → s ⊆ univ → s.Disjoint seen → s.length < fuel)
    (h : search next goal fuel cur path seen = (none, seen')) :
    Explored next goal seen seen' ∧ cur ∈ seen' := by
  induction fuel generalizing cur path seen seen' with
  | zero => exact absurd (hfuel [] nodup_nil (nil_subset _) (disjoint_nil_left _)) (Nat.not_lt_zero _)
  | succ fuel ih =>
    unfold search at h
    split at h
    · cases h
    next hgoal =>
    split at h
    · next hseen =>
      cases h
      exact ⟨⟨Subset.refl _, fun x hx hn => absurd hx hn⟩, hseen⟩
    next hseen =>
    -- With the current node, the nodes that are left after it were left before it.
    have hless : ∀ {seen'}, cur :: seen ⊆ seen' →
        ∀ s : List α, s.Nodup → s ⊆ univ → s.Disjoint seen' → s.length < fuel := by
      intro seen' hsub s hnodup hs hdisj
      obtain ⟨hc, hd⟩ := disjoint_cons_right.1 (disjoint_of_subset_right hsub hdisj)
      have hlt := hfuel (cur :: s) (nodup_cons.2 ⟨hc, hnodup⟩) (cons_subset.2 ⟨hcur, hs⟩)
        (disjoint_cons_left.2 ⟨hseen, hd⟩)
      exact Nat.lt_of_succ_lt_succ hlt
    obtain ⟨hexp, hys⟩ := searchEach_eq_none (fun y hy seen₁ seen₂ hsub hf =>
      ih (hnext cur hcur hy) (hless hsub) hf) (Subset.refl _) h
    have hmem := hexp.subset mem_cons_self
    refine ⟨⟨fun x hx => hexp.subset (mem_cons_of_mem _ hx), fun x hx hn => ?_⟩, hmem⟩
    by_cases hxc : x = cur
    · subst hxc
      exact ⟨hgoal, hys⟩
    · exact hexp.closed x hx (by simp [hxc, hn])

/-- From the start, the search finds a path exactly when there is one. -/
theorem search_isSome_iff (univ : List α) (hnext : ∀ x ∈ univ, next x ⊆ univ)
    (hstart : start ∈ univ) (hfuel : univ.length < fuel) :
    (∃ p, (search next goal fuel start path []).1 = some p) ↔
      Relation.ReflTransGen (fun a b => b ∈ next a) start goal := by
  constructor
  · rintro ⟨p, hp⟩
    obtain ⟨q, -, hchain, hlast⟩ := search_eq_some hp
    exact relationReflTransGen_of_exists_isChain_cons q hchain (getLast_of_getLast?_eq_some hlast)
  · intro hreach
    by_contra hno
    have hnone : search next goal fuel start path [] = (none, (search next goal fuel start path []).2) :=
      Prod.ext (Option.eq_none_iff_forall_ne_some.2 fun p hp => hno ⟨p, hp⟩) rfl
    obtain ⟨hexp, hmem⟩ := search_eq_none hnext hstart
      (fun s hs hsub _ => (hs.subperm hsub).length_le.trans_lt hfuel) hnone
    have hall : ∀ x, Relation.ReflTransGen (fun a b => b ∈ next a) start x →
        x ∈ (search next goal fuel start path []).2 := by
      intro x hx
      induction hx with
      | refl => exact hmem
      | tail _ hstep ih => exact (hexp.closed _ ih not_mem_nil).2 hstep
    exact (hexp.closed goal (hall goal hreach) not_mem_nil).1 rfl

omit [DecidableEq α] in
/-- A graph stays acyclic when an edge is added whose end does not lead to its start. -/
theorem acyclic_of_edge {r r' : α → α → Prop} (hacyc : ∀ x, ¬ Relation.TransGen r x x)
    (hedge : ∀ a b, r' a b → r a b ∨ a = u ∧ b = v) (hno : ¬ Relation.ReflTransGen r v u) (x : α) :
    ¬ Relation.TransGen r' x x := by
  have hsplit : ∀ y, Relation.TransGen r' x y →
      Relation.TransGen r x y ∨ Relation.ReflTransGen r x u ∧ Relation.ReflTransGen r v y := by
    intro y h
    induction h with
    | single h =>
      rcases hedge _ _ h with h | ⟨rfl, rfl⟩
      · exact .inl (.single h)
      · exact .inr ⟨.refl, .refl⟩
    | tail _ h ih =>
      rcases hedge _ _ h with h | ⟨rfl, rfl⟩
      · exact ih.imp (·.tail h) (And.imp_right (·.tail h))
      · exact .inr ⟨ih.elim (·.to_reflTransGen) And.left, .refl⟩
  intro h
  rcases hsplit x h with h | ⟨hxu, hvx⟩
  · exact hacyc x h
  · exact hno (hvx.trans hxu)

end Search

/-! ## Peeling off layers -/

/-- Count down the in-degree of a node, and collect it when that reaches zero. -/
def countDown (st : (α → ℤ) × List α) (y : α) : (α → ℤ) × List α :=
  let deg := Function.update st.1 y (st.1 y - 1)
  (deg, if deg y = 0 ∧ y ∉ st.2 then st.2 ++ [y] else st.2)

/-- The layers that are still to come, where `ready` is the next one. -/
def layersFrom (children : α → List α) (sort : List α → List α) :
    ℕ → (α → ℤ) → List α → List (List α)
  | 0, _, _ => []
  | fuel + 1, deg, ready =>
    if ready = [] then
      []
    else
      let st := (ready.flatMap children).foldl countDown (deg, [])
      ready :: layersFrom children sort fuel st.1 (sort st.2)

theorem foldl_countDown (ys : List α) (deg : α → ℤ) :
    let st := ys.foldl countDown (deg, [])
    (∀ x, st.1 x = deg x - ys.count x) ∧ st.2.Nodup ∧
      ∀ x, x ∈ st.2 ↔ 1 ≤ deg x ∧ deg x ≤ ys.count x := by
  induction ys using reverseRecOn with
  | nil =>
    refine ⟨by simp, by simp, fun x => ?_⟩
    simp only [foldl_nil, not_mem_nil, count_nil, false_iff]
    omega
  | append_singleton ys y ih =>
    simp only [foldl_append, foldl_cons, foldl_nil]
    obtain ⟨hdeg, hnodup, hmem⟩ := ih
    generalize ys.foldl countDown (deg, []) = st at hdeg hnodup hmem
    have hcount : ∀ x, ((ys ++ [y]).count x : ℤ) = ys.count x + if x = y then 1 else 0 := by
      intro x
      rw [count_append, count_singleton]
      by_cases hx : x = y
      · simp [hx]
      · simp [hx, Ne.symm hx]
    refine ⟨fun x => ?_, ?_, fun x => ?_⟩
    · simp only [countDown, Function.update_apply, hcount, hdeg]
      split
      · next hxy =>
        subst hxy
        omega
      · omega
    · simp only [countDown]
      split
      · next h => exact nodup_append_comm.2 (nodup_cons.2 ⟨h.2, hnodup⟩)
      · exact hnodup
    · have hx := hmem x
      rw [hcount]
      simp only [countDown, Function.update_self, hdeg]
      by_cases hxy : x = y
      · subst hxy
        by_cases hin : x ∈ st.2
        · have := hx.1 hin
          simp only [hin, not_true_eq_false, and_false, if_false, if_true, true_iff]
          omega
        have := mt hx.2 hin
        simp only [hin, not_false_eq_true, and_true, if_true]
        split
        · simp only [mem_append, mem_singleton, or_true, true_iff]
          omega
        · simp only [hin, false_iff]
          omega
      · simp only [hxy, if_false, Int.add_zero]
        rw [← hx]
        split
        · simp [hxy]
        · rfl

structure Edges (univ : List α) (parents children : α → List α) : Prop where
  nodup : univ.Nodup
  parents_nodup : ∀ x, (parents x).Nodup
  children_nodup : ∀ x, (children x).Nodup
  parents_mem : ∀ x ∈ univ, ∀ p ∈ parents x, p ∈ univ
  mem_children : ∀ x y, y ∈ children x ↔ y ∈ univ ∧ x ∈ parents y

def InLayer (layers : List (List α)) (i : ℕ) (x : α) : Prop := ∃ l, layers[i]? = some l ∧ x ∈ l

omit [DecidableEq α] in
theorem mem_flatten_iff : x ∈ layers.flatten ↔ ∃ i, InLayer layers i x := by
  rw [mem_flatten]
  constructor
  · rintro ⟨l, hl, hx⟩
    obtain ⟨i, hi⟩ := mem_iff_getElem?.1 hl
    exact ⟨i, l, hi, hx⟩
  · rintro ⟨i, l, hi, hx⟩
    exact ⟨l, mem_of_getElem? hi, hx⟩

omit [DecidableEq α] in
theorem inLayer_append (h : InLayer layers i x) : InLayer (layers ++ rest) i x := by
  obtain ⟨l, hl, hx⟩ := h
  exact ⟨l, List.getElem?_append_left (List.getElem?_eq_some_iff.1 hl).1 ▸ hl, hx⟩

omit [DecidableEq α] in
theorem inLayer_concat :
    InLayer (layers ++ [l]) i x ↔ InLayer layers i x ∨ i = layers.length ∧ x ∈ l := by
  constructor
  · rintro ⟨m, hm, hx⟩
    rcases Nat.lt_or_ge i layers.length with hi | hi
    · rw [getElem?_append_left hi] at hm
      exact .inl ⟨m, hm, hx⟩
    rw [getElem?_append_right hi, getElem?_singleton] at hm
    split at hm
    · cases hm
      exact .inr ⟨by omega, hx⟩
    · cases hm
  · rintro (h | ⟨rfl, hx⟩)
    · exact inLayer_append h
    · exact ⟨l, by simp, hx⟩

/-- Layers in which every node comes right after the last of its parents. -/
structure Peeled (univ : List α) (parents : α → List α) (layers : List (List α)) : Prop where
  nodup : layers.flatten.Nodup
  subset : layers.flatten ⊆ univ
  below : ∀ i x, InLayer layers i x → ∀ p ∈ parents x, ∃ j < i, InLayer layers j p
  tight : ∀ i x, InLayer layers (i + 1) x → ∃ p ∈ parents x, InLayer layers i p

/-- Between two rounds: the in-degrees count the parents that are left, and the next layer is the
nodes that have none. -/
structure Round (univ : List α) (parents : α → List α) (done : List (List α)) (deg : α → ℤ)
    (ready : List α) : Prop where
  peeled : Peeled univ parents done
  degree : ∀ x ∈ univ, deg x = (parents x).countP (· ∉ done.flatten)
  nodup : ready.Nodup
  mem_ready : ∀ x, x ∈ ready ↔ x ∈ univ ∧ x ∉ done.flatten ∧ ∀ p ∈ parents x, p ∈ done.flatten
  last : ∀ x ∈ ready, ∀ i, done.length = i + 1 → ∃ p ∈ parents x, InLayer done i p

section Layers

variable {univ : List α} {parents children : α → List α} {sort : List α → List α}
  {done : List (List α)} {deg : α → ℤ} {ready : List α}

theorem count_flatMap_children (he : Edges univ parents children) (hr : ready.Nodup) (hx : x ∈ univ) :
    (ready.flatMap children).count x = (parents x).countP (· ∈ ready) := by
  have hsum : (ready.flatMap children).count x = ready.countP (· ∈ parents x) := by
    clear hr
    induction ready with
    | nil => simp
    | cons p ready ih =>
      rw [flatMap_cons, count_append, ih, countP_cons]
      have hc : (children p).count x = if p ∈ parents x then 1 else 0 := by
        rw [(he.children_nodup p).count]
        simp [he.mem_children, hx]
      rw [hc]
      simp only [decide_eq_true_eq]
      omega
  rw [hsum, countP_eq_length_filter, countP_eq_length_filter]
  refine Perm.length_eq ?_
  rw [perm_ext_iff_of_nodup (hr.filter _) ((he.parents_nodup x).filter _)]
  intro p
  simp [and_comm]

/-- What is left of the parents is either in the next layer or left after it. -/
theorem countP_not_mem_append {ps l m : List α} (hdisj : ∀ p ∈ m, p ∉ l) :
    ps.countP (· ∉ l) = ps.countP (· ∈ m) + ps.countP (· ∉ l ++ m) := by
  induction ps with
  | nil => simp
  | cons p ps ih =>
    simp only [countP_cons, mem_append, ih]
    by_cases hm : p ∈ m
    · have hl := hdisj p hm
      simp [hm, hl]
      omega
    · by_cases hl : p ∈ l <;> simp [hm, hl]
      omega

theorem Round.next (he : Edges univ parents children) (hsort : ∀ l, (sort l).Perm l)
    (h : Round univ parents done deg ready) :
    Round univ parents (done ++ [ready])
      ((ready.flatMap children).foldl countDown (deg, [])).1
      (sort ((ready.flatMap children).foldl countDown (deg, [])).2) := by
  obtain ⟨hdeg, hnodup, hmem⟩ := foldl_countDown (ready.flatMap children) deg
  generalize (ready.flatMap children).foldl countDown (deg, []) = st at hdeg hnodup hmem ⊢
  have hfl : (done ++ [ready]).flatten = done.flatten ++ ready := by simp
  have hdisj : ∀ p ∈ ready, p ∉ done.flatten := fun p hp => ((h.mem_ready p).1 hp).2.1
  have hsplit : ∀ x ∈ univ, ((parents x).countP (· ∉ done.flatten) : ℤ) =
      (ready.flatMap children).count x + (parents x).countP (· ∉ done.flatten ++ ready) := by
    intro x hx
    rw [count_flatMap_children he h.nodup hx, countP_not_mem_append hdisj]
    push_cast
    rfl
  constructor
  · -- The new layer goes on top of the others.
    constructor
    · rw [hfl, nodup_append']
      exact ⟨h.peeled.nodup, h.nodup, fun p hp hr => hdisj p hr hp⟩
    · rw [hfl]
      intro x hx
      rcases mem_append.1 hx with hx | hx
      · exact h.peeled.subset hx
      · exact ((h.mem_ready x).1 hx).1
    · intro i x hx p hp
      rcases inLayer_concat.1 hx with hx | ⟨hi, hx⟩
      · obtain ⟨j, hj, hpj⟩ := h.peeled.below i x hx p hp
        exact ⟨j, hj, inLayer_append hpj⟩
      obtain ⟨j, hpj⟩ := mem_flatten_iff.1 (((h.mem_ready x).1 hx).2.2 p hp)
      have hj : j < done.length := by
        obtain ⟨l, hl, -⟩ := hpj
        exact (List.getElem?_eq_some_iff.1 hl).1
      exact ⟨j, hi ▸ hj, inLayer_append hpj⟩
    · intro i x hx
      rcases inLayer_concat.1 hx with hx | ⟨hi, hx⟩
      · obtain ⟨p, hp, hpi⟩ := h.peeled.tight i x hx
        exact ⟨p, hp, inLayer_append hpi⟩
      · obtain ⟨p, hp, hpi⟩ := h.last x hx i hi.symm
        exact ⟨p, hp, inLayer_append hpi⟩
  · intro x hx
    rw [hdeg, h.degree x hx, hfl, hsplit x hx]
    omega
  · exact (hsort st.2).nodup_iff.2 hnodup
  · intro x
    rw [(hsort st.2).mem_iff, hmem, hfl]
    constructor
    · rintro ⟨hpos, hle⟩
      have hx : x ∈ univ := by
        have hc : x ∈ ready.flatMap children := count_pos_iff.1 (by omega)
        obtain ⟨p, -, hp⟩ := mem_flatMap.1 hc
        exact ((he.mem_children p x).1 hp).1
      rw [h.degree x hx, hsplit x hx] at hle hpos
      have hzero : (parents x).countP (· ∉ done.flatten ++ ready) = 0 := by omega
      have hall : ∀ p ∈ parents x, p ∈ done.flatten ++ ready := by
        intro p hp
        simpa only [decide_eq_true_eq, not_not] using countP_eq_zero.1 hzero p hp
      refine ⟨hx, ?_, hall⟩
      -- One of its parents is in the layer that was just peeled off.
      obtain ⟨p, hp, hpr⟩ : ∃ p ∈ parents x, p ∈ ready := by
        have hc : x ∈ ready.flatMap children := count_pos_iff.1 (by omega)
        obtain ⟨p, hp, hpx⟩ := mem_flatMap.1 hc
        exact ⟨p, ((he.mem_children p x).1 hpx).2, hp⟩
      intro hx'
      rcases mem_append.1 hx' with hx' | hx'
      · obtain ⟨i, hi⟩ := mem_flatten_iff.1 hx'
        obtain ⟨j, -, hj⟩ := h.peeled.below i x hi p hp
        exact hdisj p hpr (mem_flatten_iff.2 ⟨j, hj⟩)
      · exact hdisj p hpr (((h.mem_ready x).1 hx').2.2 p hp)
    · rintro ⟨hx, hnot, hall⟩
      have hzero : (parents x).countP (· ∉ done.flatten ++ ready) = 0 := by
        rw [countP_eq_zero]
        intro p hp
        simpa only [decide_eq_true_eq, not_not] using hall p hp
      have hpos : 0 < (parents x).countP (· ∉ done.flatten) := by
        rw [countP_pos_iff]
        by_contra hno
        push Not at hno
        refine hnot (mem_append_right _ ((h.mem_ready x).2 ⟨hx, ?_, fun p hp => ?_⟩))
        · exact fun hd => hnot (mem_append_left _ hd)
        · simpa using hno p hp
      rw [h.degree x hx]
      have hs := hsplit x hx
      omega
  · intro x hx i hi
    have hi' : i = done.length := by
      simpa using hi.symm
    rw [(hsort st.2).mem_iff, hmem] at hx
    have hc : x ∈ ready.flatMap children := count_pos_iff.1 (by omega)
    obtain ⟨p, hp, hpx⟩ := mem_flatMap.1 hc
    exact ⟨p, ((he.mem_children p x).1 hpx).2, inLayer_concat.2 (.inr ⟨hi', hp⟩)⟩

theorem Round.maximal (h : Round univ parents done deg []) (hx : x ∈ univ)
    (hp : ∀ p ∈ parents x, p ∈ done.flatten) : x ∈ done.flatten := by
  by_contra hnot
  exact not_mem_nil ((h.mem_ready x).2 ⟨hx, hnot, hp⟩)

/-- The layers that the rounds give, and that no node could be added to them. -/
theorem layersFrom_spec (he : Edges univ parents children) (hsort : ∀ l, (sort l).Perm l)
    (h : Round univ parents done deg ready) (hfuel : univ.length ≤ fuel + done.flatten.length) :
    let layers := done ++ layersFrom children sort fuel deg ready
    Peeled univ parents layers ∧
      ∀ x ∈ univ, (∀ p ∈ parents x, p ∈ layers.flatten) → x ∈ layers.flatten := by
  induction fuel generalizing done deg ready with
  | zero =>
    have hnodup : (done.flatten ++ ready).Nodup := by
      rw [nodup_append']
      exact ⟨h.peeled.nodup, h.nodup, fun p hp hr => ((h.mem_ready p).1 hr).2.1 hp⟩
    have hsub : done.flatten ++ ready ⊆ univ := by
      intro x hx
      rcases mem_append.1 hx with hx | hx
      · exact h.peeled.subset hx
      · exact ((h.mem_ready x).1 hx).1
    have hlen := (hnodup.subperm hsub).length_le
    rw [length_append] at hlen
    have hr : ready = [] := eq_nil_of_length_eq_zero (by omega)
    subst hr
    simp only [layersFrom, append_nil]
    exact ⟨h.peeled, fun x => h.maximal⟩
  | succ fuel ih =>
    by_cases hr : ready = []
    · subst hr
      simp only [layersFrom, if_true, append_nil]
      exact ⟨h.peeled, fun x => h.maximal⟩
    have hpos : 0 < ready.length := length_pos_iff.2 hr
    have hfuel' : univ.length ≤ fuel + (done ++ [ready]).flatten.length := by
      simp only [flatten_append, flatten_singleton, length_append]
      omega
    simpa [layersFrom, hr] using ih (h.next he hsort) hfuel'

theorem ne_nil_of_mem_layersFrom (h : l ∈ layersFrom children sort fuel deg ready) : l ≠ [] := by
  induction fuel generalizing deg ready with
  | zero => cases h
  | succ fuel ih =>
    by_cases hr : ready = []
    · simp [layersFrom, hr] at h
    simp only [layersFrom, hr, if_false, mem_cons] at h
    rcases h with rfl | h
    · exact hr
    · exact ih h

def layering (univ : List α) (parents children : α → List α) (sort : List α → List α) :
    List (List α) :=
  layersFrom children sort univ.length (fun x => (parents x).length)
    (sort (univ.filter (parents · = [])))

theorem layering_spec (he : Edges univ parents children) (hsort : ∀ l, (sort l).Perm l) :
    Peeled univ parents (layering univ parents children sort) ∧
      ∀ x ∈ univ, (∀ p ∈ parents x, p ∈ (layering univ parents children sort).flatten) →
        x ∈ (layering univ parents children sort).flatten := by
  have hround : Round univ parents [] (fun x => (parents x).length)
      (sort (univ.filter (parents · = []))) := by
    constructor
    · exact ⟨by simp, by simp, fun i x hx => by simp [InLayer] at hx,
        fun i x hx => by simp [InLayer] at hx⟩
    · intro x _
      simp
    · exact (hsort _).nodup_iff.2 (he.nodup.filter _)
    · intro x
      rw [(hsort _).mem_iff]
      simp [eq_nil_iff_forall_not_mem]
    · intro x _ i hi
      cases hi
  exact layersFrom_spec he hsort hround (Nat.le_refl _)

end Layers

section Cycles

variable {univ : List α} {parents : α → List α} {layers : List (List α)}

omit [DecidableEq α] in
theorem Peeled.inLayer_unique (h : Peeled univ parents layers) (hi : InLayer layers i x)
    (hj : InLayer layers j x) : i = j := by
  obtain ⟨l, hl, hxl⟩ := hi
  obtain ⟨m, hm, hxm⟩ := hj
  have hdisj := (nodup_flatten.1 h.nodup).2
  have hdisj' : ∀ {i j : ℕ} {l m : List α}, i < j → layers[i]? = some l → layers[j]? = some m →
      l.Disjoint m := by
    intro i j l m hij hl hm
    obtain ⟨hi, rfl⟩ := List.getElem?_eq_some_iff.1 hl
    obtain ⟨hj, rfl⟩ := List.getElem?_eq_some_iff.1 hm
    exact pairwise_iff_getElem.1 hdisj i j hi hj hij
  rcases Nat.lt_trichotomy i j with hij | hij | hij
  · exact (hdisj' hij hl hm hxl hxm).elim
  · exact hij
  · exact (hdisj' hij hm hl hxm hxl).elim

omit [DecidableEq α] in
theorem Peeled.below_trans (h : Peeled univ parents layers) (hx : InLayer layers i x)
    (hxy : Relation.TransGen (fun a b => b ∈ parents a) x y) : ∃ j < i, InLayer layers j y := by
  induction hxy with
  | single hp => exact h.below i x hx _ hp
  | tail _ hp ih =>
    obtain ⟨j, hj, hb⟩ := ih
    obtain ⟨k, hk, hc⟩ := h.below j _ hb _ hp
    exact ⟨k, Nat.lt_trans hk hj, hc⟩

omit [DecidableEq α] in
theorem Peeled.pairwise (h : Peeled univ parents layers) :
    layers.flatten.Pairwise fun a b => b ∉ parents a := by
  have hlt : ∀ {i j : ℕ} {a b : α}, InLayer layers i a → InLayer layers j b → b ∈ parents a →
      j < i := by
    intro i j a b ha hb hp
    obtain ⟨k, hk, hbk⟩ := h.below i a ha b hp
    rwa [h.inLayer_unique hb hbk]
  rw [pairwise_flatten]
  constructor
  · intro l hl
    obtain ⟨i, hi⟩ := mem_iff_getElem?.1 hl
    refine pairwise_of_forall_mem_list fun a ha b hb hp => ?_
    exact absurd (hlt ⟨l, hi, ha⟩ ⟨l, hi, hb⟩ hp) (Nat.lt_irrefl i)
  rw [pairwise_iff_getElem]
  intro i j hi hj hij a ha b hb hp
  have ha' : InLayer layers i a := ⟨_, getElem?_eq_getElem hi, ha⟩
  have hb' : InLayer layers j b := ⟨_, getElem?_eq_getElem hj, hb⟩
  exact absurd (hlt ha' hb' hp) (Nat.lt_asymm hij)

omit [DecidableEq α] in
/-- In the order of the layers, the parents of a node come before it. -/
theorem Peeled.mem_before (h : Peeled univ parents layers) {pre rest : List α} {x y : α}
    (hsplit : layers.flatten = pre ++ x :: rest) (hy : y ∈ parents x) : y ∈ pre := by
  have hpair := h.pairwise
  have hx : x ∈ layers.flatten := by
    rw [hsplit]
    exact mem_append_right _ mem_cons_self
  obtain ⟨i, hi⟩ := mem_flatten_iff.1 hx
  obtain ⟨j, hj, hyj⟩ := h.below i x hi y hy
  have hmem : y ∈ layers.flatten := mem_flatten_iff.2 ⟨j, hyj⟩
  rw [hsplit] at hpair hmem
  rcases mem_append.1 hmem with hpre | hmem
  · exact hpre
  · rcases mem_cons.1 hmem with rfl | hrest
    · exact absurd (h.inLayer_unique hyj hi) (Nat.ne_of_lt hj)
    · exact absurd hy ((pairwise_cons.1 (pairwise_append.1 hpair).2.1).1 y hrest)

omit [DecidableEq α] in
theorem exists_cycle (hmem : ∀ x ∈ univ, ∀ p ∈ parents x, p ∈ univ)
    (hmax : ∀ x ∈ univ, (∀ p ∈ parents x, p ∈ layers.flatten) → x ∈ layers.flatten) (hx : x ∈ univ)
    (hleft : x ∉ layers.flatten) :
    ∃ y ∈ univ, Relation.TransGen (fun a b => b ∈ parents a) y y := by
  by_contra hno
  push Not at hno
  let above (a b : {y // y ∈ univ}) : Prop := Relation.TransGen (fun a b => b ∈ parents a) b.1 a.1
  have : Finite {y // y ∈ univ} := (finite_toSet univ).to_subtype
  have : IsTrans _ above := ⟨fun _ _ _ hab hbc => hbc.trans hab⟩
  have : Std.Irrefl above := ⟨fun a => hno a.1 a.2⟩
  have hwf : WellFounded above := Finite.wellFounded_of_trans_of_irrefl above
  obtain ⟨m, hm, hmin⟩ := hwf.has_min {y | y.1 ∉ layers.flatten} ⟨⟨x, hx⟩, hleft⟩
  refine hm (hmax m.1 m.2 fun p hp => ?_)
  by_contra hpleft
  exact hmin ⟨p, hmem m.1 m.2 p hp⟩ hpleft (.single hp)

end Cycles

end Wavelength.Graph
