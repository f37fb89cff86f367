import Mathlib.Data.List.Basic
import Mathlib.Tactic.Common

/-! # Keyed trees

Trees whose children hang at keys. A walk goes down from the root and hands a state to every child.
What a walk accepts is a condition on the root and on every edge, and the edges of a pruned tree
come from edges of the tree it was cut from.
-/

namespace Wavelength

open List Option

inductive Rose (ι α : Type) where
  | node (label : α) (children : List (ι × Rose ι α))

namespace Rose

variable {ι α β σ τ ε : Type} {cs : List (ι × Rose ι α)} {n : Rose ι α} {ks : List ι} {as : List α}

def label : Rose ι α → α
  | node a _ => a

def children : Rose ι α → List (ι × Rose ι α)
  | node _ cs => cs

@[simp] theorem label_node (a : α) (cs : List (ι × Rose ι α)) : (node a cs).label = a := rfl

@[simp] theorem children_node (a : α) (cs : List (ι × Rose ι α)) : (node a cs).children = cs := rfl

@[elab_as_elim, induction_eliminator]
theorem ind {P : Rose ι α → Prop}
    (node : ∀ a cs, (∀ p ∈ cs, P p.2) → P (node a cs)) (t : Rose ι α) : P t :=
  @Rose.rec ι α P (fun cs => ∀ p ∈ cs, P p.2) (fun p => P p.2) node
    (fun _ h => absurd h not_mem_nil)
    (fun _ _ head tail p hp => by
      rcases mem_cons.1 hp with rfl | hp
      · exact head
      · exact tail p hp)
    (fun _ _ h => h) t

/-! ## Nodes and leaves -/

mutual

def nodes : Rose ι α → List (Rose ι α)
  | node a cs => node a cs :: nodesAll cs

def nodesAll : List (ι × Rose ι α) → List (Rose ι α)
  | [] => []
  | (_, c) :: rest => nodes c ++ nodesAll rest

end

mutual

def leaves : Rose ι α → List (Rose ι α)
  | node a cs => if cs.isEmpty then [node a cs] else leavesAll cs

def leavesAll : List (ι × Rose ι α) → List (Rose ι α)
  | [] => []
  | (_, c) :: rest => leaves c ++ leavesAll rest

end

theorem nodesAll_eq (cs : List (ι × Rose ι α)) : nodesAll cs = cs.flatMap (·.2.nodes) := by
  induction cs with
  | nil => rfl
  | cons p rest ih =>
    rw [nodesAll, ih]
    rfl

theorem leavesAll_eq (cs : List (ι × Rose ι α)) : leavesAll cs = cs.flatMap (·.2.leaves) := by
  induction cs with
  | nil => rfl
  | cons p rest ih =>
    rw [leavesAll, ih]
    rfl

variable {a : α}

theorem mem_nodes_node : n ∈ (node a cs).nodes ↔ n = node a cs ∨ ∃ p ∈ cs, n ∈ p.2.nodes := by
  rw [nodes, nodesAll_eq, mem_cons, mem_flatMap]

theorem forall_nodes_node {R : Rose ι α → Prop} :
    (∀ n ∈ (node a cs).nodes, R n) ↔ R (node a cs) ∧ ∀ p ∈ cs, ∀ n ∈ p.2.nodes, R n := by
  rw [nodes, nodesAll_eq, forall_mem_cons, forall_mem_flatMap]

theorem self_mem_nodes (t : Rose ι α) : t ∈ t.nodes := by
  cases t
  exact mem_nodes_node.2 (.inl rfl)

variable {t : Rose ι α}

theorem mem_nodes_trans (hn : n ∈ t.nodes) (hm : m ∈ n.nodes) : m ∈ t.nodes := by
  induction t with
  | node a cs ih =>
    rcases mem_nodes_node.1 hn with rfl | ⟨p, hp, hn⟩
    · exact hm
    · exact mem_nodes_node.2 (.inr ⟨p, hp, ih p hp hn⟩)

theorem child_mem_nodes (hn : n ∈ t.nodes) (hp : p ∈ n.children) : p.2 ∈ t.nodes := by
  cases n with
  | node a cs => exact mem_nodes_trans hn (mem_nodes_node.2 (.inr ⟨p, hp, self_mem_nodes _⟩))

@[simp] theorem leaves_nil (a : α) : (node a [] : Rose ι α).leaves = [node a []] := rfl

theorem leaves_node (h : cs ≠ []) : (node a cs).leaves = cs.flatMap (·.2.leaves) := by
  rw [leaves, if_neg (by simpa using h), leavesAll_eq]

/-! ## Conditions on all nodes and on all edges -/

def Nodes (P : α → Prop) (t : Rose ι α) : Prop := ∀ n ∈ t.nodes, P n.label

def Edges (E : α → ι → α → Prop) (t : Rose ι α) : Prop :=
  ∀ n ∈ t.nodes, ∀ p ∈ n.children, E n.label p.1 p.2.label

variable {P Q : α → Prop} {E F : α → ι → α → Prop} {t : Rose ι α}

theorem nodes_node : (node a cs).Nodes P ↔ P a ∧ ∀ p ∈ cs, p.2.Nodes P := forall_nodes_node

theorem edges_node : (node a cs).Edges E ↔ ∀ p ∈ cs, E a p.1 p.2.label ∧ p.2.Edges E :=
  forall_nodes_node.trans forall₂_and.symm

/-- A condition on every node and the labels of its children. -/
def Locally (B : α → List α → Prop) (t : Rose ι α) : Prop :=
  ∀ n ∈ t.nodes, B n.label (n.children.map (·.2.label))

theorem locally_node {B : α → List α → Prop} :
    (node a cs).Locally B ↔ B a (cs.map (·.2.label)) ∧ ∀ p ∈ cs, p.2.Locally B :=
  forall_nodes_node

theorem nodes_iff_edges : t.Nodes P ↔ P t.label ∧ t.Edges fun _ _ b => P b := by
  induction t with
  | node a cs ih =>
    rw [nodes_node, edges_node, label_node]
    refine and_congr_right fun _ => forall₂_congr fun p hp => ?_
    exact ih p hp

theorem Nodes.imp (h : t.Nodes P) (hPQ : ∀ a, P a → Q a) : t.Nodes Q := fun n hn => hPQ _ (h n hn)

theorem Edges.imp (h : t.Edges E) (hP : t.Nodes P)
    (hEF : ∀ a i b, P a → P b → E a i b → F a i b) : t.Edges F :=
  fun n hn p hp => hEF _ _ _ (hP n hn) (hP p.2 (child_mem_nodes hn hp)) (h n hn p hp)

/-! ## Trails -/

/-- The keys and the labels on the way from the root down to a subtree. -/
inductive Trail : Rose ι α → List ι → List α → Rose ι α → Prop where
  | root (t : Rose ι α) : Trail t [] [t.label] t
  | step {a : α} {cs : List (ι × Rose ι α)} {i : ι} {c n : Rose ι α} {ks : List ι} {as : List α}
      (child : (i, c) ∈ cs) (rest : Trail c ks as n) : Trail (node a cs) (i :: ks) (a :: as) n

theorem Trail.mem_nodes (h : t.Trail ks as n) : n ∈ t.nodes := by
  induction h with
  | root t => exact self_mem_nodes t
  | step child _ ih => exact mem_nodes_node.2 (.inr ⟨_, child, ih⟩)

theorem Trail.label_mem (h : t.Trail ks as n) : t.label ∈ as := by
  cases h with
  | root => exact mem_singleton_self _
  | step => exact mem_cons_self

theorem Trail.getLast? (h : t.Trail ks as n) : as.getLast? = some n.label := by
  induction h with
  | root t => rfl
  | step _ _ ih => rw [getLast?_cons, ih, getD_some]

/-! ## Numbered leaves -/

section Pick

variable {β : Type} {p : ℕ → Bool} {i : ℕ}

def pick (p : ℕ → Bool) : ℕ → List β → List β
  | _, [] => []
  | i, x :: xs => if p i then x :: pick p (i + 1) xs else pick p (i + 1) xs

theorem pick_append (xs ys : List β) :
    pick p i (xs ++ ys) = pick p i xs ++ pick p (i + xs.length) ys := by
  induction xs generalizing i with
  | nil => rfl
  | cons x xs ih =>
    rw [cons_append, pick, pick, ih, length_cons, Nat.add_right_comm, Nat.add_assoc]
    split <;> rfl

theorem mem_pick (h : xs[k]? = some x) (hp : p (i + k)) : x ∈ pick p i xs := by
  induction xs generalizing i k with
  | nil => cases h
  | cons y xs ih =>
    rw [pick]
    cases k with
    | zero =>
      cases h
      rw [Nat.add_zero] at hp
      rw [if_pos hp]
      exact mem_cons_self
    | succ k =>
      have hmem : x ∈ pick p (i + 1) xs := ih h (by rwa [Nat.add_assoc, Nat.add_comm 1 k])
      split
      · exact mem_cons_of_mem _ hmem
      · exact hmem

theorem pick_eq_nil (h : ∀ j, i ≤ j → p j = false) : pick p i xs = [] := by
  induction xs generalizing i with
  | nil => rfl
  | cons x xs ih =>
    rw [pick, h i (Nat.le_refl i), if_neg Bool.false_ne_true]
    exact ih fun j hj => h j (by omega)

/-- Members that are left out do not count for the numbers before them. -/
theorem pick_filter {xs : List (β × Bool)}
    (h : ∀ j k x, p j → i + k ≤ j → xs[k]? = some x → x.2 = true) :
    pick p i ((xs.filter Prod.snd).map Prod.fst) = pick p i (xs.map Prod.fst) := by
  induction xs generalizing i with
  | nil => rfl
  | cons x xs ih =>
    cases hx : x.2 with
    | true =>
      rw [filter_cons_of_pos hx, map_cons, map_cons, pick, pick, ih]
      intro j k y hj hle hy
      exact h j (k + 1) y hj (by omega) hy
    | false =>
      have hnone : ∀ j, i ≤ j → p j = false := by
        intro j hj
        rw [Bool.eq_false_iff]
        intro hpick
        rw [h j 0 x hpick hj rfl] at hx
        cases hx
      rw [pick_eq_nil hnone, pick_eq_nil hnone]

variable (E : α → ι → Bool)

mutual

/-- The leaves, each with whether all edges on the way to it are in `E`. -/
def leavesVia : Rose ι α → List (Rose ι α × Bool)
  | node a cs => if cs.isEmpty then [(node a cs, true)] else leavesViaAll a cs

def leavesViaAll (a : α) : List (ι × Rose ι α) → List (Rose ι α × Bool)
  | [] => []
  | (i, c) :: rest => (leavesVia c).map (fun l => (l.1, E a i && l.2)) ++ leavesViaAll a rest

end

variable {E}

theorem leavesVia_node (h : cs ≠ []) :
    (node a cs).leavesVia E =
      cs.flatMap fun q => (q.2.leavesVia E).map fun l => (l.1, E a q.1 && l.2) := by
  rw [leavesVia, if_neg (by simpa using h)]
  clear h
  induction cs with
  | nil => rfl
  | cons q cs ih =>
    rw [leavesViaAll, ih]
    rfl

theorem map_fst_leavesVia (t : Rose ι α) : (t.leavesVia E).map Prod.fst = t.leaves := by
  induction t with
  | node a cs ih =>
    rcases eq_or_ne cs [] with rfl | hcs
    · rfl
    rw [leavesVia_node hcs, leaves_node hcs, map_flatMap]
    refine flatMap_congr fun q hq => ?_
    rw [List.map_map, ← ih q hq]
    rfl

def reached (E : α → ι → Bool) (t : Rose ι α) : List (Rose ι α) :=
  ((t.leavesVia E).filter Prod.snd).map Prod.fst

@[simp] theorem reached_nil (a : α) : (node a [] : Rose ι α).reached E = [node a []] := rfl

theorem reached_node (h : cs ≠ []) :
    (node a cs).reached E = (cs.filter (E a ·.1)).flatMap (·.2.reached E) := by
  rw [reached, leavesVia_node h]
  clear h
  induction cs with
  | nil => rfl
  | cons q cs ih =>
    rw [List.flatMap_cons, List.filter_append, List.map_append, ih, List.filter_map, List.map_map]
    cases hq : E a q.1 with
    | true =>
      rw [filter_cons, if_pos hq, flatMap_cons]
      simp only [Bool.true_and]
      rfl
    | false =>
      rw [filter_cons, if_neg (Bool.eq_false_iff.1 hq)]
      simp [Function.comp_def]

end Pick

/-! ## Updates -/

section Update

variable {ε : Type} (f : α → Except ε α)

/-- Update the members in order, up to the first that fails. -/
def updateAll : List α → List α × Except ε Unit
  | [] => ([], .ok ())
  | a :: as =>
    match f a with
    | .error e => (a :: as, .error e)
    | .ok b => (b :: (updateAll as).1, (updateAll as).2)

mutual

/-- Update the labels in place, each before those below it, up to the first that fails. -/
def forEach : Rose ι α → Rose ι α × Except ε Unit
  | node a cs =>
    match f a with
    | .error e => (node a cs, .error e)
    | .ok b => (node b (forEachAll cs).1, (forEachAll cs).2)

def forEachAll : List (ι × Rose ι α) → List (ι × Rose ι α) × Except ε Unit
  | [] => ([], .ok ())
  | (i, c) :: rest =>
    match forEach c with
    | (c', .error e) => ((i, c') :: rest, .error e)
    | (c', .ok _) => ((i, c') :: (forEachAll rest).1, (forEachAll rest).2)

end

variable {f}

theorem updateAll_append (as bs : List α) :
    updateAll f (as ++ bs) =
      match updateAll f as with
      | (as', .error e) => (as' ++ bs, .error e)
      | (as', .ok _) => (as' ++ (updateAll f bs).1, (updateAll f bs).2) := by
  induction as with
  | nil => rfl
  | cons a as ih =>
    rw [cons_append, updateAll, updateAll]
    cases f a with
    | error e => rfl
    | ok b =>
      rw [ih]
      cases updateAll f as with
      | mk as' r => cases r <;> rfl

def labels (t : Rose ι α) : List α := t.nodes.map label

theorem labels_node (a : α) (cs : List (ι × Rose ι α)) :
    (node a cs).labels = a :: cs.flatMap (·.2.labels) := by
  rw [labels, nodes, map_cons, nodesAll_eq, map_flatMap]
  rfl

theorem forEach_eq (t : Rose ι α) :
    ((forEach f t).1.labels, (forEach f t).2) = updateAll f t.labels := by
  induction t with
  | node a cs ih =>
    rw [forEach, labels_node, updateAll]
    cases f a with
    | error e =>
      dsimp only
      rw [labels_node]
    | ok b =>
      dsimp only
      rw [labels_node]
      have hall : ((forEachAll f cs).1.flatMap (·.2.labels), (forEachAll f cs).2) =
          updateAll f (cs.flatMap (·.2.labels)) := by
        induction cs with
        | nil => rfl
        | cons p cs ihcs =>
          rw [forEachAll, flatMap_cons, updateAll_append, ← ih p mem_cons_self]
          have hrest := ihcs fun q hq => ih q (mem_cons_of_mem _ hq)
          cases forEach f p.2 with
          | mk c r =>
            cases r with
            | error e => rfl
            | ok u =>
              dsimp only
              rw [flatMap_cons, ← hrest]
      rw [← hall]

theorem updateAll_eq_ok : (updateAll f as).2 = .ok u ↔ ∀ a ∈ as, ∃ b, f a = .ok b := by
  induction as with
  | nil => simp [updateAll]
  | cons a as ih =>
    rw [updateAll, forall_mem_cons]
    cases hf : f a with
    | error e => simp
    | ok b => simp [ih]

theorem updateAll_fst (as : List α) :
    (updateAll f as).1 = (as.takeWhile fun a => (f a).isOk).map (fun a => (f a).toOption.getD a) ++
      as.dropWhile fun a => (f a).isOk := by
  induction as with
  | nil => rfl
  | cons a as ih =>
    rw [updateAll]
    cases hf : f a with
    | error e =>
      rw [takeWhile_cons_of_neg (by simp [hf, Except.isOk, Except.toBool]),
        dropWhile_cons_of_neg (by simp [hf, Except.isOk, Except.toBool])]
      rfl
    | ok b =>
      rw [takeWhile_cons_of_pos (by simp [hf, Except.isOk, Except.toBool]),
        dropWhile_cons_of_pos (by simp [hf, Except.isOk, Except.toBool])]
      dsimp only
      rw [ih, map_cons, hf]
      rfl

end Update

/-! ## Walks -/

section Walk

variable (visit : σ → α → Except ε τ) (enter : τ → ι → α → Except ε σ) (wrap : ι → ε → ε)

mutual

/-- Visit the root in a state, then enter the children one after another. An error from below a
child is wrapped with its key. -/
def walk : σ → Rose ι α → Except ε Unit
  | s, node a cs =>
    match visit s a with
    | .error e => .error e
    | .ok t => walkAll t cs

def walkAll : τ → List (ι × Rose ι α) → Except ε Unit
  | _, [] => .ok ()
  | t, (i, c) :: rest =>
    match enter t i c.label with
    | .error e => .error e
    | .ok s =>
      match walk s c with
      | .error e => .error (wrap i e)
      | .ok () => walkAll t rest

end

variable {visit enter wrap}

theorem walkAll_eq_ok {t : τ} :
    walkAll visit enter wrap t cs = .ok () ↔
      ∀ p ∈ cs, ∃ s, enter t p.1 p.2.label = .ok s ∧ walk visit enter wrap s p.2 = .ok () := by
  induction cs with
  | nil => simp [walkAll]
  | cons p rest ih =>
    rw [walkAll, forall_mem_cons, ← ih]
    cases he : enter t p.1 p.2.label with
    | error e => simp
    | ok s =>
      cases hw : walk visit enter wrap s p.2 with
      | error e | ok u => simp [hw]

/-- Where a visit succeeds on the labels that fit the state, a walk succeeds on the trees whose
root fits and whose edges all lead to a fitting child. -/
theorem walk_eq_ok_iff (out : α → τ) (Fits : σ → α → Prop) (E : α → ι → α → Prop)
    (hvisit : ∀ s a t, visit s a = .ok t ↔ Fits s a ∧ t = out a)
    (henter : ∀ a i b, E a i b ↔ ∃ s, enter (out a) i b = .ok s ∧ Fits s b) :
    walk visit enter wrap s t = .ok () ↔ Fits s t.label ∧ t.Edges E := by
  induction t generalizing s with
  | node a cs ih =>
    rw [walk, edges_node, label_node]
    cases hv : visit s a with
    | error e =>
      have hfits : ¬ Fits s a := fun h => by simpa [hv] using (hvisit s a (out a)).2 ⟨h, rfl⟩
      simp [hfits]
    | ok u =>
      obtain ⟨hfits, rfl⟩ := (hvisit s a u).1 hv
      simp only [hfits, true_and]
      rw [walkAll_eq_ok]
      constructor
      · intro h p hp
        obtain ⟨s', he, hw⟩ := h p hp
        obtain ⟨hfit, hedges⟩ := (ih p hp).1 hw
        exact ⟨(henter a p.1 p.2.label).2 ⟨s', he, hfit⟩, hedges⟩
      intro h p hp
      obtain ⟨hedge, hedges⟩ := h p hp
      obtain ⟨s', he, hfit⟩ := (henter a p.1 p.2.label).1 hedge
      exact ⟨s', he, (ih p hp).2 ⟨hfit, hedges⟩⟩

end Walk

/-! ## Pruning -/

section Prune

variable (f : α → Option β)

mutual

/-- Keep the nodes that `f` keeps and whose ancestors it keeps, with the label it gives them. -/
def prune : Rose ι α → Option (Rose ι β)
  | node a cs =>
    match f a with
    | none => none
    | some b => some (node b (pruneAll cs))

def pruneAll : List (ι × Rose ι α) → List (ι × Rose ι β)
  | [] => []
  | (i, c) :: rest =>
    match prune c with
    | none => pruneAll rest
    | some c' => (i, c') :: pruneAll rest

end

variable {f} {t' : Rose ι β}

theorem pruneAll_eq (cs : List (ι × Rose ι α)) :
    pruneAll f cs = cs.filterMap fun p => (prune f p.2).map (p.1, ·) := by
  induction cs with
  | nil => rfl
  | cons p rest ih =>
    obtain ⟨i, c⟩ := p
    rw [pruneAll, filterMap_cons, ih]
    cases prune f c <;> rfl

theorem prune_eq_some :
    prune f (node a cs) = some t' ↔
      ∃ b, f a = some b ∧ t' = node b (cs.filterMap fun p => (prune f p.2).map (p.1, ·)) := by
  rw [prune, ← pruneAll_eq]
  cases f a with
  | none => simp
  | some b => simp [eq_comm]

theorem isSome_prune : (prune f t).isSome = (f t.label).isSome := by
  cases t with
  | node a cs =>
    rw [prune, label_node]
    cases f a <;> rfl

theorem label_prune (h : prune f t = some t') : f t.label = some t'.label := by
  cases t with
  | node a cs =>
    obtain ⟨b, hb, rfl⟩ := prune_eq_some.1 h
    exact hb

theorem mem_children_prune (h : prune f t = some t') (hq : q ∈ t'.children) :
    ∃ p ∈ t.children, p.1 = q.1 ∧ prune f p.2 = some q.2 := by
  cases t with
  | node a cs =>
    obtain ⟨b, -, rfl⟩ := prune_eq_some.1 h
    obtain ⟨p, hp, heq⟩ := mem_filterMap.1 hq
    obtain ⟨c, hc, rfl⟩ := map_eq_some_iff.1 heq
    exact ⟨p, hp, rfl, hc⟩

theorem mem_nodes_prune (h : prune f t = some t') (hn : n' ∈ t'.nodes) :
    ∃ n ∈ t.nodes, prune f n = some n' := by
  induction t generalizing t' with
  | node a cs ih =>
    cases t' with
    | node b ds =>
      rcases mem_nodes_node.1 hn with rfl | ⟨q, hq, hn⟩
      · exact ⟨_, self_mem_nodes _, h⟩
      obtain ⟨p, hp, -, hc⟩ := mem_children_prune h hq
      obtain ⟨n, hn, hprune⟩ := ih p hp hc hn
      exact ⟨n, mem_nodes_node.2 (.inr ⟨p, hp, hn⟩), hprune⟩

theorem Nodes.prune {P' : β → Prop} (hP : t.Nodes P) (h : prune f t = some t')
    (hPP : ∀ a b, f a = some b → P a → P' b) : t'.Nodes P' := by
  intro n' hn'
  obtain ⟨n, hn, hprune⟩ := mem_nodes_prune h hn'
  exact hPP _ _ (label_prune hprune) (hP n hn)

theorem Edges.prune {E' : β → ι → β → Prop} (hE : t.Edges E) (h : prune f t = some t')
    (hEE : ∀ a i b a' b', f a = some a' → f b = some b' → E a i b → E' a' i b') :
    t'.Edges E' := by
  intro n' hn' q hq
  obtain ⟨n, hn, hprune⟩ := mem_nodes_prune h hn'
  obtain ⟨p, hp, hkey, hc⟩ := mem_children_prune hprune hq
  rw [← hkey]
  exact hEE _ _ _ _ _ (label_prune hprune) (label_prune hc) (hE n hn p hp)

theorem map_label_children_prune (h : prune f t = some t') :
    t'.children.map (·.2.label) = (t.children.map (·.2.label)).filterMap f := by
  cases t with
  | node a cs =>
    obtain ⟨b, -, rfl⟩ := prune_eq_some.1 h
    rw [children_node, children_node, map_filterMap, filterMap_map]
    refine filterMap_congr fun p _ => ?_
    rw [Function.comp_apply, Option.map_map]
    cases hp : prune f p.2 with
    | none =>
      have hnone := isSome_prune (f := f) (t := p.2)
      rw [hp, isSome_none, eq_comm, isSome_eq_false_iff, isNone_iff_eq_none] at hnone
      rw [hnone]
      rfl
    | some c => exact (label_prune hp).symm

theorem Locally.prune {B : α → List α → Prop} {B' : β → List β → Prop} (hB : t.Locally B)
    (h : prune f t = some t')
    (hBB : ∀ a b as, f a = some b → B a as → B' b (as.filterMap f)) : t'.Locally B' := by
  intro n' hn'
  obtain ⟨n, hn, hprune⟩ := mem_nodes_prune h hn'
  rw [map_label_children_prune hprune]
  exact hBB _ _ _ (label_prune hprune) (hB n hn)

theorem nodes_prune_sublist {γ : Type} {g : α → γ} {g' : β → γ}
    (hg : ∀ a b, f a = some b → g' b = g a) (h : prune f t = some t') :
    (t'.nodes.map fun n => g' n.label).Sublist (t.nodes.map fun n => g n.label) := by
  induction t generalizing t' with
  | node a cs ih =>
    obtain ⟨b, hb, rfl⟩ := prune_eq_some.1 h
    rw [nodes, nodes, map_cons, map_cons, label_node, label_node, hg a b hb]
    apply Sublist.cons_cons
    clear h
    induction cs with
    | nil => exact .slnil
    | cons p cs ihcs =>
      have hrest := ihcs fun q hq => ih q (mem_cons_of_mem _ hq)
      rw [nodesAll, map_append, filterMap_cons]
      cases hp : prune f p.2 with
      | none => exact hrest.trans (sublist_append_right _ _)
      | some c =>
        rw [map_some, nodesAll, map_append]
        exact (ih p mem_cons_self hp).append hrest

/-- What is left are the nodes that are kept together with all nodes above them. -/
theorem trail_prune (h : prune f t = some t') :
    t'.Trail ks bs n' ↔
      ∃ as n, t.Trail ks as n ∧ Forall₂ (fun a b => f a = some b) as bs ∧ prune f n = some n' := by
  induction t generalizing t' ks bs with
  | node a cs ih =>
    have hlabel := label_prune h
    constructor
    · intro htrail
      cases htrail with
      | root => exact ⟨_, _, .root _, .cons hlabel .nil, h⟩
      | @step b ds i d n ks bs child rest =>
        obtain ⟨⟨_, c⟩, hc, rfl, hd⟩ := mem_children_prune h child
        obtain ⟨as, n, htrail, hkept, hn⟩ := (ih _ hc hd).1 rest
        exact ⟨_, n, .step hc htrail, .cons hlabel hkept, hn⟩
    · rintro ⟨as, n, htrail, hkept, hn⟩
      cases htrail with
      | root =>
        rw [h] at hn
        cases hn
        cases hkept with
        | cons hb hnil =>
          cases hnil
          rw [label_node, ← label_node a cs, hlabel] at hb
          cases hb
          exact .root _
      | @step _ _ i c _ ks as child rest =>
        cases hkept with
        | @cons _ b _ bs hb hkept =>
          -- The child is kept since the trail goes through it.
          have hc : ∃ d, prune f c = some d := by
            rw [← isSome_iff_exists, isSome_prune]
            cases rest with
            | root =>
              cases hkept with
              | cons hb _ => rw [hb]; rfl
            | step =>
              cases hkept with
              | cons hb _ => rw [label_node, hb]; rfl
          obtain ⟨d, hd⟩ := hc
          obtain ⟨b', hb', rfl⟩ := prune_eq_some.1 h
          cases hb.symm.trans hb'
          refine .step (mem_filterMap.2 ⟨_, child, ?_⟩) ((ih _ child hd).2 ⟨as, n, rest, hkept, hn⟩)
          rw [hd]
          rfl

theorem prune_eq_self (h : t.Nodes fun a => g a = some a) : prune g t = some t := by
  induction t with
  | node a cs ih =>
    rw [nodes_node] at h
    have hchildren : cs.filterMap (fun p => (prune g p.2).map (p.1, ·)) = cs.filterMap some := by
      apply filterMap_congr
      intro p hp
      rw [ih p hp (h.2 p hp)]
      rfl
    rw [prune_eq_some]
    exact ⟨a, h.1, by rw [hchildren, filterMap_some]⟩

/-- Where a branch is kept exactly when one of its children is, the pruned tree has the leaves that
are kept. -/
theorem leaves_prune
    (h : ∀ n ∈ t.nodes, n.children ≠ [] →
      ((f n.label).isSome ↔ ∃ p ∈ n.children, (f p.2.label).isSome)) :
    (prune f t).toList.flatMap leaves =
      t.leaves.filterMap fun l => (f l.label).map (node · []) := by
  induction t with
  | node a cs ih =>
    rcases eq_or_ne cs [] with rfl | hcs
    · rw [prune, leaves_nil]
      cases hf : f a <;> simp [hf, pruneAll]
    obtain ⟨hroot, hcs'⟩ := forall_nodes_node.1 h
    have hroot := hroot hcs
    rw [label_node, children_node] at hroot
    have hbelow : ∀ p ∈ cs, (prune f p.2).toList.flatMap leaves =
        p.2.leaves.filterMap fun l => (f l.label).map (node · []) :=
      fun p hp => ih p hp (hcs' p hp)
    rw [leaves_node hcs, filterMap_flatMap, ← flatMap_congr hbelow, prune]
    cases hf : f a with
    | none =>
      -- Nothing below a lost branch is kept, so both sides are empty.
      symm
      rw [toList_none, flatMap_nil, flatMap_eq_nil_iff]
      intro p hp
      have hlost : (prune f p.2).isSome = false := by
        rw [isSome_prune, Bool.eq_false_iff]
        intro hsome
        simpa [hf] using hroot.2 ⟨p, hp, hsome⟩
      rw [isSome_eq_false_iff, isNone_iff_eq_none] at hlost
      simp [hlost]
    | some b =>
      have hkept : pruneAll f cs ≠ [] := by
        obtain ⟨p, hp, hsome⟩ := hroot.1 (by simp [hf])
        rw [← isSome_prune, isSome_iff_exists] at hsome
        obtain ⟨c, hc⟩ := hsome
        rw [pruneAll_eq]
        exact ne_nil_of_mem (mem_filterMap.2 ⟨p, hp, by rw [hc]; rfl⟩)
      rw [toList_some, flatMap_singleton, leaves_node hkept, pruneAll_eq,
        filterMap_eq_flatMap_toList, flatMap_assoc]
      refine flatMap_congr fun p _ => ?_
      cases prune f p.2 <;> simp

end Prune

end Rose

end Wavelength
