import Wavelength.Base.Graph

/-! # The wait-for graph of the actors

A turn of a serial actor that awaits a reply is an edge from its actor to the one that replies. The
edge counts while the turn runs and the reply has not been delivered; a wait that would close a
cycle of such edges is refused.
-/

namespace Wavelength.Actor

open List

structure Turn where
  id : ℕ
  actorID : String
  serial : Bool
  deriving DecidableEq

structure WaitEdge where
  /-- The address, which tells one wait from another. -/
  id : ℕ
  t : Turn
  target : String
  /-- The channel that is closed on delivery, unless the future records none. -/
  delivered : Option ℕ
  deriving DecidableEq

structure WaitGraph where
  /-- The registered edges of all actors, in the order of their registration. -/
  waiting : List WaitEdge := []
  ended : List ℕ := []
  closed : List ℕ := []
  allocated : ℕ := 0

namespace WaitGraph

variable (g : WaitGraph)

def live (e : WaitEdge) : Bool := e.t.id ∉ g.ended ∧ ∀ c ∈ e.delivered, c ∉ g.closed

def liveTargets (cur : String) : List String :=
  (g.waiting.filter fun e => e.t.actorID = cur ∧ g.live e).map WaitEdge.target

def findCycleLocked (self target : String) : Option (List String) :=
  (Graph.search g.liveTargets self (g.waiting.length + 2) target [self, target] []).1

def activeTurn (ctx : Option Turn) : Option Turn := ctx.filter (·.id ∉ g.ended)

def beginWait (ctx : Option Turn) (target : String) (delivered : Option ℕ) :
    WaitGraph × Except (List String) (Option WaitEdge) :=
  match g.activeTurn ctx with
  | none => (g, .ok none)
  | some t =>
    if target = "" ∨ ¬ t.serial then
      (g, .ok none)
    else
      match g.findCycleLocked t.actorID target with
      | some path => (g, .error path)
      | none =>
        let edge := ⟨g.allocated, t, target, delivered⟩
        ({ g with waiting := g.waiting ++ [edge], allocated := g.allocated + 1 }, .ok (some edge))

def removeEdgeLocked (edge : WaitEdge) : WaitGraph :=
  { g with waiting := g.waiting.erase edge }

end WaitGraph

/-- A turn that ends between the check of its context and the lock ends after the wait began: its
edges start at the actor where the search stops. -/
inductive Action where
  | beginWait (ctx : Option Turn) (target : String) (delivered : Option ℕ)
  | release (edge : WaitEdge)
  | endTurn (id : ℕ)
  | deliver (channel : ℕ)

def WaitGraph.step (g : WaitGraph) : Action → WaitGraph
  | .beginWait ctx target delivered => (g.beginWait ctx target delivered).1
  | .release edge => g.removeEdgeLocked edge
  | .endTurn id => { g with ended := id :: g.ended }
  | .deliver channel => { g with closed := channel :: g.closed }

namespace WaitGraph

def Waits (g : WaitGraph) (a b : String) : Prop :=
  ∃ e ∈ g.waiting, e.t.actorID = a ∧ g.live e ∧ e.target = b

def Acyclic (g : WaitGraph) : Prop := ∀ a, ¬ Relation.TransGen g.Waits a a

variable {g g' : WaitGraph}

theorem mem_liveTargets : b ∈ g.liveTargets a ↔ g.Waits a b := by
  simp [liveTargets, Waits, and_assoc]

theorem liveTargets_eq : (fun a b => b ∈ g.liveTargets a) = g.Waits :=
  funext₂ fun _ _ => propext mem_liveTargets

theorem findCycleLocked_eq_some (h : g.findCycleLocked self target = some path) :
    ∃ q, path = self :: target :: q ∧ (target :: q).IsChain g.Waits ∧
      (target :: q).getLast? = some self := by
  obtain ⟨q, hpath, hchain, hlast⟩ := Graph.search_eq_some h
  rw [liveTargets_eq] at hchain
  exact ⟨q, hpath, hchain, hlast⟩

theorem findCycleLocked_iff :
    (∃ path, g.findCycleLocked self target = some path) ↔
      Relation.ReflTransGen g.Waits target self := by
  rw [← liveTargets_eq]
  refine Graph.search_isSome_iff (target :: g.waiting.map WaitEdge.target) ?_ mem_cons_self
    (by simp)
  intro a _ b hb
  obtain ⟨e, he, -, -, rfl⟩ := mem_liveTargets.1 hb
  exact mem_cons_of_mem _ (mem_map_of_mem he)

theorem beginWait_cases (g : WaitGraph) (ctx : Option Turn) (target : String)
    (delivered : Option ℕ) :
    (∃ t, g.activeTurn ctx = some t ∧ target ≠ "" ∧ t.serial ∧
      ((∃ path, g.findCycleLocked t.actorID target = some path ∧
          g.beginWait ctx target delivered = (g, .error path)) ∨
        ¬ Relation.ReflTransGen g.Waits target t.actorID ∧
          ∃ edge : WaitEdge, edge.t = t ∧ edge.target = target ∧
            g.beginWait ctx target delivered =
              ({ g with waiting := g.waiting ++ [edge], allocated := g.allocated + 1 },
                .ok (some edge)))) ∨
    (¬ ∃ t, g.activeTurn ctx = some t ∧ target ≠ "" ∧ t.serial) ∧
      g.beginWait ctx target delivered = (g, .ok none) := by
  unfold beginWait
  cases hctx : g.activeTurn ctx with
  | none => exact .inr ⟨by simp, rfl⟩
  | some t =>
    by_cases hskip : target = "" ∨ ¬ t.serial
    · refine .inr ⟨?_, if_pos hskip⟩
      rintro ⟨t', ht, htarget, hserial⟩
      cases ht
      exact hskip.elim htarget (· hserial)
    simp only [if_neg hskip]
    rw [not_or, not_not] at hskip
    refine .inl ⟨t, rfl, hskip.1, hskip.2, ?_⟩
    cases hfind : g.findCycleLocked t.actorID target with
    | some path => exact .inl ⟨path, rfl, rfl⟩
    | none =>
      refine .inr ⟨fun hreach => ?_, _, rfl, rfl, rfl⟩
      obtain ⟨path, hpath⟩ := findCycleLocked_iff.2 hreach
      rw [hfind] at hpath
      cases hpath

theorem Acyclic.mono (h : g.Acyclic) (hsub : ∀ a b, g'.Waits a b → g.Waits a b) : g'.Acyclic :=
  fun a hcycle => h a (Relation.TransGen.mono hsub _ _ hcycle)

theorem Acyclic.step (h : g.Acyclic) (a : Action) : (g.step a).Acyclic := by
  cases a with
  | beginWait ctx target delivered =>
    simp only [WaitGraph.step]
    rcases g.beginWait_cases ctx target delivered with
      ⟨t, -, -, -, ⟨path, -, heq⟩ | ⟨hno, edge, rfl, rfl, heq⟩⟩ | ⟨-, heq⟩
    · rwa [heq]
    · rw [heq]
      refine Graph.acyclic_of_edge h ?_ hno
      rintro a b ⟨e, he, rfl, hlive, rfl⟩
      rcases mem_append.1 he with he | he
      · exact .inl ⟨e, he, rfl, hlive, rfl⟩
      · obtain rfl := mem_singleton.1 he
        exact .inr ⟨rfl, rfl⟩
    · rwa [heq]
  | release edge =>
    refine h.mono ?_
    rintro a b ⟨e, he, ha, hlive, hb⟩
    exact ⟨e, mem_of_mem_erase he, ha, hlive, hb⟩
  | endTurn id =>
    refine h.mono ?_
    rintro a b ⟨e, he, ha, hlive, hb⟩
    simp only [live, WaitGraph.step, mem_cons, not_or, decide_eq_true_eq] at hlive
    exact ⟨e, he, ha, decide_eq_true ⟨hlive.1.2, hlive.2⟩, hb⟩
  | deliver channel =>
    refine h.mono ?_
    rintro a b ⟨e, he, ha, hlive, hb⟩
    simp only [live, WaitGraph.step, mem_cons, not_or, decide_eq_true_eq] at hlive
    exact ⟨e, he, ha, decide_eq_true ⟨hlive.1, fun c hc => (hlive.2 c hc).2⟩, hb⟩

theorem Acyclic.run (acts : List Action) : (acts.foldl WaitGraph.step {}).Acyclic := by
  induction acts using reverseRecOn with
  | nil =>
    intro a hcycle
    obtain ⟨b, ⟨e, he, -⟩, -⟩ := Relation.TransGen.head'_iff.1 hcycle
    cases he
  | append_singleton acts a ih =>
    rw [foldl_append]
    exact ih.step a

/-- The live graph stays acyclic, and a wait that an active turn of a serial actor begins is refused
exactly when the awaited actor already waits, over live edges, for the caller. -/
theorem beginWait_refused_iff_cycle (acts : List Action) :
    let g := acts.foldl WaitGraph.step {}
    g.Acyclic ∧ ∀ ctx target delivered,
      ((∃ path, (g.beginWait ctx target delivered).2 = .error path) ↔
        ∃ t, g.activeTurn ctx = some t ∧ target ≠ "" ∧ t.serial ∧
          Relation.ReflTransGen g.Waits target t.actorID) ∧
      ∀ path, (g.beginWait ctx target delivered).2 = .error path →
        (g.beginWait ctx target delivered).1 = g ∧
        ∃ t q, g.activeTurn ctx = some t ∧ path = t.actorID :: target :: q ∧
          (target :: q).IsChain g.Waits ∧ (target :: q).getLast? = some t.actorID := by
  intro g
  refine ⟨Acyclic.run acts, fun ctx target delivered => ?_⟩
  rcases g.beginWait_cases ctx target delivered with
    ⟨t, ht, htarget, hserial, ⟨path, hfind, heq⟩ | ⟨hno, edge, -, -, heq⟩⟩ | ⟨hnot, heq⟩
  · simp only [heq, Except.error.injEq, exists_eq', true_iff, true_and, forall_eq']
    obtain ⟨q, hpath, hchain, hlast⟩ := findCycleLocked_eq_some hfind
    exact ⟨⟨t, ht, htarget, hserial, findCycleLocked_iff.1 ⟨path, hfind⟩⟩,
      t, q, ht, hpath, hchain, hlast⟩
  · simp only [heq, reduceCtorEq, exists_false, false_iff, false_imp_iff, implies_true, and_true]
    rintro ⟨t', ht', -, -, hreach⟩
    rw [ht] at ht'
    cases ht'
    exact hno hreach
  · simp only [heq, reduceCtorEq, exists_false, false_iff, false_imp_iff, implies_true, and_true]
    rintro ⟨t, ht, htarget, hserial, -⟩
    exact hnot ⟨t, ht, htarget, hserial⟩

/-- No deadlock: over live waits every actor leads to one that awaits nobody. -/
theorem waits_lead_out (acts : List Action) (a : String) :
    let g := acts.foldl WaitGraph.step {}
    ∃ b, Relation.ReflTransGen g.Waits a b ∧ ∀ c, ¬ g.Waits b c := by
  intro g
  classical
  let univ := a :: g.waiting.map WaitEdge.target
  let free x := ∃ b, Relation.ReflTransGen g.Waits x b ∧ ∀ c, ¬ g.Waits b c
  let layers := [univ.filter free]
  have hmem : ∀ x ∈ univ, ∀ y ∈ g.liveTargets x, y ∈ univ := by
    intro x _ y hy
    obtain ⟨e, he, -, -, rfl⟩ := mem_liveTargets.1 hy
    exact mem_cons_of_mem _ (mem_map_of_mem he)
  have hmax : ∀ x ∈ univ, (∀ y ∈ g.liveTargets x, y ∈ layers.flatten) → x ∈ layers.flatten := by
    intro x hx hfree
    simp only [layers, flatten_singleton, mem_filter, decide_eq_true_eq] at hfree ⊢
    by_cases hidle : ∀ y, ¬ g.Waits x y
    · exact ⟨hx, x, .refl, hidle⟩
    · obtain ⟨y, hy⟩ := not_forall_not.1 hidle
      obtain ⟨-, b, hreach, hb⟩ := hfree y (mem_liveTargets.2 hy)
      exact ⟨hx, b, hreach.head hy, hb⟩
  by_contra hstuck
  obtain ⟨x, -, hcycle⟩ :=
    Graph.exists_cycle hmem hmax mem_cons_self (by simp [layers, free, hstuck])
  rw [liveTargets_eq] at hcycle
  exact Acyclic.run acts x hcycle

end WaitGraph

end Wavelength.Actor
