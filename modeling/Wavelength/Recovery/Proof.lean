import Wavelength.Base.Graph
import Wavelength.Base.Hash
import Wavelength.Base.Wire

/-! # Recovery proofs

A recovery proof is the graph of the transactions that have to confirm before the target output
can be spent. It is layered so that every transaction comes right after the last of those it
spends from.
-/

namespace Wavelength.Recovery

open List

structure OutPoint where
  hash : Hash
  index : UInt32
  deriving DecidableEq

structure TxOut where
  value : Int64
  pkScript : Script
  deriving DecidableEq

structure MsgTx where
  txHash : Hash
  txIn : List OutPoint
  txOut : List TxOut
  deriving DecidableEq

inductive NodeKind where
  | tree
  | checkpoint
  | ark
  deriving DecidableEq

/-- A node as the caller hands it in, perhaps without its transaction. -/
structure NodeRef where
  kind : NodeKind
  tx : Option MsgTx
  deriving DecidableEq

structure Node where
  kind : NodeKind
  tx : MsgTx
  deriving DecidableEq

def Node.txid (n : Node) : Hash := n.tx.txHash

def Node.ref (n : Node) : NodeRef := ⟨n.kind, some n.tx⟩

inductive ProofError where
  | noNodes
  | tooManyNodes
  | csvDelayTooLarge
  | nilNode
  | nilTx
  | duplicateTxid (txid : Hash)
  | targetNotFound
  | targetIndexOutOfBounds
  | doesNotContribute (txid : Hash)
  | cycle
  deriving DecidableEq

def maxCSVDelay : UInt32 := 65535

def maxProofNodes : ℕ := 100000

/-- The nodes by txid; a nil node or a txid that is there already is refused. -/
def indexNodes : List (Option NodeRef) → List Node → Except ProofError (List Node)
  | [], nodes => .ok nodes
  | none :: _, _ => .error .nilNode
  | some ⟨_, none⟩ :: _, _ => .error .nilTx
  | some ⟨kind, some tx⟩ :: refs, nodes =>
    if tx.txHash ∈ nodes.map Node.txid then
      .error (.duplicateTxid tx.txHash)
    else
      indexNodes refs (nodes ++ [⟨kind, tx⟩])

def findNode (nodes : List Node) (txid : Hash) : Option Node := nodes.find? (·.txid = txid)

/-- The nodes that a node spends from. Inputs from outside of the proof are no edges, and two
inputs from one node are one edge. -/
def parentsOf (nodes : List Node) (txid : Hash) : List Hash :=
  match findNode nodes txid with
  | none => []
  | some n => sortHashes ((n.tx.txIn.map OutPoint.hash).filter (· ∈ nodes.map Node.txid)).dedup

def childrenOf (nodes : List Node) (txid : Hash) : List Hash :=
  sortHashes ((nodes.map Node.txid).filter (txid ∈ parentsOf nodes ·))

def collectReachableAncestors (nodes : List Node) (start : Hash) : List Hash :=
  Graph.gather (parentsOf nodes) nodes.length [start] [start]

def buildLayers (nodes : List Node) : Except ProofError (List (List Hash)) :=
  let layers := Graph.layering (nodes.map Node.txid) (parentsOf nodes) (childrenOf nodes) sortHashes
  if layers.flatten.length ≠ nodes.length then .error .cycle else .ok layers

/-- The checks and computations of `NewProof`: the nodes and their layers. -/
def buildProof (target : OutPoint) (csvDelay : UInt32) (refs : List (Option NodeRef)) :
    Except ProofError (List Node × List (List Hash)) :=
  if refs.length = 0 then
    .error .noNodes
  else if refs.length > maxProofNodes then
    .error .tooManyNodes
  else if csvDelay > maxCSVDelay then
    .error .csvDelayTooLarge
  else do
    let nodes ← indexNodes refs []
    match findNode nodes target.hash with
    | none => .error .targetNotFound
    | some targetNode =>
      if target.index.toNat ≥ targetNode.tx.txOut.length then
        .error .targetIndexOutOfBounds
      else
        let reachable := collectReachableAncestors nodes target.hash
        match nodes.find? (·.txid ∉ reachable) with
        | some n => .error (.doesNotContribute n.txid)
        | none => do
          let layers ← buildLayers nodes
          pure (nodes, layers)

/-- A proof; there are no others than those that `newProof` builds. -/
structure Proof where
  targetOutpoint : OutPoint
  csvDelay : UInt32
  nodes : List Node
  layers : List (List Hash)
  built : ∃ refs, buildProof targetOutpoint csvDelay refs = .ok (nodes, layers)

def newProof (target : OutPoint) (csvDelay : UInt32) (refs : List (Option NodeRef)) :
    Except ProofError Proof :=
  match h : buildProof target csvDelay refs with
  | .error e => .error e
  | .ok (nodes, layers) => .ok ⟨target, csvDelay, nodes, layers, refs, h⟩

def Proof.node (p : Proof) (txid : Hash) : Option Node := findNode p.nodes txid

def Proof.txids (p : Proof) : List Hash := p.nodes.map Node.txid

/-- `ParentTxids`; `none` for a txid that is not in the proof. -/
def Proof.parentTxids (p : Proof) (txid : Hash) : Option (List Hash) :=
  (p.node txid).map fun _ => parentsOf p.nodes txid

def Proof.layer (p : Proof) (txid : Hash) : Option ℕ :=
  p.layers.findIdx? (txid ∈ ·)

/-! ## The graph of the nodes -/

section

variable {nodes : List Node}

/-- The transaction `x` spends an output of `y`, and both are in the proof. -/
def Spends (nodes : List Node) (x y : Hash) : Prop :=
  y ∈ nodes.map Node.txid ∧ ∃ n ∈ nodes, n.txid = x ∧ y ∈ n.tx.txIn.map OutPoint.hash

theorem findNode_eq_some (hn : (nodes.map Node.txid).Nodup) :
    findNode nodes x = some n ↔ n ∈ nodes ∧ n.txid = x := by
  constructor
  · intro h
    exact ⟨mem_of_find?_eq_some h, by simpa using find?_some h⟩
  rintro ⟨hmem, rfl⟩
  cases h : findNode nodes n.txid with
  | none =>
    have hno := find?_eq_none.1 h n hmem
    simp at hno
  | some m =>
    have hm : m.txid = n.txid := by simpa using find?_some h
    rw [inj_on_of_nodup_map hn (mem_of_find?_eq_some h) hmem hm]

theorem findNode_eq_none : findNode nodes x = none ↔ x ∉ nodes.map Node.txid := by
  simp [findNode]

theorem mem_parentsOf (hn : (nodes.map Node.txid).Nodup) :
    y ∈ parentsOf nodes x ↔ Spends nodes x y := by
  unfold parentsOf Spends
  cases h : findNode nodes x with
  | none =>
    have hx := findNode_eq_none.1 h
    constructor
    · exact fun hy => nomatch hy
    · rintro ⟨-, n, hmem, rfl, -⟩
      exact absurd (mem_map_of_mem hmem) hx
  | some n =>
    obtain ⟨hmem, hx⟩ := (findNode_eq_some hn).1 h
    simp only [mem_sortHashes, mem_dedup, mem_filter, decide_eq_true_eq]
    constructor
    · rintro ⟨hin, hy⟩
      exact ⟨hy, n, hmem, hx, hin⟩
    rintro ⟨hy, m, hm, hmx, hin⟩
    have : m = n := inj_on_of_nodup_map hn hm hmem (hmx.trans hx.symm)
    subst this
    exact ⟨hin, hy⟩

theorem parentsOf_nodup : (parentsOf nodes x).Nodup := by
  unfold parentsOf
  split
  · exact nodup_nil
  · exact sortHashes_nodup (nodup_dedup _)

variable (hn : (nodes.map Node.txid).Nodup)
include hn

theorem nodes_edges : Graph.Edges (nodes.map Node.txid) (parentsOf nodes) (childrenOf nodes) := by
  constructor
  · exact hn
  · exact fun _ => parentsOf_nodup
  · exact fun _ => sortHashes_nodup (hn.filter _)
  · exact fun x _ y hy => ((mem_parentsOf hn).1 hy).1
  · intro x y
    simp [childrenOf]

theorem spends_iff : Spends nodes = fun x y => y ∈ parentsOf nodes x := by
  funext x y
  exact propext (mem_parentsOf hn).symm

theorem mem_reachable (hstart : start ∈ nodes.map Node.txid) :
    x ∈ collectReachableAncestors nodes start ↔ Relation.ReflTransGen (Spends nodes) start x := by
  have h := Graph.mem_gather_start (x := x) (nodes_edges hn).parents_mem hstart
  rw [length_map] at h
  rw [spends_iff hn]
  exact h

omit hn

end

/-! ## What is accepted -/

def givenNodes (refs : List (Option NodeRef)) : List Node :=
  refs.filterMap fun ref => ref.bind fun r => r.tx.map (Node.mk r.kind)

section

variable {nodes : List Node}

theorem indexNodes_cases (refs : List (Option NodeRef)) (acc : List Node)
    (hacc : (acc.map Node.txid).Nodup) :
    (∃ e, indexNodes refs acc = .error e ∧ (none ∈ refs ∨ (∃ kind, some ⟨kind, none⟩ ∈ refs) ∨
      ¬ ((acc ++ givenNodes refs).map Node.txid).Nodup)) ∨
    indexNodes refs acc = .ok (acc ++ givenNodes refs) ∧
      ((acc ++ givenNodes refs).map Node.txid).Nodup ∧
      refs = (givenNodes refs).map (some ∘ Node.ref) := by
  induction refs generalizing acc with
  | nil => exact .inr ⟨by simp [indexNodes, givenNodes], by simpa [givenNodes] using hacc, rfl⟩
  | cons ref refs ih =>
    match ref with
    | none => exact .inl ⟨_, rfl, .inl mem_cons_self⟩
    | some ⟨kind, none⟩ => exact .inl ⟨_, rfl, .inr (.inl ⟨kind, mem_cons_self⟩)⟩
    | some ⟨kind, some tx⟩ =>
      have hgiven : acc ++ givenNodes (some ⟨kind, some tx⟩ :: refs) =
          acc ++ [⟨kind, tx⟩] ++ givenNodes refs := by simp [givenNodes]
      unfold indexNodes
      rw [hgiven]
      split
      · next hold =>
        refine .inl ⟨_, rfl, .inr (.inr fun hnodup => ?_)⟩
        rw [append_assoc, map_append, nodup_append'] at hnodup
        exact hnodup.2.2 hold mem_cons_self
      next hnew =>
      have hacc' : ((acc ++ [Node.mk kind tx]).map Node.txid).Nodup := by
        rw [map_append, nodup_append_comm]
        exact nodup_cons.2 ⟨hnew, hacc⟩
      obtain ⟨e, herr, hfault⟩ | ⟨hok, hnodup, hrefs⟩ := ih _ hacc'
      · refine .inl ⟨e, herr, hfault.imp (mem_cons_of_mem _) (.imp_left fun ⟨kind', hnil⟩ => ?_)⟩
        exact ⟨kind', mem_cons_of_mem _ hnil⟩
      · exact .inr ⟨hok, hnodup, congrArg (_ :: ·) hrefs⟩

theorem buildLayers_ok (h : buildLayers nodes = .ok layers) :
    layers = Graph.layering (nodes.map Node.txid) (parentsOf nodes) (childrenOf nodes) sortHashes ∧
      layers.flatten.length = nodes.length := by
  unfold buildLayers at h
  dsimp only at h
  split at h
  · cases h
  · next hlen =>
    cases h
    exact ⟨rfl, not_not.1 hlen⟩

structure Checked (target : OutPoint) (csvDelay : UInt32) (nodes : List Node)
    (layers : List (List Hash)) : Prop where
  nonempty : nodes ≠ []
  bounded : nodes.length ≤ maxProofNodes
  delay : csvDelay ≤ maxCSVDelay
  nodup : (nodes.map Node.txid).Nodup
  output : ∃ n ∈ nodes, n.txid = target.hash ∧ target.index.toNat < n.tx.txOut.length
  reachable : ∀ x ∈ nodes.map Node.txid, Relation.ReflTransGen (Spends nodes) target.hash x
  layers_eq : layers = Graph.layering (nodes.map Node.txid) (parentsOf nodes) (childrenOf nodes)
    sortHashes
  length : layers.flatten.length = nodes.length

theorem buildProof_ok (h : buildProof target csvDelay refs = .ok (nodes, layers)) :
    Checked target csvDelay nodes layers ∧ nodes = givenNodes refs ∧
      refs = nodes.map (some ∘ Node.ref) := by
  unfold buildProof at h
  split at h
  · cases h
  split at h
  · cases h
  next hmax =>
  split at h
  · cases h
  next hcsv =>
  obtain ⟨e, hidx, -⟩ | ⟨hidx, hnodup, hrefs⟩ := indexNodes_cases refs [] nodup_nil
  · rw [hidx] at h
    cases h
  rw [hidx] at h
  dsimp only [bind, Except.bind, nil_append] at h hnodup
  split at h
  · cases h
  next n hfind =>
  split at h
  · cases h
  next hindex =>
  split at h
  · cases h
  next hreach =>
  split at h
  · cases h
  next hbuild =>
  obtain ⟨hlayers, hlength⟩ := buildLayers_ok hbuild
  cases h
  obtain ⟨hmem, htx⟩ := (findNode_eq_some hnodup).1 hfind
  refine ⟨⟨ne_nil_of_mem hmem, ?_, UInt32.not_lt.1 hcsv, hnodup,
    ⟨n, hmem, htx, Nat.not_le.1 hindex⟩, ?_, hlayers, hlength⟩, rfl, hrefs⟩
  · rw [hrefs, length_map] at hmax
    exact Nat.not_lt.1 hmax
  · intro x hx
    obtain ⟨m, hm, rfl⟩ := mem_map.1 hx
    have hr := find?_eq_none.1 hreach m hm
    rw [← mem_reachable hnodup (mem_map.2 ⟨n, hmem, htx⟩)]
    simpa using hr

theorem Proof.checked (p : Proof) : Checked p.targetOutpoint p.csvDelay p.nodes p.layers := by
  obtain ⟨refs, h⟩ := p.built
  exact (buildProof_ok h).1

theorem newProof_eq_ok (h : newProof target csvDelay refs = .ok p) :
    p.targetOutpoint = target ∧ buildProof target csvDelay refs = .ok (p.nodes, p.layers) := by
  unfold newProof at h
  split at h
  · cases h
  · next hbuild =>
    cases h
    exact ⟨rfl, hbuild⟩

theorem exists_newProof (h : buildProof target csvDelay refs = .ok (nodes, layers)) :
    ∃ p, newProof target csvDelay refs = .ok p ∧ p.nodes = nodes ∧ p.layers = layers := by
  unfold newProof
  split
  · next h' => cases h.symm.trans h'
  · next h' =>
    cases h.symm.trans h'
    exact ⟨_, rfl, rfl, rfl⟩

theorem newProof_eq_error (h : newProof target csvDelay refs = .error e) :
    buildProof target csvDelay refs = .error e := by
  unfold newProof at h
  split at h
  · next hbuild =>
    cases h
    exact hbuild
  · cases h

end

/-! ## The layers of a proof -/

namespace Proof

variable (p : Proof)

theorem txids_nodup : p.txids.Nodup := p.checked.nodup

theorem peeled : Graph.Peeled p.txids (parentsOf p.nodes) p.layers := by
  rw [p.checked.layers_eq]
  exact (Graph.layering_spec (nodes_edges p.txids_nodup) sortHashes_perm).1

/-- As many txids came out of the rounds as there are nodes, so every node did. -/
theorem flatten_perm : p.layers.flatten.Perm p.txids := by
  refine (p.peeled.nodup.subperm p.peeled.subset).perm_of_length_le ?_
  rw [p.checked.length, txids, length_map]

theorem exists_inLayer (hx : x ∈ p.txids) : ∃ i, Graph.InLayer p.layers i x :=
  Graph.mem_flatten_iff.1 (p.flatten_perm.mem_iff.2 hx)

theorem mem_of_inLayer (h : Graph.InLayer p.layers i x) : x ∈ p.txids :=
  p.flatten_perm.mem_iff.1 (Graph.mem_flatten_iff.2 ⟨i, h⟩)

theorem layer_eq_some : p.layer x = some i ↔ Graph.InLayer p.layers i x := by
  constructor
  · intro h
    obtain ⟨hi, hx, -⟩ := findIdx?_eq_some_iff_getElem.1 h
    exact ⟨p.layers[i], getElem?_eq_getElem hi, by simpa using hx⟩
  intro h
  cases hl : p.layer x with
  | none =>
    obtain ⟨l, hl', hx⟩ := h
    have hno := findIdx?_eq_none_iff.1 hl l (mem_of_getElem? hl')
    simp [hx] at hno
  | some k =>
    obtain ⟨hk, hx, -⟩ := findIdx?_eq_some_iff_getElem.1 hl
    have hk' : Graph.InLayer p.layers k x :=
      ⟨p.layers[k], getElem?_eq_getElem hk, by simpa using hx⟩
    rw [p.peeled.inLayer_unique hk' h]

theorem target_mem : p.targetOutpoint.hash ∈ p.txids := by
  obtain ⟨n, hn, htx, -⟩ := p.checked.output
  exact mem_map.2 ⟨n, hn, htx⟩

theorem mem_of_spends (h : Spends p.nodes x y) : x ∈ p.txids ∧ y ∈ p.txids := by
  obtain ⟨hy, n, hn, rfl, -⟩ := h
  exact ⟨mem_map_of_mem hn, hy⟩

theorem lt_of_spends (h : Spends p.nodes x y) (hx : p.layer x = some i) (hy : p.layer y = some j) :
    j < i := by
  obtain ⟨k, hk, hky⟩ :=
    p.peeled.below i x (p.layer_eq_some.1 hx) y ((mem_parentsOf p.txids_nodup).2 h)
  rwa [p.peeled.inLayer_unique (p.layer_eq_some.1 hy) hky]

theorem exists_spends (hx : p.layer x = some (i + 1)) :
    ∃ y, Spends p.nodes x y ∧ p.layer y = some i := by
  obtain ⟨y, hy, hyi⟩ := p.peeled.tight i x (p.layer_eq_some.1 hx)
  exact ⟨y, (mem_parentsOf p.txids_nodup).1 hy, p.layer_eq_some.2 hyi⟩

theorem below_target (hx : x ∈ p.txids) (hne : x ≠ p.targetOutpoint.hash)
    (ht : Graph.InLayer p.layers i p.targetOutpoint.hash) :
    ∃ j < i, Graph.InLayer p.layers j x := by
  rcases Relation.reflTransGen_iff_eq_or_transGen.1 (p.checked.reachable x hx) with heq | htrans
  · exact absurd heq hne
  · rw [spends_iff p.txids_nodup] at htrans
    exact p.peeled.below_trans ht htrans

theorem ne_nil_of_mem_layers (h : l ∈ p.layers) : l ≠ [] := by
  rw [p.checked.layers_eq] at h
  exact Graph.ne_nil_of_mem_layersFrom h

theorem getLast_layers : p.layers.getLast? = some [p.targetOutpoint.hash] := by
  obtain ⟨i, ht⟩ := p.exists_inLayer p.target_mem
  have hne : p.layers ≠ [] := by
    rintro h
    obtain ⟨l, hl, -⟩ := ht
    rw [h] at hl
    cases hl
  rw [getLast?_eq_some_getLast hne, Option.some_inj]
  generalize hlast : p.layers.getLast hne = l
  have hl : p.layers[p.layers.length - 1]? = some l := by
    rw [← hlast, getLast_eq_getElem, getElem?_eq_getElem]
  have hmem : ∀ x ∈ l, x = p.targetOutpoint.hash := by
    intro x hx
    by_contra hxt
    have hin : Graph.InLayer p.layers (p.layers.length - 1) x := ⟨l, hl, hx⟩
    obtain ⟨j, hj, hxj⟩ := p.below_target (p.mem_of_inLayer hin) hxt ht
    obtain ⟨t, htl, -⟩ := ht
    have hlen := (List.getElem?_eq_some_iff.1 htl).1
    have hjl := p.peeled.inLayer_unique hxj hin
    omega
  have hnodup : l.Nodup := (nodup_flatten.1 p.peeled.nodup).1 l (mem_of_getElem? hl)
  cases l with
  | nil => exact absurd rfl (p.ne_nil_of_mem_layers (mem_of_getElem? hl))
  | cons x l =>
    obtain rfl := hmem x mem_cons_self
    cases l with
    | nil => rfl
    | cons y l =>
      have hy := hmem y (mem_cons_of_mem _ mem_cons_self)
      rw [hy] at hnodup
      exact absurd mem_cons_self (nodup_cons.1 hnodup).1

end Proof

/-! ## What is refused -/

inductive Faulty (target : OutPoint) (refs : List (Option NodeRef)) : Prop
  | nilNode (h : none ∈ refs)
  | nilTx (kind : NodeKind) (h : some ⟨kind, none⟩ ∈ refs)
  | duplicate (h : ¬ ((givenNodes refs).map Node.txid).Nodup)
  | absent (h : target.hash ∉ (givenNodes refs).map Node.txid)
  | outOfRange (n : Node) (hn : n ∈ givenNodes refs) (htx : n.txid = target.hash)
      (h : n.tx.txOut.length ≤ target.index.toNat)
  | stray (x : Hash) (hx : x ∈ (givenNodes refs).map Node.txid)
      (h : ¬ Relation.ReflTransGen (Spends (givenNodes refs)) target.hash x)
  | cycle (x : Hash) (hx : x ∈ (givenNodes refs).map Node.txid)
      (h : Relation.TransGen (Spends (givenNodes refs)) x x)

section

variable {nodes : List Node}

theorem buildLayers_error (hn : (nodes.map Node.txid).Nodup) (h : buildLayers nodes = .error e) :
    ∃ x ∈ nodes.map Node.txid, Relation.TransGen (Spends nodes) x x := by
  unfold buildLayers at h
  dsimp only at h
  split at h
  · next hlen =>
    have he := nodes_edges hn
    obtain ⟨hpeeled, hmax⟩ := Graph.layering_spec he sortHashes_perm
    obtain ⟨x, hx, hleft⟩ : ∃ x ∈ nodes.map Node.txid, x ∉ (Graph.layering (nodes.map Node.txid)
        (parentsOf nodes) (childrenOf nodes) sortHashes).flatten := by
      by_contra hall
      push Not at hall
      have hle := (hn.subperm hall).length_le
      have hge := (hpeeled.nodup.subperm hpeeled.subset).length_le
      rw [length_map] at hle hge
      omega
    rw [spends_iff hn]
    exact Graph.exists_cycle he.parents_mem hmax hx hleft
  · cases h

theorem buildProof_error (h : buildProof target csvDelay refs = .error e)
    (hpos : 1 ≤ refs.length) (hmax : refs.length ≤ maxProofNodes) (hcsv : csvDelay ≤ maxCSVDelay) :
    Faulty target refs := by
  unfold buildProof at h
  rw [if_neg (Nat.ne_of_gt hpos), if_neg (Nat.not_lt.2 hmax), if_neg (UInt32.not_lt.2 hcsv)] at h
  obtain ⟨e, -, hnone | ⟨kind, hnil⟩ | hdup⟩ | ⟨hidx, hnodup, -⟩ :=
    indexNodes_cases refs [] nodup_nil
  · exact .nilNode hnone
  · exact .nilTx kind hnil
  · exact .duplicate hdup
  · rw [hidx] at h
    dsimp only [bind, Except.bind, nil_append] at h hnodup
    split at h
    · next hfind => exact .absent (findNode_eq_none.1 hfind)
    next n hfind =>
    obtain ⟨hmem, htx⟩ := (findNode_eq_some hnodup).1 hfind
    split at h
    · next hindex => exact .outOfRange n hmem htx hindex
    split at h
    · next m hm =>
      have hreach : m.txid ∉ collectReachableAncestors (givenNodes refs) target.hash := by
        simpa using find?_some hm
      rw [mem_reachable hnodup (mem_map.2 ⟨n, hmem, htx⟩)] at hreach
      exact .stray m.txid (mem_map_of_mem (mem_of_find?_eq_some hm)) hreach
    · split at h
      · next hbuild =>
        obtain ⟨x, hx, hcycle⟩ := buildLayers_error hnodup hbuild
        exact .cycle x hx hcycle
      · cases h

end

structure Layered (target : OutPoint) (refs : List (Option NodeRef)) (p : Proof) : Prop where
  target_eq : p.targetOutpoint = target
  nodes_eq : refs = p.nodes.map (some ∘ Node.ref)
  partition : p.layers.flatten.Nodup ∧ p.layers.flatten.Perm (p.nodes.map Node.txid)
  layer_iff : ∀ x i, p.layer x = some i ↔ Graph.InLayer p.layers i x
  root : ∀ x i, p.layer x = some i → (∀ y, ¬ Spends p.nodes x y) → i = 0
  above : ∀ x i, p.layer x = some i → (∃ y, Spends p.nodes x y) →
    IsGreatest {k | ∃ y j, Spends p.nodes x y ∧ p.layer y = some j ∧ k = j + 1} i
  ancestor : ∀ x ∈ p.txids, Relation.ReflTransGen (Spends p.nodes) target.hash x
  last : p.layers.getLast? = some [target.hash]

/-- The layers of an accepted list are the ranks of its nodes, and a list that is not too long is
refused for a fault of its own or for its delay. -/
theorem newProof_correct (target : OutPoint) (csvDelay : UInt32) (refs : List (Option NodeRef)) :
    (∀ p, newProof target csvDelay refs = .ok p → Layered target refs p) ∧
      ∀ e, newProof target csvDelay refs = .error e → 1 ≤ refs.length →
        refs.length ≤ maxProofNodes → Faulty target refs ∨ maxCSVDelay < csvDelay := by
  constructor
  · intro p h
    obtain ⟨rfl, hbuild⟩ := newProof_eq_ok h
    obtain ⟨-, -, hrefs⟩ := buildProof_ok hbuild
    refine ⟨rfl, hrefs, ⟨p.peeled.nodup, p.flatten_perm⟩, fun x i => p.layer_eq_some, ?_, ?_,
      p.checked.reachable, p.getLast_layers⟩
    · intro x i hx hroot
      cases i with
      | zero => rfl
      | succ i =>
        obtain ⟨y, hy, -⟩ := p.exists_spends hx
        exact absurd hy (hroot y)
    · rintro x i hx ⟨y, hy⟩
      constructor
      · obtain ⟨j, hj⟩ := p.exists_inLayer (p.mem_of_spends hy).2
        cases i with
        | zero => exact absurd (p.lt_of_spends hy hx (p.layer_eq_some.2 hj)) (Nat.not_lt_zero j)
        | succ i =>
          obtain ⟨z, hz, hzi⟩ := p.exists_spends hx
          exact ⟨z, i, hz, hzi, rfl⟩
      · rintro k ⟨z, j, hz, hj, rfl⟩
        exact p.lt_of_spends hz hx hj
  · intro e h hpos hmax
    rcases UInt32.lt_or_le maxCSVDelay csvDelay with hcsv | hcsv
    · exact .inr hcsv
    · exact .inl (buildProof_error (newProof_eq_error h) hpos hmax hcsv)

def soleTx : MsgTx := ⟨⟨.replicate 32 1, rfl⟩, [⟨⟨.replicate 32 0, rfl⟩, 0⟩], [⟨1000, []⟩]⟩

def soleRef : Option NodeRef := some ⟨.tree, some soleTx⟩

theorem buildProof_sole : buildProof ⟨soleTx.txHash, 0⟩ 144 [soleRef] =
    .ok ([⟨.tree, soleTx⟩], [[soleTx.txHash]]) := by decide +kernel

def soleProof : Proof :=
  ⟨⟨soleTx.txHash, 0⟩, 144, [⟨.tree, soleTx⟩], [[soleTx.txHash]], [soleRef], buildProof_sole⟩

theorem newProof_correct_sole :
    (∃ p, newProof ⟨soleTx.txHash, 0⟩ 144 [soleRef] = .ok p ∧
      Layered ⟨soleTx.txHash, 0⟩ [soleRef] p) ∧
    ∃ e, newProof ⟨soleTx.txHash, 0⟩ 144 [soleRef, soleRef] = .error e ∧
      (Faulty ⟨soleTx.txHash, 0⟩ [soleRef, soleRef] ∨ maxCSVDelay < 144) := by
  constructor
  · obtain ⟨p, hp, -⟩ := exists_newProof buildProof_sole
    exact ⟨p, hp, (newProof_correct _ _ _).1 p hp⟩
  · have h : newProof ⟨soleTx.txHash, 0⟩ 144 [soleRef, soleRef] =
        .error (.duplicateTxid soleTx.txHash) := rfl
    exact ⟨_, h, (newProof_correct _ _ _).2 _ h (by decide) (by decide)⟩

/-- A sound list is refused for a delay above what a relative lock time can hold. -/
theorem newProof_refuses_delay :
    newProof ⟨soleTx.txHash, 0⟩ 65536 [soleRef] = .error .csvDelayTooLarge ∧
      1 ≤ [soleRef].length ∧ [soleRef].length ≤ maxProofNodes ∧
      ¬ Faulty ⟨soleTx.txHash, 0⟩ [soleRef] := by
  refine ⟨rfl, by decide, by decide, fun hfaulty => ?_⟩
  have hno : ∀ x y, ¬ Spends (givenNodes [soleRef]) x y := by
    rintro x y ⟨hy, n, hn, -, hin⟩
    obtain rfl := mem_singleton.1 hn
    obtain rfl := mem_singleton.1 hy
    exact absurd hin (by decide)
  cases hfaulty with
  | nilNode h => exact absurd h (by decide)
  | nilTx kind h =>
    rw [mem_singleton] at h
    cases h
  | duplicate h | absent h => exact h (by decide)
  | outOfRange n hn htx h =>
    obtain rfl := mem_singleton.1 hn
    exact absurd h (by decide)
  | stray x hx h =>
    obtain rfl := mem_singleton.1 hx
    exact h .refl
  | cycle x hx h =>
    obtain ⟨y, hy, -⟩ := Relation.TransGen.head'_iff.1 h
    exact hno x y hy

end Wavelength.Recovery
