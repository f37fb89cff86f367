import Wavelength.Recovery.Snapshot
import Wavelength.Recovery.State

/-! # The exit planner

The planner keeps no state. It is given the txids that have confirmed and those that are in flight,
checks them against the proof, and says what can be sent, what has to wait, and whether the target
can be swept.
-/

namespace Wavelength.Unrollplan

open Recovery

inductive SweepStatus where
  | pending
  | broadcasted
  | confirmed
  | unknown (code : Int64) (h : code < 0 ∨ code > 2)
  deriving DecidableEq

structure SweepState where
  status : SweepStatus
  txid : Option Hash
  confirmHeight : Option Int32

structure State where
  confirmedTxids : List Hash
  inFlightTxids : List Hash
  targetConfirmHeight : Option Int32
  sweep : SweepState

structure CSVInfo where
  targetConfirmHeight : Int32
  maturityHeight : Int32
  blocksRemaining : Int32
  ready : Bool

structure TxFrontier where
  txid : Hash
  node : Option Node
  layer : ℕ
  parentTxids : List Hash

structure BlockedTx extends TxFrontier where
  missingParents : List Hash

structure Snapshot where
  ready : List TxFrontier
  inFlight : List TxFrontier
  blocked : List BlockedTx
  targetConfirmed : Bool
  targetConfirmHeight : Option Int32
  csv : Option CSVInfo
  allProofConfirmed : Bool
  needSweep : Bool
  done : Bool
  sweep : SweepState

inductive PlanError where
  | duplicate (label : String) (txid : Hash)
  | confirmedAndInFlight (txid : Hash)
  | confirmedNotInProof (txid : Hash)
  | inFlightNotInProof (txid : Hash)
  | heightWithoutTarget
  | targetWithoutHeight
  | negativeTargetHeight (height : Int32)
  | sweepCollides (txid : Hash)
  | pendingSweepTxid
  | pendingSweepHeight
  | broadcastedSweepWithoutTxid
  | broadcastedSweepHeight
  | broadcastedSweepWithoutTarget
  | confirmedSweepWithoutTxid
  | confirmedSweepWithoutHeight
  | negativeSweepHeight (height : Int32)
  | confirmedSweepWithoutTarget
  | confirmedSweepWithoutTargetHeight
  | sweepMaturity (e : SessionError)
  | sweepBeforeMaturity (height maturity : Int32)
  | unknownSweepStatus (code : Int64)
  | unknownTxid (txid : Hash)
  | unconfirmedParents (txid : Hash) (missing : List Hash)
  | inFlight (txid : Hash) (e : PlanError)
  | nilTargetHeight
  | maturity (e : SessionError)
  deriving DecidableEq

def hashSetFromSlice (label : String) : List Hash → List Hash → Except PlanError (List Hash)
  | [], set => .ok set
  | value :: values, set =>
    if value ∈ set then .error (.duplicate label value)
    else hashSetFromSlice label values (set ++ [value])

def ensureDisjoint (a b : List Hash) : Except PlanError Unit :=
  match a.find? (· ∈ b) with
  | none => .ok ()
  | some txid => .error (.confirmedAndInFlight txid)

def missingParentsFromSet (p : Proof) (confirmed : List Hash) (txid : Hash) :
    Except PlanError (List Hash) :=
  match p.parentTxids txid with
  | none => .error (.unknownTxid txid)
  | some parents => .ok (sortHashes (parents.filter (· ∉ confirmed)))

def ensureParentsConfirmed (p : Proof) (confirmed : List Hash) (txid : Hash) :
    Except PlanError Unit :=
  match missingParentsFromSet p confirmed txid with
  | .error e => .error e
  | .ok missing =>
    if missing.isEmpty then .ok () else .error (.unconfirmedParents txid missing)

def checkInProof (p : Proof) (err : Hash → PlanError) (txid : Hash) : Except PlanError Unit :=
  if (p.node txid).isNone then .error (err txid) else .ok ()

def checkTargetHeight (p : Proof) (confirmed : List Hash) (targetConfirmHeight : Option Int32) :
    Except PlanError Unit :=
  if targetConfirmHeight.isSome ∧ p.targetOutpoint.hash ∉ confirmed then
    .error .heightWithoutTarget
  else if p.targetOutpoint.hash ∈ confirmed ∧ targetConfirmHeight.isNone then
    .error .targetWithoutHeight
  else
    match targetConfirmHeight with
    | none => .ok ()
    | some h => if h < 0 then .error (.negativeTargetHeight h) else .ok ()

def checkCollision (p : Proof) (sweep : SweepState) : Except PlanError Unit :=
  match sweep.txid with
  | none => .ok ()
  | some txid => if (p.node txid).isSome then .error (.sweepCollides txid) else .ok ()

/-- The sweep has confirmed no earlier than the target allows it. -/
def checkSweepMaturity (p : Proof) (confirmHeight : Int32) (targetConfirmHeight : Option Int32) :
    Except PlanError Unit :=
  match targetConfirmHeight with
  | none => .error .confirmedSweepWithoutTargetHeight
  | some targetHeight =>
    match computeMaturityHeight targetHeight p.csvDelay with
    | .error e => .error (.sweepMaturity e)
    | .ok maturityHeight =>
      if confirmHeight < maturityHeight then
        .error (.sweepBeforeMaturity confirmHeight maturityHeight)
      else
        .ok ()

def checkSweepStatus (sweep : SweepState) (confirmed : List Hash) (p : Proof)
    (targetConfirmHeight : Option Int32) : Except PlanError Unit :=
  match sweep.status with
  | .pending =>
    if sweep.txid.isSome then .error .pendingSweepTxid
    else if sweep.confirmHeight.isSome then .error .pendingSweepHeight
    else .ok ()
  | .broadcasted =>
    if sweep.txid.isNone then .error .broadcastedSweepWithoutTxid
    else if sweep.confirmHeight.isSome then .error .broadcastedSweepHeight
    else if p.targetOutpoint.hash ∉ confirmed then .error .broadcastedSweepWithoutTarget
    else .ok ()
  | .confirmed =>
    if sweep.txid.isNone then .error .confirmedSweepWithoutTxid
    else
      match sweep.confirmHeight with
      | none => .error .confirmedSweepWithoutHeight
      | some confirmHeight =>
        if confirmHeight < 0 then .error (.negativeSweepHeight confirmHeight)
        else if p.targetOutpoint.hash ∉ confirmed then .error .confirmedSweepWithoutTarget
        else checkSweepMaturity p confirmHeight targetConfirmHeight
  | .unknown code _ => .error (.unknownSweepStatus code)

def validateSweepState (sweep : SweepState) (confirmed : List Hash) (p : Proof)
    (targetConfirmHeight : Option Int32) : Except PlanError Unit := do
  checkCollision p sweep
  checkSweepStatus sweep confirmed p targetConfirmHeight

def ensureInFlightParents (p : Proof) (confirmed : List Hash) (txid : Hash) :
    Except PlanError Unit :=
  (ensureParentsConfirmed p confirmed txid).mapError (.inFlight txid)

def checkSets (st : State) (p : Proof) (confirmed inflight : List Hash) :
    Except PlanError Unit := do
  ensureDisjoint confirmed inflight
  checkAll (checkInProof p .confirmedNotInProof) confirmed
  checkAll (checkInProof p .inFlightNotInProof) inflight
  checkTargetHeight p confirmed st.targetConfirmHeight
  validateSweepState st.sweep confirmed p st.targetConfirmHeight
  checkAll (ensureParentsConfirmed p confirmed) confirmed
  checkAll (ensureInFlightParents p confirmed) inflight

def State.validate (st : State) (p : Proof) : Except PlanError Unit := do
  let confirmed ← hashSetFromSlice "confirmed txids" st.confirmedTxids []
  let inflight ← hashSetFromSlice "in-flight txids" st.inFlightTxids []
  checkSets st p confirmed inflight

/-! ## The plan -/

structure Frontiers where
  ready : List TxFrontier
  inFlight : List TxFrontier
  blocked : List BlockedTx

def place (p : Proof) (confirmed inflight : List Hash) (b : Frontiers) (entry : Hash × ℕ) :
    Except PlanError Frontiers :=
  match p.parentTxids entry.1 with
  | none => .error (.unknownTxid entry.1)
  | some parentTxids =>
    let frontier : TxFrontier := ⟨entry.1, p.node entry.1, entry.2, parentTxids⟩
    if entry.1 ∈ confirmed then .ok b
    else if entry.1 ∈ inflight then .ok { b with inFlight := b.inFlight ++ [frontier] }
    else
      match missingParentsFromSet p confirmed entry.1 with
      | .error e => .error e
      | .ok missingParents =>
        if missingParents.isEmpty then .ok { b with ready := b.ready ++ [frontier] }
        else .ok { b with blocked := b.blocked ++ [⟨frontier, missingParents⟩] }

def csvInfoAt (p : Proof) (height : Int32) (targetConfirmHeight : Option Int32) :
    Except PlanError CSVInfo :=
  match targetConfirmHeight with
  | none => .error .nilTargetHeight
  | some confirmHeight =>
    match computeMaturityHeight confirmHeight p.csvDelay with
    | .error e => .error (.maturity e)
    | .ok maturityHeight =>
      let blocksRemaining := maturityHeight - height
      .ok {
        targetConfirmHeight := confirmHeight
        maturityHeight
        blocksRemaining := if blocksRemaining < 0 then 0 else blocksRemaining
        ready := height ≥ maturityHeight }

def allProofTxidsConfirmed (p : Proof) (confirmed : List Hash) : Bool :=
  p.layers.all fun layer => layer.all (· ∈ confirmed)

def Before (a b : TxFrontier) : Prop := a.layer < b.layer ∨ a.layer = b.layer ∧ a.txid ≤ b.txid

instance : DecidableRel Before := fun a b =>
  inferInstanceAs (Decidable (a.layer < b.layer ∨ a.layer = b.layer ∧ a.txid ≤ b.txid))

def sortFrontier (l : List TxFrontier) : List TxFrontier := l.insertionSort Before

def sortBlocked (l : List BlockedTx) : List BlockedTx :=
  l.insertionSort fun a b => Before a.toTxFrontier b.toTxFrontier

def targetInfo (p : Proof) (height : Int32) (st : State) (confirmed : List Hash) :
    Except PlanError (Option CSVInfo) :=
  if p.targetOutpoint.hash ∈ confirmed then (csvInfoAt p height st.targetConfirmHeight).map some
  else .ok none

def plan (p : Proof) (height : Int32) (st : State) : Except PlanError Snapshot := do
  st.validate p
  let confirmed ← hashSetFromSlice "confirmed txids" st.confirmedTxids []
  let inflight ← hashSetFromSlice "in-flight txids" st.inFlightTxids []
  let b ← (Session.walk p).foldlM (place p confirmed inflight) ⟨[], [], []⟩
  let csv ← targetInfo p height st confirmed
  pure {
    ready := sortFrontier b.ready
    inFlight := sortFrontier b.inFlight
    blocked := sortBlocked b.blocked
    targetConfirmed := p.targetOutpoint.hash ∈ confirmed
    targetConfirmHeight := st.targetConfirmHeight
    csv
    allProofConfirmed := allProofTxidsConfirmed p confirmed
    needSweep := csv.any (·.ready) && st.sweep.status = .pending
    done := st.sweep.status = .confirmed
    sweep := st.sweep }

/-! ## What is accepted -/

section

variable {label : String} {confirmed inflight set values : List Hash}

theorem hashSetFromSlice_eq_ok (hset : set.Nodup) :
    hashSetFromSlice label values set = .ok confirmed ↔
      confirmed = set ++ values ∧ (set ++ values).Nodup := by
  induction values generalizing set with
  | nil => rw [hashSetFromSlice, Except.ok.injEq, List.append_nil, and_iff_left hset, eq_comm]
  | cons value values ih =>
    unfold hashSetFromSlice
    split
    · next hmem =>
      refine iff_of_false nofun fun h => ?_
      exact (List.nodup_append'.1 h.2).2.2 hmem List.mem_cons_self
    next hmem =>
    have hset' : (set ++ [value]).Nodup := by
      rw [List.nodup_append_comm]
      exact List.nodup_cons.2 ⟨hmem, hset⟩
    rw [ih hset', List.append_assoc, List.singleton_append]

theorem hashSetFromSlice_nil :
    hashSetFromSlice label values [] = .ok confirmed ↔ confirmed = values ∧ values.Nodup := by
  rw [hashSetFromSlice_eq_ok List.nodup_nil, List.nil_append]

theorem ensureDisjoint_eq_ok :
    ensureDisjoint confirmed inflight = .ok () ↔ ∀ x ∈ confirmed, x ∉ inflight := by
  unfold ensureDisjoint
  split
  · next h =>
    refine iff_of_true rfl fun x hx => ?_
    simpa using List.find?_eq_none.1 h x hx
  · next txid h =>
    refine iff_of_false nofun fun hall => hall txid (List.mem_of_find?_eq_some h) ?_
    simpa using List.find?_some h

theorem checkInProof_eq_ok : checkInProof p err x = .ok () ↔ x ∈ p.txids := by
  unfold checkInProof
  split
  · next h => exact iff_of_false nofun (Proof.node_isNone.1 h)
  · next h => exact iff_of_true rfl (not_not.1 fun hx => h (Proof.node_isNone.2 hx))

def missing (p : Proof) (confirmed : List Hash) (x : Hash) : List Hash :=
  sortHashes ((parentsOf p.nodes x).filter (· ∉ confirmed))

theorem missing_eq_nil : missing p confirmed x = [] ↔ ∀ y, Spends p.nodes x y → y ∈ confirmed := by
  simp only [missing, List.eq_nil_iff_forall_not_mem, mem_sortHashes, List.mem_filter,
    mem_parentsOf p.txids_nodup, decide_eq_true_eq, not_and, not_not]

theorem missingParentsFromSet_of_mem (hx : x ∈ p.txids) :
    missingParentsFromSet p confirmed x = .ok (missing p confirmed x) := by
  unfold missingParentsFromSet
  rw [Proof.parentTxids_of_mem hx]
  rfl

theorem ensureParentsConfirmed_eq_ok (hx : x ∈ p.txids) :
    ensureParentsConfirmed p confirmed x = .ok () ↔ ∀ y, Spends p.nodes x y → y ∈ confirmed := by
  unfold ensureParentsConfirmed
  rw [missingParentsFromSet_of_mem hx, ← missing_eq_nil, ← List.isEmpty_iff]
  dsimp only
  split
  · next h => exact iff_of_true rfl h
  · next h => exact iff_of_false nofun h

theorem ensureInFlightParents_eq_ok (hx : x ∈ p.txids) :
    ensureInFlightParents p confirmed x = .ok () ↔ ∀ y, Spends p.nodes x y → y ∈ confirmed := by
  rw [← ensureParentsConfirmed_eq_ok hx, ensureInFlightParents]
  cases ensureParentsConfirmed p confirmed x with
  | error e => exact iff_of_false nofun nofun
  | ok u => exact Iff.rfl

theorem checkTargetHeight_eq_ok :
    checkTargetHeight p confirmed h = .ok () ↔
      (h.isSome ↔ p.targetOutpoint.hash ∈ confirmed) ∧ ∀ k, h = some k → ¬ k < 0 := by
  unfold checkTargetHeight
  cases h with
  | none =>
    by_cases ht : p.targetOutpoint.hash ∈ confirmed <;> simp [ht]
  | some k =>
    by_cases ht : p.targetOutpoint.hash ∈ confirmed
    · by_cases hk : k < 0
      · simp [ht, hk]
      · simp [ht, hk, Int32.not_lt.1 hk]
    · simp [ht]

structure Valid (p : Proof) (st : State) : Prop where
  confirmed_nodup : st.confirmedTxids.Nodup
  inFlight_nodup : st.inFlightTxids.Nodup
  disjoint : ∀ x ∈ st.confirmedTxids, x ∉ st.inFlightTxids
  confirmed_mem : ∀ x ∈ st.confirmedTxids, x ∈ p.txids
  inFlight_mem : ∀ x ∈ st.inFlightTxids, x ∈ p.txids
  height : st.targetConfirmHeight.isSome ↔ p.targetOutpoint.hash ∈ st.confirmedTxids
  nonneg : ∀ k, st.targetConfirmHeight = some k → ¬ k < 0
  sweep : validateSweepState st.sweep st.confirmedTxids p st.targetConfirmHeight = .ok ()
  closed : ∀ x ∈ st.confirmedTxids, ∀ y, Spends p.nodes x y → y ∈ st.confirmedTxids
  backed : ∀ x ∈ st.inFlightTxids, ∀ y, Spends p.nodes x y → y ∈ st.confirmedTxids

theorem checkSets_eq_ok : checkSets st p st.confirmedTxids st.inFlightTxids = .ok () ↔
    (∀ x ∈ st.confirmedTxids, x ∉ st.inFlightTxids) ∧ (∀ x ∈ st.confirmedTxids, x ∈ p.txids) ∧
      (∀ x ∈ st.inFlightTxids, x ∈ p.txids) ∧
      ((st.targetConfirmHeight.isSome ↔ p.targetOutpoint.hash ∈ st.confirmedTxids) ∧
        ∀ k, st.targetConfirmHeight = some k → ¬ k < 0) ∧
      validateSweepState st.sweep st.confirmedTxids p st.targetConfirmHeight = .ok () ∧
      (∀ x ∈ st.confirmedTxids, ∀ y, Spends p.nodes x y → y ∈ st.confirmedTxids) ∧
      ∀ x ∈ st.inFlightTxids, ∀ y, Spends p.nodes x y → y ∈ st.confirmedTxids := by
  unfold checkSets
  simp only [then_eq_ok, checkAll_eq_ok, ensureDisjoint_eq_ok, checkInProof_eq_ok,
    checkTargetHeight_eq_ok]
  refine and_congr_right fun _ => and_congr_right fun hc => and_congr_right fun hi =>
    and_congr_right fun _ => and_congr_right fun _ => and_congr ?_ ?_
  · exact forall₂_congr fun x hx => ensureParentsConfirmed_eq_ok (hc x hx)
  · exact forall₂_congr fun x hx => ensureInFlightParents_eq_ok (hi x hx)

theorem validate_eq_ok : st.validate p = .ok () ↔ Valid p st := by
  have hbind : st.validate p = .ok () ↔ (st.confirmedTxids.Nodup ∧ st.inFlightTxids.Nodup) ∧
      checkSets st p st.confirmedTxids st.inFlightTxids = .ok () := by
    unfold State.validate
    cases hc : hashSetFromSlice "confirmed txids" st.confirmedTxids [] with
    | error e =>
      refine iff_of_false nofun fun h => ?_
      exact nomatch hc.symm.trans (hashSetFromSlice_nil.2 ⟨rfl, h.1.1⟩)
    | ok confirmed =>
      obtain ⟨rfl, hcn⟩ := hashSetFromSlice_nil.1 hc
      cases hi : hashSetFromSlice "in-flight txids" st.inFlightTxids [] with
      | error e =>
        refine iff_of_false nofun fun h => ?_
        exact nomatch hi.symm.trans (hashSetFromSlice_nil.2 ⟨rfl, h.1.2⟩)
      | ok inflight =>
        obtain ⟨rfl, hin⟩ := hashSetFromSlice_nil.1 hi
        exact (and_iff_right ⟨hcn, hin⟩).symm
  rw [hbind, checkSets_eq_ok]
  constructor
  · rintro ⟨⟨h₁, h₂⟩, h₃, h₄, h₅, ⟨h₆, h₇⟩, h₈, h₉, h₁₀⟩
    exact ⟨h₁, h₂, h₃, h₄, h₅, h₆, h₇, h₈, h₉, h₁₀⟩
  · intro h
    exact ⟨⟨h.confirmed_nodup, h.inFlight_nodup⟩, h.disjoint, h.confirmed_mem, h.inFlight_mem,
      ⟨h.height, h.nonneg⟩, h.sweep, h.closed, h.backed⟩

/-! ## What is planned -/

def frontierOf (p : Proof) (e : Hash × ℕ) : TxFrontier :=
  ⟨e.1, p.node e.1, e.2, parentsOf p.nodes e.1⟩

def frontiers (p : Proof) (confirmed inflight : List Hash) (es : List (Hash × ℕ)) : Frontiers where
  ready := (es.filter fun e =>
    e.1 ∉ confirmed ∧ e.1 ∉ inflight ∧ missing p confirmed e.1 = []).map (frontierOf p)
  inFlight := (es.filter fun e => e.1 ∉ confirmed ∧ e.1 ∈ inflight).map (frontierOf p)
  blocked := (es.filter fun e =>
    e.1 ∉ confirmed ∧ e.1 ∉ inflight ∧ missing p confirmed e.1 ≠ []).map fun e =>
      ⟨frontierOf p e, missing p confirmed e.1⟩

def Frontiers.append (b c : Frontiers) : Frontiers :=
  ⟨b.ready ++ c.ready, b.inFlight ++ c.inFlight, b.blocked ++ c.blocked⟩

theorem place_eq (b : Frontiers) (he : e.1 ∈ p.txids) :
    place p confirmed inflight b e = .ok (b.append (frontiers p confirmed inflight [e])) := by
  unfold place
  rw [Proof.parentTxids_of_mem he, missingParentsFromSet_of_mem he]
  dsimp only
  by_cases hc : e.1 ∈ confirmed
  · simp [frontiers, Frontiers.append, hc]
  by_cases hi : e.1 ∈ inflight
  · simp [frontiers, Frontiers.append, hc, hi, frontierOf]
  · by_cases hm : missing p confirmed e.1 = []
    · simp [frontiers, Frontiers.append, hc, hi, hm, frontierOf]
    · simp [frontiers, Frontiers.append, hc, hi, hm, frontierOf]

theorem frontiers_cons (e : Hash × ℕ) (es : List (Hash × ℕ)) :
    frontiers p confirmed inflight (e :: es) =
      (frontiers p confirmed inflight [e]).append (frontiers p confirmed inflight es) := by
  simp only [frontiers, Frontiers.append, ← List.map_append, ← List.filter_append,
    List.singleton_append]

theorem foldlM_place (b : Frontiers) {es : List (Hash × ℕ)} (h : ∀ e ∈ es, e.1 ∈ p.txids) :
    es.foldlM (place p confirmed inflight) b =
      .ok (b.append (frontiers p confirmed inflight es)) := by
  induction es generalizing b with
  | nil =>
    simp [frontiers, Frontiers.append]
    rfl
  | cons e es ih =>
    rw [List.foldlM_cons, place_eq b (h e List.mem_cons_self)]
    change es.foldlM (place p confirmed inflight) _ = _
    rw [ih _ fun e he => h e (List.mem_cons_of_mem _ he), frontiers_cons e es]
    simp [Frontiers.append]

/-- The plan of a valid state, given what is known of the target. -/
def planOf (p : Proof) (st : State) (csv : Option CSVInfo) : Snapshot :=
  let b := frontiers p st.confirmedTxids st.inFlightTxids (Session.walk p)
  { ready := sortFrontier b.ready
    inFlight := sortFrontier b.inFlight
    blocked := sortBlocked b.blocked
    targetConfirmed := p.targetOutpoint.hash ∈ st.confirmedTxids
    targetConfirmHeight := st.targetConfirmHeight
    csv
    allProofConfirmed := allProofTxidsConfirmed p st.confirmedTxids
    needSweep := csv.any (·.ready) && st.sweep.status = .pending
    done := st.sweep.status = .confirmed
    sweep := st.sweep }

theorem plan_eq (h : Valid p st) :
    plan p height st = (targetInfo p height st st.confirmedTxids).map (planOf p st) := by
  unfold plan
  rw [validate_eq_ok.2 h, hashSetFromSlice_nil.2 ⟨rfl, h.confirmed_nodup⟩,
    hashSetFromSlice_nil.2 ⟨rfl, h.inFlight_nodup⟩]
  change (do
    let b ← (Session.walk p).foldlM (place p st.confirmedTxids st.inFlightTxids) ⟨[], [], []⟩
    _) = _
  rw [foldlM_place _ fun e he => Session.mem_txids_of_mem_walk he]
  cases targetInfo p height st st.confirmedTxids with
  | error e | ok csv => rfl

theorem exists_walk : (∃ i, (x, i) ∈ Session.walk p) ↔ x ∈ p.txids :=
  ⟨fun ⟨_, hw⟩ => Session.mem_txids_of_mem_walk hw, Session.exists_mem_walk⟩

theorem mem_ready :
    (∃ f ∈ (planOf p st csv).ready, f.txid = x) ↔
      x ∈ p.txids ∧ x ∉ st.confirmedTxids ∧ x ∉ st.inFlightTxids ∧
        ∀ y, Spends p.nodes x y → y ∈ st.confirmedTxids := by
  rw [← missing_eq_nil, ← exists_walk]
  simp [planOf, sortFrontier, frontiers, frontierOf]

theorem mem_inFlight :
    (∃ f ∈ (planOf p st csv).inFlight, f.txid = x) ↔
      x ∈ p.txids ∧ x ∉ st.confirmedTxids ∧ x ∈ st.inFlightTxids := by
  rw [← exists_walk]
  simp [planOf, sortFrontier, frontiers, frontierOf]

theorem mem_blocked :
    (∃ b ∈ (planOf p st csv).blocked, b.txid = x ∧ b.missingParents = ms) ↔
      x ∈ p.txids ∧ x ∉ st.confirmedTxids ∧ x ∉ st.inFlightTxids ∧
        missing p st.confirmedTxids x ≠ [] ∧ missing p st.confirmedTxids x = ms := by
  rw [← exists_walk]
  simp [planOf, sortBlocked, frontiers, frontierOf, and_assoc]

end

/-! ## No exit is stuck -/

section

variable {p : Proof} {height : Int32}

/-- Everything is above the target, so everything has confirmed once the target has. -/
theorem Valid.all_confirmed (h : Valid p st) (ht : p.targetOutpoint.hash ∈ st.confirmedTxids)
    (hx : x ∈ p.txids) : x ∈ st.confirmedTxids := by
  induction p.checked.reachable x hx with
  | refl => exact ht
  | tail hreach hspends ih => exact h.closed _ (ih (p.mem_of_spends hspends).1) _ hspends

/-- The first layer that has not confirmed has a transaction whose parents have. -/
theorem exists_frontier {confirmed : List Hash} (hx : x ∈ p.txids) (hnot : x ∉ confirmed) :
    ∃ y ∈ p.txids, y ∉ confirmed ∧ ∀ z, Spends p.nodes y z → z ∈ confirmed := by
  obtain ⟨i, hi⟩ := p.exists_inLayer hx
  induction i using Nat.strong_induction_on generalizing x with
  | _ i ih =>
    by_cases hall : ∀ z, Spends p.nodes x z → z ∈ confirmed
    · exact ⟨x, hx, hnot, hall⟩
    push Not at hall
    obtain ⟨z, hz, hznot⟩ := hall
    obtain ⟨j, hj, hjz⟩ := p.peeled.below i x hi z ((mem_parentsOf p.txids_nodup).2 hz)
    exact ih j hj (p.mem_of_spends hz).2 hznot hjz

theorem computeMaturityHeight_ok (h : computeMaturityHeight k d = .ok m) :
    m.toInt = k.toInt + d.toNat ∧ 0 ≤ m.toInt := by
  unfold computeMaturityHeight at h
  split at h
  · cases h
  next hk =>
  split at h
  · cases h
  dsimp only at h
  split at h
  · cases h
  next hmax =>
  cases h
  have hk' : 0 ≤ k.toInt := by
    rw [Int32.lt_iff_toInt_lt] at hk
    simpa using hk
  have hsum := Int32.toInt_ofInt_of_le (n := k.toInt + d.toNat) (by omega) (by omega)
  exact ⟨hsum, by omega⟩

theorem computeMaturityHeight_error (hk : ¬ k < 0) (hd : d ≤ maxCSVDelay)
    (h : computeMaturityHeight k d = .error e) : ∃ maturity, e = .maturityOverflow maturity := by
  unfold computeMaturityHeight at h
  rw [if_neg hk, if_neg (UInt32.not_lt.2 hd)] at h
  dsimp only at h
  split at h
  · exact ⟨_, (Except.error.inj h).symm⟩
  · cases h

def ExactlyOne (a b c : Prop) : Prop := a ∧ ¬ b ∧ ¬ c ∨ ¬ a ∧ b ∧ ¬ c ∨ ¬ a ∧ ¬ b ∧ c

structure Planned (p : Proof) (st : State) (height : Int32) (snap : Snapshot) : Prop where
  one : ∀ x ∈ p.txids, x ∉ st.confirmedTxids →
    ExactlyOne (∃ f ∈ snap.ready, f.txid = x) (∃ f ∈ snap.inFlight, f.txid = x)
      (∃ b ∈ snap.blocked, b.txid = x)
  ready : ∀ f ∈ snap.ready, ∀ y, Spends p.nodes f.txid y → y ∈ st.confirmedTxids
  moving : p.targetOutpoint.hash ∉ st.confirmedTxids → snap.ready ≠ [] ∨ snap.inFlight ≠ []
  sweep : snap.needSweep = true → p.targetOutpoint.hash ∈ st.confirmedTxids ∧
    st.sweep.status = .pending ∧
    ∃ k, st.targetConfirmHeight = some k ∧ k.toInt + p.csvDelay.toNat ≤ height.toInt

theorem blocked_iff :
    (∃ b ∈ (planOf p st csv).blocked, b.txid = x) ↔
      x ∈ p.txids ∧ x ∉ st.confirmedTxids ∧ x ∉ st.inFlightTxids ∧
        ¬ ∀ y, Spends p.nodes x y → y ∈ st.confirmedTxids := by
  rw [← missing_eq_nil]
  constructor
  · rintro ⟨b, hb, hx⟩
    obtain ⟨hmem, hc, hi, hm, -⟩ := mem_blocked.1 ⟨b, hb, hx, rfl⟩
    exact ⟨hmem, hc, hi, hm⟩
  · rintro ⟨hmem, hc, hi, hm⟩
    obtain ⟨b, hb, hx, -⟩ := mem_blocked.2 ⟨hmem, hc, hi, hm, rfl⟩
    exact ⟨b, hb, hx⟩

theorem Valid.planned (h : Valid p st) (hcsv : targetInfo p height st st.confirmedTxids = .ok csv) :
    Planned p st height (planOf p st csv) := by
  constructor
  · intro x hx hnot
    unfold ExactlyOne
    rw [mem_ready, mem_inFlight, blocked_iff]
    by_cases hi : x ∈ st.inFlightTxids
    · exact .inr (.inl ⟨fun hr => hr.2.2.1 hi, ⟨hx, hnot, hi⟩, fun hb => hb.2.2.1 hi⟩)
    · by_cases hp : ∀ y, Spends p.nodes x y → y ∈ st.confirmedTxids
      · exact .inl ⟨⟨hx, hnot, hi, hp⟩, fun hf => hi hf.2.2, fun hb => hb.2.2.2 hp⟩
      · exact .inr (.inr ⟨fun hr => hp hr.2.2.2, fun hf => hi hf.2.2, hx, hnot, hi, hp⟩)
  · intro f hf
    exact (mem_ready.1 ⟨f, hf, rfl⟩).2.2.2
  · intro ht
    obtain ⟨y, hy, hynot, hparents⟩ := exists_frontier p.target_mem ht
    by_cases hi : y ∈ st.inFlightTxids
    · obtain ⟨f, hf, -⟩ := mem_inFlight.2 ⟨hy, hynot, hi⟩
      exact .inr (List.ne_nil_of_mem hf)
    · obtain ⟨f, hf, -⟩ := mem_ready.2 ⟨hy, hynot, hi, hparents⟩
      exact .inl (List.ne_nil_of_mem hf)
  · intro hneed
    obtain ⟨hready, hpending⟩ := Bool.and_eq_true_iff.1 hneed
    unfold targetInfo at hcsv
    split at hcsv
    · next ht =>
      refine ⟨ht, of_decide_eq_true hpending, ?_⟩
      unfold csvInfoAt at hcsv
      split at hcsv
      · cases hcsv
      next k hk =>
      split at hcsv
      · cases hcsv
      next m hm =>
      cases hcsv
      have hle : m ≤ height := of_decide_eq_true hready
      refine ⟨k, hk, ?_⟩
      rw [← (computeMaturityHeight_ok hm).1]
      exact Int32.le_iff_toInt_le.1 hle
    · cases hcsv
      cases hready

/-- The target of a valid state is refused its delay only for a height out of range. -/
theorem Valid.targetInfo_error (h : Valid p st)
    (he : targetInfo p height st st.confirmedTxids = .error e) :
    p.targetOutpoint.hash ∈ st.confirmedTxids ∧
      ∃ maturity, e = .maturity (.maturityOverflow maturity) := by
  unfold targetInfo at he
  split at he
  · next ht =>
    refine ⟨ht, ?_⟩
    obtain ⟨k, hk⟩ := Option.isSome_iff_exists.1 (h.height.2 ht)
    rw [hk] at he
    unfold csvInfoAt at he
    dsimp only at he
    split at he
    · next e' hm =>
      obtain ⟨m, rfl⟩ := computeMaturityHeight_error (h.nonneg k hk) p.checked.delay hm
      exact ⟨m, (Except.error.inj he).symm⟩
    · cases he
  · cases he

end

/-- Every accepted state is planned so that its exit goes on, or it has confirmed altogether and the
height at which its target matures is out of range. -/
theorem plan_goes_on (p : Proof) (st : State) (hvalid : st.validate p = .ok ()) (height : Int32) :
    (∃ snap, plan p height st = .ok snap ∧ Planned p st height snap) ∨
      (∃ maturity, plan p height st = .error (.maturity (.maturityOverflow maturity))) ∧
        ∀ x ∈ p.txids, x ∈ st.confirmedTxids := by
  have h := validate_eq_ok.1 hvalid
  rw [plan_eq h]
  cases hinfo : targetInfo p height st st.confirmedTxids with
  | ok csv => exact .inl ⟨_, rfl, h.planned hinfo⟩
  | error e =>
    obtain ⟨ht, m, rfl⟩ := h.targetInfo_error hinfo
    exact .inr ⟨⟨m, rfl⟩, fun x hx => h.all_confirmed ht hx⟩

theorem plan_goes_on_sole :
    ∃ snap, plan soleProof 5 ⟨[], [], none, ⟨.pending, none, none⟩⟩ = .ok snap ∧
      Planned soleProof ⟨[], [], none, ⟨.pending, none, none⟩⟩ 5 snap := by
  rcases plan_goes_on soleProof ⟨[], [], none, ⟨.pending, none, none⟩⟩ (by decide +kernel) 5 with
    h | ⟨-, h⟩
  · exact h
  · exact absurd (h _ soleProof.target_mem) List.not_mem_nil

end Wavelength.Unrollplan
