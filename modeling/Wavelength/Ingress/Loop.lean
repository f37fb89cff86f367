import Wavelength.Base.Machine
import Wavelength.Ingress.Dispatch

/-! # The ingress loop

The pull, dispatch and ack loop with its four cursors, on the transactional and
on the legacy path, as a machine: one action is an ack phase or a pull with the
dispatch that follows. A crash may come between any two of them, and a restart
begins at the checkpoint.
-/

namespace Wavelength.Ingress

structure AckState where
  pullCursor : ℕ := 0
  dispatchCommittedTo : ℕ := 0
  ackTarget : ℕ := 0
  ackCommittedTo : ℕ := 0

namespace AckState

variable (s : AckState)

def advanceDispatch (nextCursor : ℕ) : AckState :=
  let dispatchCommittedTo := max s.dispatchCommittedTo nextCursor
  { s with
    dispatchCommittedTo := dispatchCommittedTo
    ackTarget := max s.ackTarget dispatchCommittedTo }

def advanceAck : AckState :=
  { s with ackCommittedTo := s.ackTarget, pullCursor := max s.pullCursor s.ackTarget }

def needsAck : Bool := s.ackCommittedTo < s.ackTarget

def dispatchedTo (cursor : ℕ) : AckState := { s.advanceDispatch cursor with pullCursor := cursor }

end AckState

structure RedriveState where
  deferredSeq : ℕ := 0
  servedNonTxSeq : ℕ := 0

/-- The surroundings of a folded dispatch. The store may run the body of the
transaction several times; all attempts but the last are rolled back. -/
structure FoldAnswers where
  hasWaiter : CorrelationId → Bool := fun _ => false
  deliverResponse : Envelope → DeliveryResult := fun _ => .waiter
  serve : Envelope → DispatchResult := fun _ => .delivered true
  replays : List Answers := []
  last : Answers := {}
  commits : Bool := true

def deliverWaiterResponses (deliver : Envelope → DeliveryResult) (responses : List Envelope) :
    List Envelope × List Envelope :=
  responses.partition (deliver · = .waiter)

/-- The envelopes a pass has settled for good, whatever becomes of its transaction. -/
def settledAtOnce (handled : List (Envelope × Handled)) : List Envelope :=
  (handled.filter fun x => x.2.settles && !x.2.inTx).map Prod.fst

def settledBy (handled : List (Envelope × Handled)) : List Envelope :=
  (handled.filter fun x => x.2.settles).map Prod.fst

/-- The attempts that the store rolls back: what they have settled, and the
envelopes they have handed over outside the transaction. -/
def runReplays (cfg : Config) (durables : List Envelope) :
    List Answers → List ℕ → List Envelope × List ℕ
  | [], seen => ([], seen)
  | ans :: rest, seen =>
    let p := (dispatchBatch cfg ans true durables { seen := seen }).1
    let (settled, seen') := runReplays cfg durables rest p.seen
    (settledAtOnce p.handled ++ settled, seen')

structure FoldResult where
  state : AckState
  redrive : RedriveState
  error : Option DispatchError
  settled : List Envelope
  /-- The transaction has committed, with the checkpoint at `state`. -/
  committed : Bool

/-- The transaction of a folded dispatch. -/
def foldTx (cfg : Config) (ans : FoldAnswers) (durables : List Envelope) (nextCursor : ℕ)
    (state : AckState) (redrive : RedriveState) (settled : List Envelope) : FoldResult :=
  let (replayed, seen) := runReplays cfg durables ans.replays []
  let (p, e) := dispatchBatch cfg ans.last true durables { seen := seen }
  let failed (e : DispatchError) : FoldResult :=
    ⟨state, redrive, some e, settled ++ replayed ++ settledAtOnce p.handled, false⟩
  let commit (cursor : ℕ) : FoldResult :=
    if ans.commits then
      ⟨state.dispatchedTo cursor, redrive, e, settled ++ replayed ++ settledBy p.handled, true⟩
    else failed .other
  match e with
  | none => commit nextCursor
  | some (.deferred eventSeq) => commit (deferredCursor eventSeq state.pullCursor)
  | some e => failed e

def runFoldedDispatch (cfg : Config) (ans : FoldAnswers) (resp : PullResponse) (state : AckState)
    (redrive : RedriveState) : FoldResult :=
  let envelopes := cfg.dropForeignSenders resp.envelopes
  if envelopes.all cfg.validateInboundEnvelope then
    let (envelopes, nextCursor) := clampToDeferred envelopes resp.nextCursor redrive.deferredSeq
    let (responses, nonTx, durables) := splitIngressEnvelopes cfg ans.hasWaiter envelopes
    let (delivered, stragglers) := deliverWaiterResponses ans.deliverResponse responses
    let durables :=
      if stragglers = [] then durables else mergeEnvelopesByEventSeq durables stragglers
    let (served, requests, e) := dispatchNonTxRequests ans.serve nonTx redrive.servedNonTxSeq
    let redrive := { redrive with servedNonTxSeq := served }
    match e with
    | some e => ⟨state, redrive, some e, delivered ++ requests, false⟩
    | none => foldTx cfg ans durables nextCursor state redrive (delivered ++ requests)
  else ⟨state, redrive, some .version, [], false⟩

structure Loop where
  state : AckState
  ackDirty : Bool := false
  redrive : RedriveState := {}

/-- The loop, its checkpoint, the cursors passed to `AckUpTo` with the lifetime of the process in
which they were, and the envelopes pulled and settled. -/
structure State where
  checkpoint : AckState := {}
  loop : Option Loop := none
  lifetime : ℕ := 0
  acks : List (ℕ × ℕ) := []
  pulled : List Envelope := []
  settled : List Envelope := []

structure CycleAnswers where
  fold : FoldAnswers := {}
  legacy : Answers := {}
  saveOk : Bool := true

inductive Action
  | start
  | crash
  | ack (replyOk saveOk : Bool)
  | pull (resp : PullResponse) (ans : CycleAnswers)

section Step

variable (cfg : Config) (s : State)

/-- `ackPhase`, when there is something to ack. -/
def stepAck (l : Loop) (replyOk saveOk : Bool) : State :=
  let s := { s with acks := s.acks ++ [(s.lifetime, l.state.ackTarget)] }
  if replyOk then
    let state := l.state.advanceAck
    if cfg.txStore then { s with loop := some { l with state := state, ackDirty := true } }
    else
      { s with
        loop := some { l with state := state }
        checkpoint := if saveOk then state else s.checkpoint }
  else s

def stepIdle (l : Loop) (saveOk : Bool) : State :=
  if l.ackDirty && saveOk then
    { s with loop := some { l with ackDirty := false }, checkpoint := l.state }
  else s

def stepFold (l : Loop) (resp : PullResponse) (ans : FoldAnswers) : State :=
  let r := runFoldedDispatch cfg ans resp l.state l.redrive
  let s := { s with
    settled := s.settled ++ r.settled
    checkpoint := if r.committed then r.state else s.checkpoint }
  match r.error with
  | none => { s with loop := some ⟨r.state, false, { r.redrive with deferredSeq := 0 }⟩ }
  | some (.deferred eventSeq) =>
    { s with loop := some ⟨r.state, false, { r.redrive with deferredSeq := eventSeq }⟩ }
  | some .version => { s with loop := none }
  | some .other => { s with loop := some { l with redrive := r.redrive } }

def stepLegacy (l : Loop) (resp : PullResponse) (ans : Answers) (saveOk : Bool) : State :=
  let (p, e) := dispatchBatch cfg ans false resp.envelopes {}
  let s := { s with settled := s.settled ++ settledBy p.handled }
  let adopt (state : AckState) : State :=
    { s with
      loop := some { l with state := state }
      checkpoint := if saveOk then state else s.checkpoint }
  match e with
  | none => adopt (l.state.dispatchedTo (max p.lastCommitted resp.nextCursor))
  | some .version => { s with loop := none }
  | some _ =>
    let nextCursor := next64 p.lastCommitted
    if 0 < p.lastCommitted ∧ l.state.pullCursor < nextCursor then
      adopt (l.state.dispatchedTo nextCursor)
    else s

def stepPull (l : Loop) (resp : PullResponse) (ans : CycleAnswers) : State :=
  let s := { s with pulled := s.pulled ++ resp.envelopes }
  if resp.envelopes = [] then stepIdle s l ans.saveOk
  else if cfg.txStore then stepFold cfg s l resp ans.fold
  else stepLegacy cfg s l resp ans.legacy ans.saveOk

def step : Action → Option State
  | .start =>
    match s.loop with
    | none => some { s with loop := some { state := s.checkpoint }, lifetime := s.lifetime + 1 }
    | some _ => none
  | .crash => some { s with loop := none }
  | .ack replyOk saveOk =>
    match s.loop with
    | some l => if l.state.needsAck then some (stepAck cfg s l replyOk saveOk) else none
    | none => none
  | .pull resp ans =>
    match s.loop with
    | some l =>
      if !l.state.needsAck && validatePullCursor l.state.pullCursor resp then
        some (stepPull cfg s l resp ans)
      else none
    | none => none

end Step

def ingress (cfg : Config) : Machine State Action where
  init s := s = {}
  step := step cfg

end Wavelength.Ingress
