import Mathlib.Algebra.Group.Nat.Defs
import Mathlib.Data.List.Basic
import Mathlib.Tactic.Common

/-! # Dispatch of pulled envelopes

The functions that route a pulled batch: the checks on the response, the split
into waiter responses, hoisted requests and durable envelopes, and the dispatch
of a batch in order. Everything outside the loop (waiters, dispatchers, the
quarantine) answers through `Answers`. Sequence numbers and cursors are 64-bit.
-/

namespace Wavelength.Ingress

abbrev CorrelationId := ℕ

def maxUint64 : ℕ := 2 ^ 64 - 1

def next64 (n : ℕ) : ℕ := (n + 1) % 2 ^ 64

inductive Kind
  | request
  | response
  | event
  | unknown
  deriving DecidableEq

structure ServiceMethod where
  service : ℕ
  method : ℕ
  deriving DecidableEq

/-- `correlationId` is `none` for the empty string. -/
structure RpcMeta where
  kind : Kind
  route : ServiceMethod
  correlationId : Option CorrelationId := none
  deriving DecidableEq

structure Envelope where
  eventSeq : ℕ
  eventSeq_le : eventSeq ≤ maxUint64 := by decide
  sender : ℕ := 0
  protocolVersion : ℕ := 1
  arkProtocolVersion : ℕ := 1
  rpc : Option RpcMeta
  deriving DecidableEq

structure PullResponse where
  envelopes : List Envelope
  nextCursor : ℕ

structure Config where
  /-- The delivery store supports transactions. -/
  txStore : Bool
  inboundSenders : List ℕ := []
  mailboxProtocolVersion : ℕ := 1
  arkProtocolVersion : ℕ := 1
  dispatchers : List ServiceMethod
  nonTxRoutes : List ServiceMethod := []

/-- The loop of `validatePullCursor`: the last sequence number, unless one is zero,
below the cursor or not above its predecessor. -/
def lastSeq (cursor : ℕ) : ℕ → List Envelope → Option ℕ
  | previous, [] => some previous
  | previous, env :: rest =>
    if env.eventSeq = 0 ∨ env.eventSeq < cursor ∨ env.eventSeq ≤ previous then none
    else lastSeq cursor env.eventSeq rest

def validatePullCursor (cursor : ℕ) (resp : PullResponse) : Bool :=
  if resp.envelopes = [] then resp.nextCursor = 0 || resp.nextCursor = cursor
  else
    match lastSeq cursor 0 resp.envelopes with
    | none => false
    | some previous => previous ≠ maxUint64 && resp.nextCursor = next64 previous

namespace Config

variable (cfg : Config) (env : Envelope)

def inboundSenderAllowed : Bool := cfg.inboundSenders = [] || env.sender ∈ cfg.inboundSenders

def dropForeignSenders (envelopes : List Envelope) : List Envelope :=
  envelopes.filter cfg.inboundSenderAllowed

def validateInboundEnvelope : Bool :=
  env.protocolVersion = cfg.mailboxProtocolVersion &&
    env.arkProtocolVersion = cfg.arkProtocolVersion

def isNonTxRequest : Bool :=
  match env.rpc with
  | none => false
  | some rpc => rpc.kind = .request && rpc.route ∈ cfg.nonTxRoutes && rpc.route ∈ cfg.dispatchers

def isNonTxRoute : Bool :=
  match env.rpc with
  | none => false
  | some rpc => rpc.route ∈ cfg.nonTxRoutes

def resolvesToNonTxDispatcher (hasWaiter : CorrelationId → Bool) : Bool :=
  match env.rpc with
  | none => false
  | some rpc =>
    if rpc.kind = .request then false
    else if !cfg.isNonTxRoute env then false
    else if rpc.kind ≠ .response then true
    else
      match rpc.correlationId with
      | none => true
      | some corrId => !hasWaiter corrId

end Config

inductive DeliveryResult
  | waiter
  | buffered
  | dropped
  deriving DecidableEq

/-- What a dispatcher does with an envelope. `outsideTx` is a hand-over to a bounded
in-memory mailbox, which no rollback undoes; `full` is such a mailbox without
room. -/
inductive DispatchResult
  | delivered (outsideTx : Bool)
  | full
  | poison
  | failed

/-- The surroundings during one pass over a batch. -/
structure Answers where
  hasWaiter : CorrelationId → Bool := fun _ => false
  deliverResponse : Envelope → DeliveryResult := fun _ => .buffered
  dispatch : Envelope → DispatchResult := fun _ => .delivered false
  quarantine : Envelope → Bool := fun _ => true

inductive DispatchError
  | version
  | deferred (eventSeq : ℕ)
  | other

/-- What has become of an envelope. A skip moves the committed cursor only for a
response without a dispatcher. -/
inductive Handled
  | foreign
  | skipped (advance : Bool)
  | waiter
  | outside
  | replayed
  | durable
  | quarantined
  deriving DecidableEq

def Handled.advances : Handled → Bool
  | foreign => false
  | skipped advance => advance
  | waiter | outside | replayed | durable | quarantined => true

/-- The envelope has reached its waiter or dispatcher, is quarantined, or has been
skipped as unroutable. A replayed one did so in an earlier attempt. -/
def Handled.settles : Handled → Bool
  | foreign | replayed => false
  | skipped _ | waiter | outside | durable | quarantined => true

/-- The effect is undone when the transaction rolls back. -/
def Handled.inTx : Handled → Bool
  | durable | quarantined => true
  | foreign | skipped _ | waiter | outside | replayed => false

section DispatchBatch

variable (cfg : Config) (ans : Answers) (inFold : Bool)

/-- A dispatcher with `quarantinePoison` behind it. `seen` are the envelopes that an
earlier attempt of the same fold has handed over outside the transaction. -/
def runDispatcher (seen : List ℕ) (env : Envelope) : Except DispatchError Handled :=
  match ans.dispatch env with
  | .delivered outsideTx =>
    if env.eventSeq ∈ seen then .ok .replayed
    else .ok (if outsideTx then .outside else .durable)
  | .full => if env.eventSeq ∈ seen then .ok .replayed else .error (.deferred env.eventSeq)
  | .poison => if inFold && ans.quarantine env then .ok .quarantined else .error .other
  | .failed => .error .other

def dispatchEnvelope (seen : List ℕ) (env : Envelope) : Except DispatchError Handled :=
  if !cfg.inboundSenderAllowed env then .ok .foreign
  else if !cfg.validateInboundEnvelope env then .error .version
  else
    match env.rpc with
    | none => .ok (.skipped false)
    | some rpc =>
      if cfg.resolvesToNonTxDispatcher env ans.hasWaiter then .ok (.skipped false)
      else
        match rpc.kind with
        | .response =>
          match rpc.correlationId with
          | none => .ok (.skipped false)
          | some _ =>
            if ans.deliverResponse env = .waiter then .ok .waiter
            else if rpc.route ∈ cfg.dispatchers then runDispatcher ans inFold seen env
            else .ok (.skipped true)
        | .request | .event =>
          if rpc.route ∈ cfg.dispatchers then runDispatcher ans inFold seen env
          else .ok (.skipped false)
        | .unknown => .ok (.skipped false)

structure Progress where
  lastCommitted : ℕ := 0
  handled : List (Envelope × Handled) := []
  seen : List ℕ := []

def Progress.note (p : Progress) (env : Envelope) (h : Handled) : Progress where
  lastCommitted := if h.advances then max p.lastCommitted env.eventSeq else p.lastCommitted
  handled := p.handled ++ [(env, h)]
  seen := if h = .outside then env.eventSeq :: p.seen else p.seen

/-- `dispatchBatch` up to the final advance to the batch cursor. -/
def dispatchBatch : List Envelope → Progress → Progress × Option DispatchError
  | [], p => (p, none)
  | env :: rest, p =>
    match dispatchEnvelope cfg ans inFold p.seen env with
    | .error e => (p, some e)
    | .ok h => dispatchBatch rest (p.note env h)

end DispatchBatch

def deferredCursor (deferredSeq pullCursor : ℕ) : ℕ :=
  if deferredSeq = 0 ∨ deferredSeq ≤ pullCursor then pullCursor else deferredSeq

def clampToDeferred (envelopes : List Envelope) (nextCursor deferredSeq : ℕ) : List Envelope × ℕ :=
  if deferredSeq = 0 then (envelopes, nextCursor)
  else
    let clamped := envelopes.filter (·.eventSeq ≤ deferredSeq)
    if clamped.length = 0 ∨ clamped.length = envelopes.length then (envelopes, nextCursor)
    else (clamped, next64 deferredSeq)

def isWaiterResponse (hasWaiter : CorrelationId → Bool) (env : Envelope) : Bool :=
  match env.rpc with
  | none => false
  | some rpc => rpc.kind = .response && rpc.correlationId.any hasWaiter

def splitIngressEnvelopes (cfg : Config) (hasWaiter : CorrelationId → Bool) :
    List Envelope → List Envelope × List Envelope × List Envelope
  | [] => ([], [], [])
  | env :: rest =>
    let (responses, nonTx, durables) := splitIngressEnvelopes cfg hasWaiter rest
    if isWaiterResponse hasWaiter env then (env :: responses, nonTx, durables)
    else if cfg.isNonTxRequest env then (responses, env :: nonTx, durables)
    else (responses, nonTx, env :: durables)

def mergeEnvelopesByEventSeq (a b : List Envelope) : List Envelope :=
  a.merge b fun x y => x.eventSeq ≤ y.eventSeq

/-- Serve the hoisted requests in order. Returns the new watermark, the requests
served and the error that stopped the batch. -/
def dispatchNonTxRequests (dispatch : Envelope → DispatchResult) :
    List Envelope → ℕ → ℕ × List Envelope × Option DispatchError
  | [], served => (served, [], none)
  | env :: rest, served =>
    if env.eventSeq ≠ 0 ∧ env.eventSeq ≤ served then dispatchNonTxRequests dispatch rest served
    else
      match dispatch env with
      | .full => (served, [], some (.deferred env.eventSeq))
      | .poison | .failed => (served, [], some .other)
      | .delivered _ =>
        let (served', envs, e) := dispatchNonTxRequests dispatch rest (max served env.eventSeq)
        (served', env :: envs, e)

end Wavelength.Ingress
