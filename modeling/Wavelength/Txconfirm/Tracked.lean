import Mathlib.Data.Int.Notation
import Wavelength.Base.Table
import Wavelength.Base.Hoare

/-! # Tracked transactions and their notifications

The state machine of one tracked transaction, the entry that holds it with its
subscribers, and the three ways in which a notification leaves the actor: inline,
deferred after a timeout, or detached from the actor's turn. What happens outside the actor
(a subscriber's mailbox, a state machine's answer, a submission) is read from a script.
-/

namespace Wavelength.Txconfirm

abbrev Txid := ℕ
abbrev SubscriberId := ℕ
abbrev BlockHash := ℕ

inductive TxState
  | new
  | broadcasting (lastBroadcastHeight : Option ℤ)
  | awaitingConfirmation (lastBroadcastHeight : Option ℤ)
  | feeBumping (lastBroadcastHeight : Option ℤ)
  | confirmed (lastBroadcastHeight : Option ℤ) (confirmHeight : ℤ) (confirmBlockHash : BlockHash)
  | finalized (lastBroadcastHeight : Option ℤ) (confirmHeight : ℤ) (confirmBlockHash : BlockHash)
  | failed (lastBroadcastHeight : Option ℤ) (reason : String)
  deriving DecidableEq

inductive TxEvent
  | broadcastStarted
  | broadcastAccepted (lastBroadcastHeight : Option ℤ)
  | broadcastFailed (lastBroadcastHeight : Option ℤ)
  | feeBumpStarted
  | confirmed (blockHeight : ℤ) (blockHash : BlockHash)
  | failed (reason : String)
  | reorged
  | finalized

namespace TxState

def processEvent : TxState → TxEvent → Option TxState
  | new, .broadcastStarted => some (broadcasting none)
  | new, .failed reason => some (failed none reason)
  | broadcasting last, .broadcastStarted => some (broadcasting last)
  | broadcasting _, .broadcastFailed last => some (broadcasting last)
  | broadcasting _, .broadcastAccepted last => some (awaitingConfirmation last)
  | broadcasting last, .confirmed height hash => some (confirmed last height hash)
  | broadcasting last, .failed reason => some (failed last reason)
  | awaitingConfirmation last, .feeBumpStarted => some (feeBumping last)
  | awaitingConfirmation last, .confirmed height hash => some (confirmed last height hash)
  | awaitingConfirmation last, .failed reason => some (failed last reason)
  | feeBumping _, .broadcastAccepted last => some (awaitingConfirmation last)
  | feeBumping last, .confirmed height hash => some (confirmed last height hash)
  | feeBumping last, .failed reason => some (failed last reason)
  | confirmed last _ _, .reorged => some (awaitingConfirmation last)
  | confirmed last height hash, .finalized => some (finalized last height hash)
  | _, _ => none

def isTerminal : TxState → Bool
  | finalized _ _ _ => true
  | failed _ _ => true
  | _ => false

def isBroadcasting : TxState → Bool
  | broadcasting _ => true
  | _ => false

def isConfirmed : TxState → Bool
  | confirmed _ _ _ => true
  | _ => false

end TxState

/-- An event that its state rejects stops the machine for good. -/
inductive Fsm
  | running (state : TxState)
  | stopped
  deriving DecidableEq

/-- A subscriber's mailbox: its id, and which of the actors that have had the id it belongs to. -/
structure Ref where
  id : SubscriberId
  incarnation : ℕ := 0
  deriving DecidableEq

structure Subscriber where
  ref : Ref
  /-- The first `TxConfirmed` is still owed. -/
  pendingConfirmed : Bool
  deriving DecidableEq

inductive Anchor
  | none
  | ephemeral
  | funded
  deriving DecidableEq

/-- One tracking of a transaction. `gen` tells apart the entries that a transaction has had;
no handler reads it. -/
structure Entry where
  txid : Txid
  gen : ℕ
  confirmationPkScript : List UInt8
  targetConfs : ℕ
  retryUntilAccepted : Bool
  anchor : Anchor
  fsm : Fsm
  subscribers : List Subscriber
  pendingFailureReason : Option String
  deriving DecidableEq

namespace Entry

def hasSubscriber (e : Entry) (id : SubscriberId) : Bool := e.subscribers.any (·.ref.id = id)

def putSubscriber (e : Entry) (s : Subscriber) : Entry :=
  { e with subscribers := e.subscribers.filter (·.ref.id ≠ s.ref.id) ++ [s] }

def deleteSubscriber (e : Entry) (id : SubscriberId) : Entry :=
  { e with subscribers := e.subscribers.filter (·.ref.id ≠ id) }

def clearPendingConfirmed (e : Entry) (id : SubscriberId) : Entry :=
  { e with subscribers :=
      e.subscribers.map fun s => if s.ref.id = id then { s with pendingConfirmed := false } else s }

end Entry

inductive Notification
  | confirmed (blockHeight : ℤ) (blockHash : BlockHash) (numConfs : ℕ)
  | reorged
  | finalized (blockHeight : ℤ) (numConfs : ℕ)
  | failed (reason : String)
  deriving DecidableEq

inductive Kind
  | confirmed
  | finalized
  | failed
  deriving DecidableEq

namespace Notification

def isConfirmed : Notification → Bool
  | confirmed _ _ _ => true
  | _ => false

/-- Finality and failure end a subscription. -/
def isTerminal : Notification → Bool
  | finalized _ _ => true
  | failed _ => true
  | _ => false

end Notification

/-- The result of a subscriber's `Tell`: accepted, refused because the actor has stopped, or
failed in another way. -/
inductive TellResult
  | ok
  | stopped
  | error

/-- `terminalNotifyKey`. -/
structure InflightKey where
  kind : Kind
  txid : Txid
  subscriberId : SubscriberId
  deriving DecidableEq

structure Receipt where
  txid : Txid
  gen : ℕ
  ref : Ref
  notification : Notification

/-- A reliable delivery whose `Tell` has not returned within the turn. Its result names the
transaction, the subscriber's id and the kind; the entry and the reference are what it was started
for. -/
structure Deferred where
  kind : Kind
  txid : Txid
  gen : ℕ
  ref : Ref
  notification : Notification

namespace Deferred

variable (d : Deferred)

def inflightKey : InflightKey := ⟨d.kind, d.txid, d.ref.id⟩

def receipt : Receipt := ⟨d.txid, d.gen, d.ref, d.notification⟩

end Deferred

/-- A goroutine of `notifyReversibleAsync`, before or after it has read the sealed flag. -/
structure Detached where
  txid : Txid
  gen : ℕ
  ref : Ref
  notification : Notification
  checked : Bool := false

def Detached.receipt (d : Detached) : Receipt := ⟨d.txid, d.gen, d.ref, d.notification⟩

/-- How the state machine answers an event: it applies the event, it is asked too late, or it
applies the event after the caller has given up. -/
inductive AskAnswer
  | done
  | lost
  | late

inductive TellAnswer
  | returned (res : TellResult)
  | timeout

/-- An error of the broadcaster, with what the actor asks about it. -/
structure BroadcastError where
  text : String
  parentAlreadyBroadcast : Bool := false
  nonTRUCParent : Bool := false
  classified : Bool := false
  ambiguousSpend : Bool := false

/-- One answer of the surroundings; a call reads the part it needs. -/
structure Answer where
  query : Bool := true
  ask : AskAnswer := .done
  tell : TellAnswer := .returned .ok
  submit : Option BroadcastError := none
  chain : Bool := true
  height : ℤ := 0
  text : String := ""

/-- What the handlers of an entry share with the actor and the subscribers. `inbox` and `stopped`
record what the mailboxes have accepted, in order, and which of them have stopped. -/
structure Post where
  terminalNotifyInflight : List InflightKey := []
  deferred : List Deferred := []
  results : List (Deferred × TellResult) := []
  detached : List Detached := []
  sealed : List ℕ := []
  inbox : List Receipt := []
  stopped : List Ref := []
  script : List Answer := []

namespace Post

def told (p : Post) (r : Receipt) : TellResult → Post
  | .ok => { p with inbox := p.inbox ++ [r] }
  | .stopped => { p with stopped := p.stopped ++ [r.ref] }
  | .error => p

def storeSealed (p : Post) (gen : ℕ) : Post := { p with sealed := p.sealed ++ [gen] }

def spawn (p : Post) (d : Detached) : Post := { p with detached := p.detached ++ [d] }

def defer (p : Post) (d : Deferred) : Post :=
  { p with
    terminalNotifyInflight := p.terminalNotifyInflight ++ [d.inflightKey]
    deferred := p.deferred ++ [d] }

def takeResult (p : Post) (i : ℕ) (d : Deferred) : Post :=
  { p with
    results := p.results.eraseIdx i
    terminalNotifyInflight := p.terminalNotifyInflight.filter (· ≠ d.inflightKey) }

end Post

abbrev Turn := StateM Post

namespace Turn

/-- The next answer of the script; an empty script answers with success. -/
def answer : Turn Answer :=
  modifyGet fun p => (p.script.headD {}, { p with script := p.script.tail })

end Turn

open Turn

def Entry.currentFSMState (e : Entry) : Turn (Option TxState) := do
  let a ← answer
  match e.fsm, a.query with
  | .running state, true => pure (some state)
  | _, _ => pure none

def Fsm.apply (event : TxEvent) : Fsm → Fsm
  | .stopped => .stopped
  | .running state =>
    match state.processEvent event with
    | none => .stopped
    | some state' => .running state'

def Entry.advanceTrackedTxFSM (e : Entry) (event : TxEvent) : Turn (Entry × Bool) := do
  let a ← answer
  match a.ask with
  | .lost => pure (e, false)
  | .late => pure ({ e with fsm := e.fsm.apply event }, false)
  | .done => pure ({ e with fsm := e.fsm.apply event }, e.fsm.apply event ≠ .stopped)

section Notify

inductive NotifyOutcome
  | delivered
  | pending
  | subscriberStopped
  deriving DecidableEq

variable (e : Entry) (ref : Ref)

def notifyOneTerminal (kind : Kind) (notification : Notification) : Turn NotifyOutcome := do
  let d : Deferred := ⟨kind, e.txid, e.gen, ref, notification⟩
  if d.inflightKey ∈ (← get).terminalNotifyInflight then
    pure .pending
  else
    match (← answer).tell with
    | .timeout => do
      modify (·.defer d)
      pure .pending
    | .returned res => do
      modify (·.told d.receipt res)
      match res with
      | .ok => pure .delivered
      | .stopped => pure .subscriberStopped
      | .error => pure .pending

def notifyOneConfirmed (blockHeight : ℤ) (blockHash : BlockHash) (numConfs : ℕ) :
    Turn NotifyOutcome :=
  notifyOneTerminal e ref .confirmed (.confirmed blockHeight blockHash numConfs)

def notifyOneFinalized (blockHeight : ℤ) (numConfs : ℕ) : Turn NotifyOutcome :=
  notifyOneTerminal e ref .finalized (.finalized blockHeight numConfs)

def notifyOneFailed (reason : String) : Turn NotifyOutcome :=
  notifyOneTerminal e ref .failed (.failed reason)

def notifyReversibleAsync (notification : Notification) : Turn Unit :=
  modify (·.spawn ⟨e.txid, e.gen, ref, notification, false⟩)

end Notify

def forSubscribers (body : Subscriber → Turn (Option Subscriber)) :
    List Subscriber → Turn (List Subscriber)
  | [] => pure []
  | s :: rest => do
    let kept ← body s
    let rest' ← forSubscribers body rest
    pure (kept.toList ++ rest')

end Wavelength.Txconfirm
