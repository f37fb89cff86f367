import Wavelength.Base.Machine
import Wavelength.Fraud.WatchPlan

/-! # The fraud watcher

The watcher shares one chain watch between all the targets whose plans have its outpoint: the
first target registers it and the last one to leave unregisters it. The chain source sends to each
registration one report of the first spend of its outpoint, wherever that spend lies in the past
or in the future; reports wait in the mailbox of the watcher.
-/

namespace Wavelength.Fraud

/-- The spend of an outpoint: the witnesses of the inputs of the spending transaction, if the chain
source has it, and the input that spends the outpoint. -/
structure SpendObserved where
  outpoint : OutPoint
  spendingTx : Option (List (List Script))
  spenderInputIndex : ℕ

structure WatcherConfig where
  /-- The tap hash of a script as a base leaf. -/
  tapHash : Script → List UInt8

/-- The hash of the script that a tapscript spend reveals: the witness ends with the script and
the control block. -/
def revealedTapLeafHash (cfg : WatcherConfig) (s : SpendObserved) : Option (List UInt8) :=
  match s.spendingTx.bind (·[s.spenderInputIndex]?) with
  | none => none
  | some witness =>
    match witness.reverse with
    | _ :: script :: _ => if script.isEmpty then none else some (cfg.tapHash script)
    | _ => none

def WatchPoint.isOperatorSweepSpend (cfg : WatcherConfig) (p : WatchPoint) (s : SpendObserved) :
    Bool :=
  if p.sweepLeafHash.isEmpty then false
  else revealedTapLeafHash cfg s = some p.sweepLeafHash

/-- A watched outpoint with the targets that share the watch. -/
structure AncestorWatch where
  point : WatchPoint
  targets : List OutPoint
  nonempty : targets ≠ []

structure TrackedTarget where
  desc : Descriptor
  plan : WatchPlan

def TrackedTarget.outpoint (t : TrackedTarget) : OutPoint := t.desc.outpoint

structure Registration where
  outpoint : OutPoint
  reported : Bool
  deriving DecidableEq

/-- The watcher, the chain source it talks to and the targets it has asked to be unrolled. -/
structure World where
  targets : Table TrackedTarget TrackedTarget.outpoint := .empty
  watches : Table AncestorWatch (·.point.outpoint) := .empty
  registrations : List Registration := []
  /-- The first spend of each outpoint. -/
  spends : Table SpendObserved SpendObserved.outpoint := .empty
  mailbox : List SpendObserved := []
  /-- The targets of the `ForceUnrollRequest`s sent. -/
  asked : List OutPoint := []

structure ChainAnswers where
  registers : OutPoint → Bool
  unregisters : OutPoint → Bool

def shouldTrackDescriptor (desc : Descriptor) : Bool :=
  desc.status = .live && 0 < desc.chainDepth

namespace World

variable (w : World)

def firstRefFor (o : OutPoint) : Bool := (w.watches.get? o).isNone

def targetsOf (o : OutPoint) : List OutPoint := ((w.watches.get? o).map (·.targets)).getD []

def pointAt (o : OutPoint) : Option WatchPoint := (w.watches.get? o).map (·.point)

def addTarget (point : WatchPoint) (target : OutPoint) : World :=
  let aw : AncestorWatch :=
    match w.watches.get? point.outpoint with
    | none => ⟨point, [target], by simp⟩
    | some aw => ⟨aw.point, aw.targets.insert target, List.ne_nil_of_mem (List.mem_insert_self)⟩
  { w with watches := w.watches.put aw }

/-- The point of the watch, when `target` was the last to hold it. -/
def dropTarget (o target : OutPoint) : World × Option WatchPoint :=
  match w.watches.get? o with
  | none => (w, none)
  | some aw =>
    if h : aw.targets.filter (· ≠ target) = [] then
      ({ w with watches := w.watches.delete o }, some aw.point)
    else
      ({ w with watches := w.watches.put ⟨aw.point, aw.targets.filter (· ≠ target), h⟩ }, none)

def registerSpendWatch (ans : ChainAnswers) (p : WatchPoint) : Option World :=
  if ans.registers p.outpoint then
    some { w with registrations := w.registrations ++ [⟨p.outpoint, false⟩] }
  else none

def unregisterSpendWatchPoint (ans : ChainAnswers) (p : WatchPoint) : World × Option WatchError :=
  if ans.unregisters p.outpoint then
    ({ w with registrations := w.registrations.filter (·.outpoint ≠ p.outpoint) }, none)
  else (w, some (.unregister p.outpoint))

def retainWatch (ans : ChainAnswers) (p : WatchPoint) (target : OutPoint) : Option World :=
  if w.firstRefFor p.outpoint then
    (w.registerSpendWatch ans p).map (·.addTarget p target)
  else some (w.addTarget p target)

def releaseWatch (ans : ChainAnswers) (o target : OutPoint) : World × Option WatchError :=
  match w.dropTarget o target with
  | (w, none) => (w, none)
  | (w, some point) => w.unregisterSpendWatchPoint ans point

/-- Release the watches one after the other, whichever of them fail. -/
def releaseWatches (ans : ChainAnswers) (target : OutPoint) :
    List OutPoint → World → World × List WatchError
  | [], w => (w, [])
  | o :: os, w =>
    let r := w.releaseWatch ans o target
    let rest := releaseWatches ans target os r.1
    (rest.1, r.2.toList ++ rest.2)

/-- Retain the watches of a plan; `registered` are those retained so far, which a failure
releases again. -/
def retainWatches (ans : ChainAnswers) (target : OutPoint) :
    List WatchPoint → List OutPoint → World → World × Option WatchError
  | [], _, w => (w, none)
  | p :: ps, registered, w =>
    match w.retainWatch ans p target with
    | none => ((releaseWatches ans target registered w).1, some (.register p.outpoint))
    | some w => retainWatches ans target ps (registered ++ [p.outpoint]) w

def trackDescriptor (ans : ChainAnswers) (desc : Descriptor) : World × Except WatchError Bool :=
  if (w.targets.get? desc.outpoint).isSome then (w, .ok false)
  else
    match buildWatchPlan desc with
    | .error e => (w, .error e)
    | .ok plan =>
      match retainWatches ans desc.outpoint plan.watches.rows [] w with
      | (w, some e) => (w, .error e)
      | (w, none) => ({ w with targets := w.targets.put ⟨desc, plan⟩ }, .ok true)

/-- The number of targets newly tracked and the errors of the others. -/
def handleTrackVTXOs : List (Descriptor × ChainAnswers) → World → World × ℕ × List WatchError
  | [], w => (w, 0, [])
  | (desc, ans) :: rest, w =>
    if shouldTrackDescriptor desc then
      let r := w.trackDescriptor ans desc
      let (w, tracked, errs) := handleTrackVTXOs rest r.1
      match r.2 with
      | .error e => (w, tracked, e :: errs)
      | .ok created => (w, tracked + created.toNat, errs)
    else handleTrackVTXOs rest w

def handleUntrack (ans : ChainAnswers) (target : OutPoint) : World × Bool × List WatchError :=
  match w.targets.get? target with
  | none => (w, false, [])
  | some t =>
    let r := releaseWatches ans target t.plan.outpoints
      { w with targets := w.targets.delete target }
    (r.1, true, r.2)

def handleSpendObserved (cfg : WatcherConfig) (s : SpendObserved) : World :=
  let targets := w.targetsOf s.outpoint
  if targets.isEmpty then w
  else
    let operatorSweep := (w.pointAt s.outpoint).any (·.isOperatorSweepSpend cfg s)
    if operatorSweep then w else { w with asked := w.asked ++ targets }

end World

/-- A message is handled, an outpoint is spent, or the chain source reports the spend to the `i`-th
registration. -/
inductive Action where
  | track (batch : List (Descriptor × ChainAnswers))
  | untrack (target : OutPoint) (ans : ChainAnswers)
  | spend (s : SpendObserved)
  | report (i : ℕ)
  | observe (i : ℕ)

def World.step (cfg : WatcherConfig) (w : World) : Action → Option World
  | .track batch => some (handleTrackVTXOs batch w).1
  | .untrack target ans => some (w.handleUntrack ans target).1
  | .spend s => some { w with spends := w.spends.insertIgnore s }
  | .report i =>
    match w.registrations[i]? with
    | some ⟨o, false⟩ =>
      (w.spends.get? o).map fun s =>
        { w with
          registrations := w.registrations.set i ⟨o, true⟩, mailbox := w.mailbox ++ [s] }
    | _ => none
  | .observe i =>
    (w.mailbox[i]?).map fun s =>
      ({ w with mailbox := w.mailbox.eraseIdx i }).handleSpendObserved cfg s

/-- The watcher and its chain source, from the start of the daemon. -/
def watcher (cfg : WatcherConfig) : Machine World Action where
  init w := w = {}
  step := World.step cfg

end Wavelength.Fraud
