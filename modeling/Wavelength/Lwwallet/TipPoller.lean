import Mathlib.Data.Int.Order.Basic
import Mathlib.Data.List.Chain
import Wavelength.Base.Hash
import Wavelength.Base.KeyMap

/-! # The tip poller

The poller asks a block explorer for the tip of the chain and reports every block on the way to it.
Blocks are asked for one height at a time, and between two requests the explorer may have moved to
another chain. A block that does not fit the last one reported makes the poller walk back through
the hashes that it has kept, to the height at which both chains agree.
-/

namespace Wavelength.Lwwallet

structure TipBlock where
  height : ℤ
  hash : Hash
  deriving DecidableEq

structure ReorgEvent where
  forkHeight : ℤ
  disconnected : List Hash
  connected : List TipBlock
  deriving DecidableEq

inductive ChainEvent where
  | reorg (r : ReorgEvent)
  | tip (b : TipBlock)
  deriving DecidableEq

/-- What the explorer answers at one moment; a request may fail. A header that is returned is the
header of the block it was asked for. -/
structure View where
  getTipHeight : Option ℤ
  getBlockHashByHeight : ℤ → Option Hash
  getBlockHeader : Hash → Bool
  getRawBlockHeader : Hash → Bool

structure TipPoller where
  historySize : ℕ
  historySize_pos : 0 < historySize
  tipHeight : ℤ
  tipHash : Hash
  recentHashes : KeyMap ℤ Hash

def defaultHashHistorySize : ℕ := 100

/-- A size of the history that is not positive is replaced by the default. -/
def historySizeOf (historySize : ℤ) : ℕ :=
  if historySize ≤ 0 then defaultHashHistorySize else historySize.toNat

theorem historySizeOf_pos (historySize : ℤ) : 0 < historySizeOf historySize := by
  unfold historySizeOf
  split
  · decide
  · omega

namespace TipPoller

def recordHash (t : TipPoller) (height : ℤ) (hash : Hash) : TipPoller :=
  { t with recentHashes :=
      (t.recentHashes.insert height hash).filterKeys (height - t.historySize < ·) }

def hashAtHeight (t : TipPoller) (height : ℤ) : Option Hash := t.recentHashes.lookup height

def broadcastTipBlock (t : TipPoller) (b : TipBlock) : TipPoller :=
  { t with tipHeight := b.height, tipHash := b.hash }.recordHash b.height b.hash

/-- The history below the first tip, block by block along the previous hashes. -/
def seedHashHistory (prev : Hash → Hash) (lowest : ℤ) : ℕ → ℤ → Hash → TipPoller → TipPoller
  | 0, _, _, t => t
  | k + 1, h, currentHash, t =>
    if lowest < h ∧ 0 ≤ h then
      seedHashHistory prev lowest k (h - 1) (prev currentHash) (t.recordHash h (prev currentHash))
    else
      t

def start (prev : Hash → Hash) (historySize height : ℤ) (hash : Hash) : TipPoller :=
  let t : TipPoller := {
    historySize := historySizeOf historySize
    historySize_pos := historySizeOf_pos historySize
    tipHeight := height
    tipHash := hash
    recentHashes := .empty }
  seedHashHistory prev (height - t.historySize) t.historySize (height - 1) hash
    (t.recordHash height hash)

end TipPoller

/-- The blocks that the poller went on to, and the tip of another chain if it met one, with the
moment at which it was told that tip. -/
structure Noticed where
  poller : TipPoller
  events : List ChainEvent
  reorg : Option (ℕ × ℤ × Hash)

namespace TipPoller

def idle (t : TipPoller) : Noticed := ⟨t, [], none⟩

def advanceFrom (prev : Hash → Hash) (views : ℕ → View) (newHeight : ℤ) :
    ℕ → ℕ → Hash → TipPoller → Noticed
  | 0, _, _, t => t.idle
  | k + 1, n, previousHash, t =>
    let height := newHeight - k
    match (views n).getBlockHashByHeight height with
    | none => t.idle
    | some hash =>
      if !(views (n + 1)).getBlockHeader hash then t.idle
      else if !(views (n + 2)).getRawBlockHeader hash then t.idle
      else if prev hash ≠ previousHash then
        match (views (n + 3)).getBlockHashByHeight newHeight with
        | none => t.idle
        | some tipHash => ⟨t, [], some (n + 3, newHeight, tipHash)⟩
      else
        let b : TipBlock := ⟨height, hash⟩
        let rest := advanceFrom prev views newHeight k (n + 3) hash (t.broadcastTipBlock b)
        { rest with events := .tip b :: rest.events }

def advance (prev : Hash → Hash) (views : ℕ → View) (t : TipPoller) (newHeight : ℤ) : Noticed :=
  match t.hashAtHeight t.tipHeight with
  | none => t.idle
  | some previousHash =>
    advanceFrom prev views newHeight (newHeight - t.tipHeight).toNat 1 previousHash t

/-- What a poll notices before it handles a reorganisation. -/
def notice (prev : Hash → Hash) (views : ℕ → View) (t : TipPoller) : Noticed :=
  match (views 0).getTipHeight with
  | none => t.idle
  | some newHeight =>
    if newHeight < t.tipHeight then
      match (views 1).getBlockHashByHeight newHeight with
      | none => t.idle
      | some newTipHash =>
        match t.hashAtHeight newHeight with
        | none => t.idle
        | some cachedHash =>
          if newTipHash = cachedHash then t.idle else ⟨t, [], some (1, newHeight, newTipHash)⟩
    else if newHeight = t.tipHeight then
      match (views 1).getBlockHashByHeight newHeight with
      | none => t.idle
      | some newTipHash =>
        if newTipHash = t.tipHash then t.idle else ⟨t, [], some (1, newHeight, newTipHash)⟩
    else
      t.advance prev views newHeight

/-- The lowest height that a reorganisation can go back to. -/
def cutoff (t : TipPoller) : ℤ :=
  if t.tipHeight - t.historySize < 0 then 0 else t.tipHeight - t.historySize

/-- Walk back from `probe + 1`: the height of the fork, the blocks above it, and the next moment. -/
def walkBack (views : ℕ → View) (t : TipPoller) :
    ℕ → ℕ → ℤ → List TipBlock → Option (ℤ × List TipBlock × ℕ)
  | 0, _, _, _ => none
  | k + 1, n, probe, connected =>
    if probe > t.tipHeight then
      -- nothing was reported at this height yet
      match (views n).getBlockHashByHeight probe with
      | none => none
      | some liveHash => walkBack views t k (n + 1) (probe - 1) (⟨probe, liveHash⟩ :: connected)
    else
      match t.hashAtHeight probe with
      | none => if probe = t.cutoff then some (probe, connected, n) else none
      | some cachedHash =>
        match (views n).getBlockHashByHeight probe with
        | none => none
        | some liveHash =>
          if liveHash = cachedHash then some (probe, connected, n + 1)
          else walkBack views t k (n + 1) (probe - 1) (⟨probe, liveHash⟩ :: connected)

def fetchHeaders (views : ℕ → View) : ℕ → List TipBlock → Bool
  | _, [] => true
  | n, b :: bs => (views n).getBlockHeader b.hash && fetchHeaders views (n + 1) bs

def disconnected (t : TipPoller) (forkHeight : ℤ) : List Hash :=
  (t.recentHashes.filterKeys fun h => forkHeight < h ∧ h ≤ t.tipHeight).entries.map Prod.snd

def forget (t : TipPoller) (forkHeight : ℤ) : TipPoller :=
  { t with
    recentHashes := t.recentHashes.filterKeys fun h => !(forkHeight < h ∧ h ≤ t.tipHeight) }

def handleReorg (views : ℕ → View) (n : ℕ) (newTipHeight : ℤ) (newTipHash : Hash) (t : TipPoller) :
    TipPoller × List ChainEvent :=
  match walkBack views t (newTipHeight - t.cutoff).toNat n (newTipHeight - 1)
      [⟨newTipHeight, newTipHash⟩] with
  | none => (t, [])
  | some (forkHeight, connected, n') =>
    if !fetchHeaders views n' connected then (t, [])
    else
      (connected.foldl broadcastTipBlock (t.forget forkHeight),
        .reorg ⟨forkHeight, t.disconnected forkHeight, connected⟩ :: connected.map .tip)

def poll (prev : Hash → Hash) (t : TipPoller) (views : ℕ → View) : TipPoller × List ChainEvent :=
  let noticed := t.notice prev views
  match noticed.reorg with
  | none => (noticed.poller, noticed.events)
  | some (n, newTipHeight, newTipHash) =>
    let (t', events) := handleReorg views (n + 1) newTipHeight newTipHash noticed.poller
    (t', noticed.events ++ events)

def stream (prev : Hash → Hash) : TipPoller → List (ℕ → View) → List ChainEvent
  | _, [] => []
  | t, views :: polls => (t.poll prev views).2 ++ stream prev (t.poll prev views).1 polls

end TipPoller

end Wavelength.Lwwallet
