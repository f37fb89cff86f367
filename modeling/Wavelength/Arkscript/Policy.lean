import Wavelength.Base.Checks
import Wavelength.Base.Tapscript
import Wavelength.Vtxotree.Node

/-! # Spending policies

A leaf of a policy is a multisig, behind any number of relative locks and conditions. A condition
is an arbitrary script fragment that runs first. The validator looks at the leaves as trees; what
it promises is about the scripts that they compile to.
-/

namespace Wavelength.Arkscript

open List Option Tapscript Vtxotree

inductive Node where
  | multisig (keys : List PublicKey)
  | csv (lock : ℕ) (inner : Node)
  | condition (predicate : Script) (inner : Node)

inductive ScriptError where
  | noKeys
  | csvLock (lock : ℕ)
  | emptyPredicate
  | incompletePredicate
  | opSuccess
  | tooLong
  deriving DecidableEq

def maxScriptSize : ℕ := 10000

/-- The script builder refuses to grow a script beyond the limit. -/
def build (parts : List Script) : Except ScriptError Script :=
  if parts.flatten.length ≤ maxScriptSize then .ok parts.flatten else .error .tooLong

def scriptChecksig : List PublicKey → List Token
  | [] => []
  | [key] => [pushData key.x.data, ⟨opCheckSig, []⟩]
  | key :: keys => pushData key.x.data :: ⟨opCheckSigVerify, []⟩ :: scriptChecksig keys

def maxBlockDelay : ℕ := 0xffff

def validateCSVLock (lock : ℕ) : Except ScriptError Unit :=
  require (0 < lock ∧ lock ≤ maxBlockDelay) (.csvLock lock)

def lockTokens (lock : ℕ) : List Token :=
  [pushNum lock, ⟨opCheckSequenceVerify, []⟩, ⟨opDrop, []⟩]

def validateConditionPredicate (predicate : Script) : Except ScriptError Unit := do
  require (tokenize predicate ≠ none) .incompletePredicate
  require (hasOpSuccess predicate = false) .opSuccess

def Node.script : Node → Except ScriptError Script
  | multisig keys => do
    require (keys ≠ []) .noKeys
    build [assemble (scriptChecksig keys)]
  | csv lock inner => do
    validateCSVLock lock
    let innerScript ← inner.script
    build [innerScript, assemble (lockTokens lock)]
  | condition predicate inner => do
    require (predicate ≠ []) .emptyPredicate
    validateConditionPredicate predicate
    let innerScript ← inner.script
    build [predicate, innerScript]

/-! ## The validator -/

inductive PolicyError where
  | invalidLeaf (i : ℕ) (err : ScriptError)
  | operatorUnilateral (i : ℕ)
  | missingCollab
  | missingExit
  | notGated (i : ℕ)
  | exitDelay (delay minimum : ℕ)
  deriving DecidableEq

def multisigContainsKey (keys : List PublicKey) (target : List UInt8) : Bool :=
  keys.any (·.x.data = target)

/-- Whether no multisig is left to the operator alone. -/
def walkRejectOperatorUnilateral (target : List UInt8) : Node → Bool
  | .multisig keys => !multisigContainsKey keys target || keys.any (·.x.data ≠ target)
  | .csv _ inner => walkRejectOperatorUnilateral target inner
  | .condition _ inner => walkRejectOperatorUnilateral target inner

def containsKeyBytes (target : List UInt8) : Node → Bool
  | .multisig keys => multisigContainsKey keys target
  | .csv _ inner => containsKeyBytes target inner
  | .condition _ inner => containsKeyBytes target inner

def ContainsKey (node : Node) (key : PublicKey) : Bool := containsKeyBytes key.x.data node

def extractCSVDelay : Node → ℕ
  | .multisig _ => 0
  | .csv lock _ => lock
  | .condition _ inner => extractCSVDelay inner

def checkLeaf (operatorKey : PublicKey) (leaf : Node × ℕ) : Except PolicyError Unit := do
  let _ ← leaf.1.script.mapError (.invalidLeaf leaf.2)
  require (walkRejectOperatorUnilateral operatorKey.x.data leaf.1) (.operatorUnilateral leaf.2)

def smallestDelay : ℕ → Option ℕ → List Node → Except PolicyError (Option ℕ)
  | _, smallest, [] => .ok smallest
  | i, smallest, node :: nodes => do
    let csvLock := extractCSVDelay node
    require (csvLock ≠ 0) (.notGated i)
    smallestDelay (i + 1) (some ((smallest.map (min csvLock)).getD csvLock)) nodes

def validatePolicy (nodes : List Node) (operatorKey : PublicKey) (minExitDelay : ℕ) :
    Except PolicyError Unit := do
  forM nodes.zipIdx (checkLeaf operatorKey)
  let exitNodes := nodes.filter fun node => !ContainsKey node operatorKey
  require (∃ node ∈ nodes, ContainsKey node operatorKey) .missingCollab
  require (exitNodes ≠ []) .missingExit
  let smallest ← smallestDelay 0 none exitNodes
  require (0 < minExitDelay → minExitDelay ≤ smallest.getD 0)
    (.exitDelay (smallest.getD 0) minExitDelay)

theorem le_of_smallestDelay (h : smallestDelay i smallest nodes = .ok result) :
    (∀ r, smallest = some r → result.getD 0 ≤ r) ∧
      ∀ node ∈ nodes, result.getD 0 ≤ extractCSVDelay node ∧ extractCSVDelay node ≠ 0 := by
  induction nodes generalizing i smallest with
  | nil =>
    cases h
    simp +contextual
  | cons node nodes ih =>
    simp only [smallestDelay, bind_eq_ok, require_eq_ok, exists_const] at h
    obtain ⟨hgated, h⟩ := h
    obtain ⟨hsmallest, hnodes⟩ := ih h
    have hle := hsmallest _ rfl
    constructor
    · rintro r rfl
      exact hle.trans (min_le_right _ _)
    refine forall_mem_cons.2 ⟨⟨?_, hgated⟩, hnodes⟩
    cases smallest with
    | none => exact hle
    | some r => exact hle.trans (min_le_left _ _)

theorem validatePolicy_leaf (h : validatePolicy nodes operatorKey minExitDelay = .ok ())
    (hnode : node ∈ nodes) :
    (∃ script, node.script = .ok script) ∧
      walkRejectOperatorUnilateral operatorKey.x.data node = true ∧
      (ContainsKey node operatorKey = false →
        extractCSVDelay node ≠ 0 ∧ minExitDelay ≤ extractCSVDelay node) := by
  simp only [validatePolicy, bind_eq_ok, require_eq_ok, exists_const, forM_eq_ok] at h
  obtain ⟨hleaves, -, -, smallest, hsmallest, hmin⟩ := h
  obtain ⟨i, hi⟩ := getElem?_of_mem hnode
  have hleaf := hleaves _ (mk_mem_zipIdx_iff_getElem?.2 hi)
  simp only [checkLeaf, bind_eq_ok, mapError_eq_ok, require_eq_ok, exists_and_right] at hleaf
  refine ⟨hleaf.1, hleaf.2, fun hexit => ?_⟩
  obtain ⟨hle, hgated⟩ := (le_of_smallestDelay hsmallest).2 node
    (mem_filter.2 ⟨hnode, by simp [hexit]⟩)
  exact ⟨hgated, by omega⟩

/-! ## What a leaf compiles to -/

def Node.keys : Node → List PublicKey
  | multisig keys => keys
  | csv _ inner => inner.keys
  | condition _ inner => inner.keys

def Node.locks : Node → List ℕ
  | multisig _ => []
  | csv lock inner => inner.locks ++ [lock]
  | condition _ inner => inner.locks

/-- The tokens can be written, and none of them makes the script succeed. -/
def Sane (ts : List Token) : Prop := ∀ t ∈ ts, Token.codec.Fits t ∧ t.isOpSuccess = false

section

variable {keys : List PublicKey} {locks : List ℕ} {node : Node}

theorem build_eq_ok (h : build parts = .ok script) : script = parts.flatten := by
  unfold build at h
  split at h
  · cases h
    rfl
  · cases h

theorem pushKey (key : PublicKey) : pushData key.x.data = ⟨32, key.x.data⟩ := by
  rw [pushData, key.x.length]
  rfl

theorem forall_scriptChecksig {P : Token → Prop} (hpush : ∀ key : PublicKey, P (pushData key.x.data))
    (hsig : P ⟨opCheckSig, []⟩) (hverify : P ⟨opCheckSigVerify, []⟩) :
    ∀ keys, ∀ t ∈ scriptChecksig keys, P t
  | [] => by simp [scriptChecksig]
  | [key] => by simp [scriptChecksig, hpush, hsig]
  | key :: key' :: keys => by
    have ih := forall_scriptChecksig hpush hsig hverify (key' :: keys)
    simpa [scriptChecksig, hpush, hverify] using ih

theorem forall_lockTokens {P : Token → Prop} (hpush : ∀ lock ∈ locks, P (pushNum lock))
    (hcsv : P ⟨opCheckSequenceVerify, []⟩) (hdrop : P ⟨opDrop, []⟩) :
    ∀ t ∈ locks.flatMap lockTokens, P t := by
  simp only [mem_flatMap, lockTokens]
  rintro t ⟨lock, hlock, ht⟩
  simp only [mem_cons, not_mem_nil, or_false] at ht
  rcases ht with rfl | rfl | rfl
  · exact hpush lock hlock
  · exact hcsv
  · exact hdrop

theorem sane_scriptChecksig (keys : List PublicKey) : Sane (scriptChecksig keys) := by
  refine forall_scriptChecksig ?_ ?_ ?_ keys
  · intro key
    rw [pushKey]
    exact ⟨⟨trivial, rfl, key.x.length⟩, rfl⟩
  · exact ⟨⟨trivial, rfl, rfl⟩, by decide⟩
  · exact ⟨⟨trivial, rfl, rfl⟩, by decide⟩

theorem sane_lockTokens (h : ∀ lock ∈ locks, 0 < lock ∧ lock < 65536) :
    Sane (locks.flatMap lockTokens) := by
  refine forall_lockTokens (fun lock hlock => ?_) ?_ ?_
  · exact ⟨fits_pushNum (h lock hlock).2, isOpSuccess_pushNum (h lock hlock).2⟩
  · exact ⟨⟨trivial, rfl, rfl⟩, by decide⟩
  · exact ⟨⟨trivial, rfl, rfl⟩, by decide⟩

/-- The conditions come first, then the multisig and then the locks. -/
theorem script_eq_ok (h : node.script = .ok script) :
    node.keys ≠ [] ∧ (∀ lock ∈ node.locks, 0 < lock ∧ lock < 65536) ∧
      ∃ before, Sane before ∧ script =
        assemble (before ++ scriptChecksig node.keys ++ node.locks.flatMap lockTokens) := by
  induction node generalizing script with
  | multisig keys =>
    simp only [Node.script, bind_eq_ok, require_eq_ok, exists_const] at h
    refine ⟨h.1, by simp [Node.locks], [], by simp [Sane], ?_⟩
    simpa [Node.keys, Node.locks] using build_eq_ok h.2
  | csv lock inner ih =>
    simp only [Node.script, validateCSVLock, bind_eq_ok, require_eq_ok, exists_const] at h
    obtain ⟨⟨hpos, hle⟩, innerScript, hinner, hbuild⟩ := h
    obtain ⟨hkeys, hlocks, before, hbefore, rfl⟩ := ih hinner
    refine ⟨hkeys, ?_, before, hbefore, ?_⟩
    · rw [Node.locks, forall_mem_append]
      exact ⟨hlocks, by simpa using ⟨hpos, Nat.lt_succ_of_le hle⟩⟩
    · rw [build_eq_ok hbuild]
      simp [assemble, Node.keys, Node.locks]
  | condition predicate inner ih =>
    simp only [Node.script, validateConditionPredicate, bind_eq_ok, require_eq_ok,
      exists_const] at h
    obtain ⟨-, ⟨htokens, hsuccess⟩, innerScript, hinner, hbuild⟩ := h
    obtain ⟨hkeys, hlocks, before, hbefore, rfl⟩ := ih hinner
    obtain ⟨ts, hts⟩ := ne_none_iff_exists'.1 htokens
    rw [hasOpSuccess_eq hts, List.any_eq_false] at hsuccess
    obtain ⟨hfits, hpredicate⟩ := tokenize_eq_some hts
    refine ⟨hkeys, hlocks, ts ++ before, ?_, ?_⟩
    · refine forall_mem_append.2 ⟨fun t ht => ⟨hfits t ht, ?_⟩, hbefore⟩
      simpa using hsuccess t ht
    · rw [build_eq_ok hbuild, hpredicate]
      simp [assemble, Node.keys, Node.locks]

/-! ## What a spend needs -/

variable {σ : Type}

theorem plain_scriptChecksig (keys : List PublicKey) : ∀ t ∈ scriptChecksig keys, t.Plain := by
  refine forall_scriptChecksig (fun key => ?_) (by decide) (by decide) keys
  rw [pushKey]
  exact plain_of_lt (show (32 : UInt8).toNat < 0x63 by decide)

theorem run_scriptChecksig : ∀ {keys : List PublicKey} {m : Engine σ}, keys ≠ [] →
    m.conditions = [] → run ctx (scriptChecksig keys) m = some m' →
    ∃ v stack, m'.stack = v :: stack ∧ (asBool v = true →
      ∀ key ∈ keys, Checks ctx (scriptChecksig keys) m key.x.data)
  | [], _, hne, _, _ => absurd rfl hne
  | [key], _, _, hm, h => by
    obtain ⟨v, stack, hstack, hv⟩ := checks_checkSig key.x.length hm h
    exact ⟨v, stack, hstack, fun htrue => by simpa [scriptChecksig] using hv htrue⟩
  | key :: key' :: keys, m, _, hm, h => by
    have hsplit : scriptChecksig (key :: key' :: keys) =
        [pushData key.x.data, ⟨opCheckSigVerify, []⟩] ++ scriptChecksig (key' :: keys) := rfl
    rw [hsplit, run_append] at h
    obtain ⟨m₁, hfirst, hrest⟩ := bind_eq_some_iff.1 h
    have hm₁ : m₁.conditions = [] := by
      rw [run_conditions (fun t ht => ?_) hfirst, hm]
      refine plain_scriptChecksig (key :: key' :: keys) t ?_
      rw [hsplit]
      exact mem_append_left _ ht
    obtain ⟨v, stack, hstack, hv⟩ := run_scriptChecksig (cons_ne_nil _ _) hm₁ hrest
    refine ⟨v, stack, hstack, fun htrue => forall_mem_cons.2 ⟨?_, fun k hk => ?_⟩⟩
    · exact (checks_checkSigVerify key.x.length hm hfirst).within
        (show run ctx [] m = some m from rfl) _
    · have hwithin := (hv htrue k hk).within hfirst []
      rwa [append_nil] at hwithin

theorem run_locks (hlocks : ∀ lock ∈ locks, 0 < lock ∧ lock < 65536) (hm : m.conditions = [])
    (h : run ctx (locks.flatMap lockTokens) m = some m') :
    m'.stack = m.stack ∧ ∀ lock ∈ locks, ctx.Waited lock := by
  induction locks generalizing m with
  | nil =>
    cases h
    exact ⟨rfl, nofun⟩
  | cons lock locks ih =>
    rw [forall_mem_cons] at hlocks
    rw [flatMap_cons, run_append] at h
    obtain ⟨m₁, hfirst, hrest⟩ := bind_eq_some_iff.1 h
    obtain ⟨hstack, hwaited⟩ := waited_of_checkSequenceVerify hlocks.1.1 hlocks.1.2 hm hfirst
    have hm₁ : m₁.conditions = [] := by
      rw [run_conditions (fun t ht => ?_) hfirst, hm]
      refine forall_lockTokens (fun l (hl : l ∈ [lock]) => ?_) (by decide) (by decide) t (by simpa)
      rw [mem_singleton.1 hl]
      exact plain_pushNum hlocks.1.2
    obtain ⟨hstack', hall⟩ := ih hlocks.2 hm₁ hrest
    exact ⟨hstack'.trans hstack, forall_mem_cons.2 ⟨hwaited, hall⟩⟩

theorem extractCSVDelay_mem (h : extractCSVDelay node ≠ 0) : extractCSVDelay node ∈ node.locks := by
  induction node with
  | multisig keys => exact absurd rfl h
  | csv lock inner ih => exact mem_append_right _ mem_cons_self
  | condition predicate inner ih => exact ih h

theorem exists_other_key (hne : node.keys ≠ [])
    (h : walkRejectOperatorUnilateral target node = true) :
    ∃ key ∈ node.keys, key.x.data ≠ target := by
  induction node with
  | multisig keys =>
    rcases Bool.or_eq_true_iff.1 h with hnot | hother
    · obtain ⟨key, hkey⟩ := exists_mem_of_ne_nil _ hne
      refine ⟨key, hkey, fun heq => ?_⟩
      simp only [multisigContainsKey, Bool.not_eq_true', List.any_eq_false] at hnot
      exact hnot key hkey (decide_eq_true heq)
    · simpa [Node.keys] using hother
  | csv lock inner ih | condition predicate inner ih => exact ih hne h

/-- A leaf is spent with a signature for each key and after all locks. A conditional that a
condition leaves open is never closed, so the checks are run. -/
theorem executes_leaf (hscript : node.script = .ok script)
    (hexec : executes ctx script stack other = true) :
    ∃ ts, tokenize script = some ts ∧
      (∀ key ∈ node.keys, Checks ctx ts ⟨stack, [], other⟩ key.x.data) ∧
      ∀ lock ∈ node.locks, ctx.Waited lock := by
  obtain ⟨hkeys, hlocks, before, hbefore, rfl⟩ := script_eq_ok hscript
  have hsane : Sane (before ++ scriptChecksig node.keys ++ node.locks.flatMap lockTokens) :=
    forall_mem_append.2
      ⟨forall_mem_append.2 ⟨hbefore, sane_scriptChecksig _⟩, sane_lockTokens hlocks⟩
  have htokens := tokenize_assemble fun t ht => (hsane t ht).1
  obtain ⟨m, hrun, haccepts⟩ := exists_run_of_executes htokens (fun t ht => (hsane t ht).2) hexec
  rw [run_append, run_append] at hrun
  obtain ⟨m₂, hrun₂, hlast⟩ := bind_eq_some_iff.1 hrun
  obtain ⟨m₁, hfirst, hchain⟩ := bind_eq_some_iff.1 hrun₂
  obtain ⟨hconditions, hstack⟩ := Bool.and_eq_true_iff.1 haccepts
  have hplain : ∀ t ∈ node.locks.flatMap lockTokens, t.Plain :=
    forall_lockTokens (fun lock hlock => plain_pushNum (hlocks lock hlock).2) (by decide) (by decide)
  have hm₂ : m₂.conditions = [] := by
    rw [← run_conditions hplain hlast]
    exact of_decide_eq_true hconditions
  have hm₁ : m₁.conditions = [] := by
    rw [← run_conditions (plain_scriptChecksig _) hchain]
    exact hm₂
  obtain ⟨hkept, hwaited⟩ := run_locks hlocks hm₂ hlast
  obtain ⟨v, rest, htop, hchecks⟩ := run_scriptChecksig hkeys hm₁ hchain
  rw [hkept, htop] at hstack
  have hv : asBool v = true := by
    cases rest with
    | nil => exact hstack
    | cons => cases hstack
  exact ⟨_, htokens, fun key hkey => (hchecks hv key hkey).within hfirst _, hwaited⟩

end

/-- A leaf of an accepted policy is spent only with a valid signature for each of its keys, one of
which is not the operator's. A leaf without the operator's key is spent only by an input that has
waited for the minimum exit delay. -/
theorem validatePolicy_sound (nodes : List Node) (operatorKey : PublicKey) (minExitDelay : ℕ)
    (hvalid : validatePolicy nodes operatorKey minExitDelay = .ok ()) (node : Node)
    (hnode : node ∈ nodes) (script : Script) (hscript : node.script = .ok script) {σ : Type}
    (ctx : Context σ) (stack : List (List UInt8)) (other : σ)
    (hexec : executes ctx script stack other = true) :
    (∃ ts, tokenize script = some ts ∧
      ∀ key ∈ node.keys, Checks ctx ts ⟨stack, [], other⟩ key.x.data) ∧
    (∃ key ∈ node.keys, key.x ≠ operatorKey.x) ∧
    (ContainsKey node operatorKey = false → ctx.Waited minExitDelay) := by
  obtain ⟨-, hunilateral, hexit⟩ := validatePolicy_leaf hvalid hnode
  obtain ⟨ts, htokens, hchecks, hwaited⟩ := executes_leaf hscript hexec
  refine ⟨⟨ts, htokens, hchecks⟩, ?_, fun hno => ?_⟩
  · obtain ⟨key, hkey, hne⟩ := exists_other_key (script_eq_ok hscript).1 hunilateral
    exact ⟨key, hkey, fun heq => hne (congrArg Bytes.data heq)⟩
  · obtain ⟨hgated, hle⟩ := hexit hno
    have hlock := hwaited _ (extractCSVDelay_mem hgated)
    exact ⟨hlock.version, hlock.enabled, hlock.inBlocks, hle.trans hlock.le⟩

/-- A key for small examples. -/
def someKey (n : UInt8) : PublicKey := ⟨.lastByte 31 n, false⟩

/-- An exit that asks for one more item on the stack. -/
def conditionalExit : Node := .condition [opIf, opEndIf] (.csv 144 (.multisig [someKey 2]))

/-- An input that has waited for 150 blocks, where one byte is a signature for every key. -/
def waitedInput : Context Unit where
  version := 2
  sequence := 150
  valid _ _ sig := sig = [7]
  charge := some
  tick := id
  other _ _ _ := none

theorem validatePolicy_sound_exit :
    ∃ script, conditionalExit.script = .ok script ∧
      executes waitedInput script [[1], [7]] () = true ∧
      (∃ ts, tokenize script = some ts ∧
        Checks waitedInput ts ⟨[[1], [7]], [], ()⟩ (someKey 2).x.data) ∧
      waitedInput.Waited 144 := by
  obtain ⟨script, hscript⟩ : ∃ script, conditionalExit.script = .ok script := ⟨_, rfl⟩
  have hexec : (conditionalExit.script.toOption.any fun script =>
      executes waitedInput script [[1], [7]] ()) = true := by decide +kernel
  rw [hscript] at hexec
  obtain ⟨⟨ts, htokens, hchecks⟩, -, hwaited⟩ := validatePolicy_sound
    [.multisig [someKey 2, someKey 1], conditionalExit] (someKey 1) 144 (by decide +kernel)
    conditionalExit (by simp) script hscript waitedInput [[1], [7]] () hexec
  exact ⟨script, hscript, hexec, ⟨ts, htokens, hchecks _ (by decide)⟩, hwaited (by decide)⟩

end Wavelength.Arkscript
