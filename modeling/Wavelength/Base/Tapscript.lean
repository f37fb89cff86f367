import Mathlib.Data.Int.Notation
import Mathlib.Tactic.IntervalCases
import Wavelength.Base.Codec

/-! # Tapscript

A script is a sequence of tokens, run on a stack of byte strings. Conditionals, pushes, signature
checks and relative locks are given here. What the remaining opcodes do to the data stack and to
what else there is (the second stack, the position of the last code separator, the budget for
signature checks) is left open.
-/

namespace Wavelength.Tapscript

structure Token where
  opcode : UInt8
  data : List UInt8

namespace Token

open Codec

def dataCodec (opcode : UInt8) : Codec (List UInt8) :=
  if opcode ≤ 0x4b then raw opcode.toNat
  else if opcode = 0x4c then sized (le 1)
  else if opcode = 0x4d then sized (le 2)
  else if opcode = 0x4e then sized (le 4)
  else known []

def codec : Codec Token :=
  byte.tagged Token.opcode
    (fun opcode => (dataCodec opcode).convert
      (fun t => t.opcode = opcode ∧ (dataCodec opcode).Fits t.data) Token.data
      (fun data => some ⟨opcode, data⟩)
      (by rintro ⟨_, data⟩ ⟨rfl, h⟩; exact ⟨h, rfl⟩)
      (by rintro data t h ht; cases ht; exact ⟨⟨rfl, h⟩, rfl⟩))
    (fun _ _ h => h.1)

theorem fits_iff : codec.Fits t ↔ (dataCodec t.opcode).Fits t.data :=
  ⟨fun h => h.2.2, fun h => ⟨trivial, rfl, h⟩⟩

/-- The opcodes that make a script succeed wherever they stand. -/
def isOpSuccess (t : Token) : Bool :=
  let op := t.opcode.toNat
  op = 80 ∨ op = 98 ∨ 126 ≤ op ∧ op ≤ 129 ∨ 131 ≤ op ∧ op ≤ 134 ∨ 137 ≤ op ∧ op ≤ 138 ∨
    141 ≤ op ∧ op ≤ 142 ∨ 149 ≤ op ∧ op ≤ 153 ∨ 187 ≤ op ∧ op ≤ 254

end Token

def opIf : UInt8 := 0x63
def opNotIf : UInt8 := 0x64
def opElse : UInt8 := 0x67
def opEndIf : UInt8 := 0x68
def opDrop : UInt8 := 0x75
def opCheckSig : UInt8 := 0xac
def opCheckSigVerify : UInt8 := 0xad
def opCheckSequenceVerify : UInt8 := 0xb2

def assemble (ts : List Token) : List UInt8 := ts.flatMap Token.codec.write

def tokenize (script : List UInt8) : Option (List Token) := Token.codec.parse script

def hasOpSuccess (script : List UInt8) : Bool :=
  (Token.codec.readable script.length script).any Token.isOpSuccess

/-- How a branch of a conditional is treated: run, not run, or inside one that is not run. -/
inductive Branch | taken | untaken | skipped
  deriving DecidableEq

structure Engine (σ : Type) where
  stack : List (List UInt8)
  conditions : List Branch
  other : σ

/-- The transaction that spends the output and the opcodes that are left open. -/
structure Context (σ : Type) where
  version : ℕ
  sequence : ℕ
  /-- Whether a signature is valid for a key, both as bytes. -/
  valid : σ → List UInt8 → List UInt8 → Bool
  charge : σ → Option σ
  /-- What happens at every token, whether it is run or not. -/
  tick : σ → σ
  other : UInt8 → List (List UInt8) → σ → Option (List (List UInt8) × σ)

/-! ## Numbers -/

/-- The bytes of a positive number, the least significant first. The highest bit is the sign. -/
def scriptNum : ℕ → ℕ → List UInt8
  | 0, n => [.ofNat n]
  | fuel + 1, n => if n < 128 then [.ofNat n] else .ofNat n :: scriptNum fuel (n / 256)

/-- The number that at most five bytes hold in their shortest form. -/
def makeScriptNum (bs : List UInt8) : Option ℤ :=
  match bs.reverse with
  | [] => some 0
  | last :: before =>
    if 5 < bs.length ∨ last.toNat % 128 = 0 ∧ (before.head?.all fun b => b.toNat < 128) then none
    else if last.toNat < 128 then some (Codec.ofLeBytes bs)
    else some (128 * 256 ^ before.length - Codec.ofLeBytes bs)

def asBool (bs : List UInt8) : Bool :=
  bs.any (· ≠ 0) && bs ≠ List.replicate (bs.length - 1) 0 ++ [0x80]

def pushData (data : List UInt8) : Token := ⟨.ofNat data.length, data⟩

def pushNum (n : ℕ) : Token :=
  if n ≤ 16 then ⟨if n = 0 then 0 else .ofNat (0x50 + n), []⟩ else pushData (scriptNum 8 n)

/-! ## Execution -/

section

variable {σ : Type} (ctx : Context σ)

def Engine.executing (m : Engine σ) : Bool :=
  match m.conditions with
  | [] => true
  | b :: _ => b = .taken

/-- Only the empty string and the byte one are accepted as the condition of a branch. -/
def minimalIf : List UInt8 → Option Bool
  | [] => some false
  | [1] => some true
  | _ => none

def branch (m : Engine σ) (want : Bool) : Option (Engine σ) :=
  if m.executing then
    match m.stack with
    | [] => none
    | top :: stack => do
      let b ← minimalIf top
      pure { m with
        stack := stack
        conditions := (if b = want then .taken else .untaken) :: m.conditions }
  else some { m with conditions := .skipped :: m.conditions }

def otherBranch (m : Engine σ) : Option (Engine σ) :=
  match m.conditions with
  | [] => none
  | .taken :: rest => some { m with conditions := .untaken :: rest }
  | .untaken :: rest => some { m with conditions := .taken :: rest }
  | .skipped :: _ => some m

def endBranch (m : Engine σ) : Option (Engine σ) :=
  match m.conditions with
  | [] => none
  | _ :: rest => some { m with conditions := rest }

/-- An empty signature is the way to say that there is none. Keys of other lengths than 32 bytes
are kept for later rules. -/
def checkSig (m : Engine σ) : Option (Bool × Engine σ) :=
  match m.stack with
  | key :: sig :: stack =>
    if key = [] then none
    else if sig = [] then some (false, { m with stack := stack })
    else do
      let other ← ctx.charge m.other
      if key.length = 32 ∧ ctx.valid m.other key sig = false then none
      else pure (true, { m with stack := stack, other := other })
  | _ => none

/-- The bits of a sequence number that hold a relative lock: its unit and its value. -/
def lockBits (n : ℕ) : ℕ := n / 2 ^ 22 % 2 * 2 ^ 22 + n % 2 ^ 16

def disabled (n : ℕ) : Bool := n / 2 ^ 31 % 2 = 1

def checkSequence (lock : ℕ) : Bool :=
  disabled lock || (2 ≤ ctx.version && !disabled ctx.sequence &&
    (lockBits lock < 2 ^ 22 ↔ lockBits ctx.sequence < 2 ^ 22) &&
    lockBits lock ≤ lockBits ctx.sequence)

def checkSequenceVerify (m : Engine σ) : Option (Engine σ) :=
  match m.stack with
  | [] => none
  | top :: _ => do
    let lock ← makeScriptNum top
    if 0 ≤ lock ∧ checkSequence ctx lock.toNat then pure m else none

def perform (t : Token) (m : Engine σ) : Option (Engine σ) :=
  if t.opcode ≤ 0x4e then some { m with stack := t.data :: m.stack }
  else if 0x51 ≤ t.opcode ∧ t.opcode ≤ 0x60 then
    some { m with stack := [t.opcode - 0x50] :: m.stack }
  else if t.opcode = opDrop then
    if m.stack = [] then none else some { m with stack := m.stack.tail }
  else if t.opcode = opCheckSig then do
    let (ok, m) ← checkSig ctx m
    pure { m with stack := (if ok then [1] else []) :: m.stack }
  else if t.opcode = opCheckSigVerify then do
    let (ok, m) ← checkSig ctx m
    if ok then pure m else none
  else if t.opcode = opCheckSequenceVerify then checkSequenceVerify ctx m
  else do
    let (stack, other) ← ctx.other t.opcode m.stack m.other
    pure { m with stack := stack, other := other }

/-- One token. Outside of the branch that is run only conditionals count. -/
def step (t : Token) (m : Engine σ) : Option (Engine σ) :=
  if t.opcode = opIf then branch m true
  else if t.opcode = opNotIf then branch m false
  else if t.opcode = opElse then otherBranch m
  else if t.opcode = opEndIf then endBranch m
  else if m.executing then perform ctx t m
  else some m

def run : List Token → Engine σ → Option (Engine σ)
  | [], m => some m
  | t :: ts, m => do
    let m ← step ctx t { m with other := ctx.tick m.other }
    run ts m

/-- Every conditional is closed and one true value is left. -/
def Engine.accepts (m : Engine σ) : Bool :=
  m.conditions = [] &&
    match m.stack with
    | [v] => asBool v
    | _ => false

def executes (script : List UInt8) (stack : List (List UInt8)) (other : σ) : Bool :=
  hasOpSuccess script ||
    match tokenize script with
    | none => false
    | some ts => ((run ctx ts ⟨stack, [], other⟩).map Engine.accepts).getD false

end

/-! ## What a script checks -/

variable {n : ℕ}

section

variable {σ : Type} {ctx : Context σ} {m m' : Engine σ} {ts ts' : List Token} {t : Token}
  {script key data : List UInt8}

theorem tokenize_assemble (h : ∀ t ∈ ts, Token.codec.Fits t) : tokenize (assemble ts) = some ts :=
  Codec.parse_flatMap (fun _ => List.cons_ne_nil _ _) h

theorem tokenize_eq_some (h : tokenize script = some ts) :
    (∀ t ∈ ts, Token.codec.Fits t) ∧ script = assemble ts :=
  Codec.readAll_eq_some h

theorem hasOpSuccess_eq (h : tokenize script = some ts) :
    hasOpSuccess script = ts.any Token.isOpSuccess := by
  rw [hasOpSuccess, Codec.readable_eq h]

theorem exists_run_of_executes (ht : tokenize script = some ts)
    (hs : ∀ t ∈ ts, t.isOpSuccess = false) (h : executes ctx script stack other = true) :
    ∃ m, run ctx ts ⟨stack, [], other⟩ = some m ∧ m.accepts = true := by
  have hsuccess : ts.any Token.isOpSuccess = false := List.any_eq_false.2 fun t h => by simp [hs t h]
  rw [executes, hasOpSuccess_eq ht, hsuccess, Bool.false_or, ht] at h
  cases hrun : run ctx ts ⟨stack, [], other⟩ with
  | none => simp [hrun] at h
  | some m => exact ⟨m, rfl, by simpa [hrun] using h⟩

theorem run_append : run ctx (ts ++ ts') m = run ctx ts m >>= run ctx ts' := by
  induction ts generalizing m with
  | nil => rfl
  | cons t ts ih =>
    rw [List.cons_append, run, run, bind_assoc]
    exact congrArg (step ctx t _ >>= ·) (funext fun _ => ih)

/-- A token that opens, changes or closes no conditional. -/
def Token.Plain (t : Token) : Prop :=
  t.opcode ≠ opIf ∧ t.opcode ≠ opNotIf ∧ t.opcode ≠ opElse ∧ t.opcode ≠ opEndIf

instance (t : Token) : Decidable t.Plain := inferInstanceAs (Decidable (_ ∧ _ ∧ _ ∧ _))

theorem step_plain (ht : t.Plain) :
    step ctx t m = if m.executing then perform ctx t m else some m := by
  rw [step, if_neg ht.1, if_neg ht.2.1, if_neg ht.2.2.1, if_neg ht.2.2.2]

theorem checkSig_spec (h : checkSig ctx m = some (b, m')) :
    ∃ key sig stack, m.stack = key :: sig :: stack ∧ m'.stack = stack ∧
      m'.conditions = m.conditions ∧
      (b = true → key.length = 32 → ctx.valid m.other key sig = true) := by
  unfold checkSig at h
  split at h
  case h_2 => cases h
  case h_1 key sig stack hstack =>
    refine ⟨key, sig, stack, hstack, ?_⟩
    split_ifs at h with hkey hsig hvalid
    · cases h
      exact ⟨rfl, rfl, fun hb => by cases hb⟩
    · simp at h
    simp only [Option.bind_eq_bind, Option.bind_eq_some_iff] at h
    obtain ⟨other, -, h⟩ := h
    cases h
    refine ⟨rfl, rfl, fun _ hlen => ?_⟩
    by_contra hinvalid
    exact hvalid ⟨hlen, by simpa using hinvalid⟩

theorem perform_conditions (h : perform ctx t m = some m') : m'.conditions = m.conditions := by
  unfold perform at h
  split_ifs at h
  · cases h; rfl
  · cases h; rfl
  · cases h; rfl
  · simp only [Option.bind_eq_bind, Option.bind_eq_some_iff, Prod.exists] at h
    obtain ⟨b, m₁, hcheck, h⟩ := h
    obtain ⟨_, _, _, -, -, hconditions, -⟩ := checkSig_spec hcheck
    cases h
    exact hconditions
  · simp only [Option.bind_eq_bind, Option.bind_eq_some_iff, Prod.exists] at h
    obtain ⟨b, m₁, hcheck, h⟩ := h
    split at h
    · cases h
      obtain ⟨_, _, _, -, -, hconditions, -⟩ := checkSig_spec hcheck
      exact hconditions
    · cases h
  · unfold checkSequenceVerify at h
    split at h
    · cases h
    simp only [Option.bind_eq_bind, Option.bind_eq_some_iff] at h
    obtain ⟨lock, -, h⟩ := h
    split at h
    · cases h; rfl
    · cases h
  · simp only [Option.bind_eq_bind, Option.bind_eq_some_iff, Prod.exists] at h
    obtain ⟨stack, other, -, h⟩ := h
    cases h
    rfl

theorem step_conditions (ht : t.Plain) (h : step ctx t m = some m') :
    m'.conditions = m.conditions := by
  rw [step_plain ht] at h
  split at h
  · exact perform_conditions h
  · cases h
    rfl

theorem run_conditions (hts : ∀ t ∈ ts, t.Plain) (h : run ctx ts m = some m') :
    m'.conditions = m.conditions := by
  induction ts generalizing m with
  | nil =>
    cases h
    rfl
  | cons t ts ih =>
    rw [List.forall_mem_cons] at hts
    obtain ⟨m₁, hstep, hrun⟩ := Option.bind_eq_some_iff.1 h
    rw [ih hts.2 hrun, step_conditions hts.1 hstep]

theorem executing_of_conditions (h : m.conditions = []) : m.executing = true := by
  rw [Engine.executing, h]

/-- In a run from `m`, one of the signature checks finds a valid signature for `key`. -/
def Checks (ctx : Context σ) (ts : List Token) (m : Engine σ) (key : List UInt8) : Prop :=
  ∃ before t after m₁ sig stack, ts = before ++ t :: after ∧ run ctx before m = some m₁ ∧
    m₁.executing = true ∧ (t.opcode = opCheckSig ∨ t.opcode = opCheckSigVerify) ∧
    m₁.stack = key :: sig :: stack ∧ ctx.valid (ctx.tick m₁.other) key sig = true

theorem Checks.within (h : Checks ctx ts m' key) (hrun : run ctx before m = some m')
    (after : List Token) : Checks ctx (before ++ ts ++ after) m key := by
  obtain ⟨before', t, after', m₁, sig, stack, rfl, hbefore, hcheck⟩ := h
  refine ⟨before ++ before', t, after' ++ after, m₁, sig, stack, by simp, ?_, hcheck⟩
  rw [run_append, hrun]
  exact hbefore

/-- The input has waited for a number of blocks. -/
structure Context.Waited (ctx : Context σ) (blocks : ℕ) : Prop where
  version : 2 ≤ ctx.version
  enabled : disabled ctx.sequence = false
  inBlocks : ctx.sequence / 2 ^ 22 % 2 = 0
  le : blocks ≤ ctx.sequence % 2 ^ 16

theorem toNat_pushData (h : data.length ≤ 75) : (pushData data).opcode.toNat = data.length := by
  rw [pushData, UInt8.toNat_ofNat', Nat.mod_eq_of_lt (by omega)]

theorem plain_of_lt (h : t.opcode.toNat < 0x63) : t.Plain := by
  refine ⟨?_, ?_, ?_, ?_⟩ <;>
  · intro heq
    rw [heq] at h
    exact absurd h (by decide)

theorem fits_pushData (h : data.length ≤ 75) : Token.codec.Fits (pushData data) := by
  rw [Token.fits_iff, Token.dataCodec, if_pos]
  · exact (toNat_pushData h).symm
  · rw [UInt8.le_iff_toNat_le, toNat_pushData h]
    exact h

theorem step_pushData (h : data.length ≤ 75) (hm : m.conditions = []) :
    step ctx (pushData data) m = some { m with stack := data :: m.stack } := by
  rw [step_plain (plain_of_lt (by rw [toNat_pushData h]; omega)),
    if_pos (executing_of_conditions hm), perform, if_pos]
  · rfl
  · rw [UInt8.le_iff_toNat_le, toNat_pushData h]
    exact h.trans (by decide)

theorem scriptNum_cases (h₁ : 16 < n) (h₂ : n < 65536) :
    scriptNum 8 n = [.ofNat n] ∧ n < 128 ∨
    scriptNum 8 n = [.ofNat n, .ofNat (n / 256)] ∧ 128 ≤ n ∧ n < 32768 ∨
    scriptNum 8 n = [.ofNat n, .ofNat (n / 256), 0] ∧ 32768 ≤ n := by
  by_cases h₃ : n < 128
  · exact .inl ⟨if_pos h₃, h₃⟩
  by_cases h₄ : n < 32768
  · refine .inr (.inl ⟨?_, by omega, h₄⟩)
    rw [scriptNum, if_neg h₃, scriptNum, if_pos (by omega)]
  refine .inr (.inr ⟨?_, by omega⟩)
  have hzero : n / 256 / 256 = 0 := by omega
  rw [scriptNum, if_neg h₃, scriptNum, if_neg (by omega), hzero]
  rfl

theorem makeScriptNum_of_positive (hrev : bs.reverse = last :: before) (hlen : bs.length ≤ 5)
    (hlt : last.toNat < 128) (hmin : last.toNat ≠ 0 ∨ ∃ b, before.head? = some b ∧ 128 ≤ b.toNat) :
    makeScriptNum bs = some (Codec.ofLeBytes bs : ℤ) := by
  have hmin' : ¬(5 < bs.length ∨
      last.toNat % 128 = 0 ∧ (before.head?.all fun b => b.toNat < 128) = true) := by
    rintro (hlong | ⟨hzero, hall⟩)
    · omega
    rcases hmin with hne | ⟨b, hb, hge⟩
    · omega
    · rw [hb] at hall
      have hsmall : b.toNat < 128 := by simpa using hall
      omega
  rw [makeScriptNum, hrev]
  exact (if_neg hmin').trans (if_pos hlt)

theorem makeScriptNum_scriptNum (h₁ : 16 < n) (h₂ : n < 65536) :
    makeScriptNum (scriptNum 8 n) = some (n : ℤ) ∧ (scriptNum 8 n).length ≤ 75 := by
  have hlow : (UInt8.ofNat n).toNat = n % 256 := UInt8.toNat_ofNat'
  have hhigh : (UInt8.ofNat (n / 256)).toNat = n / 256 % 256 := UInt8.toNat_ofNat'
  rcases scriptNum_cases h₁ h₂ with ⟨heq, h⟩ | ⟨heq, h, h'⟩ | ⟨heq, h⟩
  · have hvalue : Codec.ofLeBytes [.ofNat n] = n := by
      simp only [Codec.ofLeBytes, hlow]
      omega
    rw [heq, makeScriptNum_of_positive rfl (by simp) (by omega) (.inl (by omega)), hvalue]
    exact ⟨rfl, by simp⟩
  · have hvalue : Codec.ofLeBytes [.ofNat n, .ofNat (n / 256)] = n := by
      simp only [Codec.ofLeBytes, hlow, hhigh]
      omega
    have hmin : n / 256 % 256 ≠ 0 ∨ 128 ≤ n % 256 := by omega
    rw [heq, makeScriptNum_of_positive rfl (by simp) (by omega)
      (hmin.imp (fun hne => by rwa [hhigh]) fun hge => ⟨_, rfl, by rwa [hlow]⟩), hvalue]
    exact ⟨rfl, by simp⟩
  · have hvalue : Codec.ofLeBytes [.ofNat n, .ofNat (n / 256), 0] = n := by
      simp only [Codec.ofLeBytes, hlow, hhigh, UInt8.reduceToNat]
      omega
    rw [heq, makeScriptNum_of_positive rfl (by simp) (by decide) (.inr ⟨_, rfl, by omega⟩), hvalue]
    exact ⟨rfl, by simp⟩

theorem toNat_pushNum (h : n < 65536) :
    (pushNum n).opcode.toNat < 98 ∧ (pushNum n).opcode.toNat ≠ 80 := by
  unfold pushNum
  split_ifs with h₁ h₂
  · decide
  · rw [UInt8.toNat_ofNat']
    omega
  · have hlen := (makeScriptNum_scriptNum (by omega) h).2
    rw [toNat_pushData hlen]
    omega

theorem plain_pushNum (h : n < 65536) : (pushNum n).Plain :=
  plain_of_lt (Nat.lt_trans (toNat_pushNum h).1 (by decide))

theorem isOpSuccess_pushNum (h : n < 65536) : (pushNum n).isOpSuccess = false := by
  have hop := toNat_pushNum h
  simp only [Token.isOpSuccess, decide_eq_false_iff_not]
  omega

theorem fits_pushNum (h : n < 65536) : Token.codec.Fits (pushNum n) := by
  by_cases h₁ : n ≤ 16
  · interval_cases n <;> exact ⟨trivial, rfl, rfl⟩
  · rw [pushNum, if_neg h₁]
    exact fits_pushData (makeScriptNum_scriptNum (by omega) h).2

theorem step_pushNum (ctx : Context σ) (hpos : 0 < n) (h : n < 65536) (hm : m.conditions = []) :
    ∃ bs, step ctx (pushNum n) m = some { m with stack := bs :: m.stack } ∧
      makeScriptNum bs = some (n : ℤ) := by
  by_cases h₁ : n ≤ 16
  · refine ⟨[.ofNat n], ?_, ?_⟩
    · rw [step_plain (plain_pushNum h), if_pos (executing_of_conditions hm)]
      interval_cases n <;> rfl
    · interval_cases n <;> rfl
  obtain ⟨hvalue, hlen⟩ := makeScriptNum_scriptNum (by omega) h
  refine ⟨scriptNum 8 n, ?_, hvalue⟩
  rw [pushNum, if_neg h₁]
  exact step_pushData hlen hm

theorem step_op {opcode : UInt8} (ht : Token.Plain ⟨opcode, []⟩) :
    step ctx ⟨opcode, []⟩ ⟨stack, [], other⟩ = perform ctx ⟨opcode, []⟩ ⟨stack, [], other⟩ :=
  step_plain ht

theorem run_pushData (ctx : Context σ) (h : data.length ≤ 75)
    (stack : List (List UInt8)) (other : σ) : run ctx [pushData data] ⟨stack, [], other⟩ =
      some ⟨data :: stack, [], ctx.tick other⟩ := by
  rw [run, step_pushData h rfl]
  rfl

theorem checks_checkSigVerify (hkey : key.length = 32) (hm : m.conditions = [])
    (h : run ctx [pushData key, ⟨opCheckSigVerify, []⟩] m = some m') :
    Checks ctx [pushData key, ⟨opCheckSigVerify, []⟩] m key := by
  obtain ⟨stack, conditions, other⟩ := m
  cases hm
  have hpush := run_pushData ctx (show key.length ≤ 75 by omega) stack other
  rw [← List.singleton_append, run_append, hpush, Option.bind_eq_bind, Option.bind_some] at h
  obtain ⟨m₁, hstep, -⟩ := Option.bind_eq_some_iff.1 h
  rw [step_op (by decide)] at hstep
  obtain ⟨⟨ok, m₂⟩, hcheck, hok⟩ := Option.bind_eq_some_iff.1 hstep
  obtain ⟨_, sig, _, hstack, -, -, hvalid⟩ := checkSig_spec hcheck
  cases hstack
  cases ok with
  | false => cases hok
  | true => exact ⟨[_], _, [], _, sig, _, rfl, hpush, rfl, .inr rfl, rfl, hvalid rfl hkey⟩

theorem checks_checkSig (hkey : key.length = 32) (hm : m.conditions = [])
    (h : run ctx [pushData key, ⟨opCheckSig, []⟩] m = some m') :
    ∃ v stack, m'.stack = v :: stack ∧
      (asBool v = true → Checks ctx [pushData key, ⟨opCheckSig, []⟩] m key) := by
  obtain ⟨stack, conditions, other⟩ := m
  cases hm
  have hpush := run_pushData ctx (show key.length ≤ 75 by omega) stack other
  rw [← List.singleton_append, run_append, hpush, Option.bind_eq_bind, Option.bind_some] at h
  obtain ⟨m₁, hstep, hm₁⟩ := Option.bind_eq_some_iff.1 h
  cases hm₁
  rw [step_op (by decide)] at hstep
  obtain ⟨⟨ok, m₂⟩, hcheck, hok⟩ := Option.bind_eq_some_iff.1 hstep
  obtain ⟨_, sig, _, hstack, -, -, hvalid⟩ := checkSig_spec hcheck
  cases hstack
  cases hok
  refine ⟨_, _, rfl, fun hv => ?_⟩
  cases ok with
  | false => cases hv
  | true => exact ⟨[_], _, [], _, sig, _, rfl, hpush, rfl, .inl rfl, rfl, hvalid rfl hkey⟩

theorem waited_of_checkSequence (hlock : lock < 65536) (h : checkSequence ctx lock = true) :
    ctx.Waited lock := by
  have hbits : lockBits lock = lock := by
    unfold lockBits
    omega
  have henabled : disabled lock = false := by
    simp [disabled]
    omega
  rw [checkSequence, henabled, hbits, Bool.false_or] at h
  simp only [Bool.and_eq_true, decide_eq_true_eq, Bool.not_eq_true'] at h
  obtain ⟨⟨⟨hversion, hseq⟩, hunit⟩, hle⟩ := h
  have hunit' := hunit.1 (by omega)
  unfold lockBits at hunit' hle
  exact ⟨hversion, hseq, by omega, by omega⟩

theorem perform_checkSequenceVerify :
    perform ctx ⟨opCheckSequenceVerify, []⟩ m = checkSequenceVerify ctx m := rfl

theorem waited_of_checkSequenceVerify (hpos : 0 < lock) (hlock : lock < 65536)
    (hm : m.conditions = [])
    (h : run ctx [pushNum lock, ⟨opCheckSequenceVerify, []⟩, ⟨opDrop, []⟩] m = some m') :
    m'.stack = m.stack ∧ ctx.Waited lock := by
  obtain ⟨stack, conditions, other⟩ := m
  cases hm
  obtain ⟨bs, hpush, hbs⟩ := step_pushNum ctx hpos hlock (m := ⟨stack, [], ctx.tick other⟩) rfl
  simp only [run, hpush, Option.bind_eq_bind, Option.bind_some, Option.bind_eq_some_iff] at h
  obtain ⟨m₁, hcsv, m₂, hdrop, hm₂⟩ := h
  cases hm₂
  rw [step_op (by decide), perform_checkSequenceVerify] at hcsv
  simp only [checkSequenceVerify, hbs, Option.bind_eq_bind, Option.bind_some] at hcsv
  split at hcsv
  · next hcheck =>
    cases hcsv
    rw [step_op (by decide)] at hdrop
    cases hdrop
    exact ⟨rfl, waited_of_checkSequence hlock hcheck.2⟩
  · cases hcsv

end

end Wavelength.Tapscript
