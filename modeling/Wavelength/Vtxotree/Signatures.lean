import Mathlib.Data.List.TakeWhile
import Wavelength.Vtxotree.Node

/-! # Signatures of a tree

The signatures of all transactions are parsed, then stored node by node, and then verified. What has
been stored stays when a later node has no signature or when a signature turns out to be invalid.
-/

namespace Wavelength.Vtxotree

open List

/-- Schnorr signatures of type `σ`. -/
structure Signing (σ : Type) where
  parseSignature : List UInt8 → Option σ
  /-- The taproot signature hash of a transaction with one input. -/
  sigHash : MsgTx → TxOut → List UInt8
  verify : σ → List UInt8 → PublicKey → Bool

inductive SubmitError where
  | noSignatures
  | parse (txid : ℕ)
  | notFound (txid : ℕ)
  | noSignature (txid : ℕ)
  | noFinalKey
  | invalid (txid : ℕ)

/-- A call that does not succeed returns an error, or it panics on a previous output that is nil. -/
inductive Stop where
  | error (err : SubmitError)
  | panic

structure SignedData (σ : Type) where
  data : NodeData
  signature : Option σ

structure SignedTree (σ : Type) where
  root : Rose ℕ (SignedData σ)
  batchOutput : Option TxOut

section

variable {σ : Type} (crypto : Crypto) (signing : Signing σ)

def parseSignatures : List (ℕ × List UInt8) → Except SubmitError (List (ℕ × σ))
  | [] => .ok []
  | (txid, sigBytes) :: rest =>
    match signing.parseSignature sigBytes with
    | none => .error (.parse txid)
    | some sig => do
      let sigMap ← parseSignatures rest
      return (txid, sig) :: sigMap

def submitNode (sigs : List (ℕ × σ)) (n : SignedData σ) : Except SubmitError (SignedData σ) :=
  match sigs.lookup (n.data.txid crypto) with
  | none => .error (.notFound (n.data.txid crypto))
  | some sig => .ok { n with signature := some sig }

namespace SignedTree

variable (t : SignedTree σ)

def submitTreeSigs (sigs : List (ℕ × σ)) : SignedTree σ × Except SubmitError Unit :=
  let (root, result) := t.root.forEach (submitNode crypto sigs)
  ({ t with root := root }, result)

/-- The entries of the map of outputs; a later entry replaces an earlier one. -/
def prevOutputs : List (OutPoint × Option TxOut) :=
  (t.root.label.data.input, t.batchOutput) ::
    t.root.labels.flatMap fun n =>
      n.data.outputs.zipIdx.map fun (output, i) => (⟨n.data.txid crypto, i⟩, some output)

def fetchPrevOutput (outpoint : OutPoint) : Option TxOut :=
  ((t.prevOutputs crypto).reverse.lookup outpoint).join

end SignedTree

def verifyNodeSignature (fetch : OutPoint → Option TxOut) (n : SignedData σ) (sig : σ) :
    Except Stop Unit :=
  match n.data.finalKey with
  | none => .error (.error .noFinalKey)
  | some finalKey =>
    match fetch n.data.input with
    | none => .error .panic
    | some prevOut =>
      require (signing.verify sig (signing.sigHash n.data.toTx prevOut) finalKey)
        (.error (.invalid (n.data.txid crypto)))

def verifySignedNode (fetch : OutPoint → Option TxOut) (n : SignedData σ) : Except Stop Unit :=
  match n.signature with
  | none => .error (.error (.noSignature (n.data.txid crypto)))
  | some sig => verifyNodeSignature crypto signing fetch n sig

namespace SignedTree

variable (t : SignedTree σ)

def verifySigned : Except Stop Unit :=
  forM t.root.labels (verifySignedNode crypto signing (t.fetchPrevOutput crypto))

def validateAndSubmitSignatures (signatures : List (ℕ × List UInt8)) :
    SignedTree σ × Except Stop Unit :=
  if signatures = [] then (t, .error (.error .noSignatures))
  else
    match parseSignatures signing signatures with
    | .error err => (t, .error (.error err))
    | .ok sigMap =>
      match t.submitTreeSigs crypto sigMap with
      | (t', .error err) => (t', .error (.error err))
      | (t', .ok _) => (t', t'.verifySigned crypto signing)

end SignedTree

end

/-! ## All or nothing -/

section

variable {σ : Type} (crypto : Crypto) (signing : Signing σ) (signatures : List (ℕ × List UInt8))

def supplied (n : SignedData σ) : Option σ :=
  (signatures.lookup (n.data.txid crypto)).bind signing.parseSignature

def store (n : SignedData σ) : SignedData σ :=
  { n with signature := supplied crypto signing signatures n }

/-- The signature for a node is valid for its final key and its input. -/
def Verifies (fetch : OutPoint → Option TxOut) (n : SignedData σ) : Prop :=
  ∃ sig finalKey prevOut, supplied crypto signing signatures n = some sig ∧
    n.data.finalKey = some finalKey ∧ fetch n.data.input = some prevOut ∧
    signing.verify sig (signing.sigHash n.data.toTx prevOut) finalKey = true

variable (t : SignedTree σ)

/-- A call that returns an error leaves all signatures as they were; a call that succeeds leaves the
supplied ones, and they are valid. -/
structure AllOrNothing : Prop where
  nothing : ∀ err,
    (t.validateAndSubmitSignatures crypto signing signatures).2 = .error (.error err) →
    (t.validateAndSubmitSignatures crypto signing signatures).1.root.labels.map (·.signature) =
      t.root.labels.map (·.signature)
  all : (t.validateAndSubmitSignatures crypto signing signatures).2 = .ok () →
    (t.validateAndSubmitSignatures crypto signing signatures).1.root.labels =
        t.root.labels.map (store crypto signing signatures) ∧
      ∀ n ∈ t.root.labels, Verifies crypto signing signatures (t.fetchPrevOutput crypto) n

/-- The nodes before the first that gets no signature have the supplied ones already. -/
def Unmoved : Prop :=
  ∀ n ∈ t.root.labels.takeWhile fun n => (supplied crypto signing signatures n).isSome,
    supplied crypto signing signatures n = n.signature

/-- The verification meets a node whose previous output is not known before any other failure. -/
def Panics : Prop :=
  (∀ n ∈ t.root.labels, supplied crypto signing signatures n ≠ none) ∧
    ∃ before n after, t.root.labels = before ++ n :: after ∧
      (∀ m ∈ before, Verifies crypto signing signatures (t.fetchPrevOutput crypto) m) ∧
      n.data.finalKey ≠ none ∧ t.fetchPrevOutput crypto n.data.input = none

end

section

variable {σ : Type} {signing : Signing σ} {signatures : List (ℕ × List UInt8)} {t : SignedTree σ}
  {sigMap : List (ℕ × σ)}

theorem parseSignatures_cases (signing : Signing σ) (signatures : List (ℕ × List UInt8)) :
    (∃ err, parseSignatures signing signatures = .error err ∧
      ∃ p ∈ signatures, signing.parseSignature p.2 = none) ∨
    ∃ sigMap, parseSignatures signing signatures = .ok sigMap ∧
      (∀ p ∈ signatures, signing.parseSignature p.2 ≠ none) ∧
      ∀ txid, sigMap.lookup txid = (signatures.lookup txid).bind signing.parseSignature := by
  induction signatures with
  | nil => exact .inr ⟨[], rfl, nofun, fun _ => rfl⟩
  | cons p signatures ih =>
    rw [parseSignatures]
    cases hp : signing.parseSignature p.2 with
    | none => exact .inl ⟨_, rfl, p, mem_cons_self, hp⟩
    | some sig =>
      obtain ⟨err, herr, q, hq, hnone⟩ | ⟨sigMap, hok, hall, hlookup⟩ := ih
      · exact .inl ⟨err, by rw [herr]; rfl, q, mem_cons_of_mem _ hq, hnone⟩
      refine .inr ⟨_, by rw [hok]; rfl, forall_mem_cons.2 ⟨by simp [hp], hall⟩, fun txid => ?_⟩
      rw [lookup_cons, lookup_cons]
      cases txid == p.1 with
      | true => exact hp.symm
      | false => exact hlookup txid

variable (h : ∀ txid, sigMap.lookup txid = (signatures.lookup txid).bind signing.parseSignature)
include h

theorem submitNode_eq :
    submitNode crypto sigMap n =
      if (supplied crypto signing signatures n).isSome then
        .ok (store crypto signing signatures n)
      else .error (.notFound (n.data.txid crypto)) := by
  rw [submitNode, h, store]
  cases hsig : supplied crypto signing signatures n with
  | none | some sig =>
    unfold supplied at hsig
    rw [hsig]
    rfl

theorem submitTreeSigs_spec :
    (t.submitTreeSigs crypto sigMap).1.root.labels =
        (t.root.labels.takeWhile fun n => (supplied crypto signing signatures n).isSome).map
            (store crypto signing signatures) ++
          t.root.labels.dropWhile (fun n => (supplied crypto signing signatures n).isSome) ∧
      ∀ u, (t.submitTreeSigs crypto sigMap).2 = .ok u ↔
        ∀ n ∈ t.root.labels, supplied crypto signing signatures n ≠ none := by
  have heq := Rose.forEach_eq (f := submitNode crypto sigMap) t.root
  have hisOk : (fun n => (submitNode crypto sigMap n).isOk) =
      fun n => (supplied crypto signing signatures n).isSome := by
    funext n
    rw [submitNode_eq h]
    cases (supplied crypto signing signatures n).isSome <;> rfl
  constructor
  · refine (congrArg Prod.fst heq).trans ?_
    rw [Rose.updateAll_fst, hisOk]
    congr 1
    refine map_congr_left fun n hn => ?_
    rw [submitNode_eq h, if_pos (mem_takeWhile_imp hn)]
    rfl
  · intro u
    have hresult : (t.submitTreeSigs crypto sigMap).2 =
        (Rose.updateAll (submitNode crypto sigMap) t.root.labels).2 := congrArg Prod.snd heq
    rw [hresult, Rose.updateAll_eq_ok]
    refine forall₂_congr fun n _ => ?_
    rw [submitNode_eq h, ← Option.isSome_iff_ne_none]
    cases (supplied crypto signing signatures n).isSome <;> simp

omit h in
/-- Storing signatures changes nothing else, so the same outputs are fetched. -/
theorem fetchPrevOutput_eq {t' : SignedTree σ} (hbatch : t'.batchOutput = t.batchOutput)
    (hdata : t'.root.labels.map (·.data) = t.root.labels.map (·.data)) :
    t'.fetchPrevOutput crypto = t.fetchPrevOutput crypto := by
  have hlabels : ∀ root : Rose ℕ (SignedData σ), ∃ rest,
      root.labels.map (·.data) = root.label.data :: rest := by
    intro root
    cases root
    exact ⟨_, by rw [Rose.labels_node, map_cons]; rfl⟩
  obtain ⟨rest, hrest⟩ := hlabels t.root
  obtain ⟨rest', hrest'⟩ := hlabels t'.root
  have hroot : t'.root.label.data = t.root.label.data := by
    rw [hrest, hrest'] at hdata
    exact (cons.inj hdata).1
  have houtputs := congrArg (flatMap fun d : NodeData => d.outputs.zipIdx.map fun p =>
    ((⟨d.txid crypto, p.2⟩ : OutPoint), some p.1)) hdata
  rw [flatMap_map, flatMap_map] at houtputs
  funext outpoint
  rw [SignedTree.fetchPrevOutput, SignedTree.prevOutputs, hroot, hbatch, houtputs]
  rfl

theorem map_data_stored :
    (t.submitTreeSigs crypto sigMap).1.root.labels.map (·.data) = t.root.labels.map (·.data) := by
  have hsplit := congrArg (map SignedData.data) (takeWhile_append_dropWhile
    (p := fun n => (supplied crypto signing signatures n).isSome) (l := t.root.labels))
  rw [(submitTreeSigs_spec h).1, ← hsplit, map_append, map_append, map_map]
  rfl

/-- The signatures are as before exactly when those that were stored had been there. -/
theorem map_signature_stored :
    (t.submitTreeSigs crypto sigMap).1.root.labels.map (·.signature) =
      t.root.labels.map (·.signature) ↔ Unmoved crypto signing signatures t := by
  have hsplit := congrArg (map SignedData.signature) (takeWhile_append_dropWhile
    (p := fun n => (supplied crypto signing signatures n).isSome) (l := t.root.labels))
  rw [(submitTreeSigs_spec h).1, ← hsplit, map_append, map_append,
    append_cancel_right_eq, map_map, map_inj_left]
  rfl

omit h in
theorem verifySignedNode_store :
    verifySignedNode crypto signing fetch (store crypto signing signatures n) = .ok u ↔
      Verifies crypto signing signatures fetch n := by
  unfold verifySignedNode verifyNodeSignature Verifies store
  cases supplied crypto signing signatures n with
  | none => simp
  | some sig =>
    cases n.data.finalKey with
    | none => simp
    | some finalKey =>
      cases fetch n.data.input with
      | none | some prevOut => simp

omit h in
theorem verifySignedNode_panics :
    verifySignedNode crypto signing fetch (store crypto signing signatures n) = .error .panic ↔
      supplied crypto signing signatures n ≠ none ∧ n.data.finalKey ≠ none ∧
        fetch n.data.input = none := by
  unfold verifySignedNode verifyNodeSignature store
  cases supplied crypto signing signatures n with
  | none => simp
  | some sig =>
    cases n.data.finalKey with
    | none => simp
    | some finalKey =>
      cases fetch n.data.input with
      | none => simp
      | some prevOut =>
        unfold require
        dsimp only
        split <;> simp

/-- Where every node gets a signature, all of them are stored and then verified. -/
theorem verifySigned_stored
    (hall : ∀ n ∈ t.root.labels, supplied crypto signing signatures n ≠ none) :
    (t.submitTreeSigs crypto sigMap).1.root.labels =
        t.root.labels.map (store crypto signing signatures) ∧
      (t.submitTreeSigs crypto sigMap).1.verifySigned crypto signing =
        forM t.root.labels fun n => verifySignedNode crypto signing (t.fetchPrevOutput crypto)
          (store crypto signing signatures n) := by
  have hlabels : (t.submitTreeSigs crypto sigMap).1.root.labels =
      t.root.labels.map (store crypto signing signatures) := by
    have hsome : ∀ n ∈ t.root.labels, (supplied crypto signing signatures n).isSome = true :=
      fun n hn => Option.isSome_iff_ne_none.2 (hall n hn)
    rw [(submitTreeSigs_spec h).1, takeWhile_eq_self_iff.2 hsome,
      dropWhile_eq_nil_iff.2 hsome, append_nil]
  have hbatch : (t.submitTreeSigs crypto sigMap).1.batchOutput = t.batchOutput := rfl
  refine ⟨hlabels, ?_⟩
  rw [SignedTree.verifySigned, fetchPrevOutput_eq hbatch (map_data_stored h), hlabels, forM_map]

theorem not_allOrNothing (hcall : t.validateAndSubmitSignatures crypto signing signatures =
      ((t.submitTreeSigs crypto sigMap).1, .error (.error err))) :
    AllOrNothing crypto signing signatures t ↔ Unmoved crypto signing signatures t := by
  rw [← map_signature_stored h]
  constructor
  · intro hall
    have hnothing := hall.nothing err (by rw [hcall])
    rwa [hcall] at hnothing
  intro hsame
  constructor
  · intro err' _
    rw [hcall]
    exact hsame
  · intro hok
    rw [hcall] at hok
    cases hok

end

/-- The call is all or nothing exactly when nothing is stored, when the signatures are all valid, or
when those that are stored before a failure have been there before. -/
theorem validateAndSubmitSignatures_atomic_iff {σ : Type} (crypto : Crypto) (signing : Signing σ)
    (signatures : List (ℕ × List UInt8)) (t : SignedTree σ) :
    AllOrNothing crypto signing signatures t ↔
      signatures = [] ∨ (∃ p ∈ signatures, signing.parseSignature p.2 = none) ∨
        Unmoved crypto signing signatures t ∨
        (∀ n ∈ t.root.labels, Verifies crypto signing signatures (t.fetchPrevOutput crypto) n) ∨
        Panics crypto signing signatures t := by
  by_cases hempty : signatures = []
  · subst hempty
    exact ⟨fun _ => .inl rfl, fun _ => ⟨fun _ _ => rfl, by rintro ⟨⟩⟩⟩
  obtain ⟨err, hparse, hnone⟩ | ⟨sigMap, hparse, hparsed, hlookup⟩ :=
    parseSignatures_cases signing signatures
  · have hcall : t.validateAndSubmitSignatures crypto signing signatures =
        (t, .error (.error err)) := by
      rw [SignedTree.validateAndSubmitSignatures, if_neg hempty, hparse]
    refine ⟨fun _ => .inr (.inl hnone), fun _ => ?_⟩
    constructor <;> simp [hcall]
  · have hstored : ∀ u, (t.submitTreeSigs crypto sigMap).2 = .ok u ↔ _ :=
      (submitTreeSigs_spec hlookup).2
    have hcall : t.validateAndSubmitSignatures crypto signing signatures =
        match t.submitTreeSigs crypto sigMap with
        | (t', .error err) => (t', .error (.error err))
        | (t', .ok _) => (t', t'.verifySigned crypto signing) := by
      rw [SignedTree.validateAndSubmitSignatures, if_neg hempty, hparse]
    -- In what follows nothing failed before signatures were stored.
    have hrest : ∀ {a b c : Prop}, (signatures = [] ∨
        (∃ p ∈ signatures, signing.parseSignature p.2 = none) ∨ a ∨ b ∨ c) ↔ a ∨ b ∨ c := by
      intro a b c
      rw [or_iff_right hempty, or_iff_right]
      rintro ⟨p, hp, hnone⟩
      exact hparsed p hp hnone
    rw [hrest]
    cases hsubmit : t.submitTreeSigs crypto sigMap with
    | mk t' result =>
      rw [hsubmit] at hcall hstored
      cases result with
      | error err =>
        -- A node gets no signature.
        have hmissing : ¬ ∀ n ∈ t.root.labels, supplied crypto signing signatures n ≠ none := by
          intro hall
          cases (hstored ()).2 hall
        rw [not_allOrNothing hlookup (by rw [hcall, hsubmit])]
        refine (or_iff_left ?_).symm
        rintro (hverifies | hpanics)
        · refine hmissing fun n hn => ?_
          obtain ⟨sig, -, -, hsig, -⟩ := hverifies n hn
          rw [hsig]
          exact Option.some_ne_none sig
        · exact hmissing hpanics.1
      | ok u =>
        have hall := (hstored u).1 rfl
        obtain ⟨hlabels, hverify⟩ := verifySigned_stored hlookup hall
        rw [hsubmit] at hlabels hverify
        cases hresult : t'.verifySigned crypto signing with
        | ok u =>
          have hverifies : ∀ n ∈ t.root.labels,
              Verifies crypto signing signatures (t.fetchPrevOutput crypto) n := fun n hn =>
            verifySignedNode_store.1 (forM_eq_ok.1 (hverify.symm.trans hresult) n hn)
          refine ⟨fun _ => .inr (.inl hverifies), fun _ => ?_⟩
          constructor
          · simp [hcall, hresult]
          · exact fun _ => ⟨by rw [hcall]; exact hlabels, hverifies⟩
        | error stop =>
          obtain ⟨before, n, after, hsplit, hbefore, hn⟩ :=
            forM_eq_error.1 (hverify.symm.trans hresult)
          have hnot : ¬ ∀ m ∈ t.root.labels,
              Verifies crypto signing signatures (t.fetchPrevOutput crypto) m := by
            intro hverifies
            have hok := verifySignedNode_store (u := ()).2
              (hverifies n (by rw [hsplit]; exact mem_append_right _ mem_cons_self))
            cases hn.symm.trans hok
          cases stop with
          | panic =>
            have hpanics : Panics crypto signing signatures t :=
              ⟨hall, before, n, after, hsplit,
                fun m hm => verifySignedNode_store.1 (hbefore m hm),
                (verifySignedNode_panics.1 hn).2⟩
            refine ⟨fun _ => .inr (.inr hpanics), fun _ => ?_⟩
            constructor <;> simp [hcall, hresult]
          | error err =>
            have hfailed : t.validateAndSubmitSignatures crypto signing signatures =
                ((t.submitTreeSigs crypto sigMap).1, .error (.error err)) := by
              rw [hcall, hsubmit]
              exact congrArg (Prod.mk t') hresult
            rw [not_allOrNothing hlookup hfailed]
            refine (or_iff_left ?_).symm
            rintro (hverifies | ⟨-, before', m, after', hsplit', hbefore', hm⟩)
            · exact hnot hverifies
            have hpanic := forM_eq_error.2 ⟨before', m, after', hsplit',
              fun k hk => verifySignedNode_store.2 (hbefore' k hk),
              verifySignedNode_panics.2 ⟨hall m (by rw [hsplit']; simp), hm⟩⟩
            cases (hverify.symm.trans hresult).symm.trans hpanic

/-- Signatures are single bytes, and 1 is the one that verifies. -/
def Signing.byte : Signing UInt8 where
  parseSignature bytes := bytes.head?
  sigHash _ _ := []
  verify sig _ _ := sig = 1

/-- The signature is not valid, but it replaces the one that was. -/
theorem validateAndSubmitSignatures_keeps_invalid :
    ∃ t : SignedTree UInt8,
      (t.validateAndSubmitSignatures .sum .byte [(0, [2])]).2 = .error (.error (.invalid 0)) ∧
      t.root.labels.map (·.signature) = [some 1] ∧
      (t.validateAndSubmitSignatures .sum .byte [(0, [2])]).1.root.labels.map
        (·.signature) = [some 2] :=
  ⟨⟨.node ⟨⟨⟨7, 0⟩, [], [], 0, some ⟨.lastByte 31 1, false⟩⟩, some 1⟩ [], some ⟨0, []⟩⟩,
    rfl, rfl, rfl⟩

end Wavelength.Vtxotree
