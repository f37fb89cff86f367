import Wavelength.Base.Framing

/-! # Framing validation

Three packages walk the records of an untrusted blob before they decode it. The walks differ in
the texts of their errors only.
-/

namespace Wavelength.Recovery

open VarInt List

/-- Where a walk stops. -/
inductive Fault where
  | type
  | length
  | exceeds (length : UInt64) (remaining : ℕ)
  | skip

/-- The loop of the walks, with the text of each error; `none` if the fuel runs out. -/
def walkRecords (v : VarInt) (text : Fault → String) (fuel : ℕ) (br : Reader) :
    Option (Except String Unit) :=
  if br.len = 0 then some (.ok ())
  else match fuel with
  | 0 => none
  | fuel + 1 =>
    match br.readVarInt v with
    | none => some (.error (text .type))
    | some (_, br) =>
      match br.readVarInt v with
      | none => some (.error (text .length))
      | some (length, br) =>
        if UInt64.ofNat br.len < length then some (.error (text (.exceeds length br.len)))
        else
          match br.seekCurrent length.toInt64 with
          | none => some (.error (text .skip))
          | some br => walkRecords v text fuel br

def walkBuffer (v : VarInt) (text : Fault → String) (buf : Buffer) : Option (Except String Unit) :=
  walkRecords v text buf.1.length ⟨buf, 0⟩

def validateTLVRecordLengths (v : VarInt) : Buffer → Option (Except String Unit) :=
  walkBuffer v fun
    | .type => "invalid tlv payload: read tlv type"
    | .length => "invalid tlv payload: read tlv length"
    | .exceeds length remaining =>
      s!"invalid tlv payload: tlv record length {length} exceeds {remaining} remaining bytes"
    | .skip => "invalid tlv payload: skip tlv value"

def validateTLVFraming (v : VarInt) : Buffer → Option (Except String Unit) :=
  walkBuffer v fun
    | .exceeds length remaining =>
      s!"tlv record length exceeds input: declared {length}, {remaining} remaining"
    | _ => "malformed tlv framing"

def validateTreeRecordLengths (v : VarInt) : Buffer → Option (Except String Unit) :=
  walkBuffer v fun
    | .type => "read tlv type"
    | .length => "read tlv length"
    | .exceeds length remaining =>
      s!"tlv record length {length} exceeds {remaining} remaining bytes"
    | .skip => "skip tlv value"

variable {v : VarInt} {text : Fault → String}

/-- What a walk over `bs` has to return: it comes to its end, without an error where `bs` is a
concatenation of records. -/
def Decides (v : VarInt) (bs : List UInt8) (result : Option (Except String Unit)) : Prop :=
  (result = some (.ok ()) ∧ v.Framed bs) ∨ ∃ e, result = some (.error e) ∧ ¬ v.Framed bs

theorem walkRecords_decides (br : Reader) (hfuel : br.len ≤ fuel) :
    Decides v br.rest (walkRecords v text fuel br) := by
  -- Each turn reads a type, so what is left gets shorter.
  induction fuel generalizing br with
  | zero =>
    have hempty : br.rest = [] := length_eq_zero_iff.1 (by rw [Reader.length_rest]; omega)
    rw [walkRecords, if_pos (by omega), hempty]
    exact .inl ⟨rfl, framed_nil⟩
  | succ fuel ih =>
    by_cases hlen : br.len = 0
    · rw [walkRecords, if_pos hlen, length_eq_zero_iff.1 (br.length_rest.trans hlen)]
      exact .inl ⟨rfl, framed_nil⟩
    have hne : br.rest ≠ [] := by
      intro hempty
      rw [← Reader.length_rest, hempty] at hlen
      exact hlen rfl
    rw [walkRecords, if_neg hlen]
    cases ht : v.read br.rest with
    | none =>
      rw [Reader.readVarInt_eq_none ht]
      refine .inr ⟨_, rfl, fun h => ?_⟩
      obtain ⟨t, n, bs₁, bs₂, ht', -⟩ := h.uncons hne
      cases ht.symm.trans ht'
    | some read =>
      obtain ⟨t, bs₁⟩ := read
      obtain ⟨br₁, hbr₁, rfl, -⟩ := Reader.readVarInt_eq_some ht
      simp only [hbr₁]
      cases hn : v.read br₁.rest with
      | none =>
        rw [Reader.readVarInt_eq_none hn]
        refine .inr ⟨_, rfl, fun h => ?_⟩
        obtain ⟨t', n, bs₁, bs₂, ht', hn', -⟩ := h.uncons hne
        rw [ht] at ht'
        cases ht'
        cases hn.symm.trans hn'
      | some read =>
        obtain ⟨n, bs₂⟩ := read
        obtain ⟨br₂, hbr₂, rfl, hi⟩ := Reader.readVarInt_eq_some hn
        have hframed := framed_iff_of_read ht hn
        have hshort := length_lt_of_read ht
        have hshort' := length_lt_of_read hn
        rw [Reader.length_rest] at hframed
        rw [Reader.length_rest, Reader.length_rest] at hshort hshort'
        have hcmp : UInt64.ofNat br₂.len < n ↔ br₂.len < n.toNat := by
          have := br₂.s.2
          rw [UInt64.lt_iff_toNat_lt, UInt64.toNat_ofNat', Nat.mod_eq_of_lt]
          unfold Reader.len
          omega
        simp only [hbr₂, hcmp]
        split_ifs with hexceeds
        · exact .inr ⟨_, rfl, fun h => absurd (hframed.1 h).1 (Nat.not_le.2 hexceeds)⟩
        · obtain ⟨br₃, hbr₃, hrest⟩ := Reader.seekCurrent_eq_some hi (Nat.not_lt.1 hexceeds)
          simp only [hbr₃]
          have hlen₃ : br₃.len ≤ fuel := by
            rw [← Reader.length_rest, hrest, length_drop, Reader.length_rest]
            omega
          rw [Decides, hframed, ← hrest]
          simpa only [Decides, Nat.not_lt.1 hexceeds, true_and] using ih br₃ hlen₃

theorem walkBuffer_decides (buf : Buffer) : Decides v buf.1 (walkBuffer v text buf) :=
  walkRecords_decides ⟨buf, 0⟩ (Nat.sub_le _ _)

end Wavelength.Recovery
