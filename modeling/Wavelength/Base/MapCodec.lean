import Wavelength.Base.Hash
import Wavelength.Base.KeyMap

/-! # Encoded maps

A map with keys of a fixed length is written as the number of its entries, four bytes, followed by
the entries in key order. A value takes a fixed number of bytes. What is read back is refused if its
length is not that of the announced entries or a key comes twice.
-/

namespace Wavelength

open List

def fromBe32 : List UInt8 → UInt32
  | a :: b :: c :: d :: _ => .ofNat (a.toNat * 16777216 + b.toNat * 65536 + c.toNat * 256 + d.toNat)
  | _ => 0

theorem length_be32 (x : UInt32) : (be32 x).length = 4 := rfl

@[simp] theorem fromBe32_be32 (x : UInt32) (rest : List UInt8) : fromBe32 (be32 x ++ rest) = x := by
  rw [← UInt32.toNat_inj]
  have hx := x.toNat_lt
  simp only [be32, cons_append, fromBe32, UInt32.toNat_ofNat', UInt32.toNat_toUInt8,
    UInt32.toNat_shiftRight, UInt32.reduceToNat, Nat.shiftRight_eq_div_pow, Nat.reduceMod,
    Nat.reducePow]
  omega

/-- The first bytes of a slice; what is missing is zero. -/
def Bytes.copy (n : ℕ) (bs : List UInt8) : Bytes n :=
  ⟨bs.take n ++ List.replicate (n - bs.length) 0, by
    rw [List.length_append, List.length_take, List.length_replicate]
    omega⟩

theorem Bytes.copy_data (a : Bytes n) : Bytes.copy n a.data = a := by
  apply Bytes.ext
  change a.data.take n ++ replicate (n - a.data.length) 0 = a.data
  rw [a.length, Nat.sub_self, replicate_zero, append_nil]
  exact take_of_length_le (Nat.le_of_eq a.length)

namespace MapCodec

inductive DecodeError (κ : Type) where
  | truncated
  | lengthMismatch
  | duplicateKey (key : κ)
  deriving DecidableEq

variable {n : ℕ} {ν ε : Type}

def encodeEntries (put : ν → Except ε (List UInt8)) : List (Bytes n × ν) → Except ε (List UInt8)
  | [] => .ok []
  | e :: es => do
    let bs ← put e.2
    let rest ← encodeEntries put es
    pure (e.1.data ++ bs ++ rest)

def encode (put : ν → Except ε (List UInt8)) (m : KeyMap (Bytes n) ν) : Except ε (List UInt8) := do
  let rest ← encodeEntries put m.entries
  pure (be32 (.ofNat m.entries.length) ++ rest)

/-- Read `count` entries whose values take `width` bytes. -/
def decodeEntries (width : ℕ) (get : List UInt8 → ν) :
    ℕ → List UInt8 → KeyMap (Bytes n) ν → Except (DecodeError (Bytes n)) (KeyMap (Bytes n) ν)
  | 0, _, out => .ok out
  | count + 1, raw, out =>
    let key := Bytes.copy n (raw.take n)
    if key ∈ out.keys then .error (.duplicateKey key)
    else decodeEntries width get count (raw.drop (n + width)) (out.insert key (get (raw.drop n)))

def decode (width : ℕ) (get : List UInt8 → ν) (raw : List UInt8) :
    Except (DecodeError (Bytes n)) (KeyMap (Bytes n) ν) :=
  if raw.length < 4 then .error .truncated
  else
    let count := (fromBe32 (raw.take 4)).toNat
    if (raw.drop 4).length ≠ count * (n + width) then .error .lengthMismatch
    else decodeEntries width get count (raw.drop 4) .empty

section

variable {put : ν → Except ε (List UInt8)} {get : List UInt8 → ν} {width : ℕ}

/-- A value is written in `width` bytes and read back whatever follows it. -/
def Fits (put : ν → Except ε (List UInt8)) (get : List UInt8 → ν) (width : ℕ) (v : ν) : Prop :=
  ∃ bs, put v = .ok bs ∧ bs.length = width ∧ ∀ rest, get (bs ++ rest) = v

theorem encodeEntries_ok {es : List (Bytes n × ν)} (h : ∀ e ∈ es, Fits put get width e.2) :
    ∃ raw, encodeEntries put es = .ok raw ∧ raw.length = es.length * (n + width) := by
  induction es with
  | nil => exact ⟨[], rfl, by simp⟩
  | cons e es ih =>
    obtain ⟨bs, hput, hbs, -⟩ := h e mem_cons_self
    obtain ⟨raw, henc, hraw⟩ := ih fun e he => h e (mem_cons_of_mem _ he)
    refine ⟨e.1.data ++ bs ++ raw, ?_, ?_⟩
    · rw [encodeEntries, hput, henc]
      rfl
    · rw [length_append, length_append, e.1.length, hbs, hraw, length_cons,
        Nat.succ_mul, Nat.add_comm]

theorem decodeEntries_encodeEntries {es : List (Bytes n × ν)} (h : ∀ e ∈ es, Fits put get width e.2)
    (hs : (o.entries ++ es).Pairwise (·.1 < ·.1)) {raw : List UInt8}
    (hraw : encodeEntries put es = .ok raw) :
    ∃ m, decodeEntries width get es.length raw o = .ok m ∧ m.entries = o.entries ++ es := by
  induction es generalizing o raw with
  | nil => exact ⟨o, rfl, (append_nil _).symm⟩
  | cons e es ih =>
    obtain ⟨bs, hput, hbs, hget⟩ := h e mem_cons_self
    have h' : ∀ e ∈ es, Fits put get width e.2 := fun e he => h e (mem_cons_of_mem _ he)
    obtain ⟨rest, henc, -⟩ := encodeEntries_ok h'
    rw [encodeEntries, hput, henc] at hraw
    cases hraw
    have htake : (e.1.data ++ bs ++ rest).take n = e.1.data := by
      rw [append_assoc]
      exact take_left' e.1.length
    have hdrop : (e.1.data ++ bs ++ rest).drop n = bs ++ rest := by
      rw [append_assoc]
      exact drop_left' e.1.length
    have hdrop' : (e.1.data ++ bs ++ rest).drop (n + width) = rest :=
      drop_left' (by rw [length_append, e.1.length, hbs])
    have hlt : ∀ k ∈ o.keys, k < e.1 := by
      intro k hk
      obtain ⟨a, ha, rfl⟩ := mem_map.1 hk
      exact (pairwise_append.1 hs).2.2 a ha e mem_cons_self
    have hins : (o.insert e.1 e.2).entries = o.entries ++ [e] := KeyMap.entries_insert_of_lt hlt
    rw [length_cons, decodeEntries, htake, Bytes.copy_data, if_neg fun hk => lt_irrefl _ (hlt _ hk), hdrop, hget, hdrop']
    obtain ⟨m, hm, hentries⟩ := ih h' (o := o.insert e.1 e.2)
      (by rwa [hins, append_assoc, singleton_append]) henc
    exact ⟨m, hm, by rw [hentries, hins, append_assoc, singleton_append]⟩

theorem decode_encode {m : KeyMap (Bytes n) ν} (h : ∀ e ∈ m.entries, Fits put get width e.2)
    (hlen : m.entries.length < 4294967296) :
    ∃ raw, encode put m = .ok raw ∧ decode width get raw = .ok m := by
  obtain ⟨rest, henc, hrest⟩ := encodeEntries_ok h
  refine ⟨be32 (.ofNat m.entries.length) ++ rest, ?_, ?_⟩
  · rw [encode, henc]
    rfl
  have htake : (be32 (.ofNat m.entries.length) ++ rest).take 4 = be32 (.ofNat m.entries.length) :=
    take_left' (length_be32 _)
  have hdrop : (be32 (.ofNat m.entries.length) ++ rest).drop 4 = rest := drop_left' (length_be32 _)
  have hcount : (fromBe32 (be32 (.ofNat m.entries.length))).toNat = m.entries.length := by
    have hword := fromBe32_be32 (.ofNat m.entries.length) []
    rw [append_nil] at hword
    rw [hword, UInt32.toNat_ofNat', Nat.mod_eq_of_lt hlen]
  unfold decode
  dsimp only
  rw [htake, hdrop, hcount, if_neg, if_neg (not_not.2 hrest)]
  · obtain ⟨m', hm', hentries⟩ := decodeEntries_encodeEntries (o := .empty) h m.sorted henc
    rw [hm', KeyMap.ext (hentries.trans (nil_append _))]
  · rw [length_append, length_be32]
    omega

end

end MapCodec

end Wavelength
