-- SUMMARY: `DJBHash` call after call against one call on everything: where the two agree, and what this means for `FeatHash`.
import Edk2NonOsi.Checksum.Horner
import Edk2NonOsi.MemConfig.FeatHash

namespace MemConfig

/-- The DJB2 polynomial of a byte string, as a number of any size. -/
def djb2 (data : Bytes) : Nat :=
  5381 * 33 ^ data.length + Horner.weighted 33 (data.map UInt8.toNat)

/-- The weight of the boundaries at which a sequence of calls starts anew: 33 to the number
    of bytes behind each. `segment` is what has been hashed since the last start. -/
def restartWeight : Bytes → List Bytes → Nat
  | _, [] => 0
  | segment, block :: blocks =>
    if 2 ^ 32 ∣ djb2 segment then
      33 ^ (block :: blocks).flatten.length + restartWeight block blocks
    else restartWeight (segment ++ block) blocks

/-- The words that `DJBHash` adds for a byte string. -/
def widened (data : Bytes) : List UInt32 :=
  data.map UInt8.toUInt32

theorem flatten_map_widened (blocks : List Bytes) :
    (blocks.map widened).flatten = widened blocks.flatten :=
  List.map_flatten.symm

theorem djb_append {hash : UInt32} {a : Bytes} (h : djb hash a ≠ 0) (b : Bytes) :
    djb hash (a ++ b) = djb (djb hash a) b := by
  rw [djb, List.foldl_append, djb, if_neg h]
  rfl

section

open scoped UInt32.CommRing

/-! ## `DJBHash` as Horner evaluation -/

theorem natCast_eq_zero_iff (n : Nat) : (n : UInt32) = 0 ↔ 2 ^ 32 ∣ n := by
  rw [← UInt32.toNat_inj]
  exact (Nat.dvd_iff_mod_eq_zero ..).symm

/-- A shift by 5 and an addition multiply by 33. -/
theorem shiftLeft_add_self (hash : UInt32) : (hash <<< 5) + hash = hash * 33 := by
  rw [← UInt32.toNat_inj]
  have hshift : (hash <<< 5).toNat = hash.toNat * 32 % 2 ^ 32 := by
    rw [UInt32.toNat_shiftLeft, Nat.shiftLeft_eq]
    rfl
  rw [UInt32.toNat_add, UInt32.toNat_mul, hshift]
  have h33 : (33 : UInt32).toNat = 33 := rfl
  rw [h33]
  omega

theorem djb_eq_eval (hash : UInt32) (data : Bytes) :
    djb hash data = Horner.eval 33 (Horner.start 5381 hash) (widened data) := by
  rw [djb, Horner.eval, widened, List.foldl_map, Horner.start]
  simp only [shiftLeft_add_self]

theorem djb_zero_eq_djb2 (data : Bytes) : djb 0 data = (djb2 data : UInt32) := by
  have hwords : widened data = (data.map UInt8.toNat).map (Nat.castRingHom UInt32) := by
    rw [widened, List.map_map]
    apply List.map_congr_left
    intro b _
    rw [← UInt32.toNat_inj, UInt8.toNat_toUInt32]
    exact (Nat.mod_eq_of_lt (by have := b.toNat_lt; omega)).symm
  have hweighted := Horner.map_weighted (Nat.castRingHom UInt32) 33 (data.map UInt8.toNat)
  rw [djb_eq_eval, Horner.eval_eq, hwords, djb2, Nat.cast_add, Nat.cast_mul, Nat.cast_pow]
  rw [List.length_map, List.length_map]
  exact congrArg _ hweighted.symm

theorem djb_zero_eq_zero_iff (data : Bytes) : djb 0 data = 0 ↔ 2 ^ 32 ∣ djb2 data := by
  rw [djb_zero_eq_djb2, natCast_eq_zero_iff]

theorem foldl_djb_eq (hash : UInt32) (blocks : List Bytes) :
    blocks.foldl djb hash = Horner.evalBlocks 33 5381 hash (blocks.map widened) := by
  rw [Horner.evalBlocks, List.foldl_map]
  congr 1
  funext hash block
  exact djb_eq_eval hash block

/-- The bytes alone tell which calls start anew. -/
theorem restarts_eq (segment : Bytes) (blocks : List Bytes) :
    Horner.restarts 33 5381 (djb 0 segment) (blocks.map widened) =
      (restartWeight segment blocks : UInt32) := by
  induction blocks generalizing segment with
  | nil => rfl
  | cons block blocks ih =>
    have hlen : (List.map widened (block :: blocks)).flatten.length =
        (block :: blocks).flatten.length := by
      rw [flatten_map_widened, widened, List.length_map]
    rw [List.map_cons, Horner.restarts, ← List.map_cons, hlen, ← djb_eq_eval, restartWeight]
    by_cases h : 2 ^ 32 ∣ djb2 segment
    · have hzero := (djb_zero_eq_zero_iff segment).mpr h
      rw [if_pos h, if_pos hzero, hzero, ih block, Nat.cast_add, Nat.cast_pow]
      rfl
    · have hne := mt (djb_zero_eq_zero_iff segment).mp h
      rw [if_neg h, if_neg hne, ← djb_append hne, ih (segment ++ block), zero_add]

/-- Call after call is one call exactly when the restarts cancel out. -/
theorem foldl_djb_eq_iff (block : Bytes) (blocks : List Bytes) :
    (block :: blocks).foldl djb 0 = djb 0 (block :: blocks).flatten ↔
      2 ^ 32 ∣ restartWeight block blocks := by
  have hcop : Nat.Coprime (2 ^ 32) 5381 := by decide +kernel
  have hone : djb 0 (block :: blocks).flatten =
      Horner.eval 33 (djb 0 block) (blocks.map widened).flatten := by
    rw [djb_eq_eval, djb_eq_eval, ← Horner.eval_append, flatten_map_widened, List.flatten_cons,
      widened, List.map_append]
    rfl
  rw [List.foldl_cons, foldl_djb_eq, Horner.evalBlocks_eq, ← hone, restarts_eq, add_eq_left,
    ← hcop.dvd_mul_left, ← natCast_eq_zero_iff, Nat.cast_mul]
  rfl

end

/-! ## Calls on memory -/

theorem djbHash_self (data : Bytes) (hash : UInt32) :
    djbHash data 0 data.length hash = .ok (djb hash data) := by
  have hle : 0 + data.length ≤ data.length := by omega
  rw [djbHash, C.load_of_le hle, Span.read_all]
  rfl

/-- Two calls are one on the concatenation unless the first one ends in zero. -/
theorem djb_djb_eq_iff (a b : Bytes) :
    djb (djb 0 a) b = djb 0 (a ++ b) ↔ ¬ 2 ^ 32 ∣ djb2 a := by
  have hcop : Nat.Coprime (2 ^ 32) (33 ^ b.length) := Nat.Coprime.pow _ _ (by decide)
  have hone : ¬ 2 ^ 32 ∣ 33 ^ b.length := by
    intro hdvd
    exact absurd (hcop.eq_one_of_dvd hdvd) (by decide)
  have hiff := foldl_djb_eq_iff a [b]
  rw [List.flatten_cons, List.flatten_singleton] at hiff
  rw [restartWeight, List.flatten_singleton, restartWeight, restartWeight, Nat.add_zero] at hiff
  refine hiff.trans ?_
  by_cases h : 2 ^ 32 ∣ djb2 a
  · rw [if_pos h]
    exact iff_of_false hone (not_not_intro h)
  · rw [if_neg h]
    exact iff_of_true (dvd_zero _) h

theorem hashBlocks_eq_iff {blocks rest : List Bytes} {block : Bytes}
    (h : blocks.map (Packing.padded 16 0) = block :: rest) :
    hashBlocks blocks = djb 0 (block :: rest).flatten ↔ 2 ^ 32 ∣ restartWeight block rest := by
  have hcalls : hashBlocks blocks = (block :: rest).foldl djb 0 := by
    rw [← h, List.foldl_map]
    rfl
  rw [hcalls, foldl_djb_eq_iff]

/-! ## Calls one after another -/

/-- **Hashing in parts.** Two calls of `DJBHash`, from a zero hash, give the hash of the
    concatenation unless the polynomial of the first part is a multiple of `2^32`. The
    `FeatHash` of a written image is the hash of its padded feature blocks, put together,
    exactly when the weights of the restarts between them add up to a multiple of `2^32`. -/
theorem djbHash_parts_iff (a b : Bytes) :
    ((do
      let hash ← djbHash a 0 a.length 0
      djbHash b 0 b.length hash) = djbHash (a ++ b) 0 (a ++ b).length 0 ↔ ¬ 2 ^ 32 ∣ djb2 a) ∧
      ∀ (Ptr : Type) [DecidableEq Ptr] (quick : MemQuickConfig) (heap : Ptr → Bytes)
        (entries : List (CdcbBlockEntry Ptr)), Packable heap entries →
        ∃ img header found written, main quick heap entries = .ok (.written img) ∧
          readHeader img = .ok header ∧ readBlocks img header = .ok found ∧
          readQuick img = .ok written ∧
          foundFeatures found = (features heap entries).map sealed ∧
          ∀ block blocks, (foundFeatures found).map (Packing.padded 16 0) = block :: blocks →
            (written.featHash = djb 0 (block :: blocks).flatten ↔
              2 ^ 32 ∣ restartWeight block blocks) := by
  refine ⟨?_, ?_⟩
  · rw [djbHash_self, C.ok_bind, djbHash_self, djbHash_self, Except.ok.injEq]
    exact djb_djb_eq_iff a b
  · intro Ptr _ quick heap entries h
    refine ⟨_, _, _, _, main_eq h.fits quick, readHeader_image h.readable quick,
      h.fits.readBlocks_image quick h.headered, readQuick_image h.readable quick,
      foundFeatures_foundBlocks heap entries, ?_⟩
    intro block blocks hblocks
    rw [h.featHash_writtenQuick, ← foundFeatures_foundBlocks]
    exact hashBlocks_eq_iff hblocks

theorem djbHash_parts_iff_sample :
    (do
      let hash ← djbHash [1] 0 1 0
      djbHash [2] 0 1 hash) = djbHash [1, 2] 0 2 0 ∧
      ∃ img written,
        main (MemQuickConfig.layout.filled 0) sampleBlocks sampleFeatures = .ok (.written img) ∧
          readQuick img = .ok written ∧
          written.featHash =
            djb 0 (Packing.pack 16 0 [sealed (sampleBlocks true), sealed (sampleBlocks true)]) := by
  refine ⟨((djbHash_parts_iff [1] [2]).1).mpr (by decide +kernel), ?_⟩
  obtain ⟨img, -, found, written, hmain, -, -, hquick, hfound, hhash⟩ :=
    (djbHash_parts_iff [1] [2]).2 Bool (MemQuickConfig.layout.filled 0) sampleBlocks
      sampleFeatures packable_sampleFeatures
  let block := Packing.padded 16 0 (sealed (sampleBlocks true))
  have hblocks : (foundFeatures found).map (Packing.padded 16 0) = [block, block] := by
    rw [hfound]
    rfl
  exact ⟨img, written, hmain, hquick, (hhash block [block] hblocks).mpr (by decide +kernel)⟩

/-- Six bytes whose hash is zero. -/
theorem djbHash_restarts_at_zero :
    (do
      let hash ← djbHash [106, 12, 9, 4, 16, 8] 0 6 0
      djbHash [0] 0 1 hash) ≠ djbHash [106, 12, 9, 4, 16, 8, 0] 0 7 0 := by
  decide +kernel

end MemConfig
