-- SUMMARY: `double_check_sum` of the PM and TrustZone configuration tools: the loop computes the double running sum, and which damage it detects.
import Edk2NonOsi.C.Memory
import Edk2NonOsi.Checksum.RunningSum
import Mathlib.Data.UInt

/-! # The double checksum

`csupm_bin_config.c` and `trustzone_bin_config.c` hold the same
`double_check_sum`: two 32-bit running sums over the words of a block. In
compute mode the pair is packed into `*sum64`, in check mode it is compared
with the pair packed there. -/

namespace PackageTool

/-- The loop `for (i = 0; i * 4 < length; i++) { cka += ptr[i]; ckb += cka; }`,
    with `i` and `i * 4` in `uint32_t`. -/
def checkSumLoop (ptr : List UInt32) (length : UInt32) :
    Nat → UInt32 → UInt32 × UInt32 → Except C.Fault (UInt32 × UInt32)
  | 0, _, _ => .error .outOfFuel
  | fuel + 1, i, (cka, ckb) =>
    if i * 4 < length then
      match ptr[i.toNat]? with
      | none => .error .outOfBounds
      | some w => checkSumLoop ptr length fuel (i + 1) (cka + w, ckb + (cka + w))
    else .ok (cka, ckb)

/-- `((uint64_t)cka << 32) + (uint64_t)ckb`. -/
def packSums (cka ckb : UInt32) : UInt64 :=
  (cka.toUInt64 <<< 32) + ckb.toUInt64

/-- `double_check_sum (ptr, length, sum64, do_check)`: the returned flag and the
    value of `*sum64` afterwards. -/
def doubleCheckSum (ptr : List UInt32) (length : UInt32) (sum64 : Option UInt64) (doCheck : Bool) :
    Except C.Fault (Bool × Option UInt64) := do
  if length &&& 3 ≠ 0 then throw .assertFailed
  let (cka, ckb) ← checkSumLoop ptr length (length.toNat / 4 + 1) 0 (0, 0)
  if doCheck then
    match sum64 with
    | some s => return ((s >>> 32).toUInt32 == cka && s.toUInt32 == ckb, some s)
    | none => return (false, none)
  else
    match sum64 with
    | some _ => return (true, some (packSums cka ckb))
    | none => return (false, none)

/-- The two sums of a block, from zero. -/
def blockSums (ws : List UInt32) : UInt32 × UInt32 :=
  RunningSum.sums (0, 0) ws

/-- The byte length of a block of words, as the callers pass it. -/
def byteLength (ws : List UInt32) : UInt32 :=
  UInt32.ofNat (4 * ws.length)

/-! ## The loop computes the running sums -/

theorem checkSumLoop_eq {ptr : List UInt32} {length : UInt32} (hlen : length.toNat = 4 * ptr.length)
    (fuel k : Nat) (hk : k ≤ ptr.length) (hfuel : ptr.length < k + fuel) (acc : UInt32 × UInt32) :
    checkSumLoop ptr length fuel (UInt32.ofNat k) acc =
      .ok (RunningSum.sums acc (ptr.drop k)) := by
  have hlt := length.toNat_lt
  induction fuel generalizing k acc with
  | zero => omega
  | succ fuel ih =>
    obtain ⟨cka, ckb⟩ := acc
    have hk32 : k < UInt32.size := by
      rw [UInt32.size]
      omega
    have hi : (UInt32.ofNat k).toNat = k := UInt32.toNat_ofNat_of_lt' hk32
    have hcond : UInt32.ofNat k * 4 < length ↔ k < ptr.length := by
      rw [UInt32.lt_iff_toNat_lt, UInt32.toNat_mul, hi, hlen]
      have : k * (4 : UInt32).toNat = k * 4 := rfl
      rw [this, Nat.mod_eq_of_lt (by omega)]
      omega
    unfold checkSumLoop
    by_cases hend : k < ptr.length
    · have hnext : UInt32.ofNat k + 1 = UInt32.ofNat (k + 1) := (UInt32.ofNat_add k 1).symm
      rw [if_pos (hcond.mpr hend), hi, List.getElem?_eq_getElem hend, hnext]
      simp only
      rw [ih (k + 1) hend (by omega), List.drop_eq_getElem_cons hend]
      rfl
    · rw [if_neg (mt hcond.mp hend), List.drop_of_length_le (by omega)]
      rfl

/-- The loop terminates, stays in the block and computes the running sums, for
    every block whose byte length is a `uint32_t`. -/
theorem checkSumLoop_block {ws : List UInt32} (h : 4 * ws.length < 2 ^ 32) :
    checkSumLoop ws (byteLength ws) ((byteLength ws).toNat / 4 + 1) 0 (0, 0) =
      .ok (blockSums ws) := by
  have hlen : (byteLength ws).toNat = 4 * ws.length := UInt32.toNat_ofNat_of_lt' h
  have := checkSumLoop_eq hlen ((byteLength ws).toNat / 4 + 1) 0 (by omega) (by omega) (0, 0)
  simpa [blockSums] using this

theorem byteLength_aligned {ws : List UInt32} (h : 4 * ws.length < 2 ^ 32) :
    byteLength ws &&& 3 = 0 := by
  have hlen : (byteLength ws).toNat = 4 * ws.length := UInt32.toNat_ofNat_of_lt' h
  apply UInt32.toNat_inj.mp
  rw [UInt32.toNat_and, hlen]
  have hmask : 4 * ws.length &&& 2 ^ 2 - 1 = 4 * ws.length % 2 ^ 2 := Nat.and_two_pow_sub_one_eq_mod _ 2
  have hthree : (3 : UInt32).toNat = 2 ^ 2 - 1 := rfl
  rw [hthree, hmask]
  simp

/-! ## The packed pair -/

theorem packSums_high (cka ckb : UInt32) : (packSums cka ckb >>> 32).toUInt32 = cka := by
  have ha := cka.toNat_lt
  have hb := ckb.toNat_lt
  apply UInt32.toNat_inj.mp
  simp only [packSums, UInt64.toNat_toUInt32, UInt64.toNat_shiftRight, UInt64.toNat_add,
    UInt64.toNat_shiftLeft, UInt32.toNat_toUInt64, Nat.shiftLeft_eq, Nat.shiftRight_eq_div_pow]
  have h32 : (32 : UInt64).toNat % 64 = 32 := rfl
  rw [h32]
  omega

theorem packSums_low (cka ckb : UInt32) : (packSums cka ckb).toUInt32 = ckb := by
  have ha := cka.toNat_lt
  have hb := ckb.toNat_lt
  apply UInt32.toNat_inj.mp
  simp only [packSums, UInt64.toNat_toUInt32, UInt64.toNat_add, UInt64.toNat_shiftLeft,
    UInt32.toNat_toUInt64, Nat.shiftLeft_eq]
  have h32 : (32 : UInt64).toNat % 64 = 32 := rfl
  rw [h32]
  omega

/-! ## Both modes -/

/-- Compute mode stores the packed sums of the block. -/
theorem doubleCheckSum_compute {ws : List UInt32} (h : 4 * ws.length < 2 ^ 32) (init : UInt64) :
    doubleCheckSum ws (byteLength ws) (some init) false =
      .ok (true, some (packSums (blockSums ws).1 (blockSums ws).2)) := by
  unfold doubleCheckSum
  rw [checkSumLoop_block h, if_neg (by simp [byteLength_aligned h])]
  rfl

/-- Check mode compares the sums of the block with the two halves of `*sum64`. -/
theorem doubleCheckSum_check {ws : List UInt32} (h : 4 * ws.length < 2 ^ 32) (s : UInt64) :
    doubleCheckSum ws (byteLength ws) (some s) true =
      .ok (decide (blockSums ws = ((s >>> 32).toUInt32, s.toUInt32)), some s) := by
  unfold doubleCheckSum
  rw [checkSumLoop_block h, if_neg (by simp [byteLength_aligned h])]
  have : ((s >>> 32).toUInt32 == (blockSums ws).1 && s.toUInt32 == (blockSums ws).2) =
      decide (blockSums ws = ((s >>> 32).toUInt32, s.toUInt32)) := by
    rw [Bool.eq_iff_iff, Bool.and_eq_true, beq_iff_eq, beq_iff_eq, decide_eq_true_iff, Prod.ext_iff]
    exact and_congr eq_comm eq_comm
  rw [← this]
  rfl

/-- Checking a block against the sums stored for another one compares the sums
    of the two blocks. -/
theorem doubleCheckSum_check_packed {ws' : List UInt32} (h : 4 * ws'.length < 2 ^ 32)
    (ws : List UInt32) :
    doubleCheckSum ws' (byteLength ws') (some (packSums (blockSums ws).1 (blockSums ws).2)) true =
      .ok (decide (blockSums ws' = blockSums ws),
        some (packSums (blockSums ws).1 (blockSums ws).2)) := by
  rw [doubleCheckSum_check h, packSums_high, packSums_low]

/-! ## Which damage the pair detects -/

/-- The difference modulo `2^32` of the words at position `i`. -/
def wordDiff (ws' ws : List UInt32) (i : Nat) : UInt32 :=
  ws'.getD i 0 - ws.getD i 0

theorem wordDiff_eq {ws' ws : List UInt32} {i : Nat} (h' : i < ws'.length) (h : i < ws.length) :
    wordDiff ws' ws i = ws'[i] - ws[i] := by
  simp [wordDiff, h', h]

/-- An odd number is not a zero divisor modulo `2^32`. -/
theorem eq_zero_of_odd_mul {n : Nat} (hodd : Odd n) {d : UInt32} (h : UInt32.ofNat n * d = 0) :
    d = 0 := by
  have hmul : n * d.toNat % 2 ^ 32 = 0 := by
    have := congrArg UInt32.toNat h
    simpa [UInt32.toNat_mul, UInt32.toNat_ofNat', Nat.mod_mul_mod] using this
  have hcop : Nat.Coprime (2 ^ 32) n := hodd.coprime_two_left.pow_left 32
  have hdvd : 2 ^ 32 ∣ d.toNat := hcop.dvd_of_dvd_mul_left (Nat.dvd_of_mod_eq_zero hmul)
  have hlt := d.toNat_lt
  apply UInt32.toNat_inj.mp
  exact Nat.eq_zero_of_dvd_of_lt hdvd hlt

section

open scoped UInt32.CommRing

theorem blockSums_eq_of_two {ws ws' : List UInt32} (hlen : ws'.length = ws.length) {i j : Nat}
    (hij : i < j) (hj : j < ws.length) (hagree : Span.AgreeOff {i, j} ws' ws) :
    blockSums ws' = blockSums ws ↔
      wordDiff ws' ws i + wordDiff ws' ws j = 0 ∧
        UInt32.ofNat (j - i) * wordDiff ws' ws i = 0 := by
  have hset := hagree.eq_set_set hlen (by omega) (by omega)
  have hiff := RunningSum.sums_set_set_eq_iff hij hj (ws'[i]) (ws'[j])
  rw [← hset] at hiff
  rw [wordDiff_eq (by omega) (by omega), wordDiff_eq (by omega) hj]
  exact hiff

theorem blockSums_ne_of_one {ws ws' : List UInt32} (hlen : ws'.length = ws.length) {i : Nat}
    (hagree : Span.AgreeOff {i} ws' ws) (hne : ws' ≠ ws) : blockSums ws' ≠ blockSums ws := by
  intro hsums
  by_cases hi : i < ws.length
  · have hset := hagree.eq_set hlen (by omega)
    have hiff := RunningSum.sums_set_eq_iff hi (ws'[i])
    rw [← hset] at hiff
    apply hne
    rw [hset, hiff.mp hsums]
    exact List.set_getElem_self hi
  · -- A position past the end changes nothing.
    apply hne
    apply List.ext_getElem?
    intro k
    by_cases hk : k = i
    · rw [List.getElem?_eq_none (by omega), List.getElem?_eq_none (by omega)]
    · exact hagree k hk

end

theorem blockSums_ne_of_odd_distance {ws ws' : List UInt32} (hlen : ws'.length = ws.length)
    {i j : Nat} (hij : i < j) (hj : j < ws.length) (hodd : Odd (j - i))
    (hagree : Span.AgreeOff {i, j} ws' ws) (hne : ws' ≠ ws) : blockSums ws' ≠ blockSums ws := by
  intro hsums
  obtain ⟨hcancel, hdist⟩ := (blockSums_eq_of_two hlen hij hj hagree).mp hsums
  have hdi : wordDiff ws' ws i = 0 := eq_zero_of_odd_mul hodd hdist
  -- With the first difference gone, the change is confined to the second position.
  refine blockSums_ne_of_one hlen (i := j) ?_ hne hsums
  intro k hk
  by_cases hki : k = i
  · have hi : i < ws.length := by omega
    have hi' : i < ws'.length := by omega
    rw [wordDiff_eq hi' hi] at hdi
    rw [hki, List.getElem?_eq_getElem hi', List.getElem?_eq_getElem hi,
      sub_eq_zero.mp hdi]
  · exact hagree k fun hmem => hmem.elim hki hk

/-- Exchanging two different neighbours changes the sums. -/
theorem blockSums_swap_ne {ws : List UInt32} {i : Nat} (hi : i + 1 < ws.length)
    (hne : ws[i] ≠ ws[i + 1]) :
    blockSums ((ws.set i ws[i + 1]).set (i + 1) ws[i]) ≠ blockSums ws := by
  apply blockSums_ne_of_odd_distance (i := i) (j := i + 1) (by simp) (by omega) hi
  · simp
  · intro k hk
    have hki : ¬ i = k := fun h => hk (Or.inl h.symm)
    have hkj : ¬ i + 1 = k := fun h => hk (Or.inr h.symm)
    rw [List.getElem?_set_ne hkj, List.getElem?_set_ne hki]
  · intro heq
    have hat := congrArg (fun l => l[i + 1]?) heq
    simp [hi] at hat
    exact hne hat

/-- **Error detection.** For every block whose byte length fits a `uint32_t`,
    the sums stored in compute mode accept the block itself; they accept a block
    changed at two positions exactly when the two differences cancel and the
    distance times the difference is zero modulo `2^32`; they reject every other
    change of one word, every change of two words at an odd distance, and every
    exchange of two different neighbours. -/
theorem doubleCheckSum_error_detection {ws : List UInt32} (h : 4 * ws.length < 2 ^ 32)
    (init : UInt64) :
    ∃ S, doubleCheckSum ws (byteLength ws) (some init) false = .ok (true, some S) ∧
      (∀ ws' i j, ws'.length = ws.length → i < j → j < ws.length → Span.AgreeOff {i, j} ws' ws →
        doubleCheckSum ws' (byteLength ws') (some S) true =
          .ok (decide (wordDiff ws' ws i + wordDiff ws' ws j = 0 ∧
            UInt32.ofNat (j - i) * wordDiff ws' ws i = 0), some S)) ∧
      doubleCheckSum ws (byteLength ws) (some S) true = .ok (true, some S) ∧
      (∀ ws' i, ws'.length = ws.length → Span.AgreeOff {i} ws' ws → ws' ≠ ws →
        doubleCheckSum ws' (byteLength ws') (some S) true = .ok (false, some S)) ∧
      (∀ ws' i j, ws'.length = ws.length → i < j → j < ws.length → Odd (j - i) →
        Span.AgreeOff {i, j} ws' ws → ws' ≠ ws →
        doubleCheckSum ws' (byteLength ws') (some S) true = .ok (false, some S)) ∧
      (∀ i (hi : i + 1 < ws.length), ws[i] ≠ ws[i + 1] →
        doubleCheckSum ((ws.set i ws[i + 1]).set (i + 1) ws[i])
          (byteLength ((ws.set i ws[i + 1]).set (i + 1) ws[i])) (some S) true =
            .ok (false, some S)) := by
  refine ⟨packSums (blockSums ws).1 (blockSums ws).2, doubleCheckSum_compute h init,
    ?_, ?_, ?_, ?_, ?_⟩
  · intro ws' i j hlen hij hj hagree
    rw [doubleCheckSum_check_packed (by omega), decide_eq_decide.mpr]
    exact blockSums_eq_of_two hlen hij hj hagree
  · rw [doubleCheckSum_check_packed h]
    simp
  · intro ws' i hlen hagree hne
    rw [doubleCheckSum_check_packed (by omega), decide_eq_false]
    exact blockSums_ne_of_one hlen hagree hne
  · intro ws' i j hlen hij hj hodd hagree hne
    rw [doubleCheckSum_check_packed (by omega), decide_eq_false]
    exact blockSums_ne_of_odd_distance hlen hij hj hodd hagree hne
  · intro i hi hne
    rw [doubleCheckSum_check_packed (by simpa using h), decide_eq_false]
    exact blockSums_swap_ne hi hne

theorem doubleCheckSum_error_detection_two_words :
    ∃ S, doubleCheckSum [1, 2] 8 (some 0) false = .ok (true, some S) ∧
      doubleCheckSum [2, 1] 8 (some S) true = .ok (false, some S) := by
  obtain ⟨S, hcompute, -, -, -, -, hswap⟩ :=
    @doubleCheckSum_error_detection [1, 2] (by decide) 0
  exact ⟨S, hcompute, hswap 0 (by decide) (by decide)⟩

end PackageTool
