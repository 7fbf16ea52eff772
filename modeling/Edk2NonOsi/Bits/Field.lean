-- SUMMARY: Bit fields of a machine word: mask and contents, and what masking and shifting leave in a field.
import Mathlib.Data.BitVec
import Mathlib.Tactic

/-! # Bit fields

A field is a run of `size` bits of a word, from bit `shift` on. `mask` is the word
with exactly these bits set and `get` the field's contents as a vector of their own. -/

/-- A run of bits inside a word of `w` bits. -/
structure BitField (w : Nat) where
  shift : Nat
  size : Nat
  fits : shift + size ≤ w

namespace BitField

variable {w : Nat} (f g : BitField w)

/-- The bits of the field. -/
def mask : BitVec w :=
  (BitVec.allOnes w >>> (w - f.size)) <<< f.shift

/-- The contents of the field. -/
def get (reg : BitVec w) : BitVec f.size :=
  reg.extractLsb' f.shift f.size

/-- The word with the given contents of the field, and nothing else. -/
def put (v : BitVec f.size) : BitVec w :=
  v.setWidth w <<< f.shift

/-- No bit in common. -/
def Apart : Prop :=
  f.shift + f.size ≤ g.shift ∨ g.shift + g.size ≤ f.shift

instance : Decidable (f.Apart g) :=
  inferInstanceAs (Decidable (_ ∨ _))

theorem getLsbD_mask (i : Nat) :
    f.mask.getLsbD i = decide (f.shift ≤ i ∧ i < f.shift + f.size) := by
  have hfits := f.fits
  rw [mask, BitVec.getLsbD_shiftLeft, BitVec.getLsbD_ushiftRight, BitVec.getLsbD_allOnes]
  rw [Bool.eq_iff_iff]
  simp only [Bool.and_eq_true, Bool.not_eq_true', decide_eq_true_eq, decide_eq_false_iff_not]
  omega

theorem getLsbD_get (reg : BitVec w) (i : Nat) :
    (f.get reg).getLsbD i = (decide (i < f.size) && reg.getLsbD (f.shift + i)) :=
  BitVec.getLsbD_extractLsb' ..

/-- Equal contents are equal bits. -/
theorem get_eq_get_iff {reg reg' : BitVec w} :
    f.get reg = f.get reg' ↔
      ∀ i, f.shift ≤ i → i < f.shift + f.size → reg.getLsbD i = reg'.getLsbD i := by
  constructor
  · intro h i hlow hhigh
    have hbit := congrArg (fun v => v.getLsbD (i - f.shift)) h
    have hi : f.shift + (i - f.shift) = i := by omega
    have hin : i - f.shift < f.size := by omega
    simpa only [getLsbD_get, hi, hin, decide_true, Bool.true_and] using hbit
  · intro h
    apply BitVec.eq_of_getLsbD_eq
    intro i hi
    rw [getLsbD_get, getLsbD_get, h (f.shift + i) (by omega) (by omega)]

/-- Equal contents are equal masked words. -/
theorem and_mask_eq_iff {reg reg' : BitVec w} :
    reg &&& f.mask = reg' &&& f.mask ↔ f.get reg = f.get reg' := by
  rw [get_eq_get_iff]
  constructor
  · intro h i hlow hhigh
    have hbit := congrArg (fun v => v.getLsbD i) h
    simpa [getLsbD_mask, hlow, hhigh] using hbit
  · intro h
    apply BitVec.eq_of_getLsbD_eq
    intro i _
    rw [BitVec.getLsbD_and, BitVec.getLsbD_and, getLsbD_mask]
    by_cases hin : f.shift ≤ i ∧ i < f.shift + f.size
    · rw [h i hin.1 hin.2]
    · rw [decide_eq_false hin, Bool.and_false, Bool.and_false]

/-- Contents are told apart in a whole word. -/
theorem setWidth_inj {x y : BitVec f.size} : x.setWidth w = y.setWidth w ↔ x = y := by
  have hfits := f.fits
  have hle : f.size ≤ w := by omega
  constructor
  · intro hwide
    have hback := congrArg (BitVec.setWidth f.size) hwide
    rw [BitVec.setWidth_setWidth_of_le x hle, BitVec.setWidth_setWidth_of_le y hle] at hback
    rwa [BitVec.setWidth_eq, BitVec.setWidth_eq] at hback
  · exact congrArg _

/-! ## Reading a field -/

/-- Masking and shifting down is reading the field. -/
theorem and_mask_ushiftRight (reg : BitVec w) :
    (reg &&& f.mask) >>> f.shift = (f.get reg).setWidth w := by
  have hfits := f.fits
  apply BitVec.eq_of_getLsbD_eq
  intro i hi
  rw [BitVec.getLsbD_ushiftRight, BitVec.getLsbD_and, getLsbD_mask, BitVec.getLsbD_setWidth,
    getLsbD_get, decide_eq_true hi, Bool.true_and, Bool.and_comm]
  congr 1
  simp

theorem get_shiftLeft (v : BitVec w) : f.get (v <<< f.shift) = v.setWidth f.size := by
  have hfits := f.fits
  apply BitVec.eq_of_getLsbD_eq
  intro i hi
  have hin : f.shift + i < w := by omega
  have hlow : ¬ f.shift + i < f.shift := by omega
  simp only [getLsbD_get, BitVec.getLsbD_shiftLeft, BitVec.getLsbD_setWidth, hi, hin, hlow,
    decide_true, decide_false, Bool.not_false, Bool.true_and, Nat.add_sub_cancel_left]

@[simp] theorem get_put (v : BitVec f.size) : f.get (f.put v) = v := by
  have hfits := f.fits
  rw [put, get_shiftLeft, BitVec.setWidth_setWidth_of_le v (by omega), BitVec.setWidth_eq]

/-- What is in the field is what masking leaves. -/
theorem put_get (reg : BitVec w) : f.put (f.get reg) = reg &&& f.mask := by
  have hfits := f.fits
  apply BitVec.eq_of_getLsbD_eq
  intro i hi
  rw [put, BitVec.getLsbD_shiftLeft, BitVec.getLsbD_setWidth, getLsbD_get, BitVec.getLsbD_and,
    getLsbD_mask]
  by_cases hlow : i < f.shift
  · have hout : ¬ (f.shift ≤ i ∧ i < f.shift + f.size) := by omega
    rw [decide_eq_true hlow, decide_eq_false hout]
    simp
  · have hpos : f.shift + (i - f.shift) = i := by omega
    have hsub : i - f.shift < w := by omega
    have hin : decide (i - f.shift < f.size) =
        decide (f.shift ≤ i ∧ i < f.shift + f.size) := by
      rw [decide_eq_decide]
      omega
    rw [hpos, hin, decide_eq_true hi, decide_eq_true hsub, decide_eq_false hlow]
    simp only [Bool.not_false, Bool.true_and, Bool.and_comm]

theorem put_and_mask (v : BitVec f.size) : f.put v &&& f.mask = f.put v := by
  rw [← put_get, get_put]

/-- A value that fits stays in the field. -/
theorem shiftLeft_and_not_mask {v : BitVec w} (h : v.toNat < 2 ^ f.size) :
    (v <<< f.shift) &&& ~~~ f.mask = 0 := by
  have hput : v <<< f.shift = f.put (v.setWidth f.size) := by
    have hback : (v.setWidth f.size).setWidth w = v := by
      apply BitVec.eq_of_toNat_eq
      rw [BitVec.toNat_setWidth, BitVec.toNat_setWidth, Nat.mod_eq_of_lt h,
        Nat.mod_eq_of_lt v.isLt]
    rw [put, hback]
  rw [hput, ← put_and_mask, BitVec.and_assoc, BitVec.and_not_self]
  exact BitVec.and_zero

theorem shiftLeft_and_not_mask_or {v : BitVec w} (h : v.toNat < 2 ^ f.size) (m : BitVec w) :
    (v <<< f.shift) &&& ~~~ (f.mask ||| m) = 0 := by
  rw [BitVec.not_or, ← BitVec.and_assoc, f.shiftLeft_and_not_mask h]
  exact BitVec.zero_and

@[simp] theorem get_or (reg reg' : BitVec w) : f.get (reg ||| reg') = f.get reg ||| f.get reg' :=
  BitVec.extractLsb'_or

@[simp] theorem get_and_mask (reg : BitVec w) : f.get (reg &&& f.mask) = f.get reg := by
  rw [get_eq_get_iff]
  intro i hlow hhigh
  simp [getLsbD_mask, hlow, hhigh]

@[simp] theorem get_and_not_mask (reg : BitVec w) : f.get (reg &&& ~~~ f.mask) = 0 := by
  apply BitVec.eq_of_getLsbD_eq
  intro i hi
  have hin : f.shift ≤ f.shift + i ∧ f.shift + i < f.shift + f.size := by omega
  rw [getLsbD_get, BitVec.getLsbD_and, BitVec.getLsbD_not, getLsbD_mask, decide_eq_true hin,
    Bool.not_true, Bool.and_false, Bool.and_false, Bool.and_false]
  exact BitVec.getLsbD_zero.symm

variable {f g}

/-- Masking with another field leaves nothing. -/
theorem Apart.get_and_mask (h : f.Apart g) (reg : BitVec w) : f.get (reg &&& g.mask) = 0 := by
  apply BitVec.eq_of_getLsbD_eq
  intro i hi
  have hout : ¬ (g.shift ≤ f.shift + i ∧ f.shift + i < g.shift + g.size) := by
    unfold Apart at h
    omega
  rw [getLsbD_get, BitVec.getLsbD_and, getLsbD_mask, decide_eq_false hout, Bool.and_false,
    Bool.and_false]
  exact BitVec.getLsbD_zero.symm

/-- Clearing another field changes nothing. -/
theorem Apart.get_and_not_mask (h : f.Apart g) (reg : BitVec w) :
    f.get (reg &&& ~~~ g.mask) = f.get reg := by
  have hfits := f.fits
  rw [get_eq_get_iff]
  intro i hlow hhigh
  have hout : ¬ (g.shift ≤ i ∧ i < g.shift + g.size) := by
    unfold Apart at h
    omega
  have hin : i < w := by omega
  rw [BitVec.getLsbD_and, BitVec.getLsbD_not, getLsbD_mask, decide_eq_false hout,
    decide_eq_true hin, Bool.not_false, Bool.and_true, Bool.and_true]

theorem Apart.get_put (h : f.Apart g) (v : BitVec g.size) : f.get (g.put v) = 0 := by
  rw [← g.put_and_mask, h.get_and_mask]

end BitField
