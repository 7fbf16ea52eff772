-- SUMMARY: Masked writes to a machine word that also set bits outside their mask, and when a run of them ends where the confined run does.
import Edk2NonOsi.Bits.Field

/-! # Masked writes

A masked write replaces the bits of its mask. Put together with and and or, it also sets
the bits its value has outside the mask: it spills. `run` performs a list of writes as
they are, `confinedRun` without their spills, and `Covered` tells when both end in the
same word: every spilled bit is replaced later, or was set anyway. -/

/-- Every bit of `x` is a bit of `y`. -/
def BitVec.Within {w : Nat} (x y : BitVec w) : Prop :=
  x &&& ~~~ y = 0

namespace BitVec

variable {w : Nat}

instance (x y : BitVec w) : Decidable (x.Within y) :=
  inferInstanceAs (Decidable (_ = _))

theorem within_iff {x y : BitVec w} :
    x.Within y ↔ ∀ i, i < w → x.getLsbD i = true → y.getLsbD i = true := by
  rw [Within, eq_of_getLsbD_eq_iff]
  apply forall₂_congr
  intro i hi
  rw [getLsbD_and, getLsbD_not, ofNat_eq_ofNat, getLsbD_zero, decide_eq_true hi, Bool.true_and,
    Bool.and_eq_false_imp, Bool.not_eq_false']

theorem within_refl (x : BitVec w) : x.Within x :=
  within_iff.mpr fun _ _ hx => hx

theorem Within.antisymm {x y : BitVec w} (h : x.Within y) (h' : y.Within x) : x = y := by
  apply eq_of_getLsbD_eq
  intro i hi
  exact Bool.eq_iff_iff.mpr ⟨within_iff.mp h i hi, within_iff.mp h' i hi⟩

end BitVec

open BitVec (within_iff within_refl getLsbD_or getLsbD_and getLsbD_not)

/-- A write of `data` to the bits of `mask` which sets the bits of `spill` besides. -/
structure MaskedWrite (w : Nat) where
  mask : BitVec w
  data : BitVec w
  spill : BitVec w
  data_inside : data.Within mask
  spill_outside : spill.Within (~~~ mask)

namespace MaskedWrite

variable {w : Nat}

/-- The word after a write that keeps to its mask. -/
def confined (u : MaskedWrite w) (reg : BitVec w) : BitVec w :=
  (reg &&& ~~~ u.mask) ||| u.data

/-- The word after a write. -/
def apply (u : MaskedWrite w) (reg : BitVec w) : BitVec w :=
  u.confined reg ||| u.spill

/-- The word after a list of writes that keep to their masks. -/
def confinedRun (us : List (MaskedWrite w)) (reg : BitVec w) : BitVec w :=
  us.foldl (fun reg u => u.confined reg) reg

/-- The word after a list of writes. -/
def run (us : List (MaskedWrite w)) (reg : BitVec w) : BitVec w :=
  us.foldl (fun reg u => u.apply reg) reg

/-- The bits that some write of a list replaces. -/
def masks : List (MaskedWrite w) → BitVec w
  | [] => 0
  | u :: us => u.mask ||| masks us

/-- Every spilled bit is replaced by a later write, or set in the word it is spilled on. -/
def Covered : BitVec w → List (MaskedWrite w) → Prop
  | _, [] => True
  | reg, u :: us => u.spill.Within (masks us ||| reg) ∧ Covered (u.confined reg) us

/-! ## One write, bit by bit -/

theorem getLsbD_confined (u : MaskedWrite w) (reg : BitVec w) {i : Nat} (hi : i < w) :
    (u.confined reg).getLsbD i =
      (reg.getLsbD i && !u.mask.getLsbD i || u.data.getLsbD i) := by
  rw [confined, getLsbD_or, getLsbD_and, getLsbD_not, decide_eq_true hi, Bool.true_and]

theorem getLsbD_of_spill (u : MaskedWrite w) {i : Nat} (hi : i < w)
    (h : u.spill.getLsbD i = true) : u.mask.getLsbD i = false := by
  have hout := within_iff.mp u.spill_outside i hi h
  simpa [hi] using hout

/-- A write keeps what the confined word has. -/
theorem confined_within_apply (u : MaskedWrite w) {reg reg' : BitVec w} (hle : reg'.Within reg) :
    (u.confined reg').Within (u.apply reg) := by
  rw [within_iff] at hle ⊢
  intro i hi hbit
  have hreg := hle i hi
  rw [getLsbD_confined u _ hi] at hbit
  rw [apply, getLsbD_or, getLsbD_confined u _ hi]
  grind

/-- What a write has over the confined one: what was there before, and its spill. -/
theorem apply_within_iff (u : MaskedWrite w) {reg reg' : BitVec w} (hle : reg'.Within reg)
    (later : BitVec w) :
    (u.apply reg).Within (later ||| u.confined reg') ↔
      reg.Within ((u.mask ||| later) ||| reg') ∧ u.spill.Within (later ||| reg') := by
  rw [within_iff] at hle
  rw [within_iff, within_iff, within_iff, ← forall₂_and]
  apply forall₂_congr
  intro i hi
  have hreg := hle i hi
  have hdata := within_iff.mp u.data_inside i hi
  have hspill := u.getLsbD_of_spill hi
  rw [apply, getLsbD_or, getLsbD_or, getLsbD_or, getLsbD_or, getLsbD_or,
    getLsbD_confined u _ hi, getLsbD_confined u _ hi]
  grind

/-! ## Writes put together -/

/-- The write of a value that may have bits outside the mask. -/
def ofValue (mask value : BitVec w) : MaskedWrite w where
  mask := mask
  data := value &&& mask
  spill := value &&& ~~~ mask
  data_inside := within_iff.mpr fun i _ h => by simp_all
  spill_outside := within_iff.mpr fun i _ h => by simp_all

theorem apply_ofValue (mask value reg : BitVec w) :
    (ofValue mask value).apply reg = (reg &&& ~~~ mask) ||| value := by
  apply BitVec.eq_of_getLsbD_eq
  intro i hi
  rw [apply, getLsbD_or, getLsbD_confined _ _ hi]
  simp only [ofValue, getLsbD_or, getLsbD_and, getLsbD_not]
  grind

/-- One write and then another. -/
def andThen (u v : MaskedWrite w) : MaskedWrite w where
  mask := u.mask ||| v.mask
  data := (u.data &&& ~~~ v.mask) ||| v.data ||| (v.spill &&& u.mask)
  spill := (u.spill ||| v.spill) &&& ~~~ (u.mask ||| v.mask)
  data_inside := by
    rw [within_iff]
    intro i hi
    have hu := within_iff.mp u.data_inside i hi
    have hv := within_iff.mp v.data_inside i hi
    simp only [getLsbD_or, getLsbD_and, getLsbD_not]
    grind
  spill_outside := within_iff.mpr fun i _ h => by simp_all

theorem apply_andThen (u v : MaskedWrite w) (reg : BitVec w) :
    (u.andThen v).apply reg = v.apply (u.apply reg) := by
  apply BitVec.eq_of_getLsbD_eq
  intro i hi
  have hdata := within_iff.mp v.data_inside i hi
  have hspill := u.getLsbD_of_spill hi
  have hspill' := v.getLsbD_of_spill hi
  rw [apply, apply, getLsbD_or, getLsbD_or, getLsbD_confined _ _ hi, getLsbD_confined _ _ hi,
    apply, getLsbD_or, getLsbD_confined _ _ hi]
  simp only [andThen, getLsbD_or, getLsbD_and, getLsbD_not]
  grind

/-- Behind a write that keeps to its mask, the spill of the first one is all there is. -/
theorem confined_andThen {u v : MaskedWrite w} (h : v.spill = 0) (reg : BitVec w) :
    (u.andThen v).confined reg = v.confined (u.confined reg) := by
  apply BitVec.eq_of_getLsbD_eq
  intro i hi
  have hdata := within_iff.mp v.data_inside i hi
  rw [getLsbD_confined _ _ hi, getLsbD_confined _ _ hi, getLsbD_confined _ _ hi]
  simp only [andThen, h, getLsbD_or, getLsbD_and, getLsbD_not, BitVec.ofNat_eq_ofNat,
    BitVec.getLsbD_zero]
  grind

/-- What the first value has outside both masks is then all that is spilled. -/
theorem spill_andThen {v : MaskedWrite w} (h : v.spill = 0) (mask value : BitVec w) :
    ((ofValue mask value).andThen v).spill = value &&& ~~~ (mask ||| v.mask) := by
  apply BitVec.eq_of_getLsbD_eq
  intro i hi
  simp only [andThen, ofValue, h, getLsbD_or, getLsbD_and, getLsbD_not, BitVec.ofNat_eq_ofNat,
    BitVec.getLsbD_zero]
  grind

/-! ## Writes to a field -/

theorem get_confined_ofValue (f : BitField w) (value reg : BitVec w) :
    f.get ((ofValue f.mask value).confined reg) = f.get value := by
  rw [confined, ofValue, f.get_or, f.get_and_not_mask, f.get_and_mask, BitVec.ofNat_eq_ofNat,
    BitVec.zero_or]

theorem get_confined_ofValue_of_apart {f g : BitField w} (h : f.Apart g) (value reg : BitVec w) :
    f.get ((ofValue g.mask value).confined reg) = f.get reg := by
  rw [confined, ofValue, f.get_or, h.get_and_not_mask, h.get_and_mask, BitVec.ofNat_eq_ofNat,
    BitVec.or_zero]

/-! ## Runs -/

theorem covered_of_spill_eq_zero {us : List (MaskedWrite w)} (h : ∀ u ∈ us, u.spill = 0)
    (reg : BitVec w) : Covered reg us := by
  induction us generalizing reg with
  | nil => trivial
  | cons u us ih =>
    obtain ⟨hu, hus⟩ := List.forall_mem_cons.mp h
    refine ⟨?_, ih hus _⟩
    rw [hu, BitVec.Within, BitVec.ofNat_eq_ofNat, BitVec.zero_and]

/-- From a word with more bits than the confined run's, both runs agree when these bits are
    replaced and the spills are covered. -/
theorem run_eq_confinedRun_iff_of_within (us : List (MaskedWrite w)) {reg reg' : BitVec w}
    (hle : reg'.Within reg) :
    run us reg = confinedRun us reg' ↔ reg.Within (masks us ||| reg') ∧ Covered reg' us := by
  induction us generalizing reg reg' with
  | nil =>
    rw [masks, Covered, and_true, BitVec.ofNat_eq_ofNat, BitVec.zero_or]
    constructor
    · intro h
      have hreg : reg = reg' := h
      rw [hreg]
      exact within_refl _
    · intro h
      exact h.antisymm hle
  | cons u us ih =>
    have hstep := ih (u.confined_within_apply hle)
    rw [u.apply_within_iff hle, and_assoc] at hstep
    exact hstep

/-- **A run ends where the confined run does** exactly when its spills are covered. -/
theorem run_eq_confinedRun_iff (us : List (MaskedWrite w)) (reg : BitVec w) :
    run us reg = confinedRun us reg ↔ Covered reg us := by
  rw [run_eq_confinedRun_iff_of_within us (within_refl reg)]
  refine and_iff_right (within_iff.mpr fun i hi hbit => ?_)
  rw [getLsbD_or, hbit, Bool.or_true]

end MaskedWrite
