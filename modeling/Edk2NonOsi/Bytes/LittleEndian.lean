-- SUMMARY: The little-endian value of a byte string and the byte string of a given width that holds a number.
import Mathlib.Data.List.Basic
import Mathlib.Tactic

/-! # Little-endian byte strings -/

/-- Memory, a file or a packed object: a string of bytes. -/
abbrev Bytes : Type := List UInt8

namespace LittleEndian

/-- The number a byte string holds, lowest byte first. -/
def toNat : Bytes → Nat
  | [] => 0
  | b :: bs => b.toNat + 256 * toNat bs

/-- The `n` low bytes of `v`, lowest first. -/
def ofNat : Nat → Nat → Bytes
  | 0, _ => []
  | n + 1, v => UInt8.ofNat v :: ofNat n (v / 256)

@[simp] theorem length_ofNat (n v : Nat) : (ofNat n v).length = n := by
  induction n generalizing v with
  | zero => rfl
  | succ n ih => simp [ofNat, ih]

/-- Writing a number and reading it back keeps what fits the width. -/
theorem toNat_ofNat (n v : Nat) : toNat (ofNat n v) = v % 256 ^ n := by
  induction n generalizing v with
  | zero => simp [ofNat, toNat, Nat.mod_one]
  | succ n ih =>
    simp only [ofNat, toNat, ih, UInt8.toNat_ofNat', Nat.pow_succ']
    exact Nat.mod_mul.symm

/-- Reading a byte string and writing it back gives the same bytes. -/
theorem ofNat_toNat (bs : Bytes) : ofNat bs.length (toNat bs) = bs := by
  induction bs with
  | nil => rfl
  | cons b bs ih =>
    have hb : b.toNat < 256 := b.toNat_lt
    have hlow : (b.toNat + 256 * toNat bs) % 256 = b.toNat := by omega
    have hhigh : (b.toNat + 256 * toNat bs) / 256 = toNat bs := by omega
    have hbyte : UInt8.ofNat (b.toNat + 256 * toNat bs) = b := by
      apply UInt8.toNat_inj.mp
      rw [UInt8.toNat_ofNat']
      exact hlow
    rw [List.length_cons, ofNat, toNat, hhigh, ih, hbyte]

theorem toNat_lt (bs : Bytes) : toNat bs < 256 ^ bs.length := by
  induction bs with
  | nil => simp [toNat]
  | cons b bs ih =>
    have hb : b.toNat < 256 := b.toNat_lt
    rw [List.length_cons, Nat.pow_succ', toNat]
    omega

theorem toNat_append (bs bs' : Bytes) :
    toNat (bs ++ bs') = toNat bs + 256 ^ bs.length * toNat bs' := by
  induction bs with
  | nil => simp [toNat]
  | cons b bs ih =>
    rw [List.cons_append, toNat, ih, toNat, List.length_cons, Nat.pow_succ']
    ring

end LittleEndian
