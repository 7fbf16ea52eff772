-- SUMMARY: Big-endian byte strings, shortest ones, and which pairs of numbers share one concatenation of their shortest byte strings.
import Edk2NonOsi.Bytes.LittleEndian
import Mathlib.Data.Nat.Size

/-! # Big-endian byte strings

The big-endian byte strings are the little-endian ones reversed. A number has a shortest
one, of `byteLength` bytes. Two shortest strings put together do not tell where the first
one ends: `Regrouped` says that the boundary can be moved to the right by some bytes, which
then belong to the first number. -/

namespace BigEndian

/-- The number a byte string holds, highest byte first. -/
def toNat (bs : Bytes) : Nat :=
  LittleEndian.toNat bs.reverse

/-- The `n` low bytes of `v`, highest first. -/
def ofNat (n v : Nat) : Bytes :=
  (LittleEndian.ofNat n v).reverse

@[simp] theorem length_ofNat (n v : Nat) : (ofNat n v).length = n := by
  rw [ofNat, List.length_reverse, LittleEndian.length_ofNat]

theorem toNat_ofNat (n v : Nat) : toNat (ofNat n v) = v % 256 ^ n := by
  rw [toNat, ofNat, List.reverse_reverse, LittleEndian.toNat_ofNat]

theorem ofNat_toNat (bs : Bytes) : ofNat bs.length (toNat bs) = bs := by
  rw [ofNat, toNat, ← List.length_reverse, LittleEndian.ofNat_toNat, List.reverse_reverse]

/-- A byte string is its length and the number it holds. -/
theorem eq_iff {bs bs' : Bytes} : bs = bs' ↔ bs.length = bs'.length ∧ toNat bs = toNat bs' := by
  constructor
  · rintro rfl
    exact ⟨rfl, rfl⟩
  · rintro ⟨hlen, hval⟩
    rw [← ofNat_toNat bs, ← ofNat_toNat bs', hlen, hval]

theorem toNat_append (bs bs' : Bytes) :
    toNat (bs ++ bs') = toNat bs * 256 ^ bs'.length + toNat bs' := by
  rw [toNat, List.reverse_append, LittleEndian.toNat_append, List.length_reverse, toNat, toNat]
  ring

/-! ## Shortest byte strings -/

/-- The number of bytes a number needs. -/
def byteLength (v : Nat) : Nat :=
  (v.size + 7) / 8

theorem byteLength_le_iff {v n : Nat} : byteLength v ≤ n ↔ v < 256 ^ n := by
  have hpow : 256 ^ n = 2 ^ (8 * n) := by
    rw [pow_mul]
    rfl
  rw [hpow, ← Nat.size_le, byteLength]
  omega

theorem lt_pow_byteLength (v : Nat) : v < 256 ^ byteLength v :=
  byteLength_le_iff.mp le_rfl

/-- Bytes added at the end count. -/
theorem byteLength_mul_pow_add {v r k : Nat} (hv : 0 < v) (hr : r < 256 ^ k) :
    byteLength (v * 256 ^ k + r) = byteLength v + k := by
  -- both have the same upper bounds, those from `k` on
  have hle (n : Nat) : byteLength (v * 256 ^ k + r) ≤ n + k ↔ byteLength v ≤ n := by
    rw [byteLength_le_iff, byteLength_le_iff, Nat.pow_add]
    constructor
    · intro h
      exact lt_of_mul_lt_mul_right (by omega) (Nat.zero_le (256 ^ k))
    · intro h
      calc v * 256 ^ k + r
          < v * 256 ^ k + 256 ^ k := Nat.add_lt_add_left hr _
        _ = (v + 1) * 256 ^ k := by ring
        _ ≤ 256 ^ n * 256 ^ k := Nat.mul_le_mul_right _ h
  have hk : k < byteLength (v * 256 ^ k + r) := by
    have hlow : 256 ^ k ≤ v * 256 ^ k + r :=
      Nat.le_add_right_of_le (Nat.le_mul_of_pos_left _ hv)
    exact (Nat.pow_lt_pow_iff_right (by decide)).mp (hlow.trans_lt (lt_pow_byteLength _))
  apply le_antisymm
  · exact (hle _).mpr le_rfl
  · have hback := (hle (byteLength (v * 256 ^ k + r) - k)).mp (by omega)
    omega

/-- The shortest byte string of a number. -/
def shortest (v : Nat) : Bytes :=
  ofNat (byteLength v) v

theorem length_shortest (v : Nat) : (shortest v).length = byteLength v :=
  length_ofNat ..

theorem toNat_shortest (v : Nat) : toNat (shortest v) = v := by
  rw [shortest, toNat_ofNat, Nat.mod_eq_of_lt (lt_pow_byteLength v)]

/-! ## Two shortest byte strings in a row -/

/-- `(n', e')` is `(n, e)` with the leading bytes of `e` moved to the end of `n`. -/
def Regrouped (n e n' e' : Nat) : Prop :=
  byteLength e' < byteLength e ∧ e' = e % 256 ^ byteLength e' ∧
    n' = n * 256 ^ (byteLength e - byteLength e') + e / 256 ^ byteLength e'

instance (n e n' e' : Nat) : Decidable (Regrouped n e n' e') :=
  inferInstanceAs (Decidable (_ ∧ _ ∧ _))

theorem shortest_append_eq_iff {n e n' e' : Nat} :
    shortest n ++ shortest e = shortest n' ++ shortest e' ↔
      byteLength n + byteLength e = byteLength n' + byteLength e' ∧
        n * 256 ^ byteLength e + e = n' * 256 ^ byteLength e' + e' := by
  rw [eq_iff, List.length_append, List.length_append, toNat_append, toNat_append]
  simp only [length_shortest, toNat_shortest]

theorem pow_byteLength_eq {e e' : Nat} (h : byteLength e' < byteLength e) :
    256 ^ byteLength e = 256 ^ (byteLength e - byteLength e') * 256 ^ byteLength e' := by
  rw [← pow_add, Nat.sub_add_cancel h.le]

/-- Regrouping does not change the bytes. -/
theorem Regrouped.shortest_append_eq {n e n' e' : Nat} (hn : 0 < n) (h : Regrouped n e n' e') :
    shortest n ++ shortest e = shortest n' ++ shortest e' := by
  obtain ⟨hlen, he', hn'⟩ := h
  have hmoved : e / 256 ^ byteLength e' < 256 ^ (byteLength e - byteLength e') := by
    apply Nat.div_lt_of_lt_mul
    rw [Nat.mul_comm, ← pow_byteLength_eq hlen]
    exact lt_pow_byteLength e
  rw [shortest_append_eq_iff]
  constructor
  · rw [hn', byteLength_mul_pow_add hn hmoved]
    omega
  · calc n * 256 ^ byteLength e + e
        = n * 256 ^ byteLength e +
            (e / 256 ^ byteLength e' * 256 ^ byteLength e' + e % 256 ^ byteLength e') := by
          rw [Nat.div_add_mod']
      _ = n' * 256 ^ byteLength e' + e' := by
          rw [← he', hn', pow_byteLength_eq hlen]
          ring

/-- From a string with the shorter second part the other pair is read off. -/
theorem regrouped_of_shortest_append_eq {n e n' e' : Nat} (hlen : byteLength e' < byteLength e)
    (h : shortest n ++ shortest e = shortest n' ++ shortest e') : Regrouped n e n' e' := by
  obtain ⟨-, hval⟩ := shortest_append_eq_iff.mp h
  have hlt := lt_pow_byteLength e'
  have hpos : 0 < 256 ^ byteLength e' := Nat.pow_pos (by decide)
  rw [pow_byteLength_eq hlen, ← mul_assoc] at hval
  refine ⟨hlen, ?_, ?_⟩
  · have hmod := congrArg (· % 256 ^ byteLength e') hval
    simp only [Nat.mul_add_mod', Nat.mod_eq_of_lt hlt] at hmod
    exact hmod.symm
  · have hdiv := congrArg (· / 256 ^ byteLength e') hval
    simp only [Nat.add_comm (_ * _), Nat.add_mul_div_right _ _ hpos, Nat.div_eq_of_lt hlt,
      Nat.zero_add] at hdiv
    rw [← hdiv, Nat.add_comm]

/-- Two pairs of numbers share a string exactly when they are equal or regrouped. -/
theorem shortest_append_eq_iff_regrouped {n e n' e' : Nat} (hn : 0 < n) (hn' : 0 < n') :
    shortest n ++ shortest e = shortest n' ++ shortest e' ↔
      (n = n' ∧ e = e') ∨ Regrouped n e n' e' ∨ Regrouped n' e' n e := by
  constructor
  · intro h
    rcases Nat.lt_trichotomy (byteLength e') (byteLength e) with hlt | heq | hgt
    · exact .inr (.inl (regrouped_of_shortest_append_eq hlt h))
    · have hlen : (shortest e).length = (shortest e').length := by
        rw [length_shortest, length_shortest, heq]
      obtain ⟨hfront, hback⟩ := List.append_inj' h hlen
      have hval := congrArg toNat hfront
      have hval' := congrArg toNat hback
      rw [toNat_shortest, toNat_shortest] at hval hval'
      exact .inl ⟨hval, hval'⟩
    · exact .inr (.inr (regrouped_of_shortest_append_eq hgt h.symm))
  · rintro (⟨rfl, rfl⟩ | h | h)
    · rfl
    · exact h.shortest_append_eq hn
    · exact (h.shortest_append_eq hn').symm

end BigEndian
