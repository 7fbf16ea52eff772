-- SUMMARY: Plain sums and double running sums as checksums: a sum brought to a target, closed forms, dependence on single elements, and which two-element changes the double sums miss.
import Mathlib.Algebra.BigOperators.Group.List.Basic
import Mathlib.Tactic

/-! # Plain sums

The weakest of the checksums: elements are added up, and one of them is chosen so
that the sum comes out as a fixed target. It misses a reordering, but no change of
a single element. -/

namespace PlainSum

variable {G : Type*} [AddCommGroup G]

/-- Changing one element is seen unless the change is zero. -/
theorem sum_set_eq_iff {xs : List G} {i : Nat} (hi : i < xs.length) (v : G) :
    (xs.set i v).sum = xs.sum ↔ v = xs[i] := by
  rw [List.sum_set', dif_pos hi]
  constructor
  · intro hsum
    have hzero : -xs[i] + v = 0 := add_eq_left.mp hsum
    rw [neg_add_eq_zero] at hzero
    exact hzero.symm
  · rintro rfl
    rw [neg_add_cancel, add_zero]

/-- The element that brings the sum to `target`, computed with zero in its place. -/
theorem sum_set_target {xs : List G} {i : Nat} (hi : i < xs.length) (target : G) :
    (xs.set i (target - (xs.set i 0).sum)).sum = target := by
  rw [List.sum_set', dif_pos hi, List.sum_set', dif_pos hi]
  abel

end PlainSum

/-! # Double running sums

A double running sum adds every element to a first accumulator and, after each
element, adds the first accumulator to a second one. The first sum is blind to
the order of the elements; the second weighs each element by its distance from
the end, which is what lets the pair see a transposition. -/

namespace RunningSum

variable {R : Type*}

/-- One element: add it to the first sum, then the first sum to the second. -/
def step [Add R] (acc : R × R) (w : R) : R × R :=
  (acc.1 + w, acc.2 + (acc.1 + w))

/-- Both sums after a list of elements. -/
def sums [Add R] (acc : R × R) (ws : List R) : R × R :=
  ws.foldl step acc

variable [CommRing R]

/-- The sum of the elements, each weighted by its distance from the end. -/
def weighted : List R → R
  | [] => 0
  | w :: ws => ((ws.length + 1 : ℕ) : R) * w + weighted ws

theorem sums_eq (a b : R) (ws : List R) :
    sums (a, b) ws = (a + ws.sum, b + (ws.length : R) * a + weighted ws) := by
  induction ws generalizing a b with
  | nil => simp [sums, weighted]
  | cons w ws ih =>
    have hstep : sums (a, b) (w :: ws) = sums (a + w, b + (a + w)) ws := rfl
    rw [hstep, ih]
    simp only [List.sum_cons, List.length_cons, weighted, Nat.cast_add, Nat.cast_one,
      Prod.mk.injEq]
    constructor
    · ring
    · ring

/-- From zero accumulators the pair is the plain and the weighted sum. -/
theorem sums_zero (ws : List R) : sums (0, 0) ws = (ws.sum, weighted ws) := by
  simp [sums_eq]

theorem weighted_append (xs ys : List R) :
    weighted (xs ++ ys) = weighted xs + (ys.length : R) * xs.sum + weighted ys := by
  induction xs with
  | nil => simp [weighted]
  | cons x xs ih =>
    simp only [List.cons_append, weighted, List.length_append, List.sum_cons, ih, Nat.cast_add,
      Nat.cast_one]
    ring

/-! ## Changing elements -/

theorem sum_set {ws : List R} {i : Nat} (hi : i < ws.length) (v : R) :
    (ws.set i v).sum = ws.sum + (v - ws[i]) := by
  rw [List.sum_set', dif_pos hi]
  ring

theorem weighted_set {ws : List R} {i : Nat} (hi : i < ws.length) (v : R) :
    weighted (ws.set i v) = weighted ws + ((ws.length - i : ℕ) : R) * (v - ws[i]) := by
  induction ws generalizing i with
  | nil => simp at hi
  | cons w ws ih =>
    cases i with
    | zero =>
      simp only [List.set_cons_zero, weighted, List.length_cons, Nat.sub_zero,
        List.getElem_cons_zero]
      ring
    | succ i =>
      have hi' : i < ws.length := by simpa using hi
      have hlen : (w :: ws).length - (i + 1) = ws.length - i := by simp
      simp only [List.set_cons_succ, weighted, List.length_set, List.getElem_cons_succ, ih hi',
        hlen]
      ring

/-- Changing one element is seen unless the change is zero. -/
theorem sums_set_eq_iff {ws : List R} {i : Nat} (hi : i < ws.length) (v : R) :
    sums (0, 0) (ws.set i v) = sums (0, 0) ws ↔ v = ws[i] := by
  rw [sums_zero, sums_zero, Prod.mk.injEq, sum_set hi, weighted_set hi]
  constructor
  · rintro ⟨hsum, -⟩
    linear_combination hsum
  · rintro rfl
    simp

/-- Changing two elements goes unseen exactly when the changes cancel and their
    distance annihilates them. -/
theorem sums_set_set_eq_iff {ws : List R} {i j : Nat} (hij : i < j) (hj : j < ws.length)
    (vi vj : R) :
    sums (0, 0) ((ws.set i vi).set j vj) = sums (0, 0) ws ↔
      (vi - ws[i]) + (vj - ws[j]) = 0 ∧ ((j - i : ℕ) : R) * (vi - ws[i]) = 0 := by
  have hi : i < ws.length := by omega
  have hj' : j < (ws.set i vi).length := by simpa using hj
  have hget : (ws.set i vi)[j] = ws[j] := List.getElem_set_ne (by omega) _
  have hweight : ((ws.length - i : ℕ) : R) = ((ws.length - j : ℕ) : R) + ((j - i : ℕ) : R) := by
    rw [← Nat.cast_add]
    congr 1
    omega
  rw [sums_zero, sums_zero, Prod.mk.injEq, sum_set hj', weighted_set hj', hget, sum_set hi,
    weighted_set hi, List.length_set, hweight]
  constructor
  · rintro ⟨hsum, hweighted⟩
    constructor
    · linear_combination hsum
    · linear_combination hweighted - ((ws.length - j : ℕ) : R) * hsum
  · rintro ⟨hcancel, hdist⟩
    constructor
    · linear_combination hcancel
    · linear_combination hdist + ((ws.length - j : ℕ) : R) * hcancel

/-- Two adjacent elements somewhere in a list: how both sums depend on them. -/
theorem sums_insert_pair (pre post : List R) (x y : R) :
    sums (0, 0) (pre ++ x :: y :: post) =
      ((sums (0, 0) (pre ++ 0 :: 0 :: post)).1 + (x + y),
        (sums (0, 0) (pre ++ 0 :: 0 :: post)).2 +
          (((post.length + 2 : ℕ) : R) * x + ((post.length + 1 : ℕ) : R) * y)) := by
  simp only [sums_zero, weighted_append, List.sum_append, List.sum_cons, weighted, List.length_cons,
    Nat.cast_add, Nat.cast_one, Nat.cast_ofNat, Prod.mk.injEq]
  constructor
  · ring
  · ring

end RunningSum
