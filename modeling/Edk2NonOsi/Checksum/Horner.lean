-- SUMMARY: Horner evaluation over a commutative ring: closed form, and evaluation block by block with a restart whenever the value is zero.
import Mathlib.Algebra.BigOperators.Group.List.Basic
import Mathlib.Tactic

/-! # Horner evaluation

A multiplicative hash evaluates a polynomial: it multiplies what it has by a constant and
adds the next element. From any start it is linear in the start, so evaluating block after
block is evaluating the concatenation. Where a zero value is replaced by a start value
before a block, every such restart adds the start value, weighted by the elements behind. -/

namespace Horner

variable {R S : Type*}

/-- The value after a list of elements, from an initial one. -/
def eval [Add R] [Mul R] (x acc : R) (ds : List R) : R :=
  ds.foldl (fun acc d => acc * x + d) acc

/-- The sum of the elements, each weighted by the elements behind it. -/
def weighted [Semiring R] (x : R) : List R → R
  | [] => 0
  | d :: ds => d * x ^ ds.length + weighted x ds

theorem eval_append [Add R] [Mul R] (x acc : R) (ds ds' : List R) :
    eval x acc (ds ++ ds') = eval x (eval x acc ds) ds' :=
  List.foldl_append

theorem eval_eq [CommSemiring R] (x acc : R) (ds : List R) :
    eval x acc ds = acc * x ^ ds.length + weighted x ds := by
  induction ds generalizing acc with
  | nil => simp [eval, weighted]
  | cons d ds ih =>
    have hstep : eval x acc (d :: ds) = eval x (acc * x + d) ds := rfl
    rw [hstep, ih, weighted, List.length_cons]
    ring

theorem map_weighted [Semiring R] [Semiring S] (f : R →+* S) (x : R) (ds : List R) :
    f (weighted x ds) = weighted (f x) (ds.map f) := by
  induction ds with
  | nil => exact map_zero f
  | cons d ds ih =>
    rw [weighted, map_add, map_mul, map_pow, ih, List.map_cons, weighted, List.length_map]

/-! ## Blocks and restarts -/

variable [CommRing R] [DecidableEq R]

/-- The value a block starts from: `r` for a zero value. -/
def start (r acc : R) : R :=
  if acc = 0 then r else acc

/-- Block after block, each from the value of the one before. -/
def evalBlocks (x r acc : R) (blocks : List (List R)) : R :=
  blocks.foldl (fun acc ds => eval x (start r acc) ds) acc

/-- The weights of the restarts. -/
def restarts (x r acc : R) : List (List R) → R
  | [] => 0
  | ds :: blocks =>
    (if acc = 0 then x ^ (ds :: blocks).flatten.length else 0) +
      restarts x r (eval x (start r acc) ds) blocks

/-- A restart adds `r`, weighted by what is behind it. -/
theorem eval_start (x r acc : R) (ds : List R) :
    eval x (start r acc) ds = eval x acc ds + r * (if acc = 0 then x ^ ds.length else 0) := by
  rw [start, eval_eq, eval_eq]
  by_cases h : acc = 0
  · rw [if_pos h, if_pos h, h]
    ring
  · rw [if_neg h, if_neg h]
    ring

/-- What evaluating by blocks has over evaluating the concatenation. -/
theorem evalBlocks_eq (x r acc : R) (blocks : List (List R)) :
    evalBlocks x r acc blocks = eval x acc blocks.flatten + r * restarts x r acc blocks := by
  induction blocks generalizing acc with
  | nil => simp [evalBlocks, eval, restarts]
  | cons ds blocks ih =>
    rw [restarts, mul_add, ← add_assoc, ← eval_start, List.flatten_cons, eval_append]
    exact ih (eval x (start r acc) ds)

end Horner
