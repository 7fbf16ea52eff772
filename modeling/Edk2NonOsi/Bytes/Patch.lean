-- SUMMARY: Positioned writes as values: what a list of them does to a buffer, and that writes to disjoint spans commute.
import Edk2NonOsi.Bytes.Span

/-! # Patches

A *patch* is a write to a fixed position. A program that changes a file in a few
places is a list of patches, and the order of two programs does not matter when
no patch of one meets a patch of the other. -/

/-- A write of `elems` at `pos`. -/
structure Patch (α : Type*) where
  pos : Nat
  elems : List α

namespace Patch

variable {α : Type*}

def apply (p : Patch α) (xs : List α) : List α :=
  Span.write xs p.pos p.elems

/-- The patches of a list, the first one first. -/
def applyAll (ps : List (Patch α)) (xs : List α) : List α :=
  ps.foldl (fun xs p => p.apply xs) xs

/-- The positions a patch writes. -/
def range (p : Patch α) : Set Nat :=
  Set.Ico p.pos (p.pos + p.elems.length)

/-- The patch stays inside a list of length `n`; an empty one may stand anywhere. -/
def Inside (p : Patch α) (n : Nat) : Prop :=
  p.elems = [] ∨ p.pos + p.elems.length ≤ n

@[simp] theorem applyAll_nil (xs : List α) : applyAll [] xs = xs := rfl

@[simp] theorem applyAll_cons (p : Patch α) (ps : List (Patch α)) (xs : List α) :
    applyAll (p :: ps) xs = applyAll ps (p.apply xs) := rfl

theorem Inside.length_apply {p : Patch α} {xs : List α} (h : p.Inside xs.length) :
    (p.apply xs).length = xs.length := by
  obtain hnil | hle := h
  · rw [apply, hnil, Span.write_nil]
  · exact Span.length_write_of_le hle

theorem Inside.getElem?_apply {p : Patch α} {xs : List α} (h : p.Inside xs.length) (k : Nat) :
    (p.apply xs)[k]? =
      if p.pos ≤ k ∧ k < p.pos + p.elems.length then p.elems[k - p.pos]? else xs[k]? := by
  obtain hnil | hle := h
  · have hout : ¬ (p.pos ≤ k ∧ k < p.pos + ([] : List α).length) := by
      rw [List.length_nil]
      omega
    rw [apply, hnil, Span.write_nil, if_neg hout]
  · exact Span.getElem?_write xs p.pos p.elems (by omega) k

/-- A file write that stays inside the file fills no gap. -/
theorem Inside.writeFill {p : Patch α} {xs : List α} (h : p.Inside xs.length) (fill : α) :
    Span.writeFill fill xs p.pos p.elems = p.apply xs := by
  obtain hnil | hle := h
  · rw [apply, hnil, Span.writeFill_nil, Span.write_nil]
  · exact Span.writeFill_eq_write (by omega)

/-- A patch over the front of an earlier one is one patch of both. -/
theorem Inside.apply_apply {pos : Nat} {ys zs : List α} {xs : List α}
    (h : (⟨pos, ys⟩ : Patch α).Inside xs.length) (hz : zs.length ≤ ys.length) :
    apply ⟨pos, zs⟩ (apply ⟨pos, ys⟩ xs) = apply ⟨pos, zs ++ ys.drop zs.length⟩ xs := by
  obtain hnil | hle := h
  · have hys : ys = [] := hnil
    have hzs : zs = [] := List.length_eq_zero_iff.mp (by rw [hys] at hz; exact Nat.le_zero.mp hz)
    simp [apply, hys, hzs]
  · have hpos : pos ≤ xs.length := Nat.le_of_add_right_le hle
    exact Span.write_write_prefix hpos hz

/-- The later of two patches of one span wins. -/
theorem Inside.apply_apply_self {pos : Nat} {ys zs : List α} {xs : List α}
    (h : (⟨pos, ys⟩ : Patch α).Inside xs.length) (hz : zs.length = ys.length) :
    apply ⟨pos, zs⟩ (apply ⟨pos, ys⟩ xs) = apply ⟨pos, zs⟩ xs := by
  rw [h.apply_apply (Nat.le_of_eq hz), hz, List.drop_length, List.append_nil]

/-- Patches of disjoint spans commute. -/
theorem apply_comm {p q : Patch α} {xs : List α} (hp : p.Inside xs.length)
    (hq : q.Inside xs.length) (hd : Disjoint p.range q.range) :
    q.apply (p.apply xs) = p.apply (q.apply xs) := by
  have hp' : p.Inside (q.apply xs).length := by
    rw [hq.length_apply]
    exact hp
  have hq' : q.Inside (p.apply xs).length := by
    rw [hp.length_apply]
    exact hq
  apply List.ext_getElem?
  intro k
  rw [hq'.getElem?_apply, hp.getElem?_apply, hp'.getElem?_apply, hq.getElem?_apply]
  by_cases hk : k ∈ p.range
  · have hk' : k ∉ q.range := Set.disjoint_left.mp hd hk
    rw [range, Set.mem_Ico] at hk hk'
    rw [if_pos hk, if_neg hk', if_pos hk]
  · rw [range, Set.mem_Ico] at hk
    rw [if_neg hk, if_neg hk]

/-- A patch disjoint from a list of them moves past the list. -/
theorem applyAll_apply {p : Patch α} {qs : List (Patch α)} {xs : List α}
    (hp : p.Inside xs.length) (hqs : ∀ q ∈ qs, q.Inside xs.length)
    (hd : ∀ q ∈ qs, Disjoint p.range q.range) :
    applyAll qs (p.apply xs) = p.apply (applyAll qs xs) := by
  induction qs generalizing xs with
  | nil => rfl
  | cons q qs ih =>
    have hq := hqs q List.mem_cons_self
    have hlen := hq.length_apply
    rw [applyAll_cons, applyAll_cons, apply_comm hp hq (hd q List.mem_cons_self)]
    apply ih
    · rw [hlen]
      exact hp
    · intro d hmem
      rw [hlen]
      exact hqs d (List.mem_cons_of_mem q hmem)
    · exact fun d hmem => hd d (List.mem_cons_of_mem q hmem)

/-- Lists of patches none of which meet commute. -/
theorem applyAll_comm {ps qs : List (Patch α)} {xs : List α}
    (hps : ∀ p ∈ ps, p.Inside xs.length) (hqs : ∀ q ∈ qs, q.Inside xs.length)
    (hd : ∀ p ∈ ps, ∀ q ∈ qs, Disjoint p.range q.range) :
    applyAll qs (applyAll ps xs) = applyAll ps (applyAll qs xs) := by
  induction ps generalizing xs with
  | nil => rfl
  | cons p ps ih =>
    have hp := hps p List.mem_cons_self
    have hlen := hp.length_apply
    rw [applyAll_cons, applyAll_cons,
      ← applyAll_apply hp hqs (hd p List.mem_cons_self)]
    apply ih
    · intro d hmem
      rw [hlen]
      exact hps d (List.mem_cons_of_mem p hmem)
    · intro q hq
      rw [hlen]
      exact hqs q hq
    · exact fun d hmem => hd d (List.mem_cons_of_mem p hmem)

end Patch
